import Patchbay.Sound.Format

/-!
The settings of an engine and the ranges they must lie in. Ranges are checked in a fixed order, and
the first one left is reported.
-/

namespace Patchbay

structure Config where
  sampleRate : UInt32 := 44100
  channels : UInt16 := 2
  /-- No input stream when 0. -/
  inputChannels : UInt16 := 1
  framesPerBuffer : UInt32 := 256
  tickRate : Sample := 50
  maxUnits : UInt64 := 64
  queueCapacity : UInt64 := 256
  deriving DecidableEq

namespace Config

def maxChannels : UInt16 := 32
def maxFrames : UInt32 := 8192
def minTickRate : Sample := 0.1
def maxTickRate : Sample := 1000

inductive Fault
  | sampleRate
  | channels (n : UInt16)
  | inputChannels (n : UInt16)
  | framesPerBuffer (n : UInt32)
  | tickRate (x : Sample)
  | maxUnits
  | queueCapacity
  deriving DecidableEq

def Fault.message : Fault → String
  | sampleRate => "sample_rate must be positive"
  | channels n => "channels must be in 1..=" ++ toString maxChannels ++ ", got " ++ toString n
  | inputChannels n =>
    "input_channels must be at most " ++ toString maxChannels ++ ", got " ++ toString n
  | framesPerBuffer n =>
    "frames_per_buffer must be in 1..=" ++ toString maxFrames ++ ", got " ++ toString n
  | tickRate x =>
    "tick_rate_hz must be in " ++ minTickRate.toText ++ "..=" ++ maxTickRate.toText ++ ", got "
      ++ x.toText
  | maxUnits => "max_dsp_units must be positive"
  | queueCapacity => "command_queue_capacity must be at least 2"

/-- The first setting outside its range. One attachment can take two places in the queue. -/
def fault? (c : Config) : Option Fault :=
  if c.sampleRate = 0 then some .sampleRate
  else if c.channels = 0 || maxChannels < c.channels then some (.channels c.channels)
  else if maxChannels < c.inputChannels then some (.inputChannels c.inputChannels)
  else if c.framesPerBuffer = 0 || maxFrames < c.framesPerBuffer then
    some (.framesPerBuffer c.framesPerBuffer)
  else if !(minTickRate ≤ c.tickRate && c.tickRate ≤ maxTickRate) then some (.tickRate c.tickRate)
  else if c.maxUnits = 0 then some .maxUnits
  else if c.queueCapacity < 2 then some .queueCapacity
  else none

def outputFormat (c : Config) : StreamFormat where
  sampleRate := .ofHz c.sampleRate
  channels := .ofCount c.channels
  framesPerBuffer := c.framesPerBuffer.toNat

def inputFormat? (c : Config) : Option StreamFormat :=
  if 0 < c.inputChannels then some { c.outputFormat with channels := .ofCount c.inputChannels }
  else none

def tickPeriod? (c : Config) : Option Span := Span.ofSeconds? (1 / c.tickRate.widen)

end Config

end Patchbay

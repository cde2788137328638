import Patchbay.Sound.Span

/-!
The geometry of a stream: how many frames a second, how many channels a frame, how many frames a
buffer. Rates and counts in common use have names of their own.
-/

namespace Patchbay

inductive SampleRate
  | hz44100
  | hz48000
  | hz96000
  | custom (hz : UInt32)
  deriving DecidableEq, Repr

namespace SampleRate

def ofHz (hz : UInt32) : SampleRate :=
  if hz = 44100 then .hz44100
  else if hz = 48000 then .hz48000
  else if hz = 96000 then .hz96000
  else .custom hz

def hz : SampleRate → UInt32
  | .hz44100 => 44100
  | .hz48000 => 48000
  | .hz96000 => 96000
  | .custom hz => hz

@[simp] theorem hz_ofHz (hz : UInt32) : (ofHz hz).hz = hz := by
  unfold ofHz
  split
  · simp_all [SampleRate.hz]
  · split
    · simp_all [SampleRate.hz]
    · split <;> simp_all [SampleRate.hz]

def name : SampleRate → String
  | .hz44100 => "Hz44100"
  | .hz48000 => "Hz48000"
  | .hz96000 => "Hz96000"
  | .custom _ => "Custom"

end SampleRate

inductive ChannelCount
  | mono
  | stereo
  | surround (count : UInt16)
  deriving DecidableEq, Repr

namespace ChannelCount

def ofCount (n : UInt16) : ChannelCount :=
  if n = 1 then .mono else if n = 2 then .stereo else .surround n

def count : ChannelCount → UInt16
  | .mono => 1
  | .stereo => 2
  | .surround n => n

@[simp] theorem count_ofCount (n : UInt16) : (ofCount n).count = n := by
  unfold ofCount
  split
  · simp_all [count]
  · split <;> simp_all [count]

def name : ChannelCount → String
  | .mono => "Mono"
  | .stereo => "Stereo"
  | .surround _ => "Surround"

end ChannelCount

structure StreamFormat where
  sampleRate : SampleRate := .hz44100
  channels : ChannelCount := .stereo
  framesPerBuffer : Nat := 256
  deriving DecidableEq, Repr

namespace StreamFormat

def samplesPerBuffer (f : StreamFormat) : Nat := f.framesPerBuffer * f.channels.count.toNat

/-- How long one buffer lasts; a rate of 0 has no period. -/
def bufferPeriod? (f : StreamFormat) : Option Span :=
  Span.ofSeconds? ((Decimal.mk false f.framesPerBuffer 0).toFloat
    / (Decimal.mk false f.sampleRate.hz.toNat 0).toFloat)

end StreamFormat

end Patchbay

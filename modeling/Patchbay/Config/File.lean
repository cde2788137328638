import Patchbay.Config.Basic
import Patchbay.Toml.Document

/-!
Settings as text and in files. Writing gives one line a setting; reading takes a missing setting
from the defaults, passes over unknown keys, and refuses what is out of range. Nothing is saved
that could not be loaded.
-/

namespace Patchbay

inductive ConfigError
  | unreachable
  | unreadable
  | invalid (fault : Config.Fault)
  deriving DecidableEq

def ConfigError.message : ConfigError → String
  | unreachable => "IO error"
  | unreadable => "TOML parsing error"
  | invalid fault => "Invalid configuration: " ++ fault.message

namespace Config

def validate (c : Config) : Except ConfigError Unit :=
  match c.fault? with
  | some fault => .error (.invalid fault)
  | none => .ok ()

def toText (c : Config) : String :=
  let line := fun (key value : String) => key ++ " = " ++ value ++ "\n"
  line "sample_rate" (toString c.sampleRate)
    ++ line "channels" (toString c.channels)
    ++ line "input_channels" (toString c.inputChannels)
    ++ line "frames_per_buffer" (toString c.framesPerBuffer)
    ++ line "tick_rate_hz" (NumberStyle.pointed.write c.tickRate)
    ++ line "max_dsp_units" (toString c.maxUnits)
    ++ line "command_queue_capacity" (toString c.queueCapacity)

/-- The value of a key, or its default where the key is missing. -/
def setting {α : Type} (t : Toml.Table) (key : String) (read : Toml.Value → Option α)
    (default : α) : Option α :=
  match t.get? key with
  | none => some default
  | some v => read v

/-- The settings a table holds, whether or not they are in range. Every value in it must have a
meaning, also under keys that are no setting. -/
def ofTable? (t : Toml.Table) : Option Config := do
  let d : Config := {}
  if !t.isMeaningful then none else some {
    sampleRate := ← setting t "sample_rate" word32 d.sampleRate
    channels := ← setting t "channels" word16 d.channels
    inputChannels := ← setting t "input_channels" word16 d.inputChannels
    framesPerBuffer := ← setting t "frames_per_buffer" word32 d.framesPerBuffer
    tickRate := ← setting t "tick_rate_hz" Toml.Value.sample? d.tickRate
    maxUnits := ← setting t "max_dsp_units" word64 d.maxUnits
    queueCapacity := ← setting t "command_queue_capacity" word64 d.queueCapacity }
where
  word16 (v : Toml.Value) : Option UInt16 := UInt16.ofNat <$> v.natural? UInt16.size
  word32 (v : Toml.Value) : Option UInt32 := UInt32.ofNat <$> v.natural? UInt32.size
  word64 (v : Toml.Value) : Option UInt64 := UInt64.ofNat <$> v.natural? UInt64.size

def ofText (text : String) : Except ConfigError Config :=
  match Toml.read? text >>= ofTable? with
  | none => .error .unreadable
  | some c => do
    c.validate
    pure c

def load (content : Option ByteArray) : Except ConfigError Config :=
  match content >>= String.fromUTF8? with
  | none => .error .unreachable
  | some text => ofText text

def save (c : Config) : Except ConfigError String := do
  c.validate
  pure c.toText

/-- What is done with a file: its content is the state, `none` while it is missing. -/
abbrev FileOperation (α : Type) := EStateM ConfigError (Option ByteArray) α

def saveFile (c : Config) : FileOperation Unit := do
  let text ← ofExcept c.save
  set (some text.toUTF8)

def loadFile : FileOperation Config := do
  ofExcept (load (← get))

end Config

end Patchbay

import Patchbay.Config.File
import Patchbay.Tone.Bank
import Patchbay.Unit.Design

/-! Why an engine refuses an operation. -/

namespace Patchbay

inductive EngineError
  | config (cause : ConfigError)
  | design (cause : DesignError)
  | bank (cause : BankError)
  | invalidUnit (unit : UnitHandle)
  | invalidEvent (event : EventHandle)
  | noInput
  | otherType (unit : UnitHandle)
  /-- Units that are being released keep their slots, so they count. -/
  | unitsExhausted (capacity : Nat)
  | queueFull (needed free : Nat)
  /-- More commands or units than memory can have places for. -/
  | beyondMemory
  deriving DecidableEq

def EngineError.message : EngineError → String
  | config cause => "Configuration error: " ++ cause.message
  | design cause => "DSP unit error: " ++ cause.message
  | bank cause => "Registry error: " ++ cause.message
  | invalidUnit unit => "Invalid DSP unit handle: " ++ unit.text
  | invalidEvent event => "Invalid event handle: " ++ event.text
  | noInput => "No input stream configured"
  | otherType unit => "State type mismatch for " ++ unit.text
  | unitsExhausted capacity =>
    "DSP unit capacity exceeded (" ++ toString capacity ++ " units, including releases in flight)"
  | queueFull needed free =>
    "Command queue full (" ++ toString needed ++ " slots needed, " ++ toString free ++ " free)"
  | beyondMemory => "Capacity overflow"

end Patchbay

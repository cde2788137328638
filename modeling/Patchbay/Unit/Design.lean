import Patchbay.Exchange.Shared

/-! Designs of units. A design becomes a unit when it says how to process sound. -/

namespace Patchbay

structure Design (U : Type) where
  unit : U
  name : String := "custom"
  processes : Bool := true

inductive DesignError
  | missingProcess (name : String)
  deriving DecidableEq

def DesignError.message : DesignError → String
  | missingProcess name => "DSP unit '" ++ name ++ "' has no process callback"

namespace Design

variable {U : Type}

def build (d : Design U) : Except DesignError U :=
  if d.processes then .ok d.unit else .error (.missingProcess d.name)

def text (d : Design U) : String := "DspUnit \x7b name: " ++ inspect d.name ++ ", .. \x7d"

end Design

end Patchbay

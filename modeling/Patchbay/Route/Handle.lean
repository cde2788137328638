/-!
Handles name units, events and banks. A unit handle carries the generation of its slot, so that it
goes stale when the slot is given to another unit. A target is a place where one unit can sit.
-/

namespace Patchbay

structure EventHandle where
  raw : UInt32
  deriving DecidableEq, Repr

structure BankHandle where
  raw : UInt32
  deriving DecidableEq, Repr

structure UnitHandle where
  index : Nat
  generation : UInt32
  deriving DecidableEq, Repr

/-- A place in the signal path: one event's sound, the captured input, or the final mix. -/
inductive Target
  | event (event : EventHandle)
  | input
  | output
  deriving DecidableEq, Repr

def Target.event? : Target → Option EventHandle
  | .event e => some e
  | _ => none

def EventHandle.text (h : EventHandle) : String := "event#" ++ toString h.raw

def BankHandle.text (h : BankHandle) : String := "bank#" ++ toString h.raw

def UnitHandle.text (h : UnitHandle) : String :=
  "dsp#" ++ toString h.index ++ "." ++ toString h.generation

def Target.text : Target → String
  | .event e => e.text
  | .input => "input"
  | .output => "output"

/-- What an operation on the attachments changes for one unit. -/
inductive RouteChange
  | attach (unit : UnitHandle) (target : Target)
  | move (unit : UnitHandle) (source target : Target)
  | detach (unit : UnitHandle) (source : Target)
  deriving DecidableEq, Repr

end Patchbay

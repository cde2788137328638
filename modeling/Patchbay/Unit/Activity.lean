import Patchbay.Unit.Dsp
import Patchbay.Unit.Store

/-!
What happens to units: exchanges on either side, processing, and the end. A rack is a store of units
with a journal of all this, in order; every entry holds the unit, and the buffer, as they were at
that moment.
-/

namespace Patchbay

inductive Occurrence
  | exchangedControl
  | exchangedAudio
  | processed (buffer : AudioBuffer)
  | released
  deriving DecidableEq

structure Activity (U : Type) where
  unit : UnitHandle
  kind : Occurrence
  state : U

structure Rack (U : Type) where
  units : UnitStore U
  journal : List (Activity U) := []

namespace Rack

variable {U : Type} [Dsp U]

def note (r : Rack U) (u : UnitHandle) (kind : Occurrence) (state : U) : Rack U :=
  { r with journal := r.journal ++ [⟨u, kind, state⟩] }

def exchangeControlAt (r : Rack U) (i : Nat) : Rack U :=
  match r.units.slots[i]? with
  | some ⟨generation, some entry⟩ =>
    { r with units := r.units.modifyAt i ({ · with unit := Dsp.exchangeControl entry.unit }) }.note
      ⟨i, generation⟩ .exchangedControl entry.unit
  | _ => r

def exchangeAudio (r : Rack U) (u : UnitHandle) : Rack U :=
  match r.units.get? u with
  | some entry =>
    { r with units := r.units.setUnit u (Dsp.exchangeAudio entry.unit) }.note u .exchangedAudio
      entry.unit
  | none => r

/-- Sends a buffer through a unit, which passes over an empty one. -/
def process (r : Rack U) (u : UnitHandle) (b : AudioBuffer) : AudioBuffer × Rack U :=
  match r.units.get? u with
  | some entry =>
    let (out, unit) := Dsp.run b entry.unit
    let r := { r with units := r.units.setUnit u unit }
    (out, if b.isEmpty then r else r.note u (.processed b) entry.unit)
  | none => (b, r)

def processAt (r : Rack U) (u? : Option UnitHandle) (b : AudioBuffer) : AudioBuffer × Rack U :=
  match u? with
  | some u => r.process u b
  | none => (b, r)

def retire (r : Rack U) (u : UnitHandle) : Rack U :=
  match r.units.get? u with
  | some entry => { r with units := r.units.retire u }.note u .released entry.unit
  | none => { r with units := r.units.retire u }

end Rack

end Patchbay

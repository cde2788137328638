import Patchbay.Proofs.Session.Agreement
import Patchbay.Proofs.Session.Words

/-! What a handle is worth. In every state of a run the slots are accounted for, and their
generations say how often each was emptied. So a handle is taken by operations exactly while the
unit that it was given out for is in use, and it is given out again only when the generations have
come round. All this is so in words too, while words can tell the slots apart. -/

namespace Patchbay

open Activity

variable {U : Type}

namespace Session

structure Refuses (s : Session U) (u : UnitHandle) : Prop where
  call : ∀ call : Call U, call.unit? = some u → ∃ e, (s.attempt call.operation).1 = .error e ∧
    (call.HasTarget s.engine → e = .invalidUnit u)
  attachment : s.engine.attachment u = .error (.invalidUnit u)
  unitName : s.engine.unitName u = .error (.invalidUnit u)
  control : ∀ {α : Type} (view : U → Option α), s.engine.control u view = .error (.invalidUnit u)
  edit : ∀ write : U → Option U, ∃ e, s.engine.edit u write = .error e ∧ e = .invalidUnit u

theorem refuses_of_not_live {s : Session U} {u : UnitHandle} (h : s.engine.units.live? u = none) :
    s.Refuses u := by
  have hentry := Engine.entry_of_not_live h
  refine ⟨?_, ?_, ?_, ?_, ?_⟩
  · intro call hunit
    obtain ⟨e, herror, htarget⟩ :=
      Call.error_of_not_live (c := ⟨s.engine, s.link.commands⟩) hunit h
    exact ⟨e, attempt_of_error herror, htarget⟩
  · unfold Engine.attachment
    rw [hentry]
    rfl
  · unfold Engine.unitName
    rw [hentry]
    rfl
  · intro α view
    unfold Engine.control
    rw [hentry]
    rfl
  · intro write
    unfold Engine.edit
    rw [hentry]
    exact ⟨_, rfl, rfl⟩

variable [Dsp U]

/-- Whether the slot of a handle holds a unit in use, and that unit was made under the handle. -/
def Holds (s : Session U) (deeds : List (Deed U)) (u : UnitHandle) : Prop :=
  (∃ generation entry, (s.after deeds).engine.units.slots[u.index]? =
      some ⟨generation, some entry⟩ ∧ entry.releasing = false) ∧
    s.lastGiven u.index deeds = some u

theorem capacity_start {c : Config} {tones : ToneBank} {s : Session U}
    (h : Session.start c tones = .ok s) (deeds : List (Deed U)) :
    (s.after deeds).engine.units.capacity = c.maxUnits.toNat := by
  rw [(inStep_start h).capacity_after]
  obtain ⟨link, -, rfl⟩ := start_eq_ok h
  rfl

theorem InStep.not_held_of_given? {s : Session U} (h : InStep s) {deed : Deed U} {u : UnitHandle}
    (hu : s.given? deed = some u) : (s.engine.units.get? u).isSome = false := by
  rw [Bool.eq_false_iff]
  exact fun hsome => h.vacant_of_given? hu hsome rfl

theorem act_of_given? {s : Session U} {deed : Deed U} {u : UnitHandle}
    (hu : s.given? deed = some u) : (s.act deed).2 = [] := by
  obtain ⟨design, rfl, -⟩ := given?_eq_some.mp hu
  rfl

theorem InStep.held_of_given? {s : Session U} (h : InStep s) {deed : Deed U} {u : UnitHandle}
    (hu : s.given? deed = some u) : ((s.act deed).1.engine.units.get? u).isSome = true := by
  have haccount := h.account deed u
  rw [if_pos hu, h.not_held_of_given? hu, act_of_given? hu] at haccount
  apply Bool.toNat_eq_one.mp
  simpa [departed, departures] using haccount.symm

end Session

end Patchbay

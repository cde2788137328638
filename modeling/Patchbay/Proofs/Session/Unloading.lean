import Patchbay.Proofs.Engine.Sending
import Patchbay.Proofs.Session.Handles

/-! When a loaded bank can be unloaded. Room is made sure of for a command to every unit that sits
on an event, of whatever bank. With nothing waiting there is room for as many of them as the queue
has places, and sending more buffers makes no more room. -/

namespace Patchbay

variable {U : Type}

namespace Operation

variable {c : Console U} {bank : BankHandle}

theorem unloadBank_of_full (h : c.commands.free < c.engine.hosted) :
    unloadBank bank c = .error (.queueFull c.engine.hosted c.commands.free) c := by
  unfold unloadBank
  apply (bind_of_ok (a := c) (t := c) rfl).trans
  exact bind_of_error (reserve_of_full (Nat.not_le_of_lt h))

theorem unloadBank_of_room (hbank : bank ∈ c.engine.tones.banks)
    (h : c.engine.hosted ≤ c.commands.free) : unloadBank bank c =
      clearEvents (c.engine.withoutBank bank).gone
        { c with engine := c.engine.withoutBank bank } := by
  have hunload : (onTones (.unload bank) : Operation U Unit) c =
      .ok () { c with engine := c.engine.withoutBank bank } :=
    onTones_unload.trans (if_pos (List.contains_iff_mem.mpr hbank))
  unfold unloadBank
  apply (bind_of_ok (a := c) (t := c) rfl).trans
  apply (bind_of_ok (reserve_of_room h)).trans
  apply (bind_of_ok hunload).trans
  rfl

end Operation

namespace Session

theorem attempt_unloadBank {s : Session U} {bank : BankHandle}
    (hbank : bank ∈ s.engine.tones.banks) : (s.attempt (Call.unloadBank bank).operation).1 =
      if s.engine.hosted ≤ s.link.commands.free then .ok .done
      else .error (.queueFull s.engine.hosted s.link.commands.free) := by
  by_cases hroom : s.engine.hosted ≤ s.link.commands.free
  · rw [if_pos hroom]
    have hunload := Operation.unloadBank_of_room (c := ⟨s.engine, s.link.commands⟩) hbank hroom
    exact attempt_of_ok (map_of_ok (hunload.trans (Operation.clearEvents_eq _)))
  · rw [if_neg hroom]
    exact attempt_of_error (map_of_error (Operation.unloadBank_of_full (Nat.lt_of_not_le hroom)))

theorem InStep.hosted_le {s : Session U} (h : InStep s) :
    s.engine.hosted ≤ s.engine.units.capacity := by
  have hsome : ∀ u ∈ s.engine.table.pairs.map Prod.fst, (s.engine.units.get? u).isSome := by
    intro u hu
    obtain ⟨p, hp, rfl⟩ := List.mem_map.mp hu
    have hlive := h.seated p.1 (Option.isSome_of_mem (AttachmentTable.attachment_eq_some.mpr hp))
    exact Option.isSome_of_isSome_filter _ _ hlive
  have hle := h.store.length_le_of_nodup s.engine.table.nodup_units hsome
  rw [List.length_map] at hle
  exact List.countP_le_length.trans hle

/-! The places of the queue. -/

theorem places_start {c : Config} {tones : ToneBank} {s : Session U}
    (h : Session.start c tones = .ok s) :
    s.link.commands.capacity = c.queueCapacity.toNat := by
  obtain ⟨link, hlink, rfl⟩ := start_eq_ok h
  unfold Link.ofCapacity? Queue.ofCapacity? at hlink
  split at hlink
  · split at hlink
    · cases hlink
      rfl
    · cases hlink
  · cases hlink

theorem places_takeUp (s : Session U) :
    s.takeUp.link.commands.capacity = s.link.commands.capacity := by
  unfold takeUp
  cases hpop : s.link.commands.pop? with
  | none => rfl
  | some popped => exact Queue.capacity_pop? hpop

variable [Dsp U]

theorem places_act (s : Session U) (deed : Deed U) :
    (s.act deed).1.link.commands.capacity = s.link.commands.capacity := by
  cases deed with
  | call call =>
    rcases s.attempt_call call with ⟨e, heq⟩ | ⟨answer, t, heq, ⟨sent, htakes, -⟩, -⟩
    · rw [act, heq]
    · rw [act, heq]
      exact htakes.capacity
  | edit u write =>
    obtain ⟨-, heq | ⟨before, unit, -, -, heq⟩⟩ := s.act_edit u write <;> rw [heq]
  | takeUp => exact s.places_takeUp
  | _ => rfl

theorem places_after {c : Config} {tones : ToneBank} {s : Session U}
    (h : Session.start c tones = .ok s) (deeds : List (Deed U)) :
    (s.after deeds).link.commands.capacity = c.queueCapacity.toNat := by
  induction deeds with
  | nil => exact places_start h
  | cons deed past ih => exact (places_act _ deed).trans ih

theorem drained_after_render {σ : Type} [SignalSource σ] (s : Session U) (source : σ)
    (deeds : List (Deed U)) : (s.after (.render source :: deeds)).link.commands.items = [] := rfl

theorem attempt_unloadBank_drained {c : Config} {tones : ToneBank} {s : Session U}
    (h : Session.start c tones = .ok s) {deeds : List (Deed U)}
    (hdrained : (s.after deeds).link.commands.items = []) {bank : BankHandle}
    (hbank : bank ∈ (s.after deeds).engine.tones.banks) :
    ((s.after deeds).attempt (Call.unloadBank bank).operation).1 =
      if (s.after deeds).engine.hosted ≤ c.queueCapacity.toNat then .ok .done
      else .error (.queueFull (s.after deeds).engine.hosted c.queueCapacity.toNat) := by
  have hfree : (s.after deeds).link.commands.free = c.queueCapacity.toNat := by
    rw [Queue.free, hdrained, places_after h]
    rfl
  rw [attempt_unloadBank hbank, hfree]

/-- When nothing waits, a loaded bank is unloaded just when the units on events are no more than the
queue has places. Otherwise it is refused, and refused again after any buffer. They are never more
than there may be units, so with as many places it is never refused. -/
theorem drained_unload {c : Config} {tones : ToneBank} {s : Session U}
    (h : Session.start c tones = .ok s) (deeds : List (Deed U))
    (hdrained : (s.after deeds).link.commands.items = []) {bank : BankHandle}
    (hbank : bank ∈ (s.after deeds).engine.tones.banks) :
    ((s.after deeds).attempt (Call.unloadBank bank).operation).1 =
      (if (s.after deeds).engine.hosted ≤ c.queueCapacity.toNat then .ok .done
      else .error (.queueFull (s.after deeds).engine.hosted c.queueCapacity.toNat)) ∧
    (s.after deeds).engine.hosted ≤ c.maxUnits.toNat ∧
    ∀ {σ : Type} [SignalSource σ] (source : σ),
      (((s.after deeds).render source).session.attempt (Call.unloadBank bank).operation).1 =
        ((s.after deeds).attempt (Call.unloadBank bank).operation).1 := by
  have hattempt := attempt_unloadBank_drained h hdrained hbank
  refine ⟨hattempt, ?_, fun source => ?_⟩
  · rw [← capacity_start h deeds]
    exact (inStep_after h deeds).hosted_le
  · have hrendered := s.drained_after_render source deeds
    exact (attempt_unloadBank_drained h hrendered hbank).trans hattempt.symm

def narrowConfig : Config := { tinyConfig with maxUnits := 3, queueCapacity := 2 }

def chord : ToneBank :=
  (ToneBank.new 44100).after [.load "events = [[\"c\", 264.0], [\"e\", 330.0], [\"g\", 396.0]]"]

def narrow : Session StockUnit where
  engine := .ofConfig narrowConfig chord
  link :=
    { commands := { capacity := narrowConfig.queueCapacity.toNat }
      retired := { capacity := narrowConfig.maxUnits.toNat } }
  mixer := .ofConfig narrowConfig

def duet : List (Deed StockUnit) :=
  [.call (.attachToEvent (some ⟨1, 0⟩) ⟨1⟩), .render Silence.mk,
    .call (.attachToEvent (some ⟨0, 0⟩) ⟨0⟩), .render Silence.mk,
    .call (.create (.gainMeter 1)), .call (.create (.gainMeter 1))]

def trio : List (Deed StockUnit) :=
  .call (.attachToEvent (some ⟨2, 0⟩) ⟨2⟩) :: .render Silence.mk ::
    .call (.create (.gainMeter 1)) :: .render Silence.mk :: duet

theorem start_narrow : Session.start narrowConfig chord = .ok narrow := rfl

theorem drained_unload_tiny : Session.start narrowConfig chord = .ok narrow ∧
    (narrow.after (.render Silence.mk :: duet)).link.commands.items = [] ∧
    ⟨0⟩ ∈ (narrow.after (.render Silence.mk :: duet)).engine.tones.banks ∧
    (narrow.after (.render Silence.mk :: duet)).engine.hosted = 2 ∧
    ((narrow.after (.render Silence.mk :: duet)).attempt (Call.unloadBank ⟨0⟩).operation).1 =
      .ok .done := by
  have hdrained : (narrow.after (.render Silence.mk :: duet)).link.commands.items = [] :=
    narrow.drained_after_render Silence.mk duet
  obtain ⟨hbank, hhosted⟩ :
      ⟨0⟩ ∈ (narrow.after (.render Silence.mk :: duet)).engine.tones.banks ∧
        (narrow.after (.render Silence.mk :: duet)).engine.hosted = 2 := by decide +kernel
  obtain ⟨hunload, -, -⟩ := drained_unload start_narrow _ hdrained hbank
  rw [hhosted] at hunload
  exact ⟨start_narrow, hdrained, hbank, hhosted, hunload⟩

theorem drained_not_unloaded : Session.start narrowConfig chord = .ok narrow ∧
    (narrow.after (.render Silence.mk :: trio)).link.commands.items = [] ∧
    ⟨0⟩ ∈ (narrow.after (.render Silence.mk :: trio)).engine.tones.banks ∧
    ((narrow.after (.render Silence.mk :: trio)).attempt (Call.unloadBank ⟨0⟩).operation).1 =
      .error (.queueFull 3 2) := by
  have hdrained : (narrow.after (.render Silence.mk :: trio)).link.commands.items = [] :=
    narrow.drained_after_render Silence.mk trio
  obtain ⟨hbank, hhosted⟩ :
      ⟨0⟩ ∈ (narrow.after (.render Silence.mk :: trio)).engine.tones.banks ∧
        (narrow.after (.render Silence.mk :: trio)).engine.hosted = 3 := by decide +kernel
  have hattempt := attempt_unloadBank_drained start_narrow hdrained hbank
  rw [hhosted] at hattempt
  exact ⟨start_narrow, hdrained, hbank, hattempt⟩

end Session

end Patchbay

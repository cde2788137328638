import Patchbay.Proofs.Session.InStep

/-! What every state of a run has in common. The mixer follows the engine: with the waiting commands
carried out, it has the units in use and no others, each where the engine has it. Audio halves are
conserved, so that nothing the mixer or the engine is prepared for as a last resort ever happens.
And a call is done as a whole or not at all. -/

namespace Patchbay

open Mixer Command

variable {U : Type}

structure Mixer.Follows (m : Mixer) (e : Engine U) : Prop where
  nodup : m.owned.Nodup
  mem_owned : ∀ u, u ∈ m.owned ↔ (e.units.live? u).isSome
  attachment : ∀ x ∈ m.units, e.attachment x.unit = .ok x.target

theorem Engine.attachment_eq {e : Engine U} {u : UnitHandle} (h : (e.units.live? u).isSome) :
    e.attachment u = .ok (e.table.attachment u) := by
  obtain ⟨entry, hentry⟩ := Option.isSome_iff_exists.mp h
  unfold Engine.attachment Engine.entry
  rw [hentry]
  rfl

theorem Mixer.follows_of_routing {m : Mixer} {e : Engine U} (hnodup : m.owned.Nodup)
    (hrouting : m.routing = e.routing) : m.Follows e where
  nodup := hnodup
  mem_owned u := by
    rw [← isSome_routing, hrouting, Engine.routing, Seating.isSome_among]
  attachment x hx := by
    have hsome := (routing_eq_some hnodup).mpr hx
    rw [hrouting, Engine.routing, Seating.among] at hsome
    split at hsome
    · rename_i hlive
      rw [Engine.attachment_eq hlive, Option.some.inj hsome]
    · cases hsome

theorem Mixer.Follows.targetOf {m : Mixer} {e : Engine U} (h : m.Follows e) {u : UnitHandle}
    (hu : (e.units.live? u).isSome) : e.attachment u = .ok (m.targetOf u) := by
  obtain ⟨x, hx, rfl⟩ := List.mem_map.mp ((h.mem_owned u).mpr hu)
  rw [h.attachment x hx, targetOf_eq, (routing_eq_some h.nodup).mpr hx]
  rfl

namespace Session

theorem InStep.follows_drain {s : Session U} (h : InStep s) :
    (s.mixer.drain s.link).1.Follows s.engine := by
  have hready := h.ready
  rw [← List.append_nil s.link.commands.items] at hready
  rw [drain_eq _ h.ready.overflow]
  exact follows_of_routing hready.applyAll.owned_nodup (hready.routing_applyAll.trans h.routing)

theorem commands_render [Dsp U] {σ : Type} [SignalSource σ] (s : Session U) (source : σ) :
    (s.render source).session.link.commands.items = [] := rfl

/-- The units that hold a slot, in use or being released, in the order of slots. -/
def holders (s : Session U) : List UnitHandle := s.engine.units.entries.map Prod.fst

theorem mem_holders {s : Session U} {u : UnitHandle} :
    u ∈ s.holders ↔ (s.engine.units.get? u).isSome := by
  unfold holders
  simp only [List.mem_map, Prod.exists, exists_and_right, exists_eq_right]
  simp only [UnitStore.mem_entries]
  exact Option.isSome_iff_exists.symm

theorem InStep.perm_holders {s : Session U} (h : InStep s) :
    (s.link.commands.items.filterMap adopted? ++ (s.mixer.owned ++ s.link.retired.items)).Perm
      s.holders := by
  have hmem := h.mem_halves
  have hnodup := h.ready.nodup
  unfold halves at hmem
  unfold Mixer.halves at hmem hnodup
  rw [h.ready.overflow, List.nil_append] at hmem hnodup
  exact (List.perm_ext_iff_of_nodup hnodup s.engine.units.entries_nodup).mpr
    fun u => (hmem u).trans mem_holders.symm

variable [Dsp U] {c : Config} {tones : ToneBank} {s : Session U}

/-- In every state of a run, carrying out the waiting commands makes the mixer follow the engine; so
after a buffer it has every unit in use where the engine has it. -/
theorem mixer_follows_engine (h : Session.start c tones = .ok s) (deeds : List (Deed U)) :
    ((s.after deeds).mixer.drain (s.after deeds).link).1.Follows (s.after deeds).engine ∧
      ∀ {σ : Type} [SignalSource σ] (source : σ) (u : UnitHandle),
        (((s.after deeds).render source).session.engine.units.live? u).isSome →
        ((s.after deeds).render source).session.engine.attachment u =
          .ok (((s.after deeds).render source).session.mixer.targetOf u) := by
  refine ⟨(inStep_after h deeds).follows_drain, fun source u hu => ?_⟩
  have hnext := ((inStep_after h deeds).render source)
  have hfollows := hnext.follows_drain
  rw [drain_eq _ hnext.ready.overflow, commands_render] at hfollows
  exact hfollows.targetOf hu

def displacement : List (Deed StockUnit) :=
  [.call (.attachToOutput (some ⟨1, 0⟩)), .tick, .takeUp,
    .call (.attachToOutput (some ⟨0, 0⟩)), .takeUp, .call (.create (.gainMeter 1)),
    .call (.create (.gainMeter 1))]

theorem mixer_follows_engine_tiny :
    Session.start tinyConfig (.new 44100) = .ok tiny ∧
    (tiny.after displacement).mixer.targetOf ⟨1, 0⟩ = none ∧
    ((tiny.after displacement).render Silence.mk).session.engine.attachment ⟨1, 0⟩ =
      .ok (some .output) ∧
    ((tiny.after displacement).render Silence.mk).session.engine.attachment ⟨1, 0⟩ =
      .ok (((tiny.after displacement).render Silence.mk).session.mixer.targetOf ⟨1, 0⟩) :=
  ⟨start_tiny, rfl, rfl, (mixer_follows_engine start_tiny displacement).2 Silence.mk ⟨1, 0⟩ rfl⟩

/-- In every state of a run the audio halves that are handed over by waiting commands, held by the
mixer, or on the way back are those of the units that hold a slot, one for each. So no half is ever
kept for later, every waiting command will find room and the unit it is about, and every half that
is back will find the slot of its unit. -/
theorem halves_conserved (h : Session.start c tones = .ok s) (deeds : List (Deed U)) :
    ((s.after deeds).link.commands.items.filterMap adopted? ++
        ((s.after deeds).mixer.owned ++ (s.after deeds).link.retired.items)).Perm
      (s.after deeds).holders ∧
    (s.after deeds).holders.Nodup ∧
    (s.after deeds).mixer.overflow = [] ∧
    (∀ done command waiting, (s.after deeds).link.commands.items = done ++ command :: waiting →
      ((s.after deeds).mixer.applyAll (s.after deeds).link.retired done).1.Finds
        ((s.after deeds).mixer.applyAll (s.after deeds).link.retired done).2 command) ∧
    ∀ done u waiting, (s.after deeds).link.retired.items = done ++ u :: waiting →
      ((Engine.collect done ⟨(s.after deeds).engine.units, []⟩).units.slot? u).isSome := by
  have hstep := inStep_after h deeds
  refine ⟨hstep.perm_holders, (s.after deeds).engine.units.entries_nodup, hstep.ready.overflow,
    ?_, ?_⟩
  · intro done command waiting hitems
    have hready := hstep.ready
    rw [hitems] at hready
    exact hready.applyAll.finds
  · intro done u waiting hitems
    have hnodup := hstep.ready.retired_nodup
    rw [hitems, List.nodup_append] at hnodup
    have hback (v : UnitHandle) (hv : v ∈ done ++ u :: waiting) :=
      hstep.isSome_get?_of_retired (hitems ▸ hv)
    obtain ⟨-, -, hentry, -⟩ := Engine.collect_spec
      ⟨(s.after deeds).engine.units, []⟩ hstep.store hnodup.1
      fun v hv => hback v (List.mem_append_left _ hv)
    have hu : u ∉ done := fun hmem => hnodup.2.2 u hmem u List.mem_cons_self rfl
    have hsome := hback u (List.mem_append_right _ List.mem_cons_self)
    have hcollected := hentry u
    rw [if_neg hu] at hcollected
    rw [← hcollected] at hsome
    exact Option.isSome_of_isSome_bind hsome

theorem halves_conserved_tiny :
    Session.start tinyConfig (.new 44100) = .ok tiny ∧
    (tiny.after displacement).holders = [⟨0, 0⟩, ⟨1, 0⟩] ∧
    ((tiny.after displacement).mixer.applyAll (tiny.after displacement).link.retired
      [.attach ⟨0, 0⟩ .output]).1.Finds
      ((tiny.after displacement).mixer.applyAll (tiny.after displacement).link.retired
        [.attach ⟨0, 0⟩ .output]).2 (.detach ⟨0, 0⟩) :=
  ⟨start_tiny, rfl, (halves_conserved start_tiny displacement).2.2.2.1 [_] _ [_] rfl⟩

/-- A call in any state of a run either fails, leaves the whole session as it was and lets nothing
happen to any unit, or has its effect on the engine and sends every command that goes with it, for
which it made sure of room. -/
theorem call_all_or_nothing (h : Session.start c tones = .ok s) (deeds : List (Deed U))
    (call : Call U) :
    (∀ e, ((s.after deeds).attempt call.operation).1 = .error e →
      (s.after deeds).act (.call call) = (s.after deeds, [])) ∧
    ∀ answer, ((s.after deeds).attempt call.operation).1 = .ok answer →
      ((s.after deeds).attempt call.operation).2.link.commands.lost = [] ∧
      ∃ sent, ((s.after deeds).attempt call.operation).2.link.commands.items =
          (s.after deeds).link.commands.items ++ sent ∧
        sent.length ≤ (s.after deeds).link.commands.free ∧
        call.Effect (s.after deeds).engine answer
          ((s.after deeds).attempt call.operation).2.engine sent := by
  have hstep := inStep_after h (.call call :: deeds)
  have hlost : ((s.after deeds).attempt call.operation).2.link.commands.lost = [] := hstep.lost
  rcases (s.after deeds).attempt_call call with ⟨e, heq⟩ | ⟨answer, t, heq, hdone, -, -⟩
  · have hact : (s.after deeds).act (.call call) = (s.after deeds, []) :=
      congrArg (fun r => (r.2, [])) heq
    rw [heq]
    refine ⟨fun _ _ => hact, fun answer hok => ?_⟩
    cases hok
  · rw [heq] at hlost ⊢
    refine ⟨fun e herror => ?_, fun _ hok => ?_⟩
    · cases herror
    cases hok
    obtain ⟨sent, htakes, heffect⟩ := hdone
    refine ⟨hlost, sent, htakes.items, ?_, heffect⟩
    have hle := t.link.commands.length_le
    rw [htakes.items, htakes.capacity, List.length_append] at hle
    exact Nat.le_sub_of_add_le' hle

theorem call_all_or_nothing_tiny :
    Session.start tinyConfig (.new 44100) = .ok tiny ∧
    ((tiny.after displacement).attempt (Call.create (.gainMeter 1)).operation).1 =
      .error (.unitsExhausted 2) ∧
    (tiny.after displacement).act (.call (.create (.gainMeter 1))) =
      (tiny.after displacement, []) ∧
    ((tiny.after displacement).attempt (Call.detach ⟨1, 0⟩).operation).1 = .ok .done ∧
    ((tiny.after displacement).attempt (Call.detach ⟨1, 0⟩).operation).2.link.commands.lost = [] := by
  have hfull : ((tiny.after displacement).attempt (Call.create (.gainMeter 1)).operation).1 =
      .error (.unitsExhausted 2) := by rfl
  have hdone : ((tiny.after displacement).attempt (Call.detach ⟨1, 0⟩).operation).1 =
      .ok .done := by rfl
  exact ⟨start_tiny, hfull,
    (call_all_or_nothing start_tiny displacement (.create (.gainMeter 1))).1 _ hfull, hdone,
    ((call_all_or_nothing start_tiny displacement (.detach ⟨1, 0⟩)).2 _ hdone).1⟩

end Session

end Patchbay

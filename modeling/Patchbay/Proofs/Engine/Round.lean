import Patchbay.Engine.Basic
import Patchbay.Proofs.Engine.Mixer
import Patchbay.Proofs.Unit.Rack

/-! One round of either thread. A control tick empties the slots of units that came back and then
exchanges the control fields of every attached unit once. A buffer exchanges the audio fields of
every unit that the mixer has attached once, and only then sends sound through some of them. -/

namespace Patchbay

open Activity Patchbay.Rack

variable {U : Type}

namespace Engine

theorem collect_spec (rack : Rack U) {retired : List UnitHandle}
    (hstore : rack.units.WellFormed) (hnodup : retired.Nodup)
    (hentry : ∀ u ∈ retired, (rack.units.get? u).isSome) :
    (collect retired rack).units.WellFormed ∧
      (collect retired rack).units.capacity = rack.units.capacity ∧
      (∀ v, (collect retired rack).units.get? v =
        if v ∈ retired then none else rack.units.get? v) ∧
      ∃ es, (collect retired rack).journal = rack.journal ++ es ∧
        es.map key = retired.map (·, .released) := by
  induction retired generalizing rack with
  | nil => exact ⟨hstore, rfl, fun v => by simp [collect], [], by simp [collect], rfl⟩
  | cons u retired ih =>
    rw [List.nodup_cons] at hnodup
    have hu := hentry u List.mem_cons_self
    have hrest (v : UnitHandle) := UnitStore.get?_retire hu v
    obtain ⟨x, hx⟩ := journal_retire hu
    rw [← rack.units_retire u] at hrest
    obtain ⟨hwell, hcapacity, hcollect, es, hes, hkey⟩ := ih (rack.retire u)
      (by rw [units_retire]; exact hstore.retire hu) hnodup.2 (by
        intro v hv
        have hvu : v ≠ u := fun hvu => hnodup.1 (hvu ▸ hv)
        rw [hrest, if_neg hvu]
        exact hentry v (List.mem_cons_of_mem _ hv))
    refine ⟨hwell, ?_, ?_, ⟨u, .released, x⟩ :: es, ?_, by simp [hkey, key]⟩
    · apply hcapacity.trans
      rw [units_retire, UnitStore.retire_eq hu]
    · intro v
      apply (hcollect v).trans
      rw [hrest]
      by_cases hvu : v = u <;> simp [hvu]
    · apply hes.trans
      rw [hx, List.append_assoc]
      rfl

variable [Dsp U]

def collected (e : Engine U) (link : Link) : Rack U := collect link.retired.items ⟨e.units, []⟩

theorem tick_spec {e : Engine U} {link : Link}
    (h : ∀ u x, e.table.attachment u = some x → ((e.collected link).units.get? u).isSome) :
    ∃ es, Ran (e.collected link) es ⟨(e.tick link).1.units, (e.tick link).2.2⟩ ∧
      es.map key = e.table.pairs.map fun p => (p.1, .exchangedControl) := by
  refine ran_foldl (f := fun rack (p : UnitHandle × Target) => rack.exchangeControlAt p.1.index) ?_
  rintro s hs ⟨u, x⟩ hp
  apply ran_exchangeControlAt
  rw [← s.units.isSome_get?_outline, hs, UnitStore.isSome_get?_outline]
  exact h u x (AttachmentTable.attachment_eq_some.mpr hp)

end Engine

namespace Mixer

def Sounded (m : Mixer) (es : List (Activity U)) : Prop :=
  Processing (fun u => ∃ x, m.unitOn x = some u) es

theorem Sounded.append {m : Mixer} {es fs : List (Activity U)} (h : m.Sounded es)
    (k : m.Sounded fs) : m.Sounded (es ++ fs) := by
  intro e he
  rcases List.mem_append.mp he with he | he
  · exact h e he
  · exact k e he

theorem unitOn_congr {m n : Mixer} (h : n.units = m.units) (x : Target) :
    n.unitOn x = m.unitOn x := by
  unfold unitOn
  rw [h]

theorem Sounded.congr {m n : Mixer} {es : List (Activity U)} (h : n.units = m.units)
    (hes : n.Sounded es) : m.Sounded es := by
  intro e he
  obtain ⟨⟨x, hx⟩, hb⟩ := hes e he
  exact ⟨⟨x, unitOn_congr h x ▸ hx⟩, hb⟩

variable [Dsp U]

theorem ran_exchangeUnits {m : Mixer} {rack : Rack U}
    (h : ∀ u ∈ m.owned, (rack.units.get? u).isSome) :
    ∃ es, Ran rack es (m.exchangeUnits rack) ∧
      es.map key = (m.units.filter (·.target.isSome)).map fun x => (x.unit, .exchangedAudio) := by
  refine ran_foldl (f := fun r (x : MixerUnit) => r.exchangeAudio x.unit) ?_
  intro s hs x hx
  apply ran_exchangeAudio
  rw [← s.units.isSome_get?_outline, hs, UnitStore.isSome_get?_outline]
  exact h x.unit (List.mem_map_of_mem (List.mem_of_mem_filter hx))

theorem ran_processOn (m : Mixer) (x : Target) (rack : Rack U) (b : AudioBuffer) :
    ∃ es, Ran rack es (rack.processAt (m.unitOn x) b).2 ∧ m.Sounded es := by
  obtain ⟨es, hran, hes⟩ := ran_processAt rack (m.unitOn x) b
  exact ⟨es, hran, fun e he => ⟨⟨x, (hes e he).1⟩, (hes e he).2⟩⟩

theorem ran_mixEvents (m : Mixer) (sounds : List Sounding) (scratch out : AudioBuffer)
    (rack : Rack U) :
    ∃ es, Ran rack es (m.mixEvents sounds scratch out rack).2.2 ∧ m.Sounded es := by
  induction sounds generalizing scratch out rack with
  | nil => exact ⟨[], ran_nil rack, by simp [Sounded, Processing]⟩
  | cons s sounds ih =>
    obtain ⟨es, hes, hsounded⟩ := m.ran_processOn (.event s.event) rack (s.write scratch)
    obtain ⟨fs, hfs, hrest⟩ := ih (rack.processAt (m.unitOn (.event s.event)) (s.write scratch)).1
      (out.accumulate (rack.processAt (m.unitOn (.event s.event)) (s.write scratch)).1)
      (rack.processAt (m.unitOn (.event s.event)) (s.write scratch)).2
    exact ⟨es ++ fs, hes.trans hfs, hsounded.append hrest⟩

variable {σ : Type} [SignalSource σ]

theorem ran_processInput (m : Mixer) (source : σ) (rack : Rack U) :
    Same m (m.processInput source rack).1 ∧
      ∃ es, Ran rack es (m.processInput source rack).2.2 ∧ m.Sounded es := by
  have hnothing : ∃ es, Ran rack es rack ∧ m.Sounded es :=
    ⟨[], ran_nil rack, by simp [Sounded, Processing]⟩
  unfold processInput
  split
  · exact ⟨⟨rfl, rfl, rfl⟩, hnothing⟩
  · split
    · exact ⟨⟨rfl, rfl, rfl⟩, hnothing⟩
    · exact ⟨⟨rfl, rfl, rfl⟩, m.ran_processOn .input rack _⟩

theorem ran_mix (m : Mixer) (source : σ) (rack : Rack U) :
    Same m (m.mix source rack).1 ∧
      ∃ es, Ran rack es (m.mix source rack).2.2.1 ∧ m.Sounded es := by
  unfold mix
  split
  · exact ⟨⟨rfl, rfl, rfl⟩, [], ran_nil rack, by simp [Sounded, Processing]⟩
  · refine ⟨⟨rfl, rfl, rfl⟩, ?_⟩
    obtain ⟨es, hes, hsounded⟩ := m.ran_mixEvents
      (SignalSource.renderEvents source m.scratch).1 m.scratch m.blank rack
    obtain ⟨fs, hfs, hrest⟩ := m.ran_processOn .output
      (m.mixEvents (SignalSource.renderEvents source m.scratch).1 m.scratch m.blank rack).2.2
      (m.mixEvents (SignalSource.renderEvents source m.scratch).1 m.scratch m.blank rack).2.1
    exact ⟨es ++ fs, hes.trans hfs, hsounded.append hrest⟩

/-- Apart from commands, a buffer leaves units where they are; it exchanges the audio fields of all
that are attached, and then sends sound through some of those. -/
theorem render_spec {m : Mixer} {link : Link} (rack : Rack U) (source : σ)
    (h : ∀ u ∈ (m.drain link).1.owned, (rack.units.get? u).isSome) :
    Same (m.drain link).1 (m.render link rack source).mixer ∧
      (m.render link rack source).link.commands = (m.drain link).2.commands ∧
      (m.render link rack source).link.retired = (m.drain link).2.retired ∧
      ∃ es fs, Ran rack (es ++ fs) (m.render link rack source).rack ∧
        es.map key = ((m.drain link).1.units.filter (·.target.isSome)).map
          (fun x => (x.unit, .exchangedAudio)) ∧
        (m.drain link).1.Sounded fs := by
  obtain ⟨es, hes, hkey⟩ := ran_exchangeUnits h
  have hinput := ran_processInput (m.prepare link rack).1 source (m.prepare link rack).2.2
  obtain ⟨hsame, fs, hfs, hsounded⟩ := hinput
  have hmix := ran_mix ((m.prepare link rack).1.processInput source (m.prepare link rack).2.2).1
    ((m.prepare link rack).1.processInput source (m.prepare link rack).2.2).2.1
    ((m.prepare link rack).1.processInput source (m.prepare link rack).2.2).2.2
  obtain ⟨hsame', gs, hgs, hsounded'⟩ := hmix
  refine ⟨⟨?_, ?_, ?_⟩, rfl, rfl, es, fs ++ gs, hes.trans (hfs.trans hgs), hkey, ?_⟩
  · exact hsame'.units.trans hsame.units
  · exact hsame'.overflow.trans hsame.overflow
  · exact hsame'.capacity.trans hsame.capacity
  · exact (hsounded.congr rfl).append (hsounded'.congr hsame.units)

end Mixer

end Patchbay

import Patchbay.Proofs.Session.Journal
import Patchbay.Proofs.Unit.Occupancy

/-! Who holds a slot. A deed takes a unit in, gives one up, empties the slots of those whose audio
half is back, or leaves the slots as they are. Over a run this says how often a handle was given
out, how often its unit departed, and how often a slot was emptied. -/

namespace Patchbay

open Activity

variable {U : Type}

def Activity.departures (es : List (Activity U)) : List (Activity U) :=
  es.filter (·.kind = .released)

namespace Activity

theorem departures_append (es fs : List (Activity U)) :
    departures (es ++ fs) = departures es ++ departures fs :=
  List.filter_append ..

theorem departures_eq_self {es : List (Activity U)} (h : ∀ e ∈ es, e.kind = .released) :
    departures es = es := by
  apply List.filter_eq_self.mpr
  simpa using h

theorem departures_eq_nil {es : List (Activity U)} (h : ∀ e ∈ es, e.kind ≠ .released) :
    departures es = [] := by
  apply List.filter_eq_nil_iff.mpr
  simpa using h

def departed (u : UnitHandle) (es : List (Activity U)) : Nat :=
  (departures es).countP (·.unit = u)

def emptied (i : Nat) (es : List (Activity U)) : Nat :=
  (departures es).countP (·.unit.index = i)

theorem departed_append (u : UnitHandle) (es fs : List (Activity U)) :
    departed u (es ++ fs) = departed u es + departed u fs := by
  simp [departed, departures_append]

theorem emptied_append (i : Nat) (es fs : List (Activity U)) :
    emptied i (es ++ fs) = emptied i es + emptied i fs := by
  simp [emptied, departures_append]

end Activity

theorem Engine.generationAt_collect (rack : Rack U) {retired : List UnitHandle}
    (hnodup : retired.Nodup) (hentry : ∀ u ∈ retired, (rack.units.get? u).isSome) (i : Nat) :
    (collect retired rack).units.generationAt i =
      rack.units.generationAt i + UInt32.ofNat (retired.countP (·.index = i)) := by
  induction retired generalizing rack with
  | nil => simp [collect]
  | cons u retired ih =>
    rw [List.nodup_cons] at hnodup
    have hu := hentry u List.mem_cons_self
    have hrest (v : UnitHandle) (hv : v ∈ retired) : ((rack.retire u).units.get? v).isSome := by
      have hvu : v ≠ u := fun hvu => hnodup.1 (hvu ▸ hv)
      rw [rack.units_retire, UnitStore.get?_retire hu, if_neg hvu]
      exact hentry v (List.mem_cons_of_mem _ hv)
    have hcollect := ih (rack.retire u) hnodup.2 hrest
    rw [rack.units_retire, UnitStore.generationAt_retire hu] at hcollect
    apply hcollect.trans
    rw [List.countP_cons, UInt32.ofNat_add, UInt32.add_assoc, UInt32.add_comm (UInt32.ofNat _)]
    by_cases hi : u.index = i <;> simp [hi]

namespace Session

def given? (s : Session U) : Deed U → Option UnitHandle
  | .call (.create design) =>
    match (s.attempt (Call.create design).operation).1 with
    | .ok (.unit u) => some u
    | _ => none
  | _ => none

theorem given?_eq_some {s : Session U} {deed : Deed U} {u : UnitHandle} :
    s.given? deed = some u ↔ ∃ design, deed = .call (.create design) ∧
      (s.attempt (Call.create design).operation).1 = .ok (.unit u) := by
  constructor
  · intro h
    unfold given? at h
    split at h
    · split at h
      · rename_i design _ v hok
        obtain rfl := Option.some.inj h
        exact ⟨design, rfl, hok⟩
      · cases h
    · cases h
  · rintro ⟨design, rfl, hok⟩
    simp [given?, hok]

theorem isSome_made? {s : Session U} {deed : Deed U} {u : UnitHandle} :
    (s.made? u deed).isSome ↔ s.given? deed = some u := by
  unfold made? given?
  split
  · split
    · split <;> simp_all
    · simp
  · simp

def GivesUp (s : Session U) (u : UnitHandle) (deed : Deed U) : Prop :=
  deed = .call (.release u) ∧ (s.attempt (Call.release u).operation).1 = .ok .done

/-- What a deed does to the slots, and who departs by it. -/
inductive Turnover (s : Session U) : Deed U → UnitStore U → List (Activity U) → Prop
  | taken {design : Design U} {u : UnitHandle} {units : UnitStore U}
      (given : s.given? (.call (.create design)) = some u)
      (insert : s.engine.units.insert? design.name design.unit = some (u, units)) :
      Turnover s (.call (.create design)) units []
  | givenUp {u : UnitHandle} (up : s.GivesUp u (.call (.release u)))
      (live : (s.engine.units.live? u).isSome) :
      Turnover s (.call (.release u)) (s.engine.units.setReleasing u) []
  | emptied :
      Turnover s .tick (s.engine.collected s.link).units (s.engine.collected s.link).journal
  | kept {deed : Deed U} (given : s.given? deed = none) (up : ∀ u, ¬ s.GivesUp u deed)
      (other : deed ≠ .tick) : Turnover s deed s.engine.units []

theorem turnover_call (s : Session U) (call : Call U) :
    s.Turnover (.call call) (s.attempt call.operation).2.engine.units [] := by
  rcases s.attempt_call call with ⟨e, heq⟩ | ⟨answer, t, heq, ⟨sent, -, heffect⟩, -, -⟩
  · rw [heq]
    refine .kept ?_ ?_ (by simp)
    · cases call <;> simp [given?, heq]
    · rintro u ⟨hcall, hok⟩
      cases hcall
      rw [heq] at hok
      cases hok
  · rw [heq]
    generalize hengine : t.engine = engine at heffect
    cases heffect with
    | create hinsert =>
      exact .taken (given?_eq_some.mpr ⟨_, rfl, congrArg Prod.fst heq⟩) hinsert
    | release hlive => exact .givenUp ⟨rfl, congrArg Prod.fst heq⟩ hlive
    | reroute hother =>
      refine .kept ?_ ?_ (by simp)
      · cases call <;> first | rfl | cases hother
      · rintro u ⟨hcall, -⟩
        cases hcall
        cases hother

theorem InStep.units_departures {s : Session U} (h : InStep s) :
    (s.engine.collected s.link).journal.map (·.unit) = s.link.retired.items := by
  obtain ⟨-, -, -, rs, hrs, hreleased⟩ := h.collected
  rw [hrs]
  have hunits := congrArg (List.map Prod.fst) hreleased
  simpa [Function.comp_def, key] using hunits

theorem InStep.countP_departures {s : Session U} (h : InStep s) (p : UnitHandle → Bool) :
    (s.engine.collected s.link).journal.countP (fun e => p e.unit) =
      s.link.retired.items.countP p := by
  rw [← h.units_departures, List.countP_map]
  rfl

variable [Dsp U] {s : Session U}

theorem InStep.departures_tick (h : InStep s) :
    departures s.tick.2 = (s.engine.collected s.link).journal := by
  obtain ⟨-, -, -, rs, hrs, hreleased⟩ := h.collected
  obtain ⟨es, hran, hkeys⟩ := h.ran_tick
  have hjournal : s.tick.2 = (s.engine.collected s.link).journal ++ es := hran.journal
  have hall : ∀ e ∈ (s.engine.collected s.link).journal, e.kind = .released := by
    intro e he
    have hkey := List.mem_map_of_mem (f := key) (hrs ▸ he)
    rw [hreleased] at hkey
    obtain ⟨u, -, heq⟩ := List.mem_map.mp hkey
    exact (congrArg Prod.snd heq).symm
  have hnone : ∀ e ∈ es, e.kind ≠ .released := by
    intro e he
    have hkey := List.mem_map_of_mem (f := key) he
    rw [hkeys] at hkey
    obtain ⟨p, -, heq⟩ := List.mem_map.mp hkey
    have hkind : .exchangedControl = e.kind := congrArg Prod.snd heq
    simp [← hkind]
  rw [hjournal, departures_append, departures_eq_self hall, departures_eq_nil hnone,
    List.append_nil]

theorem InStep.departures_render {σ : Type} [SignalSource σ] (h : InStep s) (source : σ) :
    departures (s.render source).journal = [] := by
  obtain ⟨es, fs, hran, honce, hfs⟩ := h.journal_render source
  have hjournal : (s.render source).journal = es ++ fs := hran.journal
  rw [hjournal]
  apply departures_eq_nil
  intro e he
  rcases List.mem_append.mp he with he | he
  · simp [honce.kind_eq e he]
  · obtain ⟨-, b, hb⟩ := hfs e he
    simp [hb]

/-- Every deed is one of these, up to what happens inside units. -/
theorem InStep.turnover (h : InStep s) (deed : Deed U) :
    ∃ units es, (s.act deed).1.engine.units.outline = units.outline ∧
      departures (s.act deed).2 = es ∧ s.Turnover deed units es := by
  cases deed with
  | call call => exact ⟨_, _, rfl, rfl, s.turnover_call call⟩
  | edit u write =>
    obtain ⟨hnil, heq | ⟨before, unit, -, -, heq⟩⟩ := s.act_edit u write
    · rw [heq, hnil]
      exact ⟨_, _, rfl, rfl, .kept rfl (by simp [GivesUp]) (by simp)⟩
    · rw [heq, hnil]
      exact ⟨_, _, UnitStore.outline_setUnit .., rfl, .kept rfl (by simp [GivesUp]) (by simp)⟩
  | pause paused => exact ⟨_, _, rfl, rfl, .kept rfl (by simp [GivesUp]) (by simp)⟩
  | meter metering => exact ⟨_, _, rfl, rfl, .kept rfl (by simp [GivesUp]) (by simp)⟩
  | feed change => exact ⟨_, _, rfl, rfl, .kept rfl (by simp [GivesUp]) (by simp)⟩
  | tick =>
    obtain ⟨es, hran, -⟩ := h.ran_tick
    exact ⟨_, _, hran.outline, h.departures_tick, .emptied⟩
  | render source =>
    obtain ⟨es, fs, hran, -, -⟩ := h.journal_render source
    exact ⟨_, _, hran.outline, h.departures_render source,
      .kept rfl (by simp [GivesUp]) (by simp)⟩
  | takeUp =>
    refine ⟨_, _, ?_, rfl, .kept rfl (by simp [GivesUp]) (by simp)⟩
    exact congrArg (fun e : Engine U => e.units.outline) s.engine_takeUp

/-! What comes of it. -/

theorem InStep.vacant_of_given? (h : InStep s) {deed : Deed U} {u : UnitHandle}
    (hu : s.given? deed = some u) {v : UnitHandle} (hv : (s.engine.units.get? v).isSome) :
    v.index ≠ u.index := by
  obtain ⟨units, es, -, -, hturn⟩ := h.turnover deed
  cases hturn with
  | taken hgiven hinsert =>
    obtain rfl := Option.some.inj (hu.symm.trans hgiven)
    exact (UnitStore.insert?_eq_some h.store hinsert).2.2.1 v hv
  | givenUp | emptied => cases hu
  | kept hgiven =>
    rw [hu] at hgiven
    cases hgiven

theorem InStep.account (h : InStep s) (deed : Deed U) (u : UnitHandle) :
    (if s.given? deed = some u then 1 else 0) + (s.engine.units.get? u).isSome.toNat =
      departed u (s.act deed).2 + ((s.act deed).1.engine.units.get? u).isSome.toNat := by
  obtain ⟨units, es, houtline, hes, hturn⟩ := h.turnover deed
  have hafter : ((s.act deed).1.engine.units.get? u).isSome = (units.get? u).isSome := by
    rw [← UnitStore.isSome_get?_outline, houtline, UnitStore.isSome_get?_outline]
  rw [hafter, departed, hes]
  cases hturn with
  | @taken design v units hgiven hinsert =>
    obtain ⟨-, -, hindex, hentry⟩ := UnitStore.insert?_eq_some h.store hinsert
    rw [hgiven, hentry]
    by_cases huv : u = v
    · subst huv
      have hnone : s.engine.units.get? u = none := by
        rw [← Option.not_isSome_iff_eq_none]
        exact fun hsome => hindex u hsome rfl
      simp [hnone]
    · simp [huv, Ne.symm huv]
  | @givenUp v =>
    have hsame : ((s.engine.units.setReleasing v).get? u).isSome =
        (s.engine.units.get? u).isSome := by
      rw [UnitStore.setReleasing, UnitStore.get?_modify]
      split <;> simp
    simp [given?, hsame]
  | emptied =>
    obtain ⟨-, -, hentry, -⟩ := h.collected
    rw [h.countP_departures (· = u), hentry]
    by_cases hu : u ∈ s.link.retired.items
    · have hone : s.link.retired.items.countP (· = u) = 1 :=
        List.count_eq_one_of_mem h.ready.retired_nodup hu
      simp [given?, hu, hone, h.isSome_get?_of_retired hu]
    · have hzero : s.link.retired.items.countP (· = u) = 0 := by
        rw [List.countP_eq_zero]
        intro v hv hvu
        exact hu (of_decide_eq_true hvu ▸ hv)
      simp [given?, hu, hzero]
  | kept hgiven => simp [hgiven]

theorem InStep.generationAt_act (h : InStep s) (deed : Deed U) (i : Nat) :
    (s.act deed).1.engine.units.generationAt i =
      s.engine.units.generationAt i + UInt32.ofNat (emptied i (s.act deed).2) := by
  obtain ⟨units, es, houtline, hes, hturn⟩ := h.turnover deed
  rw [← UnitStore.generationAt_outline, houtline, UnitStore.generationAt_outline, emptied, hes]
  cases hturn with
  | taken _ hinsert => simp [(UnitStore.generationAt_insert? hinsert).2]
  | givenUp => simp
  | emptied =>
    rw [h.countP_departures (·.index = i)]
    exact Engine.generationAt_collect _ h.ready.retired_nodup
      (fun u hu => h.isSome_get?_of_retired hu) i
  | kept => simp

theorem InStep.capacity_act (h : InStep s) (deed : Deed U) :
    (s.act deed).1.engine.units.capacity = s.engine.units.capacity := by
  obtain ⟨units, es, houtline, -, hturn⟩ := h.turnover deed
  have hafter : (s.act deed).1.engine.units.capacity = units.capacity :=
    congrArg (UnitStore.capacity (U := Unit)) houtline
  rw [hafter]
  cases hturn with
  | taken _ hinsert => exact (UnitStore.insert?_eq_some h.store hinsert).2.1
  | givenUp =>
    unfold UnitStore.setReleasing UnitStore.modify
    split <;> rfl
  | emptied => exact h.collected.2.1
  | kept => rfl

/-! Over a run. -/

def journal (s : Session U) : List (Deed U) → List (Activity U)
  | [] => []
  | deed :: past => journal s past ++ ((s.after past).act deed).2

def timesGiven (s : Session U) (u : UnitHandle) : List (Deed U) → Nat
  | [] => 0
  | deed :: past => timesGiven s u past + if (s.after past).given? deed = some u then 1 else 0

def lastGiven (s : Session U) (i : Nat) : List (Deed U) → Option UnitHandle
  | [] => none
  | deed :: past => (((s.after past).given? deed).filter (·.index = i)).or (lastGiven s i past)

theorem after_append (s : Session U) (later past : List (Deed U)) :
    s.after (later ++ past) = (s.after past).after later := by
  induction later with
  | nil => rfl
  | cons deed later ih => rw [List.cons_append, after, ih, after]

theorem InStep.after (h : InStep s) (deeds : List (Deed U)) : InStep (s.after deeds) := by
  induction deeds with
  | nil => exact h
  | cons deed past ih => exact ih.act deed

theorem InStep.account_after (h : InStep s) (deeds : List (Deed U)) (u : UnitHandle) :
    s.timesGiven u deeds + (s.engine.units.get? u).isSome.toNat =
      departed u (s.journal deeds) + ((s.after deeds).engine.units.get? u).isSome.toNat := by
  induction deeds with
  | nil => simp [timesGiven, journal, departed, departures, Session.after]
  | cons deed past ih =>
    have hstep := (h.after past).account deed u
    rw [timesGiven, journal, departed_append, Session.after]
    omega

theorem InStep.generationAt_after (h : InStep s) (deeds : List (Deed U)) (i : Nat) :
    (s.after deeds).engine.units.generationAt i =
      s.engine.units.generationAt i + UInt32.ofNat (emptied i (s.journal deeds)) := by
  induction deeds with
  | nil => simp [journal, emptied, departures, Session.after]
  | cons deed past ih =>
    rw [Session.after, (h.after past).generationAt_act, ih, journal, emptied_append,
      UInt32.ofNat_add, UInt32.add_assoc]

theorem InStep.capacity_after (h : InStep s) (deeds : List (Deed U)) :
    (s.after deeds).engine.units.capacity = s.engine.units.capacity := by
  induction deeds with
  | nil => rfl
  | cons deed past ih => rw [Session.after, (h.after past).capacity_act, ih]

end Session

end Patchbay

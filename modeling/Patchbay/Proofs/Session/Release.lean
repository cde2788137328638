import Patchbay.Proofs.Session.Handles

/-! How units end. A unit that is given up keeps its control fields until the tick that collects it,
and no tick does before the mixer has handed its audio half back. What is left when an engine is
shut down ends then. So every unit ends exactly once. -/

namespace Patchbay

open Mixer Activity

variable {U : Type}

/-! What does not change. -/

theorem Activity.control_of_chain [Dsp U] {es : List (Activity U)} {x y : U} (h : Chain x es y)
    (hkind : ∀ e ∈ es, e.kind ≠ .exchangedControl) : Dsp.control y = Dsp.control x := by
  induction es generalizing x with
  | nil => rw [h]
  | cons e es ih =>
    obtain ⟨rfl, h⟩ := h
    have hrest := ih h fun f hf => hkind f (List.mem_cons_of_mem _ hf)
    have hthis := hkind e List.mem_cons_self
    rw [hrest]
    unfold Activity.after
    cases hk : e.kind with
    | exchangedControl => exact absurd hk hthis
    | exchangedAudio => exact Dsp.control_exchangeAudio e.state
    | processed b => exact Dsp.control_process b e.state
    | released => rfl

theorem Engine.state_collect (rack : Rack U) {retired : List UnitHandle} (hnodup : retired.Nodup)
    (hentry : ∀ u ∈ retired, (rack.units.get? u).isSome) :
    ∃ es, (collect retired rack).journal = rack.journal ++ es ∧
      ∀ e ∈ es, e.unit ∈ retired ∧ e.kind = .released ∧
        (rack.units.get? e.unit).map (·.unit) = some e.state := by
  induction retired generalizing rack with
  | nil => exact ⟨[], by simp [collect], by simp⟩
  | cons u retired ih =>
    rw [List.nodup_cons] at hnodup
    obtain ⟨entry, hu⟩ := Option.isSome_iff_exists.mp (hentry u List.mem_cons_self)
    have hother (v : UnitHandle) (hv : v ∈ retired) :
        (rack.retire u).units.get? v = rack.units.get? v := by
      have hvu : v ≠ u := fun hvu => hnodup.1 (hvu ▸ hv)
      rw [rack.units_retire, UnitStore.get?_retire (Option.isSome_of_mem hu), if_neg hvu]
    obtain ⟨es, hes, hstate⟩ := ih (rack.retire u) hnodup.2 fun v hv => by
      rw [hother v hv]
      exact hentry v (List.mem_cons_of_mem _ hv)
    refine ⟨⟨u, .released, entry.unit⟩ :: es, ?_, ?_⟩
    · apply hes.trans
      simp [Rack.retire, hu, Rack.note]
    · intro e he
      rcases List.mem_cons.mp he with rfl | he
      · exact ⟨List.mem_cons_self, rfl, by simp [hu]⟩
      · obtain ⟨hmem, hkind, hget⟩ := hstate e he
        rw [hother _ hmem] at hget
        exact ⟨List.mem_cons_of_mem _ hmem, hkind, hget⟩

namespace Session

variable {s : Session U}

/-! What is left. -/

theorem InStep.mem_collected (h : InStep s) {e : Activity U}
    (he : e ∈ (s.engine.collected s.link).journal) :
    e.unit ∈ s.link.retired.items ∧ e.kind = .released ∧
      (s.engine.units.get? e.unit).map (·.unit) = some e.state := by
  obtain ⟨es, hjournal, hstate⟩ := Engine.state_collect ⟨s.engine.units, []⟩
    h.ready.retired_nodup fun u hu => h.isSome_get?_of_retired hu
  rw [Engine.collected, hjournal] at he
  exact hstate e he

theorem InStep.mem_shutDown (h : InStep s) {e : Activity U}
    (he : e ∈ s.engine.shutDown s.link) :
    e.kind = .released ∧ (s.engine.units.get? e.unit).map (·.unit) = some e.state := by
  rcases List.mem_append.mp he with he | he
  · exact (h.mem_collected he).2
  · obtain ⟨⟨u, entry⟩, hmem, rfl⟩ := List.mem_map.mp he
    have hget := UnitStore.mem_entries.mp hmem
    have hcollected := h.collected.2.2.1 u
    rw [Engine.collected, hget] at hcollected
    split at hcollected
    · cases hcollected
    · exact ⟨rfl, by rw [← hcollected, Option.map_some]⟩

theorem InStep.units_shutDown (h : InStep s) :
    (s.engine.shutDown s.link).map (·.unit) =
      s.link.retired.items ++ (s.engine.collected s.link).units.entries.map Prod.fst := by
  rw [Engine.shutDown, List.map_append, List.map_map]
  exact congrArg₂ (· ++ ·) h.units_departures rfl

theorem InStep.departed_shutDown (h : InStep s) (u : UnitHandle) :
    departed u (s.engine.shutDown s.link) = (s.engine.units.get? u).isSome.toNat := by
  obtain ⟨-, -, hentry, -⟩ := h.collected
  have hleft (v : UnitHandle) : v ∈ (s.engine.collected s.link).units.entries.map Prod.fst ↔
      v ∉ s.link.retired.items ∧ (s.engine.units.get? v).isSome := by
    simp only [List.mem_map, Prod.exists, exists_and_right, exists_eq_right, UnitStore.mem_entries,
      hentry]
    split <;> simp_all [Option.isSome_iff_exists]
  have hnodup : ((s.engine.shutDown s.link).map (·.unit)).Nodup := by
    rw [h.units_shutDown]
    refine List.nodup_append.mpr ⟨h.ready.retired_nodup, UnitStore.entries_nodup _, ?_⟩
    rintro v hv _ hw rfl
    exact ((hleft v).mp hw).1 hv
  have hmem : u ∈ (s.engine.shutDown s.link).map (·.unit) ↔ (s.engine.units.get? u).isSome := by
    rw [h.units_shutDown, List.mem_append, hleft]
    have hback := h.isSome_get?_of_retired (u := u)
    tauto
  have hall : departures (s.engine.shutDown s.link) = s.engine.shutDown s.link :=
    departures_eq_self fun e he => (h.mem_shutDown he).1
  calc departed u (s.engine.shutDown s.link)
      = ((s.engine.shutDown s.link).map (·.unit)).count u := by
        rw [departed, hall, List.count, List.countP_map]
        rfl
    _ = if (s.engine.units.get? u).isSome then 1 else 0 := by
        rw [hnodup.count]
        exact if_congr hmem rfl rfl
    _ = (s.engine.units.get? u).isSome.toNat := by
        cases (s.engine.units.get? u).isSome <;> rfl

/-- Once no command waits and no audio half is on the way back, no unit is being released, and the
mixer has as many as are in use. -/
theorem InStep.settled (h : InStep s) (hcommands : s.link.commands.items = [])
    (hretired : s.link.retired.items = []) :
    s.engine.pendingReleases = 0 ∧ s.mixer.unitCount = s.engine.unitCount := by
  have hfollows := h.follows_drain
  have hperm := h.perm_holders
  rw [drain_eq _ h.ready.overflow, hcommands] at hfollows
  rw [hcommands, hretired, List.append_nil] at hperm
  have hnone : s.engine.pendingReleases = 0 := by
    unfold Engine.pendingReleases UnitStore.releasingCount
    rw [List.countP_eq_zero]
    rintro ⟨u, entry⟩ hmem hreleasing
    have howned : u ∈ s.mixer.owned :=
      hperm.mem_iff.mpr (List.mem_map_of_mem (f := Prod.fst) hmem)
    obtain ⟨live, hlive⟩ := Option.isSome_iff_exists.mp ((hfollows.mem_owned u).mp howned)
    rw [UnitStore.live?_eq_some, UnitStore.mem_entries.mp hmem] at hlive
    obtain rfl := Option.some.inj hlive.1
    rw [hlive.2] at hreleasing
    cases hreleasing
  refine ⟨hnone, ?_⟩
  have hlength := hperm.length_eq
  have hcount := s.engine.units.liveCount_add_releasingCount
  unfold Engine.pendingReleases at hnone
  unfold Engine.unitCount Mixer.unitCount
  simp only [List.filterMap_nil, List.nil_append, owned, holders, List.length_map] at hlength
  omega

/-! What a run says about the end of a unit. -/

def givenUp? (s : Session U) (u : UnitHandle) : Deed U → Option U
  | .call (.release v) =>
    match (s.attempt (Call.release v).operation).1 with
    | .ok _ => if v = u then (s.engine.units.live? u).map (·.unit) else none
    | .error _ => none
  | _ => none

def takenUp (s : Session U) : Deed U → List Command
  | @Deed.render _ _ _ _ => s.link.commands.items
  | .takeUp => s.link.commands.items.take 1
  | _ => []

theorem givesUp_of_givenUp? {s : Session U} {u : UnitHandle} {deed : Deed U}
    (h : (s.givenUp? u deed).isSome) : s.GivesUp u deed := by
  unfold givenUp? at h
  split at h
  · rename_i v
    rcases s.attempt_call (.release v) with ⟨e, heq⟩ | ⟨answer, t, heq, ⟨_, -, heffect⟩, -, -⟩
    · simp [heq] at h
    · rw [heq] at h
      by_cases hvu : v = u
      · subst hvu
        refine ⟨rfl, ?_⟩
        rw [heq]
        generalize t.engine = engine at heffect
        cases heffect with
        | release => rfl
        | reroute hother => cases hother
      · simp [hvu] at h
  · cases h

theorem GivesUp.givenUp? {s : Session U} {u : UnitHandle} {deed : Deed U} (h : s.GivesUp u deed) :
    s.givenUp? u deed = (s.engine.units.live? u).map (·.unit) := by
  obtain ⟨rfl, hok⟩ := h
  simp [Session.givenUp?, hok]

theorem givenUp?_of_not_live {s : Session U} {u : UnitHandle} (h : s.engine.units.live? u = none)
    (deed : Deed U) : s.givenUp? u deed = none := by
  rw [← Option.not_isSome_iff_eq_none]
  intro hsome
  rw [(givesUp_of_givenUp? hsome).givenUp?, h] at hsome
  cases hsome

variable [Dsp U]

/-- Whether the mixer carries out the release of a unit in a deed and hands its audio half back. -/
def handsBack (s : Session U) (u : UnitHandle) (deed : Deed U) : Bool :=
  (s.takenUp deed).contains (.release u) && (s.act deed).1.link.retired.items.contains u

/-- The unit as it was when it was given up, if it was at all since it was made; the latest deed
comes first. -/
def lastSeen? (s : Session U) (u : UnitHandle) : List (Deed U) → Option U
  | [] => none
  | deed :: past =>
    if (s.after past).given? deed = some u then none
    else ((s.after past).givenUp? u deed).or (lastSeen? s u past)

def isBack (s : Session U) (u : UnitHandle) : List (Deed U) → Bool
  | [] => false
  | deed :: past =>
    if (s.after past).given? deed = some u then false
    else (s.lastSeen? u past).isSome && (s.after past).handsBack u deed || isBack s u past

/-! Steps. -/

theorem InStep.isSome_live?_act (h : InStep s) (deed : Deed U) (u : UnitHandle) :
    ((s.act deed).1.engine.units.live? u).isSome =
      (decide (s.given? deed = some u) ||
        (s.engine.units.live? u).isSome && (s.givenUp? u deed).isNone) := by
  obtain ⟨units, es, houtline, -, hturn⟩ := h.turnover deed
  rw [← UnitStore.isSome_live?_outline, houtline, UnitStore.isSome_live?_outline]
  cases hturn with
  | @taken design v units hgiven hinsert =>
    obtain ⟨-, -, -, hentry⟩ := UnitStore.insert?_eq_some h.store hinsert
    unfold UnitStore.live?
    rw [hentry, hgiven]
    by_cases huv : u = v
    · simp [huv, Option.filter]
    · simp [huv, Ne.symm huv, givenUp?]
  | @givenUp v hup hlive =>
    rw [UnitStore.isSome_live?_setReleasing]
    by_cases huv : u = v
    · subst huv
      rw [hup.givenUp?]
      simp [given?, hlive]
    · have hother : s.givenUp? u (.call (.release v)) = none := by
        rw [← Option.not_isSome_iff_eq_none]
        intro hsome
        have hcall := (givesUp_of_givenUp? hsome).1
        cases hcall
        exact huv rfl
      simp [given?, huv, hother]
  | emptied =>
    rw [h.isSome_live?_collected]
    simp [given?, givenUp?]
  | kept hgiven hup =>
    have hnone : s.givenUp? u deed = none := by
      rw [← Option.not_isSome_iff_eq_none]
      exact fun hsome => hup u (givesUp_of_givenUp? hsome)
    simp [hgiven, hnone]

theorem InStep.not_live_act (h : InStep s) {deed : Deed U} {u : UnitHandle}
    (hlive : (s.act deed).1.engine.units.live? u = none) :
    s.given? deed ≠ some u ∧ (s.engine.units.live? u = none ∨
      ∃ before, s.engine.units.live? u = some before ∧ s.GivesUp u deed ∧
        s.givenUp? u deed = some before.unit) := by
  have hafter := h.isSome_live?_act deed u
  rw [hlive, Option.isSome_none, Eq.comm, Bool.or_eq_false_iff, decide_eq_false_iff_not] at hafter
  refine ⟨hafter.1, ?_⟩
  cases hbefore : s.engine.units.live? u with
  | none => exact Or.inl rfl
  | some before =>
    have hup : (s.givenUp? u deed).isSome := by
      simpa [hbefore, Option.isSome_iff_ne_none] using hafter.2
    have hgivesUp := givesUp_of_givenUp? hup
    exact Or.inr ⟨before, rfl, hgivesUp, by rw [hgivesUp.givenUp?, hbefore, Option.map_some]⟩

theorem InStep.control_act (h : InStep s) {deed : Deed U} {u : UnitHandle} {entry : UnitEntry U}
    (hgiven : s.given? deed ≠ some u) (hlive : s.engine.units.live? u = none)
    (hu : (s.act deed).1.engine.units.get? u = some entry) :
    ∃ before, s.engine.units.get? u = some before ∧
      Dsp.control entry.unit = Dsp.control before.unit := by
  rcases h.get?_act deed hu with
    hmade | ⟨-, before, hbefore, ⟨write, rfl, -⟩ | hchain⟩
  · exact absurd (isSome_made?.mp (Option.isSome_of_mem hmade)) hgiven
  · obtain ⟨e, herror, -⟩ := (refuses_of_not_live hlive).edit write
    have hsame : (s.act (.edit u write)).1 = s := by
      simp [Session.act, herror]
    rw [hsame] at hu
    exact ⟨entry, hu, rfl⟩
  · refine ⟨before, hbefore, control_of_chain hchain ?_⟩
    have hcount := (h.exchangesOnce deed u).control
    have hticked : s.ticked u deed = false := by
      cases deed with
      | tick =>
        rw [ticked, Bool.eq_false_iff]
        intro hsome
        have hseated := h.seated u hsome
        rw [hlive] at hseated
        cases hseated
      | call | edit | pause | meter | feed | render | takeUp => rfl
    rw [hticked, ← count_about, count, if_neg Bool.false_ne_true, List.countP_eq_zero] at hcount
    intro e he hkind
    have hunit : e.unit = u := of_decide_eq_true (List.mem_filter.mp he).2
    exact hcount e he (decide_eq_true (Prod.ext hunit hkind))

theorem InStep.unit_of_givenUp? (h : InStep s) {deed : Deed U} {u : UnitHandle}
    {entry : UnitEntry U} (hup : s.GivesUp u deed)
    (hu : (s.act deed).1.engine.units.get? u = some entry) :
    (s.engine.units.get? u).map (·.unit) = some entry.unit := by
  obtain ⟨rfl, -⟩ := hup
  rcases h.get?_called (.release u) hu with hmade | ⟨-, before, hbefore, hunit⟩
  · cases hmade
  · rw [hbefore, Option.map_some, hunit]

theorem InStep.handsBack_of_mem (h : InStep s) {deed : Deed U} {u : UnitHandle}
    (hu : u ∈ (s.act deed).1.link.retired.items) :
    u ∈ s.link.retired.items ∨ s.handsBack u deed = true := by
  have hcarried (bs cs : List Command) (hitems : s.link.commands.items = bs ++ cs)
      (hbs : s.takenUp deed = bs)
      (hback : (s.act deed).1.link.retired = (s.mixer.applyAll s.link.retired bs).2) :
      u ∈ s.link.retired.items ∨ s.handsBack u deed = true := by
    have hready := h.ready
    rw [hitems] at hready
    refine (hready.mem_retired_applyAll (hback ▸ hu)).imp_right fun hmem => ?_
    simp [handsBack, hbs, hmem, hu]
  cases deed with
  | call call =>
    refine Or.inl ?_
    rcases s.attempt_call call with ⟨e, heq⟩ | ⟨answer, t, heq, -, -, hretired⟩
    · simpa [Session.act, heq] using hu
    · simpa [Session.act, heq, hretired] using hu
  | edit v write =>
    obtain ⟨-, heq | ⟨before, unit, -, -, heq⟩⟩ := s.act_edit v write
    · exact Or.inl (heq ▸ hu)
    · rw [heq] at hu
      exact Or.inl hu
  | pause paused => exact Or.inl hu
  | meter metering => exact Or.inl hu
  | feed change => exact Or.inl hu
  | tick => cases hu
  | render source =>
    refine hcarried s.link.commands.items [] (List.append_nil _).symm rfl ?_
    obtain ⟨-, -, hretired, -⟩ := render_spec ⟨s.engine.units, []⟩ source h.isSome_get?_of_drain
    rw [drain_eq s.link h.ready.overflow] at hretired
    exact hretired
  | takeUp =>
    cases hpop : s.link.commands.pop? with
    | none =>
      have hsame : s.takeUp = s := by simp [Session.takeUp, hpop]
      rw [Session.act, hsame] at hu
      exact Or.inl hu
    | some popped =>
      obtain ⟨c, commands⟩ := popped
      have hitems := (Queue.pop?_eq_some hpop).1
      have htaken : s.takenUp .takeUp = [c] := by
        rw [takenUp, hitems]
        rfl
      refine hcarried [c] commands.items hitems htaken ?_
      simp [Session.act, Session.takeUp, hpop, Mixer.applyAll]

/-! Runs. -/

variable {c : Config} {tones : ToneBank}

theorem lastSeen?_of_releasing (h : Session.start c tones = .ok s) (deeds : List (Deed U))
    {u : UnitHandle} {entry : UnitEntry U}
    (hu : (s.after deeds).engine.units.get? u = some entry)
    (hlive : (s.after deeds).engine.units.live? u = none) :
    ∃ x, s.lastSeen? u deeds = some x ∧ Dsp.control entry.unit = Dsp.control x := by
  induction deeds generalizing entry with
  | nil =>
    obtain ⟨link, -, rfl⟩ := start_eq_ok h
    rw [after, get?_start] at hu
    cases hu
  | cons deed past ih =>
    have hstep := inStep_after h past
    obtain ⟨hgiven, hbefore⟩ := hstep.not_live_act hlive
    rw [lastSeen?, if_neg hgiven]
    rcases hbefore with hnot | ⟨before, hbefore, hgivesUp, hup⟩
    · obtain ⟨before, hget, hcontrol⟩ := hstep.control_act hgiven hnot hu
      rw [hcontrol, givenUp?_of_not_live hnot, Option.none_or]
      exact ih hget hnot
    · have hunit := hstep.unit_of_givenUp? hgivesUp hu
      rw [(UnitStore.live?_eq_some.mp hbefore).1, Option.map_some, Option.some.injEq] at hunit
      rw [hup, ← hunit]
      exact ⟨before.unit, rfl, rfl⟩

theorem isBack_of_mem_retired (h : Session.start c tones = .ok s) (deeds : List (Deed U))
    {u : UnitHandle} (hu : u ∈ (s.after deeds).link.retired.items) : s.isBack u deeds = true := by
  induction deeds with
  | nil =>
    obtain ⟨link, hlink, rfl⟩ := start_eq_ok h
    rw [after, (ofCapacity?_eq_some hlink).2.2.1] at hu
    cases hu
  | cons deed past ih =>
    have hstep := inStep_after h past
    have hnext := inStep_after h (deed :: past)
    have hnot : ((s.after past).act deed).1.engine.units.live? u = none := by
      rw [← Option.not_isSome_iff_eq_none]
      exact fun hlive => hnext.not_mem_retired hlive hu
    obtain ⟨hgiven, hbefore⟩ := hstep.not_live_act hnot
    rw [isBack, if_neg hgiven]
    rcases hstep.handsBack_of_mem hu with hback | hback
    · rw [ih hback, Bool.or_true]
    · rcases hbefore with hbefore | ⟨-, -, ⟨rfl, -⟩, -⟩
      · obtain ⟨entry, hentry⟩ := Option.isSome_iff_exists.mp (hnext.isSome_get?_of_retired hu)
        obtain ⟨before, hget, -⟩ := hstep.control_act hgiven hbefore hentry
        obtain ⟨x, hseen, -⟩ := lastSeen?_of_releasing h past hget hbefore
        rw [hseen, hback]
        rfl
      · simp [handsBack, takenUp] at hback

theorem InStep.mem_released (h : InStep s) {deed : Deed U} {e : Activity U}
    (he : e ∈ (s.act deed).2) (hkind : e.kind = .released) :
    deed = .tick ∧ e.unit ∈ s.link.retired.items ∧
      (s.engine.units.get? e.unit).map (·.unit) = some e.state := by
  obtain ⟨units, es, -, hes, hturn⟩ := h.turnover deed
  have hmem : e ∈ es := by
    rw [← hes]
    exact List.mem_filter.mpr ⟨he, decide_eq_true hkind⟩
  cases hturn with
  | taken | givenUp | kept => cases hmem
  | emptied =>
    obtain ⟨hback, -, hstate⟩ := h.mem_collected hmem
    exact ⟨rfl, hback, hstate⟩

/-- A unit ends once before its handle is given out again, or else before and at the end. -/
theorem InStep.departed_once (h : InStep s) {made : Deed U} {u : UnitHandle}
    (hgiven : s.given? made = some u) {later : List (Deed U)}
    (hagain : (s.act made).1.timesGiven u later = 0) :
    departed u ((s.act made).1.journal later ++ ((s.act made).1.after later).engine.shutDown
        ((s.act made).1.after later).link) = 1 ∧
      ∀ next, ((s.act made).1.after later).given? next = some u →
        departed u ((s.act made).1.journal later) = 1 := by
  have hlater := (h.act made).after later
  have haccount := (h.act made).account_after later u
  rw [h.held_of_given? hgiven, hagain] at haccount
  refine ⟨?_, fun next hnext => ?_⟩
  · rw [departed_append, hlater.departed_shutDown, ← haccount]
    rfl
  · rw [hlater.not_held_of_given? hnext] at haccount
    exact haccount.symm

/-- In every run that is ended by shutting the engine down, each unit ends once: before its handle
is given out again, or else at the end. Before the end units end in ticks only, and only when they
were given up and their audio half was handed back since. A unit ends with the control fields that
it was given up with, or, when it is in use up to the end, as it is then. And a buffer with a tick
after it leaves no unit to be released, and the mixer with as many as the engine. -/
theorem units_end_once (h : Session.start c tones = .ok s) (deeds : List (Deed U)) :
    (∀ past made later u, deeds = later ++ made :: past → (s.after past).given? made = some u →
      (s.after (made :: past)).timesGiven u later = 0 →
      departed u ((s.after (made :: past)).journal later ++
          (s.after deeds).engine.shutDown (s.after deeds).link) = 1 ∧
        ∀ next, (s.after deeds).given? next = some u →
          departed u ((s.after (made :: past)).journal later) = 1) ∧
    (∀ deed, ∀ e ∈ ((s.after deeds).act deed).2, e.kind = .released →
      deed = .tick ∧ s.isBack e.unit deeds = true ∧
        ∃ x, s.lastSeen? e.unit deeds = some x ∧ Dsp.control e.state = Dsp.control x) ∧
    (∀ e ∈ (s.after deeds).engine.shutDown (s.after deeds).link, e.kind = .released ∧
      ((∃ entry, (s.after deeds).engine.units.live? e.unit = some entry ∧ e.state = entry.unit) ∨
        ∃ x, s.lastSeen? e.unit deeds = some x ∧ Dsp.control e.state = Dsp.control x)) ∧
    ∀ {σ : Type} [SignalSource σ] (source : σ),
      (s.after (.tick :: .render source :: deeds)).engine.pendingReleases = 0 ∧
        (s.after (.tick :: .render source :: deeds)).mixer.unitCount =
          (s.after (.tick :: .render source :: deeds)).engine.unitCount := by
  have hstep := inStep_after h deeds
  refine ⟨?_, fun deed e he hkind => ?_, fun e he => ?_, fun source => ?_⟩
  · rintro past made later u rfl hgiven hagain
    rw [after_append]
    exact (inStep_after h past).departed_once hgiven hagain
  · obtain ⟨rfl, hback, hstate⟩ := hstep.mem_released he hkind
    obtain ⟨entry, hget, hunit⟩ := Option.map_eq_some_iff.mp hstate
    have hlive : (s.after deeds).engine.units.live? e.unit = none := by
      rw [← Option.not_isSome_iff_eq_none]
      exact fun hsome => hstep.not_mem_retired hsome hback
    rw [← hunit]
    exact ⟨rfl, isBack_of_mem_retired h deeds hback, lastSeen?_of_releasing h deeds hget hlive⟩
  · obtain ⟨hkind, hstate⟩ := hstep.mem_shutDown he
    obtain ⟨entry, hget, hunit⟩ := Option.map_eq_some_iff.mp hstate
    refine ⟨hkind, ?_⟩
    rw [← hunit]
    cases hlive : (s.after deeds).engine.units.live? e.unit with
    | some live =>
      have hsame := (UnitStore.live?_eq_some.mp hlive).1
      rw [hget] at hsame
      exact Or.inl ⟨live, rfl, congrArg _ (Option.some.inj hsame)⟩
    | none => exact Or.inr (lastSeen?_of_releasing h deeds hget hlive)
  · exact (inStep_after h (.tick :: .render source :: deeds)).settled rfl rfl

def farewell : List (Deed StockUnit) :=
  [.tick, .render Silence.mk, .tick, .call (.release ⟨0, 0⟩),
    .edit ⟨0, 0⟩ (StockUnit.editGain? (·.setGain 0.5))]

theorem units_end_once_tiny :
    Session.start tinyConfig (.new 44100) = .ok tiny ∧
    tiny.given? (.call (.create (.gainMeter 1))) = some ⟨0, 0⟩ ∧
    (tiny.after [.call (.create (.gainMeter 1))]).timesGiven ⟨0, 0⟩ farewell = 0 ∧
    departed ⟨0, 0⟩ ((tiny.after [.call (.create (.gainMeter 1))]).journal farewell ++
      (tiny.after (farewell ++ [.call (.create (.gainMeter 1))])).engine.shutDown
        (tiny.after (farewell ++ [.call (.create (.gainMeter 1))])).link) = 1 ∧
    ∃ e ∈ ((tiny.after (farewell.tail ++ [.call (.create (.gainMeter 1))])).act .tick).2,
      e.kind = .released ∧
      tiny.isBack ⟨0, 0⟩ (farewell.tail ++ [.call (.create (.gainMeter 1))]) = true ∧
      Dsp.control e.state = .gain { gain := 0.5 } := by
  have hgiven : tiny.given? (.call (.create (.gainMeter 1))) = some ⟨0, 0⟩ := by decide +kernel
  have hagain : (tiny.after [.call (.create (.gainMeter 1))]).timesGiven ⟨0, 0⟩ farewell = 0 := by
    decide +kernel
  obtain ⟨honce, -⟩ := units_end_once start_tiny (farewell ++ [.call (.create (.gainMeter 1))])
  obtain ⟨hend, -⟩ := honce [] (.call (.create (.gainMeter 1))) farewell ⟨0, 0⟩ rfl hgiven hagain
  obtain ⟨-, hticks, -⟩ :=
    units_end_once start_tiny (farewell.tail ++ [.call (.create (.gainMeter 1))])
  refine ⟨start_tiny, hgiven, hagain, hend, _, List.mem_cons_self, rfl, ?_, rfl⟩
  exact (hticks .tick _ List.mem_cons_self rfl).2.1

end Session

end Patchbay

import Patchbay.Proofs.Session.InStep

/-! What the journal of a deed says about one unit. Control fields are exchanged in ticks and audio
fields in buffers, once for each unit that is attached on that side; and a unit that is not written
to is after a deed what the entries about it make of it. -/

namespace Patchbay

open Mixer Activity

variable {U : Type}

namespace Activity

/-- One entry of a kind for each of some units, and none for others. -/
def Once (kind : Occurrence) (on : UnitHandle → Prop) (es : List (Activity U)) : Prop :=
  ∀ u, (on u ∧ ∃ x, about u es = [⟨u, kind, x⟩]) ∨ (¬ on u ∧ about u es = [])

theorem about_append (u : UnitHandle) (es fs : List (Activity U)) :
    about u (es ++ fs) = about u es ++ about u fs :=
  List.filter_append ..

theorem about_eq_nil {u : UnitHandle} {es : List (Activity U)} (h : ∀ e ∈ es, e.unit ≠ u) :
    about u es = [] := by
  unfold about
  rw [List.filter_eq_nil_iff]
  exact fun e he => by simpa using h e he

theorem Once.congr {kind : Occurrence} {on on' : UnitHandle → Prop} {es : List (Activity U)}
    (h : Once kind on es) (hon : ∀ u, on u ↔ on' u) : Once kind on' es := by
  intro u
  rw [← hon]
  exact h u

theorem once_of_keys {α : Type} {kind : Occurrence} {f : α → UnitHandle} {l : List α}
    {es : List (Activity U)} (hkeys : es.map key = l.map fun a => (f a, kind))
    (hnodup : (l.map f).Nodup) : Once kind (fun u => u ∈ l.map f) es := by
  induction l generalizing es with
  | nil =>
    rw [List.map_nil, List.map_eq_nil_iff] at hkeys
    rw [hkeys]
    exact fun u => Or.inr ⟨List.not_mem_nil, rfl⟩
  | cons a l ih =>
    cases es with
    | nil => cases hkeys
    | cons e es =>
      rw [List.map_cons, List.map_cons, List.cons.injEq] at hkeys
      rw [List.map_cons, List.nodup_cons] at hnodup
      obtain ⟨unit, occurrence, state⟩ := e
      cases hkeys.1
      intro u
      simp only [List.map_cons, List.mem_cons]
      have hrest := ih hkeys.2 hnodup.2 u
      unfold about at *
      by_cases hu : f a = u
      · have hnil := (hrest.resolve_left fun h => hnodup.1 (hu ▸ h.1)).2
        rw [List.filter_cons_of_pos (by simpa using hu), hnil]
        cases hu
        exact Or.inl ⟨Or.inl rfl, state, rfl⟩
      · rw [List.filter_cons_of_neg (by simpa using hu)]
        simpa [Ne.symm hu] using hrest

theorem Once.kind_eq {kind : Occurrence} {on : UnitHandle → Prop} {es : List (Activity U)}
    (h : Once kind on es) : ∀ e ∈ es, e.kind = kind := by
  intro e he
  have hmem : e ∈ about e.unit es := List.mem_filter.mpr ⟨he, decide_eq_true rfl⟩
  rcases h e.unit with ⟨-, x, hx⟩ | ⟨-, hnil⟩
  · rw [hx, List.mem_singleton] at hmem
    rw [hmem]
  · rw [hnil] at hmem
    cases hmem

def count (u : UnitHandle) (kind : Occurrence) (es : List (Activity U)) : Nat :=
  es.countP fun e => e.key = (u, kind)

theorem count_append (u : UnitHandle) (kind : Occurrence) (es fs : List (Activity U)) :
    count u kind (es ++ fs) = count u kind es + count u kind fs :=
  List.countP_append ..

theorem count_eq_zero {u : UnitHandle} {kind : Occurrence} {es : List (Activity U)}
    (h : ∀ e ∈ es, e.kind ≠ kind) : count u kind es = 0 := by
  unfold count
  rw [List.countP_eq_zero]
  intro e he hkey
  exact h e he (congrArg Prod.snd (of_decide_eq_true hkey))

theorem count_about (u : UnitHandle) (kind : Occurrence) (es : List (Activity U)) :
    count u kind (about u es) = count u kind es := by
  unfold count about
  rw [List.countP_filter]
  apply List.countP_congr
  intro e _
  simp only [key, Prod.mk.injEq, Bool.and_eq_true, decide_eq_true_eq, and_iff_left_iff_imp]
  exact And.left

theorem Once.count_eq {kind : Occurrence} {on : UnitHandle → Prop} {es : List (Activity U)}
    (h : Once kind on es) (u : UnitHandle) [Decidable (on u)] :
    count u kind es = if on u then 1 else 0 := by
  rw [← count_about]
  rcases h u with ⟨hu, x, hx⟩ | ⟨hu, hnil⟩
  · rw [hx, if_pos hu]
    simp [count, key]
  · rw [hnil, if_neg hu]
    rfl

end Activity

theorem Mixer.once_exchanged {m : Mixer} (hm : m.owned.Nodup) {es : List (Activity U)}
    (hkeys : es.map key =
      (m.units.filter (·.target.isSome)).map fun x => (x.unit, .exchangedAudio)) :
    Once .exchangedAudio (fun u => (m.targetOf u).isSome) es := by
  have hsub : ((m.units.filter (·.target.isSome)).map MixerUnit.unit).Nodup :=
    hm.sublist (List.filter_sublist.map _)
  apply (once_of_keys (f := MixerUnit.unit) hkeys hsub).congr
  intro u
  rw [Option.isSome_iff_exists, List.mem_map]
  simp only [targetOf_eq_some hm, List.mem_filter]
  constructor
  · rintro ⟨⟨v, y⟩, ⟨hv, hy⟩, rfl⟩
    obtain ⟨x, rfl⟩ := Option.isSome_iff_exists.mp hy
    exact ⟨x, hv⟩
  · rintro ⟨x, hx⟩
    exact ⟨_, ⟨hx, rfl⟩, rfl⟩

namespace Session

def ticked (s : Session U) (u : UnitHandle) : Deed U → Bool
  | .tick => (s.engine.table.attachment u).isSome
  | _ => false

/-- Whether a deed is a buffer that has the unit attached in the mixer, with the waiting commands
carried out. -/
def rendered (s : Session U) (u : UnitHandle) : Deed U → Bool
  | @Deed.render _ _ _ _ => ((s.mixer.drain s.link).1.targetOf u).isSome
  | _ => false

def made? (s : Session U) (u : UnitHandle) : Deed U → Option U
  | .call (.create design) =>
    match (s.attempt (Call.create design).operation).1 with
    | .ok (.unit v) => if v = u then some design.unit else none
    | _ => none
  | _ => none

theorem made?_eq_some {s : Session U} {u : UnitHandle} {unit : U} {deed : Deed U}
    (h : s.made? u deed = some unit) :
    ∃ design, deed = .call (.create design) ∧ design.unit = unit := by
  unfold made? at h
  split at h
  · split at h
    · split at h
      · exact ⟨_, rfl, Option.some.inj h⟩
      · cases h
    · cases h
  · cases h

theorem InStep.get?_called {s : Session U} (h : InStep s) (call : Call U) {u : UnitHandle}
    {entry : UnitEntry U}
    (hu : (s.attempt call.operation).2.engine.units.get? u = some entry) :
    s.made? u (.call call) = some entry.unit ∨
      s.made? u (.call call) = none ∧
        ∃ before, s.engine.units.get? u = some before ∧ before.unit = entry.unit := by
  rcases s.attempt_call call with ⟨e, heq⟩ | ⟨answer, t, heq, hdone, -, -⟩
  · refine Or.inr ⟨?_, entry, by rwa [heq] at hu, rfl⟩
    cases call <;> simp [made?, heq]
  · rw [heq] at hu
    obtain ⟨sent, -, heffect⟩ := hdone
    generalize hengine : t.engine = engine at heffect hu
    cases heffect with
    | @create design v units hinsert =>
      obtain ⟨-, -, -, hentry⟩ := UnitStore.insert?_eq_some h.store hinsert
      simp only [hentry] at hu
      by_cases huv : u = v
      · rw [if_pos huv] at hu
        cases hu
        exact Or.inl (by simp [made?, heq, huv])
      · rw [if_neg huv] at hu
        exact Or.inr ⟨by simp [made?, heq, Ne.symm huv], entry, hu, rfl⟩
    | @release v hlive =>
      simp only [UnitStore.setReleasing, UnitStore.get?_modify] at hu
      refine Or.inr ⟨rfl, ?_⟩
      split at hu
      · obtain ⟨before, hbefore, rfl⟩ := Option.map_eq_some_iff.mp hu
        exact ⟨before, hbefore, rfl⟩
      · exact ⟨entry, hu, rfl⟩
    | reroute hother =>
      refine Or.inr ⟨?_, entry, hu, rfl⟩
      cases call <;> first | rfl | cases hother

variable [Dsp U] {s : Session U}

theorem InStep.journal_tick (h : InStep s) :
    ∃ rs es, s.tick.2 = rs ++ es ∧
      (∀ e ∈ rs, e.kind = .released ∧ e.unit ∈ s.link.retired.items) ∧
      Once .exchangedControl (fun u => s.ticked u .tick) es ∧
      ∀ u entry, s.tick.1.engine.units.get? u = some entry →
        u ∉ s.link.retired.items ∧ ∃ before, s.engine.units.get? u = some before ∧
          Chain before.unit (about u es) entry.unit := by
  obtain ⟨-, -, hentry, rs, hrs, hreleased⟩ := h.collected
  obtain ⟨es, hran, hkeys⟩ := h.ran_tick
  refine ⟨rs, es, hrs ▸ hran.journal, ?_, ?_, ?_⟩
  · intro e he
    have hkey := List.mem_map_of_mem (f := key) he
    rw [hreleased] at hkey
    obtain ⟨u, hu, heq⟩ := List.mem_map.mp hkey
    cases e
    cases heq
    exact ⟨rfl, hu⟩
  · apply (once_of_keys (f := Prod.fst) hkeys s.engine.table.nodup_units).congr
    intro u
    unfold ticked
    rw [Option.isSome_iff_exists, List.mem_map]
    simp only [AttachmentTable.attachment_eq_some, Prod.exists, exists_and_right, exists_eq_right]
  · intro u entry hu
    obtain ⟨before, hbefore, hchain⟩ := hran.chain_back hu
    rw [hentry] at hbefore
    split at hbefore
    · cases hbefore
    · rename_i hretired
      exact ⟨hretired, before, hbefore, hchain⟩

theorem InStep.journal_render {σ : Type} [SignalSource σ] (h : InStep s) (source : σ) :
    ∃ es fs, Rack.Ran ⟨s.engine.units, []⟩ (es ++ fs)
        ⟨(s.render source).session.engine.units, (s.render source).journal⟩ ∧
      Once .exchangedAudio (fun u => s.rendered u (.render source)) es ∧
      ∀ e ∈ fs, s.rendered e.unit (.render source) ∧ ∃ b, e.kind = .processed b := by
  have hnodup := h.nodup_drain
  obtain ⟨-, -, -, es, fs, hran, hkeys, hsounded⟩ :=
    render_spec ⟨s.engine.units, []⟩ source h.isSome_get?_of_drain
  refine ⟨es, fs, hran, once_exchanged hnodup hkeys, ?_⟩
  intro e he
  obtain ⟨⟨x, hx⟩, b, hb, -⟩ := hsounded e he
  refine ⟨?_, b, hb⟩
  unfold rendered
  rw [(targetOf_eq_some hnodup).mpr (mem_units_of_unitOn hx)]
  rfl

/-- What a deed exchanges: control fields once if it is a tick with the unit attached, audio fields
once if it is a buffer with the unit attached, and the latter before any sound is processed. -/
structure ExchangesOnce (s : Session U) (deed : Deed U) (u : UnitHandle) : Prop where
  control : count u .exchangedControl (s.act deed).2 = if s.ticked u deed then 1 else 0
  audio : count u .exchangedAudio (s.act deed).2 = if s.rendered u deed then 1 else 0
  order : ∃ es fs, (s.act deed).2 = es ++ fs ∧ (∀ e ∈ es, ∀ b, e.kind ≠ .processed b) ∧
    ∀ e ∈ fs, e.kind ≠ .exchangedAudio

theorem quiet_or (s : Session U) (deed : Deed U) :
    ((s.act deed).2 = [] ∧ ∀ u, s.ticked u deed = false ∧ s.rendered u deed = false) ∨
      deed = .tick ∨
      ∃ (σ : Type) (_ : SignalSource σ) (source : σ), deed = .render source := by
  cases deed with
  | tick => exact Or.inr (Or.inl rfl)
  | render source => exact Or.inr (Or.inr ⟨_, _, source, rfl⟩)
  | edit v write => exact Or.inl ⟨(s.act_edit v write).1, fun _ => ⟨rfl, rfl⟩⟩
  | call call => exact Or.inl ⟨rfl, fun _ => ⟨rfl, rfl⟩⟩
  | pause paused => exact Or.inl ⟨rfl, fun _ => ⟨rfl, rfl⟩⟩
  | meter metering => exact Or.inl ⟨rfl, fun _ => ⟨rfl, rfl⟩⟩
  | feed change => exact Or.inl ⟨rfl, fun _ => ⟨rfl, rfl⟩⟩
  | takeUp => exact Or.inl ⟨rfl, fun _ => ⟨rfl, rfl⟩⟩

theorem InStep.exchangesOnce (h : InStep s) (deed : Deed U) (u : UnitHandle) :
    s.ExchangesOnce deed u := by
  rcases s.quiet_or deed with ⟨hnil, hquiet⟩ | rfl | ⟨σ, _, source, rfl⟩
  · obtain ⟨hticked, hrendered⟩ := hquiet u
    refine ⟨?_, ?_, [], [], hnil, by simp, by simp⟩
    · rw [hnil, hticked]
      rfl
    · rw [hnil, hrendered]
      rfl
  · obtain ⟨rs, es, hjournal, hrs, honce, -⟩ := h.journal_tick
    have heq : (s.act .tick).2 = rs ++ es := hjournal
    have hreleased (kind : Occurrence) (hkind : kind ≠ .released) : ∀ e ∈ rs, e.kind ≠ kind :=
      fun e he => (hrs e he).1 ▸ hkind.symm
    have hexchanged (kind : Occurrence) (hkind : kind ≠ .exchangedControl) :
        ∀ e ∈ es, e.kind ≠ kind :=
      fun e he => honce.kind_eq e he ▸ hkind.symm
    refine ⟨?_, ?_, rs ++ es, [], by rw [heq, List.append_nil], ?_, by simp⟩
    · rw [heq, count_append, honce.count_eq, count_eq_zero (hreleased _ (by simp)), Nat.zero_add]
    · rw [heq, count_append, count_eq_zero (hreleased _ (by simp)),
        count_eq_zero (hexchanged _ (by simp))]
      rfl
    · intro e he b
      rcases List.mem_append.mp he with he | he
      · exact hreleased _ (by simp) e he
      · exact hexchanged _ (by simp) e he
  · obtain ⟨es, fs, hran, honce, hfs⟩ := h.journal_render source
    have heq : (s.act (.render source)).2 = es ++ fs := hran.journal
    have hexchanged (kind : Occurrence) (hkind : kind ≠ .exchangedAudio) :
        ∀ e ∈ es, e.kind ≠ kind :=
      fun e he => honce.kind_eq e he ▸ hkind.symm
    have hprocessed (kind : Occurrence) (hkind : ∀ b, kind ≠ .processed b) :
        ∀ e ∈ fs, e.kind ≠ kind := by
      intro e he
      obtain ⟨-, b, hb⟩ := hfs e he
      rw [hb]
      exact (hkind b).symm
    refine ⟨?_, ?_, es, fs, heq, ?_, hprocessed _ (by simp)⟩
    · rw [heq, count_append, count_eq_zero (hexchanged _ (by simp)),
        count_eq_zero (hprocessed _ (by simp))]
      rfl
    · rw [heq, count_append, honce.count_eq, count_eq_zero (hprocessed _ (by simp)),
        Nat.add_zero]
    · exact fun e he b => hexchanged _ (by simp) e he

/-- After a deed a unit is as it was just made, as it was written to, or what the journal makes of
it. -/
theorem InStep.get?_act (h : InStep s) (deed : Deed U) {u : UnitHandle} {entry : UnitEntry U}
    (hu : (s.act deed).1.engine.units.get? u = some entry) :
    s.made? u deed = some entry.unit ∨
      s.made? u deed = none ∧ ∃ before, s.engine.units.get? u = some before ∧
        ((∃ write, deed = .edit u write ∧ write before.unit = some entry.unit) ∨
          Chain before.unit (about u (s.act deed).2) entry.unit) := by
  cases deed with
  | call call =>
    rcases h.get?_called call hu with hmade | ⟨hmade, before, hbefore, hunit⟩
    · exact Or.inl hmade
    · exact Or.inr ⟨hmade, before, hbefore, Or.inr hunit.symm⟩
  | edit v write =>
    obtain ⟨hnil, heq | ⟨before, unit, hbefore, hwrite, heq⟩⟩ := s.act_edit v write
    · rw [heq] at hu
      rw [hnil]
      exact Or.inr ⟨rfl, entry, hu, Or.inr rfl⟩
    · rw [heq] at hu
      rw [hnil]
      simp only [UnitStore.setUnit, UnitStore.get?_modify] at hu
      by_cases huv : u = v
      · subst huv
        rw [if_pos rfl, hbefore] at hu
        cases hu
        exact Or.inr ⟨rfl, before, hbefore, Or.inl ⟨write, rfl, hwrite⟩⟩
      · rw [if_neg huv] at hu
        exact Or.inr ⟨rfl, entry, hu, Or.inr rfl⟩
  | tick =>
    obtain ⟨rs, es, hjournal, hrs, -, hchain⟩ := h.journal_tick
    obtain ⟨hretired, before, hbefore, hes⟩ := hchain u entry hu
    have hnil : about u rs = [] := about_eq_nil fun e he heq => hretired (heq ▸ (hrs e he).2)
    have heq : about u (s.act .tick).2 = about u es := by
      rw [← List.nil_append (about u es), ← hnil, ← about_append]
      exact congrArg (about u) hjournal
    rw [heq]
    exact Or.inr ⟨rfl, before, hbefore, Or.inr hes⟩
  | render source =>
    obtain ⟨es, fs, hran, -, -⟩ := h.journal_render source
    obtain ⟨before, hbefore, hes⟩ := hran.chain_back hu
    have heq : (s.act (.render source)).2 = es ++ fs := hran.journal
    rw [heq]
    exact Or.inr ⟨rfl, before, hbefore, Or.inr hes⟩
  | takeUp =>
    refine Or.inr ⟨rfl, entry, ?_, Or.inr rfl⟩
    rw [← s.engine_takeUp]
    exact hu
  | pause paused => exact Or.inr ⟨rfl, entry, hu, Or.inr rfl⟩
  | meter metering => exact Or.inr ⟨rfl, entry, hu, Or.inr rfl⟩
  | feed change => exact Or.inr ⟨rfl, entry, hu, Or.inr rfl⟩

end Session

end Patchbay

import Patchbay.Proofs.Unit.Slots
import Patchbay.Unit.Activity

/-! The journal of a rack tells all there is to tell: what a unit is after something was done to the
rack is what the entries that name it make of it, each from where the one before left off. Apart
from the insides of units, only emptying a slot changes the store. -/

namespace Patchbay

variable {U : Type}

/-! Collecting units whose audio halves are back. -/

theorem Rack.units_retire (r : Rack U) (u : UnitHandle) :
    (r.retire u).units = r.units.retire u := by
  unfold retire
  split <;> rfl

theorem Rack.journal_retire {r : Rack U} {u : UnitHandle} (h : (r.units.get? u).isSome) :
    ∃ x, (r.retire u).journal = r.journal ++ [⟨u, .released, x⟩] := by
  obtain ⟨entry, hentry⟩ := Option.isSome_iff_exists.mp h
  refine ⟨entry.unit, ?_⟩
  unfold retire
  rw [hentry]
  rfl

def Occurrence.buffer? : Occurrence → Option AudioBuffer
  | .processed b => some b
  | _ => none

theorem Occurrence.buffer?_eq_some {kind : Occurrence} {b : AudioBuffer} :
    kind.buffer? = some b ↔ kind = .processed b := by
  cases kind <;> simp [buffer?]

/-! All else that is done to units. -/

variable [Dsp U]

namespace Activity

def after (a : Activity U) : U :=
  match a.kind with
  | .exchangedControl => Dsp.exchangeControl a.state
  | .exchangedAudio => Dsp.exchangeAudio a.state
  | .processed b => (Dsp.process b a.state).2
  | .released => a.state

def key (a : Activity U) : UnitHandle × Occurrence := (a.unit, a.kind)

/-- Entries that each go on from where the one before left off, from one state to another. -/
def Chain (x : U) : List (Activity U) → U → Prop
  | [], y => y = x
  | a :: as, y => a.state = x ∧ Chain a.after as y

def about (u : UnitHandle) (as : List (Activity U)) : List (Activity U) :=
  as.filter (·.unit = u)

theorem Chain.append {x y z : U} {as bs : List (Activity U)} (h : Chain x as y)
    (k : Chain y bs z) : Chain x (as ++ bs) z := by
  induction as generalizing x with
  | nil => exact h ▸ k
  | cons a as ih => exact ⟨h.1, ih h.2⟩

end Activity

open Activity

namespace Rack

/-- What happened in between turns one rack into the other, and every unit goes through the entries
that name it. -/
structure Ran (r : Rack U) (events : List (Activity U)) (r' : Rack U) : Prop where
  journal : r'.journal = r.journal ++ events
  outline : r'.units.outline = r.units.outline
  chain : ∀ u entry, r.units.get? u = some entry → ∃ unit,
    r'.units.get? u = some { entry with unit } ∧ Chain entry.unit (about u events) unit

theorem ran_nil (r : Rack U) : Ran r [] r where
  journal := by simp
  outline := rfl
  chain u entry h := ⟨entry.unit, h, rfl⟩

theorem Ran.trans {r s t : Rack U} {es fs : List (Activity U)} (h : Ran r es s)
    (k : Ran s fs t) : Ran r (es ++ fs) t where
  journal := by rw [k.journal, h.journal, List.append_assoc]
  outline := k.outline.trans h.outline
  chain u entry hu := by
    obtain ⟨x, hx, hes⟩ := h.chain u entry hu
    obtain ⟨y, hy, hfs⟩ := k.chain u _ hx
    refine ⟨y, hy, ?_⟩
    unfold about
    rw [List.filter_append]
    exact hes.append hfs

theorem Ran.isSome_get? {r s : Rack U} {es : List (Activity U)} (h : Ran r es s)
    (u : UnitHandle) : (s.units.get? u).isSome = (r.units.get? u).isSome := by
  rw [← s.units.isSome_get?_outline, h.outline, r.units.isSome_get?_outline]

theorem Ran.chain_back {r s : Rack U} {es : List (Activity U)} (h : Ran r es s)
    {u : UnitHandle} {entry : UnitEntry U} (hu : s.units.get? u = some entry) :
    ∃ before, r.units.get? u = some before ∧ Chain before.unit (about u es) entry.unit := by
  have hsome := h.isSome_get? u
  rw [hu] at hsome
  obtain ⟨before, hbefore⟩ := Option.isSome_iff_exists.mp hsome.symm
  obtain ⟨unit, hunit, hchain⟩ := h.chain u before hbefore
  rw [hu] at hunit
  cases hunit
  exact ⟨before, hbefore, hchain⟩

theorem ran_note {r : Rack U} {u : UnitHandle} {entry : UnitEntry U} {kind : Occurrence}
    {units : UnitStore U} (h : r.units.get? u = some entry)
    (hunits : units = r.units.modifyAt u.index
      ({ · with unit := after ⟨u, kind, entry.unit⟩ })) :
    Ran r [⟨u, kind, entry.unit⟩] (({ r with units } : Rack U).note u kind entry.unit) where
  journal := rfl
  outline := by
    subst hunits
    exact r.units.outline_modifyAt u.index fun _ => after ⟨u, kind, entry.unit⟩
  chain v e hv := by
    have hchange := r.units.get?_modifyAt u.index v
      ({ · with unit := after ⟨u, kind, entry.unit⟩ })
    rw [← hunits] at hchange
    by_cases huv : u = v
    · subst huv
      rw [h] at hv
      cases hv
      rw [if_pos rfl, h] at hchange
      refine ⟨_, hchange, ?_⟩
      unfold about
      simp only [decide_true, List.filter_cons_of_pos, List.filter_nil]
      exact ⟨rfl, rfl⟩
    · have hindex : v.index ≠ u.index := fun hi =>
        huv (UnitStore.eq_of_index_eq (Option.isSome_of_mem h) (Option.isSome_of_mem hv) hi.symm)
      rw [if_neg hindex, hv] at hchange
      refine ⟨e.unit, hchange, ?_⟩
      unfold about
      rw [List.filter_cons_of_neg (by simpa using huv)]
      rfl

theorem ran_exchangeControlAt {r : Rack U} {u : UnitHandle} (h : (r.units.get? u).isSome) :
    ∃ x, Ran r [⟨u, .exchangedControl, x⟩] (r.exchangeControlAt u.index) := by
  obtain ⟨entry, hentry⟩ := Option.isSome_iff_exists.mp h
  refine ⟨entry.unit, ?_⟩
  unfold exchangeControlAt
  rw [UnitStore.get?_eq_some.mp hentry]
  exact ran_note hentry rfl

theorem ran_exchangeAudio {r : Rack U} {u : UnitHandle} (h : (r.units.get? u).isSome) :
    ∃ x, Ran r [⟨u, .exchangedAudio, x⟩] (r.exchangeAudio u) := by
  obtain ⟨entry, hentry⟩ := Option.isSome_iff_exists.mp h
  refine ⟨entry.unit, ?_⟩
  unfold exchangeAudio
  rw [hentry]
  exact ran_note hentry (UnitStore.setUnit_eq h _)

def Processing (among : UnitHandle → Prop) (es : List (Activity U)) : Prop :=
  ∀ e ∈ es, among e.unit ∧ ∃ b, e.kind = .processed b ∧ b.isEmpty = false

theorem ran_process (r : Rack U) (u : UnitHandle) (b : AudioBuffer) :
    ∃ es, Ran r es (r.process u b).2 ∧ Processing (· = u) es := by
  unfold process
  cases hentry : r.units.get? u with
  | none => exact ⟨[], ran_nil r, by simp [Processing]⟩
  | some entry =>
    have hsome : (r.units.get? u).isSome := Option.isSome_of_mem hentry
    dsimp only
    unfold Dsp.run
    cases hb : b.isEmpty with
    | true =>
      refine ⟨[], ?_, by simp [Processing]⟩
      have hsame := UnitStore.setUnit_eq_self hentry
      simp only [if_true, hsame]
      exact ran_nil r
    | false =>
      refine ⟨[⟨u, .processed b, entry.unit⟩], ?_, ?_⟩
      · simp only [Bool.false_eq_true, if_false]
        exact ran_note hentry (UnitStore.setUnit_eq hsome _)
      · intro e he
        rw [List.mem_singleton.mp he]
        exact ⟨rfl, b, rfl, hb⟩

theorem ran_processAt (r : Rack U) (u? : Option UnitHandle) (b : AudioBuffer) :
    ∃ es, Ran r es (r.processAt u? b).2 ∧ Processing (u? = some ·) es := by
  cases u? with
  | none => exact ⟨[], ran_nil r, by simp [Processing]⟩
  | some u =>
    obtain ⟨es, hran, hes⟩ := ran_process r u b
    exact ⟨es, hran, fun e he => ⟨congrArg some (hes e he).1.symm, (hes e he).2⟩⟩

theorem ran_foldl {α : Type} {f : Rack U → α → Rack U} {k : α → UnitHandle × Occurrence}
    {l : List α} {r : Rack U}
    (h : ∀ s : Rack U, s.units.outline = r.units.outline → ∀ a ∈ l,
      ∃ x, Ran s [⟨(k a).1, (k a).2, x⟩] (f s a)) :
    ∃ es, Ran r es (l.foldl f r) ∧ es.map key = l.map k := by
  induction l generalizing r with
  | nil => exact ⟨[], ran_nil r, rfl⟩
  | cons a l ih =>
    obtain ⟨x, hx⟩ := h r rfl a List.mem_cons_self
    obtain ⟨es, hes, hkey⟩ := ih (r := f r a) fun s hs b hb =>
      h s (hs.trans hx.outline) b (List.mem_cons_of_mem _ hb)
    exact ⟨_, hx.trans hes, by simp [hkey, key]⟩

end Rack

end Patchbay

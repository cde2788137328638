import Patchbay.Proofs.Route.Attachment

/-! The table as two maps, from units to targets and back, which every operation edits one after the
other. After any operations each is the inverse of the other, and both are what the table says. The
changes that an operation reports can be made one by one on the map it found, and they come to the
map it left. -/

namespace Patchbay

inductive TableEdit
  | attach (unit : UnitHandle) (target : Target)
  | detach (unit : UnitHandle)
  | detachTarget (target : Target)
  | detachEvent (event : EventHandle)
  deriving DecidableEq

namespace AttachmentTable

def edit (t : AttachmentTable) : TableEdit → AttachmentTable × List RouteChange
  | .attach u x => t.attach u x
  | .detach u => ((t.detach u).1, (t.detach u).2.toList)
  | .detachTarget x => ((t.detachTarget x).1, (t.detachTarget x).2.toList)
  | .detachEvent e => ((t.detachEvent e).1, (t.detachEvent e).2.toList)

def after (t : AttachmentTable) : List TableEdit → AttachmentTable
  | [] => t
  | e :: past => ((t.after past).edit e).1

end AttachmentTable

/-- Two maps that are edited apart from each other. -/
structure TwoWay where
  byUnit : UnitHandle → Option Target := fun _ => none
  byTarget : Target → Option UnitHandle := fun _ => none

namespace TwoWay

def remove (m : TwoWay) (u : UnitHandle) (x : Target) : TwoWay where
  byUnit := Function.update m.byUnit u none
  byTarget := Function.update m.byTarget x none

def insert (m : TwoWay) (u : UnitHandle) (x : Target) : TwoWay where
  byUnit := Function.update m.byUnit u (some x)
  byTarget := Function.update m.byTarget x (some u)

def detach (m : TwoWay) (u : UnitHandle) : TwoWay × Option RouteChange :=
  match m.byUnit u with
  | none => (m, none)
  | some x => (m.remove u x, some (.detach u x))

def detachTarget (m : TwoWay) (x : Target) : TwoWay × Option RouteChange :=
  match m.byTarget x with
  | none => (m, none)
  | some u => (m.remove u x, some (.detach u x))

/-- A unit that moves gives up its old target only in the map back, as its own entry is written over
at the end. -/
def attach (m : TwoWay) (u : UnitHandle) (x : Target) : TwoWay × List RouteChange :=
  let current := m.byUnit u
  if current = some x then (m, [])
  else
    let (m, out) := m.detachTarget x
    match current with
    | some y =>
      let m := { m with byTarget := Function.update m.byTarget y none }
      (m.insert u x, out.toList ++ [.move u y x])
    | none => (m.insert u x, out.toList ++ [.attach u x])

def edit (m : TwoWay) : TableEdit → TwoWay × List RouteChange
  | .attach u x => m.attach u x
  | .detach u => ((m.detach u).1, (m.detach u).2.toList)
  | .detachTarget x => ((m.detachTarget x).1, (m.detachTarget x).2.toList)
  | .detachEvent e => ((m.detachTarget (.event e)).1, (m.detachTarget (.event e)).2.toList)

def after (m : TwoWay) : List TableEdit → TwoWay
  | [] => m
  | e :: past => ((m.after past).edit e).1

def Inverse (m : TwoWay) : Prop :=
  ∀ u x, m.byUnit u = some x ↔ m.byTarget x = some u

variable {m : TwoWay} {t : AttachmentTable} {u : UnitHandle} {x : Target}

theorem Inverse.remove (h : m.Inverse) (hu : m.byUnit u = some x) : (m.remove u x).Inverse := by
  intro v y
  have hx := (h u x).mp hu
  simp only [TwoWay.remove, Function.update_apply]
  by_cases hv : v = u
  · -- the unit was on the target that is given up, and on no other
    have hy (hne : y ≠ x) : m.byTarget y ≠ some u := fun hc =>
      hne (Option.some.inj (((h u y).mpr hc).symm.trans hu))
    by_cases hyx : y = x
    · simp [hv, hyx]
    · simp [hv, hyx, hy hyx]
  · have hne : m.byUnit v ≠ some x := fun hc =>
      hv (Option.some.inj (((h v x).mp hc).symm.trans hx))
    by_cases hyx : y = x
    · simp [hv, hyx, hne]
    · simp [hv, hyx, h v y]

theorem Inverse.insert (h : m.Inverse) (hu : m.byUnit u = none) (hx : m.byTarget x = none) :
    (m.insert u x).Inverse := by
  intro v y
  simp only [TwoWay.insert, Function.update_apply]
  by_cases hv : v = u
  · have hy : m.byTarget y ≠ some u := fun hc => by
      rw [← h, hu] at hc
      cases hc
    by_cases hyx : y = x
    · simp [hv, hyx]
    · simp [hv, hyx, hy, Ne.symm hyx]
  · have hne : m.byUnit v ≠ some x := fun hc => by
      rw [h, hx] at hc
      cases hc
    by_cases hyx : y = x
    · simp [hv, hyx, hne, Ne.symm hv]
    · simp [hv, hyx, h v y]

structure Mirrors (m : TwoWay) (t : AttachmentTable) : Prop where
  byUnit : m.byUnit = t.attachment
  byTarget : m.byTarget = t.unitAt

theorem Inverse.mirrors (h : m.Inverse) (hu : m.byUnit = t.attachment) : m.Mirrors t where
  byUnit := hu
  byTarget := by
    ext x u
    rw [← h, hu, AttachmentTable.unitAt_eq_some]

theorem Mirrors.inverse (h : m.Mirrors t) : m.Inverse := by
  intro u x
  rw [h.byUnit, h.byTarget, AttachmentTable.unitAt_eq_some]

theorem Mirrors.detach (h : m.Mirrors t) (u : UnitHandle) :
    (m.detach u).1.Mirrors (t.detach u).1 ∧ (m.detach u).2 = (t.detach u).2 := by
  have hchange : (t.detach u).2 = (m.byUnit u).map (.detach u) := by
    rw [h.byUnit]
    rfl
  have hseat := t.attachment_detach u
  rw [← h.byUnit] at hseat
  rw [hchange, TwoWay.detach]
  cases hu : m.byUnit u with
  | none =>
    rw [Function.update_eq_self_iff.mpr hu.symm] at hseat
    exact ⟨h.inverse.mirrors hseat.symm, rfl⟩
  | some x => exact ⟨(h.inverse.remove hu).mirrors hseat.symm, rfl⟩

theorem Mirrors.detachTarget (h : m.Mirrors t) (x : Target) :
    (m.detachTarget x).1.Mirrors (t.detachTarget x).1 ∧
      (m.detachTarget x).2 = (t.detachTarget x).2 := by
  have hchange : (t.detachTarget x).2 = (m.byTarget x).map (.detach · x) := by
    rw [h.byTarget]
    rfl
  rw [hchange, TwoWay.detachTarget]
  cases hx : m.byTarget x with
  | none =>
    rw [h.byTarget] at hx
    have hseat := AttachmentTable.attachment_detachTarget_of_none hx
    exact ⟨h.inverse.mirrors (h.byUnit.trans hseat.symm), rfl⟩
  | some u =>
    have hu := (h.inverse u x).mpr hx
    rw [h.byTarget] at hx
    have hseat := AttachmentTable.attachment_detachTarget_eq hx
    rw [← h.byUnit] at hseat
    exact ⟨(h.inverse.remove hu).mirrors hseat.symm, rfl⟩

theorem byTarget_detachTarget (m : TwoWay) (x : Target) :
    (m.detachTarget x).1.byTarget x = none := by
  unfold TwoWay.detachTarget
  cases hx : m.byTarget x with
  | none => exact hx
  | some u => exact Function.update_self ..

theorem Mirrors.attach (h : m.Mirrors t) (u : UnitHandle) (x : Target) :
    (m.attach u x).1.Mirrors (t.attach u x).1 ∧ (m.attach u x).2 = (t.attach u x).2 := by
  by_cases hu : t.attachment u = some x
  · have ht : t.attach u x = (t, []) := if_pos hu
    have hm : m.attach u x = (m, []) := if_pos (by rw [h.byUnit, hu])
    rw [ht, hm]
    exact ⟨h, rfl⟩
  · obtain ⟨hk, hout⟩ := h.detachTarget x
    have hfree := m.byTarget_detachTarget x
    have hself : (m.detachTarget x).1.byUnit u = t.attachment u := by
      rw [hk.byUnit, AttachmentTable.attachment_detachTarget, filter_ne_eq_self hu]
    have hseat := t.attachment_attach_eq u x
    rw [← hk.byUnit] at hseat
    rw [AttachmentTable.changes_attach hu, ← hout]
    unfold TwoWay.attach
    rw [if_neg (by rwa [h.byUnit]), h.byUnit]
    dsimp only
    generalize (m.detachTarget x).1 = k at *
    cases hc : t.attachment u with
    | none =>
      rw [hc] at hself
      exact ⟨(hk.inverse.insert hself hfree).mirrors hseat.symm, rfl⟩
    | some y =>
      rw [hc] at hself
      -- giving up the old target in both maps comes to the same, as the unit's entry is new anyway
      have hmove : TwoWay.insert { k with byTarget := Function.update k.byTarget y none } u x =
          (k.remove u y).insert u x := by
        simp [TwoWay.insert, TwoWay.remove]
      have hgone : (k.remove u y).byTarget x = none := by
        simp only [TwoWay.remove, Function.update_apply, hfree, ite_self]
      have hinv := (hk.inverse.remove hself).insert (Function.update_self ..) hgone
      rw [← hmove] at hinv
      exact ⟨hinv.mirrors hseat.symm, rfl⟩

theorem Mirrors.edit (h : m.Mirrors t) (e : TableEdit) :
    (m.edit e).1.Mirrors (t.edit e).1 ∧ (m.edit e).2 = (t.edit e).2 := by
  cases e with
  | attach u x => exact h.attach u x
  | detach u => exact (h.detach u).imp_right (congrArg Option.toList)
  | detachTarget x => exact (h.detachTarget x).imp_right (congrArg Option.toList)
  | detachEvent e => exact (h.detachTarget (.event e)).imp_right (congrArg Option.toList)

theorem Mirrors.after (h : m.Mirrors t) (edits : List TableEdit) :
    (m.after edits).Mirrors (t.after edits) := by
  induction edits with
  | nil => exact h
  | cons e past ih => exact (ih.edit e).1

theorem mirrors_empty : TwoWay.Mirrors {} AttachmentTable.empty := ⟨rfl, rfl⟩

end TwoWay

def Seating.Apart (f : Seating) : Prop := ∀ u v x, f u = some x → f v = some x → u = v

theorem Seating.Apart.update {f : Seating} (h : f.Apart) {u : UnitHandle} {o : Option Target}
    (ho : ∀ x ∈ o, ∀ v, f v ≠ some x) : Seating.Apart (Function.update f u o) := by
  intro v w x hv hw
  rw [Function.update_apply] at hv hw
  split at hv
  · split at hw
    · simp_all
    · exact absurd hw (ho x hv w)
  · split at hw
    · exact absurd hv (ho x hw v)
    · exact h v w x hv hw

namespace RouteChange

def makeAll (f : Seating) : List RouteChange → Seating
  | [] => f
  | c :: cs => makeAll (c.make f) cs

theorem Legal.apart_make {f : Seating} {c : RouteChange} (h : c.Legal f) (hf : f.Apart) :
    (c.make f).Apart := by
  cases c with
  | attach u x => exact hf.update fun _ hx => Option.mem_some.mp hx ▸ h.2
  | move u x y => exact hf.update fun _ hy => Option.mem_some.mp hy ▸ h.2
  | detach u x => exact hf.update fun _ hx => absurd hx (Option.not_mem_none _)

theorem Lead.apart_makeAll {f g : Seating} {done rest : List RouteChange}
    (h : Lead f (done ++ rest) g) (hf : f.Apart) : (makeAll f done).Apart := by
  induction done generalizing f with
  | nil => exact hf
  | cons c done ih => exact ih h.2 (h.1.apart_make hf)

end RouteChange

namespace AttachmentTable

theorem apart_attachment (t : AttachmentTable) : Seating.Apart t.attachment :=
  fun _ _ _ => attachment_injective

theorem lead_edit (t : AttachmentTable) (e : TableEdit) :
    RouteChange.Lead t.attachment (t.edit e).2 (t.edit e).1.attachment := by
  cases e with
  | attach u x => exact t.lead_attach u x
  | detach u => exact t.lead_detach u
  | detachTarget x => exact t.lead_detachTarget x
  | detachEvent e => exact t.lead_detachTarget (.event e)

structure Faithful (t : AttachmentTable) : Prop where
  seats (u : UnitHandle) (x : Target) (v : UnitHandle) : (t.attach u x).1.attachment v =
    if v = u then some x else if t.attachment v = some x then none else t.attachment v
  lead (e : TableEdit) :
    RouteChange.Lead t.attachment (t.edit e).2 (t.edit e).1.attachment
  apart (e : TableEdit) (done rest : List RouteChange) :
    (t.edit e).2 = done ++ rest → (RouteChange.makeAll t.attachment done).Apart
  attach_nil (u : UnitHandle) (x : Target) :
    (t.attach u x).2 = [] ↔ t.attachment u = some x
  detach (u : UnitHandle) (c : RouteChange) :
    (t.detach u).2 = some c ↔ ∃ x, t.attachment u = some x ∧ c = .detach u x
  detachTarget (x : Target) (c : RouteChange) :
    (t.detachTarget x).2 = some c ↔ ∃ u, t.attachment u = some x ∧ c = .detach u x
  detachEvent (e : EventHandle) (c : RouteChange) :
    (t.detachEvent e).2 = some c ↔
      ∃ u, t.attachment u = some (.event e) ∧ c = .detach u (.event e)

theorem detachTarget_eq_some (t : AttachmentTable) (x : Target) (c : RouteChange) :
    (t.detachTarget x).2 = some c ↔ ∃ u, t.attachment u = some x ∧ c = .detach u x := by
  unfold AttachmentTable.detachTarget
  rw [Option.map_eq_some_iff]
  exact exists_congr fun u => and_congr unitAt_eq_some eq_comm

theorem attach_eq_nil (t : AttachmentTable) (u : UnitHandle) (x : Target) :
    (t.attach u x).2 = [] ↔ t.attachment u = some x := by
  constructor
  · intro h
    by_contra hu
    rw [changes_attach hu] at h
    simp at h
  · intro h
    rw [show t.attach u x = (t, []) from if_pos h]

theorem faithful (t : AttachmentTable) : t.Faithful where
  seats u x v := by
    rw [attachment_attach]
    cases t.attachment v with
    | none => simp
    | some y => simp [Option.filter_some]
  lead := t.lead_edit
  apart e done rest h := (h ▸ t.lead_edit e).apart_makeAll t.apart_attachment
  attach_nil := t.attach_eq_nil
  detach u c := by
    unfold AttachmentTable.detach
    rw [Option.map_eq_some_iff]
    exact exists_congr fun x => and_congr_right' eq_comm
  detachTarget := t.detachTarget_eq_some
  detachEvent e := t.detachTarget_eq_some (.event e)

/-- After any operations on a new table, the two maps are each other's inverse and say what the
table says, and what any operation would then report can be made one by one on the map. -/
theorem two_way_after (edits : List TableEdit) :
    (TwoWay.after {} edits).Inverse ∧ (TwoWay.after {} edits).Mirrors (empty.after edits) ∧
      (∀ e, ((TwoWay.after {} edits).edit e).2 = ((empty.after edits).edit e).2) ∧
        (empty.after edits).Faithful := by
  have h := TwoWay.mirrors_empty.after edits
  exact ⟨h.inverse, h, fun e => (h.edit e).2, faithful _⟩

/-- A unit that moves onto a held target puts out who sits there, and only then moves. -/
example :
    ((empty.after [.attach ⟨1, 0⟩ .output, .attach ⟨0, 0⟩ .input]).attach ⟨0, 0⟩ .output).2 =
      [.detach ⟨1, 0⟩ .output, .move ⟨0, 0⟩ .input .output] := by
  decide

end AttachmentTable

end Patchbay

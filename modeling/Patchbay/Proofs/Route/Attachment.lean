import Mathlib.Data.List.Nodup
import Patchbay.Route.Table

/-! The attachment table as an injective partial map from units to targets. Each change of a table
is one equation on this map, and the changes it reports lead, one after the other, from the old map
to the new one. -/

namespace Patchbay

theorem find?_eq_some_iff_mem {α β : Type} [DecidableEq β] {l : List α} {f : α → β}
    (h : (l.map f).Nodup) {a : α} : l.find? (f · = f a) = some a ↔ a ∈ l := by
  constructor
  · exact List.mem_of_find?_eq_some
  · intro ha
    induction l with
    | nil => cases ha
    | cons b l ih =>
      rw [List.map_cons, List.nodup_cons] at h
      rcases List.mem_cons.mp ha with rfl | ha
      · simp
      · have hne : f b ≠ f a := fun heq => h.1 (heq ▸ List.mem_map_of_mem ha)
        rw [List.find?_cons_of_neg (by simpa using hne)]
        exact ih h.2 ha

theorem filter_ne_eq_self {α : Type} [DecidableEq α] {o : Option α} {a : α} (h : o ≠ some a) :
    o.filter (· ≠ a) = o := by
  cases o with
  | none => rfl
  | some b =>
    have hb : b ≠ a := fun hb => h (congrArg some hb)
    simp [hb]

abbrev Seating := UnitHandle → Option Target

namespace RouteChange

def unit : RouteChange → UnitHandle
  | attach u _ | move u _ _ | detach u _ => u

/-- Whether a change can be made where it stands: only onto a free target, and only from where the
unit sits. -/
def Legal (f : Seating) : RouteChange → Prop
  | attach u x => f u = none ∧ ∀ v, f v ≠ some x
  | move u x y => f u = some x ∧ ∀ v, f v ≠ some y
  | detach u x => f u = some x

def make (f : Seating) : RouteChange → Seating
  | attach u x | move u _ x => Function.update f u (some x)
  | detach u _ => Function.update f u none

/-- Changes that can be made one after the other and come to a given map. -/
def Lead (f : Seating) : List RouteChange → Seating → Prop
  | [], g => g = f
  | c :: cs, g => c.Legal f ∧ Lead (c.make f) cs g

theorem Lead.append {f g h : Seating} {cs ds : List RouteChange} (hc : Lead f cs g)
    (hd : Lead g ds h) : Lead f (cs ++ ds) h := by
  induction cs generalizing f with
  | nil => exact hc ▸ hd
  | cons c cs ih => exact ⟨hc.1, ih hc.2⟩

theorem make_of_ne (f : Seating) {c : RouteChange} {u : UnitHandle} (h : c.unit ≠ u) :
    c.make f u = f u := by
  cases c <;> exact Function.update_of_ne (Ne.symm h) ..

theorem Lead.eq_or_mem {f g : Seating} {cs : List RouteChange} (h : Lead f cs g)
    (u : UnitHandle) : g u = f u ∨ ∃ c ∈ cs, c.unit = u := by
  induction cs generalizing f with
  | nil => exact Or.inl (congrFun h u)
  | cons c cs ih =>
    by_cases hc : c.unit = u
    · exact Or.inr ⟨c, List.mem_cons_self, hc⟩
    · rcases ih h.2 with hg | ⟨d, hd, hu⟩
      · exact Or.inl (hg.trans (make_of_ne f hc))
      · exact Or.inr ⟨d, List.mem_cons_of_mem _ hd, hu⟩

end RouteChange

namespace AttachmentTable

variable (t : AttachmentTable) (u v : UnitHandle) (x y : Target)

theorem attachment_eq_some {t : AttachmentTable} {u : UnitHandle} {x : Target} :
    t.attachment u = some x ↔ (u, x) ∈ t.pairs := by
  have hfind := find?_eq_some_iff_mem t.nodup_units (a := (u, x))
  unfold attachment
  rw [← hfind, Option.map_eq_some_iff]
  constructor
  · rintro ⟨p, hp, rfl⟩
    have hu : p.1 = u := by simpa using List.find?_some hp
    rw [hp, ← hu]
  · intro h
    exact ⟨_, h, rfl⟩

theorem unitAt_eq_some {t : AttachmentTable} {u : UnitHandle} {x : Target} :
    t.unitAt x = some u ↔ t.attachment u = some x := by
  have hfind := find?_eq_some_iff_mem t.nodup_targets (a := (u, x))
  rw [attachment_eq_some]
  unfold unitAt
  rw [← hfind, Option.map_eq_some_iff]
  constructor
  · rintro ⟨p, hp, rfl⟩
    have hx : p.2 = x := by simpa using List.find?_some hp
    rw [hp, ← hx]
  · intro h
    exact ⟨_, h, rfl⟩

theorem attachment_injective {t : AttachmentTable} {u v : UnitHandle} {x : Target}
    (hu : t.attachment u = some x) (hv : t.attachment v = some x) : u = v := by
  rw [← unitAt_eq_some] at hu hv
  exact Option.some.inj (hu.symm.trans hv)

theorem attachment_filter (keep : UnitHandle × Target → Bool) :
    (t.filter keep).attachment v = (t.attachment v).filter fun x => keep (v, x) := by
  apply Option.ext
  intro x
  rw [Option.filter_eq_some_iff, attachment_eq_some, attachment_eq_some]
  exact List.mem_filter

theorem attachment_place :
    (t.place u x).attachment v = if v = u then some x else (t.attachment v).filter (· ≠ x) := by
  apply Option.ext
  intro y
  rw [attachment_eq_some]
  unfold place
  rw [List.mem_append, ← attachment_eq_some, attachment_filter, List.mem_singleton]
  by_cases hv : v = u
  · simp [hv, eq_comm]
  · simp [hv]

theorem attachment_detach :
    (t.detach u).1.attachment = Function.update t.attachment u none := by
  funext v
  rw [Function.update_apply, detach, attachment_filter]
  by_cases hv : v = u
  · simp [hv]
  · cases t.attachment v <;> simp [hv]

theorem attachment_detachTarget :
    (t.detachTarget x).1.attachment v = (t.attachment v).filter (· ≠ x) := by
  rw [detachTarget, attachment_filter]

theorem attachment_detachTarget_eq {t : AttachmentTable} {x : Target} {u : UnitHandle}
    (h : t.unitAt x = some u) :
    (t.detachTarget x).1.attachment = Function.update t.attachment u none := by
  rw [unitAt_eq_some] at h
  funext v
  rw [attachment_detachTarget, Function.update_apply]
  split
  · rename_i hv
    simp [hv, h]
  · rename_i hv
    exact filter_ne_eq_self fun hx => hv (attachment_injective hx h)

theorem attachment_detachTarget_of_none {t : AttachmentTable} {x : Target}
    (h : t.unitAt x = none) : (t.detachTarget x).1.attachment = t.attachment := by
  funext v
  rw [attachment_detachTarget]
  apply filter_ne_eq_self
  intro hx
  rw [unitAt_eq_some.mpr hx] at h
  cases h

/-! What the reported changes come to. -/

theorem lead_detach : RouteChange.Lead t.attachment (t.detach u).2.toList
    (t.detach u).1.attachment := by
  rw [attachment_detach]
  unfold detach
  cases h : t.attachment u with
  | none => exact Function.update_eq_self_iff.mpr h.symm
  | some x => exact ⟨h, rfl⟩

theorem lead_detachTarget : RouteChange.Lead t.attachment (t.detachTarget x).2.toList
    (t.detachTarget x).1.attachment := by
  cases h : t.unitAt x with
  | none =>
    rw [attachment_detachTarget_of_none h]
    simp [detachTarget, h, RouteChange.Lead]
  | some u =>
    rw [attachment_detachTarget_eq h]
    simp only [detachTarget, h]
    exact ⟨unitAt_eq_some.mp h, rfl⟩

theorem attachment_attach :
    (t.attach u x).1.attachment v = if v = u then some x else (t.attachment v).filter (· ≠ x) := by
  unfold attach
  dsimp only
  split
  · rename_i hu
    by_cases hv : v = u
    · rw [if_pos hv, hv, hu]
    · rw [if_neg hv, filter_ne_eq_self fun hx => hv (attachment_injective hx hu)]
  · exact t.attachment_place u v x

theorem attachment_attach_eq :
    (t.attach u x).1.attachment = Function.update (t.detachTarget x).1.attachment u (some x) := by
  funext v
  rw [attachment_attach, Function.update_apply, attachment_detachTarget]

theorem changes_attach {t : AttachmentTable} {u : UnitHandle} {x : Target}
    (h : t.attachment u ≠ some x) : (t.attach u x).2 = (t.detachTarget x).2.toList ++
      [(t.attachment u).elim (.attach u x) (.move u · x)] := by
  unfold attach detachTarget
  rw [if_neg h]
  cases t.unitAt x <;> cases t.attachment u <;> rfl

theorem lead_attach : RouteChange.Lead t.attachment (t.attach u x).2
    (t.attach u x).1.attachment := by
  by_cases hu : t.attachment u = some x
  · have ht : t.attach u x = (t, []) := if_pos hu
    rw [ht]
    rfl
  · -- after the occupant is put out, the target is free and the unit sits where it sat
    have hfree (v : UnitHandle) : (t.detachTarget x).1.attachment v ≠ some x := by
      rw [attachment_detachTarget]
      simp [Option.filter_eq_some_iff]
    have hself : (t.detachTarget x).1.attachment u = t.attachment u := by
      rw [attachment_detachTarget, filter_ne_eq_self hu]
    have hlast : RouteChange.Lead (t.detachTarget x).1.attachment
        [(t.attachment u).elim (.attach u x) (.move u · x)] (t.attach u x).1.attachment := by
      rw [attachment_attach_eq]
      cases h : t.attachment u with
      | none => exact ⟨⟨hself.trans h, hfree⟩, rfl⟩
      | some y => exact ⟨⟨hself.trans h, hfree⟩, rfl⟩
    rw [changes_attach hu]
    exact (t.lead_detachTarget x).append hlast

/-! Which changes there are, and how many. -/

theorem attachment_of_mem_detachTarget {t : AttachmentTable} {x : Target} {c : RouteChange}
    (h : c ∈ (t.detachTarget x).2) : t.attachment c.unit = some x := by
  obtain ⟨u, hu, rfl⟩ := Option.map_eq_some_iff.mp h
  exact unitAt_eq_some.mp hu

theorem attachment_of_mem_detach {t : AttachmentTable} {u : UnitHandle} {c : RouteChange}
    (h : c ∈ (t.detach u).2) : c.unit = u := by
  obtain ⟨x, -, rfl⟩ := Option.map_eq_some_iff.mp h
  rfl

theorem unit_of_mem_attach {t : AttachmentTable} {u : UnitHandle} {x : Target} {c : RouteChange}
    (h : c ∈ (t.attach u x).2) : c.unit = u ∨ (t.attachment c.unit).isSome := by
  unfold attach at h
  dsimp only at h
  split at h
  · cases h
  · rcases List.mem_append.mp h with h | h
    · obtain ⟨v, hv, rfl⟩ := List.mem_map.mp h
      rw [Option.mem_toList] at hv
      exact Or.inr (Option.isSome_of_mem (unitAt_eq_some.mp hv))
    · rw [List.mem_singleton] at h
      subst h
      split <;> exact Or.inl rfl

theorem length_attach_le : (t.attach u x).2.length ≤ 2 := by
  unfold attach
  dsimp only
  split
  · exact Nat.zero_le 2
  · cases t.unitAt x <;> simp

end AttachmentTable

end Patchbay

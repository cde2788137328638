import Mathlib.Data.List.Nodup
import Mathlib.Data.List.Perm.Subperm
import Patchbay.Unit.Store

/-! The store of units as a partial map from handles to entries. Every change of a store is one
equation on this map; which slots can be taken next is the other thing a store knows. The contents
of units play no part in either, so both can be read off a store with the units blanked out. -/

namespace Patchbay

theorem map_modify {α β : Type} (f : α → α) (g : α → β) (k : β → β) (l : List α) {i : Nat}
    (h : ∀ a, l[i]? = some a → g (f a) = k (g a)) :
    (l.modify i f).map g = (l.map g).modify i k := by
  apply List.ext_getElem?
  intro j
  simp only [List.getElem?_map, List.getElem?_modify, Option.map_eq_map]
  by_cases hj : i = j
  · subst hj
    cases hi : l[i]? with
    | none => simp
    | some a => simp [h a hi]
  · cases l[j]? <;> simp [hj]

theorem map_modify_of_eq {α β : Type} (f : α → α) (g : α → β) (h : ∀ a, g (f a) = g a) (l : List α)
    (i : Nat) : (l.modify i f).map g = l.map g :=
  (map_modify f g id l fun a _ => h a).trans (List.modify_id ..)

end Patchbay

namespace Patchbay.UnitStore

variable {U : Type}

theorem slot?_eq_some {s : UnitStore U} {u : UnitHandle} {slot : UnitSlot U} :
    s.slot? u = some slot ↔ s.slots[u.index]? = some slot ∧ slot.generation = u.generation := by
  simp [slot?, Option.filter_eq_some_iff]

def entryOf (slot : Option (UnitSlot U)) (generation : UInt32) : Option (UnitEntry U) :=
  slot.bind fun slot => if slot.generation = generation then slot.entry else none

theorem get?_eq_entryOf (s : UnitStore U) (u : UnitHandle) :
    s.get? u = entryOf s.slots[u.index]? u.generation := by
  unfold get? slot? entryOf
  cases s.slots[u.index]? with
  | none => rfl
  | some slot => by_cases h : slot.generation = u.generation <;> simp [Option.filter, h]

theorem get?_eq_some {s : UnitStore U} {u : UnitHandle} {entry : UnitEntry U} :
    s.get? u = some entry ↔ s.slots[u.index]? = some ⟨u.generation, some entry⟩ := by
  unfold get?
  constructor
  · intro h
    obtain ⟨slot, hslot, hentry⟩ := Option.bind_eq_some_iff.mp h
    obtain ⟨hget, hgeneration⟩ := slot?_eq_some.mp hslot
    rw [hget, ← hentry, ← hgeneration]
  · intro h
    rw [slot?_eq_some.mpr ⟨h, rfl⟩]
    rfl

theorem live?_eq_some {s : UnitStore U} {u : UnitHandle} {entry : UnitEntry U} :
    s.live? u = some entry ↔ s.get? u = some entry ∧ entry.releasing = false := by
  simp [live?, Option.filter_eq_some_iff]

theorem eq_of_index_eq {s : UnitStore U} {u v : UnitHandle} (hu : (s.get? u).isSome)
    (hv : (s.get? v).isSome) (h : u.index = v.index) : u = v := by
  obtain ⟨a, ha⟩ := Option.isSome_iff_exists.mp hu
  obtain ⟨b, hb⟩ := Option.isSome_iff_exists.mp hv
  rw [get?_eq_some] at ha hb
  rw [h, hb] at ha
  cases u
  cases v
  simp_all

theorem mem_entries {s : UnitStore U} {u : UnitHandle} {entry : UnitEntry U} :
    (u, entry) ∈ s.entries ↔ s.get? u = some entry := by
  rw [get?_eq_some]
  simp only [entries, List.mem_filterMap, Prod.exists, List.mem_zipIdx_iff_getElem?,
    Option.map_eq_some_iff, Prod.mk.injEq]
  constructor
  · rintro ⟨slot, i, hget, _, hentry, rfl, rfl⟩
    rw [hget, ← hentry]
  · intro h
    exact ⟨_, _, h, entry, rfl, rfl, rfl⟩

theorem entries_nodup (s : UnitStore U) : (s.entries.map Prod.fst).Nodup := by
  have hindex : s.slots.zipIdx.Pairwise fun a b => a.2 ≠ b.2 := by
    have h : (List.range' 0 s.slots.length 1).Nodup := List.nodup_range'
    rw [← List.zipIdx_map_snd, List.Nodup, List.pairwise_map] at h
    exact h
  unfold entries
  rw [List.Nodup, List.pairwise_map, List.pairwise_filterMap]
  apply hindex.imp
  rintro ⟨slot, i⟩ ⟨slot', j⟩ hne p hp q hq
  obtain ⟨_, -, rfl⟩ := Option.map_eq_some_iff.mp hp
  obtain ⟨_, -, rfl⟩ := Option.map_eq_some_iff.mp hq
  simpa using fun h _ => hne h

theorem length_entries_le (s : UnitStore U) : s.entries.length ≤ s.slots.length := by
  unfold entries
  rw [← List.length_zipIdx (l := s.slots) (i := 0)]
  exact List.length_filterMap_le ..

/-- Emptied slots are listed once each, and no other slot is listed. -/
structure WellFormed (s : UnitStore U) : Prop where
  free_nodup : s.free.Nodup
  mem_free : ∀ i, i ∈ s.free ↔ ∃ generation, s.slots[i]? = some ⟨generation, none⟩
  length_le : s.slots.length ≤ s.capacity

theorem WellFormed.length_le_of_nodup {s : UnitStore U} (h : s.WellFormed) {us : List UnitHandle}
    (hnodup : us.Nodup) (hus : ∀ u ∈ us, (s.get? u).isSome) : us.length ≤ s.capacity := by
  have hsub : us ⊆ s.entries.map Prod.fst := by
    intro u hu
    obtain ⟨entry, hentry⟩ := Option.isSome_iff_exists.mp (hus u hu)
    exact List.mem_map_of_mem (mem_entries.mpr hentry)
  calc us.length
      ≤ (s.entries.map Prod.fst).length := (List.subperm_of_subset hnodup hsub).length_le
    _ = s.entries.length := List.length_map ..
    _ ≤ s.slots.length := s.length_entries_le
    _ ≤ s.capacity := h.length_le

theorem wellFormed_empty (capacity : Nat) : WellFormed ({ capacity } : UnitStore U) where
  free_nodup := List.nodup_nil
  mem_free := by simp
  length_le := Nat.zero_le _

/-! Changing entries where they are. -/

theorem get?_modifyAt (s : UnitStore U) (i : Nat) (v : UnitHandle)
    (f : UnitEntry U → UnitEntry U) :
    (s.modifyAt i f).get? v = if v.index = i then (s.get? v).map f else s.get? v := by
  rw [get?_eq_entryOf, get?_eq_entryOf, modifyAt, List.getElem?_modify]
  split
  · rename_i h
    rw [if_pos h.symm]
    cases s.slots[v.index]? with
    | none => rfl
    | some slot => by_cases hg : slot.generation = v.generation <;> simp [entryOf, hg]
  · rename_i h
    rw [if_neg (Ne.symm h), id_map']

theorem get?_modify (s : UnitStore U) (u v : UnitHandle) (f : UnitEntry U → UnitEntry U) :
    (s.modify u f).get? v = if v = u then (s.get? v).map f else s.get? v := by
  unfold modify
  split
  · rename_i hslot
    obtain ⟨slot, hslot⟩ := Option.isSome_iff_exists.mp hslot
    obtain ⟨hget, hgeneration⟩ := slot?_eq_some.mp hslot
    rw [get?_modifyAt]
    by_cases hindex : v.index = u.index
    · rw [if_pos hindex]
      by_cases huv : v = u
      · rw [if_pos huv]
      · -- a handle of another generation of the same slot has no entry
        have hnone : s.get? v = none := by
          rw [Option.eq_none_iff_forall_ne_some]
          intro entry hentry
          rw [get?_eq_some, hindex, hget] at hentry
          have hv : slot.generation = v.generation := congrArg UnitSlot.generation
            (Option.some.inj hentry)
          exact huv (by cases u; cases v; simp_all)
        rw [if_neg huv, hnone, Option.map_none]
    · rw [if_neg hindex, if_neg (fun h => hindex (congrArg _ h))]
  · rename_i hslot
    have hnone : s.get? u = none := by
      rw [Bool.not_eq_true, Option.isSome_eq_false_iff, Option.isNone_iff_eq_none] at hslot
      simp [get?, hslot]
    split
    · rename_i h
      rw [h, hnone, Option.map_none]
    · rfl

theorem isSome_live?_setReleasing (s : UnitStore U) (u v : UnitHandle) :
    ((s.setReleasing u).live? v).isSome = if v = u then false else (s.live? v).isSome := by
  unfold live? setReleasing
  rw [get?_modify]
  split
  · cases s.get? v <;> simp [Option.filter]
  · rfl

theorem setUnit_eq {s : UnitStore U} {u : UnitHandle} (h : (s.get? u).isSome) (unit : U) :
    s.setUnit u unit = s.modifyAt u.index ({ · with unit }) := by
  obtain ⟨entry, hentry⟩ := Option.isSome_iff_exists.mp h
  unfold setUnit modify
  rw [slot?_eq_some.mpr ⟨get?_eq_some.mp hentry, rfl⟩]
  rfl

theorem setUnit_eq_self {s : UnitStore U} {u : UnitHandle} {entry : UnitEntry U}
    (h : s.get? u = some entry) : s.setUnit u entry.unit = s := by
  rw [setUnit_eq (Option.isSome_of_mem h), modifyAt]
  congr 1
  apply List.ext_getElem?
  intro i
  rw [List.getElem?_modify]
  split
  · rename_i hi
    rw [← hi, get?_eq_some.mp h]
    rfl
  · rw [id_map']

theorem WellFormed.modifyAt {s : UnitStore U} (h : s.WellFormed) (i : Nat)
    (f : UnitEntry U → UnitEntry U) : (s.modifyAt i f).WellFormed where
  free_nodup := h.free_nodup
  mem_free j := by
    unfold UnitStore.modifyAt
    rw [h.mem_free, List.getElem?_modify]
    cases s.slots[j]? with
    | none => simp
    | some slot =>
      obtain ⟨generation, entry⟩ := slot
      by_cases hij : i = j <;> cases entry <;> simp [hij]
  length_le := by
    simpa [UnitStore.modifyAt] using h.length_le

theorem WellFormed.modify {s : UnitStore U} (h : s.WellFormed) (u : UnitHandle)
    (f : UnitEntry U → UnitEntry U) : (s.modify u f).WellFormed := by
  unfold UnitStore.modify
  split
  · exact h.modifyAt u.index f
  · exact h

/-! Taking units in. -/

theorem allot?_eq_some {s t : UnitStore U} (h : s.WellFormed) {i : Nat}
    (hs : s.allot? = some (i, t)) :
    (∃ generation, t.slots[i]? = some ⟨generation, none⟩) ∧ t.capacity = s.capacity ∧
      t.slots.length ≤ t.capacity ∧ t.free.Nodup ∧
      (∀ j, j ∈ t.free ↔ j ≠ i ∧ ∃ generation, t.slots[j]? = some ⟨generation, none⟩) ∧
      ∀ v, t.get? v = s.get? v := by
  have hnodup := h.free_nodup
  have hfree := h.mem_free
  have hlength := h.length_le
  unfold allot? at hs
  cases hlist : s.free with
  | cons j rest =>
    simp only [hlist, Option.some.injEq, Prod.mk.injEq] at hs
    obtain ⟨rfl, rfl⟩ := hs
    rw [hlist, List.nodup_cons] at hnodup
    rw [hlist] at hfree
    refine ⟨(hfree j).mp List.mem_cons_self, rfl, hlength, hnodup.2, ?_, fun _ => rfl⟩
    intro k
    rw [← hfree k, List.mem_cons]
    constructor
    · intro hk
      exact ⟨fun hkj => hnodup.1 (hkj ▸ hk), Or.inr hk⟩
    · rintro ⟨hne, rfl | hk⟩
      · exact absurd rfl hne
      · exact hk
  | nil =>
    simp only [hlist] at hs
    split at hs
    · rename_i hroom
      simp only [Option.some.injEq, Prod.mk.injEq] at hs
      obtain ⟨rfl, rfl⟩ := hs
      rw [hlist] at hfree
      refine ⟨⟨0, by simp⟩, rfl, by simp; omega, List.nodup_nil, ?_, ?_⟩
      · intro k
        simp only [List.not_mem_nil, false_iff, not_and]
        rintro hk ⟨generation, hget⟩
        rw [List.getElem?_append] at hget
        split at hget
        · exact List.not_mem_nil ((hfree k).mpr ⟨generation, hget⟩)
        · rw [List.getElem?_eq_none (by simp; omega)] at hget
          cases hget
      · intro v
        rw [get?_eq_entryOf, get?_eq_entryOf, List.getElem?_append]
        split
        · rfl
        · rename_i hv
          rw [List.getElem?_eq_none (Nat.le_of_not_lt hv)]
          cases hempty : [({} : UnitSlot U)][v.index - s.slots.length]? with
          | none => rfl
          | some slot =>
            rw [List.mem_singleton.mp (List.mem_of_getElem? hempty)]
            simp [entryOf]
    · cases hs

theorem insert?_eq_some {s t : UnitStore U} (h : s.WellFormed) {name : String} {unit : U}
    {u : UnitHandle} (hs : s.insert? name unit = some (u, t)) :
    t.WellFormed ∧ t.capacity = s.capacity ∧ (∀ v, (s.get? v).isSome → v.index ≠ u.index) ∧
      ∀ v, t.get? v = if v = u then some { name, unit } else s.get? v := by
  unfold insert? at hs
  obtain ⟨⟨i, r⟩, hallot, hs⟩ := Option.bind_eq_some_iff.mp hs
  obtain ⟨w, hhandle, hs⟩ := Option.bind_eq_some_iff.mp hs
  obtain ⟨⟨generation, hslot⟩, hcapacity, hlength, hnodup, hfree, hentry⟩ :=
    allot?_eq_some h hallot
  simp only [handleAt?, hslot, Option.map_some, Option.some.injEq] at hhandle
  simp only [Option.some.injEq, Prod.mk.injEq] at hs
  obtain ⟨rfl, rfl⟩ := hs
  subst hhandle
  have hempty : ∀ v, (s.get? v).isSome → v.index ≠ i := by
    rintro v hv rfl
    rw [← hentry, get?_eq_entryOf, hslot] at hv
    simp [entryOf] at hv
  refine ⟨⟨hnodup, ?_, by simpa using hlength⟩, hcapacity, hempty, ?_⟩
  · intro j
    rw [hfree, List.getElem?_modify]
    by_cases hij : i = j
    · subst hij
      simp [hslot]
    · simp [hij, Ne.symm hij]
  · intro v
    rw [get?_eq_entryOf, List.getElem?_modify]
    by_cases hv : v.index = i
    · by_cases hu : v = ⟨i, generation⟩
      · subst hu
        simp [hslot, entryOf]
      · have hgeneration : generation ≠ v.generation := fun hg => hu (by cases v; simp_all)
        have hnone : s.get? v = none := by
          rw [← Option.not_isSome_iff_eq_none]
          exact fun hsome => hempty v hsome hv
        simp [entryOf, hv, hslot, hgeneration, hnone, hu]
    · simp only [if_neg (Ne.symm hv), id_map']
      rw [← get?_eq_entryOf, hentry, if_neg fun hu => hv (congrArg _ hu)]

/-! Emptying slots. -/

theorem retire_eq {s : UnitStore U} {u : UnitHandle} (h : (s.get? u).isSome) :
    s.retire u = { s with
      slots := s.slots.set u.index { generation := u.generation + 1 }
      free := u.index :: s.free } := by
  obtain ⟨entry, hentry⟩ := Option.isSome_iff_exists.mp h
  unfold retire
  rw [slot?_eq_some.mpr ⟨get?_eq_some.mp hentry, rfl⟩]

theorem get?_retire {s : UnitStore U} {u : UnitHandle} (h : (s.get? u).isSome)
    (v : UnitHandle) : (s.retire u).get? v = if v = u then none else s.get? v := by
  rw [retire_eq h, get?_eq_entryOf, List.getElem?_set]
  by_cases hindex : u.index = v.index
  · have hnone : v ≠ u → s.get? v = none := by
      intro hvu
      rw [← Option.not_isSome_iff_eq_none]
      exact fun hv => hvu (eq_of_index_eq h hv hindex).symm
    rw [if_pos hindex]
    split
    · simp only [entryOf, Option.bind_some, ite_self]
      split
      · rfl
      · rename_i hvu
        exact (hnone hvu).symm
    · simp only [entryOf, Option.bind_none]
      split
      · rfl
      · rename_i hvu
        exact (hnone hvu).symm
  · rw [if_neg hindex, ← get?_eq_entryOf, if_neg fun hvu => hindex (congrArg _ hvu.symm)]

theorem WellFormed.retire {s : UnitStore U} (h : s.WellFormed) {u : UnitHandle}
    (hu : (s.get? u).isSome) : (s.retire u).WellFormed := by
  rw [retire_eq hu]
  obtain ⟨entry, hentry⟩ := Option.isSome_iff_exists.mp hu
  rw [get?_eq_some] at hentry
  have hlt := (List.getElem?_eq_some_iff.mp hentry).1
  refine ⟨List.nodup_cons.mpr ⟨?_, h.free_nodup⟩, ?_, by simpa using h.length_le⟩
  · rw [h.mem_free]
    rintro ⟨generation, hget⟩
    rw [hentry] at hget
    cases hget
  · intro i
    rw [List.mem_cons, h.mem_free, List.getElem?_set]
    by_cases hi : u.index = i
    · simp [hi, hi ▸ hlt]
    · simp [hi, Ne.symm hi]

/-! Blanking the units out. -/

/-- A store as it looks to those who cannot see into units. -/
def outline (s : UnitStore U) : UnitStore Unit where
  capacity := s.capacity
  slots := s.slots.map fun slot =>
    ⟨slot.generation, slot.entry.map fun entry => { entry with unit := () }⟩
  free := s.free

theorem get?_outline (s : UnitStore U) (u : UnitHandle) :
    s.outline.get? u = (s.get? u).map fun entry => { entry with unit := () } := by
  rw [get?_eq_entryOf, get?_eq_entryOf, outline, List.getElem?_map]
  cases s.slots[u.index]? with
  | none => rfl
  | some slot => by_cases h : slot.generation = u.generation <;> simp [entryOf, h]

theorem isSome_get?_outline (s : UnitStore U) (u : UnitHandle) :
    (s.outline.get? u).isSome = (s.get? u).isSome := by
  rw [get?_outline, Option.isSome_map]

theorem isSome_live?_outline (s : UnitStore U) (u : UnitHandle) :
    (s.outline.live? u).isSome = (s.live? u).isSome := by
  unfold live?
  rw [get?_outline]
  cases s.get? u with
  | none => rfl
  | some entry => cases hr : entry.releasing <;> simp [Option.filter, hr]

theorem wellFormed_outline {s : UnitStore U} : s.outline.WellFormed ↔ s.WellFormed := by
  have hfree (i : Nat) : (∃ generation, s.outline.slots[i]? = some ⟨generation, none⟩) ↔
      ∃ generation, s.slots[i]? = some ⟨generation, none⟩ := by
    simp only [outline, List.getElem?_map, Option.map_eq_some_iff]
    constructor
    · rintro ⟨generation, ⟨_, entry⟩, hget, hslot⟩
      cases entry with
      | none => exact ⟨_, hget⟩
      | some entry => simp at hslot
    · rintro ⟨generation, hget⟩
      exact ⟨generation, _, hget, rfl⟩
  have hlength : s.outline.slots.length = s.slots.length := List.length_map ..
  constructor
  · rintro ⟨hnodup, hmem, hle⟩
    exact ⟨hnodup, fun i => (hmem i).trans (hfree i), hlength ▸ hle⟩
  · rintro ⟨hnodup, hmem, hle⟩
    exact ⟨hnodup, fun i => (hmem i).trans (hfree i).symm, hlength.symm ▸ hle⟩

theorem outline_modifyAt (s : UnitStore U) (i : Nat) (f : U → U) :
    (s.modifyAt i fun entry => { entry with unit := f entry.unit }).outline = s.outline := by
  unfold outline modifyAt
  congr 1
  refine map_modify_of_eq _ _ (fun slot => ?_) s.slots i
  simp [Function.comp_def]

theorem outline_setUnit (s : UnitStore U) (u : UnitHandle) (unit : U) :
    (s.setUnit u unit).outline = s.outline := by
  unfold setUnit modify
  split
  · exact s.outline_modifyAt u.index fun _ => unit
  · rfl

/-! What is done to slots is done to their outline. -/

end Patchbay.UnitStore

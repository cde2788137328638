import Patchbay.Proofs.Unit.Slots

/-! How full a store is, and how far its slots have got. Every slot holds a unit or is listed as
emptied, so a unit finds room unless the units that hold a slot are as many as there may be. The
generation of a slot moves on by one when it is emptied, and at no other time. -/

namespace Patchbay.UnitStore

variable {U : Type}

/-! Counting slots. -/

theorem liveCount_add_releasingCount (s : UnitStore U) :
    s.liveCount + s.releasingCount = s.entries.length := by
  unfold liveCount releasingCount
  rw [List.length_eq_countP_add_countP (fun p : UnitHandle × UnitEntry U => !p.2.releasing)]
  simp

/-- The generation of a slot; one that was never made is as good as new. -/
def generationAt (s : UnitStore U) (i : Nat) : UInt32 :=
  (s.slots[i]?.map (·.generation)).getD 0

@[simp] theorem generationAt_outline (s : UnitStore U) (i : Nat) :
    s.outline.generationAt i = s.generationAt i := by
  simp [generationAt, outline, Function.comp_def]

theorem generationAt_modifyAt (s : UnitStore U) (j : Nat) (f : UnitEntry U → UnitEntry U)
    (i : Nat) : (s.modifyAt j f).generationAt i = s.generationAt i := by
  unfold generationAt modifyAt
  simp only [List.getElem?_modify]
  cases s.slots[i]? with
  | none => rfl
  | some slot => by_cases hij : j = i <;> simp [hij]

@[simp] theorem generationAt_setReleasing (s : UnitStore U) (u : UnitHandle) (i : Nat) :
    (s.setReleasing u).generationAt i = s.generationAt i := by
  unfold setReleasing modify
  split
  · exact s.generationAt_modifyAt ..
  · rfl

theorem generationAt_allot? {s t : UnitStore U} {i : Nat} (h : s.allot? = some (i, t)) (j : Nat) :
    t.generationAt j = s.generationAt j := by
  unfold allot? at h
  split at h
  · cases h
    rfl
  · split at h
    · cases h
      unfold generationAt
      rw [List.getElem?_append]
      split
      · rfl
      · rename_i hj
        rw [List.getElem?_eq_none (Nat.le_of_not_lt hj)]
        cases hnew : [({} : UnitSlot U)][j - s.slots.length]? with
        | none => rfl
        | some slot => rw [List.mem_singleton.mp (List.mem_of_getElem? hnew)]; rfl
    · cases h

theorem generationAt_insert? {s t : UnitStore U} {name : String} {unit : U} {u : UnitHandle}
    (h : s.insert? name unit = some (u, t)) :
    u.generation = s.generationAt u.index ∧ ∀ i, t.generationAt i = s.generationAt i := by
  unfold insert? at h
  obtain ⟨⟨i, r⟩, hallot, h⟩ := Option.bind_eq_some_iff.mp h
  obtain ⟨w, hhandle, h⟩ := Option.bind_eq_some_iff.mp h
  obtain ⟨slot, hslot, rfl⟩ := Option.map_eq_some_iff.mp hhandle
  obtain ⟨rfl, rfl⟩ := Prod.mk.inj (Option.some.inj h)
  have hsame := generationAt_allot? hallot
  refine ⟨?_, fun j => ?_⟩
  · rw [← hsame]
    simp [generationAt, hslot]
  · rw [← hsame]
    unfold generationAt
    simp only [List.getElem?_modify]
    cases r.slots[j]? with
    | none => rfl
    | some slot => by_cases hij : i = j <;> simp [hij]

theorem generationAt_retire {s : UnitStore U} {u : UnitHandle} (h : (s.get? u).isSome) (i : Nat) :
    (s.retire u).generationAt i = s.generationAt i + if u.index = i then 1 else 0 := by
  obtain ⟨entry, hentry⟩ := Option.isSome_iff_exists.mp h
  rw [get?_eq_some] at hentry
  have hlt := (List.getElem?_eq_some_iff.mp hentry).1
  unfold generationAt
  rw [retire_eq h, List.getElem?_set]
  by_cases hi : u.index = i
  · subst hi
    rw [hentry]
    simp [hlt]
  · simp [hi]

end Patchbay.UnitStore

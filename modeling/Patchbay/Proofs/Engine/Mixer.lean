import Mathlib.Data.List.Perm.Basic
import Patchbay.Engine.Mixer
import Patchbay.Proofs.Route.Replay

/-! The mixer's side of the exchange. Audio halves are never lost or made twice, whatever the
commands say. While commands fit what the mixer knows and no half is around twice, each of them
finds the room and the units it needs, and the mixer's routing is what the commands come to. -/

namespace Patchbay

theorem swapErase_perm {α : Type} (p : α → Bool) (l : List α) :
    (swapErase p l).Perm (l.eraseP p) := by
  rw [List.eraseP_eq_eraseIdx]
  unfold swapErase
  cases hi : l.findIdx? p with
  | none => exact List.Perm.refl l
  | some i =>
    obtain ⟨hlt, -⟩ := List.findIdx?_eq_some_iff_getElem.mp hi
    obtain ⟨front, last, rfl⟩ : ∃ front last, l = front ++ [last] :=
      ⟨_, _, (List.dropLast_append_getLast (List.ne_nil_of_length_pos (by omega))).symm⟩
    simp only [List.getLast?_concat]
    by_cases hfront : i < front.length
    · rw [List.set_append_left _ _ hfront, List.dropLast_concat,
        List.eraseIdx_append_of_lt_length hfront]
      exact (List.set_perm_cons_eraseIdx hfront last).trans
        (List.perm_append_singleton last _).symm
    · have hlast : i = front.length := by
        simp at hlt
        omega
      subst hlast
      rw [List.eraseIdx_append_of_length_le (Nat.le_refl _)]
      simp

namespace Queue

variable {α : Type}

theorem push?_eq_some {q r : Queue α} {a : α} (h : q.push? a = some r) :
    r.items = q.items ++ [a] ∧ r.capacity = q.capacity := by
  unfold push? at h
  split at h
  · cases h
    exact ⟨rfl, rfl⟩
  · cases h

theorem pop?_eq_some {q r : Queue α} {a : α} (h : q.pop? = some (a, r)) :
    q.items = [a] ++ r.items ∧ r.lost = q.lost := by
  unfold pop? at h
  split at h
  · cases h
  · rename_i hitems
    cases h
    exact ⟨hitems, rfl⟩

theorem capacity_pop? {q r : Queue α} {a : α} (h : q.pop? = some (a, r)) :
    r.capacity = q.capacity := by
  unfold pop? at h
  split at h <;> cases h
  rfl

theorem isSome_push? {q : Queue α} {a : α} (h : q.items.length < q.capacity) :
    (q.push? a).isSome := by
  simp [push?, h]

end Queue

namespace Mixer

variable (m : Mixer) (retired : Queue UnitHandle) (u : UnitHandle)

def owned : List UnitHandle := m.units.map (·.unit)

def routing : Routing := fun u => (m.units.find? (·.unit = u)).map (·.target)

/-- All audio halves: to be handed over by commands, in the mixer, kept for later, handed back. -/
def halves (cs : List Command) (m : Mixer) (retired : Queue UnitHandle) : List UnitHandle :=
  cs.filterMap Command.adopted? ++ (m.owned ++ (m.overflow ++ retired.items))

theorem routing_eq_some {m : Mixer} (h : m.owned.Nodup) {u : UnitHandle} {x : Option Target} :
    m.routing u = some x ↔ ⟨u, x⟩ ∈ m.units := by
  have hfind := find?_eq_some_iff_mem h (a := ⟨u, x⟩)
  unfold routing
  rw [← hfind, Option.map_eq_some_iff]
  constructor
  · rintro ⟨y, hy, rfl⟩
    have hu : y.unit = u := by simpa using List.find?_some hy
    rw [hy, ← hu]
  · intro hy
    exact ⟨_, hy, rfl⟩

theorem isSome_routing : (m.routing u).isSome ↔ u ∈ m.owned := by
  unfold routing owned
  rw [Option.isSome_map, List.find?_isSome, List.mem_map]
  simp

theorem targetOf_eq : m.targetOf u = (m.routing u).getD none := by
  unfold targetOf routing
  cases m.units.find? (·.unit = u) <;> rfl

theorem targetOf_eq_some {m : Mixer} (h : m.owned.Nodup) {u : UnitHandle} {x : Target} :
    m.targetOf u = some x ↔ ⟨u, some x⟩ ∈ m.units := by
  rw [← routing_eq_some h, targetOf_eq]
  cases m.routing u <;> simp

theorem mem_units_of_unitOn {m : Mixer} {u : UnitHandle} {x : Target}
    (h : m.unitOn x = some u) : ⟨u, some x⟩ ∈ m.units := by
  obtain ⟨y, hy, rfl⟩ := Option.map_eq_some_iff.mp h
  have hx : y.target = some x := by simpa using List.find?_some hy
  rw [← hx]
  exact List.mem_of_find?_eq_some hy

/-! Conservation. -/

theorem retire_perm :
    ((m.retire retired u).1.overflow ++ (m.retire retired u).2.items).Perm
      (u :: (m.overflow ++ retired.items)) := by
  unfold retire
  cases h : retired.push? u with
  | some r =>
    rw [(Queue.push?_eq_some h).1, ← List.append_assoc]
    exact List.perm_append_singleton u _
  | none => exact List.Perm.refl _

theorem units_retire : (m.retire retired u).1.units = m.units := by
  unfold retire
  split <;> rfl

theorem exists_apply (c : Command) :
    ∃ units overflow, (m.apply retired c).1 = { m with units, overflow } := by
  have hretire (n : Mixer) (u : UnitHandle) :
      ∃ overflow, (n.retire retired u).1 = { n with overflow } := by
    unfold retire
    split
    · exact ⟨n.overflow, rfl⟩
    · exact ⟨u :: n.overflow, rfl⟩
  cases c with
  | adopt u =>
    simp only [apply]
    split
    · exact ⟨_, _, rfl⟩
    · obtain ⟨overflow, heq⟩ := hretire m u
      exact ⟨m.units, overflow, heq⟩
  | attach u x | move u x => exact ⟨_, _, rfl⟩
  | detach u => exact ⟨_, _, rfl⟩
  | release u =>
    simp only [apply]
    split
    · obtain ⟨overflow, heq⟩ := hretire { m with units := swapErase (·.unit = u) m.units } u
      exact ⟨_, overflow, heq⟩
    · exact ⟨m.units, m.overflow, rfl⟩

theorem exists_applyAll (cs : List Command) :
    ∃ units overflow, (m.applyAll retired cs).1 = { m with units, overflow } := by
  induction cs generalizing m retired with
  | nil => exact ⟨m.units, m.overflow, rfl⟩
  | cons c cs ih =>
    obtain ⟨units, overflow, heq⟩ := m.exists_apply retired c
    obtain ⟨units', overflow', heq'⟩ := ih (m.apply retired c).1 (m.apply retired c).2
    refine ⟨units', overflow', ?_⟩
    rw [applyAll, heq', heq]

theorem exists_drain (link : Link) :
    ∃ units overflow, (m.drain link).1 = { m with units, overflow } := by
  obtain ⟨units, overflow, heq⟩ := exists_applyAll
    { m with overflow := (flush m.overflow link.retired).1 } (flush m.overflow link.retired).2
    link.commands.items
  exact ⟨units, overflow, heq⟩

theorem capacity_apply (c : Command) : (m.apply retired c).1.capacity = m.capacity := by
  obtain ⟨units, overflow, heq⟩ := m.exists_apply retired c
  rw [heq]

theorem capacity_applyAll (cs : List Command) :
    (m.applyAll retired cs).1.capacity = m.capacity := by
  obtain ⟨units, overflow, heq⟩ := m.exists_applyAll retired cs
  rw [heq]

@[simp] theorem unit_retarget (x : MixerUnit) (y : Option Target) :
    (x.retarget u y).unit = x.unit := by
  unfold MixerUnit.retarget
  split <;> rfl

@[simp] theorem unit_vacate (x : MixerUnit) (y : Target) : (x.vacate y u).unit = x.unit := by
  unfold MixerUnit.vacate
  split <;> rfl

theorem owned_map (f : MixerUnit → MixerUnit) (h : ∀ x, (f x).unit = x.unit) :
    (m.units.map f).map (·.unit) = m.owned := by
  unfold owned
  rw [List.map_map]
  exact List.map_congr_left fun x _ => h x

theorem owned_swapErase {m : Mixer} {u : UnitHandle} (h : u ∈ m.owned) :
    (u :: (swapErase (·.unit = u) m.units).map (·.unit)).Perm m.owned := by
  obtain ⟨x, hx, hxu⟩ := List.mem_map.mp h
  obtain ⟨y, front, back, -, hy, hunits, herase⟩ :=
    List.exists_of_eraseP (p := fun x => decide (x.unit = u)) hx (decide_eq_true hxu)
  have hperm := ((swapErase_perm (fun x => decide (x.unit = u)) m.units).map (·.unit)).cons u
  rw [herase] at hperm
  apply hperm.trans
  rw [owned, hunits, List.map_append, List.map_append, List.map_cons, of_decide_eq_true hy]
  exact List.perm_middle.symm

theorem halves_apply (c : Command) (cs : List Command) :
    (halves cs (m.apply retired c).1 (m.apply retired c).2).Perm
      (halves (c :: cs) m retired) := by
  unfold halves
  cases c with
  | adopt u =>
    simp only [apply, List.filterMap_cons, Command.adopted?, List.cons_append]
    split
    · refine List.Perm.trans (List.Perm.append_left _ ?_) List.perm_middle
      simp only [owned, List.map_append, List.map_cons, List.map_nil, List.append_assoc]
      exact List.perm_middle
    · refine List.Perm.trans (List.Perm.append_left _ ?_) List.perm_middle
      rw [owned, units_retire]
      exact ((m.retire_perm retired u).append_left _).trans List.perm_middle
  | attach u x | move u x =>
    simp only [apply, List.filterMap_cons, Command.adopted?]
    rw [owned, owned_map _ _ (by simp)]
  | detach u =>
    simp only [apply, List.filterMap_cons, Command.adopted?]
    rw [owned, owned_map _ _ (by simp)]
  | release u =>
    simp only [apply, List.filterMap_cons, Command.adopted?]
    apply List.Perm.append_left _
    split
    · rename_i hany
      have hu : u ∈ m.owned := by simpa [owned] using hany
      rw [owned, units_retire]
      refine ((retire_perm _ _ _).append_left _).trans (List.perm_middle.trans ?_)
      exact (owned_swapErase hu).append_right _
    · exact List.Perm.refl _

theorem halves_applyAll (bs cs : List Command) :
    (halves cs (m.applyAll retired bs).1 (m.applyAll retired bs).2).Perm
      (halves (bs ++ cs) m retired) := by
  induction bs generalizing m retired with
  | nil => exact List.Perm.refl _
  | cons b bs ih => exact (ih _ _).trans (halves_apply m retired b (bs ++ cs))

/-! The mixer's routing under commands that fit it. -/

theorem routing_congr {m n : Mixer} (h : n.units = m.units) : n.routing = m.routing := by
  unfold routing
  rw [h]

theorem routing_map {m n : Mixer} {f : MixerUnit → MixerUnit}
    {g : UnitHandle → Option Target → Option Target} (h : n.units = m.units.map f)
    (hunit : ∀ x, (f x).unit = x.unit) (htarget : ∀ x, (f x).target = g x.unit x.target) :
    n.routing = fun v => (m.routing v).map (g v) := by
  funext v
  unfold routing
  rw [h, List.find?_map]
  simp only [Function.comp_def, hunit, Option.map_map]
  cases hfind : m.units.find? (·.unit = v) with
  | none => rfl
  | some x =>
    have hx : x.unit = v := by simpa using List.find?_some hfind
    simp [htarget, hx]

theorem routing_append {m n : Mixer} {x : MixerUnit} (h : n.units = m.units ++ [x])
    (hx : m.routing x.unit = none) :
    n.routing = Function.update m.routing x.unit (some x.target) := by
  funext v
  have hfind : n.routing v = (m.routing v).or
      (if x.unit = v then some x.target else none) := by
    unfold routing
    rw [h, List.find?_append]
    cases m.units.find? (·.unit = v) with
    | some y => rfl
    | none => by_cases hv : x.unit = v <;> simp [hv]
  rw [hfind, Function.update_apply]
  by_cases hv : v = x.unit
  · rw [if_pos hv, if_pos hv.symm, hv, hx, Option.none_or]
  · rw [if_neg (Ne.symm hv), if_neg hv, Option.or_none]

theorem routing_swapErase {m n : Mixer} {u : UnitHandle} (hm : m.owned.Nodup)
    (hu : u ∈ m.owned) (h : n.units = swapErase (·.unit = u) m.units) :
    n.routing = Function.update m.routing u none := by
  have hperm := swapErase_perm (fun x => decide (x.unit = u)) m.units
  have hnodup : (u :: n.owned).Nodup := by
    rw [owned, h]
    exact (owned_swapErase hu).nodup_iff.mpr hm
  rw [List.nodup_cons] at hnodup
  funext v
  rw [Function.update_apply]
  split
  · rename_i hv
    rw [hv, ← Option.not_isSome_iff_eq_none, isSome_routing]
    exact hnodup.1
  · rename_i hv
    apply Option.ext
    intro x
    rw [routing_eq_some hnodup.2, routing_eq_some hm, h, hperm.mem_iff,
      List.mem_eraseP_of_neg (by simpa using hv)]

def Free : Command → Prop
  | .adopt u => u ∉ m.owned
  | _ => True

def TurnsAway (c : Command) : Prop := c.adopted?.isSome ∧ m.capacity ≤ m.units.length

theorem not_turnsAway {m : Mixer} {c : Command} (hc : c.adopted? = none) : ¬m.TurnsAway c := by
  rintro ⟨hadopt, -⟩
  rw [hc] at hadopt
  cases hadopt

/-- A command changes the mixer's routing as it says, also where it is about a unit that the mixer
does not have; a half that is turned away changes nothing. -/
theorem routing_apply_of_free {m : Mixer} {c : Command} (hm : m.owned.Nodup) (hc : m.Free c) :
    (m.TurnsAway c → (m.apply retired c).1.routing = m.routing) ∧
      (¬m.TurnsAway c → (m.apply retired c).1.routing = c.act m.routing) := by
  cases c with
  | adopt u =>
    have hu : m.routing u = none := by rwa [← Option.not_isSome_iff_eq_none, isSome_routing]
    simp only [apply, TurnsAway, Command.adopted?, Option.isSome_some, true_and, Nat.not_le]
    constructor
    · intro hfull
      rw [if_neg (Nat.not_lt.mpr hfull)]
      exact routing_congr (units_retire ..)
    · intro hroom
      rw [if_pos hroom]
      exact routing_append (x := ⟨u, none⟩) rfl hu
  | attach u x | move u x =>
    refine ⟨fun hfull => absurd hfull (not_turnsAway rfl), fun _ => ?_⟩
    refine routing_map (g := fun v y => if v = u then some x else if y = some x then none else y)
      rfl (by simp) fun y => ?_
    by_cases hy : y.unit = u
    · simp [MixerUnit.retarget, hy]
    · by_cases ht : y.target = some x <;> simp [MixerUnit.retarget, MixerUnit.vacate, hy, ht]
  | detach u =>
    refine ⟨fun hfull => absurd hfull (not_turnsAway rfl), fun _ => ?_⟩
    refine routing_map (g := fun v y => if v = u then none else y) rfl (by simp) fun y => ?_
    by_cases hy : y.unit = u <;> simp [MixerUnit.retarget, hy]
  | release u =>
    refine ⟨fun hfull => absurd hfull (not_turnsAway rfl), fun _ => ?_⟩
    have hany : m.units.any (·.unit = u) = true ↔ u ∈ m.owned := by simp [owned]
    simp only [apply, hany]
    split
    · rename_i hu
      exact routing_swapErase hm hu (units_retire ..)
    · rename_i hu
      rw [← isSome_routing, Option.not_isSome_iff_eq_none] at hu
      rw [Command.act, ← hu, Function.update_eq_self]

theorem routing_apply {m : Mixer} {c : Command} (hm : m.owned.Nodup) (hc : c.Fits m.routing)
    (hroom : ∀ u, c = .adopt u → m.units.length < m.capacity) :
    (m.apply retired c).1.routing = c.act m.routing := by
  refine (routing_apply_of_free retired hm ?_).2 ?_
  · cases c with
    | adopt u =>
      rw [Free, ← isSome_routing, Option.not_isSome_iff_eq_none]
      exact hc
    | _ => trivial
  · cases c with
    | adopt u => exact fun hfull => Nat.not_le.mpr (hroom u rfl) hfull.2
    | _ => exact not_turnsAway rfl

/-! Commands that find all they need. -/

/-- Whether a command finds room for the half that it moves, and the unit that it is about. -/
def Finds : Command → Prop
  | .adopt _ => m.units.length < m.capacity
  | .attach u _ | .move u _ | .detach u => u ∈ m.owned
  | .release u => u ∈ m.owned ∧ retired.items.length < retired.capacity

/-- Commands fit the mixer, no half is around twice, and there are no more than there is room
for. -/
structure Ready (cs : List Command) (m : Mixer) (retired : Queue UnitHandle) : Prop where
  nodup : (halves cs m retired).Nodup
  length_le : (halves cs m retired).length ≤ m.capacity
  capacity : retired.capacity = m.capacity
  overflow : m.overflow = []
  fits : Command.FitAll m.routing cs

variable {m retired}

theorem Ready.owned_nodup {cs : List Command} (h : Ready cs m retired) : m.owned.Nodup :=
  (List.nodup_append.mp (List.nodup_append.mp h.nodup).2.1).1

theorem Ready.retired_nodup {cs : List Command} (h : Ready cs m retired) :
    retired.items.Nodup := by
  have hback := (List.nodup_append.mp (List.nodup_append.mp h.nodup).2.1).2.1
  exact (List.nodup_append.mp hback).2.1

theorem Ready.finds {c : Command} {cs : List Command} (h : Ready (c :: cs) m retired) :
    m.Finds retired c := by
  have hlength := h.length_le
  have hcapacity := h.capacity
  unfold halves at hlength
  simp only [List.length_append] at hlength
  cases c with
  | adopt u =>
    simp only [List.filterMap_cons, Command.adopted?, List.length_cons, owned,
      List.length_map] at hlength
    exact Nat.lt_of_lt_of_le (by omega) hlength
  | attach u x | move u x => exact (m.isSome_routing u).mp h.fits.1
  | detach u => exact (m.isSome_routing u).mp h.fits.1
  | release u =>
    have hu := (m.isSome_routing u).mp h.fits.1
    have hpos := List.length_pos_of_mem hu
    exact ⟨hu, by omega⟩

theorem Ready.routing_apply {c : Command} {cs : List Command} (h : Ready (c :: cs) m retired) :
    (m.apply retired c).1.routing = c.act m.routing := by
  apply Mixer.routing_apply retired h.owned_nodup h.fits.1
  rintro u rfl
  exact h.finds

theorem retire_of_room (h : retired.items.length < retired.capacity) :
    (m.retire retired u).1 = m ∧ (m.retire retired u).2.capacity = retired.capacity := by
  unfold retire
  cases hpush : retired.push? u with
  | some r => exact ⟨rfl, (Queue.push?_eq_some hpush).2⟩
  | none =>
    have hsome := Queue.isSome_push? (a := u) h
    rw [hpush] at hsome
    cases hsome

theorem Ready.apply {c : Command} {cs : List Command} (h : Ready (c :: cs) m retired) :
    Ready cs (m.apply retired c).1 (m.apply retired c).2 := by
  have hperm := halves_apply m retired c cs
  have hcapacity := m.capacity_apply retired c
  have hfinds := h.finds
  have hrest : (m.apply retired c).2.capacity = retired.capacity ∧
      (m.apply retired c).1.overflow = [] := by
    cases c with
    | adopt u =>
      have hroom : m.units.length < m.capacity := hfinds
      simp only [Mixer.apply, if_pos hroom]
      exact ⟨trivial, h.overflow⟩
    | attach u x | move u x => exact ⟨rfl, h.overflow⟩
    | detach u => exact ⟨rfl, h.overflow⟩
    | release u =>
      have hany : m.units.any (·.unit = u) := by simpa [owned] using hfinds.1
      simp only [Mixer.apply, hany, if_true]
      obtain ⟨hmixer, hretired⟩ := retire_of_room
        (m := { m with units := swapErase (·.unit = u) m.units }) u hfinds.2
      rw [hmixer]
      exact ⟨hretired, h.overflow⟩
  refine ⟨hperm.nodup_iff.mpr h.nodup, ?_, ?_, hrest.2, ?_⟩
  · rw [hperm.length_eq, hcapacity]
    exact h.length_le
  · rw [hrest.1, hcapacity]
    exact h.capacity
  · rw [h.routing_apply]
    exact h.fits.2

theorem Ready.applyAll {bs cs : List Command} (h : Ready (bs ++ cs) m retired) :
    Ready cs (m.applyAll retired bs).1 (m.applyAll retired bs).2 := by
  induction bs generalizing m retired with
  | nil => exact h
  | cons b bs ih => exact ih h.apply

theorem mem_retire {v : UnitHandle} (hv : v ∈ (m.retire retired u).2.items) :
    v ∈ retired.items ∨ v = u := by
  unfold retire at hv
  cases hpush : retired.push? u with
  | some r => simpa [hpush, (Queue.push?_eq_some hpush).1] using hv
  | none => exact Or.inl (by simpa [hpush] using hv)

theorem Ready.mem_retired_apply {c : Command} {cs : List Command} (h : Ready (c :: cs) m retired)
    {u : UnitHandle} (hu : u ∈ (m.apply retired c).2.items) :
    u ∈ retired.items ∨ c = .release u := by
  have hfinds := h.finds
  cases c with
  | adopt v =>
    have hroom : m.units.length < m.capacity := hfinds
    simp only [Mixer.apply, if_pos hroom] at hu
    exact Or.inl hu
  | attach v x | move v x => exact Or.inl hu
  | detach v => exact Or.inl hu
  | release v =>
    simp only [Mixer.apply] at hu
    split at hu
    · exact (mem_retire v hu).imp_right fun huv => congrArg Command.release huv.symm
    · exact Or.inl hu

theorem Ready.mem_retired_applyAll {bs cs : List Command} (h : Ready (bs ++ cs) m retired)
    {u : UnitHandle} (hu : u ∈ (m.applyAll retired bs).2.items) :
    u ∈ retired.items ∨ .release u ∈ bs := by
  induction bs generalizing m retired with
  | nil => exact Or.inl hu
  | cons b bs ih =>
    rcases ih h.apply hu with hback | hrest
    · exact (h.mem_retired_apply hback).imp_right fun hb => List.mem_cons.mpr (Or.inl hb.symm)
    · exact Or.inr (List.mem_cons_of_mem _ hrest)

theorem Ready.routing_applyAll {bs cs : List Command} (h : Ready (bs ++ cs) m retired) :
    (m.applyAll retired bs).1.routing = Command.actAll m.routing bs := by
  induction bs generalizing m retired with
  | nil => rfl
  | cons b bs ih =>
    rw [Mixer.applyAll, Command.actAll, ← h.routing_apply]
    exact ih h.apply

structure Same (m n : Mixer) : Prop where
  units : n.units = m.units
  overflow : n.overflow = m.overflow
  capacity : n.capacity = m.capacity

theorem Ready.congr {n : Mixer} {cs : List Command} (h : Ready cs m retired) (hn : Same m n) :
    Ready cs n retired := by
  have hhalves : halves cs n retired = halves cs m retired := by
    unfold halves owned
    rw [hn.units, hn.overflow]
  exact {
    nodup := hhalves ▸ h.nodup
    length_le := by
      rw [hhalves, hn.capacity]
      exact h.length_le
    capacity := h.capacity.trans hn.capacity.symm
    overflow := hn.overflow.trans h.overflow
    fits := routing_congr hn.units ▸ h.fits }

theorem drain_eq (link : Link) (h : m.overflow = []) :
    m.drain link = ((m.applyAll link.retired link.commands.items).1,
      { link with
        commands := link.commands.drained
        retired := (m.applyAll link.retired link.commands.items).2 }) := by
  unfold drain
  rw [h]
  have hm : { m with overflow := [] } = m := by rw [← h]
  simp only [flush, hm]

end Mixer

end Patchbay

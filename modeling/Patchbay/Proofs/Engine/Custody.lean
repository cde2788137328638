import Patchbay.Proofs.Engine.Mixer

/-! The mixer under commands that nobody has looked at. They may name units that it does not have,
and come at any time between buffers and between the control side's visits to the queue of halves
that were handed back. As long as no half is handed over twice, no two units come to sit on one
target, and each half is held or was given back once. -/

namespace Patchbay

/-! What one command does to a routing. -/

namespace Command

/-- What becomes of where a unit sits under a command about another one: it is put out where the
other unit goes, and else stays. -/
def displaces (c : Command) (y : Option Target) : Option Target :=
  if y.isSome ∧ y = c.target? then none else y

theorem displaces_eq_some {c : Command} {y : Option Target} {x : Target} :
    c.displaces y = some x ↔ y = some x ∧ c.target? ≠ some x := by
  unfold displaces
  split
  · rename_i h
    rw [← h.2]
    simp
  · rename_i h
    constructor
    · rintro rfl
      exact ⟨rfl, fun htarget => h ⟨rfl, htarget.symm⟩⟩
    · exact And.left

theorem displaces_of_target?_eq_none {c : Command} (h : c.target? = none) : c.displaces = id := by
  funext y
  unfold displaces
  rw [h]
  cases y <;> rfl

theorem act_of_ne {r : Routing} {c : Command} {v : UnitHandle} (h : v ≠ c.unit) :
    c.act r v = (r v).map c.displaces := by
  cases c with
  | adopt u | release u =>
    rw [displaces_of_target?_eq_none rfl, Option.map_id]
    exact Function.update_of_ne h _ _
  | attach u x | move u x =>
    have hne : ¬v = u := h
    refine congrArg (fun f => (r v).map f) (funext fun y => ?_)
    rw [if_neg hne, displaces, target?]
    cases y <;> simp
  | detach u =>
    have hne : ¬v = u := h
    rw [displaces_of_target?_eq_none rfl, Option.map_id]
    simp only [act, if_neg hne, Option.map_id', id]

theorem target?_of_act {r : Routing} {c : Command} {x : Target}
    (h : c.act r c.unit = some (some x)) : c.target? = some x := by
  cases c with
  | adopt u | release u => simp [act, unit] at h
  | attach u y | move u y =>
    obtain ⟨_, -, hx⟩ := Option.map_eq_some_iff.mp h
    simpa [unit, target?] using hx
  | detach u =>
    obtain ⟨_, -, hx⟩ := Option.map_eq_some_iff.mp h
    simp [unit] at hx

end Command

def Routing.Apart (r : Routing) : Prop :=
  ∀ u v x, r u = some (some x) → r v = some (some x) → u = v

theorem Routing.Apart.act {r : Routing} (h : r.Apart) (c : Command) :
    Routing.Apart (c.act r) := by
  -- Whoever else sat where the command sends its unit is put out.
  have hother {v : UnitHandle} {x : Target} (hv : v ≠ c.unit) (hx : c.act r v = some (some x)) :
      r v = some (some x) ∧ c.target? ≠ some x := by
    rw [Command.act_of_ne hv] at hx
    obtain ⟨y, hy, hdisplaced⟩ := Option.map_eq_some_iff.mp hx
    obtain ⟨rfl, hne⟩ := Command.displaces_eq_some.mp hdisplaced
    exact ⟨hy, hne⟩
  intro u v x hu hv
  by_cases huc : u = c.unit <;> by_cases hvc : v = c.unit
  · rw [huc, hvc]
  · exact absurd (Command.target?_of_act (huc ▸ hu)) (hother hvc hv).2
  · exact absurd (Command.target?_of_act (hvc ▸ hv)) (hother huc hu).2
  · exact h u v x (hother huc hu).1 (hother hvc hv).1

namespace Mixer

variable {m : Mixer} {retired : Queue UnitHandle}

theorem owned_apply (hm : m.owned.Nodup) {c : Command} (hc : m.Free c) :
    (m.apply retired c).1.owned.Nodup := by
  cases c with
  | adopt u =>
    simp only [apply]
    split
    · have hconcat := hm.concat hc
      rw [List.concat_eq_append] at hconcat
      simpa [owned] using hconcat
    · rwa [owned, units_retire]
  | attach u x | move u x =>
    rwa [apply, owned, owned_map _ _ (by simp)]
  | detach u =>
    rwa [apply, owned, owned_map _ _ (by simp)]
  | release u =>
    simp only [apply]
    split
    · rename_i hany
      have hu : u ∈ m.owned := by simpa [owned] using hany
      rw [owned, units_retire]
      exact (List.nodup_cons.mp ((owned_swapErase hu).nodup_iff.mpr hm)).2
    · exact hm

theorem apart_apply (hm : m.owned.Nodup) (hapart : m.routing.Apart) {c : Command}
    (hc : m.Free c) : (m.apply retired c).1.routing.Apart := by
  obtain ⟨haway, hact⟩ := routing_apply_of_free retired hm hc
  by_cases h : m.TurnsAway c
  · rwa [haway h]
  · rw [hact h]
    exact hapart.act c

theorem routing_eq_some_of_targetOf {u : UnitHandle} {x : Target} :
    m.targetOf u = some x ↔ m.routing u = some (some x) := by
  rw [targetOf_eq]
  cases m.routing u <;> simp

theorem unitOn_eq_some (hm : m.owned.Nodup) (hapart : m.routing.Apart) {u : UnitHandle}
    {x : Target} : m.unitOn x = some u ↔ m.targetOf u = some x := by
  constructor
  · intro h
    exact (targetOf_eq_some hm).mpr (mem_units_of_unitOn h)
  · intro h
    have hmem := (targetOf_eq_some hm).mp h
    cases hfound : m.unitOn x with
    | none =>
      have hnone := List.find?_eq_none.mp (Option.map_eq_none_iff.mp hfound) _ hmem
      simp at hnone
    | some v =>
      have hv := (targetOf_eq_some hm).mpr (mem_units_of_unitOn hfound)
      rw [routing_eq_some_of_targetOf] at h hv
      rw [hapart v u x hv h]

def retargetFirst (u : UnitHandle) (target : Option Target) : List MixerUnit → List MixerUnit
  | [] => []
  | x :: xs => if x.unit = u then { x with target } :: xs else x :: retargetFirst u target xs

def applyFirst (m : Mixer) (retired : Queue UnitHandle) : Command → Mixer × Queue UnitHandle
  | .attach u x | .move u x =>
    ({ m with units := retargetFirst u (some x) (m.units.map (·.vacate x u)) }, retired)
  | .detach u => ({ m with units := retargetFirst u none m.units }, retired)
  | c => m.apply retired c

theorem retargetFirst_eq {u : UnitHandle} (target : Option Target) {units : List MixerUnit}
    (h : (units.map (·.unit)).Nodup) :
    retargetFirst u target units = units.map (·.retarget u target) := by
  induction units with
  | nil => rfl
  | cons x xs ih =>
    obtain ⟨hx, hxs⟩ := List.nodup_cons.mp h
    rw [retargetFirst, List.map_cons, MixerUnit.retarget]
    split
    · rename_i hu
      have hrest : ∀ y ∈ xs, y.retarget u target = y := by
        intro y hy
        have hne : y.unit ≠ u := fun hyu => hx (List.mem_map.mpr ⟨y, hy, hyu.trans hu.symm⟩)
        exact if_neg hne
      rw [List.map_congr_left hrest, List.map_id']
    · rw [ih hxs]

theorem applyFirst_eq (hm : m.owned.Nodup) (retired : Queue UnitHandle) (c : Command) :
    m.applyFirst retired c = m.apply retired c := by
  cases c with
  | adopt u | release u => rfl
  | attach u x | move u x =>
    have hvacated : ((m.units.map (·.vacate x u)).map (·.unit)).Nodup := by
      rwa [owned_map _ _ (by simp)]
    rw [applyFirst, retargetFirst_eq _ hvacated, List.map_map]
    rfl
  | detach u =>
    rw [applyFirst, retargetFirst_eq _ hm]
    rfl

theorem flush_perm (overflow : List UnitHandle) (retired : Queue UnitHandle) :
    ((flush overflow retired).1 ++ (flush overflow retired).2.items).Perm
      (overflow ++ retired.items) := by
  induction overflow generalizing retired with
  | nil => exact List.Perm.refl _
  | cons u overflow ih =>
    unfold flush
    cases h : retired.push? u with
    | none => exact List.Perm.refl _
    | some r =>
      refine (ih r).trans ?_
      rw [(Queue.push?_eq_some h).1, ← List.append_assoc]
      exact List.perm_append_singleton u _

end Mixer

/-! The mixer with the way back, and what the control side has taken off it. -/

structure Custody where
  mixer : Mixer
  retired : Queue UnitHandle
  taken : List UnitHandle := []

namespace Custody

inductive Turn
  | command (c : Command)
  | flush
  | collect

def ofConfig (config : Config) (places : Nat) : Custody where
  mixer := .ofConfig config
  retired := { capacity := places, items := [], length_le := Nat.zero_le places }

def act (s : Custody) : Turn → Custody
  | .command c =>
    let (mixer, retired) := s.mixer.apply s.retired c
    { s with mixer, retired }
  | .flush =>
    let (overflow, retired) := Mixer.flush s.mixer.overflow s.retired
    { s with mixer := { s.mixer with overflow }, retired }
  | .collect =>
    match s.retired.pop? with
    | some (u, retired) => { s with retired, taken := s.taken ++ [u] }
    | none => s

def after (s : Custody) (turns : List Turn) : Custody := turns.foldl act s

def givenUp (s : Custody) : List UnitHandle := s.mixer.overflow ++ s.retired.items ++ s.taken

def Turn.adopted? : Turn → Option UnitHandle
  | command c => c.adopted?
  | _ => none

def Free (s : Custody) : Turn → Prop
  | .command c => s.mixer.Free c
  | _ => True

instance (s : Custody) : (t : Turn) → Decidable (s.Free t)
  | .command (.adopt u) => inferInstanceAs (Decidable (u ∉ s.mixer.owned))
  | .command (.attach ..) | .command (.move ..) | .command (.detach _) | .command (.release _)
  | .flush | .collect => isTrue trivial

def AllFree (s : Custody) : List Turn → Prop
  | [] => True
  | t :: turns => s.Free t ∧ (s.act t).AllFree turns

instance decidableAllFree (s : Custody) : (turns : List Turn) → Decidable (s.AllFree turns)
  | [] => isTrue trivial
  | t :: turns =>
    have := decidableAllFree (s.act t) turns
    inferInstanceAs (Decidable (s.Free t ∧ (s.act t).AllFree turns))

theorem mixer_collect (s : Custody) : (s.act .collect).mixer = s.mixer := by
  simp only [act]
  split <;> rfl

theorem givenUp_collect (s : Custody) : (s.act .collect).givenUp.Perm s.givenUp := by
  simp only [act]
  cases h : s.retired.pop? with
  | none => exact List.Perm.refl _
  | some p =>
    obtain ⟨u, retired⟩ := p
    have hitems := (Queue.pop?_eq_some h).1
    simpa [givenUp, hitems] using
      (List.perm_append_singleton u (retired.items ++ s.taken)).append_left s.mixer.overflow

theorem perm_act (s : Custody) (t : Turn) :
    ((s.act t).mixer.owned ++ (s.act t).givenUp).Perm
      (t.adopted?.toList ++ (s.mixer.owned ++ s.givenUp)) := by
  cases t with
  | command c =>
    have hhalves := s.mixer.halves_apply s.retired c []
    have hadopted : [c].filterMap Command.adopted? = c.adopted?.toList := by
      cases h : c.adopted? <;> simp [h]
    unfold Mixer.halves at hhalves
    rw [hadopted, List.filterMap_nil, List.nil_append] at hhalves
    simpa [givenUp, act, Turn.adopted?] using hhalves.append_right s.taken
  | flush =>
    have hflush := Mixer.flush_perm s.mixer.overflow s.retired
    exact (hflush.append_right s.taken).append_left s.mixer.owned
  | collect =>
    rw [mixer_collect]
    exact s.givenUp_collect.append_left s.mixer.owned

theorem exists_givenUp_act (s : Custody) (t : Turn) :
    ∃ us, (s.act t).givenUp.Perm (us ++ s.givenUp) := by
  have hretire (m : Mixer) (u : UnitHandle) :
      ((m.retire s.retired u).1.overflow ++ (m.retire s.retired u).2.items ++ s.taken).Perm
        ([u] ++ (m.overflow ++ s.retired.items ++ s.taken)) :=
    (m.retire_perm s.retired u).append_right s.taken
  cases t with
  | command c =>
    cases c with
    | adopt u =>
      simp only [act, givenUp, Mixer.apply]
      split
      · exact ⟨[], List.Perm.refl _⟩
      · exact ⟨[u], hretire s.mixer u⟩
    | attach u x | move u x | detach u => exact ⟨[], List.Perm.refl _⟩
    | release u =>
      simp only [act, givenUp, Mixer.apply]
      split
      · exact ⟨[u], hretire _ u⟩
      · exact ⟨[], List.Perm.refl _⟩
  | flush => exact ⟨[], (Mixer.flush_perm s.mixer.overflow s.retired).append_right s.taken⟩
  | collect => exact ⟨[], s.givenUp_collect⟩

/-- The mixer and the way back after turns that handed over some halves: no unit is held twice, no
two units sit on one target, and each half is held or was let go of once. -/
structure Sound (s : Custody) (adopted : List UnitHandle) : Prop where
  owned : s.mixer.owned.Nodup
  apart : s.mixer.routing.Apart
  halves : adopted.Perm (s.mixer.owned ++ s.givenUp)

theorem Sound.act {s : Custody} {adopted : List UnitHandle} (h : s.Sound adopted) {t : Turn}
    (ht : s.Free t) : (s.act t).Sound (adopted ++ t.adopted?.toList) where
  owned := by
    cases t with
    | command c => exact Mixer.owned_apply h.owned ht
    | flush => exact h.owned
    | collect => exact s.mixer_collect ▸ h.owned
  apart := by
    cases t with
    | command c => exact Mixer.apart_apply h.owned h.apart ht
    | flush => exact h.apart
    | collect => exact s.mixer_collect ▸ h.apart
  halves := (h.halves.append_right _).trans (List.perm_append_comm.trans (s.perm_act t).symm)

theorem Sound.after {s : Custody} {adopted : List UnitHandle} (h : s.Sound adopted)
    {turns : List Turn} (hturns : s.AllFree turns) :
    (s.after turns).Sound (adopted ++ turns.filterMap Turn.adopted?) := by
  induction turns generalizing s adopted with
  | nil => simpa [Custody.after] using h
  | cons t turns ih =>
    have hrest := ih (h.act hturns.1) hturns.2
    rw [List.append_assoc] at hrest
    cases ht : t.adopted? with
    | none => simpa [Custody.after, ht] using hrest
    | some u => simpa [Custody.after, ht] using hrest

theorem sound_ofConfig (config : Config) (places : Nat) :
    (ofConfig config places).Sound [] where
  owned := List.nodup_nil
  apart := nofun
  halves := List.Perm.refl _

theorem allFree_concat {s : Custody} {turns : List Turn} {t : Turn} :
    s.AllFree (turns ++ [t]) ↔ s.AllFree turns ∧ (s.after turns).Free t := by
  induction turns generalizing s with
  | nil => simp [AllFree, after]
  | cons u turns ih =>
    rw [List.cons_append, AllFree, AllFree, ih, and_assoc]
    rfl

def Turn.unit? : Turn → Option UnitHandle
  | command c => some c.unit
  | _ => none

def Turn.displaces : Turn → Option Target → Option Target
  | command c => c.displaces
  | _ => id

theorem Turn.displaces_none (t : Turn) : t.displaces none = none := by
  cases t <;> rfl

theorem routing_act {s : Custody} (h : s.mixer.owned.Nodup) {t : Turn} (ht : s.Free t)
    {v : UnitHandle} (hv : t.unit? ≠ some v) :
    (s.act t).mixer.routing v = (s.mixer.routing v).map t.displaces := by
  cases t with
  | command c =>
    obtain ⟨haway, hact⟩ := Mixer.routing_apply_of_free s.retired h ht
    by_cases hturned : s.mixer.TurnsAway c
    · have htarget : c.target? = none := by
        cases c with
        | adopt u => rfl
        | _ => cases hturned.1
      rw [Turn.displaces, Command.displaces_of_target?_eq_none htarget, Option.map_id]
      exact congrFun (haway hturned) v
    · rw [Turn.displaces, ← Command.act_of_ne fun hvc => hv (congrArg some hvc.symm)]
      exact congrFun (hact hturned) v
  | flush => exact (congrFun Option.map_id _).symm
  | collect =>
    rw [mixer_collect]
    exact (congrFun Option.map_id _).symm

/-- What holds between the state before a turn and the one after it, when some halves were handed
over by then. -/
structure Keeps (s s' : Custody) (t : Turn) (adopted : List UnitHandle) : Prop where
  once : s'.mixer.owned.Nodup
  alone : ∀ u v x, s'.mixer.targetOf u = some x → s'.mixer.targetOf v = some x → u = v
  found : ∀ u x, s'.mixer.unitOn x = some u ↔ s'.mixer.targetOf u = some x
  first : ∀ c, t = .command c → s.mixer.applyFirst s.retired c = s.mixer.apply s.retired c
  others : ∀ v, t.unit? ≠ some v → (v ∈ s'.mixer.owned ↔ v ∈ s.mixer.owned) ∧
    s'.mixer.targetOf v = t.displaces (s.mixer.targetOf v)
  halves : adopted.Perm (s'.mixer.owned ++ s'.givenUp)
  givenUp : ∃ us, s'.givenUp.Perm (us ++ s.givenUp)

/-- Whatever commands come, as long as none hands over a half that the mixer still holds: after each
turn no unit is held twice, no two units sit on one target, so that whoever is looked for there, or
by handle, is the one that is found first, units that the turn is not about stay where they are
unless they are put out, and each half handed over is held or was let go of once, for good. -/
theorem mixer_keeps_apart (config : Config) (places : Nat) (turns : List Turn) (t : Turn)
    (h : (ofConfig config places).AllFree (turns ++ [t])) :
    Keeps ((ofConfig config places).after turns) ((ofConfig config places).after (turns ++ [t])) t
      ((turns ++ [t]).filterMap Turn.adopted?) := by
  have hsound := (sound_ofConfig config places).after h
  obtain ⟨hturns, ht⟩ := allFree_concat.mp h
  have hbefore := (sound_ofConfig config places).after hturns
  have hafter : (ofConfig config places).after (turns ++ [t]) =
      ((ofConfig config places).after turns).act t := List.foldl_concat ..
  rw [hafter] at hsound ⊢
  generalize (ofConfig config places).after turns = s at *
  rw [List.nil_append] at hsound
  exact {
    once := hsound.owned
    alone := fun u v x hu hv => hsound.apart u v x
      (Mixer.routing_eq_some_of_targetOf.mp hu) (Mixer.routing_eq_some_of_targetOf.mp hv)
    found := fun u x => Mixer.unitOn_eq_some hsound.owned hsound.apart
    first := fun c _ => Mixer.applyFirst_eq hbefore.owned s.retired c
    others := fun v hv => by
      have hrouting := routing_act hbefore.owned ht hv
      rw [← Mixer.isSome_routing, ← Mixer.isSome_routing, Mixer.targetOf_eq, Mixer.targetOf_eq,
        hrouting, Option.isSome_map]
      refine ⟨Iff.rfl, ?_⟩
      cases hv' : s.mixer.routing v with
      | none => exact (Turn.displaces_none t).symm
      | some y => rfl
    halves := hsound.halves
    givenUp := s.exists_givenUp_act t }

theorem mixer_keeps_apart_crowded :
    let s := ofConfig { maxUnits := 2 } 1
    let turns : List Turn := [.command (.adopt ⟨0, 0⟩), .command (.adopt ⟨1, 0⟩),
      .command (.adopt ⟨2, 0⟩), .command (.attach ⟨0, 0⟩ .output), .command (.move ⟨1, 0⟩ .output),
      .command (.attach ⟨7, 7⟩ .output), .command (.release ⟨0, 0⟩), .collect, .flush,
      .command (.adopt ⟨0, 0⟩)]
    let t : Turn := .command (.attach ⟨0, 0⟩ .input)
    s.AllFree (turns ++ [t]) ∧
      Keeps (s.after turns) (s.after (turns ++ [t])) t ((turns ++ [t]).filterMap Turn.adopted?) ∧
      (s.after (turns ++ [t])).mixer.units = [⟨⟨1, 0⟩, none⟩, ⟨⟨0, 0⟩, some .input⟩] ∧
      (s.after (turns ++ [t])).taken = [⟨2, 0⟩] ∧
      (s.after (turns ++ [t])).retired.items = [⟨0, 0⟩] :=
  ⟨by decide +kernel, mixer_keeps_apart _ _ _ _ (by decide +kernel), by decide +kernel,
    by decide +kernel, by decide +kernel⟩

end Custody

end Patchbay

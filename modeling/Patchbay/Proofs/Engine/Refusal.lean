import Patchbay.Proofs.Engine.Call

/-! Why operations are refused. An operation on a unit refuses the handle of one that is not in use,
and no other handle; creating a unit is refused for want of a slot when the store has no room. -/

namespace Patchbay

def Raises {ε σ α : Type} (op : EStateM ε σ α) (s : σ) (p : ε → Prop) : Prop :=
  match op s with
  | .ok _ _ => True
  | .error e _ => p e

section Raises

variable {ε σ α β : Type} {op : EStateM ε σ α} {s : σ} {p : ε → Prop}

theorem Raises.bind {f : α → EStateM ε σ β} (h : Raises op s p)
    (hf : ∀ a t, op s = .ok a t → Raises (f a) t p) : Raises (op >>= f) s p := by
  unfold Raises at *
  simp only [Bind.bind, EStateM.bind]
  cases hop : op s with
  | ok a t => exact hf a t hop
  | error e t =>
    rw [hop] at h
    exact h

theorem Raises.get {f : σ → EStateM ε σ β} (h : Raises (f s) s p) : Raises (get >>= f) s p := h

theorem Raises.map {f : α → β} (h : Raises op s p) : Raises (f <$> op) s p := by
  unfold Raises at *
  simp only [Functor.map, EStateM.map]
  cases hop : op s with
  | ok a t => trivial
  | error e t =>
    rw [hop] at h
    exact h

theorem bind_of_error {f : α → EStateM ε σ β} {e : ε} {t : σ} (h : op s = .error e t) :
    (op >>= f) s = .error e t := by
  simp only [Bind.bind, EStateM.bind, h]

theorem map_of_error {f : α → β} {e : ε} {t : σ} (h : op s = .error e t) :
    (f <$> op) s = .error e t := by
  simp only [Functor.map, EStateM.map, h]

theorem map_of_ok {f : α → β} {a : α} {t : σ} (h : op s = .ok a t) :
    (f <$> op) s = .ok (f a) t := by
  simp only [Functor.map, EStateM.map, h]

end Raises

namespace Engine

variable {U : Type}

theorem entry_of_live {e : Engine U} {u : UnitHandle} {entry : UnitEntry U}
    (h : e.units.live? u = some entry) : e.entry u = .ok entry := by
  unfold Engine.entry
  rw [h]

theorem entry_of_not_live {e : Engine U} {u : UnitHandle} (h : e.units.live? u = none) :
    e.entry u = .error (.invalidUnit u) := by
  unfold Engine.entry
  rw [h]

theorem edit_of_live {e : Engine U} {u : UnitHandle} {entry : UnitEntry U} {write : U → Option U}
    {unit : U} (h : e.units.live? u = some entry) (hwrite : write entry.unit = some unit) :
    e.edit u write = .ok { e with units := e.units.setUnit u unit } := by
  unfold Engine.edit
  rw [entry_of_live h]
  simp [bind, Except.bind, hwrite]

end Engine

namespace Operation

variable {U : Type} {c : Console U} {u : UnitHandle}

theorem read_eq {α : Type} (f : Engine U → Except EngineError α) :
    (read f : Operation U α) c = match f c.engine with
      | .ok a => .ok a c
      | .error e => .error e c := by
  unfold read
  apply (bind_of_ok (a := c) (t := c) rfl).trans
  cases f c.engine <;> rfl

theorem read_entry_of_live {entry : UnitEntry U} (h : c.engine.units.live? u = some entry) :
    (read (·.entry u) : Operation U (UnitEntry U)) c = .ok entry c := by
  rw [read_eq, Engine.entry_of_live h]

theorem read_entry_of_not_live (h : c.engine.units.live? u = none) :
    (read (·.entry u) : Operation U (UnitEntry U)) c = .error (.invalidUnit u) c := by
  rw [read_eq, Engine.entry_of_not_live h]

theorem reserve_eq (needed : Nat) : (reserve needed : Operation U Unit) c =
    if c.commands.free < needed then .error (.queueFull needed c.commands.free) c
    else .ok () c := by
  unfold reserve
  apply (bind_of_ok (a := c) (t := c) rfl).trans
  split <;> rfl

theorem reserve_of_room {needed : Nat} (h : needed ≤ c.commands.free) :
    (reserve needed : Operation U Unit) c = .ok () c := by
  rw [reserve_eq, if_neg (Nat.not_lt_of_le h)]

theorem reserve_of_full {needed : Nat} (h : ¬needed ≤ c.commands.free) :
    (reserve needed : Operation U Unit) c = .error (.queueFull needed c.commands.free) c := by
  rw [reserve_eq, if_pos (Nat.lt_of_not_le h)]

end Operation

namespace Call

variable {U : Type} {c : Console U} {u : UnitHandle}

def unit? : Call U → Option UnitHandle
  | attachToEvent unit? _ | attachToInput unit? | attachToOutput unit? => unit?
  | detach unit | release unit => some unit
  | _ => none

/-- Whether the target of a call is there, which is looked at before the unit. -/
def HasTarget (e : Engine U) : Call U → Prop
  | attachToEvent _ event => e.tones.isValid event
  | attachToInput _ => e.config.inputFormat?.isSome
  | _ => True

theorem error_of_not_live {call : Call U} (hunit : call.unit? = some u)
    (h : c.engine.units.live? u = none) :
    ∃ e, call.operation c = .error e c ∧ (call.HasTarget c.engine → e = .invalidUnit u) := by
  have hread := Operation.read_entry_of_not_live h
  have hroute (x : Target) : Operation.route (some u) x c = .error (.invalidUnit u) c := by
    unfold Operation.route
    exact bind_of_error hread
  cases call with
  | attachToEvent unit? event =>
    obtain rfl : unit? = some u := hunit
    by_cases hvalid : c.engine.tones.isValid event
    · refine ⟨_, map_of_error (t := c) ?_, fun _ => rfl⟩
      apply (bind_of_ok (a := c) (t := c) rfl).trans
      simp only [hvalid, if_true, hroute]
    · refine ⟨.invalidEvent event, map_of_error (t := c) ?_, fun hvalid' => absurd hvalid' hvalid⟩
      apply (bind_of_ok (a := c) (t := c) rfl).trans
      simp only [hvalid]
      rfl
  | attachToInput unit? =>
    obtain rfl : unit? = some u := hunit
    by_cases hinput : c.engine.config.inputFormat?.isSome
    · refine ⟨_, map_of_error (t := c) ?_, fun _ => rfl⟩
      apply (bind_of_ok (a := c) (t := c) rfl).trans
      simp only [hinput, if_true, hroute]
    · refine ⟨.noInput, map_of_error (t := c) ?_, fun hinput' => absurd hinput' hinput⟩
      apply (bind_of_ok (a := c) (t := c) rfl).trans
      simp only [hinput]
      rfl
  | attachToOutput unit? =>
    obtain rfl : unit? = some u := hunit
    exact ⟨_, map_of_error (hroute _), fun _ => rfl⟩
  | detach v =>
    obtain rfl := Option.some.inj hunit
    exact ⟨_, map_of_error (bind_of_error hread), fun _ => rfl⟩
  | release v =>
    obtain rfl := Option.some.inj hunit
    exact ⟨_, map_of_error (bind_of_error hread), fun _ => rfl⟩
  | _ => cases hunit

end Call

end Patchbay

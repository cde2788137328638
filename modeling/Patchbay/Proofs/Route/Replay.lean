import Patchbay.Proofs.Route.Attachment
import Patchbay.Route.Command

/-! Commands as changes of a routing: which units the mixer knows, and where each of them sits. A
command that sends a unit somewhere also puts out whoever sits there; after changes that lead from
one table to another that never happens, and the commands come to what the other table says. -/

namespace Patchbay

abbrev Routing := UnitHandle → Option (Option Target)

def Seating.among (f : Seating) (known : UnitHandle → Bool) : Routing :=
  fun u => if known u then some (f u) else none

theorem Seating.isSome_among (f : Seating) (known : UnitHandle → Bool) (u : UnitHandle) :
    (f.among known u).isSome = known u := by
  unfold Seating.among
  cases known u <;> rfl

theorem Seating.map_among (f : Seating) (known : UnitHandle → Bool) (u : UnitHandle)
    (g : Option Target → Option Target) :
    (f.among known u).map g = if known u then some (g (f u)) else none := by
  unfold Seating.among
  cases known u <;> rfl

namespace Command

def act (r : Routing) : Command → Routing
  | adopt u => Function.update r u (some none)
  | attach u x | move u x => fun v => (r v).map fun y =>
    if v = u then some x else if y = some x then none else y
  | detach u => fun v => (r v).map fun y => if v = u then none else y
  | release u => Function.update r u none

/-- Only a unit that is not known can be adopted, and only a known one can be sent about. -/
def Fits (r : Routing) : Command → Prop
  | adopt u => r u = none
  | attach u _ | move u _ | detach u | release u => (r u).isSome

def actAll (r : Routing) : List Command → Routing
  | [] => r
  | c :: cs => actAll (c.act r) cs

def FitAll (r : Routing) : List Command → Prop
  | [] => True
  | c :: cs => c.Fits r ∧ FitAll (c.act r) cs

theorem actAll_append (r : Routing) (cs ds : List Command) :
    actAll r (cs ++ ds) = actAll (actAll r cs) ds := by
  induction cs generalizing r with
  | nil => rfl
  | cons c cs ih => exact ih (c.act r)

theorem fitAll_append (r : Routing) (cs ds : List Command) :
    FitAll r (cs ++ ds) ↔ FitAll r cs ∧ FitAll (actAll r cs) ds := by
  induction cs generalizing r with
  | nil => exact (true_and _).to_iff.symm
  | cons c cs ih =>
    rw [List.cons_append, FitAll, FitAll, actAll, ih, and_assoc]

def adopted? : Command → Option UnitHandle
  | adopt u => some u
  | _ => none

theorem isSome_of_actAll {r : Routing} {cs : List Command} {u : UnitHandle}
    (h : (actAll r cs u).isSome) : u ∈ cs.filterMap adopted? ∨ (r u).isSome := by
  induction cs generalizing r with
  | nil => exact Or.inr h
  | cons c cs ih =>
    rcases ih h with hu | hu
    · exact Or.inl (List.mem_filterMap.mpr
        ((List.mem_filterMap.mp hu).imp fun _ hc => ⟨List.mem_cons_of_mem _ hc.1, hc.2⟩))
    · cases c with
      | adopt v =>
        by_cases huv : u = v
        · exact Or.inl (by simp [adopted?, huv])
        · exact Or.inr (by rwa [act, Function.update_of_ne huv] at hu)
      | release v =>
        by_cases huv : u = v
        · rw [act, huv, Function.update_self] at hu
          cases hu
        · exact Or.inr (by rwa [act, Function.update_of_ne huv] at hu)
      | attach v x => exact Or.inr (by simpa [act] using hu)
      | move v x => exact Or.inr (by simpa [act] using hu)
      | detach v => exact Or.inr (by simpa [act] using hu)

theorem act_ofChange {f : Seating} {known : UnitHandle → Bool} {c : RouteChange}
    (h : c.Legal f) : (ofChange c).act (f.among known) = (c.make f).among known := by
  -- no unit is put out, as the target is free
  have hseat {u : UnitHandle} {x : Target} (hx : ∀ v, f v ≠ some x) :
      (fun v => (f.among known v).map fun y =>
        if v = u then some x else if y = some x then none else y) =
      Seating.among (Function.update f u (some x)) known := by
    funext v
    rw [Seating.map_among, Seating.among, Function.update_apply, if_neg (hx v)]
  cases c with
  | attach u x => exact hseat h.2
  | move u x y => exact hseat h.2
  | detach u x =>
    funext v
    simp only [ofChange, act, RouteChange.make]
    rw [Seating.map_among, Seating.among, Function.update_apply]

theorem fits_ofChange {f : Seating} {known : UnitHandle → Bool} {c : RouteChange}
    (h : known c.unit) : (ofChange c).Fits (f.among known) := by
  cases c <;> exact (Seating.isSome_among ..).trans h

/-- Commands for changes that lead from one table to another replay the change of tables. -/
theorem actAll_of_lead {f g : Seating} {known : UnitHandle → Bool} {cs : List RouteChange}
    (h : RouteChange.Lead f cs g) :
    actAll (f.among known) (cs.map ofChange) = g.among known := by
  induction cs generalizing f with
  | nil => exact congrArg (Seating.among · known) h.symm
  | cons c cs ih =>
    rw [List.map_cons, actAll, act_ofChange h.1]
    exact ih h.2

theorem fitAll_of_lead {f g : Seating} {known : UnitHandle → Bool} {cs : List RouteChange}
    (h : RouteChange.Lead f cs g) (hknown : ∀ c ∈ cs, known c.unit) :
    FitAll (f.among known) (cs.map ofChange) := by
  induction cs generalizing f with
  | nil => trivial
  | cons c cs ih =>
    rw [List.map_cons, FitAll, act_ofChange h.1]
    exact ⟨fits_ofChange (hknown c List.mem_cons_self),
      ih h.2 fun d hd => hknown d (List.mem_cons_of_mem _ hd)⟩

theorem adopted?_ofChange (c : RouteChange) : (ofChange c).adopted? = none := by
  cases c <;> rfl

end Command

end Patchbay

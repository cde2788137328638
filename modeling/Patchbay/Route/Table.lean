import Patchbay.Route.Handle

/-!
The attachment table: which unit sits on which target. A unit sits on at most one target and a
target holds at most one unit; the table carries both facts. Attaching moves a unit off its target,
puts out whoever held the new one, and reports the changes in the order in which they are to be
made.
-/

namespace Patchbay

structure AttachmentTable where
  pairs : List (UnitHandle × Target) := []
  nodup_units : (pairs.map Prod.fst).Nodup := by simp
  nodup_targets : (pairs.map Prod.snd).Nodup := by simp

namespace AttachmentTable

def empty : AttachmentTable := {}

def filter (t : AttachmentTable) (keep : UnitHandle × Target → Bool) : AttachmentTable where
  pairs := t.pairs.filter keep
  nodup_units := t.nodup_units.sublist (t.pairs.filter_sublist.map _)
  nodup_targets := t.nodup_targets.sublist (t.pairs.filter_sublist.map _)

def attachment (t : AttachmentTable) (u : UnitHandle) : Option Target :=
  (t.pairs.find? (·.1 = u)).map Prod.snd

def unitAt (t : AttachmentTable) (target : Target) : Option UnitHandle :=
  (t.pairs.find? (·.2 = target)).map Prod.fst

def size (t : AttachmentTable) : Nat := t.pairs.length

def isEmpty (t : AttachmentTable) : Bool := t.pairs.isEmpty

/-- Puts a unit on a target, after everything else about either is gone. -/
def place (t : AttachmentTable) (u : UnitHandle) (target : Target) : AttachmentTable where
  pairs := (t.filter fun p => p.1 ≠ u && p.2 ≠ target).pairs ++ [(u, target)]
  nodup_units := by
    simp only [List.map_append, List.map_cons, List.map_nil]
    refine List.nodup_append.2 ⟨(t.filter _).nodup_units, by simp, ?_⟩
    simp only [filter, List.mem_map, List.mem_filter, List.mem_singleton]
    rintro _ ⟨p, ⟨-, hp⟩, rfl⟩ _ rfl
    simp_all
  nodup_targets := by
    simp only [List.map_append, List.map_cons, List.map_nil]
    refine List.nodup_append.2 ⟨(t.filter _).nodup_targets, by simp, ?_⟩
    simp only [filter, List.mem_map, List.mem_filter, List.mem_singleton]
    rintro _ ⟨p, ⟨-, hp⟩, rfl⟩ _ rfl
    simp_all

/-- Routes a unit to a target. Nothing changes when it sits there already. -/
def attach (t : AttachmentTable) (u : UnitHandle) (target : Target) :
    AttachmentTable × List RouteChange :=
  let current := t.attachment u
  if current = some target then (t, [])
  else
    let out := (t.unitAt target).toList.map fun v => RouteChange.detach v target
    let change := match current with
      | some source => RouteChange.move u source target
      | none => RouteChange.attach u target
    (t.place u target, out ++ [change])

def detach (t : AttachmentTable) (u : UnitHandle) : AttachmentTable × Option RouteChange :=
  (t.filter (·.1 ≠ u), (t.attachment u).map (RouteChange.detach u))

def detachTarget (t : AttachmentTable) (target : Target) : AttachmentTable × Option RouteChange :=
  (t.filter (·.2 ≠ target), (t.unitAt target).map (RouteChange.detach · target))

def detachEvent (t : AttachmentTable) (event : EventHandle) :
    AttachmentTable × Option RouteChange :=
  t.detachTarget (.event event)

end AttachmentTable

end Patchbay

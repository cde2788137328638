/-!
Bounded first-in first-out queues. A push that finds no room leaves what waits as it is.
-/

namespace Patchbay

structure Queue (α : Type) where
  capacity : Nat
  items : List α := []
  /-- What was pushed without room and is gone. -/
  lost : List α := []
  length_le : items.length ≤ capacity := by simp

namespace Queue

variable {α : Type}

/-- An empty queue whose places take so many bytes each, unless no memory has that many. -/
def ofCapacity? (bytes capacity : Nat) : Option (Queue α) :=
  if bytes * capacity < Nat.pow 2 63 then some { capacity } else none

def free (q : Queue α) : Nat := q.capacity - q.items.length

theorem length_append_le {q : Queue α} (a : α) (h : q.items.length < q.capacity) :
    (q.items ++ [a]).length ≤ q.capacity := by
  rw [List.length_append]
  exact h

def push? (q : Queue α) (a : α) : Option (Queue α) :=
  if h : q.items.length < q.capacity then
    some { q with items := q.items ++ [a], length_le := length_append_le a h }
  else none

/-- Pushes an item that is lost when there is no room. -/
def push (q : Queue α) (a : α) : Queue α := (q.push? a).getD { q with lost := q.lost ++ [a] }

def pop? (q : Queue α) : Option (α × Queue α) :=
  match h : q.items with
  | [] => none
  | a :: rest => some (a, { q with
      items := rest, length_le := by have := q.length_le; simp [h] at this; omega })

def drained (q : Queue α) : Queue α := { capacity := q.capacity, lost := q.lost }

theorem push_of_room {q : Queue α} (a : α) (h : q.items.length < q.capacity) :
    q.push a = { q with items := q.items ++ [a], length_le := length_append_le a h } := by
  simp [push, push?, h]

end Queue

end Patchbay

import Patchbay.Route.Handle

/-!
Slots for units. A slot keeps its generation when it is emptied and starts the next one, so a handle
names one unit only. Emptied slots are taken again, the latest first, before new ones are made.
-/

namespace Patchbay

structure UnitEntry (U : Type) where
  name : String
  unit : U
  /-- Whether the unit was given up and only waits for its audio half. -/
  releasing : Bool := false

structure UnitSlot (U : Type) where
  generation : UInt32 := 0
  entry : Option (UnitEntry U) := none

structure UnitStore (U : Type) where
  capacity : Nat
  slots : List (UnitSlot U) := []
  /-- Indices of emptied slots, the latest first. -/
  free : List Nat := []

namespace UnitStore

variable {U : Type}

/-- The slot of a handle, if it is of that generation. -/
def slot? (s : UnitStore U) (u : UnitHandle) : Option (UnitSlot U) :=
  s.slots[u.index]?.filter (·.generation = u.generation)

def get? (s : UnitStore U) (u : UnitHandle) : Option (UnitEntry U) := s.slot? u >>= (·.entry)

def live? (s : UnitStore U) (u : UnitHandle) : Option (UnitEntry U) :=
  (s.get? u).filter (!·.releasing)

def handleAt? (s : UnitStore U) (i : Nat) : Option UnitHandle :=
  s.slots[i]?.map fun slot => ⟨i, slot.generation⟩

def entries (s : UnitStore U) : List (UnitHandle × UnitEntry U) :=
  s.slots.zipIdx.filterMap fun (slot, i) => slot.entry.map (⟨i, slot.generation⟩, ·)

def liveCount (s : UnitStore U) : Nat := s.entries.countP (!·.2.releasing)

def releasingCount (s : UnitStore U) : Nat := s.entries.countP (·.2.releasing)

/-- Makes room for one unit: an emptied slot, or a new one below the capacity. -/
def allot? (s : UnitStore U) : Option (Nat × UnitStore U) :=
  match s.free with
  | i :: free => some (i, { s with free })
  | [] =>
    if s.slots.length < s.capacity then
      some (s.slots.length, { s with slots := s.slots ++ [{}] })
    else none

def insert? (s : UnitStore U) (name : String) (unit : U) : Option (UnitHandle × UnitStore U) := do
  let (i, s) ← s.allot?
  let u ← s.handleAt? i
  some (u, { s with slots := s.slots.modify i ({ · with entry := some { name, unit } }) })

def modifyAt (s : UnitStore U) (i : Nat) (f : UnitEntry U → UnitEntry U) : UnitStore U :=
  { s with slots := s.slots.modify i fun slot => { slot with entry := slot.entry.map f } }

def modify (s : UnitStore U) (u : UnitHandle) (f : UnitEntry U → UnitEntry U) : UnitStore U :=
  if (s.slot? u).isSome then s.modifyAt u.index f else s

def setUnit (s : UnitStore U) (u : UnitHandle) (unit : U) : UnitStore U :=
  s.modify u ({ · with unit })

def setReleasing (s : UnitStore U) (u : UnitHandle) : UnitStore U :=
  s.modify u ({ · with releasing := true })

def retire (s : UnitStore U) (u : UnitHandle) : UnitStore U :=
  match s.slot? u with
  | none => s
  | some slot => { s with
      slots := s.slots.set u.index { generation := slot.generation + 1 }
      free := u.index :: s.free }

end UnitStore

end Patchbay

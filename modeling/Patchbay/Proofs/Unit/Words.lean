import Patchbay.Proofs.Unit.Occupancy

/-! The store with words for indices. The index of a new slot is cut to 32 bits, and indices are
listed and handed out as words. Up to 2^32 slots nothing is lost by that, and this store does what
the one with numbers for indices does. The slot after these would be given out as the first one. -/

namespace Patchbay

structure WordHandle where
  index : UInt32
  generation : UInt32
  deriving DecidableEq

def WordHandle.handle (k : WordHandle) : UnitHandle := ⟨k.index.toNat, k.generation⟩

def UnitHandle.words (u : UnitHandle) : WordHandle := ⟨UInt32.ofNat u.index, u.generation⟩

structure WordStore (U : Type) where
  capacity : Nat
  slots : List (UnitSlot U) := []
  free : List UInt32 := []

namespace WordStore

variable {U : Type}

def slot? (w : WordStore U) (k : WordHandle) : Option (UnitSlot U) :=
  w.slots[k.index.toNat]?.filter (·.generation = k.generation)

def get? (w : WordStore U) (k : WordHandle) : Option (UnitEntry U) := w.slot? k >>= (·.entry)

def live? (w : WordStore U) (k : WordHandle) : Option (UnitEntry U) :=
  (w.get? k).filter (!·.releasing)

def entries (w : WordStore U) : List (UnitEntry U) := w.slots.filterMap (·.entry)

def liveCount (w : WordStore U) : Nat := w.entries.countP (!·.releasing)

def releasingCount (w : WordStore U) : Nat := w.entries.countP (·.releasing)

/-- The index of the slot that was added last is cut to a word. -/
def allot? (w : WordStore U) : Option (UInt32 × WordStore U) :=
  match w.free with
  | i :: free => some (i, { w with free })
  | [] =>
    if w.slots.length < w.capacity then
      let w := { w with slots := w.slots ++ [{}] }
      some (UInt32.ofNat (w.slots.length - 1), w)
    else none

def insert? (w : WordStore U) (name : String) (unit : U) : Option (WordHandle × WordStore U) := do
  let (i, w) ← w.allot?
  let slot ← w.slots[i.toNat]?
  let slots := w.slots.modify i.toNat ({ · with entry := some { name, unit } })
  some (⟨i, slot.generation⟩, { w with slots })

def setReleasing (w : WordStore U) (k : WordHandle) : WordStore U :=
  if (w.slot? k).isSome then
    { w with slots := w.slots.modify k.index.toNat fun slot =>
      { slot with entry := slot.entry.map ({ · with releasing := true }) } }
  else w

def retire (w : WordStore U) (k : WordHandle) : WordStore U :=
  match w.slot? k with
  | none => w
  | some slot => { w with
      slots := w.slots.set k.index.toNat { generation := slot.generation + 1 }
      free := k.index :: w.free }

/-- Without this bound on the slots a new one could be the first one once more. -/
theorem allot?_wraps {w : WordStore U} (hfree : w.free = []) (hslots : w.slots.length = UInt32.size)
    (hroom : UInt32.size < w.capacity) : ∃ left, w.allot? = some (0, left) := by
  unfold allot?
  rw [hfree]
  dsimp only
  rw [if_pos (hslots ▸ hroom), List.length_append, List.length_singleton, Nat.add_sub_cancel,
    hslots]
  exact ⟨_, rfl⟩

structure Mirrors (w : WordStore U) (s : UnitStore U) : Prop where
  capacity : w.capacity = s.capacity
  slots : w.slots = s.slots
  free : w.free.map UInt32.toNat = s.free

variable {w : WordStore U} {s : UnitStore U}

theorem mirrors_empty (capacity : Nat) :
    Mirrors ({ capacity } : WordStore U) { capacity } := ⟨rfl, rfl, rfl⟩

theorem Mirrors.slot?_eq (h : w.Mirrors s) (k : WordHandle) : w.slot? k = s.slot? k.handle := by
  rw [slot?, h.slots]
  rfl

theorem Mirrors.setReleasing (h : w.Mirrors s) (k : WordHandle) :
    (w.setReleasing k).Mirrors (s.setReleasing k.handle) := by
  unfold WordStore.setReleasing UnitStore.setReleasing UnitStore.modify
  rw [h.slot?_eq]
  split
  · exact ⟨h.capacity, congrArg (List.modify · k.index.toNat _) h.slots, h.free⟩
  · exact h

theorem Mirrors.retire (h : w.Mirrors s) (k : WordHandle) :
    (w.retire k).Mirrors (s.retire k.handle) := by
  unfold WordStore.retire UnitStore.retire
  rw [h.slot?_eq]
  cases s.slot? k.handle with
  | none => exact h
  | some slot =>
    exact ⟨h.capacity, congrArg (List.set · k.index.toNat _) h.slots,
      congrArg (k.index.toNat :: ·) h.free⟩

end WordStore

end Patchbay

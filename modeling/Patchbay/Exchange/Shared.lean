import Patchbay.Number.Written
import Patchbay.Text.ExtendingMark
import Patchbay.Text.Ignorable
import Patchbay.Text.Unprintable

/-!
Values that one thread stores and another loads whole. Two samples that belong together travel in
one word, so a reader never pairs halves of different stores.
-/

namespace Patchbay

class Inspect (α : Type) where
  inspect : α → String

export Inspect (inspect)

instance : Inspect UInt32 := ⟨toString⟩
instance : Inspect UInt64 := ⟨toString⟩
instance : Inspect Int32 := ⟨fun x => toString x.toInt⟩
instance : Inspect Int64 := ⟨fun x => toString x.toInt⟩
instance : Inspect Bool := ⟨toString⟩
instance : Inspect Sample := ⟨NumberStyle.inspected.write⟩
instance : Inspect Float := ⟨NumberStyle.inspected.writeWide⟩

/-- Characters that could not be seen in inspected text, or not apart from the one before. -/
def unseen : List CodeRanges := [.extendingMark, .ignorable, .unprintable]

def inspectChar (c : Char) : List Char :=
  if c = '"' then ['\\', '"']
  else if c = '\\' then ['\\', '\\']
  else if c = '\n' then ['\\', 'n']
  else if c = '\r' then ['\\', 'r']
  else if c = '\t' then ['\\', 't']
  else if c = '\x00' then ['\\', '0']
  else if unseen.any (·.has c) then
    ['\\', 'u', '\x7b'] ++ Nat.toDigits 16 c.toNat ++ ['\x7d']
  else [c]

instance : Inspect String :=
  ⟨fun s => "\"" ++ String.ofList (s.toList.flatMap inspectChar) ++ "\""⟩

/-- A shared field: each load gives the value of the latest store. -/
structure Shared (α : Type) where
  load : α
  deriving DecidableEq

namespace Shared

def store {α : Type} (_ : Shared α) (x : α) : Shared α := ⟨x⟩

@[simp] theorem load_store {α : Type} (s : Shared α) (x : α) : (s.store x).load = x := rfl

instance {α : Type} [Inspect α] : Inspect (Shared α) :=
  ⟨fun s => "Shared(" ++ inspect s.load ++ ")"⟩

end Shared

/-- Two samples in one word, the first in the high half. -/
def packPair (first second : Sample) : UInt64 :=
  first.toBits.toUInt64 <<< 32 ||| second.toBits.toUInt64

def unpackPair (word : UInt64) : Sample × Sample :=
  (.ofBits (word >>> 32).toUInt32, .ofBits word.toUInt32)

end Patchbay

import Patchbay.Number.Sample

/-!
Decimal numbers as they are read: a digit string with a power of ten. Reading rounds once, to the
nearest binary number of the format asked for, ties to even.
-/

namespace Patchbay

open Float.Model

/-- The number (-1)^negative · coefficient · 10^exponent. -/
structure Decimal where
  negative : Bool
  coefficient : Nat
  exponent : Int
  deriving DecidableEq, Repr

namespace Decimal

def ofDigits (ds : List Char) : Nat :=
  ds.foldl (fun n d => 10 * n + (d.toNat - '0'.toNat)) 0

def ofParts (negative : Bool) (whole fraction : List Char) (power : Int) : Decimal :=
  ⟨negative, ofDigits (whole ++ fraction), power - fraction.length⟩

def stripZeros : Nat → Nat → Int → Nat × Int
  | 0, c, e => (c, e)
  | k + 1, c, e => if c % 10 = 0 then stripZeros k (c / 10) (e + 1) else (c, e)

def unpacked (f : Format) (d : Decimal) : UnpackedFloat :=
  let u := UnpackedFloat.ofScientific f d.coefficient d.exponent
  if d.negative then u.neg else u

def toFloat (d : Decimal) : Float :=
  .ofBits ⟨UnpackedFloat.pack .binary64 (d.unpacked .binary64)⟩

def toSample (d : Decimal) : Sample :=
  .ofBits ⟨UnpackedFloat.pack .binary32 (d.unpacked .binary32)⟩

end Decimal

def Sample.ofNat (n : Nat) : Sample := (Decimal.mk false n 0).toSample

end Patchbay

import Patchbay.Number.Shortest
import Patchbay.Number.Decimal

/-!
How numbers are written. A style says which decimal exponents are written positionally, whether
a whole number keeps a point and a zero, how the special values look, and which way a tie goes;
the digits are always the shortest that read back. Fixed places round the exact value instead.
-/

namespace Patchbay

open Float.Model

def digitsOf (n : Nat) : List Char := Nat.toDigits 10 n

/-- A way of writing numbers. A decimal `d.ddd · 10^x` is positional when `low ≤ x < high`. -/
structure NumberStyle where
  low : Int
  high : Int
  pointZero : Bool
  tie : Tie
  nan : String
  infinity : String
  minusInfinity : String

namespace NumberStyle

/-- Plain text in messages and files: always positional, whole numbers without a point. -/
def plain : NumberStyle := ⟨-400, 400, false, .up, "NaN", "inf", "-inf"⟩

/-- As plain text, but a whole number keeps its point. -/
def pointed : NumberStyle := ⟨-400, 400, true, .up, "nan", "inf", "-inf"⟩

/-- Inspection text: positional from 10^-4 up to, not including, 10^16. -/
def inspected : NumberStyle := ⟨-4, 16, true, .up, "NaN", "inf", "-inf"⟩

/-- Report text: positional from 10^-5 up to, not including, 10^13; there is no text for what is
not a number, and a null stands for it. -/
def reported : NumberStyle := ⟨-5, 13, true, .even, "null", "null", "null"⟩

/-- Writes `coefficient · 10^power`, the coefficient without trailing zeros. -/
def layout (s : NumberStyle) (coefficient : Nat) (power : Int) : List Char :=
  let ds := digitsOf coefficient
  let lead := power + ds.length - 1
  if s.low ≤ lead ∧ lead < s.high then
    if 0 ≤ power then
      ds ++ List.replicate power.toNat '0' ++ if s.pointZero then ['.', '0'] else []
    else
      let places := (-power).toNat
      let padded := List.replicate (places + 1 - ds.length) '0' ++ ds
      padded.take (padded.length - places) ++ '.' :: padded.drop (padded.length - places)
  else
    let mark := 'e' :: (toString lead).toList
    match ds with
    | d :: r@(_ :: _) => d :: '.' :: (r ++ mark)
    | _ => ds ++ mark

def text (s : NumberStyle) (f : Format) : UnpackedFloat → String
  | .notANumber => s.nan
  | .infinity .positive => s.infinity
  | .infinity .negative => s.minusInfinity
  | .zero sign => signed sign (s.layout 0 0)
  | .finite sign m e _ =>
    let (c, p) := Shortest.decimal f s.tie m e
    let (c, p) := Decimal.stripZeros 40 c p
    signed sign (s.layout c p)
where
  signed (sign : UnpackedFloat.Sign) (text : List Char) : String :=
    String.ofList (if sign == .negative then '-' :: text else text)

def write (s : NumberStyle) (x : Sample) : String := s.text .binary32 x.unpacked

def writeWide (s : NumberStyle) (x : Float) : String :=
  s.text .binary64 (UnpackedFloat.unpack .binary64 x.toBits.toBitVec)

end NumberStyle

namespace Sample

def toText (x : Sample) : String := NumberStyle.plain.write x

/-- A sample with a fixed number of places, the exact value rounded half to even. -/
def toFixed (places : Nat) (x : Sample) : String :=
  match x.unpacked with
  | .notANumber => "NaN"
  | .infinity sign => if sign == .negative then "-inf" else "inf"
  | .zero sign => signed sign 0
  | .finite sign m e _ =>
    let num := m * Nat.pow 2 e.toNat * Nat.pow 10 places
    signed sign (roundDiv .even num (Nat.pow 2 (-e).toNat))
where
  signed (sign : UnpackedFloat.Sign) (scaled : Nat) : String :=
    let ds := digitsOf scaled
    let padded := List.replicate (places + 1 - ds.length) '0' ++ ds
    let text := padded.take (padded.length - places) ++ '.' :: padded.drop (padded.length - places)
    String.ofList (if sign == .negative then '-' :: text else text)

end Sample

end Patchbay

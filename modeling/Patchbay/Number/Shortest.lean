import Patchbay.Number.Sample

/-!
The shortest decimal that reads back. A finite binary number lies inside the interval of reals that
round to it; the coarsest grid of powers of ten with a point in that interval gives the fewest
digits, and of its points the one nearest to the number is taken.
-/

namespace Patchbay

open Float.Model

/-- Which way a value goes that lies exactly between two grid points. -/
inductive Tie
  | up
  | even
  deriving DecidableEq, Repr

def roundDiv (tie : Tie) (num den : Nat) : Nat :=
  let q := num / den
  let r := 2 * (num % den)
  if r < den then q
  else if den < r then q + 1
  else match tie with
    | .up => q + 1
    | .even => q + q % 2

/-- Reals that round to one binary number, as multiples of `unit / den`: from `lo` to `hi` around
`mid`. The ends belong to it when the mantissa is even. -/
structure RoundingInterval where
  unit : Nat
  den : Nat
  lo : Nat
  mid : Nat
  hi : Nat
  closed : Bool
  deriving Repr

namespace RoundingInterval

/-- Around m · 2^e. Below a power of two the neighbours are half as far apart, unless the exponent
is the least one. -/
def around (f : Format) (m : Nat) (e : Int) : RoundingInterval where
  unit := Nat.pow 2 (e - 2).toNat
  den := Nat.pow 2 (2 - e).toNat
  lo := 4 * m - if m = Nat.pow 2 f.mantissaBitsWithoutImplicit ∧ f.minExponent < e then 1 else 2
  mid := 4 * m
  hi := 4 * m + 2
  closed := m % 2 = 0

def contains (i : RoundingInterval) (j : Nat) (p : Int) : Bool :=
  let point := j * Nat.pow 10 p.toNat * i.den
  let scale := i.unit * Nat.pow 10 (-p).toNat
  if i.closed then i.lo * scale ≤ point && point ≤ i.hi * scale
  else i.lo * scale < point && point < i.hi * scale

/-- The nearest point of the grid `10^p` that lies in the interval, if one does. -/
def onGrid? (i : RoundingInterval) (tie : Tie) (p : Int) : Option Nat :=
  let num := i.mid * i.unit * Nat.pow 10 (-p).toNat
  let den := i.den * Nat.pow 10 p.toNat
  let near := roundDiv tie num den
  let floor := num / den
  let other := if near = floor then floor + 1 else floor
  if i.contains near p then some near
  else if i.contains other p then some other
  else none

end RoundingInterval

namespace Shortest

/-- The grids to try, coarsest first: from above every number of the format down to below the
finest spacing, both by 31/100 > log 2 / log 10. -/
def grids (f : Format) : List Int :=
  let top := Nat.pow 2 (f.exponentBits - 1) * 31 / 100
  let bottom := (-f.minExponent).toNat * 31 / 100
  (List.range (top + bottom + 1)).map fun (i : Nat) => (top : Int) - i

/-- The coefficient and power of ten of the shortest decimal for the number m · 2^e. -/
def decimal (f : Format) (tie : Tie) (m : Nat) (e : Int) : Nat × Int :=
  let i := RoundingInterval.around f m e
  ((grids f).findSome? fun p => (i.onGrid? tie p).map (·, p)).getD (0, 0)

end Shortest

end Patchbay

import Patchbay.Number.Sample

/-!
The sine of a sample, rounded to the nearest sample. The argument is exact in fixed point, is
brought to at most a quarter turn off a multiple of π/2, and goes through the power series with 120
bits after the point, about a hundred more than a sample keeps.
-/

namespace Patchbay

namespace Sine

def wide : Nat := 300

def places : Nat := 120

/-- π/2 in units of 2^-300, rounded down. -/
def halfPi : Nat :=
  0x1921fb54442d18469898cc51701b839a252049c1114cf98e804177d4c76273644a29410f31c6

/-- 1/k! in units of 2^-120, rounded down. -/
def overFactorial (k : Nat) : Nat :=
  Nat.pow 2 places / (List.range k).foldl (fun p i => p * (i + 1)) 1

/-- Coefficients of x, -x³, x⁵ and so on. -/
def sineCoefficients : List Nat := (List.range 16).map fun i => overFactorial (2 * i + 1)

/-- Coefficients of 1, -x², x⁴ and so on. -/
def cosineCoefficients : List Nat := (List.range 16).map fun i => overFactorial (2 * i)

/-- c₀ - x² · (c₁ - x² · (c₂ - …)), given x². -/
def series (square : Nat) (cs : List Nat) : Nat :=
  cs.foldr (fun c rest => c - (square * rest) >>> places) 0

def sin (x : Nat) : Nat := (x * series ((x * x) >>> places) sineCoefficients) >>> places

def cos (x : Nat) : Nat := series ((x * x) >>> places) cosineCoefficients

/-- The sine of `t`, in units of 2^-300, as a number of units of 2^-120. -/
def ofFixed (t : Nat) : Int :=
  let turns := (2 * t + halfPi) / (2 * halfPi)
  let rest : Int := t - turns * halfPi
  let x := rest.natAbs >>> (wide - places)
  let sine : Int := if rest < 0 then -(sin x : Int) else sin x
  match turns % 4 with
  | 0 => sine
  | 1 => cos x
  | 2 => -sine
  | _ => -(cos x : Int)

/-- Drops all but the highest 41 bits of a number, the last of them set if any dropped bit was: to
fewer bits it rounds as the number itself does. Gives the number of bits dropped, too. -/
def jam (n : Nat) : Nat × Nat :=
  let k := n.log2 - 40
  (n >>> k ||| if n % Nat.pow 2 k = 0 then 0 else 1, k)

end Sine

namespace Sample

/-- The sine, rounded to the nearest sample; an infinity has none. Below 2^-13 it rounds to the
argument itself. -/
def sin (x : Sample) : Sample :=
  match x.unpacked with
  | .notANumber => x
  | .infinity _ => x - x
  | .zero _ => x
  | .finite s m e _ =>
    if (m.log2 : Int) + e < -13 then x
    else
      let y := Sine.ofFixed (m <<< (e + Sine.wide).toNat)
      let (n, k) := Sine.jam y.natAbs
      if h : 0 < n then ofUnpacked (.finite (if y < 0 then -s else s) n (k - Sine.places) h)
      else ofUnpacked (.zero s)

def tau : Sample := .ofBits 0x40C90FDB

end Sample

end Patchbay

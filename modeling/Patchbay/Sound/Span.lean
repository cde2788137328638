import Patchbay.Number.Written

/-!
Time spans in whole nanoseconds. A span made from seconds is the nearest one, ties to even; a number
that is negative, not finite or at least 2^64 seconds long makes none.
-/

namespace Patchbay

open Float.Model

structure Span where
  nanos : Nat
  deriving DecidableEq, Repr

namespace Span

def perSecond : Nat := 1000000000

def seconds (s : Span) : Nat := s.nanos / perSecond

def subsecond (s : Span) : Nat := s.nanos % perSecond

def nearest (m : Nat) (e : Int) : Span :=
  ⟨roundDiv .even (m * Nat.pow 2 e.toNat * perSecond) (Nat.pow 2 (-e).toNat)⟩

def ofUnpacked? : UnpackedFloat → Option Span
  | .zero _ => some ⟨0⟩
  | .finite .positive m e _ =>
    let s := nearest m e
    if s.seconds < Nat.pow 2 64 then some s else none
  | _ => none

def ofSeconds? (x : Float) : Option Span :=
  ofUnpacked? (UnpackedFloat.unpack .binary64 x.toBits.toBitVec)

def toSample (s : Span) : Sample :=
  Sample.ofNat s.seconds + Sample.ofNat s.subsecond / Sample.ofNat perSecond

end Span

end Patchbay

/-!
Samples are binary32 numbers. This module adds what the arithmetic of the core type leaves open:
widening to binary64, narrowing back, the integral part, and the clamping and comparing rules that
decide what happens to a NaN.
-/

namespace Patchbay

open Float.Model

abbrev Sample := Float32

namespace Sample

/-- Rounds an unpacked number to the nearest sample, ties to even. -/
def ofUnpacked : UnpackedFloat → Sample
  | .finite s m e _ =>
    .ofBits ⟨UnpackedFloat.pack .binary32 (UnpackedFloat.round .binary32 s m e)⟩
  | u => .ofBits ⟨UnpackedFloat.pack .binary32 u⟩

def unpacked (x : Sample) : UnpackedFloat :=
  UnpackedFloat.unpack .binary32 x.toBits.toBitVec

/-- Every sample is a binary64 number, so widening is exact. -/
def widen (x : Sample) : Float :=
  match x.unpacked with
  | .finite s m e _ => .ofBits ⟨UnpackedFloat.pack .binary64 (UnpackedFloat.round .binary64 s m e)⟩
  | u => .ofBits ⟨UnpackedFloat.pack .binary64 u⟩

/-- The nearest sample to a binary64 number, ties to even; what is too large becomes infinite. -/
def narrow (x : Float) : Sample :=
  ofUnpacked (UnpackedFloat.unpack .binary64 x.toBits.toBitVec)

/-- The integral part, rounded toward zero. -/
def trunc (x : Sample) : Sample :=
  match x.unpacked with
  | .finite s m (.negSucc k) _ =>
    if h : 0 < m >>> (k + 1) then ofUnpacked (.finite s (m >>> (k + 1)) 0 h)
    else ofUnpacked (.zero s)
  | _ => x

/-- What the integral part leaves; it keeps the sign, and an infinity has none. -/
def fract (x : Sample) : Sample := x - x.trunc

/-- A NaN lies below no bound and above none, so it stays. -/
def clamp (x lo hi : Sample) : Sample :=
  if x < lo then lo else if hi < x then hi else x

/-- The larger of a level and the magnitude of a sample; a NaN leaves the level as it is. -/
def louder (level x : Sample) : Sample :=
  if level < x.abs then x.abs else level

def peak (xs : List Sample) : Sample := xs.foldl louder 0

end Sample

end Patchbay

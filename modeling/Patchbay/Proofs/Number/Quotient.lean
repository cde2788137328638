import Patchbay.Proofs.Number.Narrowing

/-! Quotients of binary64 numbers. What is a whole number of few bits, or a sample, is there exactly;
a quotient of such numbers is rounded once, and so lies within 2^-53 of its own size of the true
one. -/

namespace Patchbay

open Float.Model Float.Model.UnpackedFloat

def magnitude (m : ℕ) (e : ℤ) : ℚ := m * 2 ^ e

def Exactly (x : Float) (q : ℚ) : Prop :=
  ∃ (m : ℕ) (e : ℤ) (hm : Normal .binary64 m),
    UnpackedFloat.unpack .binary64 x.toBits.toBitVec = .finite .positive m e hm.pos ∧
      magnitude m e = q

/-- A binary64 number that is positive, normal and as near to this as rounding once brings it. -/
def Near (x : Float) (q : ℚ) : Prop :=
  ∃ (m : ℕ) (e : ℤ) (hm : Normal .binary64 m),
    UnpackedFloat.unpack .binary64 x.toBits.toBitVec = .finite .positive m e hm.pos ∧
      2 ^ 53 * |magnitude m e - q| ≤ magnitude m e

/-! Magnitudes. -/

theorem magnitude_mul_two_pow (m k : ℕ) (e : ℤ) :
    magnitude (m * 2 ^ k) e = magnitude m (e + k) := by
  unfold magnitude
  rw [zpow_add₀ two_ne_zero, zpow_natCast]
  push_cast
  ring

theorem magnitude_mul (m : ℕ) (e : ℤ) :
    magnitude m e * (2 ^ (-e).toNat : ℕ) = (m * 2 ^ e.toNat : ℕ) := by
  unfold magnitude
  push_cast
  rw [← zpow_natCast, ← zpow_natCast, mul_assoc, ← zpow_add₀ two_ne_zero]
  congr 2
  omega

theorem two_zpow_log2_le {m : ℕ} (hm : 0 < m) (e : ℤ) :
    (2 : ℚ) ^ (e + m.log2) ≤ magnitude m e := by
  unfold magnitude
  rw [add_comm, zpow_add₀ two_ne_zero, zpow_natCast]
  gcongr
  exact_mod_cast ((Nat.log2_eq_iff hm.ne').mp rfl).1

theorem magnitude_lt_two_zpow_log2 (m : ℕ) (e : ℤ) : magnitude m e < 2 ^ (e + m.log2 + 1) := by
  unfold magnitude
  rw [add_assoc, add_comm e, zpow_add₀ two_ne_zero]
  gcongr
  exact_mod_cast Nat.lt_log2_self

section Normal

variable {f : Format} {m : ℕ} (hm : Normal f m) {e p : ℤ}
include hm

theorem Normal.magnitude_pos : 0 < magnitude m e :=
  mul_pos (Nat.cast_pos.mpr hm.pos) (zpow_pos two_pos e)

theorem Normal.two_zpow_le_magnitude :
    (2 : ℚ) ^ (e + f.mantissaBitsWithoutImplicit) ≤ magnitude m e :=
  hm.log2_eq ▸ two_zpow_log2_le hm.pos e

theorem Normal.magnitude_lt_two_zpow :
    magnitude m e < (2 : ℚ) ^ (e + f.mantissaBitsWithoutImplicit + 1) :=
  hm.log2_eq ▸ magnitude_lt_two_zpow_log2 m e

theorem Normal.lt_of_magnitude_lt (h : magnitude m e < 2 ^ p) :
    e + f.mantissaBitsWithoutImplicit < p :=
  (zpow_lt_zpow_iff_right₀ one_lt_two).mp (hm.two_zpow_le_magnitude.trans_lt h)

theorem Normal.lt_of_le_magnitude (h : 2 ^ p ≤ magnitude m e) :
    p < e + f.mantissaBitsWithoutImplicit + 1 :=
  (zpow_lt_zpow_iff_right₀ one_lt_two).mp (h.trans_lt hm.magnitude_lt_two_zpow)

end Normal

theorem bounds_of_near {v q : ℚ} {k : ℕ} (hk : 0 < k) (h : 2 ^ k * |v - q| ≤ v) :
    q ≤ 2 * v ∧ v ≤ 2 * q := by
  have htwo : (2 : ℚ) ≤ 2 ^ k := le_self_pow₀ one_le_two hk.ne'
  have hnear : 2 * |v - q| ≤ v := (mul_le_mul_of_nonneg_right htwo (abs_nonneg _)).trans h
  have hhigh := le_abs_self (v - q)
  have hlow := neg_abs_le (v - q)
  constructor <;> linarith

/-! Numbers that rounding leaves as they are. -/

theorem roundDiv_one (tie : Tie) (n : ℕ) : roundDiv tie n 1 = n := by
  simp [roundDiv, Nat.mod_one]

theorem roundWithAccuracy_exact {f : Format} (s : Sign) {m n : ℕ} {e : ℤ} (hm : Normal f m)
    (hmin : f.minExponent ≤ e + n) :
    roundWithAccuracy f s (m * 2 ^ n) e .exact = .finite s m (e + n) hm.pos := by
  have hlog : (m * 2 ^ n / 1).log2 = f.mantissaBitsWithoutImplicit + n := by
    rw [Nat.div_one, hm.log2_mul_two_pow]
  obtain ⟨r, j, hr, hround, hnormal, hvalue⟩ := roundWithAccuracy_normal f s one_pos hlog hmin
  rw [Nat.div_one, Nat.mod_one] at hround
  rw [Nat.mul_comm m, roundDiv_mul_left .even (Nat.two_pow_pos n), roundDiv_one,
    ← Nat.mul_one m, ← Nat.pow_zero 2] at hvalue
  obtain ⟨rfl, rfl⟩ := hnormal.eq_of_mul_two_pow hm hvalue
  refine hround.trans ?_
  congr 1
  simp

theorem normal_shifted {f : Format} {n : ℕ} (hn : 0 < n)
    (hlt : n < 2 ^ (f.mantissaBitsWithoutImplicit + 1)) :
    Normal f (n * 2 ^ (f.mantissaBitsWithoutImplicit - n.log2)) := by
  have hlog := (Nat.log2_lt hn.ne').mpr hlt
  obtain ⟨hle, hlt⟩ := (Nat.log2_eq_iff hn.ne').mp rfl
  have hpos := Nat.two_pow_pos (f.mantissaBitsWithoutImplicit - n.log2)
  constructor
  · calc 2 ^ f.mantissaBitsWithoutImplicit
        = 2 ^ n.log2 * 2 ^ (f.mantissaBitsWithoutImplicit - n.log2) := by
          rw [← Nat.pow_add, Nat.add_sub_cancel' (by omega)]
      _ ≤ _ := Nat.mul_le_mul_right _ hle
  · calc n * 2 ^ (f.mantissaBitsWithoutImplicit - n.log2)
        < 2 ^ (n.log2 + 1) * 2 ^ (f.mantissaBitsWithoutImplicit - n.log2) :=
          Nat.mul_lt_mul_of_pos_right hlt hpos
      _ = _ := by
        rw [← Nat.pow_add]
        congr 1
        omega

theorem exactly_one : Exactly 1 1 :=
  ⟨2 ^ 52, -52, ⟨le_rfl, by decide⟩, rfl, by norm_num [magnitude]⟩

theorem exactly_toFloat {n : ℕ} (hn : 0 < n) (hlt : n < 2 ^ 53) :
    Exactly (Decimal.mk false n 0).toFloat n := by
  have hlog := (Nat.log2_lt hn.ne').mpr hlt
  have hm := normal_shifted (f := .binary64) hn hlt
  have hmin : Format.binary64.minExponent = -1074 := rfl
  have hbits : Format.binary64.mantissaBits = 53 := rfl
  have hshifted : n * 2 ^ 53 = n * 2 ^ (52 - n.log2) * 2 ^ (n.log2 + 1) := by
    rw [Nat.mul_assoc, ← Nat.pow_add]
    congr 2
    omega
  have hread : (Decimal.mk false n 0).unpacked .binary64 =
      .finite .positive _ (-53 + (n.log2 + 1 : ℕ)) hm.pos := by
    rw [← roundWithAccuracy_exact .positive hm (by omega), ← hshifted]
    exact Decimal.unpacked_whole .binary64 hn
  refine ⟨_, _, hm, Decimal.unpack_toFloat hm hread (by omega) (by omega), ?_⟩
  have hunit : (-53 + (n.log2 + 1 : ℕ) + (52 - n.log2 : ℕ) : ℤ) = 0 := by omega
  rw [magnitude_mul_two_pow, hunit, magnitude, zpow_zero, mul_one]

theorem exactly_widen {x : Sample} {m a : ℕ} (hm : Normal .binary32 m)
    (hx : x.unpacked = .finite .positive m (2 - a) hm.pos) (ha : a ≤ 150) :
    Exactly x.widen (magnitude m (2 - a)) := by
  have hlog : m.log2 = 23 := hm.log2_eq
  have hwide := normal_shifted (f := .binary64) hm.pos (hm.lt.trans (by decide))
  rw [hlog] at hwide
  change Normal .binary64 (m * 2 ^ 29) at hwide
  have hmin : Format.binary64.minExponent = -1074 := rfl
  have hbits : Format.binary64.mantissaBits = 53 := rfl
  have hbias : (Format.binary64.exponentBias : ℤ) + (52 : ℕ) = 1075 := rfl
  have hshift : ((2 - a : ℤ) -
      Format.binary64.targetExponent (totalExponent m (2 - a))).toNat = 29 := by
    unfold Format.targetExponent totalExponent
    omega
  have hexact := roundWithAccuracy_exact .positive (n := 0) (e := 2 - a - 29) hwide (by omega)
  have hround : UnpackedFloat.round .binary64 .positive m (2 - a) =
      .finite .positive (m * 2 ^ 29) (2 - a - 29) hwide.pos := by
    unfold UnpackedFloat.round decreaseExponent
    simp only [hshift, Nat.shiftLeft_eq]
    simpa using hexact
  have hword := unpack_pack_normal (s := .positive) (e := 2 - a - 29) hwide
    (by simp only [add_assoc, hbias]; omega) (by simp only [add_assoc, hbias]; omega)
  refine ⟨m * 2 ^ 29, 2 - a - 29, hwide, ?_, ?_⟩
  · unfold Sample.widen
    rw [hx]
    dsimp only
    rw [hround]
    show UnpackedFloat.unpack .binary64 (UnpackedFloat.pack .binary64 (UnpackedFloat.unpack
      .binary64 (UnpackedFloat.pack .binary64 _))) = _
    rw [hword, hword]
  · rw [magnitude_mul_two_pow]
    congr 1
    omega

/-! Division. -/

/-- A quotient of normal numbers, if normal too, is rounded by at most half a unit in the last
place. -/
theorem exists_div_near {f : Format} {a b : ℕ} {d e : ℤ} (ha : Normal f a) (hb : Normal f b)
    (hlow : f.minExponent + f.mantissaBits ≤ d - e) :
    ∃ (m : ℕ) (x : ℤ) (hm : Normal f m),
      UnpackedFloat.div f (.finite .positive a d ha.pos) (.finite .positive b e hb.pos) =
          .finite .positive m x hm.pos ∧
        2 ^ (f.mantissaBitsWithoutImplicit + 1) * |magnitude m x - magnitude a d / magnitude b e| ≤
          magnitude m x := by
  obtain ⟨m, w, j, hm, hdiv, hnormal, hvalue⟩ := div_normal f d e ha.pos hb.pos
    (by rw [ha.log2_eq, hb.log2_eq]; omega)
    (by rw [ha.log2_eq, hb.log2_eq, Format.mantissaBits]; omega)
  refine ⟨m, _, hnormal, hdiv, ?_⟩
  obtain ⟨hlow, hhigh⟩ := roundDiv_near hb.pos .even (2 ^ w * a)
  rw [← hvalue] at hlow hhigh
  have hb' : (0 : ℚ) < b := Nat.cast_pos.mpr hb.pos
  have hscale : (0 : ℚ) < 2 ^ (d - e - w) := zpow_pos two_pos _
  have hrounded : magnitude m (d - e + (j - w)) = (m * 2 ^ j : ℕ) * 2 ^ (d - e - w) := by
    rw [← magnitude, magnitude_mul_two_pow]
    congr 1
    omega
  have hexact : magnitude a d / magnitude b e = (2 ^ w * a : ℕ) / b * 2 ^ (d - e - w) := by
    unfold magnitude
    rw [zpow_sub₀ two_ne_zero, zpow_sub₀ two_ne_zero, zpow_natCast]
    push_cast
    field_simp
  rw [hrounded, hexact, ← sub_mul, abs_mul, abs_of_pos hscale, ← mul_assoc]
  refine mul_le_mul_of_nonneg_right ?_ hscale.le
  have hhalf : |((m * 2 ^ j : ℕ) : ℚ) - (2 ^ w * a : ℕ) / b| ≤ 1 / 2 := by
    have hlow : 2 * ((2 ^ w * a : ℕ) : ℚ) ≤ 2 * (b * (m * 2 ^ j : ℕ)) + b := by
      exact_mod_cast hlow
    have hhigh : 2 * (b * ((m * 2 ^ j : ℕ) : ℚ)) ≤ 2 * (2 ^ w * a : ℕ) + b := by
      exact_mod_cast hhigh
    have hquotient : ((2 ^ w * a : ℕ) : ℚ) / b * b = (2 ^ w * a : ℕ) := div_mul_cancel₀ _ hb'.ne'
    rw [abs_le]
    constructor <;> nlinarith only [hlow, hhigh, hquotient, hb']
  have hsize : ((2 ^ f.mantissaBitsWithoutImplicit : ℕ) : ℚ) ≤ (m * 2 ^ j : ℕ) :=
    Nat.cast_le.mpr (hnormal.le.trans (Nat.le_mul_of_pos_right m (Nat.two_pow_pos j)))
  calc 2 ^ (f.mantissaBitsWithoutImplicit + 1) * |((m * 2 ^ j : ℕ) : ℚ) - (2 ^ w * a : ℕ) / b|
      ≤ 2 ^ (f.mantissaBitsWithoutImplicit + 1) * (1 / 2) := by gcongr
    _ = (2 ^ f.mantissaBitsWithoutImplicit : ℕ) := by push_cast; ring
    _ ≤ (m * 2 ^ j : ℕ) := hsize

theorem Exactly.div {x y : Float} {p q : ℚ} (hx : Exactly x p) (hy : Exactly y q)
    (hlow : 2 ^ (-100 : ℤ) ≤ p / q) (hhigh : p / q ≤ 2 ^ (100 : ℤ)) : Near (x / y) (p / q) := by
  obtain ⟨a, d, ha, hx, rfl⟩ := hx
  obtain ⟨b, e, hb, hy, rfl⟩ := hy
  have hmin : Format.binary64.minExponent + Format.binary64.mantissaBits = -1021 := rfl
  have hfraction : Format.binary64.mantissaBitsWithoutImplicit = 52 := rfl
  have hbias : (Format.binary64.exponentBias : ℤ) + (52 : ℕ) = 1075 := rfl
  have hexponents : -100 < d - e + 1 := by
    rw [← zpow_lt_zpow_iff_right₀ (one_lt_two (α := ℚ))]
    calc (2 : ℚ) ^ (-100 : ℤ) ≤ magnitude a d / magnitude b e := hlow
      _ < 2 ^ (d + Format.binary64.mantissaBitsWithoutImplicit + 1) /
          2 ^ (e + Format.binary64.mantissaBitsWithoutImplicit) :=
        div_lt_div₀ ha.magnitude_lt_two_zpow hb.two_zpow_le_magnitude
          (zpow_pos two_pos _).le (zpow_pos two_pos _)
      _ = 2 ^ (d - e + 1) := by
        rw [← zpow_sub₀ two_ne_zero]
        congr 1
        omega
  obtain ⟨m, r, hm, hdiv, hnear⟩ := exists_div_near (d := d) (e := e) ha hb (by omega)
  obtain ⟨hle, hge⟩ := bounds_of_near (by decide) hnear
  norm_num at hlow hhigh
  have hbelow := hm.lt_of_le_magnitude (e := r) (p := -101) (by norm_num; linarith)
  have habove := hm.lt_of_magnitude_lt (e := r) (p := 102) (by norm_num; linarith)
  refine ⟨m, r, hm, ?_, hnear⟩
  show UnpackedFloat.unpack .binary64 (UnpackedFloat.pack .binary64 (UnpackedFloat.div .binary64
    (UnpackedFloat.unpack .binary64 x.toBits.toBitVec)
    (UnpackedFloat.unpack .binary64 y.toBits.toBitVec))) = _
  rw [hx, hy, hdiv]
  apply unpack_pack_normal hm <;> simp only [add_assoc, hbias] <;> omega

end Patchbay

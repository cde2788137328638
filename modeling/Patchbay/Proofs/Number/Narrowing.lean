import Patchbay.Number.Decimal
import Patchbay.Proofs.Number.Rounding

/-! Rounding twice. A decimal is read as a binary64 number, which is then rounded to a sample. The
ends of the interval that rounds to a sample are binary64 numbers themselves, so the first rounding
does not cross them, and a decimal of few places that is no end lies further from the ends than the
first rounding moves it. -/

namespace Patchbay

open Float.Model Float.Model.UnpackedFloat

theorem roundDiv_mul_left (tie : Tie) {c : Nat} (hc : 0 < c) (num den : Nat) :
    roundDiv tie (c * num) (c * den) = roundDiv tie num den := by
  have hlow : 2 * (c * (num % den)) < c * den ↔ 2 * (num % den) < den := by
    rw [Nat.mul_left_comm, Nat.mul_lt_mul_left hc]
  have hhigh : c * den < 2 * (c * (num % den)) ↔ den < 2 * (num % den) := by
    rw [Nat.mul_left_comm, Nat.mul_lt_mul_left hc]
  unfold roundDiv
  simp only [Nat.mul_div_mul_left _ _ hc, Nat.mul_mod_mul_left, hlow, hhigh]

theorem log2_shifted_div {k u a b : Nat} (ha : 0 < a) (hb : 0 < b)
    (hu : a.log2 + u = b.log2 + k + 1) :
    ∃ n ≤ 1, (2 ^ u * a / b).log2 = k + n := by
  obtain ⟨hale, halt⟩ := (Nat.log2_eq_iff ha.ne').mp rfl
  obtain ⟨hble, hblt⟩ := (Nat.log2_eq_iff hb.ne').mp rfl
  have hle : 2 ^ k ≤ 2 ^ u * a / b := by
    rw [Nat.le_div_iff_mul_le hb]
    calc 2 ^ k * b ≤ 2 ^ k * 2 ^ (b.log2 + 1) := Nat.mul_le_mul_left _ hblt.le
      _ = 2 ^ u * 2 ^ a.log2 := by rw [← Nat.pow_add, ← Nat.pow_add]; congr 1; omega
      _ ≤ 2 ^ u * a := Nat.mul_le_mul_left _ hale
  have hlt : 2 ^ u * a / b < 2 ^ (k + 2) := by
    rw [Nat.div_lt_iff_lt_mul hb]
    calc 2 ^ u * a < 2 ^ u * 2 ^ (a.log2 + 1) := Nat.mul_lt_mul_of_pos_left halt (by positivity)
      _ = 2 ^ (k + 2) * 2 ^ b.log2 := by rw [← Nat.pow_add, ← Nat.pow_add]; congr 1; omega
      _ ≤ 2 ^ (k + 2) * b := Nat.mul_le_mul_left _ hble
  have hpos : 2 ^ u * a / b ≠ 0 := (Nat.lt_of_lt_of_le (Nat.two_pow_pos k) hle).ne'
  refine ⟨(2 ^ u * a / b).log2 - k, ?_, ?_⟩
  · have := (Nat.log2_lt hpos).mpr hlt
    omega
  · have := (Nat.le_log2 hpos).mpr hle
    omega

theorem div_normal (f : Format) {a b : Nat} (d e : Int) (ha : 0 < a) (hb : 0 < b)
    (hlow : f.minExponent + f.mantissaBits ≤ (a.log2 + d) - (b.log2 + e))
    (hhigh : (a.log2 : Int) - b.log2 < f.mantissaBits) :
    ∃ (m w j : Nat) (hm : 0 < m),
      UnpackedFloat.div f (.finite .positive a d ha) (.finite .positive b e hb) =
          .finite .positive m (d - e + (j - w)) hm ∧
        Normal f m ∧ m * 2 ^ j = roundDiv .even (2 ^ w * a) b := by
  obtain ⟨u, hu⟩ := Int.eq_ofNat_of_zero_le (Int.sub_nonneg.mpr hhigh.le)
  have hbits : (f.mantissaBits : Int) = f.mantissaBitsWithoutImplicit + 1 := by
    simp [Format.mantissaBits, add_comm]
  obtain ⟨n, hn, hlog⟩ := log2_shifted_div (k := f.mantissaBitsWithoutImplicit) (u := u) ha hb
    (by omega)
  have htarget : min (d - e) (f.targetExponent (totalExponent a d - totalExponent b e)) =
      d - e - u := by
    unfold Format.targetExponent totalExponent
    omega
  obtain ⟨m, j, hm, hround, hnormal, hvalue⟩ := roundWithAccuracy_normal f .positive
    (e := d - e - u) hb hlog (by omega)
  have hshift : ((u - n : Nat) : Int) = u - n := by omega
  refine ⟨m, u - n, j, hm, ?_, hnormal, ?_⟩
  · have hsign : Sign.positive / Sign.positive = Sign.positive := rfl
    simp only [UnpackedFloat.div, divCore, htarget, sub_sub_cancel, Int.toNat_natCast,
      Nat.shiftLeft_eq, Nat.mul_comm a, hsign, hround]
    congr 1
    omega
  · rw [hvalue, ← roundDiv_mul_left .even (Nat.two_pow_pos n) (2 ^ (u - n) * a), ← Nat.mul_assoc,
      ← Nat.pow_add]
    congr 3
    omega

/-! Rounding keeps the order. -/

section Order

variable (tie : Tie) {num den n : Nat} (hden : 0 < den)
include hden

theorem le_roundDiv (h : n * den ≤ num) : n ≤ roundDiv tie num den :=
  ((Nat.le_div_iff_mul_le hden).mpr h).trans (roundDiv_floor tie num den).1

theorem roundDiv_le (h : num ≤ n * den) : roundDiv tie num den ≤ n := by
  have hnear := (roundDiv_near hden tie num).2
  by_contra hlt
  have := Nat.mul_le_mul_left den (show n + 1 ≤ roundDiv tie num den by omega)
  rw [Nat.mul_add, Nat.mul_comm den n] at this
  omega

theorem lt_roundDiv (h : n * den + den ≤ num) : n < roundDiv tie num den :=
  le_roundDiv tie hden (by rwa [Nat.succ_mul])

theorem roundDiv_lt (h : num + den ≤ n * den) : roundDiv tie num den < n := by
  obtain ⟨n, rfl⟩ := Nat.exists_eq_succ_of_ne_zero (show n ≠ 0 by rintro rfl; omega)
  rw [Nat.succ_mul] at h
  exact Nat.lt_succ_of_le (roundDiv_le tie hden (by omega))

end Order

theorem add_ten_pow_le {k g x y : Nat} (hx : 2 ^ k ∣ x) (hy : 2 ^ k ∣ y) (hlt : x < y)
    (hg : 5 ^ k ≤ 2 ^ g) : 2 ^ g * x + 10 ^ k ≤ 2 ^ g * y := by
  obtain ⟨x, rfl⟩ := hx
  obtain ⟨y, rfl⟩ := hy
  have hlt : x + 1 ≤ y := Nat.lt_of_mul_lt_mul_left hlt
  calc 2 ^ g * (2 ^ k * x) + 10 ^ k = 2 ^ k * (2 ^ g * x + 5 ^ k) := by
        rw [show 10 = 2 * 5 from rfl, Nat.mul_pow]; ring
    _ ≤ 2 ^ k * (2 ^ g * x + 2 ^ g) := by gcongr
    _ = 2 ^ g * (2 ^ k * (x + 1)) := by ring
    _ ≤ 2 ^ g * (2 ^ k * y) := by gcongr

/-! The interval of a sample. -/

namespace RoundingInterval

/-- A fraction, in units of the interval, rounds to its number. -/
structure Holds (i : RoundingInterval) (num den : Nat) : Prop where
  le : i.lo * den ≤ num
  ge : num ≤ i.hi * den
  strict : i.closed = true ∨ i.lo * den < num ∧ num < i.hi * den

theorem contains_iff (i : RoundingInterval) (j : Nat) (p : Int) :
    i.contains j p = true ↔
      i.Holds (j * Nat.pow 10 p.toNat * i.den) (i.unit * Nat.pow 10 (-p).toNat) := by
  unfold contains
  constructor
  · intro h
    dsimp only at h
    split at h <;> rename_i hclosed <;> simp only [Bool.and_eq_true, decide_eq_true_eq] at h
    · exact ⟨h.1, h.2, .inl hclosed⟩
    · exact ⟨h.1.le, h.2.le, .inr h⟩
  · rintro ⟨hle, hge, hstrict⟩
    dsimp only
    split <;> rename_i hclosed <;> simp only [Bool.and_eq_true, decide_eq_true_eq]
    · exact ⟨hle, hge⟩
    · exact hstrict.resolve_left hclosed

theorem holds_mul_left (i : RoundingInterval) {c : Nat} (hc : 0 < c) (num den : Nat) :
    i.Holds (c * num) (c * den) ↔ i.Holds num den := by
  have hle (x y n : Nat) : x * (c * y) ≤ c * n ↔ x * y ≤ n := by
    rw [Nat.mul_left_comm, Nat.mul_le_mul_left_iff hc]
  have hge (x y n : Nat) : c * n ≤ x * (c * y) ↔ n ≤ x * y := by
    rw [Nat.mul_left_comm, Nat.mul_le_mul_left_iff hc]
  constructor
  · rintro ⟨h1, h2, h3⟩
    refine ⟨(hle ..).mp h1, (hge ..).mp h2, ?_⟩
    simpa only [← Nat.not_le, hle, hge] using h3
  · rintro ⟨h1, h2, h3⟩
    refine ⟨(hle ..).mpr h1, (hge ..).mpr h2, ?_⟩
    simpa only [← Nat.not_le, hle, hge] using h3

theorem Holds.pos {i : RoundingInterval} {num den : Nat} (h : i.Holds num den) (hlo : 0 < i.lo)
    (hden : 0 < den) : 0 < num :=
  Nat.lt_of_lt_of_le (Nat.mul_pos hlo hden) h.le

theorem Holds.roundDiv {i : RoundingInterval} {a d k g : Nat} (tie : Tie)
    (h : i.Holds (2 ^ a * d) (10 ^ k)) (hk : k ≤ a) (hg : 5 ^ k ≤ 2 ^ g) :
    i.Holds (roundDiv tie (2 ^ (a + g) * d) (10 ^ k)) (2 ^ g) := by
  have hden : 0 < 10 ^ k := by positivity
  have hends (x : Nat) : 2 ^ k ∣ x * 10 ^ k :=
    (pow_dvd_pow_of_dvd (by decide) k).mul_left x
  have hvalue : 2 ^ k ∣ 2 ^ a * d := (pow_dvd_pow 2 hk).mul_right d
  have hscale (x : Nat) : x * 2 ^ g * 10 ^ k = 2 ^ g * (x * 10 ^ k) := by ring
  have hnum : 2 ^ (a + g) * d = 2 ^ g * (2 ^ a * d) := by ring
  rw [hnum]
  refine ⟨le_roundDiv tie hden ?_, roundDiv_le tie hden ?_, h.strict.imp_right ?_⟩
  · rw [hscale]
    exact Nat.mul_le_mul_left _ h.le
  · rw [hscale]
    exact Nat.mul_le_mul_left _ h.ge
  · rintro ⟨hlow, hhigh⟩
    refine ⟨lt_roundDiv tie hden ?_, roundDiv_lt tie hden ?_⟩ <;> rw [hscale]
    · exact add_ten_pow_le (hends _) hvalue hlow hg
    · exact add_ten_pow_le hvalue (hends _) hhigh hg

end RoundingInterval

/-! From binary64 to a sample. -/

section Narrow

variable {m a : Nat}

theorem lo_around (hm : 0 < m) (ha : a ≤ 150) :
    m = 2 ^ 23 ∧ (RoundingInterval.around .binary32 m (2 - a)).lo + 1 = 4 * m ∨
      m ≠ 2 ^ 23 ∧ (RoundingInterval.around .binary32 m (2 - a)).lo + 2 = 4 * m := by
  have hmin : Format.binary32.minExponent < 2 - a := by
    have : Format.binary32.minExponent = -149 := rfl
    omega
  simp only [RoundingInterval.around, hmin, and_true, Nat.pow_eq]
  split <;> omega

theorem lo_around_pos (hm : Normal .binary32 m) (ha : a ≤ 150) :
    0 < (RoundingInterval.around .binary32 m (2 - a)).lo := by
  have hmle : 2 ^ 23 ≤ m := hm.le
  have := lo_around hm.pos ha
  omega

/-- A binary64 mantissa that lies in the interval of a sample rounds to the mantissa of the sample, or
to twice that where the interval reaches below a power of two. -/
theorem exists_roundDiv_eq (hm : Normal .binary32 m) (ha : a ≤ 150) {w d : Nat}
    (hw : Normal .binary64 w) (h : (RoundingInterval.around .binary32 m (2 - a)).Holds w (2 ^ d)) :
    ∃ j ≤ 1, d = 27 + j ∧ roundDiv .even w (2 ^ 29) = m * 2 ^ j := by
  have hmle : 2 ^ 23 ≤ m := hm.le
  have hmlt : m < 2 ^ 24 := hm.lt
  have hwle : 2 ^ 52 ≤ w := hw.le
  have hwlt : w < 2 ^ 53 := hw.lt
  have hlo := lo_around hm.pos ha
  have hge : w ≤ (4 * m + 2) * 2 ^ d := h.ge
  have hstrict : m % 2 = 0 ∨ _ < w ∧ w < (4 * m + 2) * 2 ^ d :=
    h.strict.imp_left of_decide_eq_true
  have hle := h.le
  generalize (RoundingInterval.around .binary32 m (2 - a)).lo = lo at hlo hle hstrict
  have hd : d = 27 ∨ d = 28 := by
    by_contra hd
    rcases Nat.lt_or_ge d 27 with hlow | hhigh
    · have := Nat.mul_le_mul_left (4 * m + 2) (Nat.pow_le_pow_right Nat.two_pos
        (show d ≤ 26 by omega))
      omega
    · have := Nat.mul_le_mul_left lo (Nat.pow_le_pow_right Nat.two_pos (show 29 ≤ d by omega))
      omega
  rcases hd with rfl | rfl
  · refine ⟨0, Nat.zero_le 1, rfl, ?_⟩
    rw [Nat.pow_zero, Nat.mul_one]
    apply roundDiv_even_eq (by decide) <;> omega
  · -- The mantissa is a power of two, and its interval reaches into the finer numbers below.
    refine ⟨1, le_rfl, rfl, roundDiv_even_eq (by decide) ?_ ?_ (.inl ?_)⟩ <;> omega

theorem log2_mul_two_pow (hm : 0 < m) (j : Nat) : (m * 2 ^ j).log2 = m.log2 + j := by
  obtain ⟨hle, hlt⟩ := (Nat.log2_eq_iff hm.ne').mp rfl
  rw [Nat.log2_eq_iff (Nat.mul_pos hm (Nat.two_pow_pos j)).ne', Nat.add_right_comm, Nat.pow_add,
    Nat.pow_add _ _ j]
  exact ⟨Nat.mul_le_mul_right _ hle, Nat.mul_lt_mul_of_pos_right hlt (Nat.two_pow_pos j)⟩

theorem Normal.log2_mul_two_pow {f : Format} (hm : Normal f m) (j : Nat) :
    (m * 2 ^ j).log2 = f.mantissaBitsWithoutImplicit + j := by
  rw [Patchbay.log2_mul_two_pow hm.pos, hm.log2_eq]

theorem Normal.eq_of_mul_two_pow {f : Format} {n i j : Nat} (hm : Normal f m) (hn : Normal f n)
    (h : m * 2 ^ i = n * 2 ^ j) : m = n ∧ i = j := by
  have hlog := congrArg Nat.log2 h
  rw [hm.log2_mul_two_pow, hn.log2_mul_two_pow] at hlog
  obtain rfl : i = j := by omega
  exact ⟨Nat.eq_of_mul_eq_mul_right (Nat.two_pow_pos i) h, rfl⟩

theorem round_eq_of_holds (hm : Normal .binary32 m) (ha : a ≤ 150) {w d : Nat}
    (hw : Normal .binary64 w) (h : (RoundingInterval.around .binary32 m (2 - a)).Holds w (2 ^ d)) :
    UnpackedFloat.round .binary32 .positive w (-a - d) = .finite .positive m (2 - a) hm.pos := by
  obtain ⟨j, hj, rfl, hround⟩ := exists_roundDiv_eq hm ha hw h
  have hlog : w.log2 = 52 := hw.log2_eq
  have hmin : Format.binary32.minExponent = -149 := rfl
  obtain ⟨n, i, hn, hrounded, hnormal, hvalue⟩ := roundWithAccuracy_normal .binary32 .positive
    (e := -(a : Int) - (27 + j : Nat)) one_pos (show (w / 1).log2 = 23 + 29 by rw [Nat.div_one, hlog])
    (by omega)
  rw [Nat.mul_one, hround] at hvalue
  obtain ⟨rfl, rfl⟩ := hnormal.eq_of_mul_two_pow hm hvalue
  have hshift : (-(a : Int) - (27 + i : Nat) - Format.binary32.targetExponent
      (totalExponent w (-(a : Int) - (27 + i : Nat)))).toNat = 0 := by
    have hbits : Format.binary32.mantissaBits = 24 := rfl
    unfold Format.targetExponent totalExponent
    omega
  unfold UnpackedFloat.round decreaseExponent
  simp only [hshift, Nat.shiftLeft_zero, Nat.cast_zero, sub_zero]
  rw [Nat.div_one, Nat.mod_one] at hrounded
  refine hrounded.trans ?_
  congr 1
  omega

theorem log2_lt_of_holds (hm : Normal .binary32 m) {num den : Nat} (hnum : 0 < num)
    (h : (RoundingInterval.around .binary32 m (2 - a)).Holds (2 ^ a * num) den) :
    num.log2 < 26 + (den.log2 + 1) := by
  have hmlt : m < 2 ^ 24 := hm.lt
  have hlt : num < 2 ^ (26 + (den.log2 + 1)) :=
    calc num ≤ 2 ^ a * num := Nat.le_mul_of_pos_left _ (Nat.two_pow_pos a)
      _ ≤ (4 * m + 2) * den := h.ge
      _ < 2 ^ 26 * 2 ^ (den.log2 + 1) :=
        Nat.mul_lt_mul_of_lt_of_le (by omega) Nat.lt_log2_self.le (Nat.two_pow_pos _)
      _ = 2 ^ (26 + (den.log2 + 1)) := (Nat.pow_add ..).symm
  exact (Nat.log2_lt hnum.ne').mpr hlt

theorem le_of_roundDiv (hm : Normal .binary32 m) {v num den : Nat} (hden : 0 < den)
    (h : (RoundingInterval.around .binary32 m (2 - a)).Holds (2 ^ a * num) den)
    (hround : 2 ^ 52 ≤ roundDiv .even (2 ^ v * num) den) : a + 26 ≤ v := by
  have hmlt : m < 2 ^ 24 := hm.lt
  have hge : 2 ^ a * num ≤ (4 * m + 2) * den := h.ge
  by_contra hcoarse
  have hnum : 2 ^ v * num ≤ 2 ^ 25 * (4 * m + 2) * den :=
    calc 2 ^ v * num ≤ 2 ^ (25 + a) * num :=
          Nat.mul_le_mul_right _ (Nat.pow_le_pow_right Nat.two_pos (by omega))
      _ = 2 ^ 25 * (2 ^ a * num) := by rw [Nat.pow_add, Nat.mul_assoc]
      _ ≤ 2 ^ 25 * (4 * m + 2) * den := by
        rw [Nat.mul_assoc]
        exact Nat.mul_le_mul_left _ hge
  have := roundDiv_le .even hden hnum
  omega

theorem exists_holds_mantissa (hm : Normal .binary32 m) {w j g : Nat} (hw : 2 ^ 52 ≤ w)
    (h : (RoundingInterval.around .binary32 m (2 - a)).Holds (w * 2 ^ j) (2 ^ g)) :
    ∃ d, g = j + d ∧ (RoundingInterval.around .binary32 m (2 - a)).Holds w (2 ^ d) := by
  have hmlt : m < 2 ^ 24 := hm.lt
  have hge : w * 2 ^ j ≤ (4 * m + 2) * 2 ^ g := h.ge
  have hj : j ≤ g := by
    by_contra hlt
    have := Nat.mul_le_mul_left (4 * m + 2) (Nat.pow_le_pow_right Nat.two_pos (show g ≤ j by omega))
    have := Nat.le_of_mul_le_mul_right (hge.trans this) (Nat.two_pow_pos j)
    omega
  obtain ⟨d, rfl⟩ := Nat.exists_eq_add_of_le hj
  rw [Nat.pow_add, Nat.mul_comm, RoundingInterval.holds_mul_left _ (Nat.two_pow_pos j)] at h
  exact ⟨d, rfl, h⟩

theorem Decimal.unpacked_whole (f : Format) {n : Nat} (hn : 0 < n) :
    (Decimal.mk false n 0).unpacked f =
      roundWithAccuracy f .positive (n * 2 ^ f.mantissaBits) (-f.mantissaBits) .exact := by
  have hsmall : (0 : Int) < 2 ^ f.exponentBits := by positivity
  unfold Decimal.unpacked UnpackedFloat.ofScientific
  simp only [hn.ne', ↓reduceDIte, Bool.false_eq_true, ↓reduceIte, Nat.shiftLeft_eq]
  rw [if_neg (by omega), if_neg (by omega), if_pos le_rfl]
  show roundWithAccuracy f .positive (n * 2 ^ f.mantissaBits * 1) (-f.mantissaBits + 0) .exact = _
  rw [Nat.mul_one, add_zero]

theorem Decimal.unpacked_places (f : Format) {n k : Nat} (hn : 0 < n) (hk : 0 < k)
    (hsmall : k < 2 ^ f.exponentBits) :
    (Decimal.mk false n (-k)).unpacked f =
      UnpackedFloat.div f (.finite .positive n 0 hn)
        (.finite .positive (10 ^ k) 0 (Nat.pow_pos (by decide))) := by
  have hneg : -(-(k : Int)) = k := Int.neg_neg _
  have hsmall : (k : Int) < 2 ^ f.exponentBits := by exact_mod_cast hsmall
  unfold Decimal.unpacked UnpackedFloat.ofScientific
  simp only [hn.ne', ↓reduceDIte, Bool.false_eq_true, ↓reduceIte, hneg, Int.toNat_natCast]
  rw [if_neg (by omega), if_neg (by omega), if_neg (by omega)]

theorem exists_unpacked_eq (hm : Normal .binary32 m) (ha : 9 ≤ a) (ha' : a ≤ 150) {n k : Nat}
    (hk : 0 < k) (hk' : k ≤ 9)
    (h : (RoundingInterval.around .binary32 m (2 - a)).Holds (2 ^ a * n) (10 ^ k)) :
    ∃ (w d : Nat) (hw : 0 < w),
      (Decimal.mk false n (-k)).unpacked .binary64 = .finite .positive w (-a - d) hw ∧
        Normal .binary64 w ∧ (RoundingInterval.around .binary32 m (2 - a)).Holds w (2 ^ d) := by
  have hten : 0 < 10 ^ k := by positivity
  have hn : 0 < n := Nat.pos_of_mul_pos_left (h.pos (lo_around_pos hm ha') hten)
  have hlogn := log2_lt_of_holds hm hn h
  have hlogten : (10 ^ k).log2 < 30 := (Nat.log2_lt hten.ne').mpr
    ((Nat.pow_le_pow_right (by decide) hk').trans_lt (by decide))
  have hmin : Format.binary64.minExponent + Format.binary64.mantissaBits = -1021 := rfl
  have hbits : Format.binary64.mantissaBits = 53 := rfl
  obtain ⟨w, v, j, hw, hdiv, hnormal, hvalue⟩ :=
    div_normal .binary64 0 0 hn hten (by omega) (by omega)
  have hwle : 2 ^ 52 ≤ w := hnormal.le
  have hv := le_of_roundDiv (v := v) hm hten h
    (hvalue ▸ hwle.trans (Nat.le_mul_of_pos_right w (Nat.two_pow_pos j)))
  obtain ⟨g, rfl⟩ := Nat.exists_eq_add_of_le (show a ≤ v by omega)
  have hfive : 5 ^ k ≤ 2 ^ g :=
    calc 5 ^ k ≤ 5 ^ 9 := Nat.pow_le_pow_right (by decide) hk'
      _ ≤ 2 ^ 26 := by decide
      _ ≤ 2 ^ g := Nat.pow_le_pow_right Nat.two_pos (by omega)
  obtain ⟨d, rfl, hholds⟩ :=
    exists_holds_mantissa hm hwle (hvalue ▸ h.roundDiv .even (hk'.trans ha) hfive)
  refine ⟨w, d, hw, ?_, hnormal, hholds⟩
  rw [Decimal.unpacked_places _ hn hk (hk'.trans_lt (by decide)), hdiv]
  congr 1
  omega

theorem Decimal.unpack_toFloat {n : Decimal} {w : Nat} {e : Int} (hw : Normal .binary64 w)
    (h : n.unpacked .binary64 = .finite .positive w e hw.pos) (hlow : -1075 < e) (hhigh : e < 971) :
    UnpackedFloat.unpack .binary64 n.toFloat.toBits.toBitVec = .finite .positive w e hw.pos := by
  have hbias : (Format.binary64.exponentBias : Int) + (52 : Nat) = 1075 := rfl
  have hword : UnpackedFloat.unpack .binary64 (UnpackedFloat.pack .binary64 (n.unpacked .binary64)) =
      n.unpacked .binary64 := by
    rw [h]
    apply unpack_pack_normal hw <;> simp only [add_assoc, hbias] <;> omega
  show UnpackedFloat.unpack .binary64 (UnpackedFloat.pack .binary64 (UnpackedFloat.unpack .binary64
    (UnpackedFloat.pack .binary64 (n.unpacked .binary64)))) = _
  rw [hword, hword, h]

/-- A decimal of at most nine places that lies in the interval of a sample is read as a finite number,
which narrows to the sample, bit for bit. -/
theorem narrow_toFloat {x : Sample} (hm : Normal .binary32 m)
    (hx : x.unpacked = .finite .positive m (2 - a) hm.pos) (ha : 9 ≤ a) (ha' : a ≤ 150) {n k : Nat}
    (hk : 0 < k) (hk' : k ≤ 9)
    (h : (RoundingInterval.around .binary32 m (2 - a)).Holds (2 ^ a * n) (10 ^ k)) :
    (Decimal.mk false n (-k)).toFloat.isInf = false ∧
      Sample.narrow (Decimal.mk false n (-k)).toFloat = x := by
  obtain ⟨w, d, hpos, hread, hw, hholds⟩ := exists_unpacked_eq hm ha ha' hk hk' h
  obtain ⟨j, hj, hd, -⟩ := exists_roundDiv_eq hm ha' hw hholds
  have hunpack := Decimal.unpack_toFloat hw hread (by omega) (by omega)
  constructor
  · exact congrArg UnpackedFloat.isInf hunpack
  · unfold Sample.narrow
    rw [hunpack]
    unfold Sample.ofUnpacked
    simp only [round_eq_of_holds hm ha' hw hholds, ← hx]
    have hvalid : UnpackedFloat.pack .binary32 x.unpacked = x.toBits.toBitVec :=
      pack_unpack_of_valid x.toModel.valid
    rw [hvalid]
    exact Float32.ofBits_toBits x

end Narrow

end Patchbay

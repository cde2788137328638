import Mathlib
import Patchbay.Number.Shortest

/-! Rounding to nearest, by whole numbers. A mantissa that is shifted keeps the bit after it and
whether anything comes after that bit. This is enough to round a quotient as if all of it were
known. -/

namespace Patchbay

open Float.Model Float.Model.UnpackedFloat

/-! The nearest whole number. -/

section RoundDiv

theorem roundDiv_floor (tie : Tie) (num den : Nat) :
    num / den ≤ roundDiv tie num den ∧ roundDiv tie num den ≤ num / den + 1 := by
  unfold roundDiv
  dsimp only
  split
  · omega
  split
  · omega
  cases tie <;> dsimp only <;> omega

variable {den : Nat} (hden : 0 < den)
include hden

theorem roundDiv_near (tie : Tie) (num : Nat) :
    2 * num ≤ 2 * (den * roundDiv tie num den) + den ∧
      2 * (den * roundDiv tie num den) ≤ 2 * num + den := by
  have hdiv := Nat.div_add_mod num den
  have hmod := Nat.mod_lt num hden
  unfold roundDiv
  dsimp only
  split
  · omega
  split
  · rw [Nat.mul_add]
    omega
  cases tie with
  | up =>
    rw [Nat.mul_add]
    omega
  | even =>
    rcases Nat.mod_two_eq_zero_or_one (num / den) with h | h <;> rw [h, Nat.mul_add] <;> omega

theorem roundDiv_even_eq {num m : Nat} (hlow : 2 * (den * m) ≤ 2 * num + den)
    (hhigh : 2 * num ≤ 2 * (den * m) + den)
    (htie : m % 2 = 0 ∨ 2 * (den * m) < 2 * num + den ∧ 2 * num < 2 * (den * m) + den) :
    roundDiv .even num den = m := by
  have hdiv := Nat.div_add_mod num den
  have hmod := Nat.mod_lt num hden
  have hfloor : num / den = m ∨ num / den + 1 = m := by
    by_contra hne
    rcases Nat.lt_or_ge m (num / den) with h | h
    · have := Nat.mul_le_mul_left den (show m + 1 ≤ num / den from h)
      rw [Nat.mul_add] at this
      omega
    · have := Nat.mul_le_mul_left den (show num / den + 2 ≤ m by omega)
      rw [Nat.mul_add] at this
      omega
  unfold roundDiv
  dsimp only
  rcases hfloor with rfl | rfl
  · split
    · rfl
    · split <;> omega
  · rw [Nat.mul_add] at hlow hhigh htie
    split
    · omega
    · split <;> omega

end RoundDiv

/-! Mantissas with the bits after them. -/

structure Reads (em : ExtendedMantissa) (num den : Nat) : Prop where
  mantissa : em.mantissa = num / den
  round : em.roundBit = decide (den ≤ 2 * (num % den))
  sticky : em.stickyBit = decide (num % den ≠ 0 ∧ 2 * (num % den) ≠ den)

namespace Reads

variable {em : ExtendedMantissa} {num den : Nat}

theorem shiftRightOne (hden : 0 < den) (h : Reads em num den) :
    Reads em.shiftRightOne num (2 * den) := by
  have hmod : num % (2 * den) = num % den + den * (em.mantissa % 2) := by
    rw [Nat.mul_comm 2 den, Nat.mod_mul, h.mantissa]
  have hlt := Nat.mod_lt num hden
  constructor
  · show em.mantissa / 2 = _
    rw [h.mantissa, Nat.div_div_eq_div_mul, Nat.mul_comm]
  · show (em.mantissa % 2 != 0) = _
    rw [hmod, Bool.eq_iff_iff]
    rcases Nat.mod_two_eq_zero_or_one em.mantissa with hbit | hbit
    · simp [hbit]
      omega
    · simp [hbit]
  · show (em.roundBit || em.stickyBit) = _
    rw [h.round, h.sticky, hmod, Bool.eq_iff_iff]
    rcases Nat.mod_two_eq_zero_or_one em.mantissa with hbit | hbit <;>
      simp only [hbit, Bool.or_eq_true, decide_eq_true_eq] <;> omega

theorem shiftRight (hden : 0 < den) (h : Reads em num den) (n : Nat) :
    Reads (em >>> n) num (2 ^ n * den) := by
  induction n with
  | zero => simpa [HShiftRight.hShiftRight, Nat.repeat] using h
  | succ n ih =>
    rw [Nat.pow_succ', Nat.mul_assoc]
    exact ih.shiftRightOne (Nat.mul_pos (Nat.two_pow_pos n) hden)

theorem ofFraction (hden : 0 < den) (num : Nat) :
    Reads (.ofMantissaAndAccuracy (num / den) (accuracyOfFraction (num % den) den)) num den := by
  unfold accuracyOfFraction
  by_cases hexact : num % den = 0
  · rw [if_pos hexact]
    constructor <;> simp [ExtendedMantissa.ofMantissaAndAccuracy, hexact]
    omega
  rw [if_neg hexact]
  rcases hhalf : compare (2 * (num % den)) den with _ | _ | _ <;>
    simp only [compare_lt_iff_lt, compare_eq_iff_eq, compare_gt_iff_gt] at hhalf <;>
    constructor <;> simp [ExtendedMantissa.ofMantissaAndAccuracy] <;> omega

theorem ofExact (m : Nat) : Reads (.ofMantissaAndAccuracy m .exact) m 1 := by
  simpa [accuracyOfFraction, Nat.mod_one] using ofFraction one_pos m

theorem roundedMantissa (h : Reads em num den) : em.roundedMantissa = roundDiv .even num den := by
  obtain ⟨mantissa, roundBit, stickyBit⟩ := em
  obtain ⟨rfl, hround, hsticky⟩ := h
  dsimp only at hround hsticky
  unfold ExtendedMantissa.roundedMantissa roundDiv
  dsimp only
  rcases lt_trichotomy (2 * (num % den)) den with hlow | htie | hhigh
  · rw [decide_eq_false (by omega)] at hround
    rw [if_pos hlow, hround]
    cases stickyBit <;> rfl
  · rw [decide_eq_true (by omega)] at hround
    rw [decide_eq_false (by omega)] at hsticky
    rw [if_neg (by omega), if_neg (by omega), hround, hsticky]
    rfl
  · rw [decide_eq_true (by omega)] at hround
    rw [decide_eq_true (by omega)] at hsticky
    rw [if_neg (by omega), if_pos hhigh, hround, hsticky]
    rfl

end Reads

/-! Rounding to a format. -/

structure Normal (f : Format) (m : Nat) : Prop where
  le : 2 ^ f.mantissaBitsWithoutImplicit ≤ m
  lt : m < 2 ^ (f.mantissaBitsWithoutImplicit + 1)

theorem Normal.pos {f : Format} {m : Nat} (h : Normal f m) : 0 < m :=
  Nat.lt_of_lt_of_le (Nat.two_pow_pos _) h.le

theorem Normal.log2_eq {f : Format} {m : Nat} (h : Normal f m) :
    m.log2 = f.mantissaBitsWithoutImplicit :=
  (Nat.log2_eq_iff h.pos.ne').mpr ⟨h.le, h.lt⟩

theorem normal_div_two_pow {f : Format} {m n : Nat}
    (hlog : m.log2 = f.mantissaBitsWithoutImplicit + n) : Normal f (m / 2 ^ n) := by
  have hpos : m ≠ 0 := by
    rintro rfl
    have := f.hm
    rw [Nat.log2_zero] at hlog
    omega
  obtain ⟨hle, hlt⟩ := (Nat.log2_eq_iff hpos).mp hlog
  constructor
  · rwa [Nat.le_div_iff_mul_le (Nat.two_pow_pos n), ← Nat.pow_add]
  · rw [Nat.div_lt_iff_lt_mul (Nat.two_pow_pos n), ← Nat.pow_add]
    rwa [Nat.add_right_comm] at hlt

theorem shiftToTargetExponent_eq {f : Format} {m n : Nat} {e : Int}
    (hlog : m.log2 = f.mantissaBitsWithoutImplicit + n) (hmin : f.minExponent ≤ e + n)
    (a : Accuracy) :
    shiftToTargetExponent f m e a = (ExtendedMantissa.ofMantissaAndAccuracy m a >>> n, e + n) := by
  have htarget : f.targetExponent (totalExponent m e) = e + n := by
    unfold Format.targetExponent totalExponent Format.mantissaBits
    rw [hlog]
    omega
  unfold shiftToTargetExponent shiftToExponent
  simp only [htarget, add_sub_cancel_left, Int.toNat_natCast]

theorem exists_shift_rounded {f : Format} {r : Nat} {e : Int}
    (hle : 2 ^ f.mantissaBitsWithoutImplicit ≤ r) (hge : r ≤ 2 ^ (f.mantissaBitsWithoutImplicit + 1))
    (hmin : f.minExponent ≤ e) :
    ∃ (em : ExtendedMantissa) (j : Nat), shiftToTargetExponent f r e .exact = (em, e + j) ∧
      Normal f em.mantissa ∧ em.mantissa * 2 ^ j = r := by
  have hshift (j : Nat) := ((Reads.ofExact r).shiftRight one_pos j).mantissa
  rcases hge.lt_or_eq with hlt | rfl
  · have hr : Normal f r := ⟨hle, hlt⟩
    refine ⟨_, 0, shiftToTargetExponent_eq hr.log2_eq (by simpa using hmin) _, ?_⟩
    rw [hshift 0]
    simpa using hr
  · have hhalf : 2 ^ (f.mantissaBitsWithoutImplicit + 1) / 2 = 2 ^ f.mantissaBitsWithoutImplicit := by
      rw [Nat.pow_succ]
      omega
    refine ⟨_, 1, shiftToTargetExponent_eq Nat.log2_two_pow (by omega) _, ?_⟩
    rw [hshift 1]
    simp only [Nat.pow_one, Nat.mul_one, hhalf]
    exact ⟨⟨le_rfl, Nat.pow_lt_pow_right (by decide) (Nat.lt_succ_self _)⟩, by rw [Nat.pow_succ]⟩

/-- A quotient with at least the bits of a mantissa, if not too small, becomes a normal number: its
nearest whole part of so many bits, or half of it where rounding has made a bit more. -/
theorem roundWithAccuracy_normal (f : Format) (s : Sign) {num den n : Nat} {e : Int}
    (hden : 0 < den) (hlog : (num / den).log2 = f.mantissaBitsWithoutImplicit + n)
    (hmin : f.minExponent ≤ e + n) :
    ∃ (m j : Nat) (hm : 0 < m),
      roundWithAccuracy f s (num / den) e (accuracyOfFraction (num % den) den) =
          .finite s m (e + n + j) hm ∧
        Normal f m ∧ m * 2 ^ j = roundDiv .even num (2 ^ n * den) := by
  have hround := ((Reads.ofFraction hden num).shiftRight hden n).roundedMantissa
  have hfloor := normal_div_two_pow hlog
  rw [Nat.div_div_eq_div_mul, Nat.mul_comm] at hfloor
  have hbounds := roundDiv_floor .even num (2 ^ n * den)
  generalize roundDiv .even num (2 ^ n * den) = r at hround hbounds ⊢
  obtain ⟨em, j, hshift, hnormal, hvalue⟩ :=
    exists_shift_rounded (hfloor.le.trans hbounds.1) (hbounds.2.trans hfloor.lt) hmin
  refine ⟨em.mantissa, j, hnormal.pos, ?_, hnormal, hvalue⟩
  unfold roundWithAccuracy
  simp only [shiftToTargetExponent_eq hlog hmin, hround, hshift, hnormal.pos.ne', ↓reduceDIte]

/-! Words of bits. -/

theorem toNat_one_append {k : Nat} (v : BitVec k) : (1#1 ++ v).toNat = 2 ^ k + v.toNat := by
  have hor := Nat.two_pow_add_eq_or_of_lt v.isLt 1
  rw [Nat.mul_one] at hor
  rw [BitVec.toNat_append, BitVec.toNat_ofNat, Nat.pow_one, Nat.mod_succ, Nat.shiftLeft_eq,
    Nat.one_mul, hor]

theorem Normal.toNat_append {f : Format} {m : Nat} (h : Normal f m) :
    (1#1 ++ BitVec.ofNat f.mantissaBitsWithoutImplicit m).toNat = m := by
  have hle := h.le
  have hlt := h.lt
  rw [Nat.pow_succ] at hlt
  rw [toNat_one_append, BitVec.toNat_ofNat, Nat.mod_eq_sub_mod hle, Nat.mod_eq_of_lt (by omega)]
  omega

theorem unpack_pack_normal {f : Format} {s : Sign} {m : Nat} {e : Int} (hm : Normal f m)
    (hlow : 0 < e + f.exponentBias + f.mantissaBitsWithoutImplicit)
    (hhigh : e + f.exponentBias + f.mantissaBitsWithoutImplicit + 1 < 2 ^ f.exponentBits) :
    UnpackedFloat.unpack f (UnpackedFloat.pack f (.finite s m e hm.pos)) = .finite s m e hm.pos := by
  obtain ⟨b, hb⟩ := Int.eq_ofNat_of_zero_le hlow.le
  have hlt : b + 1 < 2 ^ f.exponentBits := by
    rw [hb] at hhigh
    exact_mod_cast hhigh
  have hones : BitVec.ofNat f.exponentBits b ≠ -1#_ := by
    intro heq
    have := congrArg BitVec.toNat heq
    rw [BitVec.neg_one_eq_allOnes, BitVec.toNat_allOnes, BitVec.toNat_ofNat,
      Nat.mod_eq_of_lt (by omega)] at this
    omega
  have hzeros : BitVec.ofNat f.exponentBits b ≠ 0#_ := by
    intro heq
    have := congrArg BitVec.toNat heq
    rw [BitVec.toNat_ofNat, Nat.mod_eq_of_lt (by omega), BitVec.toNat_zero] at this
    omega
  unfold UnpackedFloat.pack
  simp only [hb, Int.toNat_natCast, hm.log2_eq, Format.mantissaBits, Nat.add_comm 1, ↓reduceIte,
    Nat.not_le.mpr hlt]
  unfold UnpackedFloat.unpack
  simp only [unpackExponent_packComponents, unpackMantissa_packComponents,
    unpackSign_packComponents, Sign.ofBitVec_toBitVec, hones, hzeros, ↓reduceIte,
    hm.toNat_append, BitVec.toNat_ofNat]
  congr 1
  rw [Nat.mod_eq_of_lt (by omega)]
  omega

theorem normal_of_unpack {f : Format} {b : BitVec f.numBits} {s : Sign} {m : Nat} {e : Int}
    {hm : 0 < m} (h : UnpackedFloat.unpack f b = .finite s m e hm) (he : e ≠ f.minExponent) :
    Normal f m := by
  unfold UnpackedFloat.unpack at h
  dsimp only at h
  split at h
  · split at h <;> contradiction
  split at h
  · rename_i hzero
    split at h
    · contradiction
    · cases h
      have hbias : (f.exponentBias : Int) = 2 ^ (f.exponentBits - 1) - 1 := by
        unfold Format.exponentBias
        push_cast [Nat.one_le_two_pow]
        rfl
      rw [hzero, BitVec.toNat_zero, hbias] at he
      unfold Format.minExponent Format.mantissaBits at he
      omega
  · cases h
    have hlt := (unpackMantissa b).isLt
    rw [toNat_one_append]
    constructor
    · omega
    · rw [Nat.pow_succ]
      omega

end Patchbay

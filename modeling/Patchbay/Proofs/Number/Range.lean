import Patchbay.Proofs.Number.Order
import Patchbay.Proofs.Number.Quotient

/-! How large the results of sample arithmetic get. A result is bounded by the exponent that it may
have: rounding raises the exponent no further than the size of the exact result asks for, and what
has the exponent 104 at most is no infinity when it is packed. -/

namespace Patchbay

open Float.Model Float.Model.UnpackedFloat

/-- A number of at most 24 bits, not infinite, with the exponent k at most. -/
def Within (k : ℤ) : UnpackedFloat → Prop
  | .zero _ => True
  | .finite _ m e _ => m < 2 ^ 24 ∧ e ≤ k
  | _ => False

def absolute : UnpackedFloat → ℚ
  | .finite _ m e _ => magnitude m e
  | _ => 0

/-- What is below has the exponent k at most when it is rounded to 24 bits. -/
def limit (k : ℤ) : ℚ := (2 ^ 24 - 1 / 2) * 2 ^ k

section Within

variable {u : UnpackedFloat} {j k : ℤ}

theorem Within.mono (h : Within j u) (hjk : j ≤ k) : Within k u := by
  cases u with
  | notANumber | infinity s => cases h
  | zero s => trivial
  | finite s m e hm => exact ⟨h.1, h.2.trans hjk⟩

theorem Within.isNaN_eq_false (h : Within k u) : u.isNaN = false := by
  cases u with
  | notANumber | infinity s => cases h
  | zero s | finite s m e hm => rfl

theorem Within.isFinite (h : Within k u) : u.isFinite = true := by
  cases u with
  | notANumber | infinity s => cases h
  | zero s | finite s m e hm => rfl

theorem Within.absolute_le (h : Within k u) : absolute u ≤ (2 ^ 24 - 1) * 2 ^ k := by
  cases u with
  | notANumber | infinity s => cases h
  | zero s => exact mul_nonneg (by norm_num) (zpow_pos two_pos k).le
  | finite s m e hm =>
    have hm : (m : ℚ) ≤ 2 ^ 24 - 1 := by
      rw [le_sub_iff_add_le]
      exact_mod_cast h.1
    exact mul_le_mul hm (zpow_le_zpow_right₀ one_le_two h.2) (zpow_pos two_pos _).le (by norm_num)

theorem absolute_neg : absolute u.neg = absolute u := by cases u <;> rfl

theorem within_neg : Within k u.neg ↔ Within k u := by cases u <;> rfl

theorem lt_limit (k : ℤ) : (2 ^ 24 - 1) * 2 ^ k < limit k := by
  unfold limit
  gcongr
  norm_num

theorem limit_lt (k : ℤ) : limit k < 2 ^ (k + 24) := by
  unfold limit
  rw [add_comm, zpow_add₀ two_ne_zero]
  gcongr
  norm_num

end Within

/-! Rounding. -/

theorem log2_lt_add {n k d : ℕ} (hk : 0 < k) (h : n < 2 ^ k * 2 ^ d) : n.log2 < k + d := by
  rcases Nat.eq_zero_or_pos n with rfl | hn
  · rw [Nat.log2_zero]
    omega
  · rwa [Nat.log2_lt hn.ne', Nat.pow_add]

theorem exists_shiftToTargetExponent {q d : ℕ} {e : ℤ} (hmin : -149 ≤ e + d)
    (h : q < 2 ^ 24 * 2 ^ d) (a : Accuracy) :
    ∃ n ≤ d, shiftToTargetExponent .binary32 q e a =
      (ExtendedMantissa.ofMantissaAndAccuracy q a >>> n, e + n) ∧ q < 2 ^ 24 * 2 ^ n := by
  have hleast : Format.binary32.minExponent = -149 := rfl
  have hbits : Format.binary32.mantissaBits = 24 := rfl
  have hlog := log2_lt_add (by decide) h
  refine ⟨(Format.binary32.targetExponent (totalExponent q e) - e).toNat, ?_, rfl, ?_⟩
  · unfold Format.targetExponent totalExponent
    omega
  · rw [← Nat.pow_add]
    refine Nat.lt_log2_self.trans_le (Nat.pow_le_pow_right Nat.two_pos ?_)
    unfold Format.targetExponent totalExponent
    omega

theorem within_roundWithAccuracy_of_lt (s : Sign) {num den d : ℕ} {e : ℤ} (hden : 0 < den)
    (hmin : -149 ≤ e + d) (h : 2 * num + 2 ^ d * den < 2 ^ 25 * 2 ^ d * den) :
    Within (e + d) (roundWithAccuracy .binary32 s (num / den) e
      (accuracyOfFraction (num % den) den)) := by
  have hfloor : num / den < 2 ^ 24 * 2 ^ d := by
    rw [Nat.div_lt_iff_lt_mul hden, Nat.mul_assoc]
    rw [Nat.mul_assoc] at h
    omega
  obtain ⟨n, hn, hshift, -⟩ := exists_shiftToTargetExponent hmin hfloor
    (accuracyOfFraction (num % den) den)
  have hround := ((Reads.ofFraction hden num).shiftRight hden n).roundedMantissa
  obtain ⟨k, rfl⟩ := Nat.exists_eq_add_of_le hn
  have hrounded : roundDiv .even num (2 ^ n * den) < 2 ^ 24 * 2 ^ k := by
    have hpos : 0 < 2 ^ n * den := Nat.mul_pos (Nat.two_pow_pos n) hden
    have hnear := (roundDiv_near hpos .even num).2
    have hunit := Nat.mul_le_mul_left (2 ^ n * den) (Nat.one_le_two_pow (n := k))
    have hscale : 2 ^ (n + k) * den = 2 ^ n * den * 2 ^ k := by ring
    refine Nat.lt_of_mul_lt_mul_left (a := 2 ^ n * den) ?_
    rw [Nat.mul_assoc, hscale] at h
    rw [Nat.mul_left_comm]
    omega
  obtain ⟨j, hj, hcarry, hlt⟩ :=
    exists_shiftToTargetExponent (e := e + n) (by omega) hrounded .exact
  have hexact := ((Reads.ofExact (roundDiv .even num (2 ^ n * den))).shiftRight one_pos j).mantissa
  unfold roundWithAccuracy
  simp only [hshift, hround, hcarry, hexact, Nat.mul_one]
  split
  · trivial
  · exact ⟨(Nat.div_lt_iff_lt_mul (Nat.two_pow_pos j)).mpr hlt, by omega⟩

theorem within_roundWithAccuracy (s : Sign) {num den : ℕ} {e k : ℤ} (hden : 0 < den) (he : e ≤ k)
    (hmin : -149 ≤ k) (h : magnitude num e / den < limit k) :
    Within k (roundWithAccuracy .binary32 s (num / den) e
      (accuracyOfFraction (num % den) den)) := by
  obtain ⟨d, rfl⟩ := Int.le.dest he
  apply within_roundWithAccuracy_of_lt s hden hmin
  rw [div_lt_iff₀ (Nat.cast_pos.mpr hden), magnitude, limit, zpow_add₀ two_ne_zero,
    zpow_natCast] at h
  have hlt : (2 * num + 2 ^ d * den : ℚ) < 2 ^ 25 * 2 ^ d * den := by
    refine lt_of_mul_lt_mul_right ?_ (zpow_pos two_pos e).le
    linarith
  exact_mod_cast hlt

theorem within_round (s : Sign) {m : ℕ} {e k : ℤ} (hm : 0 < m) (hmin : -149 ≤ k)
    (h : magnitude m e < limit k) : Within k (UnpackedFloat.round .binary32 s m e) := by
  have hleast : Format.binary32.minExponent = -149 := rfl
  have hbits : Format.binary32.mantissaBits = 24 := rfl
  have hlog : e + m.log2 < k + 24 := (zpow_lt_zpow_iff_right₀ (one_lt_two (α := ℚ))).mp
    ((two_zpow_log2_le hm e).trans_lt (h.trans (limit_lt k)))
  have htarget : Format.binary32.targetExponent (totalExponent m e) ≤ k := by
    unfold Format.targetExponent totalExponent
    omega
  generalize hshift : (e - Format.binary32.targetExponent (totalExponent m e)).toNat = n
  have hsize : magnitude (m <<< n) (e - n) / (1 : ℕ) < limit k := by
    rwa [Nat.shiftLeft_eq, magnitude_mul_two_pow, Nat.cast_one, div_one, sub_add_cancel]
  have hround := within_roundWithAccuracy s one_pos (by omega) hmin hsize
  rw [Nat.div_one, Nat.mod_one] at hround
  unfold UnpackedFloat.round decreaseExponent
  simp only [hshift]
  exact hround

theorem within_normalize {m e k : ℤ} (z : Sign) (hmin : -149 ≤ k)
    (h : magnitude m.natAbs e < limit k) :
    Within k (UnpackedFloat.normalize .binary32 m e z) := by
  unfold UnpackedFloat.normalize
  split
  · rename_i hneg
    rw [Int.compare_eq_lt] at hneg
    rw [show (-m).toNat = m.natAbs by omega]
    exact within_round _ (by omega) hmin h
  · trivial
  · rename_i hpos
    rw [Int.compare_eq_gt] at hpos
    rw [show m.toNat = m.natAbs by omega]
    exact within_round _ (by omega) hmin h

/-! Words. -/

theorem within_of_unpackExponent {b : BitVec Format.binary32.numBits} {k : ℤ} (hmin : -149 ≤ k)
    (h : unpackExponent b = 0#_) : Within k (UnpackedFloat.unpack .binary32 b) := by
  have hbias : (Format.binary32.exponentBias : ℤ) + (23 : ℕ) = 150 := rfl
  have hmantissa : (unpackMantissa b).toNat < 2 ^ 23 := (unpackMantissa b).isLt
  unfold UnpackedFloat.unpack
  simp only [h, hbias]
  rw [if_neg (by decide), if_pos trivial]
  split
  · trivial
  · exact ⟨hmantissa.trans (by decide), by simpa using hmin⟩

theorem within_unpack {b : BitVec Format.binary32.numBits}
    (h : (UnpackedFloat.unpack .binary32 b).isFinite = true) :
    Within 104 (UnpackedFloat.unpack .binary32 b) := by
  have hbias : (Format.binary32.exponentBias : ℤ) + (23 : ℕ) = 150 := rfl
  have hmantissa : (unpackMantissa b).toNat < 2 ^ 23 := (unpackMantissa b).isLt
  have hexponent : (unpackExponent b).toNat < 2 ^ 8 := (unpackExponent b).isLt
  by_cases hzero : unpackExponent b = 0#_
  · exact within_of_unpackExponent (by decide) hzero
  unfold UnpackedFloat.unpack at h ⊢
  simp only [hbias] at h ⊢
  split at h
  · split at h <;> contradiction
  · rename_i hones
    have hfits : (unpackExponent b).toNat ≠ 255 := fun heq => hones (BitVec.eq_of_toNat_eq heq)
    rw [if_neg hones, if_neg hzero]
    refine ⟨?_, by omega⟩
    rw [toNat_one_append]
    show 2 ^ 23 + _ < 2 ^ 24
    omega

theorem within_unpack_pack {u : UnpackedFloat} {k : ℤ} (hmin : -149 ≤ k) (hmax : k ≤ 104)
    (h : Within k u) :
    Within k (UnpackedFloat.unpack .binary32 (UnpackedFloat.pack .binary32 u)) := by
  have hbias : (Format.binary32.exponentBias : ℤ) + (23 : ℕ) = 150 := rfl
  cases u with
  | notANumber | infinity s => cases h
  | zero s => cases s <;> trivial
  | finite s m e hm =>
    obtain ⟨hbits, he⟩ := h
    by_cases hnormal : Normal .binary32 m ∧ -149 ≤ e
    · rw [unpack_pack_normal hnormal.1 (by simp only [add_assoc, hbias]; omega)
        (by simp only [add_assoc, hbias]; omega)]
      exact ⟨hbits, he⟩
    · apply within_of_unpackExponent hmin
      unfold UnpackedFloat.pack
      simp only [add_assoc, hbias]
      rw [if_neg (by omega)]
      split
      · rename_i hlog
        have hm' : Normal .binary32 m := by
          obtain ⟨hle, hlt⟩ :=
            (Nat.log2_eq_iff hm.ne').mp (Nat.succ.inj (hlog.trans (Nat.add_comm 1 23)))
          exact ⟨hle, hlt⟩
        have hleast : (e + 150).toNat = 0 := by
          rw [not_and] at hnormal
          have := hnormal hm'
          omega
        rw [unpackExponent_packComponents, hleast]
      · exact unpackExponent_packComponents

/-! Operations. -/

theorem natAbs_apply (s : Sign) (m : ℕ) : (s.apply (m : ℤ)).natAbs = m := by
  cases s <;> simp [Sign.apply]

theorem magnitude_shiftLeft (m : ℕ) {e t : ℤ} (h : t ≤ e) :
    magnitude (m <<< (e - t).toNat) t = magnitude m e := by
  rw [Nat.shiftLeft_eq, magnitude_mul_two_pow]
  congr 1
  omega

theorem magnitude_natAbs_add_le (a b e : ℤ) :
    magnitude (a + b).natAbs e ≤ magnitude a.natAbs e + magnitude b.natAbs e := by
  unfold magnitude
  rw [← add_mul]
  gcongr
  exact_mod_cast Int.natAbs_add_le a b

theorem sub_eq_add (f : Format) (u v : UnpackedFloat) :
    UnpackedFloat.sub f u v = UnpackedFloat.add f u v.neg := by
  cases u with
  | notANumber | infinity s | zero s => cases v <;> rfl
  | finite s m e hm =>
    cases v with
    | notANumber | infinity t | zero t => rfl
    | finite t n g hn =>
      cases t with
      | positive => rfl
      | negative => simp [UnpackedFloat.sub, UnpackedFloat.add, UnpackedFloat.neg, Sign.apply]

section Operations

variable {u v : UnpackedFloat} {j k : ℤ}

theorem within_add (hu : Within k u) (hv : Within k v) (hmin : -149 ≤ k)
    (h : absolute u + absolute v < limit k) : Within k (UnpackedFloat.add .binary32 u v) := by
  cases u with
  | notANumber | infinity s => cases hu
  | zero s =>
    cases v with
    | notANumber | infinity t => cases hv
    | zero t => cases s <;> cases t <;> trivial
    | finite t n f hn => exact hv
  | finite s m e hm =>
    cases v with
    | notANumber | infinity t => cases hv
    | zero t => exact hu
    | finite t n f hn =>
      apply within_normalize _ hmin
      refine (magnitude_natAbs_add_le ..).trans_lt ?_
      rw [natAbs_apply, natAbs_apply]
      rw [magnitude_shiftLeft m (min_le_left e f), magnitude_shiftLeft n (min_le_right e f)]
      exact h

theorem within_sub (hu : Within k u) (hv : Within k v) (hmin : -149 ≤ k)
    (h : absolute u + absolute v < limit k) : Within k (UnpackedFloat.sub .binary32 u v) := by
  rw [sub_eq_add]
  exact within_add hu (within_neg.mpr hv) hmin (by rwa [absolute_neg])

theorem within_mul (hu : Within j u) (hv : Within k v) (hmin : -149 ≤ j + k + 24) :
    Within (j + k + 24) (UnpackedFloat.mul .binary32 u v) := by
  cases u with
  | notANumber | infinity s => cases hu
  | zero s =>
    cases v with
    | notANumber | infinity t => cases hv
    | zero t | finite t n f hn => trivial
  | finite s m e hm =>
    cases v with
    | notANumber | infinity t => cases hv
    | zero t => trivial
    | finite t n f hn =>
      have hexponents : e + f ≤ j + k := add_le_add hu.2 hv.2
      have hproduct : magnitude (m * n) (e + f) / (1 : ℕ) < limit (j + k + 24) := by
        have hm : (m : ℚ) ≤ 2 ^ 24 - 1 := by
          rw [le_sub_iff_add_le]
          exact_mod_cast hu.1
        have hn : (n : ℚ) ≤ 2 ^ 24 := by exact_mod_cast hv.1.le
        calc magnitude (m * n) (e + f) / (1 : ℕ) = m * n * 2 ^ (e + f) := by
              rw [magnitude, Nat.cast_one, div_one, Nat.cast_mul]
          _ ≤ (2 ^ 24 - 1) * 2 ^ 24 * 2 ^ (j + k) := by gcongr; exact one_le_two
          _ = (2 ^ 24 - 1) * 2 ^ (j + k + 24) := by
              rw [zpow_add₀ two_ne_zero (j + k)]
              norm_num
              ring
          _ < limit (j + k + 24) := lt_limit _
      have hround := within_roundWithAccuracy (s * t) one_pos (by omega) hmin hproduct
      rwa [Nat.div_one, Nat.mod_one] at hround

theorem within_div {s : Sign} {m : ℕ} {e : ℤ} {hm : 0 < m} (hu : Within k u) (hmin : -149 ≤ k)
    (hone : 1 ≤ magnitude m e) :
    Within k (UnpackedFloat.div .binary32 u (.finite s m e hm)) := by
  cases u with
  | notANumber | infinity s => cases hu
  | zero t => trivial
  | finite t n f hn =>
    have hleast : Format.binary32.minExponent = -149 := rfl
    have hbits : Format.binary32.mantissaBits = 24 := rfl
    have hlogn : n.log2 < 24 := (Nat.log2_lt hn.ne').mpr hu.1
    have hlogm : 0 < e + m.log2 + 1 := by
      rw [← zpow_lt_zpow_iff_right₀ (one_lt_two (α := ℚ)), zpow_zero]
      exact hone.trans_lt (magnitude_lt_two_zpow_log2 m e)
    have htarget :
        Format.binary32.targetExponent (totalExponent n f - totalExponent m e) ≤ k := by
      have hf := hu.2
      unfold Format.targetExponent totalExponent
      omega
    have hle : magnitude n (f - e) / m ≤ magnitude n f := by
      have hquotient : magnitude n (f - e) / m = magnitude n f / magnitude m e := by
        rw [magnitude, magnitude, magnitude, zpow_sub₀ two_ne_zero]
        field_simp
      rw [hquotient]
      exact div_le_self (mul_nonneg (Nat.cast_nonneg n) (zpow_pos two_pos f).le) hone
    apply within_roundWithAccuracy _ hm ((min_le_right _ _).trans htarget) hmin
    rw [magnitude_shiftLeft n (min_le_left _ _)]
    exact (hle.trans hu.absolute_le).trans_lt (lt_limit k)

end Operations

end Patchbay

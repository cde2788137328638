import Patchbay.Number.Decimal
import Patchbay.Number.Sine
import Patchbay.Proofs.Number.Range

/-! Samples that are finite, and those that are not. Finite samples of moderate size have a finite
sum, quotient, fraction and sine. What is infinite has no fraction, and what is not a number stays
so. -/

namespace Patchbay

open Float.Model Float.Model.UnpackedFloat

/-! The sine in fixed point. -/

namespace Sine

theorem series_cons_le (square c : ℕ) (cs : List ℕ) : series square (c :: cs) ≤ c := Nat.sub_le ..

theorem sin_le (x : ℕ) : sin x ≤ x := by
  have hhead : series ((x * x) >>> places) sineCoefficients ≤ 2 ^ places := series_cons_le ..
  unfold sin
  rw [Nat.shiftRight_eq_div_pow]
  apply Nat.div_le_of_le_mul
  rw [Nat.mul_comm (2 ^ places)]
  exact Nat.mul_le_mul_left x hhead

theorem cos_le (x : ℕ) : cos x ≤ 2 ^ places := series_cons_le ..

theorem natAbs_ofFixed_le (t : ℕ) : (ofFixed t).natAbs ≤ 2 ^ (places + 1) := by
  have hreduced : ((t : ℤ) - ((2 * t + halfPi) / (2 * halfPi) : ℕ) * halfPi).natAbs ≤ halfPi := by
    have hdiv := Nat.div_add_mod (2 * t + halfPi) (2 * halfPi)
    have hmod := Nat.mod_lt (2 * t + halfPi) (show 0 < 2 * halfPi by decide)
    generalize (2 * t + halfPi) / (2 * halfPi) = turns at hdiv
    generalize halfPi = h at *
    have hcast : (turns : ℤ) * h = (h * turns : ℕ) := by push_cast; ring
    rw [hcast]
    rw [Nat.mul_assoc] at hdiv
    omega
  unfold ofFixed
  extract_lets turns rest x sine
  have hx : x ≤ 2 ^ (places + 1) := by
    show rest.natAbs >>> (wide - places) ≤ _
    rw [Nat.shiftRight_eq_div_pow]
    exact (Nat.div_le_div_right hreduced).trans (by decide)
  have hcos : cos x ≤ 2 ^ (places + 1) := (cos_le x).trans (by decide)
  have hsine : sine.natAbs ≤ 2 ^ (places + 1) := by
    have hsin := (sin_le x).trans hx
    show (if rest < 0 then -(sin x : ℤ) else sin x).natAbs ≤ _
    split <;> omega
  split <;> omega

theorem or_le_succ (n : ℕ) {b : ℕ} (hb : b ≤ 1) : n ||| b ≤ n + 1 := by
  have hdiv : (n ||| b) / 2 = n / 2 := by
    rw [Nat.or_div_two]
    interval_cases b <;> simp
  omega

theorem jam_le (n : ℕ) : (jam n).1 * 2 ^ (jam n).2 ≤ 2 * n + 1 := by
  unfold jam
  extract_lets k
  have hbit : (if n % Nat.pow 2 k = 0 then 0 else 1) ≤ 1 := by split <;> decide
  have hpow : 2 ^ k ≤ n + 1 := by
    rcases Nat.eq_zero_or_pos n with rfl | hn
    · decide
    · calc 2 ^ k ≤ 2 ^ n.log2 := Nat.pow_le_pow_right Nat.two_pos (Nat.sub_le ..)
        _ ≤ n + 1 := ((Nat.log2_eq_iff hn.ne').mp rfl).1.trans (Nat.le_succ n)
  have hfloor : n >>> k * 2 ^ k ≤ n := by
    rw [Nat.shiftRight_eq_div_pow]
    exact Nat.div_mul_le_self ..
  calc _ ≤ (n >>> k + 1) * 2 ^ k := Nat.mul_le_mul_right _ (or_le_succ _ hbit)
    _ = n >>> k * 2 ^ k + 2 ^ k := Nat.succ_mul ..
    _ ≤ 2 * n + 1 := by omega

end Sine

namespace Sample

variable {x y : Sample} {j k : ℤ}

theorem isFinite_iff : x.isFinite = true ↔ Within 104 x.unpacked :=
  ⟨within_unpack, Within.isFinite⟩

theorem lt_unpacked (h : x < y) : x.unpacked.lt y.unpacked = true :=
  of_decide_eq_true h

theorem isFinite_of_lt_of_lt {lo hi : Sample} (hlo : lo < x) (hhi : x < hi) : x.isFinite = true := by
  have hbelow := lt_unpacked hlo
  have habove := lt_unpacked hhi
  show x.unpacked.isFinite = true
  cases hx : x.unpacked with
  | notANumber =>
    rw [hx] at habove
    cases hi.unpacked <;> cases habove
  | infinity s =>
    rw [hx] at hbelow habove
    cases s with
    | positive =>
      generalize hi.unpacked = v at habove
      cases v with
      | infinity t => cases t <;> cases habove
      | notANumber | zero t | finite t n f hn => cases habove
    | negative =>
      generalize lo.unpacked = v at hbelow
      cases v with
      | infinity t => cases t <;> cases hbelow
      | notANumber | zero t | finite t n f hn => cases hbelow
  | zero s | finite s m e hm => rfl

theorem unpacked_ofBits_pack (u : UnpackedFloat) :
    unpacked (.ofBits ⟨UnpackedFloat.pack .binary32 u⟩) =
      UnpackedFloat.unpack .binary32 (UnpackedFloat.pack .binary32 u) := by
  show UnpackedFloat.unpack .binary32 (UnpackedFloat.pack .binary32 (UnpackedFloat.unpack .binary32
    (UnpackedFloat.pack .binary32 u))) = _
  rw [pack_unpack_of_valid valid_pack]

theorem within_ofUnpacked (s : Sign) {m : ℕ} {e : ℤ} (hm : 0 < m) (hmin : -149 ≤ k) (hmax : k ≤ 104)
    (h : magnitude m e < limit k) : Within k (ofUnpacked (.finite s m e hm)).unpacked := by
  unfold ofUnpacked
  rw [unpacked_ofBits_pack]
  exact within_unpack_pack hmin hmax (within_round s hm hmin h)

theorem within_ofUnpacked_zero (s : Sign) (hmin : -149 ≤ k) (hmax : k ≤ 104) :
    Within k (ofUnpacked (.zero s)).unpacked := by
  unfold ofUnpacked
  rw [unpacked_ofBits_pack]
  exact within_unpack_pack hmin hmax trivial

/-! What stays finite. -/

theorem trunc_of_nonneg {s : Sign} {m : ℕ} {e : ℤ} {hm : 0 < m}
    (hx : x.unpacked = .finite s m e hm) (he : 0 ≤ e) : x.trunc = x := by
  obtain ⟨n, rfl⟩ := Int.eq_ofNat_of_zero_le he
  unfold trunc
  rw [hx]

theorem within_trunc (h : Within 0 x.unpacked) : Within 1 x.trunc.unpacked := by
  unfold trunc
  split
  · rename_i s m i hm hx
    rw [hx] at h
    split
    · apply within_ofUnpacked s _ (by decide) (by decide)
      have hle : m >>> (i + 1) ≤ m := by
        rw [Nat.shiftRight_eq_div_pow]
        exact Nat.div_le_self ..
      have hlt : ((m >>> (i + 1) : ℕ) : ℚ) < 2 ^ 24 := by exact_mod_cast hle.trans_lt h.1
      rw [magnitude, limit]
      norm_num at hlt ⊢
      linarith
    · exact within_ofUnpacked_zero s (by decide) (by decide)
  · exact h.mono (by decide)

theorem sub_self_finite (f : Format) {s : Sign} {m : ℕ} {e : ℤ} {hm : 0 < m} :
    UnpackedFloat.sub f (.finite s m e hm) (.finite s m e hm) = .zero .positive := by
  simp only [UnpackedFloat.sub, sub_self]
  rfl

theorem within_fract (h : Within 104 x.unpacked) : Within 2 x.fract.unpacked := by
  have hsub (y : Sample) : (x - y).unpacked = UnpackedFloat.unpack .binary32
    (UnpackedFloat.pack .binary32 (UnpackedFloat.sub .binary32 x.unpacked y.unpacked)) := rfl
  unfold fract
  rw [hsub]
  apply within_unpack_pack (by decide) (by decide)
  by_cases hwhole : Within 0 x.unpacked
  · have htrunc := within_trunc hwhole
    apply within_sub (hwhole.mono (by decide)) (htrunc.mono (by decide)) (by decide)
    have hx := hwhole.absolute_le
    have hy := htrunc.absolute_le
    rw [limit]
    norm_num at hx hy ⊢
    linarith
  · cases hx : x.unpacked with
    | notANumber | infinity s =>
      rw [hx] at h
      cases h
    | zero s =>
      rw [hx] at hwhole
      exact absurd trivial hwhole
    | finite s m e hm =>
      rw [hx] at h hwhole
      have he : 0 ≤ e := (Int.lt_of_not_ge fun he => hwhole ⟨h.1, he⟩).le
      rw [trunc_of_nonneg hx he, hx, sub_self_finite]
      trivial

theorem within_sin (h : Within 104 x.unpacked) : Within 104 x.sin.unpacked := by
  unfold sin
  split
  · exact h
  · rename_i s hx
    rw [hx] at h
    cases h
  · exact h
  · rename_i s m e hm hx
    split
    · exact h
    · extract_lets y
      have hy : y.natAbs ≤ 2 ^ (Sine.places + 1) := Sine.natAbs_ofFixed_le _
      have hjam := Sine.jam_le y.natAbs
      generalize Sine.jam y.natAbs = jammed at hjam
      obtain ⟨n, k⟩ := jammed
      dsimp only at hjam ⊢
      split
      · apply within_ofUnpacked _ _ (by decide) le_rfl
        have hn : ((n * 2 ^ k : ℕ) : ℚ) ≤ 2 ^ 123 := by
          have hle : n * 2 ^ k ≤ 2 ^ 123 := by
            unfold Sine.places at hy
            omega
          exact_mod_cast hle
        have hscale : (k : ℤ) - (Sine.places : ℕ) = -120 + k := by
          unfold Sine.places
          omega
        rw [hscale, ← magnitude_mul_two_pow, magnitude, limit]
        norm_num at hn ⊢
        linarith
      · exact within_ofUnpacked_zero s (by decide) le_rfl

theorem isFinite_add (hx : Within 2 x.unpacked) (hy : y.isFinite = true) :
    (x + y).isFinite = true := by
  have hy := within_unpack hy
  apply isFinite_iff.mpr
  apply within_unpack_pack (by decide) le_rfl
  apply within_add (hx.mono (by decide)) hy (by decide)
  have hx := hx.absolute_le
  have hy := hy.absolute_le
  rw [limit]
  norm_num at hx hy ⊢
  linarith

theorem isNaN_mul (hx : x.isFinite = true) (hy : y.isFinite = true) : (x * y).isNaN = false := by
  refine (isNaN_unpack_pack _).trans ?_
  exact (within_mul (within_unpack hx) (within_unpack hy) (by decide)).isNaN_eq_false

/-! What does not. -/

section Unpacked

variable {u v : UnpackedFloat} (f : Format)

theorem isFinite_of_isNaN (h : u.isNaN = true) : u.isFinite = false := by
  cases u <;> first | rfl | cases h

theorem isFinite_unpack_pack (h : u.isFinite = false) :
    (UnpackedFloat.unpack .binary32 (UnpackedFloat.pack .binary32 u)).isFinite = false := by
  cases u with
  | notANumber => rfl
  | infinity s => cases s <;> rfl
  | zero s | finite s m e hm => cases h

theorem isFinite_unpackedAdd (u : UnpackedFloat) (h : v.isFinite = false) :
    (UnpackedFloat.add f u v).isFinite = false := by
  cases v with
  | notANumber => cases u <;> rfl
  | infinity t =>
    cases u with
    | infinity s => cases s <;> cases t <;> rfl
    | notANumber | zero s | finite s m e hm => rfl
  | zero t | finite t n e hn => cases h

theorem isNaN_unpackedAdd (h : u.isNaN = true) (v : UnpackedFloat) :
    (UnpackedFloat.add f u v).isNaN = true := by
  cases u with
  | notANumber => rfl
  | infinity s | zero s | finite s m e hm => cases h

theorem isNaN_unpackedMul (u : UnpackedFloat) (h : v.isNaN = true) :
    (UnpackedFloat.mul f u v).isNaN = true := by
  cases v with
  | notANumber => cases u <;> rfl
  | infinity s | zero s | finite s m e hm => cases h

theorem isNaN_sub_self (h : u.isFinite = false) : (UnpackedFloat.sub f u u).isNaN = true := by
  cases u with
  | notANumber => rfl
  | infinity s => cases s <;> rfl
  | zero s | finite s m e hm => cases h

theorem isFinite_unpackedDiv {s : Sign} {m : ℕ} {e : ℤ} {hm : 0 < m} (h : u.isFinite = false) :
    (UnpackedFloat.div f u (.finite s m e hm)).isFinite = false := by
  cases u with
  | notANumber | infinity t => rfl
  | zero t | finite t n d hn => cases h

end Unpacked

theorem isFinite_add_of_right (x : Sample) (hy : y.isFinite = false) :
    (x + y).isFinite = false :=
  isFinite_unpack_pack (isFinite_unpackedAdd .binary32 x.unpacked hy)

theorem isNaN_add_of_left (hx : x.isNaN = true) (y : Sample) : (x + y).isNaN = true :=
  (isNaN_unpack_pack _).trans (isNaN_unpackedAdd .binary32 hx y.unpacked)

theorem isNaN_mul_of_right (x : Sample) (hy : y.isNaN = true) : (x * y).isNaN = true :=
  (isNaN_unpack_pack _).trans (isNaN_unpackedMul .binary32 x.unpacked hy)

theorem isNaN_fract (hx : x.isFinite = false) : x.fract.isNaN = true := by
  have htrunc : x.trunc = x := by
    unfold trunc
    split
    · rename_i s m i hm hu
      have hfinite : x.unpacked.isFinite = false := hx
      rw [hu] at hfinite
      cases hfinite
    · rfl
  unfold fract
  rw [htrunc]
  exact (isNaN_unpack_pack _).trans (isNaN_sub_self .binary32 hx)

theorem isNaN_sin (hx : x.isNaN = true) : x.sin.isNaN = true := by
  have hu : x.unpacked.isNaN = true := hx
  unfold sin
  split
  · exact hx
  · rename_i s h
    rw [h] at hu
    cases hu
  · exact hx
  · rename_i s m e hm h
    rw [h] at hu
    cases hu

/-! Whole numbers, and division by them. -/

theorem exists_unpacked_ofNat {n : ℕ} (hn : 0 < n) (hlt : n < 2 ^ 32) :
    ∃ (m : ℕ) (e : ℤ) (hm : 0 < m),
      (Sample.ofNat n).unpacked = .finite .positive m e hm ∧ 1 ≤ magnitude m e := by
  have hleast : Format.binary32.minExponent = -149 := rfl
  have hbias : (Format.binary32.exponentBias : ℤ) + (23 : ℕ) = 150 := rfl
  have hlog : n.log2 < 32 := (Nat.log2_lt hn.ne').mpr hlt
  have hshifted : (n * 2 ^ 24 / 1).log2 = 23 + (n.log2 + 1) := by
    rw [Nat.div_one, log2_mul_two_pow hn]
    omega
  obtain ⟨m, j, hm, hround, hnormal, -⟩ := roundWithAccuracy_normal .binary32 .positive
    (e := -24) one_pos hshifted (by omega)
  rw [Nat.div_one, Nat.mod_one] at hround
  have hread := (Decimal.unpacked_whole .binary32 hn).trans hround
  have hsmall : Within 104 (.finite .positive m (-24 + (n.log2 + 1 : ℕ) + j) hm) := by
    have hsize : magnitude (n * 2 ^ 24) (-24) / (1 : ℕ) < limit 104 := by
      have hlt : (n : ℚ) < 2 ^ 32 := by exact_mod_cast hlt
      rw [magnitude_mul_two_pow, magnitude, limit]
      norm_num at hlt ⊢
      linarith
    have hwithin := within_roundWithAccuracy .positive one_pos (by decide) (by decide) hsize
    rwa [Nat.div_one, Nat.mod_one, hround] at hwithin
  have hexponent := hsmall.2
  refine ⟨m, -24 + (n.log2 + 1 : ℕ) + j, hm, ?_, ?_⟩
  · unfold Sample.ofNat Decimal.toSample
    rw [unpacked_ofBits_pack, hread]
    exact unpack_pack_normal hnormal (by simp only [add_assoc, hbias]; omega)
      (by simp only [add_assoc, hbias]; omega)
  · have hone : (1 : ℚ) ≤ 2 ^ (-24 + (n.log2 + 1 : ℕ) + (j : ℤ) + (23 : ℕ)) :=
      one_le_zpow₀ one_le_two (by omega)
    exact hone.trans hnormal.two_zpow_le_magnitude

theorem isFinite_div_ofNat (x : Sample) {n : ℕ} (hn : 0 < n) (hlt : n < 2 ^ 32) :
    (x / Sample.ofNat n).isFinite = x.isFinite := by
  obtain ⟨m, e, hm, hunpacked, hone⟩ := exists_unpacked_ofNat hn hlt
  have hdiv : (x / Sample.ofNat n).unpacked = UnpackedFloat.unpack .binary32
      (UnpackedFloat.pack .binary32 (UnpackedFloat.div .binary32 x.unpacked
        (.finite .positive m e hm))) := by
    rw [← hunpacked]
    rfl
  show (x / Sample.ofNat n).unpacked.isFinite = _
  rw [hdiv]
  cases hx : x.isFinite with
  | true =>
    exact (within_unpack_pack (by decide) le_rfl
      (within_div (within_unpack hx) (by decide) hone)).isFinite
  | false => exact isFinite_unpack_pack (isFinite_unpackedDiv .binary32 hx)

end Sample

end Patchbay

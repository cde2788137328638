import Patchbay.Proofs.Number.Quotient
import Patchbay.Sound.Format

/-! How long a buffer lasts. A span of seconds is rounded to whole nanoseconds, so one of half a
nanosecond or less is none at all. The quotient that it is made from is rounded too, but not so far
that a fraction of small whole numbers could cross half a nanosecond. -/

namespace Patchbay

theorem roundDiv_even_eq_zero_iff {den : ℕ} (hden : 0 < den) (num : ℕ) :
    roundDiv .even num den = 0 ↔ 2 * num ≤ den := by
  constructor
  · intro h
    have hnear := (roundDiv_near hden .even num).1
    rw [h] at hnear
    omega
  · intro h
    apply roundDiv_even_eq hden <;> omega

namespace Span

theorem nanos_nearest_eq_zero_iff (m : ℕ) (e : ℤ) :
    (nearest m e).nanos = 0 ↔ 2 * perSecond * magnitude m e ≤ 1 := by
  have hden : 0 < Nat.pow 2 (-e).toNat := Nat.two_pow_pos _
  have hden' : (0 : ℚ) < (2 ^ (-e).toNat : ℕ) := Nat.cast_pos.mpr hden
  have hscaled : 2 * perSecond * magnitude m e * (2 ^ (-e).toNat : ℕ) =
      (2 * (m * 2 ^ e.toNat * perSecond) : ℕ) := by
    rw [mul_assoc _ (magnitude m e), magnitude_mul]
    push_cast
    ring
  rw [← mul_le_mul_iff_left₀ hden', hscaled, one_mul, Nat.cast_le]
  exact roundDiv_even_eq_zero_iff hden _

theorem seconds_nearest_lt {m : ℕ} {e : ℤ} (h : magnitude m e ≤ 2 ^ 63) :
    (nearest m e).seconds < 2 ^ 64 := by
  have hden : 0 < 2 ^ (-e).toNat := Nat.two_pow_pos _
  have hden' : (0 : ℚ) < (2 ^ (-e).toNat : ℕ) := Nat.cast_pos.mpr hden
  rw [← mul_le_mul_iff_left₀ hden', magnitude_mul] at h
  have hle : m * 2 ^ e.toNat ≤ 2 ^ 63 * 2 ^ (-e).toNat := by exact_mod_cast h
  unfold seconds
  rw [Nat.div_lt_iff_lt_mul (by decide)]
  apply roundDiv_lt .even hden
  show m * 2 ^ e.toNat * perSecond + 2 ^ (-e).toNat ≤ 2 ^ 64 * perSecond * 2 ^ (-e).toNat
  rw [perSecond]
  omega

theorem exists_ofSeconds {x : Float} {q : ℚ} (hx : Near x q) (hq : q ≤ 2 ^ 62) :
    ∃ (p : Span) (v : ℚ), ofSeconds? x = some p ∧ 2 ^ 53 * |v - q| ≤ v ∧
      (p.nanos = 0 ↔ 2 * perSecond * v ≤ 1) := by
  obtain ⟨m, e, hm, hx, hnear⟩ := hx
  have hsize := (bounds_of_near (by decide) hnear).2
  refine ⟨nearest m e, magnitude m e, ?_, hnear, nanos_nearest_eq_zero_iff m e⟩
  unfold ofSeconds?
  rw [hx]
  exact if_pos (seconds_nearest_lt (by linarith))

/-- A fraction of a small denominator stays on its side of half a nanosecond when it is rounded. -/
theorem le_one_iff_of_near {v : ℚ} {num den : ℕ} (hden : 0 < den) (hsmall : den < 2 ^ 53)
    (hv : 2 ^ 53 * |v - num / den| ≤ v) (hne : 2 * perSecond * num ≠ den) :
    2 * perSecond * v ≤ 1 ↔ 2 * perSecond * num < den := by
  have hden' : (0 : ℚ) < den := Nat.cast_pos.mpr hden
  have hsmall' : (den : ℚ) < 2 ^ 53 := by exact_mod_cast hsmall
  have hrate : (0 : ℚ) ≤ 2 * perSecond := by positivity
  have hhigh := le_abs_self (v - num / den)
  have hlow := neg_abs_le (v - num / den)
  have hmul : (num : ℚ) / den * den = num := div_mul_cancel₀ _ hden'.ne'
  generalize (num : ℚ) / den = q at hv hhigh hlow hmul
  constructor
  · intro h
    by_contra hge
    have hge : ((den + 1 : ℕ) : ℚ) ≤ (2 * perSecond * num : ℕ) := Nat.cast_le.mpr (by omega)
    push_cast at hge
    rw [← hmul] at hge
    have hq : 2 * perSecond * (2 ^ 53 * q) ≤ 2 * perSecond * ((2 ^ 53 + 1) * v) :=
      mul_le_mul_of_nonneg_left (by linarith) hrate
    have hscaled := mul_le_mul_of_nonneg_right hq hden'.le
    have hone := mul_le_mul_of_nonneg_right h hden'.le
    linarith
  · intro h
    have hlt : ((2 * perSecond * num + 1 : ℕ) : ℚ) ≤ den := Nat.cast_le.mpr h
    push_cast at hlt
    rw [← hmul] at hlt
    by_contra hgt
    have hq : 2 * perSecond * ((2 ^ 53 - 1) * v) ≤ 2 * perSecond * (2 ^ 53 * q) :=
      mul_le_mul_of_nonneg_left (by linarith) hrate
    have hscaled := mul_le_mul_of_nonneg_right hq hden'.le
    have hone := mul_lt_mul_of_pos_right (lt_of_not_ge hgt) hden'
    linarith

end Span

namespace StreamFormat

theorem bufferPeriod?_half {f : StreamFormat} (hframes : 0 < f.framesPerBuffer)
    (h : 2 * Span.perSecond * f.framesPerBuffer = f.sampleRate.hz.toNat) :
    f.bufferPeriod? = some ⟨1⟩ := by
  have hlt := f.sampleRate.hz.toNat_lt
  unfold bufferPeriod?
  rw [← h] at hlt ⊢
  have hfew : f.framesPerBuffer = 1 ∨ f.framesPerBuffer = 2 := by
    unfold Span.perSecond at hlt
    omega
  rcases hfew with hone | htwo
  · rw [hone]
    decide +kernel
  · rw [htwo]
    decide +kernel

theorem exists_bufferPeriod {f : StreamFormat} (hframes : 0 < f.framesPerBuffer)
    (hfew : f.framesPerBuffer < 2 ^ 53) (hrate : f.sampleRate.hz ≠ 0) :
    ∃ p, f.bufferPeriod? = some p ∧
      (p.nanos = 0 ↔ 2 * Span.perSecond * f.framesPerBuffer < f.sampleRate.hz.toNat) := by
  have hpos : 0 < f.sampleRate.hz.toNat :=
    Nat.pos_of_ne_zero fun h => hrate (UInt32.toNat_inj.mp h)
  have hlt := f.sampleRate.hz.toNat_lt
  by_cases hhalf : 2 * Span.perSecond * f.framesPerBuffer = f.sampleRate.hz.toNat
  · exact ⟨_, bufferPeriod?_half hframes hhalf, by simp [hhalf]⟩
  have hframes' : (1 : ℚ) ≤ f.framesPerBuffer := Nat.one_le_cast.mpr hframes
  have hfew' : (f.framesPerBuffer : ℚ) < 2 ^ 53 := by exact_mod_cast hfew
  have hpos' : (1 : ℚ) ≤ f.sampleRate.hz.toNat := Nat.one_le_cast.mpr hpos
  have hlt' : (f.sampleRate.hz.toNat : ℚ) < 2 ^ 32 := by exact_mod_cast hlt
  have hlong : (f.framesPerBuffer : ℚ) / f.sampleRate.hz.toNat ≤ 2 ^ 53 := by
    rw [div_le_iff₀ (by linarith)]
    nlinarith
  have hshort : 1 / 2 ^ 32 ≤ (f.framesPerBuffer : ℚ) / f.sampleRate.hz.toNat := by
    rw [le_div_iff₀ (by linarith)]
    linarith
  have hquotient := (exactly_toFloat hframes hfew).div (exactly_toFloat hpos (by omega))
    (by norm_num at hshort ⊢; linarith) (by norm_num at hlong ⊢; linarith)
  obtain ⟨p, v, hperiod, hnear, hzero⟩ := Span.exists_ofSeconds hquotient (by linarith)
  refine ⟨p, hperiod, ?_⟩
  rw [hzero, Span.le_one_iff_of_near hpos (by omega) hnear hhalf]

end StreamFormat

end Patchbay

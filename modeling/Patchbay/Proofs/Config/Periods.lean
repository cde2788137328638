import Patchbay.Proofs.Config.Saved
import Patchbay.Proofs.Sound.Period

/-! The periods of settings in range. Of the settings that a period is made from, all are bounded on
both sides but the sample rate, which is only not zero: ticks are always apart, but at rates beyond
2·10⁹ a buffer of few frames lasts no time. -/

namespace Patchbay.Config

open Float.Model

structure Paced (c : Config) : Prop where
  sampleRate : c.sampleRate ≠ 0
  frames : c.framesPerBuffer ≠ 0
  frames_le : c.framesPerBuffer ≤ maxFrames
  tickRate : minTickRate ≤ c.tickRate ∧ c.tickRate ≤ maxTickRate

structure Periods (c : Config) : Prop where
  tick : ∃ p, c.tickPeriod? = some p ∧ p.nanos ≠ 0
  /-- Buffers of input and of output last equally long, and no time only if it would be less than
  half a nanosecond. -/
  buffer : ∃ p, (∀ f, f = c.outputFormat ∨ c.inputFormat? = some f → f.bufferPeriod? = some p) ∧
    (p.nanos = 0 ↔ 2 * Span.perSecond * c.framesPerBuffer.toNat < c.sampleRate.toNat)

variable {c : Config}

theorem paced_of_validate (h : c.validate = .ok ()) : c.Paced := by
  have hrange := tickRate_of_validate h
  have hfault := fault?_of_validate h
  unfold fault? at hfault
  split_ifs at hfault with hrate _ _ hframes
  rw [Bool.or_eq_true, decide_eq_true_eq, decide_eq_true_eq, not_or] at hframes
  exact ⟨hrate, hframes.1, UInt32.not_lt.mp hframes.2, hrange⟩

theorem Paced.exists_tickPeriod (h : c.Paced) : ∃ p, c.tickPeriod? = some p ∧ p.nanos ≠ 0 := by
  obtain ⟨m, a, hm, hx, hlow, hhigh⟩ := exists_unpacked h.tickRate.1 h.tickRate.2
  have hfraction : Format.binary32.mantissaBitsWithoutImplicit = 23 := rfl
  have hpos : 0 < magnitude m (2 - a) := hm.magnitude_pos
  have hfast : magnitude m (2 - a) ≤ 2 ^ (10 : ℤ) :=
    hm.magnitude_lt_two_zpow.le.trans (zpow_le_zpow_right₀ one_le_two (by omega))
  have hslow : 2 ^ (-4 : ℤ) ≤ magnitude m (2 - a) :=
    le_trans (zpow_le_zpow_right₀ one_le_two (by omega)) hm.two_zpow_le_magnitude
  norm_num at hfast hslow
  have hshort : 1 / 1024 ≤ 1 / magnitude m (2 - a) := one_div_le_one_div_of_le hpos hfast
  have hlong : 1 / magnitude m (2 - a) ≤ 16 := (one_div_le (by norm_num) hpos).mp hslow
  have hquotient := exactly_one.div (exactly_widen hm hx (by omega))
    (le_trans (by norm_num) hshort) (hlong.trans (by norm_num))
  obtain ⟨p, v, hperiod, hnear, hzero⟩ := Span.exists_ofSeconds hquotient (by linarith)
  refine ⟨p, hperiod, fun hnone => ?_⟩
  have htiny := hzero.mp hnone
  have hsize := (bounds_of_near (by decide) hnear).1
  norm_num [Span.perSecond] at htiny
  linarith

/-- Settings in range have periods. -/
theorem periods_of_validate (h : c.validate = .ok ()) : c.Periods := by
  have hpaced := paced_of_validate h
  have hframes : 0 < c.framesPerBuffer.toNat :=
    Nat.pos_of_ne_zero fun h => hpaced.frames (UInt32.toNat_inj.mp h)
  have hfew : c.framesPerBuffer.toNat ≤ 8192 := UInt32.le_iff_toNat_le.mp hpaced.frames_le
  obtain ⟨p, hperiod, hzero⟩ := StreamFormat.exists_bufferPeriod (f := c.outputFormat) hframes
    (hfew.trans_lt (by decide)) (by simpa [outputFormat] using hpaced.sampleRate)
  refine ⟨hpaced.exists_tickPeriod, p, ?_, by simpa [outputFormat] using hzero⟩
  rintro f (rfl | hinput)
  · exact hperiod
  · unfold inputFormat? at hinput
    split at hinput
    · cases hinput
      exact hperiod
    · contradiction

theorem periods_of_validate_extremes :
    let c : Config := { sampleRate := 2000000000, framesPerBuffer := 1, tickRate := minTickRate }
    c.validate = .ok () ∧ c.Periods :=
  ⟨rfl, periods_of_validate rfl⟩

theorem not_forall_bufferPeriod_pos : ¬∀ c : Config, c.validate = .ok () →
    ∃ p, c.outputFormat.bufferPeriod? = some p ∧ p.nanos ≠ 0 := by
  intro h
  obtain ⟨p, hperiod, hpos⟩ := h { sampleRate := 4294967295, framesPerBuffer := 1 } rfl
  have hnone : StreamFormat.bufferPeriod? { sampleRate := .custom 4294967295, framesPerBuffer := 1 } =
      some ⟨0⟩ := by decide +kernel
  cases hnone.symm.trans hperiod
  exact hpos rfl

end Patchbay.Config

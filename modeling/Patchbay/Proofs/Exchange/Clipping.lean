import Patchbay.Exchange.Meter
import Patchbay.Proofs.Number.Order
import Patchbay.Proofs.Sound.Channels

/-! Peaks and clipping. The channels of a buffer share out its samples, so what is loudest on them
and what is too loud anywhere in the buffer tell of the same samples. -/

namespace Patchbay

namespace AudioBuffer

def On (b : AudioBuffer) (c : Nat) (x : Sample) : Prop :=
  c < b.channels ∧ ∃ frame < b.frames, b.data[frame * b.channels + c]? = some x

theorem getElem?_samples {b : AudioBuffer} {i : Nat} {x : Sample} :
    b.samples[i]? = some x ↔ i < b.frames * b.channels ∧ b.data[i]? = some x := by
  unfold samples
  rw [List.getElem?_take]
  split <;> simp_all [size]

theorem mem_channel {b : AudioBuffer} {c : Nat} {x : Sample} : x ∈ b.channel c ↔ b.On c x := by
  rw [List.mem_iff_getElem?]
  constructor
  · rintro ⟨frame, hx⟩
    have hc : c < b.channels := by
      by_contra hc
      rw [channel_eq_nil (Nat.not_lt.mp hc)] at hx
      cases hx
    have hframe : frame < b.frames :=
      length_channel hc ▸ (List.getElem?_eq_some_iff.mp hx).1
    rw [getElem?_channel hc hframe, getElem?_samples] at hx
    exact ⟨hc, frame, hframe, hx.2⟩
  · rintro ⟨hc, frame, hframe, hx⟩
    refine ⟨frame, ?_⟩
    rw [getElem?_channel hc hframe, getElem?_samples]
    exact ⟨place_lt hc hframe, hx⟩

theorem mem_samples {b : AudioBuffer} {x : Sample} : x ∈ b.samples ↔ ∃ c, b.On c x := by
  simp only [← mem_channel, channel, List.mem_map, List.mem_filter, Prod.exists,
    List.mem_zipIdx_iff_getElem?, decide_eq_true_eq, exists_and_right, exists_eq_right]
  rw [List.mem_iff_getElem?]
  constructor
  · rintro ⟨i, hi⟩
    exact ⟨_, i, hi, rfl⟩
  · rintro ⟨_, i, hi, -⟩
    exact ⟨i, hi⟩

end AudioBuffer

namespace MeterAudio

/-- What is measured of a buffer: the loudest sample on either side, and whether any sample at all
is too loud. With no more than two channels the peaks say as much as the flag. -/
structure Measures (m : MeterAudio) (b : AudioBuffer) : Prop where
  left : m.peakLeft.Loudest (b.On 0)
  right : 1 < b.channels → m.peakRight.Loudest (b.On 1)
  single : b.channels ≤ 1 → m.peakRight = m.peakLeft
  clipped : m.clipped ↔ ∃ x ∈ b.samples, 1 < x.abs
  clipped_of_peak : 1 < m.peakLeft ∨ 1 < m.peakRight → m.clipped
  clipped_iff_peak : b.channels ≤ 2 → (m.clipped ↔ 1 < m.peakLeft ∨ 1 < m.peakRight)

theorem exists_of_lt_peak {peak : Sample} {b : AudioBuffer} {c : Nat} (h : peak.Loudest (b.On c))
    (hlt : 1 < peak) : ∃ x ∈ b.samples, 1 < x.abs := by
  rcases h.attained with rfl | ⟨x, hx, rfl⟩
  · exact absurd hlt (by decide +kernel)
  · exact ⟨x, AudioBuffer.mem_samples.mpr ⟨c, hx⟩, hlt⟩

theorem lt_peak_of_on {peak x : Sample} {b : AudioBuffer} {c : Nat} (h : peak.Loudest (b.On c))
    (hx : b.On c x) (hlt : 1 < x.abs) : 1 < peak := by
  have hnan := (Sample.lt_iff.mp hlt).2.1
  rw [Sample.isNaN_abs] at hnan
  exact Sample.lt_of_lt_of_le hlt (h.bound x hx hnan)

theorem loudest_channel (b : AudioBuffer) (c : Nat) :
    (Sample.peak (b.channel c)).Loudest (b.On c) := by
  have hon : (· ∈ b.channel c) = b.On c := funext fun x => propext AudioBuffer.mem_channel
  exact hon ▸ Sample.loudest_peak (b.channel c)

/-- Whatever samples a buffer has, what is measured of it while the mixer is not paused and metering
is on are the loudest samples of its first two channels and whether any sample is too loud. -/
theorem measures_peaks_and_clipping (m : MeterAudio) (b : AudioBuffer) (hplays : m.paused = false)
    (hmetering : m.levelMetering = true) : (m.measure b).Measures b := by
  have hmeasure : m.measure b = { m with
      framesMixed := m.framesMixed + b.frames
      peakLeft := Sample.peak (b.channel 0)
      peakRight := if 1 < b.channels then Sample.peak (b.channel 1) else Sample.peak (b.channel 0)
      clipped := b.samples.any fun x => 1 < x.abs } := by
    simp [measure, hplays, hmetering]
  have hleft : (m.measure b).peakLeft.Loudest (b.On 0) := by
    rw [hmeasure]
    exact loudest_channel b 0
  have hright (hb : 1 < b.channels) : (m.measure b).peakRight.Loudest (b.On 1) := by
    rw [hmeasure]
    exact if_pos hb ▸ loudest_channel b 1
  have hsingle (hb : b.channels ≤ 1) : (m.measure b).peakRight = (m.measure b).peakLeft := by
    rw [hmeasure]
    exact if_neg (Nat.not_lt.mpr hb)
  have hclipped : (m.measure b).clipped ↔ ∃ x ∈ b.samples, 1 < x.abs := by
    simp [hmeasure]
  have hpeak : 1 < (m.measure b).peakLeft ∨ 1 < (m.measure b).peakRight →
      (m.measure b).clipped := by
    rw [hclipped]
    rintro (h | h)
    · exact exists_of_lt_peak hleft h
    · rcases Nat.lt_or_ge 1 b.channels with hb | hb
      · exact exists_of_lt_peak (hright hb) h
      · exact exists_of_lt_peak hleft (hsingle hb ▸ h)
  refine ⟨hleft, hright, hsingle, hclipped, hpeak, fun hb => ⟨fun h => ?_, hpeak⟩⟩
  obtain ⟨x, hx, hlt⟩ := hclipped.mp h
  obtain ⟨c, hon⟩ := AudioBuffer.mem_samples.mp hx
  -- With no more than two channels the sample is on one of the two that the peaks are of.
  have hc : c = 0 ∨ 1 < b.channels ∧ c = 1 := by
    have := hon.1
    omega
  rcases hc with rfl | ⟨hb, rfl⟩
  · exact Or.inl (lt_peak_of_on hleft hon hlt)
  · exact Or.inr (lt_peak_of_on (hright hb) hon hlt)

theorem measures_peaks_and_clipping_stereo :
    let b : AudioBuffer := ⟨[.ofBits 0x7FC00000, -2, 0.5, 1, 4], 2⟩
    (({} : MeterAudio).measure b).Measures b ∧
      (({} : MeterAudio).measure b).peakLeft = 0.5 ∧
      (({} : MeterAudio).measure b).peakRight = 2 ∧
      (({} : MeterAudio).measure b).clipped = true :=
  ⟨measures_peaks_and_clipping {} _ rfl rfl, by decide +kernel⟩

end MeterAudio

end Patchbay

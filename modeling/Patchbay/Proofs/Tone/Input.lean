import Patchbay.Proofs.Number.Finite
import Patchbay.Proofs.Tone.Walk

/-! The input through a run of settings and captures. Its phase outlives every setting, and a phase
that is not a number stays so. One frame captured at a frequency that is not finite is enough for
this: from then on nothing but NaN is captured, whatever is set. Without such a frame the phase
stays small, and what is captured is the sine that was set last. -/

namespace Patchbay

inductive InputDeed
  | set (frequency level : Sample)
  | setLevel (level : Sample)
  | off
  | capture (buffer : AudioBuffer)

namespace ToneSource

variable {increment phase amplitude : Sample}

/-! One step of a phase. -/

theorem within_advance (hphase : Within 2 phase.unpacked) (hincrement : increment.isFinite = true) :
    Within 2 (advance increment phase).unpacked :=
  Sample.within_fract (Sample.isFinite_iff.mp (Sample.isFinite_add hphase hincrement))

theorem isNaN_advance (hphase : phase.isNaN = true) (increment : Sample) :
    (advance increment phase).isNaN = true :=
  Sample.isNaN_fract (Sample.isFinite_of_isNaN (Sample.isNaN_add_of_left hphase increment))

theorem isNaN_advance_of_increment (phase : Sample) (hincrement : increment.isFinite = false) :
    (advance increment phase).isNaN = true :=
  Sample.isNaN_fract (Sample.isFinite_add_of_right phase hincrement)

theorem isNaN_sineAt (amplitude : Sample) (hphase : phase.isNaN = true) :
    (sineAt amplitude phase).isNaN = true :=
  Sample.isNaN_mul_of_right amplitude
    (Sample.isNaN_sin (Sample.isNaN_mul_of_right Sample.tau hphase))

theorem isNaN_sineAt_eq_false (hamplitude : amplitude.isFinite = true)
    (hphase : Within 2 phase.unpacked) : (sineAt amplitude phase).isNaN = false := by
  have htau : Within (-21) Sample.tau.unpacked := by
    rw [show Sample.tau.unpacked = .finite .positive 13176795 (-21) (by decide) from rfl]
    exact ⟨by decide, le_rfl⟩
  have hangle : Within 5 (Sample.tau * phase).unpacked :=
    within_unpack_pack (by decide) (by decide) (within_mul htau hphase (by decide))
  have hsin := Sample.within_sin (hangle.mono (by decide))
  exact Sample.isNaN_mul hamplitude hsin.isFinite

/-! Many steps. -/

/-- A phase that is spoilt is not a number, and one that is not is small. -/
def PhaseIs (spoilt : Bool) (phase : Sample) : Prop :=
  if spoilt then phase.isNaN = true else Within 2 phase.unpacked

theorem phaseIs_zero : PhaseIs false 0 := by
  have hzero : Sample.unpacked 0 = .zero .positive := rfl
  show Within 2 (Sample.unpacked 0)
  rw [hzero]
  trivial

theorem PhaseIs.advance {spoilt : Bool} (h : PhaseIs spoilt phase) (increment : Sample) :
    PhaseIs (spoilt || !increment.isFinite) (advance increment phase) := by
  cases spoilt with
  | true => exact isNaN_advance h increment
  | false =>
    cases hincrement : increment.isFinite with
    | true => exact within_advance h hincrement
    | false => exact isNaN_advance_of_increment phase hincrement

theorem PhaseIs.iterate {spoilt : Bool} (h : PhaseIs spoilt phase) (increment : Sample) (n : ℕ) :
    PhaseIs (spoilt || 0 < n && !increment.isFinite) ((ToneSource.advance increment)^[n] phase) := by
  induction n with
  | zero => simpa using h
  | succ n ih =>
    rw [Function.iterate_succ_apply']
    have hnext := ih.advance increment
    cases spoilt <;> cases hincrement : increment.isFinite <;> simp_all

theorem PhaseIs.isNaN_sineAt {spoilt : Bool} (h : PhaseIs spoilt phase)
    (hamplitude : amplitude.isFinite = true) : (sineAt amplitude phase).isNaN = spoilt := by
  cases spoilt with
  | true => exact ToneSource.isNaN_sineAt amplitude h
  | false => exact isNaN_sineAt_eq_false hamplitude h

end ToneSource

namespace Tones

def feed (t : Tones) : InputDeed → Tones
  | .set frequency level => { t with bank := t.bank.setInput frequency level }
  | .setLevel level => { t with bank := t.bank.setInputLevel level }
  | .off => { t with bank := t.bank.stopInput }
  | .capture buffer => t.act (.captureInput buffer)

def fed (t : Tones) : List InputDeed → Tones
  | [] => t
  | deed :: past => (t.fed past).feed deed

def spoils (t : Tones) : InputDeed → Bool
  | .capture buffer =>
    t.bank.input.playing && (0 < buffer.frames && !t.bank.input.frequency.isFinite)
  | _ => false

def spoilt (t : Tones) : List InputDeed → Bool
  | [] => false
  | deed :: past => t.spoilt past || (t.fed past).spoils deed

structure FedSine (rate frequency level : Sample) (spoilt : Bool) (b captured : AudioBuffer) :
    Prop where
  shape : captured.shape = b.shape
  walk : ∃ phase, captured.eachFrame =
    Pace.walk rate phase (List.replicate b.frames ⟨frequency, level, b.channels⟩)
  isNaN : ∀ frame ∈ captured.eachFrame, ∀ x ∈ frame, x.isNaN = spoilt

variable (t : Tones)

theorem captureInput_eq (b : AudioBuffer) : (t.stream.captureInput b).1 =
    if t.bank.input.playing then
      some (b.writeFrames (t.source.walk t.bank.input t.source.inputPhase b.frames))
    else none := by
  show (ToneStream.captureInput _ b).1 = _
  unfold ToneStream.captureInput
  rw [ToneSource.renderVoice_eq]
  show (if t.bank.input.playing then _ else _ : Option AudioBuffer × ToneStream).1 = _
  split <;> rfl

theorem inputPhase_capture (b : AudioBuffer) : (t.feed (.capture b)).source.inputPhase =
    if t.bank.input.playing then
      (t.source.turn t.bank.input)^[b.frames] t.source.inputPhase
    else t.source.inputPhase := by
  show (ToneStream.captureInput _ b).2.source.inputPhase = _
  unfold ToneStream.captureInput
  rw [ToneSource.renderVoice_eq]
  show (if t.bank.input.playing then _ else _ :
    Option AudioBuffer × ToneStream).2.source.inputPhase = _
  split <;> rfl

theorem sampleRate_fed (deeds : List InputDeed) :
    (t.fed deeds).source.sampleRate = t.source.sampleRate := by
  induction deeds with
  | nil => rfl
  | cons deed past ih =>
    cases deed with
    | set | setLevel | off => exact ih
    | capture b => exact (sampleRate_after (t.fed past) [.captureInput b]).trans ih

theorem isFinite_increment_fed {rate : UInt32} (hrate : 0 < rate.toNat) (deeds : List InputDeed)
    (v : Voice) :
    (((new rate).fed deeds).source.increment v).isFinite = v.frequency.isFinite := by
  unfold ToneSource.increment
  rw [sampleRate_fed]
  exact Sample.isFinite_div_ofNat v.frequency hrate rate.toNat_lt

/-- The phase is spoilt by a frame at a frequency that is not finite, and by nothing else. -/
theorem phaseIs_fed {rate : UInt32} (hrate : 0 < rate.toNat) (deeds : List InputDeed) :
    ToneSource.PhaseIs ((new rate).spoilt deeds) ((new rate).fed deeds).source.inputPhase := by
  induction deeds with
  | nil =>
    show ToneSource.PhaseIs false 0
    exact ToneSource.phaseIs_zero
  | cons deed past ih =>
    rw [spoilt]
    cases deed with
    | set | setLevel | off =>
      show ToneSource.PhaseIs (_ || false) _
      rw [Bool.or_false]
      exact ih
    | capture b =>
      have hnext := ih.iterate
        (((new rate).fed past).source.increment ((new rate).fed past).bank.input) b.frames
      rw [isFinite_increment_fed hrate] at hnext
      rw [fed, inputPhase_capture, ← ToneSource.advance_eq]
      cases hplaying : ((new rate).fed past).bank.input.playing with
      | true => simpa [spoils, hplaying] using hnext
      | false => simpa [spoils, hplaying] using ih

/-! What is captured after a setting. -/

theorem bank_fed_captures (bs : List AudioBuffer) (past : List InputDeed) :
    (t.fed (bs.map .capture ++ past)).bank = (t.fed past).bank := by
  induction bs with
  | nil => rfl
  | cons b bs ih => exact ih

theorem spoilt_captures {past : List InputDeed}
    (h : (t.fed past).bank.input.frequency.isFinite = true) (bs : List AudioBuffer) :
    t.spoilt (bs.map .capture ++ past) = t.spoilt past := by
  induction bs with
  | nil => rfl
  | cons b bs ih =>
    rw [List.map_cons, List.cons_append, spoilt, ih, spoils, bank_fed_captures, h]
    simp

theorem rate_pos {rate : UInt32} {frequency : Sample} (hlow : 0 < frequency)
    (hhigh : frequency < (ToneBank.new rate).nyquist) : 0 < rate.toNat := by
  apply Nat.pos_of_ne_zero
  intro hzero
  obtain rfl : rate = 0 := UInt32.toNat_inj.mp hzero
  have hnone : (ToneBank.new 0).nyquist ≤ 0 := by decide +kernel
  exact Sample.not_lt_of_le (Sample.le_of_lt hlow) (Sample.lt_of_lt_of_le hhigh hnone)

theorem isFinite_level {level : Sample} (hlow : 0 ≤ level) (hhigh : level ≤ 1) :
    level.isFinite = true := by
  have hbelow : (-1 : Sample) < 0 := by decide +kernel
  have habove : (1 : Sample) < 2 := by decide +kernel
  exact Sample.isFinite_of_lt_of_lt (Sample.lt_of_lt_of_le hbelow hlow)
    (Sample.lt_of_le_of_lt hhigh habove)

theorem exists_captured {t : Tones} {spoilt : Bool}
    (hphase : ToneSource.PhaseIs spoilt t.source.inputPhase) (hplaying : t.bank.input.playing = true)
    (hincrement : (t.source.increment t.bank.input).isFinite = true)
    (hamplitude : t.bank.input.amplitude.isFinite = true) (b : AudioBuffer) :
    ∃ captured, (t.stream.captureInput b).1 = some captured ∧
      FedSine t.source.sampleRate t.bank.input.frequency t.bank.input.amplitude spoilt b
        captured := by
  have hframes := AudioBuffer.eachFrame_writeFrames (b := b)
    (t.source.length_walk t.bank.input t.source.inputPhase b.frames)
  refine ⟨_, (t.captureInput_eq b).trans (if_pos hplaying), AudioBuffer.shape_write .., ?_, ?_⟩
  · refine ⟨t.source.inputPhase, ?_⟩
    rw [hframes, ← t.source.walk_paces _ hplaying, Voice.paces, if_pos hplaying]
  · rw [hframes]
    simp only [List.forall_mem_map, ToneSource.walk, List.mem_range]
    intro k hk x hx
    rw [List.eq_of_mem_replicate hx]
    have hwalked := hphase.iterate (t.source.increment t.bank.input) k
    rw [hincrement, Bool.not_true, Bool.and_false, Bool.or_false, ToneSource.advance_eq] at hwalked
    rw [← ToneSource.sineAt_eq]
    exact hwalked.isNaN_sineAt hamplitude

/-- After a valid setting, the input is a sine of the frequency and at the level that were set,
unless a frame has been captured before at a frequency that is not finite. -/
theorem exists_fedSine {rate : UInt32} {frequency level : Sample} (hfrequency : 0 < frequency)
    (hnyquist : frequency < (ToneBank.new rate).nyquist) (hlow : 0 ≤ level) (hhigh : level ≤ 1)
    (past : List InputDeed) (between : List AudioBuffer) (b : AudioBuffer) :
    ∃ captured, (((new rate).fed
        (between.map .capture ++ .set frequency level :: past)).stream.captureInput b).1 =
          some captured ∧
      FedSine (Sample.ofNat rate.toNat) frequency level ((new rate).spoilt past) b captured := by
  have hrate := rate_pos hfrequency hnyquist
  have hfinite := Sample.isFinite_of_lt_of_lt hfrequency hnyquist
  have hinput : ((new rate).fed (.set frequency level :: past)).bank.input =
      { ((new rate).fed past).bank.input with
        frequency, amplitude := level.clamp 0 1, playing := true } := rfl
  rw [Sample.clamp_of_mem hlow hhigh] at hinput
  have hspoilt : (new rate).spoilt (between.map .capture ++ .set frequency level :: past) =
      (new rate).spoilt past := by
    rw [spoilt_captures _ (by rw [hinput]; exact hfinite), spoilt, spoils]
    · exact Bool.or_false _
    · exact nofun
  have hphase := phaseIs_fed hrate (between.map .capture ++ .set frequency level :: past)
  have hincrement := isFinite_increment_fed hrate
    (between.map .capture ++ .set frequency level :: past)
  have hsample := (new rate).sampleRate_fed (between.map .capture ++ .set frequency level :: past)
  rw [← bank_fed_captures _ between] at hinput
  rw [hspoilt] at hphase
  generalize (new rate).fed (between.map .capture ++ .set frequency level :: past) = t at *
  have hcaptured := exists_captured hphase (by rw [hinput])
    (by rw [hincrement, hinput]; exact hfinite) (by rw [hinput]; exact isFinite_level hlow hhigh) b
  rw [hinput, hsample] at hcaptured
  exact hcaptured

def lost : List InputDeed := [.capture ⟨[0], 1⟩, .set (0 / 0) 0.5]

theorem exists_fedSine_lost :
    (new 44100).spoilt lost = true ∧
    ∃ captured, (((new 44100).fed
        ([⟨[0], 1⟩].map .capture ++ .set 440 0.5 :: lost)).stream.captureInput ⟨[0, 0, 0], 2⟩).1 =
          some captured ∧
      FedSine (Sample.ofNat (44100 : UInt32).toNat) 440 0.5 ((new 44100).spoilt lost)
        ⟨[0, 0, 0], 2⟩ captured :=
  ⟨by decide +kernel, exists_fedSine (by decide +kernel) (by decide +kernel) (by decide +kernel)
    (by decide +kernel) lost [⟨[0], 1⟩] ⟨[0, 0, 0], 2⟩⟩

theorem not_forall_isNaN_eq_false : ¬∀ (rate : UInt32) (past : List InputDeed)
    (frequency level : Sample) (between : List AudioBuffer) (b : AudioBuffer), 0 < frequency →
      frequency < (ToneBank.new rate).nyquist → 0 ≤ level → level ≤ 1 →
      ∀ captured ∈ (((new rate).fed
        (between.map .capture ++ .set frequency level :: past)).stream.captureInput b).1,
      ∀ frame ∈ captured.eachFrame, ∀ x ∈ frame, x.isNaN = false := by
  intro h
  have hcaptured : (((new 44100).fed (.set 440 0.5 :: lost)).stream.captureInput ⟨[0, 0], 1⟩).1 =
      some ⟨[0 / 0, 0 / 0], 1⟩ := by decide +kernel
  have hframes : AudioBuffer.eachFrame ⟨[0 / 0, 0 / 0], 1⟩ = [[0 / 0], [0 / 0]] := rfl
  have hnumber := h 44100 lost 440 0.5 [] ⟨[0, 0], 1⟩ (by decide +kernel) (by decide +kernel)
    (by decide +kernel) (by decide +kernel) _ hcaptured
  rw [hframes] at hnumber
  have hnan : (0 / 0 : Sample).isNaN = true := by decide +kernel
  rw [hnumber _ List.mem_cons_self _ List.mem_cons_self] at hnan
  cases hnan

end Tones

end Patchbay

import Mathlib
import Patchbay.Proofs.Session.Mix

/-! What the control side learns about the mix. Switches reach the mixer with a tick, and take effect
in the next buffer. Measurements are published at the start of the buffer after theirs, and are
taken by the next tick. So what is known is what was measured of the buffer before the latest. -/

namespace Patchbay

theorem unpackPair_packPair (first second : Sample) :
    unpackPair (packPair first second) = (first, second) := by
  have hlow := second.toBits.toNat_lt
  have hhigh := first.toBits.toNat_lt
  have hshift : (first.toBits.toUInt64 <<< 32).toNat = first.toBits.toNat <<< 32 := by
    simp only [UInt64.toNat_shiftLeft, UInt32.toNat_toUInt64]
    show first.toBits.toNat <<< 32 % 2 ^ 64 = _
    rw [Nat.shiftLeft_eq]
    omega
  have hword : (packPair first second).toNat =
      first.toBits.toNat * 2 ^ 32 + second.toBits.toNat := by
    unfold packPair
    rw [UInt64.toNat_or, hshift, UInt32.toNat_toUInt64, ← Nat.shiftLeft_add_eq_or_of_lt hlow,
      Nat.shiftLeft_eq]
  have hfirst : (packPair first second >>> 32).toUInt32 = first.toBits := by
    apply UInt32.toNat.inj
    simp only [UInt64.toNat_toUInt32, UInt64.toNat_shiftRight, hword, Nat.shiftRight_eq_div_pow]
    show (_ / 2 ^ 32) % 2 ^ 32 = _
    omega
  have hsecond : (packPair first second).toUInt32 = second.toBits := by
    apply UInt32.toNat.inj
    simp only [UInt64.toNat_toUInt32, hword]
    omega
  unfold unpackPair
  rw [hfirst, hsecond, Float32.ofBits_toBits, Float32.ofBits_toBits]

/-! Measurements. -/

structure Levels where
  left : Sample := 0
  right : Sample := 0
  clipped : Bool := false

/-- The first channel is the left one, and the right one too if it is the only one. -/
def AudioBuffer.levels (b : AudioBuffer) : Levels where
  left := Sample.peak (b.channel 0)
  right := Sample.peak (b.channel (if 1 < b.channels then 1 else 0))
  clipped := b.samples.any fun x => 1 < x.abs

structure Switches where
  paused : Bool := false
  metering : Bool := true

structure Take where
  switches : Switches
  output : AudioBuffer

def Take.levels (t : Take) : Levels :=
  if t.switches.paused || !t.switches.metering then {} else t.output.levels

theorem MeterAudio.measure_eq (a : MeterAudio) (b : AudioBuffer) :
    a.measure b = { a with
      framesMixed := a.framesMixed + b.frames
      peakLeft := (Take.mk ⟨a.paused, a.levelMetering⟩ b).levels.left
      peakRight := (Take.mk ⟨a.paused, a.levelMetering⟩ b).levels.right
      clipped := (Take.mk ⟨a.paused, a.levelMetering⟩ b).levels.clipped } := by
  cases hoff : a.paused || !a.levelMetering with
  | true => simp [measure, Take.levels, hoff]
  | false =>
    by_cases hchannels : 1 < b.channels <;>
      simp [measure, Take.levels, AudioBuffer.levels, hoff, hchannels]

namespace Mixer

variable {U σ : Type} [Dsp U] [SignalSource σ]

theorem meters_processInput (m : Mixer) (source : σ) (rack : Rack U) :
    (m.processInput source rack).1.meters = m.meters := by
  unfold processInput
  split
  · rfl
  · split <;> rfl

theorem meters_mix (m : Mixer) (source : σ) (rack : Rack U) :
    (m.mix source rack).1.meters = m.meters := by
  unfold mix
  split <;> rfl

theorem meters_render (m : Mixer) (link : Link) (rack : Rack U) (source : σ) :
    (m.render link rack source).mixer.meters =
      (m.meters.exchange link.meters).1.measure (m.render link rack source).output ∧
    (m.render link rack source).link.meters = (m.meters.exchange link.meters).2 := by
  obtain ⟨units, overflow, heq⟩ := m.exists_drain link
  have hmeters : (m.drain link).1.meters = m.meters := by rw [heq]
  have hmixed := ((m.prepare link rack).1.processInput source (m.prepare link rack).2.2).1.meters_mix
    ((m.prepare link rack).1.processInput source (m.prepare link rack).2.2).2.1
    ((m.prepare link rack).1.processInput source (m.prepare link rack).2.2).2.2
  rw [meters_processInput] at hmixed
  rw [← hmeters]
  exact ⟨congrArg (fun a : MeterAudio => a.measure (m.render link rack source).output) hmixed, rfl⟩

end Mixer

namespace Session

variable {U : Type}

theorem meters_called (s : Session U) (call : Call U) :
    (s.attempt call.operation).2.engine.meters = s.engine.meters ∧
      (s.attempt call.operation).2.link.meters = s.link.meters ∧
      (s.attempt call.operation).2.mixer = s.mixer := by
  refine ⟨?_, ?_, ?_⟩
  · rcases s.attempt_call call with ⟨e, heq⟩ | ⟨answer, r, heq, ⟨sent, -, heffect⟩, -⟩
    · rw [heq]
    · rw [heq]
      generalize r.engine = engine at *
      cases heffect <;> rfl
  · unfold attempt
    split <;> rfl
  · unfold attempt
    split <;> rfl

theorem meters_takeUp (s : Session U) :
    s.takeUp.link.meters = s.link.meters ∧ s.takeUp.mixer.meters = s.mixer.meters := by
  unfold takeUp
  cases s.link.commands.pop? with
  | none => exact ⟨rfl, rfl⟩
  | some popped =>
    obtain ⟨units, overflow, heq⟩ := s.mixer.exists_apply s.link.retired popped.1
    refine ⟨rfl, ?_⟩
    show (s.mixer.apply s.link.retired popped.1).1.meters = _
    rw [heq]

/-! What a run says; the latest deed comes first. -/

def switches : List (Deed U) → Switches
  | [] => {}
  | .pause paused :: past => { switches past with paused }
  | .meter metering :: past => { switches past with metering }
  | _ :: past => switches past

def beforeTick : List (Deed U) → List (Deed U)
  | [] => []
  | .tick :: past => past
  | _ :: past => beforeTick past

variable [Dsp U]

def takes (s : Session U) : List (Deed U) → List Take
  | [] => []
  | @Deed.render _ _ _ source :: past =>
    ⟨switches (beforeTick past), ((s.after past).render source).output⟩ :: takes s past
  | _ :: past => takes s past

/-- The levels of one of the latest buffers, counted from 0; zero before the first. -/
def levelsOf (takes : List Take) (n : Nat) : Levels := takes[n]?.elim {} Take.levels

/-- What the control side knows: as many frames as the buffers before the latest have, and the
levels of the one before the latest. -/
def known (s : Session U) (frames : Nat) (past : List (Deed U)) : MeterSnapshot where
  framesMixed := frames * ((s.takes (beforeTick past)).length - 1)
  peakLeft := (levelsOf (s.takes (beforeTick past)) 1).left
  peakRight := (levelsOf (s.takes (beforeTick past)) 1).right
  clipped := (levelsOf (s.takes (beforeTick past)) 1).clipped

structure Meters (s : Session U) (frames : Nat) (past : List (Deed U)) (t : Session U) : Prop where
  control : t.engine.meters = ⟨(switches past).paused, (switches past).metering, s.known frames past⟩
  shared : t.link.meters = {
    framesMixed := ⟨frames * ((s.takes past).length - 1)⟩
    peaks := ⟨packPair (levelsOf (s.takes past) 1).left (levelsOf (s.takes past) 1).right⟩
    clipped := ⟨(levelsOf (s.takes past) 1).clipped⟩
    paused := ⟨(switches (beforeTick past)).paused⟩
    levelMetering := ⟨(switches (beforeTick past)).metering⟩ }
  frames : t.mixer.meters.framesMixed = frames * (s.takes past).length
  left : t.mixer.meters.peakLeft = (levelsOf (s.takes past) 0).left
  right : t.mixer.meters.peakRight = (levelsOf (s.takes past) 0).right
  clipped : t.mixer.meters.clipped = (levelsOf (s.takes past) 0).clipped

variable {s t : Session U} {frames : Nat} {past : List (Deed U)}

theorem Meters.congr (h : s.Meters frames past t) {deed : Deed U} {t' : Session U}
    (htakes : s.takes (deed :: past) = s.takes past)
    (hbefore : beforeTick (deed :: past) = beforeTick past)
    (hswitches : switches (deed :: past) = switches past)
    (hcontrol : t'.engine.meters = t.engine.meters) (hshared : t'.link.meters = t.link.meters)
    (hmixer : t'.mixer.meters = t.mixer.meters) : s.Meters frames (deed :: past) t' := by
  have hknown : s.known frames (deed :: past) = s.known frames past := by
    unfold known
    rw [hbefore]
  constructor
  · rw [hcontrol, h.control, hswitches, hknown]
  · rw [hshared, h.shared, htakes, hbefore]
  · rw [hmixer, h.frames, htakes]
  · rw [hmixer, h.left, htakes]
  · rw [hmixer, h.right, htakes]
  · rw [hmixer, h.clipped, htakes]

theorem Meters.tick (h : s.Meters frames past t) : s.Meters frames (.tick :: past) t.tick.1 := by
  have hshared := h.shared
  have hcontrol := h.control
  constructor
  · show (t.engine.meters.exchange t.link.meters).1 = _
    simp [MeterControl.exchange, hshared, hcontrol, unpackPair_packPair, switches, known, beforeTick]
  · show (t.engine.meters.exchange t.link.meters).2 = _
    simp [MeterControl.exchange, hshared, hcontrol, Shared.store, takes, beforeTick]
  · exact h.frames
  · exact h.left
  · exact h.right
  · exact h.clipped

theorem levelsOf_succ (take : Take) (takes : List Take) (n : Nat) :
    levelsOf (take :: takes) (n + 1) = levelsOf takes n := by
  simp [levelsOf]

theorem Meters.render {σ : Type} [SignalSource σ] (h : s.Meters frames past (s.after past))
    (source : σ) (hframes : ((s.after past).render source).output.frames = frames) :
    s.Meters frames (.render source :: past) ((s.after past).render source).session := by
  obtain ⟨hmixer, hlink⟩ := (s.after past).mixer.meters_render (s.after past).link
    ⟨(s.after past).engine.units, []⟩ source
  rw [MeterAudio.measure_eq] at hmixer
  rw [h.shared] at hmixer hlink
  constructor
  · exact h.control
  · apply hlink.trans
    simp [MeterAudio.exchange, Shared.store, h.frames, h.left, h.right, h.clipped, takes,
      levelsOf_succ, beforeTick]
  · show ((s.after past).mixer.render _ _ source).mixer.meters.framesMixed = _
    rw [hmixer]
    show (s.after past).mixer.meters.framesMixed + ((s.after past).render source).output.frames =
      frames * ((s.takes past).length + 1)
    rw [h.frames, hframes, Nat.mul_succ]
  · show ((s.after past).mixer.render _ _ source).mixer.meters.peakLeft = _
    rw [hmixer]
    rfl
  · show ((s.after past).mixer.render _ _ source).mixer.meters.peakRight = _
    rw [hmixer]
    rfl
  · show ((s.after past).mixer.render _ _ source).mixer.meters.clipped = _
    rw [hmixer]
    rfl

variable {c : Config} {tones : ToneBank}

theorem meters_start (h : Session.start c tones = .ok s) : s.Meters frames [] s := by
  obtain ⟨link, hlink, rfl⟩ := start_eq_ok h
  have hmeters : link.meters = {} := by
    simp only [Link.ofCapacity?, Option.bind_eq_bind, Option.bind_eq_some_iff] at hlink
    obtain ⟨commands, -, retired, -, heq⟩ := hlink
    cases heq
    rfl
  exact ⟨rfl, hmeters, rfl, rfl, rfl, rfl⟩

theorem Meters.act [Dsp.InPlace U] (h : s.Meters frames past (s.after past)) {deed : Deed U}
    (hframes : ∀ {σ : Type} [SignalSource σ] (source : σ), deed = .render source →
      ((s.after past).render source).output.frames = frames) :
    s.Meters frames (deed :: past) (s.after (deed :: past)) := by
  cases deed with
  | call call =>
    obtain ⟨hcontrol, hshared, hmixer⟩ := meters_called (s.after past) call
    exact h.congr rfl rfl rfl hcontrol hshared (congrArg Mixer.meters hmixer)
  | edit u write =>
    obtain ⟨-, heq | ⟨before, unit, -, -, heq⟩⟩ := (s.after past).act_edit u write
    · exact h.congr rfl rfl rfl (by rw [after, heq]) (by rw [after, heq]) (by rw [after, heq])
    · exact h.congr rfl rfl rfl (by rw [after, heq]) (by rw [after, heq]) (by rw [after, heq])
  | pause paused =>
    refine ⟨?_, h.shared, h.frames, h.left, h.right, h.clipped⟩
    show { (s.after past).engine.meters with paused } = _
    rw [h.control]
    rfl
  | meter metering =>
    refine ⟨?_, h.shared, h.frames, h.left, h.right, h.clipped⟩
    show { (s.after past).engine.meters with levelMetering := metering } = _
    rw [h.control]
    rfl
  | feed change => exact h.congr rfl rfl rfl rfl rfl rfl
  | tick => exact h.tick
  | render source => exact h.render source (hframes source rfl)
  | takeUp =>
    obtain ⟨hshared, hmixer⟩ := meters_takeUp (s.after past)
    exact h.congr rfl rfl rfl (congrArg Engine.meters (engine_takeUp _)) hshared hmixer

theorem meters_after [Dsp.InPlace U] (h : Session.start c tones = .ok s) {deeds : List (Deed U)}
    (hdeeds : ∀ deed ∈ deeds, deed.InPlace) :
    s.Meters c.framesPerBuffer.toNat deeds (s.after deeds) := by
  induction deeds with
  | nil => exact meters_start h
  | cons deed past ih =>
    rw [List.forall_mem_cons] at hdeeds
    refine (ih hdeeds.2).act ?_
    rintro σ _ source rfl
    have hsource : SignalSource.InPlace σ := hdeeds.1
    have hshaped := shaped_after h hdeeds.2
    exact AudioBuffer.frames_of_shape (Config.pos_of_fault? (fault?_of_start h)).2
      (hshaped.output ..)

theorem snapshot_act (s : Session U) {deed : Deed U} (hdeed : .tick ≠ deed) :
    (s.act deed).1.engine.meters.snapshot = s.engine.meters.snapshot := by
  cases deed with
  | call call => exact congrArg MeterControl.snapshot (s.meters_called call).1
  | edit u write =>
    obtain ⟨-, heq | ⟨before, unit, -, -, heq⟩⟩ := s.act_edit u write <;> rw [heq]
  | tick => exact absurd rfl hdeed
  | takeUp => exact congrArg (fun e : Engine U => e.meters.snapshot) s.engine_takeUp
  | pause paused | meter metering => rfl
  | feed change => rfl
  | render source => rfl

/-- What the control side knows of the mix after a run is how many frames there were before the
latest buffer before the latest tick, and what was measured of the buffer before that one. Until the
next tick it learns nothing else. -/
theorem snapshot_follows_ticks [Dsp.InPlace U] (h : Session.start c tones = .ok s)
    {deeds : List (Deed U)} (hdeeds : ∀ deed ∈ deeds, deed.InPlace) :
    (s.after deeds).engine.meters.snapshot = s.known c.framesPerBuffer.toNat deeds ∧
      ∀ later, .tick ∉ later → (s.after (later ++ deeds)).engine.meters.snapshot =
        (s.after deeds).engine.meters.snapshot := by
  refine ⟨congrArg MeterControl.snapshot (meters_after h hdeeds).control, fun later hlater => ?_⟩
  induction later with
  | nil => rfl
  | cons deed later ih =>
    rw [List.mem_cons, not_or] at hlater
    exact (snapshot_act _ hlater.1).trans (ih hlater.2)

def pausing : List (Deed StockUnit) :=
  [.render Silence.mk, .render (humming.stream quarterTurned), .tick, .pause true,
    .render Silence.mk, .render (humming.stream quarterTurned)]

theorem snapshot_follows_ticks_tiny :
    Session.start tinyConfig (.new 44100) = .ok tiny ∧
    (∀ deed ∈ pausing, deed.InPlace) ∧
    (tiny.after pausing).engine.meters.snapshot = ⟨1, 0.5, 0.5, false⟩ ∧
    (tiny.after (.tick :: pausing)).engine.meters.snapshot = ⟨3, 0, 0, false⟩ := by
  have hdeeds : ∀ deed ∈ pausing, deed.InPlace := by
    simp only [pausing, List.forall_mem_cons]
    exact ⟨inferInstanceAs (SignalSource.InPlace Silence),
      inferInstanceAs (SignalSource.InPlace ToneStream), trivial, trivial,
      inferInstanceAs (SignalSource.InPlace Silence),
      inferInstanceAs (SignalSource.InPlace ToneStream), by simp⟩
  have hticked : ∀ deed ∈ .tick :: pausing, deed.InPlace := List.forall_mem_cons.mpr ⟨trivial, hdeeds⟩
  refine ⟨start_tiny, hdeeds, ?_, ?_⟩
  · rw [(snapshot_follows_ticks start_tiny hdeeds).1]
    decide +kernel
  · rw [(snapshot_follows_ticks start_tiny hticked).1]
    decide +kernel

end Session

end Patchbay

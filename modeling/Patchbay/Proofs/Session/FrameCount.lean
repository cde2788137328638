import Patchbay.Engine.AudioThread
import Patchbay.Proofs.Session.Metering
import Patchbay.Proofs.Session.Threads

/-! Frames and buffers. The mixer publishes at the start of a buffer the frames of those before it,
and the audio thread publishes after a buffer how many it has made. So wherever the control side
breaks in, even within a buffer, the frames that it learns of never run ahead of the buffers. -/

namespace Patchbay

variable {σ U : Type} [SignalSource σ] [Dsp U]

def Mixer.finish (m : Mixer) (link : Link) (rack : Rack U) (source : σ) : Rendered U σ :=
  let (m, source, rack) := m.processInput source rack
  let (m, source, rack, output) := m.mix source rack
  ⟨{ m with meters := m.meters.measure output }, link, rack, source, output⟩

namespace Session

def begun (s : Session U) : List (Activity U) :=
  (s.mixer.prepare s.link ⟨s.engine.units, []⟩).2.2.journal

def finishBuffer (s : Session U) (journal : List (Activity U)) (source : σ) : Buffer U σ :=
  let r := s.mixer.finish s.link ⟨s.engine.units, journal⟩ source
  ⟨⟨{ s.engine with units := r.rack.units }, r.link, r.mixer⟩, r.source, r.output, r.rack.journal⟩

theorem render_eq (s : Session U) (source : σ) :
    s.render source = s.beginBuffer.finishBuffer s.begun source := rfl

end Session

/-- How far the audio thread is: with no buffer, within one, or with one that is not counted yet. -/
inductive Phase (U : Type)
  | idle
  | begun (journal : List (Activity U))
  | made

structure Playing (σ U : Type) where
  thread : AudioThread σ
  session : Session U
  phase : Phase U := .idle

namespace Playing

inductive Turn (σ U : Type) : Type 1
  | audio
  | control (deed : Deed U)
  /-- Something that the source shares with the control side is changed there. -/
  | retune (change : σ → σ)

def audio (p : Playing σ U) : Playing σ U :=
  match p.phase with
  | .idle =>
    if p.thread.broken then { p with phase := .made }
    else { p with session := p.session.beginBuffer, phase := .begun p.session.begun }
  | .begun journal =>
    if !p.session.mixer.meters.paused && SignalSource.breaks p.thread.source then
      { p with thread := { p.thread with asked := true, broken := true }, phase := .made }
    else
      let r := p.session.finishBuffer journal p.thread.source
      { thread := { p.thread with
          source := r.source
          made := p.thread.made + 1
          asked := p.thread.asked || !r.session.mixer.meters.paused }
        session := r.session
        phase := .made }
  | .made => { p with thread := p.thread.publish, phase := .idle }

def act (p : Playing σ U) : Turn σ U → Playing σ U
  | .audio => p.audio
  | .control deed => if deed.onMixer then p else { p with session := (p.session.act deed).1 }
  | .retune change => { p with thread.source := change p.thread.source }

def after (p : Playing σ U) : List (Turn σ U) → Playing σ U
  | [] => p
  | turn :: past => (p.after past).act turn

def snapshot (p : Playing σ U) : MeterSnapshot := p.session.engine.meters.snapshot

def buffers (p : Playing σ U) : Nat := p.thread.buffers.load

theorem after_append (p : Playing σ U) (later past : List (Turn σ U)) :
    p.after (later ++ past) = (p.after past).after later := by
  induction later with
  | nil => rfl
  | cons turn later ih => exact congrArg (act · turn) ih

/-- A step of the audio thread is some turns of it, with none of the control side between them. -/
theorem exists_after_step (t : AudioThread σ) (s : Session U) :
    ∃ n, (⟨t, s, .idle⟩ : Playing σ U).after (List.replicate n .audio) =
      ⟨(t.step s).1, (t.step s).2, .idle⟩ := by
  by_cases hbroken : t.broken
  · refine ⟨2, ?_⟩
    simp [after, act, audio, List.replicate, AudioThread.step, AudioThread.render, hbroken]
  · refine ⟨3, ?_⟩
    have hbreaks : (!s.beginBuffer.mixer.meters.paused && SignalSource.breaks t.source) =
        s.breaksOn t.source := rfl
    by_cases hbreak : s.breaksOn t.source
    · simp [after, act, audio, List.replicate, AudioThread.step, AudioThread.render, hbroken,
        hbreaks, hbreak]
    · simp [after, act, audio, List.replicate, AudioThread.step, AudioThread.render, hbroken,
        hbreaks, hbreak, Session.render_eq]

theorem exists_after_run (t : AudioThread σ) (s : Session U) (n : Nat) :
    ∃ k, (⟨t, s, .idle⟩ : Playing σ U).after (List.replicate k .audio) =
      ⟨(t.run s n).1, (t.run s n).2, .idle⟩ := by
  induction n with
  | zero => exact ⟨0, rfl⟩
  | succ n ih =>
    obtain ⟨k, hk⟩ := ih
    obtain ⟨m, hm⟩ := exists_after_step (t.run s n).1 (t.run s n).2
    refine ⟨m + k, ?_⟩
    rw [← List.replicate_append_replicate, after_append, hk]
    exact hm

end Playing

/-! What a buffer does to the counts. -/

namespace Mixer

variable {frames outputs inputs : Nat} {m : Mixer}

theorem meters_finish (m : Mixer) (link : Link) (rack : Rack U) (source : σ) :
    (m.finish link rack source).mixer.meters =
      m.meters.measure (m.finish link rack source).output := by
  have hmix := (m.processInput source rack).1.meters_mix (m.processInput source rack).2.1
    (m.processInput source rack).2.2
  rw [meters_processInput] at hmix
  exact congrArg (fun a : MeterAudio => a.measure (m.finish link rack source).output) hmix

variable [Dsp.InPlace U] [SignalSource.InPlace σ]

theorem Shaped.finish (h : m.Shaped frames outputs inputs) (link : Link) (rack : Rack U)
    (source : σ) : (m.finish link rack source).mixer.Shaped frames outputs inputs :=
  have hmix := (h.processInput source rack).mix _ _
  ⟨hmix.outputChannels, hmix.inputChannels, hmix.scratch, hmix.input⟩

theorem Shaped.frames_finish (h : m.Shaped frames outputs inputs) (houtputs : 0 < outputs)
    (link : Link) (rack : Rack U) (source : σ) :
    (m.finish link rack source).output.frames = frames := by
  have hmix := shape_mix (m.processInput source rack).1 (m.processInput source rack).2.1
    (m.processInput source rack).2.2
  rw [(h.processInput source rack).blank, AudioBuffer.shape_silent] at hmix
  exact AudioBuffer.frames_of_shape houtputs hmix

end Mixer

namespace Session

theorem framesMixed_beginBuffer (s : Session U) :
    s.beginBuffer.mixer.meters.framesMixed = s.mixer.meters.framesMixed ∧
      s.beginBuffer.link.meters.framesMixed.load = s.mixer.meters.framesMixed := by
  obtain ⟨units, overflow, heq⟩ := s.mixer.exists_drain s.link
  have hframes : (s.mixer.drain s.link).1.meters.framesMixed = s.mixer.meters.framesMixed := by
    rw [heq]
  exact ⟨hframes, hframes⟩

theorem framesMixed_tick (s : Session U) :
    s.tick.1.engine.meters.snapshot.framesMixed = s.link.meters.framesMixed.load := rfl

theorem mixer_act (s : Session U) {deed : Deed U} (hdeed : deed.onMixer = false) :
    (s.act deed).1.mixer = s.mixer ∧
      (s.act deed).1.link.meters.framesMixed = s.link.meters.framesMixed := by
  cases deed with
  | call call =>
    obtain ⟨-, hlink, hmixer⟩ := s.meters_called call
    exact ⟨hmixer, congrArg MeterShared.framesMixed hlink⟩
  | edit u write =>
    obtain ⟨-, heq | ⟨before, unit, -, -, heq⟩⟩ := s.act_edit u write <;>
      exact ⟨by rw [heq], by rw [heq]⟩
  | pause paused | meter metering => exact ⟨rfl, rfl⟩
  | feed change => exact ⟨rfl, rfl⟩
  | tick => exact ⟨rfl, rfl⟩
  | render source | takeUp => cases hdeed

end Session

namespace Playing

/-- The mixer has counted the frames of all buffers that were made. Of these all but the latest have
been published as buffers at least, at most these as frames, and no more are known. -/
structure Counts (frames outputs inputs : Nat) (p : Playing σ U) : Prop where
  shaped : p.session.mixer.Shaped frames outputs inputs
  mixed : p.session.mixer.meters.framesMixed = frames * p.thread.made
  buffers_le : p.buffers ≤ p.thread.made
  counted : p.phase ≠ .made → p.buffers = p.thread.made
  shared : ∃ k ≤ p.buffers, p.session.link.meters.framesMixed.load = frames * k
  snapshot : frames ∣ p.snapshot.framesMixed
  snapshot_le : p.snapshot.framesMixed ≤ p.session.link.meters.framesMixed.load

variable {frames outputs inputs : Nat} {p : Playing σ U}

omit [SignalSource σ] in
theorem Counts.begin (h : p.Counts frames outputs inputs) (hidle : p.phase = .idle)
    (journal : List (Activity U)) :
    Counts frames outputs inputs
      { p with session := p.session.beginBuffer, phase := .begun journal } := by
  obtain ⟨hmixer, hshared⟩ := p.session.framesMixed_beginBuffer
  have hcounted := h.counted (by simp [hidle])
  obtain ⟨k, hk, hload⟩ := h.shared
  exact { h with
    shaped := h.shaped.prepare p.session.link (⟨p.session.engine.units, []⟩ : Rack U)
    mixed := hmixer.trans h.mixed
    counted := fun _ => hcounted
    shared := ⟨p.thread.made, Nat.le_of_eq hcounted.symm, hshared.trans h.mixed⟩
    snapshot_le := by
      -- what was published before is no more than what is published now
      refine Nat.le_trans h.snapshot_le ?_
      show _ ≤ p.session.beginBuffer.link.meters.framesMixed.load
      rw [hshared, h.mixed, hload]
      exact Nat.mul_le_mul_left _ (Nat.le_trans hk h.buffers_le) }

theorem Counts.finish [Dsp.InPlace U] [SignalSource.InPlace σ]
    (h : p.Counts frames outputs inputs) (houtputs : 0 < outputs)
    (journal : List (Activity U)) (asked : Bool) :
    Counts frames outputs inputs
      { thread := { p.thread with
          source := (p.session.finishBuffer journal p.thread.source).source
          made := p.thread.made + 1
          asked }
        session := (p.session.finishBuffer journal p.thread.source).session
        phase := .made } := by
  have hmeters := p.session.mixer.meters_finish p.session.link
    ⟨p.session.engine.units, journal⟩ p.thread.source
  rw [MeterAudio.measure_eq] at hmeters
  exact { h with
    shaped := h.shaped.finish p.session.link ⟨p.session.engine.units, journal⟩ p.thread.source
    mixed := by
      refine (congrArg MeterAudio.framesMixed hmeters).trans ?_
      show p.session.mixer.meters.framesMixed + _ = frames * (p.thread.made + 1)
      rw [h.shaped.frames_finish houtputs, h.mixed, Nat.mul_succ]
    buffers_le := Nat.le_succ_of_le h.buffers_le
    counted := fun hmade => absurd rfl hmade }

omit [SignalSource σ] [Dsp U] in
theorem Counts.publish (h : p.Counts frames outputs inputs) :
    Counts frames outputs inputs { p with thread := p.thread.publish, phase := .idle } := by
  obtain ⟨k, hk, hload⟩ := h.shared
  exact { h with
    buffers_le := Nat.le_refl _
    counted := fun _ => rfl
    shared := ⟨k, Nat.le_trans hk h.buffers_le, hload⟩ }

omit [SignalSource σ] [Dsp U] in
theorem Counts.stop (h : p.Counts frames outputs inputs) (asked broken : Bool) :
    Counts frames outputs inputs
      { p with thread := { p.thread with asked, broken }, phase := .made } :=
  { h with counted := fun hmade => absurd rfl hmade }

omit [SignalSource σ] in
theorem snapshot_control (p : Playing σ U) (deed : Deed U) :
    (p.session.act deed).1.engine.meters.snapshot.framesMixed = p.snapshot.framesMixed ∨
      (p.session.act deed).1.engine.meters.snapshot.framesMixed =
        p.session.link.meters.framesMixed.load := by
  by_cases htick : .tick = deed
  · exact .inr (htick ▸ p.session.framesMixed_tick)
  · exact .inl (congrArg MeterSnapshot.framesMixed (p.session.snapshot_act htick))

omit [SignalSource σ] in
theorem Counts.control (h : p.Counts frames outputs inputs) {deed : Deed U}
    (hdeed : deed.onMixer = false) :
    Counts frames outputs inputs { p with session := (p.session.act deed).1 } := by
  obtain ⟨hmixer, hshared⟩ := p.session.mixer_act hdeed
  obtain ⟨k, hk, hload⟩ := h.shared
  exact { h with
    shaped := hmixer ▸ h.shaped
    mixed := hmixer ▸ h.mixed
    shared := ⟨k, hk, hshared ▸ hload⟩
    snapshot := by
      rcases p.snapshot_control deed with heq | heq
      · exact (congrArg (frames ∣ ·) heq).mpr h.snapshot
      · exact (congrArg (frames ∣ ·) heq).mpr ⟨k, hload⟩
    snapshot_le := by
      show (p.session.act deed).1.engine.meters.snapshot.framesMixed ≤
        (p.session.act deed).1.link.meters.framesMixed.load
      rw [hshared]
      rcases p.snapshot_control deed with heq | heq
      · exact heq ▸ h.snapshot_le
      · exact Nat.le_of_eq heq }

theorem act_control (p : Playing σ U) (deed : Deed U) : p.act (.control deed) = p ∨
    deed.onMixer = false ∧
      p.act (.control deed) = { p with session := (p.session.act deed).1 } := by
  by_cases hdeed : deed.onMixer
  · exact .inl (if_pos hdeed)
  · exact .inr ⟨Bool.eq_false_iff.mpr hdeed, if_neg hdeed⟩

theorem snapshot_audio (p : Playing σ U) : p.audio.snapshot = p.snapshot := by
  unfold Playing.audio
  cases p.phase with
  | idle | begun _ => dsimp only; split <;> rfl
  | made => rfl

theorem snapshot_act {p : Playing σ U} {turn : Turn σ U} (hturn : turn ≠ .control .tick) :
    (p.act turn).snapshot = p.snapshot := by
  cases turn with
  | audio => exact p.snapshot_audio
  | control deed =>
    rcases p.act_control deed with heq | ⟨-, heq⟩
    · rw [heq]
    · rw [heq]
      exact p.session.snapshot_act fun htick => hturn (htick ▸ rfl)
  | retune change => rfl

theorem Counts.snapshot_act_le (h : p.Counts frames outputs inputs) (turn : Turn σ U) :
    p.snapshot.framesMixed ≤ (p.act turn).snapshot.framesMixed := by
  cases turn with
  | audio => exact Nat.le_of_eq (congrArg MeterSnapshot.framesMixed p.snapshot_audio.symm)
  | control deed =>
    rcases p.act_control deed with heq | ⟨-, heq⟩
    · rw [heq]
    · rw [heq]
      rcases p.snapshot_control deed with hsame | hload
      · exact Nat.le_of_eq hsame.symm
      · exact Nat.le_trans h.snapshot_le (Nat.le_of_eq hload.symm)
  | retune change => exact Nat.le_refl _

theorem Counts.buffers_act_le (h : p.Counts frames outputs inputs) (turn : Turn σ U) :
    p.buffers ≤ (p.act turn).buffers := by
  cases turn with
  | audio =>
    show p.buffers ≤ p.audio.buffers
    unfold Playing.audio
    cases p.phase with
    | idle | begun _ => dsimp only; split <;> exact Nat.le_refl _
    | made => exact h.buffers_le
  | control deed =>
    rcases p.act_control deed with heq | ⟨-, heq⟩ <;> rw [heq]
    exact Nat.le_refl _
  | retune change => exact Nat.le_refl _

omit [SignalSource σ] [Dsp U] in
theorem Counts.snapshot_le_buffers (h : p.Counts frames outputs inputs) :
    p.snapshot.framesMixed ≤ frames * p.buffers := by
  obtain ⟨k, hk, hload⟩ := h.shared
  exact Nat.le_trans h.snapshot_le (hload ▸ Nat.mul_le_mul_left _ hk)

variable [Dsp.InPlace U] [SignalSource.InPlace σ]

theorem Counts.audio (h : p.Counts frames outputs inputs) (houtputs : 0 < outputs) :
    p.audio.Counts frames outputs inputs := by
  unfold Playing.audio
  cases hphase : p.phase with
  | idle =>
    dsimp only
    split
    · exact h.stop ..
    · exact h.begin hphase _
  | begun journal =>
    dsimp only
    split
    · exact h.stop ..
    · exact h.finish houtputs ..
  | made => exact h.publish

theorem Counts.act (h : p.Counts frames outputs inputs) (houtputs : 0 < outputs)
    (turn : Turn σ U) : (p.act turn).Counts frames outputs inputs := by
  cases turn with
  | audio => exact h.audio houtputs
  | control deed =>
    rcases p.act_control deed with heq | ⟨hdeed, heq⟩
    · rw [heq]
      exact h
    · rw [heq]
      exact h.control hdeed
  | retune change => exact { h with }

theorem Counts.after (h : p.Counts frames outputs inputs) (houtputs : 0 < outputs)
    (turns : List (Turn σ U)) : (p.after turns).Counts frames outputs inputs := by
  induction turns with
  | nil => exact h
  | cons turn past ih => exact ih.act houtputs turn

/-- Frames that are known after a run never run ahead of buffers that are seen. -/
structure FramesBehind (frames : Nat) (p : Playing σ U) (past : List (Turn σ U)) : Prop where
  whole : frames ∣ (p.after past).snapshot.framesMixed
  later : ∀ turns, (p.after past).snapshot.framesMixed ≤ frames * (p.after (turns ++ past)).buffers
  /-- Buffers that were seen before the snapshot is looked at, but not before it was taken. -/
  earlier : ∀ turns, .control .tick ∉ turns →
    (p.after (turns ++ past)).snapshot.framesMixed ≤ frames * (p.after past).buffers
  grow : ∀ turns,
    (p.after past).snapshot.framesMixed ≤ (p.after (turns ++ past)).snapshot.framesMixed ∧
      (p.after past).buffers ≤ (p.after (turns ++ past)).buffers

theorem Counts.grow (h : p.Counts frames outputs inputs) (houtputs : 0 < outputs)
    (turns : List (Turn σ U)) :
    p.snapshot.framesMixed ≤ (p.after turns).snapshot.framesMixed ∧
      p.buffers ≤ (p.after turns).buffers := by
  induction turns with
  | nil => exact ⟨Nat.le_refl _, Nat.le_refl _⟩
  | cons turn past ih =>
    have hpast := h.after houtputs past
    exact ⟨Nat.le_trans ih.1 (hpast.snapshot_act_le turn),
      Nat.le_trans ih.2 (hpast.buffers_act_le turn)⟩

omit [Dsp.InPlace U] [SignalSource.InPlace σ] in
theorem snapshot_after {p : Playing σ U} {turns : List (Turn σ U)}
    (hturns : .control .tick ∉ turns) : (p.after turns).snapshot = p.snapshot := by
  induction turns with
  | nil => rfl
  | cons turn past ih =>
    rw [List.mem_cons, not_or] at hturns
    exact (snapshot_act (Ne.symm hturns.1)).trans (ih hturns.2)

theorem Counts.framesBehind (h : p.Counts frames outputs inputs) (houtputs : 0 < outputs)
    (past : List (Turn σ U)) : FramesBehind frames p past := by
  have hpast := h.after houtputs past
  have hbound := hpast.snapshot_le_buffers
  refine ⟨hpast.snapshot, fun turns => ?_, fun turns hturns => ?_, fun turns => ?_⟩
  · rw [after_append]
    exact Nat.le_trans hbound (Nat.mul_le_mul_left _ (hpast.grow houtputs turns).2)
  · rw [after_append, snapshot_after hturns]
    exact hbound
  · rw [after_append]
    exact hpast.grow houtputs turns

omit [SignalSource σ] [Dsp.InPlace U] [SignalSource.InPlace σ] in
theorem counts_start {c : Config} {tones : ToneBank} {s : Session U}
    (h : Session.start c tones = .ok s) (source : σ) :
    Counts c.framesPerBuffer.toNat c.channels.toNat c.inputChannels.toNat
      (⟨{ source }, s, .idle⟩ : Playing σ U) := by
  have hmeters : s.Meters 0 [] s := Session.meters_start h
  have hload : s.link.meters.framesMixed.load = 0 := by
    rw [hmeters.shared]
    rfl
  obtain ⟨link, -, rfl⟩ := Session.start_eq_ok h
  exact {
    shaped := Mixer.shaped_ofConfig c
    mixed := rfl
    buffers_le := Nat.le_refl _
    counted := fun _ => rfl
    shared := ⟨0, Nat.le_refl _, hload⟩
    snapshot := Nat.dvd_zero _
    snapshot_le := Nat.zero_le _ }

theorem framesBehind_start {c : Config} {tones : ToneBank} {s : Session U}
    (h : Session.start c tones = .ok s) (source : σ) (past : List (Turn σ U)) :
    FramesBehind c.framesPerBuffer.toNat (⟨{ source }, s, .idle⟩ : Playing σ U) past :=
  (counts_start h source).framesBehind (Config.pos_of_fault? (Session.fault?_of_start h)).2 past

end Playing

end Patchbay

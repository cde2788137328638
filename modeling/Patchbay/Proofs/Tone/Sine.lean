import Mathlib.Logic.Function.Iterate
import Patchbay.Proofs.Sound.Shape
import Patchbay.Proofs.Tone.Voices
import Patchbay.Tone.Source

/-! The sound of tones. In each buffer a voice walks on through the phases of its sine. What it
sends to its event is this walk alone, and different voices send to different events. -/

namespace Patchbay

namespace ToneSource

variable (s : ToneSource)

/-- The phase of a voice a frame later, in turns; whole turns drop out. -/
def turn (v : Voice) (phase : Sample) : Sample := (phase + v.frequency / s.sampleRate).fract

def walk (v : Voice) (phase : Sample) (frames : Nat) : List Sample :=
  (List.range frames).map fun k => v.amplitude * (Sample.tau * (s.turn v)^[k] phase).sin

theorem sineAt_eq (amplitude phase : Sample) :
    sineAt amplitude phase = amplitude * (Sample.tau * phase).sin := rfl

theorem advance_eq (v : Voice) : advance (s.increment v) = s.turn v := rfl

@[simp] theorem length_walk (v : Voice) (phase : Sample) (frames : Nat) :
    (s.walk v phase frames).length = frames := by
  simp [walk]

theorem repeat_walk (v : Voice) (phase : Sample) (frames : Nat) :
    Nat.repeat (fun p => (sineAt v.amplitude p.2 :: p.1, advance (s.increment v) p.2)) frames
        ([], phase) =
      ((s.walk v phase frames).reverse, (s.turn v)^[frames] phase) := by
  induction frames with
  | zero => rfl
  | succ n ih =>
    rw [Nat.repeat, ih, sineAt_eq, advance_eq, walk, walk, List.range_succ, List.map_append,
      List.reverse_append, Function.iterate_succ_apply']
    rfl

theorem renderVoice_eq (v : Voice) (phase : Sample) (frames : Nat) :
    s.renderVoice v phase frames =
      (s.walk v phase frames, (s.turn v)^[frames] phase) := by
  have hrepeat := s.repeat_walk v phase frames
  have hrender : s.renderVoice v phase frames = (List.reverse _, _) :=
    congrArg (fun p => (p.1.reverse, p.2)) hrepeat
  rw [hrender, List.reverse_reverse]

def playing (voices : List Voice) : List (Voice × Sample) :=
  (voices.zip s.phases).filter (·.1.playing)

theorem renderVoices_eq (voices : List Voice) (frames : Nat) :
    (s.renderVoices voices frames).1 = (s.playing voices).map fun p =>
      ⟨p.1.event, (·.writeFrames (s.walk p.1 p.2 frames))⟩ := by
  unfold renderVoices playing
  induction voices.zip s.phases with
  | nil => rfl
  | cons p rest ih =>
    dsimp only at ih ⊢
    cases hplaying : p.1.playing with
    | true => simp [hplaying, renderVoice_eq, ← ih]
    | false => simp [hplaying, ← ih]

end ToneSource

namespace ToneStream

variable (t : ToneStream) (frames channels : Nat)

def captured : Option AudioBuffer :=
  if 0 < channels ∧ t.input.playing then
    some (.ofFrames channels (t.source.walk t.input t.source.inputPhase frames))
  else none

/-- The sine of each voice that plays, for its event; lowest voice first. -/
def sent : List (Target × AudioBuffer) :=
  (t.source.playing t.voices).map fun p =>
    (.event p.1.event, .ofFrames channels (t.source.walk p.1 p.2 frames))

theorem event_of_mem_sent : ∀ p ∈ t.sent frames channels, ∃ event, p.1 = .event event := by
  intro p hp
  obtain ⟨q, -, rfl⟩ := List.mem_map.mp hp
  exact ⟨q.1.event, rfl⟩

instance : SignalSource.InPlace ToneStream where
  shape_captureInput t b input hinput := by
    simp only [SignalSource.captureInput, captureInput] at hinput
    split at hinput
    · cases hinput
      exact AudioBuffer.shape_write ..
    · cases hinput
  shape_write t b s hs scratch := by
    simp only [SignalSource.renderEvents, renderEvents, ToneSource.renderVoices_eq,
      List.mem_map] at hs
    obtain ⟨p, -, rfl⟩ := hs
    exact AudioBuffer.shape_write ..

theorem exists_captureInput (b : AudioBuffer) :
    ∃ phase, (t.captureInput b).2 = { t with source.inputPhase := phase } := by
  unfold captureInput
  split
  · exact ⟨_, rfl⟩
  · exact ⟨t.source.inputPhase, rfl⟩

theorem sent_captureInput (m n : Nat) (b : AudioBuffer) :
    (t.captureInput b).2.sent m n = t.sent m n := by
  obtain ⟨phase, hphase⟩ := t.exists_captureInput b
  rw [hphase]
  rfl

variable {frames channels}

theorem isEmpty_of_captured (hframes : 0 < frames) :
    ∀ b ∈ t.captured frames channels, b.isEmpty = false := by
  intro b hb
  unfold ToneStream.captured at hb
  split at hb
  · rename_i hcaptured
    cases hb
    exact AudioBuffer.isEmpty_of_shape hcaptured.1
      (by simp [AudioBuffer.shape_ofFrames]) hframes
  · cases hb

variable {b : AudioBuffer} (h : 0 < channels)
  (hb : b.shape = (frames * channels, channels))

include h hb

theorem captureInput_eq : (t.captureInput b).1 = t.captured frames channels := by
  unfold captureInput captured
  rw [ToneSource.renderVoice_eq, AudioBuffer.frames_of_shape h hb]
  by_cases hplays : t.input.playing
  · rw [if_pos hplays, if_pos ⟨h, hplays⟩]
    exact congrArg some (AudioBuffer.writeFrames_eq h hb (by simp))
  · rw [if_neg hplays, if_neg fun hcaptured => hplays hcaptured.2]

theorem sends_renderEvents : List.Forall₂ (Sounding.Sends (frames * channels, channels))
    (t.renderEvents b).1 (t.sent frames channels) := by
  simp only [renderEvents, ToneSource.renderVoices_eq, sent, List.forall₂_map_left_iff,
    List.forall₂_map_right_iff, AudioBuffer.frames_of_shape h hb]
  apply List.forall₂_same.mpr
  intro p _
  exact {
    target := rfl
    write := fun b hb => AudioBuffer.writeFrames_eq h hb (by simp)
    shape := by simp [AudioBuffer.shape_ofFrames] }

end ToneStream

theorem ToneBank.Voiced.nodup_sent {b : ToneBank} (h : b.Voiced) (source : ToneSource)
    (frames channels : Nat) :
    (((b.stream source).sent frames channels).map Prod.fst).Nodup := by
  have hevents : (((b.stream source).sent frames channels).map Prod.fst) =
      ((source.playing (b.slots.map (·.voice))).map (·.1.event)).map Target.event := by
    simp [ToneStream.sent, ToneBank.stream]
  rw [hevents]
  apply List.Nodup.map (fun _ _ => Target.event.inj)
  have hvoices : (((b.slots.map (·.voice)).zip source.phases).map Prod.fst).Sublist
      (b.slots.map (·.voice)) := by
    rw [List.zip_eq_zip_take_min, List.map_fst_zip (by simp)]
    exact List.take_sublist ..
  have hplaying := (hvoices.filter (·.playing)).map (·.event)
  rw [List.filter_map, List.map_map] at hplaying
  exact h.nodup_playing.sublist hplaying

end Patchbay

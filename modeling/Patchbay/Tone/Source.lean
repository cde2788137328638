import Patchbay.Number.Sine
import Patchbay.Sound.Source
import Patchbay.Tone.Bank

/-!
Rendering tones. Every voice walks through the phases of its sine, one step a frame, while it plays;
so does the synthetic input.
-/

namespace Patchbay

/-- How far each voice has got, in turns. -/
structure ToneSource where
  sampleRate : Sample
  phases : List Sample := List.replicate maxTones 0
  inputPhase : Sample := 0

namespace ToneSource

def new (rate : UInt32) : ToneSource := { sampleRate := Sample.ofNat rate.toNat }

def advance (increment phase : Sample) : Sample := (phase + increment).fract

def sineAt (amplitude phase : Sample) : Sample := amplitude * (Sample.tau * phase).sin

def increment (s : ToneSource) (v : Voice) : Sample := v.frequency / s.sampleRate

/-- One buffer of a voice: the samples of its frames and its next phase. -/
def renderVoice (s : ToneSource) (v : Voice) (phase : Sample) (frames : Nat) :
    List Sample × Sample :=
  let (xs, next) := Nat.repeat (fun (xs, phase) =>
    (sineAt v.amplitude phase :: xs, advance (s.increment v) phase)) frames ([], phase)
  (xs.reverse, next)

/-- The playing voices with their sound, lowest first, and the next phase of every voice. -/
def renderVoices (s : ToneSource) (voices : List Voice) (frames : Nat) :
    List Sounding × List Sample :=
  let each := (voices.zip s.phases).map fun (v, phase) =>
    if v.playing then
      let (xs, next) := s.renderVoice v phase frames
      (some (Sounding.mk v.event (·.writeFrames xs)), next)
    else (none, phase)
  (each.filterMap Prod.fst, each.map Prod.snd)

end ToneSource

structure ToneStream where
  voices : List Voice
  input : Voice
  source : ToneSource

namespace ToneStream

def captureInput (t : ToneStream) (b : AudioBuffer) : Option AudioBuffer × ToneStream :=
  if t.input.playing then
    let (xs, next) := t.source.renderVoice t.input t.source.inputPhase b.frames
    (some (b.writeFrames xs), { t with source.inputPhase := next })
  else (none, t)

def renderEvents (t : ToneStream) (b : AudioBuffer) : List Sounding × ToneStream :=
  let (sounds, phases) := t.source.renderVoices t.voices b.frames
  (sounds, { t with source.phases := phases })

instance : SignalSource ToneStream where
  captureInput := captureInput
  renderEvents := renderEvents

end ToneStream

def ToneBank.stream (b : ToneBank) (source : ToneSource) : ToneStream :=
  ⟨b.slots.map (·.voice), b.input, source⟩

end Patchbay

import Patchbay.Route.Handle
import Patchbay.Sound.Buffer

/-!
Where sound comes from. For each buffer a source may capture input, and it gives the events that
sound in it, each with the way it writes its samples; the buffer that it writes to may hold
anything.
-/

namespace Patchbay

structure Sounding where
  event : EventHandle
  write : AudioBuffer → AudioBuffer

class SignalSource (σ : Type) where
  /-- Fills a buffer with input, unless none was captured. -/
  captureInput : σ → AudioBuffer → Option AudioBuffer × σ
  /-- The events that sound in the next buffer of the same geometry, in order. -/
  renderEvents : σ → AudioBuffer → List Sounding × σ
  /-- Whether asking for the events breaks the thread that asks. -/
  breaks : σ → Bool := fun _ => false

/-- What each event leaves in a scratch buffer that all of them share. -/
def Sounding.contents : List Sounding → AudioBuffer → List (EventHandle × AudioBuffer)
  | [], _ => []
  | s :: rest, b => let b := s.write b; (s.event, b) :: contents rest b

structure Silence where

instance : SignalSource Silence where
  captureInput s _ := (none, s)
  renderEvents s _ := ([], s)

/-- A source that plays the same events in every buffer, each a pattern repeated. -/
structure Playback where
  events : List (EventHandle × List Sample) := []
  input : Option (List Sample) := none
  breaks : Bool := false

instance : SignalSource Playback where
  captureInput s b := (s.input.map b.fillPattern, s)
  renderEvents s _ := (s.events.map fun (event, pattern) => ⟨event, (·.fillPattern pattern)⟩, s)
  breaks := Playback.breaks

end Patchbay

import Patchbay.Engine.Mixer
import Patchbay.Engine.Operation

/-!
An engine and the mixer it drives, with the link between them. A session is what both threads
together can do to one another: the engine's operations send their commands one by one, and the
mixer takes them up at its next buffer.
-/

namespace Patchbay

structure Session (U : Type) where
  engine : Engine U
  link : Link
  mixer : Mixer

namespace Session

variable {U : Type}

/-- A session without units, for a configuration in range that memory has room for. -/
def start (c : Config) (tones : ToneBank) : Except EngineError (Session U) := do
  c.validate.mapError .config
  match Link.ofCapacity? c.queueCapacity.toNat c.maxUnits.toNat with
  | some link => .ok ⟨.ofConfig c tones, link, .ofConfig c⟩
  | none => .error .beyondMemory

def withConsole (s : Session U) (c : Console U) : Session U :=
  { s with engine := c.engine, link.commands := c.commands }

/-- Does one operation of the engine, and goes on with what it leaves, also after a failure. -/
def attempt {α : Type} (s : Session U) (op : Operation U α) : Except EngineError α × Session U :=
  match op ⟨s.engine, s.link.commands⟩ with
  | .ok a c => (.ok a, s.withConsole c)
  | .error e c => (.error e, s.withConsole c)

def perform {α : Type} (s : Session U) (op : Operation U α) :
    Except EngineError (α × Session U) :=
  match s.attempt op with
  | (.ok a, s) => .ok (a, s)
  | (.error e, _) => .error e

variable [Dsp U]

def tick (s : Session U) : Session U × List (Activity U) :=
  let (engine, link, journal) := s.engine.tick s.link
  ({ s with engine, link }, journal)

structure Buffer (U σ : Type) where
  session : Session U
  source : σ
  output : AudioBuffer
  journal : List (Activity U)

def render {σ : Type} [SignalSource σ] (s : Session U) (source : σ) : Buffer U σ :=
  let r := s.mixer.render s.link ⟨s.engine.units, []⟩ source
  ⟨⟨{ s.engine with units := r.rack.units }, r.link, r.mixer⟩, r.source, r.output, r.rack.journal⟩

/-- Whether the next buffer breaks off when it asks the source for events. -/
def breaksOn {σ : Type} [SignalSource σ] (s : Session U) (source : σ) : Bool :=
  !s.link.meters.paused.load && SignalSource.breaks source

def beginBuffer (s : Session U) : Session U :=
  let (mixer, link, rack) := s.mixer.prepare s.link ⟨s.engine.units, []⟩
  ⟨{ s.engine with units := rack.units }, link, mixer⟩

end Session

end Patchbay

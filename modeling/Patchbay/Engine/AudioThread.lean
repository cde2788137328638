import Patchbay.Engine.Session

/-!
The audio thread makes one buffer after the other, and after each it publishes how many it has
made. A source that breaks ends the thread, and the mixer is lost with it.
-/

namespace Patchbay

structure AudioThread (σ : Type) where
  source : σ
  made : Nat := 0
  buffers : Shared Nat := ⟨0⟩
  asked : Bool := false
  broken : Bool := false

namespace AudioThread

variable {σ U : Type} [SignalSource σ] [Dsp U]

def render (t : AudioThread σ) (s : Session U) : AudioThread σ × Session U :=
  if t.broken then (t, s)
  else if s.breaksOn t.source then ({ t with asked := true, broken := true }, s.beginBuffer)
  else
    let r := s.render t.source
    ({ t with
        source := r.source
        made := t.made + 1
        asked := t.asked || !r.session.mixer.meters.paused }, r.session)

def publish (t : AudioThread σ) : AudioThread σ := { t with buffers := t.buffers.store t.made }

def step (t : AudioThread σ) (s : Session U) : AudioThread σ × Session U :=
  let (t, s) := t.render s
  (t.publish, s)

def run (t : AudioThread σ) (s : Session U) (n : Nat) : AudioThread σ × Session U :=
  Nat.repeat (fun (t, s) => t.step s) n (t, s)

end AudioThread

end Patchbay

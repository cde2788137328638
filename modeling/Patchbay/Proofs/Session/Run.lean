import Patchbay.Engine.Session
import Patchbay.Proofs.Engine.Call
import Patchbay.Unit.Stock

/-! Runs of a session. Calls of the engine, control ticks and buffers come in any order, and the
mixer may take up single commands anywhere between them. -/

namespace Patchbay

inductive Deed (U : Type) : Type 1
  | call (call : Call U)
  | edit (unit : UnitHandle) (write : U → Option U)
  | pause (paused : Bool)
  | meter (metering : Bool)
  | feed (change : Voice → Voice)
  | tick
  | render {σ : Type} [SignalSource σ] (source : σ)
  | takeUp

namespace Session

variable {U : Type}

def takeUp (s : Session U) : Session U :=
  match s.link.commands.pop? with
  | none => s
  | some (c, commands) =>
    let (mixer, retired) := s.mixer.apply s.link.retired c
    { s with mixer, link := { s.link with commands, retired } }

theorem attempt_of_ok {α : Type} {s : Session U} {op : Operation U α} {a : α} {c : Console U}
    (h : op ⟨s.engine, s.link.commands⟩ = .ok a c) : (s.attempt op).1 = .ok a := by
  unfold attempt
  rw [h]

theorem attempt_of_error {α : Type} {s : Session U} {op : Operation U α} {e : EngineError}
    {c : Console U} (h : op ⟨s.engine, s.link.commands⟩ = .error e c) :
    (s.attempt op).1 = .error e := by
  unfold attempt
  rw [h]

theorem attempt_call (s : Session U) (call : Call U) :
    (∃ e, s.attempt call.operation = (.error e, s)) ∨
      ∃ answer t, s.attempt call.operation = (.ok answer, t) ∧
        call.Done ⟨s.engine, s.link.commands⟩ answer ⟨t.engine, t.link.commands⟩ ∧
        t.mixer = s.mixer ∧ t.link.retired = s.link.retired := by
  have hends := call.ends ⟨s.engine, s.link.commands⟩
  unfold Ends at hends
  unfold attempt
  cases hop : call.operation ⟨s.engine, s.link.commands⟩ with
  | ok answer d =>
    rw [hop] at hends
    exact Or.inr ⟨answer, _, rfl, hends, rfl, rfl⟩
  | error e d =>
    rw [hop] at hends
    rw [hends]
    exact Or.inl ⟨e, rfl⟩

variable [Dsp U]

def act (s : Session U) : Deed U → Session U × List (Activity U)
  | .call call => ((s.attempt call.operation).2, [])
  | .edit u write =>
    match s.engine.edit u write with
    | .ok engine => ({ s with engine }, [])
    | .error _ => (s, [])
  | .pause paused => ({ s with engine := s.engine.setPaused paused }, [])
  | .meter metering => ({ s with engine := s.engine.setMetering metering }, [])
  | .feed change => ({ s with engine.tones.input := change s.engine.tones.input }, [])
  | .tick => s.tick
  | @Deed.render _ _ _ source => ((s.render source).session, (s.render source).journal)
  | .takeUp => (s.takeUp, [])

/-- The session after a run, of which the latest deed comes first. -/
def after (s : Session U) : List (Deed U) → Session U
  | [] => s
  | deed :: past => ((s.after past).act deed).1

/-! A session that can be followed by hand. -/

def tinyConfig : Config :=
  { channels := 1, inputChannels := 0, framesPerBuffer := 1, maxUnits := 2, queueCapacity := 4 }

def tiny : Session StockUnit where
  engine := .ofConfig tinyConfig (.new 44100)
  link := { commands := { capacity := 4 }, retired := { capacity := 2 } }
  mixer := .ofConfig tinyConfig

theorem start_tiny : Session.start tinyConfig (.new 44100) = .ok tiny := rfl

def pairConfig : Config := { tinyConfig with framesPerBuffer := 2 }

def pair : Session StockUnit where
  engine := .ofConfig pairConfig (.new 44100)
  link := { commands := { capacity := 4 }, retired := { capacity := 2 } }
  mixer := .ofConfig pairConfig

theorem start_pair : Session.start pairConfig (.new 44100) = .ok pair := rfl

end Session

end Patchbay

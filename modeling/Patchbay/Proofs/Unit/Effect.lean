import Patchbay.Proofs.Unit.Rack
import Patchbay.Unit.Stock

/-! What units do to sound. A steady unit does what the control side published last, and nothing
that the mixer does in between makes a difference to this. -/

namespace Patchbay

/-- What a unit does to a buffer at whose start it exchanges audio fields. -/
def Dsp.effect {U : Type} [Dsp U] (u : U) (b : AudioBuffer) : AudioBuffer :=
  (process b (exchangeAudio u)).1

/-- Units whose effect is decided by their control fields at each control tick, until the next. -/
class Dsp.Steady (U : Type) [Dsp U] where
  published : Control U → AudioBuffer → AudioBuffer
  effect_exchangeControl : ∀ u : U, effect (exchangeControl u) = published (control u)
  effect_exchangeAudio : ∀ u : U, effect (exchangeAudio u) = effect u
  effect_process : ∀ (b : AudioBuffer) (u : U), effect (process b u).2 = effect u

def StockUnit.Control.effect : StockUnit.Control → AudioBuffer → AudioBuffer
  | gain c => (·.map (· * c.gain))
  | fader c => (·.map (· * c.gain))
  | probe c => (·.map (· + Sample.ofNat (c.ticks + 1).toNat))
  | peak _ | bypass => id

instance : Dsp.Steady StockUnit where
  published := StockUnit.Control.effect
  effect_exchangeControl u := by cases u <;> rfl
  effect_exchangeAudio u := by cases u <;> rfl
  effect_process b u := by cases u <;> rfl

namespace Activity

variable {U : Type} [Dsp U] [Dsp.Steady U]

theorem Chain.keeps {es : List (Activity U)} {x y : U} (h : Chain x es y)
    (hes : ∀ e ∈ es, e.kind = .exchangedAudio ∨ ∃ b, e.kind = .processed b) :
    Dsp.control y = Dsp.control x ∧ Dsp.effect y = Dsp.effect x := by
  induction es generalizing x with
  | nil =>
    cases h
    exact ⟨rfl, rfl⟩
  | cons e es ih =>
    obtain ⟨rfl, h⟩ := h
    rw [List.forall_mem_cons] at hes
    obtain ⟨hcontrol, heffect⟩ := ih h hes.2
    rw [hcontrol, heffect]
    unfold Activity.after
    rcases hes.1 with hkind | ⟨b, hkind⟩
    · rw [hkind]
      exact ⟨Dsp.control_exchangeAudio _, Dsp.Steady.effect_exchangeAudio _⟩
    · rw [hkind]
      exact ⟨Dsp.control_process b _, Dsp.Steady.effect_process b _⟩

end Activity

end Patchbay

import Patchbay.Proofs.Number.Order
import Patchbay.Proofs.Unit.Rack
import Patchbay.Unit.Stock

/-! Gain meters among other units, and what becomes of one in a series of exchanges and buffers. -/

namespace Patchbay

/-- A type of units, some of which are gain meters and stay what they are. -/
class GainMetered (U : Type) [Dsp U] where
  meter? : U → Option GainMeter
  meter?_exchangeControl : ∀ u, meter? (Dsp.exchangeControl u) =
    (meter? u).map (·.onControl GainMeter.Control.exchange)
  meter?_exchangeAudio : ∀ u, meter? (Dsp.exchangeAudio u) =
    (meter? u).map (·.onAudio GainMeter.Audio.exchange)
  meter?_process : ∀ b u, meter? (Dsp.process b u).2 =
    (meter? u).map fun g => (g.onBuffer GainMeter.Audio.process b).2
  process_eq : ∀ b u g, meter? u = some g →
    (Dsp.process b u).1 = (g.onBuffer GainMeter.Audio.process b).1

export GainMetered (meter?)

instance : GainMetered StockUnit where
  meter?
    | .gain g => some g
    | _ => none
  meter?_exchangeControl u := by cases u <;> rfl
  meter?_exchangeAudio u := by cases u <;> rfl
  meter?_process b u := by cases u <;> rfl
  process_eq b u g h := by
    cases u with
    | gain g' => cases h; rfl
    | peak _ | fader _ | probe _ | bypass => cases h

open Activity

variable {U : Type} [Dsp U]

/-- The root mean square of the buffer as the unit left it, if the unit processed one. The squares
are summed from the first sample on. -/
def Activity.level? (e : Activity U) : Option Sample :=
  match e.kind with
  | .processed b =>
    let xs := (Dsp.process b e.state).1.samples
    some ((((xs.map fun x => x * x).foldl (· + ·) 0) / Sample.ofNat xs.length).sqrt)
  | _ => none

theorem GainMeter.meanSquareRoot_eq (xs : List Sample) : GainMeter.meanSquareRoot xs =
    (((xs.map fun x => x * x).foldl (· + ·) 0) / Sample.ofNat xs.length).sqrt := by
  rw [List.foldl_map, GainMeter.meanSquareRoot]

variable [GainMetered U]

/-- Sound that runs through a gain meter changes its audio level to that of the last buffer and
nothing else of it, and each buffer is amplified by the one gain that its audio fields hold. -/
theorem meter?_of_chain {es : List (Activity U)} {x y : U} {g : GainMeter}
    (hchain : Chain x es y) (hkind : ∀ e ∈ es, ∃ b, e.kind = .processed b)
    (hx : meter? x = some g) :
    meter? y = some { g with
        audio.rms := (es.filterMap level?).getLast?.getD g.audio.rms } ∧
      ∀ e ∈ es, ∀ b, e.kind = .processed b →
        (Dsp.process b e.state).1 = b.map (· * g.audio.gain) := by
  induction es generalizing x g with
  | nil =>
    cases hchain
    exact ⟨hx, by simp⟩
  | cons e es ih =>
    obtain ⟨rfl, hchain⟩ := hchain
    obtain ⟨b, hb⟩ := hkind e List.mem_cons_self
    have hout : (Dsp.process b e.state).1 = b.map (· * g.audio.gain) :=
      GainMetered.process_eq b e.state g hx
    have hafter : meter? e.after = some { g with
        audio.rms := GainMeter.meanSquareRoot (Dsp.process b e.state).1.samples } := by
      unfold Activity.after
      rw [hb]
      dsimp only
      rw [GainMetered.meter?_process, hx, hout]
      rfl
    obtain ⟨hy, hrest⟩ := ih hchain (fun f hf => hkind f (List.mem_cons_of_mem _ hf)) hafter
    refine ⟨?_, ?_⟩
    · rw [hy]
      have hlevel : e.level? =
          some (GainMeter.meanSquareRoot (Dsp.process b e.state).1.samples) := by
        unfold Activity.level?
        rw [hb, GainMeter.meanSquareRoot_eq]
      rw [List.filterMap_cons, hlevel, List.getLast?_cons]
      rfl
    · intro f hf c hc
      rcases List.mem_cons.mp hf with rfl | hf
      · rw [hb] at hc
        cases hc
        exact hout
      · exact hrest f hf c hc

end Patchbay

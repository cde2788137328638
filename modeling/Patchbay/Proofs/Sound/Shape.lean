import Mathlib.Data.List.Forall2
import Patchbay.Unit.Stock
import Patchbay.Sound.Source

/-! The shape of buffers. A buffer of whole frames is all there is to write to, so writing every
frame leaves nothing of what it held. Units and sources are lent a buffer and work on its samples in
place. -/

namespace Patchbay

namespace AudioBuffer

def shape (b : AudioBuffer) : Nat × Nat := (b.data.length, b.channels)

def ofFrames (channels : Nat) (xs : List Sample) : AudioBuffer :=
  ⟨xs.flatMap fun x => List.replicate channels x, channels⟩

def add (b other : AudioBuffer) : AudioBuffer :=
  ⟨List.zipWith (· + ·) b.data other.data, b.channels⟩

@[simp] theorem shape_write (b : AudioBuffer) (xs : List Sample) :
    (b.write xs).shape = b.shape := by
  simp [shape]

theorem shape_silent (samples channels : Nat) :
    (silent samples channels).shape = (samples, channels) := by
  simp [shape, silent]

theorem shape_ofFrames (channels : Nat) (xs : List Sample) :
    (ofFrames channels xs).shape = (xs.length * channels, channels) := by
  simp [shape, ofFrames, List.map_const']

theorem shape_add {b other : AudioBuffer} (h : other.shape = b.shape) :
    (b.add other).shape = b.shape := by
  obtain ⟨hlength, -⟩ := Prod.mk.inj h
  simp [shape, add, hlength]

section Whole

variable {b : AudioBuffer} {frames channels : Nat} (h : 0 < channels)
  (hb : b.shape = (frames * channels, channels))

include h hb

theorem frames_of_shape : b.frames = frames := by
  obtain ⟨hlength, hchannels⟩ := Prod.mk.inj hb
  rw [AudioBuffer.frames, hlength, hchannels, Nat.mul_div_cancel _ h]

theorem size_of_shape : b.size = b.data.length := by
  obtain ⟨hlength, hchannels⟩ := Prod.mk.inj hb
  rw [size, frames_of_shape h hb, hlength, hchannels]

theorem isEmpty_of_shape (hframes : 0 < frames) : b.isEmpty = false := by
  rw [isEmpty, frames_of_shape h hb]
  exact decide_eq_false (Nat.ne_of_gt hframes)

theorem write_eq {xs : List Sample} (hxs : xs.length = b.data.length) :
    b.write xs = ⟨xs, b.channels⟩ := by
  rw [write, size_of_shape h hb, ← hxs, List.take_length, Nat.min_self, hxs, List.drop_length,
    List.append_nil]

theorem writeFrames_eq {xs : List Sample} (hxs : xs.length = frames) :
    b.writeFrames xs = ofFrames channels xs := by
  obtain ⟨hlength, hchannels⟩ := Prod.mk.inj hb
  rw [writeFrames, write_eq h hb (by simp [hlength, hchannels, hxs, List.map_const']), ofFrames,
    hchannels]

theorem accumulate_eq {other : AudioBuffer} (hother : other.shape = b.shape) :
    b.accumulate other = b.add other := by
  obtain ⟨hlength, -⟩ := Prod.mk.inj hother
  rw [accumulate, samples, samples, size_of_shape h hb, size_of_shape h (hother.trans hb),
    List.take_length, List.take_length, write_eq h hb (length_addOnto ..), addOnto, hlength,
    List.drop_length, List.append_nil, add]

end Whole

end AudioBuffer

/-- Units that process in place. -/
class Dsp.InPlace (U : Type) [Dsp U] : Prop where
  shape_process : ∀ (b : AudioBuffer) (u : U), (Dsp.process b u).1.shape = b.shape

instance : Dsp.InPlace StockUnit where
  shape_process b u := by
    cases u with
    | gain _ | fader _ | probe _ => exact AudioBuffer.shape_write ..
    | peak _ | bypass => rfl

class SignalSource.InPlace (σ : Type) [SignalSource σ] : Prop where
  shape_captureInput : ∀ (source : σ) (b : AudioBuffer), ∀ input ∈ (captureInput source b).1,
    input.shape = b.shape
  shape_write : ∀ (source : σ) (b : AudioBuffer), ∀ s ∈ (renderEvents source b).1, ∀ scratch,
    (s.write scratch).shape = scratch.shape

instance : SignalSource.InPlace Silence where
  shape_captureInput _ _ := nofun
  shape_write _ _ := nofun

instance : SignalSource.InPlace Playback where
  shape_captureInput source b input hinput := by
    obtain ⟨pattern, -, rfl⟩ := Option.map_eq_some_iff.mp hinput
    exact AudioBuffer.shape_write ..
  shape_write source b s hs scratch := by
    obtain ⟨p, -, rfl⟩ := List.mem_map.mp hs
    exact AudioBuffer.shape_write ..

structure Sounding.Sends (shape : Nat × Nat) (s : Sounding) (p : Target × AudioBuffer) : Prop where
  target : p.1 = .event s.event
  write : ∀ b : AudioBuffer, b.shape = shape → s.write b = p.2
  shape : p.2.shape = shape

theorem Sounding.exists_sends {shape : Nat × Nat} {sounds : List Sounding}
    {sent : List (Target × AudioBuffer)} (h : List.Forall₂ (Sends shape) sounds sent) :
    ∀ p ∈ sent, ∃ s : Sounding, s.Sends shape p := by
  induction h with
  | nil => simp
  | cons hs _ ih => exact List.forall_mem_cons.mpr ⟨⟨_, hs⟩, ih⟩

theorem not_mem_targets {sent : List (Target × AudioBuffer)} {x : Target}
    (h : ∀ p ∈ sent, ∃ event, p.1 = .event event) (hx : ∀ event, x ≠ .event event) :
    x ∉ sent.map Prod.fst := by
  intro hmem
  obtain ⟨p, hp, rfl⟩ := List.mem_map.mp hmem
  obtain ⟨event, heq⟩ := h p hp
  exact hx event heq

end Patchbay

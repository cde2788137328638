import Patchbay.Proofs.Sound.Shape

/-! Sounds that are handed over in one buffer, each written over what is left of the one before. As
long as the buffer keeps its shape, what is left in it has no part in what is handed over next. -/

namespace Patchbay

namespace AudioBuffer

def eachFrame (b : AudioBuffer) : List (List Sample) :=
  (List.range b.frames).map fun k => (b.data.drop (k * b.channels)).take b.channels

theorem frames_eq_of_shape {b b' : AudioBuffer} (h : b'.shape = b.shape) :
    b'.frames = b.frames := by
  obtain ⟨hlength, hchannels⟩ := Prod.mk.inj h
  rw [frames, frames, hlength, hchannels]

theorem take_drop_flatMap {xs : List Sample} {n k : Nat} {x : Sample} (h : xs[k]? = some x)
    (rest : List Sample) :
    (((xs.flatMap (List.replicate n)) ++ rest).drop (k * n)).take n = List.replicate n x := by
  induction xs generalizing k with
  | nil => cases h
  | cons y xs ih =>
    rw [List.flatMap_cons, List.append_assoc]
    cases k with
    | zero =>
      cases h
      rw [Nat.zero_mul, List.drop_zero, List.take_left' List.length_replicate]
    | succ k =>
      rw [Nat.succ_mul, Nat.add_comm, ← List.drop_drop, List.drop_left' List.length_replicate]
      exact ih h

theorem eachFrame_writeFrames {b : AudioBuffer} {xs : List Sample} (h : xs.length = b.frames) :
    (b.writeFrames xs).eachFrame = xs.map (List.replicate b.channels) := by
  have hlength : (xs.flatMap (List.replicate b.channels)).length = b.size := by
    simp [h, size, List.map_const']
  have hdata : (b.writeFrames xs).data =
      xs.flatMap (List.replicate b.channels) ++ b.data.drop b.size := by
    rw [writeFrames, write, List.take_of_length_le (Nat.le_of_eq hlength), hlength, Nat.min_self]
  apply List.ext_getElem
  · simp [eachFrame, writeFrames, h]
  · intro k hk hk'
    rw [List.length_map] at hk'
    simp only [eachFrame, List.getElem_map, List.getElem_range]
    rw [hdata]
    exact take_drop_flatMap (List.getElem?_eq_getElem hk') _

end AudioBuffer

/-- Whoever takes sounds may leave anything in the buffer that they come in, but it stays the same
buffer. -/
structure Sink where
  leave : EventHandle → AudioBuffer → AudioBuffer
  shape_leave : ∀ (event : EventHandle) (b : AudioBuffer), (leave event b).shape = b.shape

namespace Sounding

/-- What a sink is handed: for each sound its event, and the buffer that it is written to. -/
def handed (sink : Sink) : List Sounding → AudioBuffer → List (EventHandle × AudioBuffer)
  | [], _ => []
  | s :: rest, b => (s.event, s.write b) :: handed sink rest (sink.leave s.event (s.write b))

theorem contents_eq_handed (sounds : List Sounding) (b : AudioBuffer) :
    contents sounds b = handed ⟨fun _ b => b, fun _ _ => rfl⟩ sounds b := by
  induction sounds generalizing b with
  | nil => rfl
  | cons s rest ih => exact congrArg ((s.event, s.write b) :: ·) (ih (s.write b))

theorem map_eachFrame_handed (sink : Sink) {sounds : List (EventHandle × List Sample)}
    {b : AudioBuffer} (h : ∀ s ∈ sounds, s.2.length = b.frames) :
    (handed sink (sounds.map fun s => ⟨s.1, (·.writeFrames s.2)⟩) b).map
        (fun p => (p.1, p.2.eachFrame)) =
      sounds.map fun s => (s.1, s.2.map (List.replicate b.channels)) := by
  induction sounds generalizing b with
  | nil => rfl
  | cons s rest ih =>
    rw [List.forall_mem_cons] at h
    have hshape : (sink.leave s.1 (b.writeFrames s.2)).shape = b.shape :=
      (sink.shape_leave ..).trans (AudioBuffer.shape_write ..)
    have hrest := ih (b := sink.leave s.1 (b.writeFrames s.2)) fun s hs => by
      rw [h.2 s hs, AudioBuffer.frames_eq_of_shape hshape]
    rw [List.map_cons, List.map_cons, handed, List.map_cons, hrest, (Prod.mk.inj hshape).2,
      AudioBuffer.eachFrame_writeFrames h.1]

end Sounding

end Patchbay

import Patchbay.Number.Sample

/-!
Interleaved sample buffers. A buffer exposes the whole frames of its data; trailing samples that do
not make up a frame are carried along and never change. Reading a channel steps over the
interleaving.
-/

namespace Patchbay

structure AudioBuffer where
  data : List Sample
  channels : Nat
  deriving DecidableEq

def addOnto (xs ys : List Sample) : List Sample :=
  List.zipWith (· + ·) xs ys ++ xs.drop ys.length

@[simp] theorem length_addOnto (xs ys : List Sample) : (addOnto xs ys).length = xs.length := by
  simp [addOnto]
  omega

namespace AudioBuffer

def silent (samples channels : Nat) : AudioBuffer := ⟨List.replicate samples 0, channels⟩

/-- Whole frames; none without a channel. -/
def frames (b : AudioBuffer) : Nat := b.data.length / b.channels

def size (b : AudioBuffer) : Nat := b.frames * b.channels

def isEmpty (b : AudioBuffer) : Bool := b.frames = 0

def samples (b : AudioBuffer) : List Sample := b.data.take b.size

/-- The samples outside whole frames. -/
def trailing (b : AudioBuffer) : List Sample := b.data.drop b.size

theorem size_le (b : AudioBuffer) : b.size ≤ b.data.length := Nat.div_mul_le_self ..

@[simp] theorem length_samples (b : AudioBuffer) : b.samples.length = b.size := by
  simp [samples, Nat.min_eq_left b.size_le]

def write (b : AudioBuffer) (xs : List Sample) : AudioBuffer :=
  { b with data := xs.take b.size ++ b.data.drop (min xs.length b.size) }

@[simp] theorem length_data_write (b : AudioBuffer) (xs : List Sample) :
    (b.write xs).data.length = b.data.length := by
  have := b.size_le
  simp [write]
  omega

@[simp] theorem channels_write (b : AudioBuffer) (xs : List Sample) :
    (b.write xs).channels = b.channels := rfl

@[simp] theorem frames_write (b : AudioBuffer) (xs : List Sample) :
    (b.write xs).frames = b.frames := by simp [frames]

def channel (b : AudioBuffer) (c : Nat) : List Sample :=
  (b.samples.zipIdx.filter fun (_, i) => i % b.channels = c).map Prod.fst

def fill (b : AudioBuffer) (x : Sample) : AudioBuffer := b.write (List.replicate b.size x)

def fillPattern (b : AudioBuffer) (pattern : List Sample) : AudioBuffer :=
  b.write (List.replicate (b.size / pattern.length + 1) pattern).flatten

def map (b : AudioBuffer) (f : Sample → Sample) : AudioBuffer := b.write (b.samples.map f)

def accumulate (b other : AudioBuffer) : AudioBuffer := b.write (addOnto b.samples other.samples)

def set? (b : AudioBuffer) (i : Nat) (x : Sample) : Option AudioBuffer :=
  if i < b.size then some { b with data := b.data.set i x } else none

def writeFrames (b : AudioBuffer) (xs : List Sample) : AudioBuffer :=
  b.write (xs.flatMap fun x => List.replicate b.channels x)

end AudioBuffer

end Patchbay

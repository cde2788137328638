import Patchbay.Number.Decimal
import Patchbay.Unit.Dsp

/-!
The gain meter: applies a gain and measures the root mean square of the result. The gain flows to
the mixer, the level flows back.
-/

namespace Patchbay

namespace GainMeter

structure Control where
  gain : Sample
  rms : Sample := 0
  deriving DecidableEq

structure Audio where
  gain : Sample
  rms : Sample := 0
  deriving DecidableEq

structure Fields where
  gain : Shared Sample
  rms : Shared Sample := ⟨0⟩
  deriving DecidableEq

def maxGain : Sample := 4

namespace Control

def setGain (c : Control) (gain : Sample) : Control := { c with gain := gain.clamp 0 maxGain }

def adjustGain (c : Control) (delta : Sample) : Control := c.setGain (c.gain + delta)

def exchange (c : Control) (s : Fields) : Control × Fields :=
  ({ c with rms := s.rms.load }, { s with gain := s.gain.store c.gain })

end Control

/-- The square root of the mean of the squares, summed in order. -/
def meanSquareRoot (xs : List Sample) : Sample :=
  (xs.foldl (fun sum x => sum + x * x) 0 / Sample.ofNat xs.length).sqrt

namespace Audio

def exchange (a : Audio) (s : Fields) : Audio × Fields :=
  ({ a with gain := s.gain.load }, { s with rms := s.rms.store a.rms })

def process (b : AudioBuffer) (a : Audio) : AudioBuffer × Audio :=
  let b := b.map (· * a.gain)
  (b, { a with rms := meanSquareRoot b.samples })

end Audio

end GainMeter

abbrev GainMeter := Split GainMeter.Control GainMeter.Audio GainMeter.Fields

namespace GainMeter

def ofGain (gain : Sample) : GainMeter :=
  let gain := gain.clamp 0 maxGain
  ⟨{ gain }, { gain }, { gain := ⟨gain⟩ }⟩

end GainMeter

end Patchbay

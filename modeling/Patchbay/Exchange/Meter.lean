import Patchbay.Exchange.Shared
import Patchbay.Sound.Buffer

/-!
The meters of the final mix. Switches flow from the control side to the mixer, measurements flow
back, both through shared fields; the two peaks share one word.
-/

namespace Patchbay

/-- What the control side last learned about the mix. -/
structure MeterSnapshot where
  framesMixed : Nat := 0
  peakLeft : Sample := 0
  peakRight : Sample := 0
  clipped : Bool := false
  deriving DecidableEq

structure MeterControl where
  paused : Bool := false
  levelMetering : Bool := true
  snapshot : MeterSnapshot := {}
  deriving DecidableEq

structure MeterShared where
  framesMixed : Shared Nat := ⟨0⟩
  peaks : Shared UInt64 := ⟨packPair 0 0⟩
  clipped : Shared Bool := ⟨false⟩
  paused : Shared Bool := ⟨false⟩
  levelMetering : Shared Bool := ⟨true⟩
  deriving DecidableEq

structure MeterAudio where
  paused : Bool := false
  levelMetering : Bool := true
  framesMixed : Nat := 0
  peakLeft : Sample := 0
  peakRight : Sample := 0
  clipped : Bool := false
  deriving DecidableEq

def MeterControl.exchange (c : MeterControl) (s : MeterShared) : MeterControl × MeterShared :=
  let (left, right) := unpackPair s.peaks.load
  ({ c with snapshot := ⟨s.framesMixed.load, left, right, s.clipped.load⟩ },
   { s with paused := s.paused.store c.paused
            levelMetering := s.levelMetering.store c.levelMetering })

namespace MeterAudio

/-- The start of a buffer: take the switches, publish the measurements. -/
def exchange (a : MeterAudio) (s : MeterShared) : MeterAudio × MeterShared :=
  ({ a with paused := s.paused.load, levelMetering := s.levelMetering.load },
   { s with framesMixed := s.framesMixed.store a.framesMixed
            peaks := s.peaks.store (packPair a.peakLeft a.peakRight)
            clipped := s.clipped.store a.clipped })

/-- Records one mixed buffer. A single channel counts for both sides; a paused or unmetered buffer
counts its frames only. -/
def measure (a : MeterAudio) (b : AudioBuffer) : MeterAudio :=
  let a := { a with framesMixed := a.framesMixed + b.frames }
  if a.paused || !a.levelMetering then { a with peakLeft := 0, peakRight := 0, clipped := false }
  else
    let left := Sample.peak (b.channel 0)
    { a with
      peakLeft := left
      peakRight := if 1 < b.channels then Sample.peak (b.channel 1) else left
      clipped := b.samples.any fun x => 1 < x.abs }

end MeterAudio

end Patchbay

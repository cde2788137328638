import Patchbay.Unit.Dsp

/-!
The fader: applies any gain at all and measures the peak of the result. Until the first exchanges it
is silent.
-/

namespace Patchbay

namespace Fader

structure Control where
  gain : Sample := 1
  peak : Sample := 0
  deriving DecidableEq

structure Audio where
  gain : Sample := 0
  peak : Sample := 0
  deriving DecidableEq

structure Fields where
  gain : Shared Sample := ⟨0⟩
  peak : Shared Sample := ⟨0⟩
  deriving DecidableEq

def Control.exchange (c : Control) (s : Fields) : Control × Fields :=
  ({ c with peak := s.peak.load }, { s with gain := s.gain.store c.gain })

def Audio.exchange (a : Audio) (s : Fields) : Audio × Fields :=
  ({ a with gain := s.gain.load }, { s with peak := s.peak.store a.peak })

def Audio.process (b : AudioBuffer) (a : Audio) : AudioBuffer × Audio :=
  let b := b.map (· * a.gain)
  (b, { a with peak := Sample.peak b.samples })

end Fader

abbrev Fader := Split Fader.Control Fader.Audio Fader.Fields

def Fader.new : Fader := ⟨{}, {}, {}⟩

end Patchbay

import Patchbay.Unit.Dsp

/-! The peak meter: measures the largest magnitude in a buffer and leaves the sound as it is. -/

namespace Patchbay

namespace PeakMeter

structure Control where
  level : Sample := 0
  deriving DecidableEq

structure Audio where
  level : Sample := 0
  deriving DecidableEq

structure Fields where
  level : Shared Sample := ⟨0⟩
  deriving DecidableEq

def Control.exchange (_ : Control) (s : Fields) : Control × Fields := (⟨s.level.load⟩, s)

def Audio.exchange (a : Audio) (s : Fields) : Audio × Fields :=
  (a, { s with level := s.level.store a.level })

def Audio.process (b : AudioBuffer) (_ : Audio) : AudioBuffer × Audio :=
  (b, ⟨Sample.peak b.samples⟩)

end PeakMeter

abbrev PeakMeter := Split PeakMeter.Control PeakMeter.Audio PeakMeter.Fields

def PeakMeter.new : PeakMeter := ⟨{}, {}, {}⟩

end Patchbay

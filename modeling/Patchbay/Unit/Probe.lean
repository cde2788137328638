import Patchbay.Number.Decimal
import Patchbay.Unit.Dsp

/-!
The probe: counts the control ticks it has seen and adds the count to every sample, so that the
sound tells which tick a buffer goes back to.
-/

namespace Patchbay

namespace Probe

structure Control where
  ticks : UInt32 := 0
  deriving DecidableEq

structure Audio where
  ticks : UInt32 := 0
  deriving DecidableEq

structure Fields where
  ticks : Shared UInt32 := ⟨0⟩
  deriving DecidableEq

def Control.exchange (c : Control) (s : Fields) : Control × Fields :=
  let ticks := c.ticks + 1
  (⟨ticks⟩, { s with ticks := s.ticks.store ticks })

def Audio.exchange (_ : Audio) (s : Fields) : Audio × Fields := (⟨s.ticks.load⟩, s)

def Audio.process (b : AudioBuffer) (a : Audio) : AudioBuffer × Audio :=
  (b.map (· + Sample.ofNat a.ticks.toNat), a)

end Probe

abbrev Probe := Split Probe.Control Probe.Audio Probe.Fields

def Probe.new : Probe := ⟨{}, {}, {}⟩

end Patchbay

import Patchbay.Unit.Design
import Patchbay.Unit.Fader
import Patchbay.Unit.GainMeter
import Patchbay.Unit.PeakMeter
import Patchbay.Unit.Probe

/-! The units in stock, their control fields seen by type, and their designs. -/

namespace Patchbay

inductive StockUnit
  | gain (u : GainMeter)
  | peak (u : PeakMeter)
  | fader (u : Fader)
  | probe (u : Probe)
  | bypass

namespace StockUnit

inductive Control
  | gain (c : GainMeter.Control)
  | peak (c : PeakMeter.Control)
  | fader (c : Fader.Control)
  | probe (c : Probe.Control)
  | bypass
  deriving DecidableEq

namespace Control

def gain? : Control → Option GainMeter.Control
  | gain c => some c
  | _ => none

def peak? : Control → Option PeakMeter.Control
  | peak c => some c
  | _ => none

def fader? : Control → Option Fader.Control
  | fader c => some c
  | _ => none

def probe? : Control → Option Probe.Control
  | probe c => some c
  | _ => none

def isBypass : Control → Bool
  | bypass => true
  | _ => false

end Control

def control : StockUnit → Control
  | gain u => .gain u.control
  | peak u => .peak u.control
  | fader u => .fader u.control
  | probe u => .probe u.control
  | bypass => .bypass

def editGain? (f : GainMeter.Control → GainMeter.Control) : StockUnit → Option StockUnit
  | gain u => some (gain { u with control := f u.control })
  | _ => none

def editFader? (f : Fader.Control → Fader.Control) : StockUnit → Option StockUnit
  | fader u => some (fader { u with control := f u.control })
  | _ => none

def exchangeControl : StockUnit → StockUnit
  | gain u => gain (u.onControl GainMeter.Control.exchange)
  | peak u => peak (u.onControl PeakMeter.Control.exchange)
  | fader u => fader (u.onControl Fader.Control.exchange)
  | probe u => probe (u.onControl Probe.Control.exchange)
  | bypass => bypass

def exchangeAudio : StockUnit → StockUnit
  | gain u => gain (u.onAudio GainMeter.Audio.exchange)
  | peak u => peak (u.onAudio PeakMeter.Audio.exchange)
  | fader u => fader (u.onAudio Fader.Audio.exchange)
  | probe u => probe (u.onAudio Probe.Audio.exchange)
  | bypass => bypass

def process (b : AudioBuffer) : StockUnit → AudioBuffer × StockUnit
  | gain u => (u.onBuffer GainMeter.Audio.process b).map id gain
  | peak u => (u.onBuffer PeakMeter.Audio.process b).map id peak
  | fader u => (u.onBuffer Fader.Audio.process b).map id fader
  | probe u => (u.onBuffer Probe.Audio.process b).map id probe
  | bypass => (b, bypass)

instance : Dsp StockUnit where
  Control := Control
  control := control
  exchangeControl := exchangeControl
  exchangeAudio := exchangeAudio
  process := process
  control_exchangeAudio u := by cases u <;> rfl
  control_process b u := by cases u <;> rfl

end StockUnit

namespace Design

def gainMeter (gain : Sample) : Design StockUnit := ⟨.gain (.ofGain gain), "gain-meter", true⟩

def peakMeter : Design StockUnit := ⟨.peak .new, "peak-meter", true⟩

def fader : Design StockUnit := ⟨.fader .new, "level", true⟩

def probe : Design StockUnit := { unit := .probe .new }

def bypass : Design StockUnit := { unit := .bypass }

def unfinished : Design StockUnit := { unit := .bypass, processes := false }

end Design

end Patchbay

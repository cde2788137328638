import Patchbay.Exchange.Shared
import Patchbay.Sound.Buffer

/-!
Units that process sound. The fields of a unit fall into three groups: control fields belong to the
control thread, audio fields to the mixer, and shared fields are where the two exchange values. A
control tick exchanges control and shared fields, the start of a buffer exchanges audio and shared
fields, and processing sees audio fields alone.
-/

namespace Patchbay

structure Split (C A S : Type) where
  control : C
  audio : A
  shared : S

namespace Split

variable {C A S : Type}

def onControl (f : C → S → C × S) (u : Split C A S) : Split C A S :=
  let (control, shared) := f u.control u.shared
  { u with control, shared }

def onAudio (f : A → S → A × S) (u : Split C A S) : Split C A S :=
  let (audio, shared) := f u.audio u.shared
  { u with audio, shared }

def onBuffer (f : AudioBuffer → A → AudioBuffer × A) (b : AudioBuffer) (u : Split C A S) :
    AudioBuffer × Split C A S :=
  let (b, audio) := f b u.audio
  (b, { u with audio })

end Split

/-- A type of units that an engine can host. Nothing the mixer does to a unit touches its control
fields. -/
class Dsp (U : Type) where
  Control : Type
  control : U → Control
  exchangeControl : U → U
  exchangeAudio : U → U
  process : AudioBuffer → U → AudioBuffer × U
  control_exchangeAudio : ∀ u, control (exchangeAudio u) = control u
  control_process : ∀ b u, control (process b u).2 = control u

namespace Dsp

variable {U : Type} [Dsp U]

/-- Processes a buffer in place; an empty one is passed over. -/
def run (b : AudioBuffer) (u : U) : AudioBuffer × U := if b.isEmpty then (b, u) else process b u

end Dsp

end Patchbay

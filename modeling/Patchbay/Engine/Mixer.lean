import Patchbay.Config.Basic
import Patchbay.Exchange.Link
import Patchbay.Sound.Source
import Patchbay.Unit.Activity

/-!
The mixer makes one buffer at a time. First it carries out the waiting commands, which is the only
time that routes change, and exchanges audio fields; then it sends captured input, the sound of each
event and the sum of them through the units that sit there, and measures the result.
-/

namespace Patchbay

/-- A unit whose audio half the mixer holds, and where it sits. -/
structure MixerUnit where
  unit : UnitHandle
  target : Option Target := none
  deriving DecidableEq

structure Mixer where
  capacity : Nat
  outputChannels : Nat
  inputChannels : Nat
  units : List MixerUnit := []
  /-- Audio halves that found no room on the way back, the latest first. -/
  overflow : List UnitHandle := []
  meters : MeterAudio := {}
  scratch : AudioBuffer
  input : AudioBuffer

/-- Takes out the first element that passes a test; the last element takes its place. -/
def swapErase {α : Type} (p : α → Bool) (l : List α) : List α :=
  match l.findIdx? p, l.getLast? with
  | some i, some last => (l.set i last).dropLast
  | _, _ => l

def MixerUnit.retarget (u : UnitHandle) (target : Option Target) (m : MixerUnit) : MixerUnit :=
  if m.unit = u then { m with target } else m

def MixerUnit.vacate (target : Target) (incoming : UnitHandle) (m : MixerUnit) : MixerUnit :=
  if m.unit ≠ incoming && m.target = some target then { m with target := none } else m

namespace Mixer

def ofConfig (c : Config) : Mixer where
  capacity := c.maxUnits.toNat
  outputChannels := c.channels.toNat
  inputChannels := c.inputChannels.toNat
  scratch := .silent c.outputFormat.samplesPerBuffer c.channels.toNat
  input := .silent (c.inputFormat?.elim 0 (·.samplesPerBuffer)) c.inputChannels.toNat

def samplesPerBuffer (m : Mixer) : Nat := m.scratch.data.length

def unitCount (m : Mixer) : Nat := m.units.length

def targetOf (m : Mixer) (u : UnitHandle) : Option Target :=
  m.units.find? (·.unit = u) >>= (·.target)

def unitOn (m : Mixer) (target : Target) : Option UnitHandle :=
  (m.units.find? (·.target = some target)).map (·.unit)

def retire (m : Mixer) (retired : Queue UnitHandle) (u : UnitHandle) : Mixer × Queue UnitHandle :=
  match retired.push? u with
  | some retired => (m, retired)
  | none => ({ m with overflow := u :: m.overflow }, retired)

def flush : List UnitHandle → Queue UnitHandle → List UnitHandle × Queue UnitHandle
  | [], retired => ([], retired)
  | u :: overflow, retired =>
    match retired.push? u with
    | some retired => flush overflow retired
    | none => (u :: overflow, retired)

def apply (m : Mixer) (retired : Queue UnitHandle) : Command → Mixer × Queue UnitHandle
  | .adopt u =>
    if m.units.length < m.capacity then ({ m with units := m.units ++ [⟨u, none⟩] }, retired)
    else m.retire retired u
  | .attach u target | .move u target =>
    ({ m with units := m.units.map fun x => (x.vacate target u).retarget u (some target) }, retired)
  | .detach u => ({ m with units := m.units.map (·.retarget u none) }, retired)
  | .release u =>
    if m.units.any (·.unit = u) then
      { m with units := swapErase (·.unit = u) m.units }.retire retired u
    else (m, retired)

def applyAll (m : Mixer) (retired : Queue UnitHandle) : List Command → Mixer × Queue UnitHandle
  | [] => (m, retired)
  | c :: cs =>
    let (m, retired) := m.apply retired c
    m.applyAll retired cs

def drain (m : Mixer) (link : Link) : Mixer × Link :=
  let (overflow, retired) := flush m.overflow link.retired
  let (m, retired) := { m with overflow }.applyAll retired link.commands.items
  (m, { link with commands := link.commands.drained, retired })

variable {U : Type} [Dsp U]

def exchangeUnits (m : Mixer) (rack : Rack U) : Rack U :=
  (m.units.filter (·.target.isSome)).foldl (fun r x => r.exchangeAudio x.unit) rack

/-- Mixes the sound of events into a buffer, each after its unit. Gives the scratch buffer as it is
left, the mix and the units. -/
def mixEvents (m : Mixer) :
    List Sounding → AudioBuffer → AudioBuffer → Rack U → AudioBuffer × AudioBuffer × Rack U
  | [], scratch, out, rack => (scratch, out, rack)
  | s :: rest, scratch, out, rack =>
    let (b, rack) := rack.processAt (m.unitOn (.event s.event)) (s.write scratch)
    m.mixEvents rest b (out.accumulate b) rack

def processInput {σ : Type} [SignalSource σ] (m : Mixer) (source : σ) (rack : Rack U) :
    Mixer × σ × Rack U :=
  if m.inputChannels = 0 then (m, source, rack)
  else
    match SignalSource.captureInput source m.input with
    | (none, source) => (m, source, rack)
    | (some input, source) =>
      let (input, rack) := rack.processAt (m.unitOn .input) input
      ({ m with input }, source, rack)

def blank (m : Mixer) : AudioBuffer := .silent m.samplesPerBuffer m.outputChannels

/-- The mix of one buffer; a paused mixer asks for no sound and uses no unit. -/
def mix {σ : Type} [SignalSource σ] (m : Mixer) (source : σ) (rack : Rack U) :
    Mixer × σ × Rack U × AudioBuffer :=
  if m.meters.paused then (m, source, rack, m.blank)
  else
    let (sounds, source) := SignalSource.renderEvents source m.scratch
    let (scratch, out, rack) := m.mixEvents sounds m.scratch m.blank rack
    let (out, rack) := rack.processAt (m.unitOn .output) out
    ({ m with scratch }, source, rack, out)

def prepare (m : Mixer) (link : Link) (rack : Rack U) : Mixer × Link × Rack U :=
  let (m, link) := m.drain link
  let rack := m.exchangeUnits rack
  let (meters, shared) := m.meters.exchange link.meters
  ({ m with meters }, { link with meters := shared }, rack)

end Mixer

structure Rendered (U σ : Type) where
  mixer : Mixer
  link : Link
  rack : Rack U
  source : σ
  output : AudioBuffer

def Mixer.render {U σ : Type} [Dsp U] [SignalSource σ] (m : Mixer) (link : Link) (rack : Rack U)
    (source : σ) : Rendered U σ :=
  let (m, link, rack) := m.prepare link rack
  let (m, source, rack) := m.processInput source rack
  let (m, source, rack, output) := m.mix source rack
  ⟨{ m with meters := m.meters.measure output }, link, rack, source, output⟩

end Patchbay

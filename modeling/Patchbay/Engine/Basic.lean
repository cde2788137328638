import Patchbay.Engine.Error
import Patchbay.Exchange.Link
import Patchbay.Route.Table
import Patchbay.Unit.Activity

/-!
The control side. An engine keeps the units, the tones, the attachment table and the latest
measurements. Control ticks keep it in step with the mixer.
-/

namespace Patchbay

structure Engine (U : Type) where
  config : Config
  units : UnitStore U
  table : AttachmentTable := .empty
  tones : ToneBank
  meters : MeterControl := {}
  ticks : Nat := 0

namespace Engine

variable {U : Type}

def ofConfig (c : Config) (tones : ToneBank) : Engine U where
  config := c
  units := { capacity := c.maxUnits.toNat }
  tones := tones

def unitCount (e : Engine U) : Nat := e.units.liveCount

def pendingReleases (e : Engine U) : Nat := e.units.releasingCount

def entry (e : Engine U) (u : UnitHandle) : Except EngineError (UnitEntry U) :=
  match e.units.live? u with
  | some entry => .ok entry
  | none => .error (.invalidUnit u)

def attachment (e : Engine U) (u : UnitHandle) : Except EngineError (Option Target) :=
  (fun _ => e.table.attachment u) <$> e.entry u

def unitName (e : Engine U) (u : UnitHandle) : Except EngineError String :=
  (·.name) <$> e.entry u

def control {α : Type} (e : Engine U) (u : UnitHandle) (view : U → Option α) :
    Except EngineError α := do
  match view (← e.entry u).unit with
  | some a => .ok a
  | none => .error (.otherType u)

def edit (e : Engine U) (u : UnitHandle) (f : U → Option U) : Except EngineError (Engine U) := do
  match f (← e.entry u).unit with
  | some unit => .ok { e with units := e.units.setUnit u unit }
  | none => .error (.otherType u)

def setPaused (e : Engine U) (paused : Bool) : Engine U := { e with meters.paused := paused }

def setMetering (e : Engine U) (metering : Bool) : Engine U :=
  { e with meters.levelMetering := metering }

def eventHandle (e : Engine U) (id : String) : Except EngineError EventHandle :=
  (e.tones.eventHandle id).mapError .bank

variable [Dsp U]

def collect (retired : List UnitHandle) (rack : Rack U) : Rack U := retired.foldl Rack.retire rack

/-- One control tick: collects what came back, then exchanges the control fields of every unit that
sits somewhere, and those of the meters. -/
def tick (e : Engine U) (link : Link) : Engine U × Link × List (Activity U) :=
  let rack := collect link.retired.items ⟨e.units, []⟩
  let rack := e.table.pairs.foldl (fun rack p => rack.exchangeControlAt p.1.index) rack
  let (meters, shared) := e.meters.exchange link.meters
  ({ e with units := rack.units, meters, ticks := e.ticks + 1 },
   { link with retired := link.retired.drained, meters := shared }, rack.journal)

/-- The end of an engine: units that came back go first, then all others in the order of slots. -/
def shutDown (e : Engine U) (link : Link) : List (Activity U) :=
  let rack := collect link.retired.items ⟨e.units, []⟩
  rack.journal ++ rack.units.entries.map fun (u, entry) => ⟨u, .released, entry.unit⟩

end Engine

end Patchbay

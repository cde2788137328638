import Patchbay.Engine.Basic

/-!
Operations on an engine. Each checks all that could stop it, the room for its commands too, before
it changes anything. A command that found no room all the same would be lost.
-/

namespace Patchbay

/-- What an operation works on: an engine and the queue of its commands to the mixer. -/
structure Console (U : Type) where
  engine : Engine U
  commands : Queue Command

/-- A failure leaves the console as it was when the failure was found. -/
abbrev Operation (U α : Type) := EStateM EngineError (Console U) α

namespace Operation

variable {U : Type}

def reserve (needed : Nat) : Operation U Unit := do
  let free := (← get).commands.free
  if free < needed then throw (.queueFull needed free)

def send (c : Command) : Operation U Unit :=
  modify fun s => { s with commands := s.commands.push c }

/-- Sends the commands that make the mixer follow route changes, one by one. -/
def follow : List RouteChange → Operation U Unit
  | [] => return ()
  | change :: changes => do
    send (.ofChange change)
    follow changes

def read {α : Type} (f : Engine U → Except EngineError α) : Operation U α := do
  match f (← get).engine with
  | .ok a => return a
  | .error e => throw e

def setUnits (units : UnitStore U) : Operation U Unit :=
  modify fun s => { s with engine.units := units }

def onTable {α : Type} (f : AttachmentTable → AttachmentTable × α) : Operation U α :=
  modifyGet fun s =>
    let (table, a) := f s.engine.table
    (a, { s with engine.table := table })

/-- Does something to the registry; what is left of it stays, also after a failure. -/
def onTones {α : Type} (op : BankOperation α) : Operation U α := fun s =>
  match op s.engine.tones with
  | .ok a tones => .ok a { s with engine.tones := tones }
  | .error e tones => .error (.bank e) { s with engine.tones := tones }

def create (d : Design U) : Operation U UnitHandle := do
  let unit ← read fun _ => d.build.mapError .design
  reserve 1
  let units := (← get).engine.units
  match units.insert? d.name unit with
  | some (u, units) =>
    setUnits units
    send (.adopt u)
    return u
  | none => throw (.unitsExhausted units.capacity)

def route (u? : Option UnitHandle) (target : Target) : Operation U Unit := do
  match u? with
  | none =>
    if ((← get).engine.table.unitAt target).isNone then return ()
    else
      reserve 1
      let change ← onTable (·.detachTarget target)
      follow change.toList
  | some u =>
    let _ ← read (·.entry u)
    reserve 2
    let changes ← onTable (·.attach u target)
    follow changes

def attachToEvent (u? : Option UnitHandle) (event : EventHandle) : Operation U Unit := do
  if (← get).engine.tones.isValid event then route u? (.event event)
  else throw (.invalidEvent event)

def attachToInput (u? : Option UnitHandle) : Operation U Unit := do
  if (← get).engine.config.inputFormat?.isSome then route u? .input else throw .noInput

def attachToOutput (u? : Option UnitHandle) : Operation U Unit := route u? .output

def detach (u : UnitHandle) : Operation U Unit := do
  let _ ← read (·.entry u)
  if ((← get).engine.table.attachment u).isNone then return ()
  else
    reserve 1
    let change ← onTable (·.detach u)
    follow change.toList

/-- Gives a unit up. Its handle is invalid at once; the slot stays taken until the audio half is
back. -/
def release (u : UnitHandle) : Operation U Unit := do
  let _ ← read (·.entry u)
  reserve 1
  let _ ← onTable (·.detach u)
  let units := (← get).engine.units
  setUnits (units.setReleasing u)
  send (.release u)

def loadBank (content : Option ByteArray) : Operation U BankHandle :=
  onTones (.loadFile content)

def clearEvents : List EventHandle → Operation U Unit
  | [] => return ()
  | event :: events => do
    let change ← onTable (·.detachEvent event)
    follow change.toList
    clearEvents events

def unloadBank (bank : BankHandle) : Operation U Unit := do
  reserve ((← get).engine.table.pairs.countP (·.2.event?.isSome))
  onTones (.unload bank)
  let e := (← get).engine
  clearEvents ((e.table.pairs.filterMap (·.2.event?)).filter (!e.tones.isValid ·))

def startEvent (event : EventHandle) : Operation U Unit := onTones (.start event)

def stopEvent (event : EventHandle) : Operation U Unit := onTones (.stop event)

end Operation

end Patchbay

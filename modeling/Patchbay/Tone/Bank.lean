import Patchbay.Number.Written
import Patchbay.Route.Handle
import Patchbay.Tone.File

/-!
Tone banks: the events that can be started and the voices they sound on. All loaded banks share one
pool of voices. An event takes the lowest free voice, and its handle carries the generation of that
voice, which changes when the event goes.
-/

namespace Patchbay

structure Voice where
  playing : Bool := false
  event : EventHandle := ⟨0⟩
  frequency : Sample := 0
  amplitude : Sample := 0
  deriving DecidableEq

structure ToneSlot where
  generation : UInt16 := 0
  holder : Option (String × BankHandle) := none
  voice : Voice := {}
  deriving DecidableEq

inductive BankFault
  | duplicate (id : String)
  | frequency (id : String) (x : Sample)
  | amplitude (id : String) (x : Sample)
  | exhausted
  deriving DecidableEq

inductive BankError
  | unreachable
  | unreadable
  | notLoaded (bank : BankHandle)
  | notFound (id : String)
  | invalidEvent (event : EventHandle)
  | invalidBank (fault : BankFault)
  deriving DecidableEq

def maxTones : Nat := 64

def BankFault.message : BankFault → String
  | duplicate id => "duplicate event id '" ++ id ++ "'"
  | frequency id x => "event '" ++ id ++ "': frequency " ++ x.toText ++ " Hz out of range"
  | amplitude id x => "event '" ++ id ++ "': amplitude " ++ x.toText ++ " out of range"
  | exhausted => "tone pool exhausted (" ++ toString maxTones ++ " voices)"

def BankError.message : BankError → String
  | unreachable => "IO error"
  | unreadable => "Bank parsing error"
  | notLoaded bank => "Bank not loaded: " ++ bank.text
  | notFound id => "Event not found: " ++ id
  | invalidEvent event => "Invalid event handle: " ++ event.text
  | invalidBank fault => "Invalid bank: " ++ fault.message

namespace EventHandle

/-- The handle of a voice: its generation in the high half of a word, its index in the low half. -/
def ofVoice (index : Nat) (generation : UInt16) : EventHandle :=
  ⟨generation.toUInt32 <<< 16 ||| UInt32.ofNat index⟩

def voice (h : EventHandle) : Nat := (h.raw &&& 0xFFFF).toNat

def generation (h : EventHandle) : UInt16 := (h.raw >>> 16).toUInt16

end EventHandle

namespace ToneSlot

def isFree (s : ToneSlot) : Bool := s.holder.isNone

/-- The slot with an event on its voice. Whether the voice plays is left as it was. -/
def hold (s : ToneSlot) (index : Nat) (bank : BankHandle) (spec : ToneSpec) : ToneSlot where
  generation := s.generation
  holder := some (spec.id, bank)
  voice := ⟨s.voice.playing, .ofVoice index s.generation, spec.frequency, spec.amplitude⟩

/-- The slot without its event: silent, and with another generation. -/
def vacate (s : ToneSlot) : ToneSlot :=
  { s with generation := s.generation + 1, holder := none, voice.playing := false }

def heldBy (s : ToneSlot) (bank : BankHandle) : Bool := s.holder.any (·.2 = bank)

/-- Puts events on the free voices from a given index on, lowest first. -/
def holdAll (bank : BankHandle) : Nat → List ToneSlot → List ToneSpec → List ToneSlot
  | _, slots, [] => slots
  | _, [], _ => []
  | i, s :: slots, e :: es =>
    if s.isFree then s.hold i bank e :: holdAll bank (i + 1) slots es
    else s :: holdAll bank (i + 1) slots (e :: es)

end ToneSlot

/-- The registry of events, with the voices, and the settings of the synthetic input. -/
structure ToneBank where
  slots : List ToneSlot := List.replicate maxTones {}
  banks : List BankHandle := []
  nextBank : UInt32 := 0
  /-- Half the sample rate; frequencies lie below it. -/
  nyquist : Sample
  input : Voice := {}

namespace ToneBank

def new (rate : UInt32) : ToneBank := { nyquist := Sample.ofNat rate.toNat / 2 }

def find? (b : ToneBank) (id : String) : Option (ToneSlot × Nat) :=
  b.slots.zipIdx.find? fun (s, _) => s.holder.any (·.1 = id)

def handle? (b : ToneBank) (id : String) : Option EventHandle :=
  (b.find? id).map fun (s, i) => .ofVoice i s.generation

/-- The first fault in a list of events, in its order, when `seen` came before. -/
def fault? (b : ToneBank) (seen : List String) : List ToneSpec → Option BankFault
  | [] => none
  | e :: es =>
    if seen.contains e.id || (b.find? e.id).isSome then some (.duplicate e.id)
    else if !(0 < e.frequency && e.frequency < b.nyquist) then some (.frequency e.id e.frequency)
    else if !(0 ≤ e.amplitude && e.amplitude ≤ 1) then some (.amplitude e.id e.amplitude)
    else b.fault? (e.id :: seen) es

def free (b : ToneBank) : Nat := b.slots.countP ToneSlot.isFree

def eventHandle (b : ToneBank) (id : String) : Except BankError EventHandle :=
  match b.handle? id with
  | some h => .ok h
  | none => .error (.notFound id)

def isValid (b : ToneBank) (h : EventHandle) : Bool :=
  match b.slots[h.voice]? with
  | some s => !s.isFree && s.generation = h.generation
  | none => false

def setInput (b : ToneBank) (frequency level : Sample) : ToneBank :=
  { b with input := { b.input with frequency, amplitude := level.clamp 0 1, playing := true } }

def setInputLevel (b : ToneBank) (level : Sample) : ToneBank :=
  { b with input.amplitude := level.clamp 0 1 }

def stopInput (b : ToneBank) : ToneBank := { b with input.playing := false }

end ToneBank

/-- Something done to the registry. A failure leaves the registry as it was when the failure was
found. -/
abbrev BankOperation (α : Type) := EStateM BankError ToneBank α

namespace BankOperation

def load (es : List ToneSpec) : BankOperation BankHandle := do
  let b ← get
  match b.fault? [] es with
  | some fault => throw (.invalidBank fault)
  | none =>
    if b.free < es.length then throw (.invalidBank .exhausted)
    else
      let bank : BankHandle := ⟨b.nextBank⟩
      modify fun b => { b with nextBank := b.nextBank + 1 }
      modify fun b => { b with slots := ToneSlot.holdAll bank 0 b.slots es }
      modify fun b => { b with banks := b.banks ++ [bank] }
      return bank

def loadText (text : String) : BankOperation BankHandle :=
  match ToneSpec.listOfText? text with
  | none => throw .unreadable
  | some es => load es

def loadFile (content : Option ByteArray) : BankOperation BankHandle :=
  match content >>= String.fromUTF8? with
  | none => throw .unreachable
  | some text => loadText text

/-- Unloads a bank, which ends its events. -/
def unload (bank : BankHandle) : BankOperation Unit := do
  if (← get).banks.contains bank then
    modify fun b => { b with banks := b.banks.filter (· ≠ bank) }
    modify fun b => { b with
      slots := b.slots.map fun s => if s.heldBy bank then s.vacate else s }
  else throw (.notLoaded bank)

def setPlaying (h : EventHandle) (playing : Bool) : BankOperation Unit := do
  if (← get).isValid h then
    modify fun b => { b with
      slots := b.slots.modify h.voice fun s => { s with voice.playing := playing } }
  else throw (.invalidEvent h)

def start (h : EventHandle) : BankOperation Unit := setPlaying h true

def stop (h : EventHandle) : BankOperation Unit := setPlaying h false

end BankOperation

end Patchbay

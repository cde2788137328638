import Patchbay.CommandLine.Request
import Patchbay.Demo.Report
import Patchbay.Engine.AudioThread
import Patchbay.Tone.Source
import Patchbay.Unit.Stock

/-!
Running a demo: a tone through a gain meter, or a synthetic input through a peak meter. How far the
audio thread gets between two things that the control thread does is not the demo's own choice: it
is given as a `Pacing`. The program itself counts time out rather than waiting for it.
-/

namespace Patchbay

open CommandLine

inductive DemoFailure
  | unloadable (path : String)
  | bank (cause : BankError)
  | engine (cause : EngineError)
  /-- A time that no clock can count to. -/
  | endless
  deriving DecidableEq

namespace DemoFailure

def message : DemoFailure → String
  | unloadable path => "Error: loading " ++ path
  | bank cause => "Error: " ++ cause.message
  | engine cause => "Error: " ++ cause.message
  | endless => "Error: no clock counts that far"

def exitCode : DemoFailure → UInt32
  | endless | engine .beyondMemory => 101
  | _ => 1

end DemoFailure

namespace Demo

def defaultBank : String :=
  "[[events]]\nid = \"beep\"\nfrequency_hz = 440.0\namplitude = 0.5\n"

abbrev Outcome (α : Type) := Except DemoFailure α

def perform {α : Type} (s : Session StockUnit) (op : Operation StockUnit α) :
    Outcome (α × Session StockUnit) := (s.perform op).mapError .engine

def ceilDiv (a b : Nat) : Nat := (a + b - 1) / b

/-- How many ticks come until a demo's time is over, and how many buffers the audio thread makes
before each of them, before their number is read for the report, and before the thread stops. -/
structure Pacing where
  ticks : Nat
  beforeTick : Nat → Nat
  beforeRead : Nat := 0
  beforeStop : Nat := 0

/-- Control ticks within a time: one at once and one after each period begun. -/
def ticksIn (time period : Span) : Nat :=
  if time.nanos = 0 then 0 else 1 + ceilDiv time.nanos period.nanos

/-- What a buffer takes: its period, or the time to make it where the period is shorter, which is
reckoned as a tenth of a millisecond. -/
def bufferTime (f : StreamFormat) : Span := ⟨max 100000 (f.bufferPeriod?.elim 0 (·.nanos))⟩

/-- Every tick on time, and every buffer begun as soon as it is due. -/
def Pacing.onTime (config : Config) (time : Span) : Pacing :=
  let period := (config.tickPeriod?).getD ⟨0⟩
  let due := fun k => ceilDiv (k * period.nanos) (bufferTime config.outputFormat).nanos
  { ticks := ticksIn time period, beforeTick := fun k => due k - due (k - 1) }

/-- Runs the audio thread and the ticks for a time, with something to do after each tick. -/
def drive (pacing : Pacing) (time : Span)
    (afterTick : Engine StockUnit → Except EngineError (Engine StockUnit))
    (t : AudioThread ToneStream) (s : Session StockUnit) :
    Outcome (AudioThread ToneStream × Session StockUnit) :=
  if Nat.pow 2 63 ≤ time.seconds then .error .endless
  else
    (List.range pacing.ticks).foldlM (fun (t, s) k => do
      let (t, s) := t.run s (pacing.beforeTick k)
      let (s, _) := s.tick
      let engine ← (afterTick s.engine).mapError .engine
      .ok (t, { s with engine })) (t, s)

def thread (s : Session StockUnit) : AudioThread ToneStream :=
  { source := s.engine.tones.stream (.new s.engine.config.sampleRate) }

def gain (pacing : Pacing) (config : Config) (time : Span) (bank : Option (Option ByteArray))
    (id : String) (gain ramp : Sample) : Outcome Report := do
  let tones := ToneBank.new config.sampleRate
  let tones ← if bank.isSome then .ok tones else
    match BankOperation.loadText defaultBank tones with
    | .ok _ tones => .ok tones
    | .error cause _ => .error (.bank cause)
  let s ← (Session.start config tones).mapError .engine
  let s ← match bank with
    | some content => (perform s (.loadBank content)).map Prod.snd
    | none => .ok s
  let event ← (s.engine.eventHandle id).mapError .engine
  let (u, s) ← perform s (.create (.gainMeter gain))
  let ((), s) ← perform s (.attachToEvent (some u) event)
  let ((), s) ← perform s (.startEvent event)
  let step := ramp * (config.tickPeriod?.elim 0 Span.toSample)
  let climb := fun (e : Engine StockUnit) => e.edit u (StockUnit.editGain? (·.adjustGain step))
  let (t, s) ← drive pacing time climb (thread s) s
  let ((), s) ← perform s (.stopEvent event)
  let (t, s) := t.run s pacing.beforeRead
  let buffers := t.buffers.load
  let (_, s) := t.run s pacing.beforeStop
  let c ← (s.engine.control u (·.control.gain?)).mapError .engine
  .ok { demo := "gain", ticks := s.engine.ticks, buffers, gain := some c.gain
        rms := some c.rms, meters := s.engine.meters.snapshot }

def input (pacing : Pacing) (config : Config) (time : Span) (frequency level : Sample) :
    Outcome Report := do
  let tones := (ToneBank.new config.sampleRate).setInput frequency level
  let s ← (Session.start config tones).mapError .engine
  let (u, s) ← perform s (.create .peakMeter)
  let ((), s) ← perform s (.attachToInput (some u))
  let (t, s) ← drive pacing time .ok (thread s) s
  let (t, s) := t.run s pacing.beforeRead
  let buffers := t.buffers.load
  let (_, s) := t.run s pacing.beforeStop
  let c ← (s.engine.control u (·.control.peak?)).mapError .engine
  .ok { demo := "input", ticks := s.engine.ticks, buffers
        inputLevel := some c.level, meters := s.engine.meters.snapshot }

end Demo

/-- Carries a request out, with the content of each file it names, at the pace of its threads. -/
def CommandLine.Request.runAt (pace : Config → Span → Demo.Pacing) (r : Request)
    (files : String → Option ByteArray) : Except DemoFailure Report := do
  let config ← match r.config with
    | some path => (Config.load (files path)).mapError fun _ => .unloadable path
    | none => .ok {}
  match Span.ofSeconds? (if 0 < r.seconds then r.seconds else 0 : Sample).widen with
  | none => .error .endless
  | some time =>
    let pacing := pace config time
    match r.task with
    | .gain bank id gain ramp => Demo.gain pacing config time (bank.map files) id gain ramp
    | .input frequency level => Demo.input pacing config time frequency level

def CommandLine.Request.run (r : Request) (files : String → Option ByteArray) :
    Except DemoFailure Report := r.runAt Demo.Pacing.onTime files

end Patchbay

import Patchbay.CommandLine.Switch

/-!
What a command line asks for: one of the demos, with its settings. Some switches may stand before or
after the name of the demo; of two values the one after it counts.
-/

namespace Patchbay.CommandLine

inductive Task
  | gain (bank : Option String) (event : String) (gain ramp : Sample)
  | input (frequency level : Sample)

structure Request where
  config : Option String
  seconds : Sample
  json : Bool
  task : Task

def common : List Switch :=
  [⟨"verbose", some 'v', none, false⟩, ⟨"config", some 'c', some .path, false⟩,
   ⟨"seconds", some 's', some .number, false⟩, ⟨"json", none, none, false⟩]

/-- Switches of the gain demo. The ramp may fall. -/
def ofGain : List Switch :=
  [⟨"bank", some 'b', some .path, false⟩, ⟨"event", some 'e', some .text, false⟩,
   ⟨"gain", some 'g', some .number, false⟩, ⟨"ramp", none, some .number, true⟩]

def ofInput : List Switch :=
  [⟨"frequency", some 'f', some .number, false⟩, ⟨"level", some 'l', some .number, false⟩]

namespace Given

def text? (g : Given) (name : String) : Option String := g.lookup name

def text (g : Given) (name default : String) : String := (text? g name).getD default

def number (g : Given) (name : String) (default : Sample) : Sample :=
  (text? g name >>= Sample.ofText?).getD default

end Given

def readDemo (switches : List Switch) (words : List String) : Except Stop Given := do
  let (p, rest) ← readSwitches (switches ++ common) {} words
  if rest.isEmpty then p.settle else .error .refused

def demoNames : List String := ["gain", "input", "help"]

namespace Request

def ofGiven (inner outer : Given) (task : Task) : Request :=
  let g : Given := inner ++ outer
  ⟨Given.text? g "config", Given.number g "seconds" 2, (Given.text? g "json").isSome, task⟩

/-- The switches before the name of the demo are settled last. -/
def ofWords (words : List String) : Except Stop Request := do
  let (outer, rest) ← readSwitches common {} words
  match rest with
  | "gain" :: words => do
    let g ← readDemo ofGain words
    .ok (ofGiven g (← outer.settle) (.gain (Given.text? g "bank") (Given.text g "event" "beep")
      (Given.number g "gain" 0.5) (Given.number g "ramp" 0)))
  | "input" :: words => do
    let g ← readDemo ofInput words
    .ok (ofGiven g (← outer.settle) (.input (Given.number g "frequency" 1000)
      (Given.number g "level" 0.25)))
  | ["help"] => .error .help
  | ["help", name] => .error (if demoNames.contains name then .help else .refused)
  | _ => .error .refused

def paths (r : Request) : List String :=
  r.config.toList ++ match r.task with
    | .gain bank .. => bank.toList
    | .input .. => []

end Request

def usage : String := "\n".intercalate [
  "Usage: patchbay [OPTIONS] <COMMAND>",
  "",
  "Commands:",
  "  gain   Play a tone through a gain unit and watch its RMS",
  "  input  Meter a synthetic input tone",
  "",
  "Options:",
  "  -v, --verbose            Enable verbose logging",
  "  -c, --config <CONFIG>    Engine configuration (TOML)",
  "  -s, --seconds <SECONDS>  How long to run [default: 2]",
  "      --json               Print the final report as JSON",
  "  -h, --help               Print help"]

end Patchbay.CommandLine

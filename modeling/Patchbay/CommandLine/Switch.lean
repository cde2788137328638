import Patchbay.Text.Numeral

/-!
Words of a command line. A switch has a long name and perhaps a letter, and takes a value or none. A
value follows its switch, in the same word or in the next; letters without values may share a word.
Reading goes from left to right and stops at the first word that is no switch. A value in a word of
its own is looked at only when the next switch is read, or when all else has been read.
-/

namespace Patchbay.CommandLine

inductive ValueKind
  | number
  | path
  | text

def ValueKind.accepts : ValueKind → String → Bool
  | number, word => (Sample.ofText? word).isSome
  | path, word => !word.isEmpty
  | text, _ => true

structure Switch where
  name : String
  letter : Option Char := none
  value : Option ValueKind := none
  /-- Whether a value in a word of its own may start with a hyphen. -/
  hyphens : Bool := false

inductive Stop
  | help
  | refused
  deriving DecidableEq

abbrev Given := List (String × String)

def Given.add (g : Given) (name value : String) : Except Stop Given :=
  if (g.lookup name).isSome then .error .refused else .ok (g ++ [(name, value)])

def Given.addValue (g : Given) (o : Switch) (value : String) : Except Stop Given :=
  if o.value.any (·.accepts value) then g.add o.name value else .error .refused

/-- The switches given so far, and the last one apart while its value is to come in the next word or
is still to be looked at. -/
structure Progress where
  given : Given := []
  last : Option (Switch × Option String) := none

def Progress.settle (p : Progress) : Except Stop Given :=
  match p.last with
  | none => .ok p.given
  | some (_, none) => .error .refused
  | some (o, some value) => p.given.addValue o value

/-- Adds a switch and what was attached to it; a missing value must come in the next word. -/
def Given.addSwitch (g : Given) (o : Switch) (attached : Option String) : Except Stop Progress :=
  match o.value, attached with
  | none, none => do return { given := ← g.add o.name "" }
  | some _, none => .ok ⟨g, some (o, none)⟩
  | _, some v => do return { given := ← g.addValue o v }

def long (switches : List Switch) (s : List Char) (g : Given) : Except Stop Progress :=
  let name := String.ofList (s.takeWhile (· ≠ '='))
  let attached := match s.dropWhile (· ≠ '=') with
    | _ :: v => some (String.ofList v)
    | [] => none
  if name = "help" then .error (if attached.isNone then .help else .refused)
  else
    match switches.find? (·.name = name) with
    | some o => g.addSwitch o attached
    | none => .error .refused

def letters (switches : List Switch) : List Char → Given → Except Stop Progress
  | [], g => .ok { given := g }
  | c :: s, g =>
    match switches.find? (·.letter = some c) with
    | none => .error (if c = 'h' then .help else .refused)
    | some o =>
      if o.value.isSome then
        g.addSwitch o (match s with
          | [] => none
          | '=' :: v => some (String.ofList v)
          | v => some (String.ofList v))
      else do letters switches s (← g.add o.name "")

/-- A word that must be a value, unless it looks like a switch. -/
def Switch.next (o : Switch) (word : String) (g : Given) : Except Stop Progress :=
  let hyphened := match word.toList with
    | '-' :: _ :: _ => true
    | _ => false
  if hyphened && !o.hyphens then .error .refused else .ok ⟨g, some (o, some word)⟩

/-- Reads the switches at the front, each at most once. Gives the words that follow. -/
def readSwitches (switches : List Switch) (p : Progress) :
    List String → Except Stop (Progress × List String)
  | [] => .ok (p, [])
  | word :: words =>
    match p.last, word.toList with
    | some (o, none), _ => do readSwitches switches (← o.next word p.given) words
    | _, ['-', '-'] => if words.isEmpty then .ok (p, []) else .error .refused
    | _, '-' :: '-' :: s => do readSwitches switches (← long switches s (← p.settle)) words
    | _, '-' :: c :: s => do readSwitches switches (← letters switches (c :: s) (← p.settle)) words
    | _, _ => .ok (p, word :: words)

end Patchbay.CommandLine

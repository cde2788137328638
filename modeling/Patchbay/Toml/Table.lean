import Patchbay.Toml.Scalar

/-!
Values and the tables they build up. A table remembers how it came to be, which decides what may be
added to it later: a header opens a table once, a dotted key extends only tables made by dotted
keys, and a table in braces is closed.
-/

namespace Patchbay.Toml

inductive Origin
  | implied
  | dotted
  | header
  | closed
  deriving DecidableEq

inductive Value
  | string (s : String)
  | scalar (s : Scalar)
  | array (items : List Value)
  | table (origin : Origin) (entries : List (String × Value))
  | tables (elements : List (List (String × Value)))

abbrev Table := List (String × Value)

mutual

/-- Whether every number in a value has a value of its own. -/
def Value.isMeaningful : Value → Bool
  | .string _ => true
  | .scalar x => x.isMeaningful
  | .array items => Value.areMeaningful items
  | .table _ entries => Table.isMeaningful entries
  | .tables elements => Table.areMeaningful elements

def Value.areMeaningful : List Value → Bool
  | [] => true
  | v :: vs => v.isMeaningful && Value.areMeaningful vs

def Table.isMeaningful : Table → Bool
  | [] => true
  | (_, v) :: t => v.isMeaningful && Table.isMeaningful t

def Table.areMeaningful : List Table → Bool
  | [] => true
  | t :: ts => Table.isMeaningful t && Table.areMeaningful ts

end

namespace Table

def get? (t : Table) (key : String) : Option Value := (t.find? (·.1 = key)).map Prod.snd

def put (t : Table) (key : String) (v : Value) : Table :=
  if t.any (·.1 = key) then t.map fun e => if e.1 = key then (key, v) else e else t ++ [(key, v)]

/-- Changes the table at the end of a path. Missing tables are made on the way, dotted or implied;
a dotted path enters only tables made without a header. In an array of tables it is the last one. -/
def within (dotted : Bool) (f : Origin → Table → Option Table) :
    List String → Origin → Table → Option Table
  | [], origin, t => f origin t
  | key :: path, _, t =>
    match t.get? key with
    | none => do
      let origin := if dotted then Origin.dotted else .implied
      some (t.put key (.table origin (← within dotted f path origin [])))
    | some (.table origin sub) =>
      if origin = .closed || (dotted && origin = .header) then none
      else do some (t.put key (.table origin (← within dotted f path origin sub)))
    | some (.tables elements) =>
      match elements.getLast? with
      | some last => do
        let last ← within dotted f path .header last
        some (t.put key (.tables (elements.dropLast ++ [last])))
      | none => none
    | some _ => none

/-- Adds a new key. A dotted key ends in a table of dotted keys, a plain key in any other. -/
def insert (plain : Bool) (key : String) (v : Value) (origin : Origin) (t : Table) :
    Option Table :=
  if plain == decide (origin = .dotted) then none
  else if (t.get? key).isSome then none
  else some (t ++ [(key, v)])

/-- Opens a table under a header: a new one, or one so far only implied. -/
def openTable (key : String) (_ : Origin) (t : Table) : Option Table :=
  match t.get? key with
  | none => some (t ++ [(key, .table .header [])])
  | some (.table .implied sub) => some (t.put key (.table .header sub))
  | some _ => none

def openElement (key : String) (_ : Origin) (t : Table) : Option Table :=
  match t.get? key with
  | none => some (t ++ [(key, .tables [[]])])
  | some (.tables elements) => some (t.put key (.tables (elements ++ [[]])))
  | some _ => none

def addPath (path : List String) (key : String) (v : Value) (origin : Origin) (t : Table) :
    Option Table :=
  within true (insert path.isEmpty key v) path origin t

end Table

namespace Value

def items? : Value → Option (List Value)
  | array items => some items
  | tables elements => some (elements.map (table .header))
  | _ => none

def string? : Value → Option String
  | string s => some s
  | _ => none

def natural? (bound : Nat) : Value → Option Nat
  | scalar (.integer n) => if 0 ≤ n && n < bound then some n.toNat else none
  | _ => none

/-- A sample: a number read as binary64 and rounded, or an integer of 64 bits. -/
def sample? : Value → Option Sample
  | scalar (.float x) => some (.narrow x)
  | scalar (.integer n) =>
    if -(Nat.pow 2 63) ≤ n && n < Nat.pow 2 64 then
      some (Decimal.mk (n < 0) n.natAbs 0).toSample
    else none
  | _ => none

end Value

end Patchbay.Toml

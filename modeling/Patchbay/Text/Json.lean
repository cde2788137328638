import Patchbay.Text.Scan

/-!
Structured data in its bracketed notation. Objects keep the order and the repetitions of their
members, numbers keep their digits. Reading is strict: one value, blanks around it, nothing else.
-/

namespace Patchbay

inductive Json
  | null
  | bool (b : Bool)
  | number (digits : String)
  | string (s : String)
  | array (items : List Json)
  | object (members : List (String × Json))

namespace Json

open Scan

def isBlank (c : Char) : Bool := c = ' ' || c = '\t' || c = '\n' || c = '\r'

def skipBlanks (s : List Char) : List Char := s.dropWhile isBlank

def escapedCode : Reader Char := fun s => do
  let (n, s) ← hex 4 s
  if 0xD800 ≤ n && n < 0xDC00 then
    match s with
    | '\\' :: 'u' :: s =>
      let (low, s) ← hex 4 s
      if 0xDC00 ≤ low && low < 0xE000 then
        (·, s) <$> scalar? (0x10000 + (n - 0xD800) * 0x400 + (low - 0xDC00))
      else none
    | _ => none
  else (·, s) <$> scalar? n

def simpleEscape? : Char → Option Char
  | '"' => some '"'
  | '\\' => some '\\'
  | '/' => some '/'
  | 'b' => some '\x08'
  | 'f' => some '\x0c'
  | 'n' => some '\n'
  | 'r' => some '\r'
  | 't' => some '\t'
  | _ => none

def characters : Nat → Reader (List Char)
  | 0, _ => none
  | n + 1, s =>
    match s with
    | '"' :: s => some ([], s)
    | '\\' :: 'u' :: s => do
      let (c, s) ← escapedCode s
      let (cs, s) ← characters n s
      some (c :: cs, s)
    | '\\' :: c :: s => do
      let c ← simpleEscape? c
      let (cs, s) ← characters n s
      some (c :: cs, s)
    | c :: s =>
      if c.toNat < 0x20 then none
      else do
        let (cs, s) ← characters n s
        some (c :: cs, s)
    | [] => none

def quoted : Reader String
  | '"' :: s => (fun (cs, s) => (String.ofList cs, s)) <$> characters s.length s
  | _ => none

/-- A number: no sign but a minus, no leading zero, digits on both sides of a point. -/
def numeral : Reader String := fun s => do
  let (_, r) := match s with
    | '-' :: r => (true, r)
    | r => (false, r)
  let (whole, r) ← digits r
  if whole.head? = some '0' && 1 < whole.length then none
  else
    let r ← match r with
      | '.' :: r => Prod.snd <$> digits r
      | r => some r
    let (_, r) ← exponent r
    some (String.ofList (s.take (s.length - r.length)), r)

/-- Reads one value with at most `depth` brackets inside each other. -/
def value : Nat → Reader Json
  | 0, _ => none
  | depth + 1, s =>
    match s with
    | 'n' :: 'u' :: 'l' :: 'l' :: s => some (null, s)
    | 't' :: 'r' :: 'u' :: 'e' :: s => some (bool true, s)
    | 'f' :: 'a' :: 'l' :: 's' :: 'e' :: s => some (bool false, s)
    | '"' :: _ => (fun (t, s) => (string t, s)) <$> quoted s
    | '[' :: s =>
      (fun (as, s) => (array as, s)) <$> bracketed (value depth) (some ∘ skipBlanks) ']' false s
    | '\x7b' :: s =>
      let member : Reader (String × Json) := fun s => do
        let (key, s) ← quoted s
        match skipBlanks s with
        | ':' :: s => (fun (v, s) => ((key, v), s)) <$> value depth (skipBlanks s)
        | _ => none
      (fun (ms, s) => (object ms, s)) <$> bracketed member (some ∘ skipBlanks) '\x7d' false s
    | _ => (fun (t, s) => (number t, s)) <$> numeral s

def read? (text : String) : Option Json := do
  let (v, s) ← value 128 (skipBlanks text.toList)
  if (skipBlanks s).isEmpty then some v else none

/-- The value of a number written with digits only. -/
def natural? : Json → Option Nat
  | number t => if t.toList.all Char.isDigit then some (Decimal.ofDigits t.toList) else none
  | _ => none

def escaped (c : Char) : List Char :=
  if c = '"' then ['\\', '"']
  else if c = '\\' then ['\\', '\\']
  else if c = '\n' then ['\\', 'n']
  else if c = '\r' then ['\\', 'r']
  else if c = '\t' then ['\\', 't']
  else if c = '\x08' then ['\\', 'b']
  else if c = '\x0c' then ['\\', 'f']
  else if c.toNat < 0x20 then
    ['\\', 'u', '0', '0', Nat.digitChar (c.toNat / 16), Nat.digitChar (c.toNat % 16)]
  else [c]

def quote (s : String) : String := "\"" ++ String.ofList (s.toList.flatMap escaped) ++ "\""

theorem sizeOf_lt_of_mem_members {members : List (String × Json)} {m : String × Json}
    (h : m ∈ members) : sizeOf m.2 < sizeOf (object members) := by
  have := List.sizeOf_lt_of_mem h
  cases m
  simp at this ⊢
  omega

def compact : Json → String
  | null => "null"
  | bool b => toString b
  | number t => t
  | string s => quote s
  | array items => "[" ++ ",".intercalate (items.map compact) ++ "]"
  | object members =>
    "\x7b" ++ ",".intercalate (members.map fun m => quote m.1 ++ ":" ++ compact m.2) ++ "\x7d"
decreasing_by
  · have := List.sizeOf_lt_of_mem ‹_›
    simp
    omega
  · exact sizeOf_lt_of_mem_members ‹_›

/-- The value with one item or member a line, indented by two blanks a level. -/
def pretty (v : Json) : String := lines "\n" v
where
  lines (margin : String) : Json → String
    | array items =>
      if items.isEmpty then "[]"
      else
        let inner := margin ++ "  "
        "[" ++ ",".intercalate (items.map fun v => inner ++ lines inner v) ++ margin ++ "]"
    | object members =>
      if members.isEmpty then "\x7b\x7d"
      else
        let inner := margin ++ "  "
        let texts := members.map fun m => inner ++ quote m.1 ++ ": " ++ lines inner m.2
        "\x7b" ++ ",".intercalate texts ++ margin ++ "\x7d"
    | v => v.compact
  termination_by v => sizeOf v
  decreasing_by
    · have := List.sizeOf_lt_of_mem ‹_›
      simp
      omega
    · exact sizeOf_lt_of_mem_members ‹_›

end Json

end Patchbay

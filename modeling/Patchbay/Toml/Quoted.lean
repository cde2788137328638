import Patchbay.Text.Scan

/-!
Quoted text: basic strings with escapes and literal strings without, each on one line or, between
three quotes, over several.
-/

namespace Patchbay.Toml.Quoted

open Scan

/-- Characters that may stand for themselves: no control character but the tab. -/
def isPlain (c : Char) : Bool := c = '\t' || (' ' ≤ c && c ≠ '\x7f')

def quote : Char := '"'

def tick : Char := '\x27'

def simpleEscape? : Char → Option Char
  | '"' => some '"'
  | '\\' => some '\\'
  | 'b' => some '\x08'
  | 'e' => some '\x1b'
  | 'f' => some '\x0c'
  | 'n' => some '\n'
  | 'r' => some '\r'
  | 't' => some '\t'
  | _ => none

def escape : Reader Char
  | 'x' :: s => code 2 s
  | 'u' :: s => code 4 s
  | 'U' :: s => code 8 s
  | c :: s => (·, s) <$> simpleEscape? c
  | [] => none
where
  code (n : Nat) : Reader Char := fun s => do
    let (k, s) ← hex n s
    (·, s) <$> scalar? k

def basic : Nat → Reader (List Char)
  | 0, _ => none
  | n + 1, s =>
    match s with
    | '"' :: s => some ([], s)
    | '\\' :: s => do
      let (c, s) ← escape s
      let (cs, s) ← basic n s
      some (c :: cs, s)
    | c :: s =>
      if isPlain c then do
        let (cs, s) ← basic n s
        some (c :: cs, s)
      else none
    | [] => none

def literal (s : List Char) : Option (List Char × List Char) :=
  let cs := s.takeWhile (· ≠ tick)
  match s.dropWhile (· ≠ tick) with
  | _ :: s => if cs.all isPlain then some (cs, s) else none
  | [] => none

def skipSpace : List Char → List Char
  | '\r' :: '\n' :: s => skipSpace s
  | c :: s => if c = ' ' || c = '\t' || c = '\n' then skipSpace s else c :: s
  | [] => []

/-- The line break that a backslash at the end of a line hides, with the blanks about it. -/
def hiddenBreak (s : List Char) : Option (List Char) :=
  match s.dropWhile fun c => c = ' ' || c = '\t' with
  | '\n' :: s => some (skipSpace s)
  | '\r' :: '\n' :: s => some (skipSpace s)
  | _ => none

/-- A closing run of three to five quotes: all but the last three belong to the text. -/
def closing (mark : Char) (s : List Char) : Option (List Char × List Char) :=
  let run := (s.takeWhile (· = mark)).length
  if 3 ≤ run && run ≤ 5 then some (List.replicate (run - 3) mark, s.drop run) else none

def lines (mark : Char) (escapes : Bool) : Nat → Reader (List Char)
  | 0, _ => none
  | n + 1, s =>
    let go := fun (c : Char) (s : List Char) => do
      let (cs, s) ← lines mark escapes n s
      some (c :: cs, s)
    match s with
    | '\n' :: s => go '\n' s
    | '\r' :: '\n' :: s => do
      let (cs, s) ← go '\n' s
      some ('\r' :: cs, s)
    | c :: s =>
      if c = mark then
        if s.head? = some mark && s.tail.head? = some mark then closing mark (c :: s) else go c s
      else if c = '\\' && escapes then
        match hiddenBreak s with
        | some s => lines mark escapes n s
        | none => do
          let (c, s) ← escape s
          go c s
      else if isPlain c then go c s
      else none
    | [] => none

/-- A line break directly after the opening quotes is no part of the text. -/
def opened : List Char → List Char
  | '\n' :: s => s
  | '\r' :: '\n' :: s => s
  | s => s

def line : Reader String
  | c :: s =>
    if c = quote then (fun (cs, s) => (String.ofList cs, s)) <$> basic s.length s
    else if c = tick then (fun (cs, s) => (String.ofList cs, s)) <$> literal s
    else none
  | [] => none

def read : Reader String
  | c :: s =>
    if (c = quote || c = tick) && s.head? = some c && s.tail.head? = some c then
      let s := opened (s.drop 2)
      (fun (cs, s) => (String.ofList cs, s)) <$> lines c (c = quote) (s.length + 1) s
    else line (c :: s)
  | [] => none

end Patchbay.Toml.Quoted

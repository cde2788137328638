import Patchbay.Toml.Quoted
import Patchbay.Toml.Table

/-!
Reading a configuration text: lines of key-value pairs and table headers, with comments and blank
lines between. The result is one table; any fault in any line makes the text unreadable.
-/

namespace Patchbay.Toml

open Scan

namespace Document

def skipBlanks (s : List Char) : List Char := s.dropWhile fun c => c = ' ' || c = '\t'

def lineEnd (s : List Char) : Option (List Char) :=
  let s := skipBlanks s
  let isBreak := fun c => c = '\n' || c = '\r'
  let s? := match s with
    | '#' :: r =>
      if (r.takeWhile (!isBreak ·)).all Quoted.isPlain then some (r.dropWhile (!isBreak ·))
      else none
    | s => some s
  match s? with
  | some [] => some []
  | some ('\n' :: s) => some s
  | some ('\r' :: '\n' :: s) => some s
  | _ => none

def skipLines : Nat → List Char → Option (List Char)
  | 0, s => some s
  | n + 1, s =>
    match skipBlanks s with
    | [] => some []
    | c :: r =>
      if c = '#' || c = '\n' || c = '\r' then do skipLines n (← lineEnd (c :: r)) else some (c :: r)

def skip (s : List Char) : Option (List Char) := skipLines s.length s

def isKeyChar (c : Char) : Bool := c.isAlphanum || c = '_' || c = '-'

def simpleKey : Reader String := fun s =>
  match s.takeWhile isKeyChar with
  | [] => Quoted.line s
  | cs => some (String.ofList cs, s.dropWhile isKeyChar)

def keyPath : Nat → Reader (List String)
  | 0, _ => none
  | n + 1, s => do
    let (key, s) ← simpleKey s
    match skipBlanks s with
    | '.' :: s => do
      let (keys, s) ← keyPath n (skipBlanks s)
      some (key :: keys, s)
    | s => some ([key], s)

/-- How deep keys, and brackets and braces, may go. -/
def maxDepth : Nat := 80

def key : Reader (List String) := keyPath maxDepth

/-- Reads a key and, after the equals sign, its value; `gap` passes over what may stand around the
sign. -/
def pair (gap : List Char → Option (List Char)) (value : Reader Value) :
    Reader (List String × Value) := fun s => do
  let (path, s) ← key s
  match ← gap s with
  | '=' :: s => do
    let (v, s) ← value (← gap s)
    some ((path, v), s)
  | _ => none

def closedTable (pairs : List (List String × Value)) : Option Value := do
  let t ← pairs.foldlM (fun t (path, v) => do
    Table.addPath path.dropLast (← path.getLast?) v .closed t) []
  some (.table .closed t)

def value : Nat → Reader Value
  | 0, s => plain s
  | depth + 1, s =>
    match s with
    | '[' :: s => do
      let (items, s) ← bracketed (value depth) skip ']' true s
      some (.array items, s)
    | '\x7b' :: s => do
      let (pairs, s) ← bracketed (pair skip (value depth)) skip '\x7d' true s
      some (← closedTable pairs, s)
    | s => plain s
where
  plain (s : List Char) : Option (Value × List Char) :=
    if s.head? = some Quoted.quote || s.head? = some Quoted.tick then
      (fun (t, s) => (.string t, s)) <$> Quoted.read s
    else (fun (x, s) => (.scalar x, s)) <$> Scalar.read s

inductive Line
  | table (path : List String)
  | element (path : List String)
  | pair (path : List String) (v : Value)

def line : Reader Line
  | '[' :: '[' :: s => do
    let (path, s) ← key (skipBlanks s)
    match s with
    | ']' :: ']' :: s => some (.element path, s)
    | _ => none
  | '[' :: s => do
    let (path, s) ← key (skipBlanks s)
    match s with
    | ']' :: s => some (.table path, s)
    | _ => none
  | s => do
    let ((path, v), s) ← pair (some ∘ skipBlanks) (value maxDepth) s
    some (.pair path v, s)

def lines : Nat → List Char → Option (List Line)
  | 0, _ => none
  | n + 1, s => do
    match ← skip s with
    | [] => some []
    | s => do
      let (l, s) ← line s
      let ls ← lines n (← lineEnd s)
      some (l :: ls)

/-- The document so far and the path of the table that pairs go to. -/
structure Open where
  root : Table := []
  path : List String := []

def Open.add (o : Open) : Line → Option Open
  | .table path => do
    let root ← Table.within false (Table.openTable (← path.getLast?)) path.dropLast .header o.root
    some ⟨root, path⟩
  | .element path => do
    let root ← Table.within false (Table.openElement (← path.getLast?)) path.dropLast .header o.root
    some ⟨root, path⟩
  | .pair path v => do
    let key ← path.getLast?
    let root ← Table.within false (Table.addPath path.dropLast key v) o.path .header o.root
    some { o with root }

/-- A mark of the byte order at the start of a text means nothing. -/
def unmarked : List Char → List Char
  | '\uFEFF' :: s => s
  | s => s

end Document

def read? (text : String) : Option Table := do
  let s := Document.unmarked text.toList
  let ls ← Document.lines (s.length + 1) s
  let o ← ls.foldlM Document.Open.add {}
  some o.root

end Patchbay.Toml

import Patchbay.Number.Decimal

/-!
Reading from the front of a character list: digits in several bases, escaped code points, numbers in
decimal form, and bracketed lists whose items are separated by commas.
-/

namespace Patchbay.Scan

abbrev Reader (α : Type) := List Char → Option (α × List Char)

def isHexDigit (c : Char) : Bool := c.isDigit || ('a' ≤ c && c ≤ 'f') || ('A' ≤ c && c ≤ 'F')

def hexValue (c : Char) : Nat :=
  if c.isDigit then c.toNat - '0'.toNat
  else if 'a' ≤ c then c.toNat - 'a'.toNat + 10
  else c.toNat - 'A'.toNat + 10

def ofHex (ds : List Char) : Nat := ds.foldl (fun n d => 16 * n + hexValue d) 0

def hex (n : Nat) : Reader Nat := fun s =>
  let ds := s.take n
  if ds.length = n && ds.all isHexDigit then some (ofHex ds, s.drop n) else none

/-- The character of a code point that is not half of a surrogate pair. -/
def scalar? (n : Nat) : Option Char := if h : n.isValidChar then some (Char.ofNatAux n h) else none

def digits : Reader (List Char) := fun s =>
  let ds := s.takeWhile Char.isDigit
  if ds.isEmpty then none else some (ds, s.dropWhile Char.isDigit)

def sign : List Char → Bool × List Char
  | '-' :: s => (true, s)
  | '+' :: s => (false, s)
  | s => (false, s)

/-- An optional exponent; `none` where a mark has no digits after it. -/
def exponent : Reader Int
  | c :: s =>
    if c = 'e' || c = 'E' then do
      let (negative, s) := sign s
      let (ds, s) ← digits s
      let n : Int := Decimal.ofDigits ds
      some (if negative then -n else n, s)
    else some (0, c :: s)
  | [] => some (0, [])

/-- Items between brackets, after the opening one: `skip` passes over what may stand around an
item, and a comma may stand before the closing bracket if `trailing`. Each item takes at least the
comma or bracket after it, so `n` items suffice for `n` characters. -/
def items {α : Type} (item : Reader α) (skip : List Char → Option (List Char)) (close : Char)
    (trailing : Bool) : Nat → Reader (List α)
  | 0, _ => none
  | n + 1, s => do
    let (a, s) ← item s
    match ← skip s with
    | ',' :: s =>
      let s ← skip s
      match s with
      | c :: r =>
        if trailing && c = close then some ([a], r)
        else
          let (as, s) ← items item skip close trailing n s
          some (a :: as, s)
      | [] => none
    | c :: s => if c = close then some ([a], s) else none
    | [] => none

def bracketed {α : Type} (item : Reader α) (skip : List Char → Option (List Char)) (close : Char)
    (trailing : Bool) : Reader (List α) := fun s => do
  let s ← skip s
  match s with
  | c :: r => if c = close then some ([], r) else items item skip close trailing s.length s
  | [] => none

end Patchbay.Scan

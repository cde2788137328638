import Patchbay.Text.Scan

/-!
Scalars that stand without quotes: integers in four bases, decimal and special numbers, truth
values, dates and times. Digits may be grouped by single underscores; a number has no leading zero.
The form of a number is checked where it stands, its value only where it is asked for: a number of
the right form may have no value.
-/

namespace Patchbay.Toml

inductive Scalar
  | integer (n : Int)
  | float (x : Float)
  | boolean (b : Bool)
  | moment
  /-- A number beyond its range, without digits, or with other characters among its digits. -/
  | valueless

namespace Scalar

open Scan

def isMeaningful : Scalar → Bool
  | valueless => false
  | _ => true

/-- Whether every underscore stands between two digits; `before` tells of a digit in front. -/
def isGrouped (isDigit : Char → Bool) (before : Bool) : List Char → Bool
  | [] => true
  | c :: s =>
    (c ≠ '_' || (before && s.head?.any isDigit)) && isGrouped isDigit (isDigit c) s

def isDigitOf (base : Nat) (c : Char) : Bool := isHexDigit c && hexValue c < base

/-- Integers of 128 bits, with or without a sign, have a value. -/
def inRange (n : Int) : Bool := -(Nat.pow 2 127) ≤ n && n < Nat.pow 2 128

def spelled (base : Nat) (negative : Bool) (ds : List Char) : Scalar :=
  let n := Int.ofNat (ds.foldl (fun n d => base * n + hexValue d) 0)
  let n := if negative then -n else n
  if !ds.isEmpty && ds.all (isDigitOf base) && inRange n then integer n else valueless

/-- An integer in another base than ten, after the letter of the base: perhaps no digit at all. -/
def based? (base : Nat) (s : List Char) : Option Scalar :=
  let ds := s.filter (· ≠ '_')
  if ds.all (isDigitOf base) && isGrouped (isDigitOf base) false s then
    some (spelled base false ds)
  else none

/-- Whether a quote after a tab opens a string. -/
def opensString : List Char → Bool
  | a :: b :: s => (a = '\t' && (b = '"' || b = '\x27')) || opensString (b :: s)
  | _ => false

/-- A decimal integer without its sign. Behind the first underscore there is no space and no string,
and what stands beside an underscore is a digit of any base; nothing else is checked. -/
def integer? (negative : Bool) (s : List Char) : Option Scalar :=
  let tail := s.dropWhile Char.isDigit
  if s.isEmpty || (s.head? = some '0' && 1 < s.length) || tail.head?.any (· ≠ '_') then none
  else if tail.contains ' ' || opensString tail then none
  else if isGrouped isHexDigit false s then some (spelled 10 negative (s.filter (· ≠ '_')))
  else none

def decimal? (negative : Bool) (s : List Char) : Option Decimal := do
  let (whole, r) ← digits (s.filter (· ≠ '_'))
  let (fraction, r) ← match r with
    | '.' :: r => digits r
    | r => some ([], r)
  let (power, r) ← exponent r
  if !r.isEmpty || (s.head? = some '0' && 1 < whole.length) then none
  else if isGrouped Char.isDigit false s then some (.ofParts negative whole fraction power)
  else none

/-- A number of any kind. What is too large for a finite number has no value. -/
def number? : List Char → Option Scalar
  | '0' :: 'x' :: s => based? 16 s
  | '0' :: 'o' :: s => based? 8 s
  | '0' :: 'b' :: s => based? 2 s
  | s =>
    let (negative, r) := sign s
    if r = ['i', 'n', 'f'] then
      some (float (Float.ofBits (if negative then 0xFFF0000000000000 else 0x7FF0000000000000)))
    else if r = ['n', 'a', 'n'] then some (float (Float.ofBits 0x7FF8000000000000))
    else if (r.dropWhile Char.isDigit).any fun c => c = '.' || c = 'e' || c = 'E' then do
      let x := (← decimal? negative r).toFloat
      some (if x.isInf then valueless else float x)
    else integer? negative r

def twoDigits : Reader Nat
  | a :: b :: s => if a.isDigit && b.isDigit then some (Decimal.ofDigits [a, b], s) else none
  | _ => none

def isLeap (year : Nat) : Bool := year % 4 = 0 && (year % 100 ≠ 0 || year % 400 = 0)

def daysIn (year month : Nat) : Nat :=
  if month = 2 then if isLeap year then 29 else 28
  else if month = 4 || month = 6 || month = 9 || month = 11 then 30
  else 31

/-- A date; gives what follows it. -/
def date (s : List Char) : Option (List Char) := do
  let (century, s) ← twoDigits s
  let (rest, s) ← twoDigits s
  match s with
  | '-' :: s => do
    let (month, s) ← twoDigits s
    match s with
    | '-' :: s => do
      let (day, s) ← twoDigits s
      let year := 100 * century + rest
      if 1 ≤ month && month ≤ 12 && 1 ≤ day && day ≤ daysIn year month then some s else none
    | _ => none
  | _ => none

/-- A time of day; seconds and their fraction may be missing. -/
def time (s : List Char) : Option (List Char) := do
  let (hour, s) ← twoDigits s
  match s with
  | ':' :: s => do
    let (minute, s) ← twoDigits s
    let s ← match s with
      | ':' :: s => do
        let (second, s) ← twoDigits s
        let s ← match s with
          | '.' :: s => Prod.snd <$> digits s
          | s => some s
        if second ≤ 60 then some s else none
      | s => some s
    if hour ≤ 23 && minute ≤ 59 then some s else none
  | _ => none

/-- A distance from universal time, or nothing. -/
def isOffset : List Char → Bool
  | [] => true
  | ['Z'] | ['z'] => true
  | c :: s => (c = '+' || c = '-') && match twoDigits s with
    | some (hour, ':' :: s) => match twoDigits s with
      | some (minute, []) => hour ≤ 23 && minute ≤ 59
      | _ => false
    | _ => false

def isMoment (s : List Char) : Bool :=
  match date s with
  | some [] => true
  | some (c :: s) => (c = 'T' || c = 't' || c = ' ') && match time s with
    | some s => isOffset s
    | none => false
  | none => time s = some []

def ofChars? (s : List Char) : Option Scalar :=
  if s = ['t', 'r', 'u', 'e'] then some (boolean true)
  else if s = ['f', 'a', 'l', 's', 'e'] then some (boolean false)
  else match number? s with
    | some x => some x
    | none => if isMoment s then some moment else none

def isDelimiter (c : Char) : Bool :=
  c = '\n' || c = '\r' || c = '#' || c = '=' || c = ',' || c = '[' || c = ']' || c = '\x7b'
    || c = '\x7d'

def read : Reader Scalar := fun s =>
  let text := s.takeWhile (!isDelimiter ·)
  let text := (text.reverse.dropWhile fun c => c = ' ' || c = '\t').reverse
  (·, s.drop text.length) <$> ofChars? text

end Scalar

end Patchbay.Toml

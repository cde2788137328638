import Patchbay.Text.Scan

/-!
Samples as a person types them: a sign, digits with a point anywhere among them, an exponent, or the
words for what is not finite in any case of letters.
-/

namespace Patchbay.Sample

def ofNumeral? (negative : Bool) (s : List Char) : Option Sample := do
  let whole := s.takeWhile Char.isDigit
  let (fraction, s) := match s.dropWhile Char.isDigit with
    | '.' :: s => (s.takeWhile Char.isDigit, s.dropWhile Char.isDigit)
    | s => ([], s)
  let (power, s) ← Scan.exponent s
  if (whole ++ fraction).isEmpty || !s.isEmpty then none
  else some (Decimal.ofParts negative whole fraction power).toSample

def ofText? (text : String) : Option Sample :=
  let (negative, s) := Scan.sign text.toList
  let word := String.ofList (s.map Char.toLower)
  if word = "inf" || word = "infinity" then some (if negative then -1 / 0 else 1 / 0)
  else if word = "nan" then some (.ofBits 0x7FC00000)
  else ofNumeral? negative s

end Patchbay.Sample

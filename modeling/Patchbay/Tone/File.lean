import Patchbay.Toml.Document

/-!
The text of a tone bank: a list of events, each with an id, a frequency and perhaps an amplitude. An
event is a table, or an array of the same three values in order.
-/

namespace Patchbay

structure ToneSpec where
  id : String
  frequency : Sample
  amplitude : Sample := 0.5
  deriving DecidableEq

namespace ToneSpec

def ofValues? (id frequency : Option Toml.Value) (amplitude : Option Toml.Value) :
    Option ToneSpec := do
  let id ← (← id).string?
  let frequency ← (← frequency).sample?
  match amplitude with
  | none => some { id, frequency }
  | some v => do some { id, frequency, amplitude := ← v.sample? }

/-- A table must have a meaning throughout; of an array only the first three values count. -/
def ofValue? : Toml.Value → Option ToneSpec
  | .table _ t =>
    if Toml.Table.isMeaningful t then
      ofValues? (Toml.Table.get? t "id") (Toml.Table.get? t "frequency_hz")
        (Toml.Table.get? t "amplitude")
    else none
  | .array vs => ofValues? vs[0]? vs[1]? vs[2]?
  | _ => none

/-- The events of a bank text; a text that does not mention events has none. What stands beside the
events must have a meaning. -/
def listOfText? (text : String) : Option (List ToneSpec) := do
  let t ← Toml.read? text
  if !Toml.Table.isMeaningful (t.filter (·.1 ≠ "events")) then none
  else match t.get? "events" with
    | none => some []
    | some v => (← v.items?).mapM ofValue?

end ToneSpec

end Patchbay

import Patchbay.Sound.Format
import Patchbay.Route.Handle
import Patchbay.Text.Json

/-!
Rates, counts and event handles as structured data. A name that stands alone is a string, a name
with a number an object of one member, a handle its bare number.
-/

namespace Patchbay

/-- A number written with digits only, below a bound. -/
def Json.below? (bound : Nat) (v : Json) : Option Nat :=
  v.natural?.bind fun n => if n < bound then some n else none

/-- A choice by name: the name alone, or a single member with what belongs to it. -/
def Json.choice? : Json → Option (String × Option Json)
  | .string name => some (name, none)
  | .object [(name, v)] => some (name, some v)
  | _ => none

def Json.isBare : Option Json → Bool
  | none | some .null => true
  | _ => false

def Json.ofNat (n : Nat) : Json := .number (toString n)

namespace SampleRate

def toJson : SampleRate → Json
  | .custom hz => .object [("Custom", .ofNat hz.toNat)]
  | r => .string r.name

def ofJson? (v : Json) : Option SampleRate :=
  match v.choice? with
  | some ("Custom", some v) => (fun n => .custom (UInt32.ofNat n)) <$> v.below? UInt32.size
  | some (name, v) =>
    if Json.isBare v then [hz44100, hz48000, hz96000].find? (·.name = name) else none
  | none => none

end SampleRate

namespace ChannelCount

def toJson : ChannelCount → Json
  | .surround n => .object [("Surround", .ofNat n.toNat)]
  | c => .string c.name

def ofJson? (v : Json) : Option ChannelCount :=
  match v.choice? with
  | some ("Surround", some v) => (fun n => .surround (UInt16.ofNat n)) <$> v.below? UInt16.size
  | some (name, v) =>
    if Json.isBare v then [mono, stereo].find? (·.name = name) else none
  | none => none

end ChannelCount

namespace EventHandle

def toJson (h : EventHandle) : Json := .ofNat h.raw.toNat

def ofJson? (v : Json) : Option EventHandle := (fun n => ⟨UInt32.ofNat n⟩) <$> v.below? UInt32.size

end EventHandle

end Patchbay

import Patchbay.Route.Handle

/-!
Commands from the control side to the mixer. Adopting hands a unit's audio half over, releasing asks
for it back; the others change where an adopted unit sits.
-/

namespace Patchbay

inductive Command
  | adopt (unit : UnitHandle)
  | attach (unit : UnitHandle) (target : Target)
  | move (unit : UnitHandle) (target : Target)
  | detach (unit : UnitHandle)
  | release (unit : UnitHandle)
  deriving DecidableEq

namespace Command

def unit : Command → UnitHandle
  | adopt u | attach u _ | move u _ | detach u | release u => u

def target? : Command → Option Target
  | attach _ t | move _ t => some t
  | _ => none

def description : Command → String
  | adopt _ => "Adopt"
  | attach .. => "Attach"
  | move .. => "Move"
  | detach _ => "Detach"
  | release _ => "Release"

def text (c : Command) : String := c.description ++ "(" ++ c.unit.text ++ ")"

def ofChange : RouteChange → Command
  | .attach u t => attach u t
  | .move u _ t => move u t
  | .detach u _ => detach u

end Command

def UnitHandle.retiredText (u : UnitHandle) : String :=
  "Retired \x7b unit: DspUnitHandle \x7b index: " ++ toString u.index ++ ", generation: "
    ++ toString u.generation ++ " \x7d, .. \x7d"

end Patchbay

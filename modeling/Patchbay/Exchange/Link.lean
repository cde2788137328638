import Patchbay.Exchange.Meter
import Patchbay.Exchange.Queue
import Patchbay.Route.Command

/-!
All that the control side and the mixer share: commands one way, handed-back audio halves the other
way, and the meters' fields.
-/

namespace Patchbay

structure Link where
  commands : Queue Command
  retired : Queue UnitHandle
  meters : MeterShared := {}

/-- A link with nothing on it; one place for every unit that can be handed back. A command takes 32
bytes, an audio half with its handle 24. -/
def Link.ofCapacity? (commands units : Nat) : Option Link := do
  some { commands := ← Queue.ofCapacity? 32 commands, retired := ← Queue.ofCapacity? 24 units }

end Patchbay

import Patchbay.Proofs.Engine.Refusal
import Patchbay.Proofs.Session.Turnover
import Patchbay.Proofs.Unit.Words

/-! A run with words for indices. Beside the session goes a store whose indices are cut to 32 bits;
it hears of the same calls and of the same units that come back, as words. While there are no more
than 2^32 slots, it accepts, refuses and gives out what the session does. -/

namespace Patchbay

open Activity

variable {U : Type}

namespace Session

/-- What a deed makes of slots with words for indices, and the handle that it gives out. -/
def turn (s : Session U) (w : WordStore Unit) : Deed U → Option WordHandle × WordStore Unit
  | .call (.create design) =>
    if design.processes ∧ 1 ≤ s.link.commands.free then
      match w.insert? design.name () with
      | some (k, w) => (some k, w)
      | none => (none, w)
    else (none, w)
  | .call (.release u) =>
    if (w.live? u.words).isSome ∧ 1 ≤ s.link.commands.free then (none, w.setReleasing u.words)
    else (none, w)
  | .tick => (none, (s.link.retired.items.map (·.words)).foldl WordStore.retire w)
  | _ => (none, w)

variable {s : Session U} {w : WordStore Unit}

end Session

namespace Session

variable [Dsp U] {s : Session U} {w : WordStore Unit}

end Session

end Patchbay

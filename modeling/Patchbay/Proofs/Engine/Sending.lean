import Patchbay.Proofs.Engine.Refusal
import Patchbay.Proofs.Tone.Ledger

/-! What calls send. Only two calls send more than one command: attaching a unit where another one
sits, and unloading a bank with units on its events. The changes of the table that they report say
which commands these are. -/

namespace Patchbay

variable {U : Type}

namespace Queue

variable {α : Type} {q r : Queue α} {as : List α}

theorem Takes.length_le (h : q.Takes as r) : as.length ≤ q.free := by
  have hle := r.length_le
  rw [h.items, h.capacity, List.length_append] at hle
  exact Nat.le_sub_of_add_le' hle

theorem Takes.eq_foldl_push (h : q.Takes as r) : r = as.foldl push q := by
  have hpush := takes_foldl_push h.length_le
  have hitems := h.items.trans hpush.items.symm
  have hcapacity := h.capacity.trans hpush.capacity.symm
  have hlost := h.lost.trans hpush.lost.symm
  cases r
  generalize as.foldl push q = s at *
  cases s
  cases hitems
  cases hcapacity
  cases hlost
  rfl

end Queue

namespace Engine

def hosted (e : Engine U) : Nat := e.table.pairs.countP (·.2.event?.isSome)

def gone (e : Engine U) : List EventHandle :=
  (e.table.pairs.filterMap (·.2.event?)).filter (!e.tones.isValid ·)

def withoutBank (e : Engine U) (bank : BankHandle) : Engine U :=
  { e with tones := e.tones.withoutBank bank }

end Engine

namespace Call

def attachment? : Call U → Option (UnitHandle × Target)
  | attachToEvent unit? event => unit?.map (·, .event event)
  | attachToInput unit? => unit?.map (·, .input)
  | attachToOutput unit? => unit?.map (·, .output)
  | _ => none

inductive Sends (e : Engine U) : Call U → List Command → Prop
  | single {call : Call U} {sent : List Command} (length_le : sent.length ≤ 1) : Sends e call sent
  | attaching {call : Call U} {u : UnitHandle} {x : Target}
      (attachment? : call.attachment? = some (u, x)) :
      Sends e call ((e.table.attach u x).2.map .ofChange)
  | unloading {bank : BankHandle} : Sends e (unloadBank bank)
      ((Operation.clear e.table (e.withoutBank bank).gone).2.map .ofChange)

def Pushes (call : Call U) (c d : Console U) : Prop :=
  ∃ sent, c.commands.Takes sent d.commands ∧ call.Sends c.engine sent

end Call

namespace Operation

variable {c : Console U} {call : Call U}

theorem onTones_unload {bank : BankHandle} : (onTones (.unload bank) : Operation U Unit) c =
    if c.engine.tones.banks.contains bank then
      .ok () { c with engine := c.engine.withoutBank bank }
    else .error (.bank (.notLoaded bank)) c := by
  unfold onTones
  rw [BankOperation.unload_eq]
  by_cases hbank : c.engine.tones.banks.contains bank
  · rw [if_pos hbank, if_pos hbank]
    rfl
  · rw [if_neg hbank, if_neg hbank]

theorem pushes_follow {changes : List RouteChange} {d : Console U}
    (hroom : changes.length ≤ c.commands.free)
    (hsends : call.Sends c.engine (changes.map .ofChange))
    (hd : d.commands = (changes.map .ofChange).foldl Queue.push c.commands) : call.Pushes c d :=
  ⟨_, hd ▸ Queue.takes_foldl_push (by rwa [List.length_map]), hsends⟩

theorem pushes_nothing {d : Console U} (hd : d.commands = c.commands) : call.Pushes c d :=
  ⟨[], hd ▸ c.commands.takes_nil, .single (Nat.zero_le 1)⟩

theorem pushes_one {command : Command} {d : Console U} (hroom : 1 ≤ c.commands.free)
    (hd : d.commands = c.commands.push command) : call.Pushes c d :=
  ⟨[command], hd ▸ Queue.takes_push _ hroom, .single (Nat.le_refl 1)⟩

theorem pushes_change {change? : Option RouteChange} {d : Console U} (hroom : 1 ≤ c.commands.free)
    (hd : d.commands = (change?.toList.map .ofChange).foldl Queue.push c.commands) :
    call.Pushes c d := by
  refine pushes_follow (Nat.le_trans Option.length_toList_le hroom) (.single ?_) hd
  rw [List.length_map]
  exact Option.length_toList_le

theorem pushes_create (design : Design U) :
    Ends (create design) c fun _ d => call.Pushes c d := by
  unfold create
  refine Ends.check (ends_read _) fun _ _ => Ends.check (ends_reserve 1) fun _ room => Ends.get ?_
  dsimp only
  split
  · exact Ends.of_ok rfl (pushes_one room rfl)
  · exact rfl

theorem pushes_route {unit? : Option UnitHandle} {x : Target}
    (hcall : call.attachment? = unit?.map (·, x)) :
    Ends (route unit? x) c fun _ d => call.Pushes c d := by
  unfold route
  cases unit? with
  | none =>
    apply Ends.get
    split
    · exact Ends.of_ok rfl (pushes_nothing rfl)
    · exact Ends.check (ends_reserve 1) fun _ room =>
        Ends.of_ok (follow_eq _) (pushes_change room rfl)
  | some u =>
    refine Ends.check (ends_entry u) fun _ _ => Ends.check (ends_reserve 2) fun _ room => ?_
    have hlength := Nat.le_trans (c.engine.table.length_attach_le u x) room
    exact Ends.of_ok (follow_eq _) (pushes_follow hlength (.attaching hcall) rfl)

theorem pushes_detach (u : UnitHandle) : Ends (detach u) c fun _ d => call.Pushes c d := by
  unfold detach
  refine Ends.check (ends_entry u) fun _ _ => Ends.get ?_
  split
  · exact Ends.of_ok rfl (pushes_nothing rfl)
  · exact Ends.check (ends_reserve 1) fun _ room =>
      Ends.of_ok (follow_eq _) (pushes_change room rfl)

theorem pushes_release (u : UnitHandle) : Ends (release u) c fun _ d => call.Pushes c d := by
  unfold release
  exact Ends.check (ends_entry u) fun _ _ => Ends.check (ends_reserve 1) fun _ room =>
    Ends.of_ok rfl (pushes_one room rfl)

theorem pushes_onTones {α : Type} {op : BankOperation α} (h : ∀ b, Ends op b fun _ _ => True) :
    Ends (onTones op) c fun _ d => call.Pushes c d := by
  apply (ends_onTones h).imp
  rintro _ _ ⟨tones, rfl⟩
  exact pushes_nothing rfl

theorem length_gone_le (e : Engine U) (bank : BankHandle) :
    (e.withoutBank bank).gone.length ≤ e.hosted := by
  refine Nat.le_trans (List.length_filter_le ..) ?_
  rw [List.length_filterMap_eq_countP]
  exact Nat.le_refl _

theorem pushes_unloadBank (bank : BankHandle) :
    Ends (unloadBank bank) c fun _ d => (Call.unloadBank bank).Pushes c d := by
  unfold unloadBank
  refine Ends.get (Ends.check (ends_reserve _) fun _ room => ?_)
  by_cases hbank : c.engine.tones.banks.contains bank
  · apply Ends.of_ok ((bind_of_ok (onTones_unload.trans (if_pos hbank))).trans (clearEvents_eq _))
    refine pushes_follow ?_ .unloading rfl
    exact Nat.le_trans (length_clear_le ..) (Nat.le_trans (length_gone_le ..) room)
  · unfold Ends
    rw [bind_of_error (onTones_unload.trans (if_neg hbank))]

end Operation

theorem Call.pushes (call : Call U) (c : Console U) :
    Ends call.operation c fun _ d => call.Pushes c d := by
  cases call with
  | create design => exact Ends.map (Operation.pushes_create design)
  | attachToEvent unit? event =>
    apply Ends.map
    unfold Operation.attachToEvent
    apply Ends.get
    split
    · exact Operation.pushes_route rfl
    · exact rfl
  | attachToInput unit? =>
    apply Ends.map
    unfold Operation.attachToInput
    apply Ends.get
    split
    · exact Operation.pushes_route rfl
    · exact rfl
  | attachToOutput unit? => exact Ends.map (Operation.pushes_route rfl)
  | detach u => exact Ends.map (Operation.pushes_detach u)
  | release u => exact Ends.map (Operation.pushes_release u)
  | loadBank content =>
    exact Ends.map (Operation.pushes_onTones (BankOperation.ends_loadFile content))
  | unloadBank bank => exact Ends.map (Operation.pushes_unloadBank bank)
  | startEvent event =>
    exact Ends.map (Operation.pushes_onTones (BankOperation.ends_setPlaying event true))
  | stopEvent event =>
    exact Ends.map (Operation.pushes_onTones (BankOperation.ends_setPlaying event false))

end Patchbay

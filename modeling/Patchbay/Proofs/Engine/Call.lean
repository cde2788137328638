import Patchbay.Engine.Operation
import Patchbay.Proofs.Route.Replay

/-! Calls of an engine. A call that fails leaves everything as it was. A call that succeeds takes a
unit in, gives one up, or changes routes, and sends exactly the commands that go with it; the room
it made sure of is enough for all of them. -/

namespace Patchbay

structure Queue.Takes {α : Type} (q : Queue α) (as : List α) (r : Queue α) : Prop where
  items : r.items = q.items ++ as
  capacity : r.capacity = q.capacity
  lost : r.lost = q.lost

namespace Queue

variable {α : Type}

theorem takes_nil (q : Queue α) : q.Takes [] q := ⟨by simp, rfl, rfl⟩

theorem Takes.append {q r s : Queue α} {as bs : List α} (h : q.Takes as r) (k : r.Takes bs s) :
    q.Takes (as ++ bs) s where
  items := by rw [k.items, h.items, List.append_assoc]
  capacity := k.capacity.trans h.capacity
  lost := k.lost.trans h.lost

theorem takes_push {q : Queue α} (a : α) (h : 1 ≤ q.free) : q.Takes [a] (q.push a) := by
  rw [push_of_room a (by unfold free at h; omega)]
  exact ⟨rfl, rfl, rfl⟩

theorem takes_foldl_push {q : Queue α} {as : List α} (h : as.length ≤ q.free) :
    q.Takes as (as.foldl push q) := by
  induction as generalizing q with
  | nil => exact q.takes_nil
  | cons a as ih =>
    have hpush := takes_push (q := q) a (by rw [List.length_cons] at h; omega)
    refine hpush.append (ih ?_)
    unfold free at *
    rw [hpush.items, hpush.capacity]
    simp only [List.length_append, List.length_cons] at *
    simp
    omega

end Queue

/-! Operations that check first. -/

/-- An operation that either fails and leaves the state as it was, or ends in a certain way. -/
def Ends {ε σ α : Type} (op : EStateM ε σ α) (s : σ) (post : α → σ → Prop) : Prop :=
  match op s with
  | .ok a t => post a t
  | .error _ t => t = s

section Ends

variable {ε σ α β : Type} {op : EStateM ε σ α} {s : σ} {post : α → σ → Prop}

theorem Ends.of_ok {a : α} {t : σ} (h : op s = .ok a t) (ht : post a t) : Ends op s post := by
  unfold Ends
  rw [h]
  exact ht

theorem Ends.imp {post' : α → σ → Prop} (h : Ends op s post) (hp : ∀ a t, post a t → post' a t) :
    Ends op s post' := by
  unfold Ends at *
  cases hop : op s with
  | ok a t =>
    rw [hop] at h
    exact hp a t h
  | error e t =>
    rw [hop] at h
    exact h

theorem Ends.get {f : σ → EStateM ε σ β} {post : β → σ → Prop} (h : Ends (f s) s post) :
    Ends (get >>= f) s post := h

theorem bind_of_ok {f : α → EStateM ε σ β} {a : α} {t : σ} (h : op s = .ok a t) :
    (op >>= f) s = f a t := by
  simp only [bind, EStateM.bind, h]

theorem Ends.check {p : α → Prop} {f : α → EStateM ε σ β} {post : β → σ → Prop}
    (h : Ends op s fun a t => t = s ∧ p a) (hf : ∀ a, p a → Ends (f a) s post) :
    Ends (op >>= f) s post := by
  unfold Ends at *
  simp only [bind, EStateM.bind]
  cases hop : op s with
  | ok a t =>
    rw [hop] at h
    obtain ⟨rfl, ha⟩ := h
    exact hf a ha
  | error e t =>
    rw [hop] at h
    exact h

theorem Ends.andThen {f : α → EStateM ε σ β} {post' : β → σ → Prop} (h : Ends op s post)
    (hf : ∀ a t, post a t → ∃ b r, f a t = .ok b r ∧ post' b r) : Ends (op >>= f) s post' := by
  unfold Ends at *
  simp only [bind, EStateM.bind]
  cases hop : op s with
  | ok a t =>
    rw [hop] at h
    obtain ⟨b, r, hb, hr⟩ := hf a t h
    simp only [hb]
    exact hr
  | error e t =>
    rw [hop] at h
    exact h

theorem Ends.map {f : α → β} {post : β → σ → Prop} (h : Ends op s fun a t => post (f a) t) :
    Ends (f <$> op) s post := by
  unfold Ends at *
  simp only [Functor.map, EStateM.map]
  cases hop : op s with
  | ok a t =>
    rw [hop] at h
    exact h
  | error e t =>
    rw [hop] at h
    exact h

end Ends

namespace BankOperation

theorem ends_load (es : List ToneSpec) (b : ToneBank) : Ends (load es) b fun _ _ => True := by
  unfold load
  apply Ends.get
  split
  · exact rfl
  · split
    · exact rfl
    · exact Ends.of_ok rfl trivial

theorem ends_loadFile (content : Option ByteArray) (b : ToneBank) :
    Ends (loadFile content) b fun _ _ => True := by
  unfold loadFile
  split
  · exact rfl
  · unfold loadText
    split
    · exact rfl
    · exact ends_load ..

theorem ends_unload (bank : BankHandle) (b : ToneBank) :
    Ends (unload bank) b fun _ _ => True := by
  unfold unload
  apply Ends.get
  split
  · exact Ends.of_ok rfl trivial
  · exact rfl

theorem ends_setPlaying (h : EventHandle) (playing : Bool) (b : ToneBank) :
    Ends (setPlaying h playing) b fun _ _ => True := by
  unfold setPlaying
  apply Ends.get
  split
  · exact Ends.of_ok rfl trivial
  · exact rfl

end BankOperation

inductive Call (U : Type)
  | create (design : Design U)
  | attachToEvent (unit? : Option UnitHandle) (event : EventHandle)
  | attachToInput (unit? : Option UnitHandle)
  | attachToOutput (unit? : Option UnitHandle)
  | detach (unit : UnitHandle)
  | release (unit : UnitHandle)
  | loadBank (content : Option ByteArray)
  | unloadBank (bank : BankHandle)
  | startEvent (event : EventHandle)
  | stopEvent (event : EventHandle)

inductive Answer
  | unit (unit : UnitHandle)
  | bank (bank : BankHandle)
  | done
  deriving DecidableEq

namespace Call

variable {U : Type}

def operation : Call U → Operation U Answer
  | create design => .unit <$> Operation.create design
  | attachToEvent unit? event => (fun _ => .done) <$> Operation.attachToEvent unit? event
  | attachToInput unit? => (fun _ => .done) <$> Operation.attachToInput unit?
  | attachToOutput unit? => (fun _ => .done) <$> Operation.attachToOutput unit?
  | detach unit => (fun _ => .done) <$> Operation.detach unit
  | release unit => (fun _ => .done) <$> Operation.release unit
  | loadBank content => .bank <$> Operation.loadBank content
  | unloadBank bank => (fun _ => .done) <$> Operation.unloadBank bank
  | startEvent event => (fun _ => .done) <$> Operation.startEvent event
  | stopEvent event => (fun _ => .done) <$> Operation.stopEvent event

def changesUnits : Call U → Bool
  | create _ | release _ => true
  | _ => false

/-- What a call that succeeds answers, leaves of the engine, and sends to the mixer. -/
inductive Effect (e : Engine U) : Call U → Answer → Engine U → List Command → Prop
  | create {d : Design U} {u : UnitHandle} {units : UnitStore U}
      (insert : e.units.insert? d.name d.unit = some (u, units)) :
      Effect e (create d) (.unit u) { e with units } [.adopt u]
  | release {u : UnitHandle} (live : (e.units.live? u).isSome) :
      Effect e (release u) .done
        { e with table := (e.table.detach u).1, units := e.units.setReleasing u } [.release u]
  | reroute {call : Call U} {answer : Answer} {table : AttachmentTable} {tones : ToneBank}
      {changes : List RouteChange} (other : call.changesUnits = false)
      (lead : RouteChange.Lead e.table.attachment changes table.attachment)
      (known : ∀ c ∈ changes,
        (e.units.live? c.unit).isSome ∨ (e.table.attachment c.unit).isSome) :
      Effect e call answer { e with table, tones } (changes.map .ofChange)

theorem Effect.tones {e : Engine U} {call : Call U} {answer : Answer}
    (other : call.changesUnits = false) (tones : ToneBank) :
    Effect e call answer { e with tones } [] := by
  have known : ∀ c ∈ ([] : List RouteChange),
      (e.units.live? c.unit).isSome ∨ (e.table.attachment c.unit).isSome := by simp
  have lead : RouteChange.Lead e.table.attachment [] e.table.attachment := rfl
  exact reroute other lead known

def Done (call : Call U) (c : Console U) (answer : Answer) (d : Console U) : Prop :=
  ∃ sent, c.commands.Takes sent d.commands ∧ Effect c.engine call answer d.engine sent

end Call

namespace Operation

variable {U : Type} {c : Console U}

theorem ends_read {α : Type} (f : Engine U → Except EngineError α) :
    Ends (read f) c fun a d => d = c ∧ f c.engine = .ok a := by
  apply Ends.get
  cases h : f c.engine with
  | ok a => exact ⟨rfl, rfl⟩
  | error e => exact rfl

theorem ends_entry (u : UnitHandle) :
    Ends (read (·.entry u)) c fun _ d => d = c ∧ (c.engine.units.live? u).isSome := by
  apply (ends_read _).imp
  rintro entry d ⟨rfl, h⟩
  refine ⟨rfl, ?_⟩
  unfold Engine.entry at h
  cases hlive : d.engine.units.live? u with
  | some _ => rfl
  | none =>
    rw [hlive] at h
    cases h

theorem ends_reserve (needed : Nat) :
    Ends (reserve needed) c fun _ d => d = c ∧ needed ≤ c.commands.free := by
  unfold reserve
  apply Ends.get
  dsimp only
  split
  · exact rfl
  · rename_i h
    exact ⟨rfl, Nat.le_of_not_lt h⟩

theorem onTable_eq {α : Type} (f : AttachmentTable → AttachmentTable × α) :
    (onTable f : Operation U α) c =
      .ok (f c.engine.table).2 { c with engine.table := (f c.engine.table).1 } := rfl

theorem follow_eq (changes : List RouteChange) : (follow changes : Operation U Unit) c =
    .ok () { c with commands := (changes.map .ofChange).foldl Queue.push c.commands } := by
  induction changes generalizing c with
  | nil => rfl
  | cons change changes ih => exact ih

theorem ends_onTones {α : Type} {op : BankOperation α} (h : ∀ b, Ends op b fun _ _ => True) :
    Ends (onTones op) c fun _ d => ∃ tones, d = { c with engine.tones := tones } := by
  have hop := h c.engine.tones
  unfold Ends onTones at *
  cases heq : op c.engine.tones with
  | ok a tones => exact ⟨tones, rfl⟩
  | error e tones =>
    rw [heq] at hop
    simp only [hop]

theorem reroute_done {call : Call U} {answer : Answer} {table : AttachmentTable}
    {changes : List RouteChange} (other : call.changesUnits = false)
    (lead : RouteChange.Lead c.engine.table.attachment changes table.attachment)
    (known : ∀ change ∈ changes, (c.engine.units.live? change.unit).isSome ∨
      (c.engine.table.attachment change.unit).isSome)
    (room : changes.length ≤ c.commands.free) :
    call.Done c answer ⟨{ c.engine with table },
      (changes.map .ofChange).foldl Queue.push c.commands⟩ := by
  refine ⟨_, Queue.takes_foldl_push (by rwa [List.length_map]), ?_⟩
  exact Call.Effect.reroute other lead known

theorem nothing_done {call : Call U} {answer : Answer} (other : call.changesUnits = false) :
    call.Done c answer c :=
  ⟨[], c.commands.takes_nil, .tones other c.engine.tones⟩

theorem ends_create (design : Design U) :
    Ends (create design) c fun u d => (Call.create design).Done c (.unit u) d := by
  unfold create
  apply Ends.check (ends_read _)
  intro unit hunit
  refine Ends.check (ends_reserve 1) fun _ room => Ends.get ?_
  have hbuild : design.unit = unit := by
    unfold Design.build at hunit
    split at hunit
    · exact Except.ok.inj hunit
    · cases hunit
  subst hbuild
  dsimp only
  cases h : c.engine.units.insert? design.name design.unit with
  | none => exact rfl
  | some inserted => exact Ends.of_ok rfl ⟨_, Queue.takes_push _ room, .create h⟩

theorem ends_route {call : Call U} (other : call.changesUnits = false) (unit? : Option UnitHandle)
    (x : Target) : Ends (route unit? x) c fun _ d => call.Done c .done d := by
  unfold route
  cases unit? with
  | none =>
    apply Ends.get
    split
    · exact Ends.of_ok rfl (nothing_done other)
    · refine Ends.check (ends_reserve 1) fun _ room => Ends.of_ok (follow_eq _) ?_
      refine reroute_done other (c.engine.table.lead_detachTarget x) ?_ ?_
      · intro change hchange
        rw [Option.mem_toList] at hchange
        exact Or.inr (Option.isSome_of_mem (AttachmentTable.attachment_of_mem_detachTarget hchange))
      · exact Nat.le_trans Option.length_toList_le room
  | some u =>
    apply Ends.check (ends_entry u)
    intro _ live
    refine Ends.check (ends_reserve 2) fun _ room => Ends.of_ok (follow_eq _) ?_
    refine reroute_done other (c.engine.table.lead_attach u x) ?_ ?_
    · intro change hchange
      rcases AttachmentTable.unit_of_mem_attach hchange with hu | hu
      · exact Or.inl (hu ▸ live)
      · exact Or.inr hu
    · exact Nat.le_trans (c.engine.table.length_attach_le u x) room

theorem ends_detach (u : UnitHandle) :
    Ends (detach u) c fun _ d => (Call.detach u).Done c .done d := by
  unfold detach
  refine Ends.check (ends_entry u) fun _ live => Ends.get ?_
  split
  · exact Ends.of_ok rfl (nothing_done rfl)
  · refine Ends.check (ends_reserve 1) fun _ room => Ends.of_ok (follow_eq _) ?_
    refine reroute_done rfl (c.engine.table.lead_detach u) ?_ ?_
    · intro change hchange
      rw [Option.mem_toList] at hchange
      exact Or.inl (AttachmentTable.attachment_of_mem_detach hchange ▸ live)
    · exact Nat.le_trans Option.length_toList_le room

theorem ends_release (u : UnitHandle) :
    Ends (release u) c fun _ d => (Call.release u).Done c .done d := by
  unfold release
  apply Ends.check (ends_entry u)
  intro _ live
  refine Ends.check (ends_reserve 1) fun _ room => Ends.of_ok rfl ?_
  exact ⟨_, Queue.takes_push _ room, .release live⟩

/-! Unloading a bank. -/

def clear (t : AttachmentTable) : List EventHandle → AttachmentTable × List RouteChange
  | [] => (t, [])
  | event :: events =>
    let (t, change) := t.detachEvent event
    let (t, changes) := clear t events
    (t, change.toList ++ changes)

theorem clearEvents_eq (events : List EventHandle) : (clearEvents events : Operation U Unit) c =
    .ok () ⟨{ c.engine with table := (clear c.engine.table events).1 },
      ((clear c.engine.table events).2.map .ofChange).foldl Queue.push c.commands⟩ := by
  induction events generalizing c with
  | nil => rfl
  | cons event events ih =>
    have hstep : (clearEvents (event :: events) : Operation U Unit) c =
        clearEvents events ⟨{ c.engine with table := (c.engine.table.detachEvent event).1 },
          ((c.engine.table.detachEvent event).2.toList.map .ofChange).foldl Queue.push
            c.commands⟩ :=
      (bind_of_ok (onTable_eq _)).trans (bind_of_ok (follow_eq _))
    rw [hstep, ih]
    simp only [clear, List.map_append, List.foldl_append]

theorem lead_clear (t : AttachmentTable) (events : List EventHandle) :
    RouteChange.Lead t.attachment (clear t events).2 (clear t events).1.attachment := by
  induction events generalizing t with
  | nil => rfl
  | cons event events ih => exact (t.lead_detachTarget (.event event)).append (ih _)

theorem known_clear (t : AttachmentTable) (events : List EventHandle) :
    ∀ change ∈ (clear t events).2, (t.attachment change.unit).isSome := by
  induction events generalizing t with
  | nil => simp [clear]
  | cons event events ih =>
    intro change hchange
    rcases List.mem_append.mp hchange with h | h
    · rw [Option.mem_toList] at h
      exact Option.isSome_of_mem (AttachmentTable.attachment_of_mem_detachTarget h)
    · have hsome : ((t.detachTarget (.event event)).1.attachment change.unit).isSome :=
        ih _ change h
      rw [AttachmentTable.attachment_detachTarget] at hsome
      exact Option.isSome_of_isSome_filter _ _ hsome

theorem length_clear_le (t : AttachmentTable) (events : List EventHandle) :
    (clear t events).2.length ≤ events.length := by
  induction events generalizing t with
  | nil => exact Nat.le_refl 0
  | cons event events ih =>
    have hchange := Option.length_toList_le (o := (t.detachEvent event).2)
    have hrest := ih (t.detachEvent event).1
    simp only [clear, List.length_append, List.length_cons]
    omega

theorem ends_unloadBank (bank : BankHandle) :
    Ends (unloadBank bank) c fun _ d => (Call.unloadBank bank).Done c .done d := by
  unfold unloadBank
  refine Ends.get (Ends.check (ends_reserve _) fun _ room => ?_)
  apply Ends.andThen (ends_onTones (BankOperation.ends_unload bank))
  rintro _ _ ⟨tones, rfl⟩
  refine ⟨_, _, clearEvents_eq _, ?_⟩
  refine ⟨_, Queue.takes_foldl_push ?_, .reroute rfl (lead_clear ..) ?_⟩
  · -- only events with a unit are cleared, and there was room for all of those
    rw [List.length_map]
    refine Nat.le_trans (length_clear_le ..) (Nat.le_trans (List.length_filter_le ..) ?_)
    rw [List.length_filterMap_eq_countP]
    exact room
  · exact fun change hchange => Or.inr (known_clear _ _ change hchange)

end Operation

namespace Call

variable {U : Type}

theorem ends_tones {α : Type} {op : BankOperation α} {answer : α → Answer} {call : Call U}
    (c : Console U) (other : call.changesUnits = false) (h : ∀ b, Ends op b fun _ _ => True) :
    Ends (answer <$> Operation.onTones op) c fun a d => call.Done c a d := by
  refine Ends.map ((Operation.ends_onTones h).imp ?_)
  rintro a _ ⟨tones, rfl⟩
  exact ⟨[], c.commands.takes_nil, .tones other tones⟩

theorem ends (call : Call U) (c : Console U) :
    Ends call.operation c fun answer d => call.Done c answer d := by
  cases call with
  | create design => exact Ends.map (Operation.ends_create design)
  | attachToEvent unit? event =>
    apply Ends.map
    unfold Operation.attachToEvent
    apply Ends.get
    split
    · exact Operation.ends_route rfl unit? _
    · exact rfl
  | attachToInput unit? =>
    apply Ends.map
    unfold Operation.attachToInput
    apply Ends.get
    split
    · exact Operation.ends_route rfl unit? _
    · exact rfl
  | attachToOutput unit? => exact Ends.map (Operation.ends_route rfl unit? .output)
  | detach u => exact Ends.map (Operation.ends_detach u)
  | release u => exact Ends.map (Operation.ends_release u)
  | loadBank content => exact ends_tones c rfl (BankOperation.ends_loadFile content)
  | unloadBank bank => exact Ends.map (Operation.ends_unloadBank bank)
  | startEvent event => exact ends_tones c rfl (BankOperation.ends_setPlaying event true)
  | stopEvent event => exact ends_tones c rfl (BankOperation.ends_setPlaying event false)

end Call

end Patchbay

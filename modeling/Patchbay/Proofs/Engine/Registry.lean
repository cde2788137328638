import Patchbay.Proofs.Tone.Voices

/-! The registry of an engine. Whatever calls are made, and whether they fail or not, it is one that
calls of its own come to. -/

namespace Patchbay

/-- An operation that leaves what it was given, also when it fails. -/
def Keeps {ε σ α : Type} (p : σ → Prop) (op : EStateM ε σ α) : Prop :=
  ∀ s, p s → match op s with
    | .ok _ t | .error _ t => p t

namespace Keeps

variable {ε σ α β : Type} {p : σ → Prop} {op : EStateM ε σ α}

theorem pure (a : α) : Keeps p (Pure.pure a : EStateM ε σ α) := fun _ hs => hs

theorem throw (e : ε) : Keeps p (throw e : EStateM ε σ α) := fun _ hs => hs

theorem get {f : σ → EStateM ε σ β} (h : ∀ s, Keeps p (f s)) : Keeps p (get >>= f) :=
  fun s hs => h s s hs

theorem modify {f : σ → σ} (h : ∀ s, p s → p (f s)) : Keeps p (modify f : EStateM ε σ PUnit) := h

theorem ite {c : Prop} [Decidable c] {op' : EStateM ε σ α} (h : Keeps p op) (h' : Keeps p op') :
    Keeps p (if c then op else op') := by
  split
  · exact h
  · exact h'

theorem bind {f : α → EStateM ε σ β} (h : Keeps p op) (hf : ∀ a, Keeps p (f a)) :
    Keeps p (op >>= f) := by
  intro s hs
  have hop := h s hs
  simp only [Bind.bind, EStateM.bind]
  cases heq : op s with
  | ok a t =>
    rw [heq] at hop
    exact hf a t hop
  | error e t =>
    rw [heq] at hop
    exact hop

theorem map {f : α → β} (h : Keeps p op) : Keeps p (f <$> op) := by
  intro s hs
  have hop := h s hs
  simp only [Functor.map, EStateM.map]
  cases heq : op s with
  | ok a t | error e t =>
    rw [heq] at hop
    exact hop

end Keeps

def Console.Registered {U : Type} (c : Console U) : Prop := c.engine.tones.Reachable

namespace Operation

variable {U : Type}

theorem keeps_read {α : Type} (f : Engine U → Except EngineError α) :
    Keeps Console.Registered (read f) := by
  apply Keeps.get
  intro c
  split
  · exact .pure _
  · exact .throw _

theorem keeps_reserve (needed : Nat) :
    Keeps Console.Registered (reserve needed : Operation U Unit) := by
  exact .get fun _ => .ite (.throw _) (.pure _)

theorem keeps_send (command : Command) :
    Keeps Console.Registered (send command : Operation U Unit) := .modify fun _ h => h

theorem keeps_setUnits (units : UnitStore U) : Keeps Console.Registered (setUnits units) :=
  .modify fun _ h => h

theorem keeps_onTable {α : Type} (f : AttachmentTable → AttachmentTable × α) :
    Keeps Console.Registered (onTable f : Operation U α) := fun _ h => h

theorem keeps_follow (changes : List RouteChange) :
    Keeps Console.Registered (follow changes : Operation U Unit) := by
  induction changes with
  | nil => exact .pure _
  | cons change changes ih => exact (keeps_send _).bind fun _ => ih

theorem keeps_onTones {α : Type} {op : BankOperation α} (call : BankCall)
    (h : ∀ b : ToneBank, b.act call = b.leftBy op) :
    Keeps Console.Registered (onTones op : Operation U α) := by
  intro c hc
  have hact := hc.act call
  rw [h, ToneBank.leftBy] at hact
  unfold onTones
  cases heq : op c.engine.tones with
  | ok a left | error e left =>
    rw [heq] at hact
    exact hact

theorem keeps_route (u? : Option UnitHandle) (x : Target) :
    Keeps Console.Registered (route u? x : Operation U Unit) := by
  unfold route
  cases u? with
  | none =>
    exact .get fun _ => .ite (.pure _) <| (keeps_reserve 1).bind fun _ =>
      (keeps_onTable _).bind fun _ => keeps_follow _
  | some u =>
    exact (keeps_read _).bind fun _ => (keeps_reserve 2).bind fun _ =>
      (keeps_onTable _).bind fun _ => keeps_follow _

theorem keeps_clearEvents (events : List EventHandle) :
    Keeps Console.Registered (clearEvents events : Operation U Unit) := by
  induction events with
  | nil => exact .pure _
  | cons event events ih =>
    exact (keeps_onTable _).bind fun _ => (keeps_follow _).bind fun _ => ih

theorem keeps_create (design : Design U) : Keeps Console.Registered (create design) := by
  unfold create
  refine (keeps_read _).bind fun unit => (keeps_reserve 1).bind fun _ => .get fun c => ?_
  dsimp only
  split
  · exact (keeps_setUnits _).bind fun _ => (keeps_send _).bind fun _ => .pure _
  · exact .throw _

theorem keeps_release (u : UnitHandle) :
    Keeps Console.Registered (release u : Operation U Unit) := by
  unfold release
  exact (keeps_read _).bind fun _ => (keeps_reserve 1).bind fun _ => (keeps_onTable _).bind fun _ =>
    .get fun _ => (keeps_setUnits _).bind fun _ => keeps_send _

theorem keeps_detach (u : UnitHandle) : Keeps Console.Registered (detach u : Operation U Unit) := by
  unfold detach
  exact (keeps_read _).bind fun _ => .get fun _ => .ite (.pure _) <|
    (keeps_reserve 1).bind fun _ => (keeps_onTable _).bind fun _ => keeps_follow _

theorem keeps_unloadBank (bank : BankHandle) :
    Keeps Console.Registered (unloadBank bank : Operation U Unit) := by
  unfold unloadBank
  exact .get fun _ => (keeps_reserve _).bind fun _ =>
    (keeps_onTones (.unload bank) fun _ => rfl).bind fun _ =>
      .get fun _ => keeps_clearEvents _

end Operation

theorem Call.keeps_operation {U : Type} (call : Call U) :
    Keeps Console.Registered call.operation := by
  cases call with
  | create design => exact (Operation.keeps_create design).map
  | attachToEvent u? event =>
    exact (Keeps.get fun _ => .ite (Operation.keeps_route u? _) (.throw _)).map
  | attachToInput u? =>
    exact (Keeps.get fun _ => .ite (Operation.keeps_route u? _) (.throw _)).map
  | attachToOutput u? => exact (Operation.keeps_route u? _).map
  | detach u => exact (Operation.keeps_detach u).map
  | release u => exact (Operation.keeps_release u).map
  | loadBank content => exact (Operation.keeps_onTones (.loadFile content) fun _ => rfl).map
  | unloadBank bank => exact (Operation.keeps_unloadBank bank).map
  | startEvent event => exact (Operation.keeps_onTones (.start event) fun _ => rfl).map
  | stopEvent event => exact (Operation.keeps_onTones (.stop event) fun _ => rfl).map

end Patchbay

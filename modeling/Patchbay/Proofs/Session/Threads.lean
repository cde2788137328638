import Patchbay.Proofs.Engine.Sending
import Patchbay.Proofs.Session.Agreement

/-! The two threads at their finest grain. A call sends its commands one by one, and the mixer may
take up commands and make buffers between any two of them. Between calls the threads are in step,
and within a call they are once the rest of its commands is sent. -/

namespace Patchbay

open Mixer Command

variable {U : Type}

structure Sending (U : Type) where
  call : Call U
  before : Engine U
  sent : List Command := []
  pending : List Command

structure Threads (U : Type) where
  session : Session U
  sending? : Option (Sending U) := none

def Deed.onMixer : Deed U → Bool
  | @Deed.render .. | .takeUp => true
  | _ => false

inductive Turn (U : Type) : Type 1
  | deed (deed : Deed U)
  | proceed

def Session.pushAll (s : Session U) (cs : List Command) : Session U :=
  { s with link.commands := cs.foldl Queue.push s.link.commands }

namespace Threads

/-- Sets about a call. The engine is as the call leaves it, and nothing is sent yet. -/
def enter (t : Threads U) (call : Call U) : Threads U :=
  let left := (t.session.attempt call.operation).2
  { session := { t.session with engine := left.engine }
    sending? := some
      { call
        before := t.session.engine
        pending := left.link.commands.items.drop t.session.link.commands.items.length } }

def proceed (t : Threads U) : Threads U :=
  match t.sending? with
  | none => t
  | some p =>
    match p.pending with
    | [] => { t with sending? := none }
    | c :: cs =>
      { session := t.session.pushAll [c]
        sending? := some { p with sent := p.sent ++ [c], pending := cs } }

variable [Dsp U]

def perform (t : Threads U) : Deed U → Threads U
  | .call call => t.enter call
  | deed => { t with session := (t.session.act deed).1 }

def act (t : Threads U) : Turn U → Threads U
  | .deed deed => if t.sending?.isNone || deed.onMixer then t.perform deed else t
  | .proceed => t.proceed

def after (t : Threads U) : List (Turn U) → Threads U
  | [] => t
  | turn :: past => (t.after past).act turn

end Threads

def Session.interleave [Dsp U] (s : Session U) (turns : List (Turn U)) : Threads U :=
  Threads.after ⟨s, none⟩ turns

/-! What is still to be sent. -/

namespace Session

theorem attempt_pushes (s : Session U) (call : Call U) : ∃ pending,
    call.Sends s.engine pending ∧
    s.link.commands.Takes pending (s.attempt call.operation).2.link.commands ∧
    (s.attempt call.operation).2 = { s with
      engine := (s.attempt call.operation).2.engine
      link.commands := (s.attempt call.operation).2.link.commands } := by
  have hends := call.pushes ⟨s.engine, s.link.commands⟩
  unfold Ends at hends
  unfold attempt
  cases hop : call.operation ⟨s.engine, s.link.commands⟩ with
  | ok answer d =>
    rw [hop] at hends
    obtain ⟨sent, htakes, hsends⟩ := hends
    exact ⟨sent, hsends, htakes, rfl⟩
  | error e d =>
    rw [hop] at hends
    subst hends
    exact ⟨[], .single (Nat.zero_le 1), s.link.commands.takes_nil, rfl⟩

end Session

structure Sending.Entered (p : Sending U) (s : Session U) (e : Engine U) : Prop where
  before : p.before = s.engine
  takes : s.link.commands.Takes (p.sent ++ p.pending) (s.attempt p.call.operation).2.link.commands
  table : e.table = (s.attempt p.call.operation).2.engine.table
  outline : e.units.outline = (s.attempt p.call.operation).2.engine.units.outline

theorem Sending.Entered.sends {p : Sending U} {s : Session U} {e : Engine U}
    (h : p.Entered s e) : p.call.Sends p.before (p.sent ++ p.pending) := by
  obtain ⟨pending, hsends, htakes, -⟩ := s.attempt_pushes p.call
  have hsame : p.sent ++ p.pending = pending :=
    List.append_cancel_left (h.takes.items.symm.trans htakes.items)
  rw [h.before, hsame]
  exact hsends

/-! What every state of a run has in common. -/

namespace Session

theorem items_pushAll {s : Session U} {cs : List Command}
    (h : cs.length ≤ s.link.commands.free) :
    (s.pushAll cs).link.commands.items = s.link.commands.items ++ cs :=
  (Queue.takes_foldl_push h).items

end Session

/-- With the rest of its commands sent, a call under way leaves engine and mixer in step, and so far
the mixer has come, or will come, as far as the sent ones take it. -/
structure Sending.OnTheWay (p : Sending U) (s₀ s : Session U) : Prop
    extends p.Entered s₀ s.engine where
  inStep : Session.InStep (s.pushAll p.pending)
  room : p.pending.length ≤ s.link.commands.free
  routing : actAll s.mixer.routing s.link.commands.items = actAll p.before.routing p.sent

namespace Sending

open Session

variable {p : Sending U} {s₀ s t : Session U}

theorem OnTheWay.ready (h : p.OnTheWay s₀ s) :
    Ready (s.link.commands.items ++ p.pending) s.mixer s.link.retired := by
  rw [← items_pushAll h.room]
  exact h.inStep.ready

theorem OnTheWay.carriedOut (h : p.OnTheWay s₀ s) (bs : List Command) {cs : List Command}
    (hitems : s.link.commands.items = bs ++ cs) (hrest : t.link.commands.items = cs)
    (hcapacity : t.link.commands.capacity = s.link.commands.capacity)
    (hlost : t.link.commands.lost = s.link.commands.lost)
    (hmixer : Same (s.mixer.applyAll s.link.retired bs).1 t.mixer)
    (hretired : t.link.retired = (s.mixer.applyAll s.link.retired bs).2)
    (houtline : t.engine.units.outline = s.engine.units.outline)
    (htable : t.engine.table = s.engine.table) : p.OnTheWay s₀ t := by
  have hroom : p.pending.length ≤ t.link.commands.free := by
    apply Nat.le_trans h.room
    unfold Queue.free
    rw [hcapacity, hitems, hrest, List.length_append]
    omega
  have hbefore : (s.pushAll p.pending).link.commands.items = bs ++ (cs ++ p.pending) := by
    rw [items_pushAll h.room, hitems, List.append_assoc]
  have hafter : (t.pushAll p.pending).link.commands.items = cs ++ p.pending := by
    rw [items_pushAll hroom, hrest]
  have hlosses : (t.pushAll p.pending).link.commands.lost =
      (s.pushAll p.pending).link.commands.lost :=
    (Queue.takes_foldl_push hroom).lost.trans
      (hlost.trans (Queue.takes_foldl_push h.room).lost.symm)
  have hready := h.ready
  rw [hitems, List.append_assoc] at hready
  have hrouting : actAll t.mixer.routing t.link.commands.items =
      actAll s.mixer.routing s.link.commands.items := by
    rw [hrest, hitems, actAll_append, routing_congr hmixer.units]
    exact congrArg (actAll · cs) hready.routing_applyAll
  exact {
    before := h.before
    takes := h.takes
    table := htable.trans h.table
    outline := houtline.trans h.outline
    inStep := h.inStep.carriedOut bs hbefore hafter hlosses hmixer hretired houtline htable
    room := hroom
    routing := hrouting.trans h.routing }

theorem OnTheWay.takeUp (h : p.OnTheWay s₀ s) : p.OnTheWay s₀ s.takeUp := by
  unfold Session.takeUp
  cases hpop : s.link.commands.pop? with
  | none => exact h
  | some popped =>
    obtain ⟨c, commands⟩ := popped
    obtain ⟨hitems, hlost⟩ := Queue.pop?_eq_some hpop
    exact h.carriedOut [c] hitems rfl (Queue.capacity_pop? hpop) hlost ⟨rfl, rfl, rfl⟩ rfl rfl rfl

theorem OnTheWay.render [Dsp U] {σ : Type} [SignalSource σ] (h : p.OnTheWay s₀ s) (source : σ) :
    p.OnTheWay s₀ (s.render source).session := by
  have hdrain := drain_eq s.link h.ready.overflow
  have howned : ∀ u ∈ (s.mixer.drain s.link).1.owned, (s.engine.units.get? u).isSome := by
    rw [hdrain]
    exact h.inStep.isSome_get?_of_applied (items_pushAll h.room)
  obtain ⟨hsame, hcommands, hretired, es, fs, hran, -, -⟩ :=
    render_spec ⟨s.engine.units, []⟩ source howned
  rw [hdrain] at hsame hcommands hretired
  refine h.carriedOut _ (List.append_nil _).symm ?_ ?_ ?_ hsame hretired hran.outline rfl
  · exact congrArg Queue.items hcommands
  · exact (congrArg Queue.capacity hcommands).trans rfl
  · exact (congrArg Queue.lost hcommands).trans rfl

theorem OnTheWay.proceed (h : p.OnTheWay s₀ s) {c : Command} {cs : List Command}
    (hpending : p.pending = c :: cs) :
    ({ p with sent := p.sent ++ [c], pending := cs } : Sending U).OnTheWay s₀ (s.pushAll [c]) := by
  have htakes := h.takes
  have hstep := h.inStep
  have hroom := h.room
  rw [hpending] at htakes hstep hroom
  rw [List.length_cons] at hroom
  have hpush : s.link.commands.Takes [c] (s.link.commands.push c) :=
    Queue.takes_push c (Nat.le_trans (Nat.le_add_left 1 _) hroom)
  exact {
    before := h.before
    takes := by
      rw [List.append_assoc]
      exact htakes
    table := h.table
    outline := h.outline
    inStep := hstep
    room := by
      show cs.length ≤ (s.link.commands.push c).free
      unfold Queue.free at hroom ⊢
      rw [hpush.items, hpush.capacity, List.length_append, List.length_singleton]
      omega
    routing := by
      show actAll s.mixer.routing (s.link.commands.push c).items = _
      rw [hpush.items, actAll_append, actAll_append, h.routing] }

end Sending

structure Threads.Coherent (t : Threads U) (entered : Session U → Prop) : Prop where
  idle : t.sending? = none → Session.InStep t.session
  busy : ∀ p, t.sending? = some p → ∃ s₀, entered s₀ ∧ p.OnTheWay s₀ t.session

namespace Threads

open Session

variable {t : Threads U} {entered : Session U → Prop}

theorem coherent_idle (hidle : t.sending? = none) (h : InStep t.session) :
    t.Coherent entered where
  idle _ := h
  busy p hp := by
    rw [hidle] at hp
    cases hp

theorem coherent_busy {p : Sending U} {s₀ : Session U} (hp : t.sending? = some p)
    (hentered : entered s₀) (h : p.OnTheWay s₀ t.session) : t.Coherent entered where
  idle hidle := by
    rw [hp] at hidle
    cases hidle
  busy q hq := by
    cases hp.symm.trans hq
    exact ⟨s₀, hentered, h⟩

theorem coherent_enter (h : InStep t.session) (hentered : entered t.session) (call : Call U) :
    (t.enter call).Coherent entered := by
  obtain ⟨pending, -, htakes, heq⟩ := t.session.attempt_pushes call
  have hpending : (t.session.attempt call.operation).2.link.commands.items.drop
      t.session.link.commands.items.length = pending := by
    rw [htakes.items, List.drop_left]
  have hleft : (t.enter call).session.pushAll pending = (t.session.attempt call.operation).2 := by
    rw [heq, htakes.eq_foldl_push]
    rfl
  refine coherent_busy rfl hentered ?_
  rw [hpending]
  exact {
    before := rfl
    takes := htakes
    table := rfl
    outline := rfl
    inStep := hleft ▸ h.called call
    room := htakes.length_le
    routing := h.routing }

theorem Coherent.imp (h : t.Coherent entered) {entered' : Session U → Prop}
    (himp : ∀ s₀, entered s₀ → entered' s₀) : t.Coherent entered' where
  idle := h.idle
  busy p hp := (h.busy p hp).imp fun s₀ hs => ⟨himp s₀ hs.1, hs.2⟩

theorem Coherent.proceed (h : t.Coherent entered) : t.proceed.Coherent entered := by
  unfold Threads.proceed
  cases hsending : t.sending? with
  | none => exact h
  | some p =>
    obtain ⟨s₀, hentered, hway⟩ := h.busy p hsending
    dsimp only
    cases hpending : p.pending with
    | nil =>
      have hstep := hway.inStep
      rw [hpending] at hstep
      exact coherent_idle rfl hstep
    | cons c cs => exact coherent_busy rfl hentered (hway.proceed hpending)

variable [Dsp U]

theorem Coherent.deed (h : t.Coherent entered) (hentered : t.sending? = none → entered t.session)
    (deed : Deed U) : (t.act (.deed deed)).Coherent entered := by
  unfold Threads.act
  cases hsending : t.sending? with
  | none =>
    have hstep := h.idle hsending
    cases deed with
    | call call => exact coherent_enter hstep (hentered hsending) call
    | _ => exact coherent_idle hsending (hstep.act _)
  | some p =>
    obtain ⟨s₀, hentered, hway⟩ := h.busy p hsending
    cases deed with
    | render source => exact coherent_busy hsending hentered (hway.render source)
    | takeUp => exact coherent_busy hsending hentered hway.takeUp
    | _ => exact h

theorem Coherent.act (h : t.Coherent entered) (hentered : t.sending? = none → entered t.session)
    (turn : Turn U) : (t.act turn).Coherent entered := by
  cases turn with
  | deed deed => exact h.deed hentered deed
  | proceed => exact h.proceed

end Threads

def Session.CameBy [Dsp U] (s : Session U) (turns : List (Turn U)) (s₀ : Session U) : Prop :=
  ∃ past, past <:+ turns ∧ (s.interleave past).sending? = none ∧
    (s.interleave past).session = s₀

theorem Threads.coherent_after [Dsp U] {c : Config} {tones : ToneBank} {s : Session U}
    (h : Session.start c tones = .ok s) (turns : List (Turn U)) :
    (s.interleave turns).Coherent (s.CameBy turns) := by
  induction turns with
  | nil => exact coherent_idle rfl (Session.inStep_start h)
  | cons turn past ih =>
    have hlater : ∀ s₀, s.CameBy past s₀ → s.CameBy (turn :: past) s₀ := by
      rintro s₀ ⟨first, hfirst, hidle⟩
      exact ⟨first, hfirst.trans (List.suffix_cons ..), hidle⟩
    exact (ih.imp hlater).act (fun hidle => ⟨past, List.suffix_cons .., hidle, rfl⟩) turn

end Patchbay

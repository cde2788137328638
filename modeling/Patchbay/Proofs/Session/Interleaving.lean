import Patchbay.Proofs.Session.Threads

/-! A buffer that is made while a call sends its commands has the routing from before the call or
from after it, unless the call puts a unit in the place of another one, or unloads a bank that has
units on its events. -/

namespace Patchbay

open Mixer Command

variable {U : Type}

theorem AttachmentTable.attach_split {t : AttachmentTable} {u : UnitHandle} {x : Target}
    {sent pending : List Command} (h : (t.attach u x).2.map ofChange = sent ++ pending)
    (hsent : sent ≠ []) (hpending : pending ≠ []) :
    ∃ v, t.unitAt x = some v ∧ sent = [.detach v] := by
  unfold attach at h
  dsimp only at h
  split at h
  · exact absurd (List.append_eq_nil_iff.mp h.symm).1 hsent
  · obtain ⟨a, sent, rfl⟩ := List.exists_cons_of_ne_nil hsent
    obtain ⟨b, pending, rfl⟩ := List.exists_cons_of_ne_nil hpending
    cases hv : t.unitAt x with
    | none => simp [hv] at h
    | some v =>
      rw [hv] at h
      obtain ⟨rfl, hrest⟩ := List.cons.inj h
      refine ⟨v, rfl, congrArg (Command.detach v :: ·) ?_⟩
      exact (List.append_eq_singleton_iff.mp hrest.symm).elim (·.1) fun hp => by cases hp.2

theorem Operation.clear_split {t : AttachmentTable} {events : List EventHandle}
    {sent pending : List RouteChange} (h : (clear t events).2 = sent ++ pending) :
    ∃ done rest, events = done ++ rest ∧ (clear t done).2 = sent := by
  induction events generalizing t sent with
  | nil =>
    have hsent : sent = [] := (List.append_eq_nil_iff.mp h.symm).1
    exact ⟨[], [], rfl, hsent.symm⟩
  | cons event events ih =>
    cases sent with
    | nil => exact ⟨[], event :: events, rfl, rfl⟩
    | cons c sent =>
      simp only [clear] at h
      cases hchange : (t.detachEvent event).2 with
      | none =>
        rw [hchange] at h
        obtain ⟨done, rest, hevents, hdone⟩ := ih h
        refine ⟨event :: done, rest, congrArg (event :: ·) hevents, ?_⟩
        simp only [clear, hchange, hdone]
        rfl
      | some d =>
        rw [hchange] at h
        obtain ⟨rfl, hrest⟩ := List.cons.inj h
        obtain ⟨done, rest, hevents, hdone⟩ := ih hrest
        refine ⟨event :: done, rest, congrArg (event :: ·) hevents, ?_⟩
        simp only [clear, hchange, hdone]
        rfl

namespace Engine

theorem routing_of_lead {e : Engine U} {table : AttachmentTable} {changes : List RouteChange}
    (h : RouteChange.Lead e.table.attachment changes table.attachment) :
    actAll e.routing (changes.map ofChange) = { e with table }.routing :=
  actAll_of_lead h

end Engine

/-- An engine as the mixer may have it within a call. It is the one before the call or after it; or
the unit that is replaced was put out, and nothing else was done; or the units were taken off some
of the events that go with a bank. -/
inductive Sending.Between (p : Sending U) (after : Engine U) : Engine U → Prop
  | before (sent : p.sent = []) : Between p after p.before
  | after (pending : p.pending = []) : Between p after after
  | displaced {u v : UnitHandle} {x : Target} (call : p.call.attachment? = some (u, x))
      (incumbent : p.before.table.unitAt x = some v) (sent : p.sent = [.detach v]) :
      Between p after { p.before with table := (p.before.table.detachTarget x).1 }
  | unloading {bank : BankHandle} {done rest : List EventHandle} (call : p.call = .unloadBank bank)
      (gone : (p.before.withoutBank bank).gone = done ++ rest)
      (sent : p.sent = (Operation.clear p.before.table done).2.map .ofChange) :
      Between p after { p.before with table := (Operation.clear p.before.table done).1 }

namespace Sending

open Session

variable {p : Sending U} {s₀ s : Session U}

/-- Where some commands were sent and some were not, the sent ones come to a table that is neither
the one before the call nor the one after it. -/
theorem Entered.between {after : Engine U} (h : p.Entered s₀ after) (hsent : p.sent ≠ [])
    (hpending : p.pending ≠ []) :
    ∃ e : Engine U, p.Between after e ∧ actAll p.before.routing p.sent = e.routing := by
  have hsends := h.sends
  generalize hall : p.sent ++ p.pending = all at hsends
  generalize hcall : p.call = call at hsends
  cases hsends with
  | single hlength =>
    have hone := List.length_pos_iff.mpr hsent
    have hother := List.length_pos_iff.mpr hpending
    rw [← hall, List.length_append] at hlength
    omega
  | @attaching _ u x hattachment =>
    obtain ⟨v, hv, hdetach⟩ := AttachmentTable.attach_split hall.symm hsent hpending
    have hchange : (p.before.table.detachTarget x).2.toList = [.detach v x] := by
      simp [AttachmentTable.detachTarget, hv]
    have hlead := p.before.table.lead_detachTarget x
    rw [hchange] at hlead
    refine ⟨_, .displaced (hcall ▸ hattachment) hv hdetach, ?_⟩
    rw [hdetach]
    exact Engine.routing_of_lead hlead
  | unloading =>
    obtain ⟨changes, rest, hchanges, hmap, -⟩ := List.map_eq_append_iff.mp hall.symm
    obtain ⟨done, rest, hgone, rfl⟩ := Operation.clear_split hchanges
    refine ⟨_, .unloading hcall hgone hmap.symm, ?_⟩
    rw [← hmap]
    exact Engine.routing_of_lead (Operation.lead_clear ..)

theorem OnTheWay.between (h : p.OnTheWay s₀ s) : ∃ e : Engine U, p.Between s.engine e ∧
    actAll s.mixer.routing s.link.commands.items = e.routing := by
  rw [h.routing]
  by_cases hsent : p.sent = []
  · rw [hsent]
    exact ⟨p.before, .before hsent, rfl⟩
  by_cases hpending : p.pending = []
  · have hrouting := h.inStep.routing
    rw [hpending] at hrouting
    exact ⟨s.engine, .after hpending, h.routing.symm.trans hrouting⟩
  exact h.toEntered.between hsent hpending

end Sending

namespace Session

variable [Dsp U]

/-- Whatever turns the two threads take, no command is lost, and the next buffer is made as the
engine says: as it stands between calls, and within a call as it stood before, or stands after, the
call. Only where the call puts a unit in the place of another one may that one be out already and
the place free, and only where it unloads a bank may some of the units on its events be off already
and the others not. -/
theorem buffers_between_calls {c : Config} {tones : ToneBank} {s : Session U}
    (h : Session.start c tones = .ok s) (turns : List (Turn U)) :
    (s.interleave turns).session.link.commands.lost = [] ∧
    ((s.interleave turns).sending? = none →
      ((s.interleave turns).session.mixer.drain (s.interleave turns).session.link).1.Follows
        (s.interleave turns).session.engine) ∧
    ∀ p, (s.interleave turns).sending? = some p → ∃ (s₀ : Session U) (e : Engine U),
      s.CameBy turns s₀ ∧ p.Entered s₀ (s.interleave turns).session.engine ∧
      p.Between (s.interleave turns).session.engine e ∧
      ((s.interleave turns).session.mixer.drain (s.interleave turns).session.link).1.Follows e := by
  have hcoherent := Threads.coherent_after h turns
  generalize s.interleave turns = t at hcoherent
  cases hsending : t.sending? with
  | none =>
    have hstep := hcoherent.idle hsending
    exact ⟨hstep.lost, fun _ => hstep.follows_drain, fun p hp => by cases hp⟩
  | some p =>
    obtain ⟨s₀, hcame, hway⟩ := hcoherent.busy p hsending
    have hready := hway.ready
    have hlost := (Queue.takes_foldl_push hway.room).lost.symm.trans hway.inStep.lost
    refine ⟨hlost, nofun, fun q hq => ?_⟩
    cases hq
    obtain ⟨e, hbetween, he⟩ := hway.between
    refine ⟨s₀, e, hcame, hway.toEntered, hbetween, ?_⟩
    rw [drain_eq _ hready.overflow]
    exact follows_of_routing hready.applyAll.owned_nodup (hready.routing_applyAll.trans he)

def duplexConfig : Config := { tinyConfig with inputChannels := 1, queueCapacity := 8 }

def duplex : Session StockUnit where
  engine := .ofConfig duplexConfig (.new 44100)
  link :=
    { commands := { capacity := duplexConfig.queueCapacity.toNat }
      retired := { capacity := duplexConfig.maxUnits.toNat } }
  mixer := .ofConfig duplexConfig

def atOnce (call : Call StockUnit) : List (Turn StockUnit) :=
  [.proceed, .proceed, .deed (.call call)]

def seated : List (Turn StockUnit) :=
  atOnce (.attachToInput (some ⟨1, 0⟩)) ++ atOnce (.attachToOutput (some ⟨0, 0⟩)) ++
    atOnce (.create (.gainMeter 1)) ++ atOnce (.create (.gainMeter 1))

def replacing : List (Turn StockUnit) :=
  .proceed :: .deed (.call (.attachToOutput (some ⟨1, 0⟩))) :: seated

theorem start_duplex : Session.start duplexConfig (.new 44100) = .ok duplex := rfl

theorem buffers_between_calls_tiny : Session.start duplexConfig (.new 44100) = .ok duplex ∧
    ∃ p s₀ e, (duplex.interleave replacing).sending? = some p ∧ p.sent = [.detach ⟨0, 0⟩] ∧
      duplex.CameBy replacing s₀ ∧
      p.Entered s₀ (duplex.interleave replacing).session.engine ∧
      p.Between (duplex.interleave replacing).session.engine e ∧
      ((duplex.interleave replacing).session.mixer.drain
        (duplex.interleave replacing).session.link).1.Follows e := by
  obtain ⟨p, hp, hsent⟩ : ∃ p, (duplex.interleave replacing).sending? = some p ∧
      p.sent = [.detach ⟨0, 0⟩] := Option.map_eq_some_iff.mp (by decide +kernel)
  obtain ⟨-, -, hbusy⟩ := buffers_between_calls start_duplex replacing
  obtain ⟨s₀, e, hbusy⟩ := hbusy p hp
  exact ⟨start_duplex, p, s₀, e, hp, hsent, hbusy⟩

/-- A buffer that is made here has no unit on the output, though there is one before the call and
after it. And at no time between calls does the engine have the units where the buffer has them. -/
theorem replacement_leaves_gap : Session.start duplexConfig (.new 44100) = .ok duplex ∧
    (duplex.interleave seated).session.engine.table.unitAt .output = some ⟨0, 0⟩ ∧
    (duplex.interleave (.proceed :: .proceed :: replacing)).session.engine.table.unitAt .output =
      some ⟨1, 0⟩ ∧
    ((duplex.interleave replacing).session.mixer.drain
      (duplex.interleave replacing).session.link).1.units =
        [⟨⟨0, 0⟩, none⟩, ⟨⟨1, 0⟩, some .input⟩] ∧
    ∀ past ∈ (.proceed :: .proceed :: replacing).tails,
      (duplex.interleave past).sending?.isNone →
        ((duplex.interleave past).session.engine.table.attachment ⟨0, 0⟩,
          (duplex.interleave past).session.engine.table.attachment ⟨1, 0⟩) ≠
            (none, some .input) := by
  exact ⟨start_duplex, by decide +kernel⟩

end Session

end Patchbay

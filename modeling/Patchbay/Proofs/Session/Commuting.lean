import Patchbay.Proofs.Session.Eviction
import Patchbay.Proofs.Session.Handles
import Patchbay.Proofs.Session.Interleaving

/-! Attaching in either order. Two units that are put on two targets take the same places whichever
goes first, although what is sent to the mixer on the way is not the same: who is put out by the one
and who moves by itself depends on the order. -/

namespace Patchbay

variable {U : Type} {u₁ u₂ : UnitHandle} {x₁ x₂ : Target}

namespace AttachmentTable

theorem attachment_attach_attach (t : AttachmentTable) (hu : u₁ ≠ u₂) (hx : x₁ ≠ x₂)
    (v : UnitHandle) : ((t.attach u₁ x₁).1.attach u₂ x₂).1.attachment v =
      if v = u₁ then some x₁ else if v = u₂ then some x₂
      else (t.attachment v).filter fun y => y ≠ x₁ ∧ y ≠ x₂ := by
  rw [attachment_attach, attachment_attach]
  by_cases h₁ : v = u₁
  · have h₂ : v ≠ u₂ := h₁ ▸ hu
    rw [if_neg h₂, if_pos h₁, if_pos h₁]
    exact filter_ne_eq_self fun h => hx (Option.some.inj h)
  · rw [if_neg h₁, if_neg h₁]
    by_cases h₂ : v = u₂
    · rw [if_pos h₂, if_pos h₂]
    · rw [if_neg h₂, if_neg h₂, Option.filter_filter]
      congr 1
      funext y
      simp

theorem attach_comm (t : AttachmentTable) (hu : u₁ ≠ u₂) (hx : x₁ ≠ x₂) :
    ((t.attach u₁ x₁).1.attach u₂ x₂).1.attachment =
      ((t.attach u₂ x₂).1.attach u₁ x₁).1.attachment := by
  funext v
  rw [t.attachment_attach_attach hu hx, t.attachment_attach_attach hu.symm hx.symm]
  by_cases h₁ : v = u₁
  · have h₂ : v ≠ u₂ := h₁ ▸ hu
    rw [if_pos h₁, if_neg h₂, if_pos h₁]
  · simp only [if_neg h₁, and_comm]

end AttachmentTable

def Call.attach (u : UnitHandle) : Target → Call U
  | .event event => attachToEvent (some u) event
  | .input => attachToInput (some u)
  | .output => attachToOutput (some u)

def Console.attached (c : Console U) (u : UnitHandle) (x : Target) : Console U where
  engine := { c.engine with table := (c.engine.table.attach u x).1 }
  commands := ((c.engine.table.attach u x).2.map .ofChange).foldl Queue.push c.commands

section Console

variable {c : Console U} {u : UnitHandle} {x : Target}

theorem Console.free_attached (hroom : 2 ≤ c.commands.free) :
    c.commands.free ≤ (c.attached u x).commands.free + 2 := by
  have hlength : ((c.engine.table.attach u x).2.map Command.ofChange).length ≤ 2 := by
    rw [List.length_map]
    exact c.engine.table.length_attach_le u x
  have htakes := Queue.takes_foldl_push (hlength.trans hroom)
  unfold Queue.free attached
  rw [htakes.items, htakes.capacity, List.length_append]
  omega

theorem Operation.route_of_room (hu : (c.engine.units.live? u).isSome)
    (hroom : 2 ≤ c.commands.free) : route (some u) x c = .ok () (c.attached u x) := by
  obtain ⟨entry, hentry⟩ := Option.isSome_iff_exists.mp hu
  unfold route
  apply (bind_of_ok (read_entry_of_live hentry)).trans
  apply (bind_of_ok (reserve_of_room hroom)).trans
  exact (bind_of_ok (onTable_eq _)).trans (follow_eq _)

theorem Call.attach_of_room (hu : (c.engine.units.live? u).isSome)
    (hx : x.Usable c.engine.config c.engine.tones) (hroom : 2 ≤ c.commands.free) :
    (attach u x).operation c = .ok .done (c.attached u x) := by
  have hroute := Operation.route_of_room (x := x) hu hroom
  cases x with
  | event event =>
    have hvalid : c.engine.tones.isValid event := hx
    refine map_of_ok (a := ()) ?_
    apply (bind_of_ok (a := c) (t := c) rfl).trans
    simp only [hvalid, if_true, hroute]
  | input =>
    have hinput : c.engine.config.inputFormat?.isSome := by
      have hchannels : 0 < c.engine.config.inputChannels := hx
      simpa [Config.inputFormat?] using hchannels
    refine map_of_ok (a := ()) ?_
    apply (bind_of_ok (a := c) (t := c) rfl).trans
    simp only [hinput, if_true, hroute]
  | output => exact map_of_ok hroute

end Console

namespace Session

def Does (s : Session U) (a b : Call U) (t : Session U) : Prop :=
  ∃ r, s.attempt a.operation = (.ok .done, r) ∧ r.attempt b.operation = (.ok .done, t)

def attached (s : Session U) (u : UnitHandle) (x : Target) : Session U :=
  s.withConsole (.attached ⟨s.engine, s.link.commands⟩ u x)

variable {s : Session U}

theorem attempt_attach {u : UnitHandle} {x : Target} (hu : (s.engine.units.live? u).isSome)
    (hx : x.Usable s.engine.config s.engine.tones) (hroom : 2 ≤ s.link.commands.free) :
    s.attempt (Call.attach u x).operation = (.ok .done, s.attached u x) := by
  unfold attempt
  rw [Call.attach_of_room (c := ⟨s.engine, s.link.commands⟩) hu hx hroom]
  rfl

theorem does_attach (hu₁ : (s.engine.units.live? u₁).isSome)
    (hu₂ : (s.engine.units.live? u₂).isSome) (hx₁ : x₁.Usable s.engine.config s.engine.tones)
    (hx₂ : x₂.Usable s.engine.config s.engine.tones) (hroom : 4 ≤ s.link.commands.free) :
    s.Does (.attach u₁ x₁) (.attach u₂ x₂) ((s.attached u₁ x₁).attached u₂ x₂) := by
  have hfirst : 2 ≤ s.link.commands.free := Nat.le_trans (by decide) hroom
  have hfree : s.link.commands.free ≤ (s.attached u₁ x₁).link.commands.free + 2 :=
    Console.free_attached (c := ⟨s.engine, s.link.commands⟩) hfirst
  have hsecond : 2 ≤ (s.attached u₁ x₁).link.commands.free := by omega
  exact ⟨_, attempt_attach hu₁ hx₁ hfirst, attempt_attach (s := s.attached u₁ x₁) hu₂ hx₂ hsecond⟩

theorem InStep.does (h : InStep s) {a b : Call U} {t : Session U} (ht : s.Does a b t) :
    InStep t := by
  obtain ⟨r, hr, ht⟩ := ht
  have hfirst := h.called a
  rw [hr] at hfirst
  have hsecond := hfirst.called b
  rwa [ht] at hsecond

variable [Dsp U]

/-- Attachments that cannot see each other's order: two units in use are put on two targets that can
be used. Whoever sat where before, either order is done, and leaves every unit in the same place,
for the engine at once and for the mixer after its next buffer. -/
theorem attachments_commute {c : Config} {tones : ToneBank} (h : Session.start c tones = .ok s)
    (deeds : List (Deed U)) (hu : u₁ ≠ u₂) (hx : x₁ ≠ x₂)
    (hu₁ : ((s.after deeds).engine.units.live? u₁).isSome)
    (hu₂ : ((s.after deeds).engine.units.live? u₂).isSome)
    (hx₁ : x₁.Usable c (s.after deeds).engine.tones)
    (hx₂ : x₂.Usable c (s.after deeds).engine.tones)
    (hroom : 4 ≤ (s.after deeds).link.commands.free) :
    ∃ r t, (s.after deeds).Does (.attach u₁ x₁) (.attach u₂ x₂) r ∧
      (s.after deeds).Does (.attach u₂ x₂) (.attach u₁ x₁) t ∧
      (∀ u, r.engine.attachment u = t.engine.attachment u) ∧
      ∀ {σ : Type} [SignalSource σ] (source : σ) (u : UnitHandle),
        (r.render source).session.mixer.targetOf u =
          (t.render source).session.mixer.targetOf u := by
  have hin := inStep_after h deeds
  have hconfig := (admits_after h deeds).1
  generalize s.after deeds = s at *
  rw [← hconfig] at hx₁ hx₂
  have hr := does_attach hu₁ hu₂ hx₁ hx₂ hroom
  have ht := does_attach hu₂ hu₁ hx₂ hx₁ hroom
  have hseat := s.engine.table.attach_comm hu hx
  refine ⟨_, _, hr, ht, fun u => ?_, fun source u => ?_⟩
  · exact congrArg (fun seat => (fun _ => seat u) <$> s.engine.entry u) hseat
  · rw [Mixer.targetOf_eq, Mixer.targetOf_eq, (hin.does hr).routing_render,
      (hin.does ht).routing_render]
    have hrouting : ((s.attached u₁ x₁).attached u₂ x₂).engine.routing =
        ((s.attached u₂ x₂).attached u₁ x₁).engine.routing :=
      congrArg (Seating.among · fun v => (s.engine.units.live? v).isSome) hseat
    rw [hrouting]

def facing : List (Deed StockUnit) :=
  [.render Silence.mk, .call (.attachToInput (some ⟨1, 0⟩)),
    .call (.attachToOutput (some ⟨0, 0⟩)), .call (.create (.gainMeter 1)),
    .call (.create (.gainMeter 1))]

theorem attachments_commute_swap : Session.start duplexConfig (.new 44100) = .ok duplex ∧
    (duplex.after facing).engine.table.pairs = [(⟨0, 0⟩, .output), (⟨1, 0⟩, .input)] ∧
    ∃ r t, (duplex.after facing).Does (.attach ⟨0, 0⟩ .input) (.attach ⟨1, 0⟩ .output) r ∧
      (duplex.after facing).Does (.attach ⟨1, 0⟩ .output) (.attach ⟨0, 0⟩ .input) t ∧
      (∀ u, r.engine.attachment u = t.engine.attachment u) ∧
      ∀ u, (r.render Silence.mk).session.mixer.targetOf u =
        (t.render Silence.mk).session.mixer.targetOf u := by
  have hunits : (⟨0, 0⟩ : UnitHandle) ≠ ⟨1, 0⟩ := by decide
  have htargets : Target.input ≠ .output := by decide
  have hinput : Target.input.Usable duplexConfig (duplex.after facing).engine.tones := by
    show 0 < duplexConfig.inputChannels
    decide
  obtain ⟨r, t, hr, ht, hengine, hmixer⟩ := attachments_commute start_duplex facing hunits htargets
    (by decide +kernel) (by decide +kernel) hinput trivial (by decide +kernel)
  exact ⟨start_duplex, by decide +kernel, r, t, hr, ht, hengine, hmixer Silence.mk⟩

end Session

end Patchbay

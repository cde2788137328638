import Patchbay.Proofs.Engine.Mix
import Patchbay.Proofs.Engine.Round

/-! Who hears what. In a buffer the mixer sends captured input, the sound of each event and the mix
of them to their targets, in this order. Whoever sits on a target processes what is sent there, as
long as there is something in it, and nothing else, whatever sources and units do to the buffers. -/

namespace Patchbay

open Activity Patchbay.Rack

structure Dispatch (sounds : List Sounding) where
  input? : Option AudioBuffer := none
  scratches : List AudioBuffer
  mix? : Option AudioBuffer := none
  complete : scratches.length = sounds.length

namespace Dispatch

variable {sounds : List Sounding}

def events (d : Dispatch sounds) : List (Target × AudioBuffer) :=
  List.zipWith (fun s scratch => (.event s.event, s.write scratch)) sounds d.scratches

def sent (d : Dispatch sounds) : List (Target × AudioBuffer) :=
  d.input?.toList.map (.input, ·) ++ (d.events ++ d.mix?.toList.map (.output, ·))

theorem exists_sounding {d : Dispatch sounds} {event : EventHandle} {b : AudioBuffer}
    (h : (.event event, b) ∈ d.sent) :
    ∃ s ∈ sounds, s.event = event ∧ ∃ scratch, s.write scratch = b := by
  have hmem : (.event event, b) ∈ d.events := by simpa [sent] using h
  obtain ⟨i, hi, heq⟩ := List.mem_iff_getElem.mp hmem
  simp only [events, List.getElem_zipWith, Prod.mk.injEq, Target.event.injEq] at heq
  exact ⟨_, List.getElem_mem _, heq.1, _, heq.2⟩

end Dispatch

def hears (unitOn : Target → Option UnitHandle) (p : Target × AudioBuffer) :
    Option (UnitHandle × Occurrence) :=
  if p.2.isEmpty then none else (unitOn p.1).map (·, .processed p.2)

theorem hears_eq_some {unitOn : Target → Option UnitHandle} {p : Target × AudioBuffer}
    {u : UnitHandle} {kind : Occurrence} : hears unitOn p = some (u, kind) ↔
      p.2.isEmpty = false ∧ unitOn p.1 = some u ∧ kind = .processed p.2 := by
  unfold hears
  cases p.2.isEmpty <;> simp [eq_comm]

namespace Mixer

variable {U : Type} [Dsp U] {m : Mixer} {rack : Rack U}

def Seats (m : Mixer) (rack : Rack U) : Prop :=
  ∀ x, ∀ u ∈ m.unitOn x, (rack.units.get? u).isSome

theorem Seats.ran {r : Rack U} {es : List (Activity U)} (h : m.Seats rack)
    (hran : Ran rack es r) : m.Seats r := by
  intro x u hu
  rw [hran.isSome_get?]
  exact h x u hu

theorem keys_processAt (h : m.Seats rack) (x : Target) (b : AudioBuffer) :
    (rack.processAt (m.unitOn x) b).2.journal.map key =
      rack.journal.map key ++ [(x, b)].filterMap (hears m.unitOn) := by
  unfold hears
  cases hx : m.unitOn x with
  | none => simp [Rack.processAt, hx]
  | some u =>
    obtain ⟨entry, hentry⟩ := Option.isSome_iff_exists.mp (h x u hx)
    cases hb : b.isEmpty <;> simp [Rack.processAt, Rack.process, Rack.note, hentry, hb, hx, key]

theorem keys_mixEvents (h : m.Seats rack) (sounds : List Sounding) (scratch out : AudioBuffer) :
    ∃ d : Dispatch sounds, (m.mixEvents sounds scratch out rack).2.2.journal.map key =
      rack.journal.map key ++ d.events.filterMap (hears m.unitOn) := by
  induction sounds generalizing scratch out rack with
  | nil => exact ⟨⟨none, [], none, rfl⟩, by simp [mixEvents, Dispatch.events]⟩
  | cons s sounds ih =>
    obtain ⟨es, hran, -⟩ := m.ran_processOn (.event s.event) rack (s.write scratch)
    obtain ⟨d, hkeys⟩ := ih (h.ran hran)
      (rack.processAt (m.unitOn (.event s.event)) (s.write scratch)).1
      (out.accumulate (rack.processAt (m.unitOn (.event s.event)) (s.write scratch)).1)
    refine ⟨⟨none, scratch :: d.scratches, none, congrArg Nat.succ d.complete⟩, ?_⟩
    rw [mixEvents, hkeys, keys_processAt h, List.append_assoc, ← List.filterMap_append]
    rfl

variable {σ : Type} [SignalSource σ]

theorem keys_processInput (h : m.Seats rack) (source : σ) :
    (m.processInput source rack).2.2.journal.map key = rack.journal.map key ++
      ((m.captured source).toList.map (.input, ·)).filterMap (hears m.unitOn) := by
  unfold processInput captured
  split
  · simp
  · cases SignalSource.captureInput source m.input with
    | mk input? source' =>
      cases input? with
      | none => simp
      | some input => exact keys_processAt h .input input

def sounds (m : Mixer) (source : σ) : List Sounding :=
  if m.meters.paused then [] else (SignalSource.renderEvents source m.scratch).1

theorem keys_mix (h : m.Seats rack) (source : σ) : ∃ d : Dispatch (m.sounds source),
    (m.mix source rack).2.2.1.journal.map key = rack.journal.map key ++
      (d.events ++ d.mix?.toList.map (Target.output, ·)).filterMap (hears m.unitOn) := by
  cases hpaused : m.meters.paused with
  | true =>
    have hsounds : m.sounds source = [] := if_pos hpaused
    rw [hsounds]
    exact ⟨⟨none, [], none, rfl⟩, by simp [mix, hpaused, Dispatch.events]⟩
  | false =>
    have hsounds : m.sounds source = (SignalSource.renderEvents source m.scratch).1 :=
      if_neg (Bool.eq_false_iff.mp hpaused)
    rw [hsounds]
    obtain ⟨d, hkeys⟩ := keys_mixEvents h (SignalSource.renderEvents source m.scratch).1
      m.scratch m.blank
    obtain ⟨es, hran, -⟩ := m.ran_mixEvents (SignalSource.renderEvents source m.scratch).1
      m.scratch m.blank rack
    have hmix := keys_processAt (h.ran hran) .output
      (m.mixEvents (SignalSource.renderEvents source m.scratch).1 m.scratch m.blank rack).2.1
    rw [hkeys, List.append_assoc, ← List.filterMap_append] at hmix
    refine ⟨{ d with mix? := (m.mixEvents (SignalSource.renderEvents source m.scratch).1 m.scratch
      m.blank rack).2.1 }, ?_⟩
    unfold mix
    rw [if_neg (Bool.eq_false_iff.mp hpaused)]
    exact hmix

theorem keys_sent (h : m.Seats rack) (source : σ) :
    ∃ d : Dispatch ((m.processInput source rack).1.sounds (m.processInput source rack).2.1),
      ((m.processInput source rack).1.mix (m.processInput source rack).2.1
        (m.processInput source rack).2.2).2.2.1.journal.map key =
          rack.journal.map key ++ d.sent.filterMap (hears m.unitOn) := by
  obtain ⟨hsame, es, hran, -⟩ := ran_processInput m source rack
  have hon : (m.processInput source rack).1.unitOn = m.unitOn :=
    funext fun x => unitOn_congr hsame.units x
  have hseats : (m.processInput source rack).1.Seats (m.processInput source rack).2.2 := by
    unfold Seats
    rw [hon]
    exact h.ran hran
  obtain ⟨d, hmix⟩ := keys_mix hseats (m.processInput source rack).2.1
  rw [hon, keys_processInput h, List.append_assoc, ← List.filterMap_append] at hmix
  exact ⟨{ d with input? := m.captured source }, hmix⟩

/-! Buffers of tones. -/

theorem sounds_processInput (m : Mixer) (t : ToneStream) (rack : Rack U) :
    (m.processInput t rack).1.sounds (m.processInput t rack).2.1 = m.sounds t := by
  unfold processInput
  split
  · rfl
  · have hcapture (b : AudioBuffer) :
        ((t.captureInput m.input).2.renderEvents b).1 = (t.renderEvents b).1 := by
      unfold ToneStream.captureInput
      split <;> rfl
    cases hinput : SignalSource.captureInput t m.input with
    | mk input? t' =>
      rw [show t.captureInput m.input = (input?, t') from hinput] at hcapture
      cases input? <;> simp [sounds, SignalSource.renderEvents, hcapture]

theorem keys_render_tones {link : Link} (h : (m.drain link).1.Seats (m.prepare link rack).2.2)
    (t : ToneStream) :
    ∃ d : Dispatch (if link.meters.paused.load then [] else (t.renderEvents m.scratch).1),
      (m.render link rack t).rack.journal.map key = (m.prepare link rack).2.2.journal.map key ++
        d.sent.filterMap (hears (m.drain link).1.unitOn) := by
  have hsent := keys_sent (m := (m.prepare link rack).1) h t
  have hsounds : (m.prepare link rack).1.sounds t =
      if link.meters.paused.load then [] else (t.renderEvents m.scratch).1 := by
    obtain ⟨units, overflow, heq⟩ := m.exists_drain link
    have hscratch : m.scratch = (m.drain link).1.scratch := (congrArg scratch heq).symm
    rw [hscratch]
    rfl
  rw [sounds_processInput, hsounds] at hsent
  exact hsent

end Mixer

end Patchbay

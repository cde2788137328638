import Patchbay.Proofs.Engine.Mix
import Patchbay.Proofs.Engine.Registry
import Patchbay.Proofs.Session.Agreement
import Patchbay.Proofs.Session.Journal
import Patchbay.Proofs.Tone.Sine

/-! What a buffer of tones sounds like, in every state of a run: silence with each voice that plays
added to it after the unit on its event, and the sum after the unit on the output. Nothing else has
a part in it, neither what the mixer's own buffers hold nor the unit on the input. -/

namespace Patchbay

open Mixer Activity

variable {U : Type}

def Activity.sounded (es : List (Activity U)) : List (Activity U) :=
  es.filter (·.kind.buffer?.isSome)

theorem Activity.sounded_append (es fs : List (Activity U)) :
    sounded (es ++ fs) = sounded es ++ sounded fs :=
  List.filter_append ..

theorem Activity.sounded_eq_nil {es : List (Activity U)} (h : ∀ e ∈ es, e.kind = .exchangedAudio) :
    sounded es = [] := by
  apply List.filter_eq_nil_iff.mpr
  intro e he
  simp [h e he, Occurrence.buffer?]

theorem Stage.sounded_entriesAll (f : Stage U) (sent : List (Target × AudioBuffer)) :
    sounded (f.entriesAll sent) = f.entriesAll sent := by
  apply List.filter_eq_self.mpr
  intro e he
  obtain ⟨p, -, hp⟩ := List.mem_flatMap.mp he
  obtain ⟨q, -, rfl⟩ := List.mem_map.mp hp
  rfl

def Deed.InPlace : Deed U → Prop
  | @Deed.render _ σ _ _ => SignalSource.InPlace σ
  | _ => True

theorem Mixer.Follows.unitOn {m : Mixer} {e : Engine U} (h : m.Follows e)
    (hseated : ∀ u, (e.table.attachment u).isSome → (e.units.live? u).isSome) (x : Target) :
    m.unitOn x = e.table.unitAt x := by
  have hon {u : UnitHandle} (hu : m.unitOn x = some u) : e.table.unitAt x = some u := by
    have hmem := mem_units_of_unitOn hu
    have hlive := (h.mem_owned u).mp (List.mem_map_of_mem hmem)
    have hattached := h.attachment _ hmem
    rw [Engine.attachment_eq hlive] at hattached
    exact AttachmentTable.unitAt_eq_some.mpr (Except.ok.inj hattached)
  cases hat : e.table.unitAt x with
  | none =>
    rw [← Option.not_isSome_iff_eq_none] at hat ⊢
    intro hsome
    obtain ⟨u, hu⟩ := Option.isSome_iff_exists.mp hsome
    exact hat (Option.isSome_of_mem (hon hu))
  | some u =>
    have hattached := AttachmentTable.unitAt_eq_some.mp hat
    have hlive := hseated u (Option.isSome_of_mem hattached)
    obtain ⟨y, hy, rfl⟩ := List.mem_map.mp ((h.mem_owned u).mpr hlive)
    have htarget := h.attachment y hy
    rw [Engine.attachment_eq hlive, hattached] at htarget
    have hsome : (m.unitOn x).isSome := by
      rw [Mixer.unitOn, Option.isSome_map, List.find?_isSome]
      exact ⟨y, hy, decide_eq_true (Except.ok.inj htarget).symm⟩
    obtain ⟨v, hv⟩ := Option.isSome_iff_exists.mp hsome
    rw [hv, ← hon hv, hat]

theorem Config.pos_of_fault? {c : Config} (h : c.fault? = none) :
    0 < c.framesPerBuffer.toNat ∧ 0 < c.channels.toNat := by
  unfold fault? at h
  split at h
  · cases h
  split at h
  · cases h
  rename_i hchannels
  split at h
  · cases h
  split at h
  · cases h
  rename_i hframes
  simp only [Bool.or_eq_true, decide_eq_true_eq, not_or] at hchannels hframes
  exact ⟨Nat.pos_of_ne_zero fun hzero => hframes.1 (UInt32.toNat.inj hzero),
    Nat.pos_of_ne_zero fun hzero => hchannels.1 (UInt16.toNat.inj hzero)⟩

namespace Session

theorem fault?_of_start {c : Config} {tones : ToneBank} {s : Session U}
    (h : Session.start c tones = .ok s) : c.fault? = none := by
  cases hfault : c.fault? with
  | none => rfl
  | some fault =>
    unfold Session.start Config.validate at h
    rw [hfault] at h
    cases h

variable [Dsp U] {c : Config} {tones : ToneBank} {s : Session U}

/-- Who sits where, as the engine has it, with audio fields as a buffer finds them. -/
def stage (s : Session U) : Stage U := fun x =>
  s.engine.table.unitAt x >>= fun u =>
    (s.engine.units.get? u).map fun entry => (u, Dsp.exchangeAudio entry.unit)

theorem attachment_of_mem_stage {u : UnitHandle} {x : Target}
    (h : u ∈ (s.stage x).map Prod.fst) : s.engine.table.attachment u = some x := by
  obtain ⟨p, hp, rfl⟩ := Option.map_eq_some_iff.mp h
  obtain ⟨v, hv, hentry⟩ := Option.bind_eq_some_iff.mp hp
  obtain ⟨entry, -, rfl⟩ := Option.map_eq_some_iff.mp hentry
  exact AttachmentTable.unitAt_eq_some.mp hv

theorem InStep.exchanged (h : InStep s) :
    ∃ es, Rack.Ran ⟨s.engine.units, []⟩ es
        (s.mixer.prepare s.link ⟨s.engine.units, []⟩).2.2 ∧
      Once .exchangedAudio (fun u => ((s.mixer.drain s.link).1.targetOf u).isSome) es := by
  obtain ⟨es, hran, hkeys⟩ := @ran_exchangeUnits _ _ (s.mixer.drain s.link).1
    ⟨s.engine.units, []⟩ h.isSome_get?_of_drain
  exact ⟨es, hran, once_exchanged h.nodup_drain hkeys⟩

/-- Once commands are carried out and audio fields exchanged, everyone is where the engine has
them. -/
theorem InStep.stage_prepare (h : InStep s) :
    (s.mixer.prepare s.link ⟨s.engine.units, []⟩).1.stage
      (s.mixer.prepare s.link ⟨s.engine.units, []⟩).2.2 = s.stage := by
  obtain ⟨es, hran, honce⟩ := h.exchanged
  funext x
  have hon : (s.mixer.drain s.link).1.unitOn x = s.engine.table.unitAt x :=
    h.follows_drain.unitOn h.seated x
  have hon' : (s.mixer.prepare s.link ⟨s.engine.units, []⟩).1.unitOn x =
      s.engine.table.unitAt x := hon
  unfold Mixer.stage Session.stage
  rw [hon']
  cases hu : s.engine.table.unitAt x with
  | none => rfl
  | some u =>
    have hmem := mem_units_of_unitOn (hon.trans hu)
    obtain ⟨entry, hentry⟩ := Option.isSome_iff_exists.mp
      (h.isSome_get?_of_drain u (List.mem_map_of_mem hmem))
    obtain ⟨unit, hunit, hchain⟩ := hran.chain u entry hentry
    have htarget := (targetOf_eq_some h.nodup_drain).mpr hmem
    obtain ⟨-, state, hstate⟩ :=
      (honce u).resolve_right fun hnot => hnot.1 (Option.isSome_of_mem htarget)
    rw [hstate] at hchain
    obtain ⟨rfl, rfl⟩ := hchain
    simp only [Option.bind_eq_bind, Option.bind_some, hunit, hentry, Option.map_some]
    rfl

theorem reachable_tones_act {s : Session U} (h : s.engine.tones.Reachable) (deed : Deed U) :
    (s.act deed).1.engine.tones.Reachable := by
  cases deed with
  | call call =>
    have hkept := call.keeps_operation ⟨s.engine, s.link.commands⟩ h
    show (s.attempt call.operation).2.engine.tones.Reachable
    unfold attempt
    cases hop : call.operation ⟨s.engine, s.link.commands⟩ with
    | ok answer t | error e t =>
      rw [hop] at hkept
      exact hkept
  | edit u write =>
    obtain ⟨-, heq | ⟨before, unit, -, -, heq⟩⟩ := s.act_edit u write
    · rwa [heq]
    · rw [heq]
      exact h
  | feed change => exact h.act (.feed change)
  | takeUp =>
    exact (congrArg (fun e : Engine U => e.tones.Reachable) s.engine_takeUp).mpr h
  | pause paused | meter metering => exact h
  | tick => exact h
  | render source => exact h

theorem reachable_tones {s : Session U} (h : s.engine.tones.Reachable) (deeds : List (Deed U)) :
    (s.after deeds).engine.tones.Reachable := by
  induction deeds with
  | nil => exact h
  | cons deed past ih => exact reachable_tones_act ih deed

section Geometry

variable [Dsp.InPlace U] {frames outputs inputs : Nat}

theorem shaped_act (h : s.mixer.Shaped frames outputs inputs) {deed : Deed U}
    (hdeed : deed.InPlace) : (s.act deed).1.mixer.Shaped frames outputs inputs := by
  cases deed with
  | call call =>
    have hmixer : (s.attempt call.operation).2.mixer = s.mixer := by
      rcases s.attempt_call call with ⟨e, heq⟩ | ⟨answer, t, heq, -, hmixer, -⟩
      · rw [heq]
      · rw [heq, hmixer]
    exact (congrArg (Mixer.Shaped frames outputs inputs) hmixer).mpr h
  | edit u write =>
    obtain ⟨-, heq | ⟨before, unit, -, -, heq⟩⟩ := s.act_edit u write
    · rwa [heq]
    · rw [heq]
      exact h
  | takeUp =>
    show s.takeUp.mixer.Shaped frames outputs inputs
    unfold Session.takeUp
    split
    · exact h
    · exact h.apply ..
  | render source =>
    have hsource : SignalSource.InPlace _ := hdeed
    exact h.render ..
  | pause paused | meter metering => exact h
  | feed change => exact h
  | tick => exact h

theorem shaped_after (h : Session.start c tones = .ok s) {deeds : List (Deed U)}
    (hdeeds : ∀ deed ∈ deeds, deed.InPlace) :
    (s.after deeds).mixer.Shaped c.framesPerBuffer.toNat c.channels.toNat
      c.inputChannels.toNat := by
  induction deeds with
  | nil =>
    obtain ⟨link, -, rfl⟩ := start_eq_ok h
    exact shaped_ofConfig c
  | cons deed past ih =>
    rw [List.forall_mem_cons] at hdeeds
    exact shaped_act (ih hdeeds.2) hdeeds.1

end Geometry

/-- What a buffer from tones sends to targets, in order: captured input, and unless the mixer is
paused the sine of each voice that plays and then what these come to. -/
def schedule (s : Session U) (frames outputs inputs : Nat) (t : ToneStream) :
    List (Target × AudioBuffer) :=
  (t.captured frames inputs).toList.map (fun b => (.input, b)) ++
    if s.link.meters.paused.load then []
    else t.sent frames outputs ++
      [(.output, s.stage.sum (t.sent frames outputs) (.silent (frames * outputs) outputs))]

theorem nodup_schedule (s : Session U) {frames outputs : Nat} (inputs : Nat) {t : ToneStream}
    (h : ((t.sent frames outputs).map Prod.fst).Nodup) :
    ((s.schedule frames outputs inputs t).map Prod.fst).Nodup := by
  have hne {x : Target} (hx : ∀ event, x ≠ .event event) :=
    not_mem_targets (t.event_of_mem_sent frames outputs) hx
  have hrest (b : AudioBuffer) :
      Target.input ∉ (t.sent frames outputs ++ [(Target.output, b)]).map Prod.fst ∧
        ((t.sent frames outputs ++ [(Target.output, b)]).map Prod.fst).Nodup := by
    rw [List.map_append, List.map_singleton, ← List.concat_eq_append, List.nodup_concat,
      List.concat_eq_append, List.mem_append, not_or]
    exact ⟨⟨hne (by simp), by simp⟩, hne (by simp), h⟩
  unfold schedule
  cases t.captured frames inputs with
  | none =>
    cases s.link.meters.paused.load
    · exact (hrest _).2
    · exact List.nodup_nil
  | some b =>
    cases s.link.meters.paused.load
    · exact List.nodup_cons.mpr (hrest _)
    · exact List.nodup_singleton _

theorem InStep.sounded_prepare (h : InStep s) :
    sounded (s.mixer.prepare s.link ⟨s.engine.units, []⟩).2.2.journal = [] := by
  obtain ⟨es, hran, honce⟩ := h.exchanged
  have hjournal : (s.mixer.prepare s.link ⟨s.engine.units, []⟩).2.2.journal = es := hran.journal
  rw [hjournal]
  exact sounded_eq_nil honce.kind_eq

structure MixesTones (s : Session U) (frames outputs inputs : Nat) (t : ToneStream) : Prop where
  output : ∀ f : Stage U, (∀ x, x ≠ .input → f x = s.stage x) → (s.render t).output =
    if s.link.meters.paused.load then .silent (frames * outputs) outputs
    else f.through .output (f.sum (t.sent frames outputs) (.silent (frames * outputs) outputs))
  processed : sounded (s.render t).journal = s.stage.entriesAll (s.schedule frames outputs inputs t)
  nodup : ((sounded (s.render t).journal).map (·.unit)).Nodup

theorem InStep.mixesTones [Dsp.InPlace U] (h : InStep s) {frames outputs inputs : Nat}
    (hframes : 0 < frames) (houtputs : 0 < outputs)
    (hshaped : s.mixer.Shaped frames outputs inputs) {bank : ToneBank} (hbank : bank.Voiced)
    (source : ToneSource) : s.MixesTones frames outputs inputs (bank.stream source) := by
  have hrender {f : Stage U} (hf : ∀ x, x ≠ .input → s.stage x = f x) :=
    render_tones ⟨s.engine.units, []⟩ h.nodup_drain hframes houtputs hshaped
      (hbank.nodup_sent source frames outputs) (h.stage_prepare.symm ▸ hf)
  have hprocessed : sounded (s.render (bank.stream source)).journal =
      s.stage.entriesAll (s.schedule frames outputs inputs (bank.stream source)) := by
    have hjournal := (hrender fun _ _ => rfl).2
    rw [h.stage_prepare] at hjournal
    have hall : (s.render (bank.stream source)).journal =
        (s.mixer.prepare s.link ⟨s.engine.units, []⟩).2.2.journal ++
          s.stage.entriesAll (s.schedule frames outputs inputs (bank.stream source)) := by
      rw [schedule, Stage.entriesAll_append]
      apply hjournal.trans
      cases s.link.meters.paused.load <;> rfl
    rw [hall, sounded_append, h.sounded_prepare, Stage.sounded_entriesAll, List.nil_append]
  refine ⟨fun f hf => (hrender fun x hx => (hf x hx).symm).1, hprocessed, ?_⟩
  rw [hprocessed]
  apply Stage.nodup_entriesAll (s.nodup_schedule inputs (hbank.nodup_sent source frames outputs))
  intro u x y hx hy
  exact Option.some.inj ((attachment_of_mem_stage hx).symm.trans (attachment_of_mem_stage hy))

/-- In every state of a run, and for every state of the tones, a buffer is the mix of those voices
that play, and nothing is sent to any unit but what this takes. -/
theorem render_mixes_tones [Dsp.InPlace U] (h : Session.start c tones = .ok s)
    {deeds : List (Deed U)} (hdeeds : ∀ deed ∈ deeds, deed.InPlace) {bank : ToneBank}
    (hbank : bank.Reachable) (source : ToneSource) :
    (s.after deeds).MixesTones c.framesPerBuffer.toNat c.channels.toNat c.inputChannels.toNat
      (bank.stream source) := by
  obtain ⟨hframes, houtputs⟩ := Config.pos_of_fault? (fault?_of_start h)
  exact (inStep_after h deeds).mixesTones hframes houtputs (shaped_after h hdeeds) hbank.voiced
    source

def humming : ToneBank :=
  (ToneBank.new 44100).after [.start ⟨0⟩, .load "events = [[\"hum\", 110.0]]"]

def muffling : List (Deed StockUnit) :=
  [.call (.attachToOutput (some ⟨1, 0⟩)), .render (humming.stream (.new 44100)),
    .call (.attachToEvent (some ⟨0, 0⟩) ⟨0⟩), .call (.create (.gainMeter 0.5)),
    .call (.create (.gainMeter 0.5))]

def quarterTurned : ToneSource :=
  { sampleRate := 44100, phases := List.replicate maxTones 0.25 }

def eighthTurned : ToneSource :=
  { sampleRate := 880, phases := List.replicate maxTones 0.125 }

theorem render_mixes_tones_pair :
    Session.start pairConfig humming = .ok { pair with engine.tones := humming } ∧
    (∀ deed ∈ muffling, deed.InPlace) ∧
    ({ pair with engine.tones := humming }.after muffling).engine.tones.Reachable ∧
    ({ pair with engine.tones := humming }.after muffling).MixesTones 2 1 0
      (({ pair with engine.tones := humming }.after muffling).engine.tones.stream eighthTurned) ∧
    (({ pair with engine.tones := humming }.after muffling).render
      (({ pair with engine.tones := humming }.after muffling).engine.tones.stream
        eighthTurned)).output = ⟨[0.5 * 0.5 * 0.35355338, 0.5 * 0.5 * 0.5], 1⟩ := by
  have hstart : Session.start pairConfig humming =
      .ok { pair with engine.tones := humming } := rfl
  have hdeeds : ∀ deed ∈ muffling, deed.InPlace := by
    simp only [muffling, List.forall_mem_cons]
    exact ⟨trivial, inferInstanceAs (SignalSource.InPlace ToneStream), trivial, trivial, trivial,
      by simp⟩
  have hbank := reachable_tones (s := { pair with engine.tones := humming })
    ⟨44100, _, rfl⟩ muffling
  exact ⟨hstart, hdeeds, hbank, render_mixes_tones hstart hdeeds hbank eighthTurned,
    by decide +kernel⟩

end Session

end Patchbay

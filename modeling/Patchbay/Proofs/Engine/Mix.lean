import Patchbay.Proofs.Engine.Geometry
import Patchbay.Proofs.Tone.Sine
import Patchbay.Proofs.Unit.Rack

/-! What the mixer makes of sound. Units sit on different targets, so none of them hears of another
before the output, and a buffer is what each event comes to by itself, added up. -/

namespace Patchbay

abbrev Stage (U : Type) := Target → Option (UnitHandle × U)

namespace Stage

variable {U : Type} (f : Stage U)

def entries (x : Target) (b : AudioBuffer) : List (Activity U) :=
  (f x).toList.map fun p => ⟨p.1, .processed b, p.2⟩

def entriesAll (sent : List (Target × AudioBuffer)) : List (Activity U) :=
  sent.flatMap fun p => f.entries p.1 p.2

theorem entriesAll_append (sent rest : List (Target × AudioBuffer)) :
    f.entriesAll (sent ++ rest) = f.entriesAll sent ++ f.entriesAll rest :=
  List.flatMap_append

theorem nodup_entriesAll {f : Stage U} {sent : List (Target × AudioBuffer)}
    (h : (sent.map Prod.fst).Nodup)
    (hf : ∀ u x y, u ∈ (f x).map Prod.fst → u ∈ (f y).map Prod.fst → x = y) :
    ((f.entriesAll sent).map (·.unit)).Nodup := by
  have hunits (p : Target × AudioBuffer) :
      (f.entries p.1 p.2).map (·.unit) = ((f p.1).map Prod.fst).toList := by
    unfold entries
    cases f p.1 <;> rfl
  rw [entriesAll, List.map_flatMap]
  simp only [hunits]
  refine List.nodup_flatMap.mpr ⟨fun p _ => Option.toList_nodup _, ?_⟩
  apply (List.pairwise_map.mp h).imp
  intro p q hpq u hu hu'
  exact hpq (hf u p.1 q.1 (Option.mem_toList.mp hu) (Option.mem_toList.mp hu'))

variable [Dsp U]

def through (x : Target) (b : AudioBuffer) : AudioBuffer :=
  (f x).elim b fun p => (Dsp.process b p.2).1

def sum (sent : List (Target × AudioBuffer)) (out : AudioBuffer) : AudioBuffer :=
  sent.foldl (fun out p => out.add (f.through p.1 p.2)) out

variable {f}

theorem shape_through [Dsp.InPlace U] (x : Target) (b : AudioBuffer) :
    (f.through x b).shape = b.shape := by
  unfold through
  cases f x with
  | none => rfl
  | some p => exact Dsp.InPlace.shape_process b p.2

theorem shape_sum [Dsp.InPlace U] {sent : List (Target × AudioBuffer)} {out : AudioBuffer}
    (h : ∀ p ∈ sent, p.2.shape = out.shape) : (f.sum sent out).shape = out.shape := by
  induction sent generalizing out with
  | nil => rfl
  | cons p sent ih =>
    have hadd : (out.add (f.through p.1 p.2)).shape = out.shape :=
      AudioBuffer.shape_add ((shape_through ..).trans (h p List.mem_cons_self))
    exact (ih fun q hq => (h q (List.mem_cons_of_mem _ hq)).trans hadd.symm).trans hadd

end Stage

namespace Mixer

variable {U : Type}

def stage (m : Mixer) (rack : Rack U) : Stage U := fun x =>
  m.unitOn x >>= fun u => (rack.units.get? u).map fun entry => (u, entry.unit)

theorem stage_congr {m n : Mixer} (h : n.units = m.units) (rack : Rack U) :
    n.stage rack = m.stage rack := by
  unfold stage unitOn
  rw [h]

theorem eq_of_unitOn {m : Mixer} (hm : m.owned.Nodup) {u : UnitHandle} {x y : Target}
    (hx : m.unitOn x = some u) (hy : m.unitOn y = some u) : x = y := by
  have hxy := (routing_eq_some hm).mpr (mem_units_of_unitOn hx)
  rw [(routing_eq_some hm).mpr (mem_units_of_unitOn hy)] at hxy
  exact (Option.some.inj (Option.some.inj hxy)).symm

variable [Dsp U]

theorem get?_process_of_ne (rack : Rack U) {u v : UnitHandle} (h : v ≠ u) (b : AudioBuffer) :
    (rack.process u b).2.units.get? v = rack.units.get? v := by
  unfold Rack.process
  cases rack.units.get? u with
  | none => rfl
  | some entry =>
    dsimp only
    split <;> simp [Rack.note, UnitStore.setUnit, UnitStore.get?_modify, h]

theorem processAt_eq {m : Mixer} (hm : m.owned.Nodup) (rack : Rack U) (x : Target)
    {b : AudioBuffer} (hb : b.isEmpty = false) :
    (rack.processAt (m.unitOn x) b).1 = (m.stage rack).through x b ∧
      (rack.processAt (m.unitOn x) b).2.journal = rack.journal ++ (m.stage rack).entries x b ∧
      ∀ y, y ≠ x → m.stage (rack.processAt (m.unitOn x) b).2 y = m.stage rack y := by
  cases hx : m.unitOn x with
  | none => simp [Rack.processAt, Stage.through, Stage.entries, stage, hx]
  | some u =>
    cases hu : rack.units.get? u with
    | none => simp [Rack.processAt, Rack.process, Stage.through, Stage.entries, stage, hx, hu]
    | some entry =>
      refine ⟨?_, ?_, fun y hy => ?_⟩
      · simp [Rack.processAt, Rack.process, Dsp.run, Stage.through, stage, hx, hu, hb]
      · simp [Rack.processAt, Rack.process, Rack.note, Stage.entries, stage, hx, hu, hb]
      · have hother (v : UnitHandle) (hv : m.unitOn y = some v) :
            (rack.process u b).2.units.get? v = rack.units.get? v :=
          get?_process_of_ne rack (by rintro rfl; exact hy (eq_of_unitOn hm hv hx)) b
        unfold stage
        cases hv : m.unitOn y with
        | none => rfl
        | some v => exact congrArg (Option.map _) (hother v hv)

variable {frames outputs inputs : Nat}

theorem mixEvents_eq [Dsp.InPlace U] {m : Mixer} (hm : m.owned.Nodup) (hframes : 0 < frames)
    (houtputs : 0 < outputs) {sounds : List Sounding} {sent : List (Target × AudioBuffer)}
    (hsends : List.Forall₂ (Sounding.Sends (frames * outputs, outputs)) sounds sent)
    (hnodup : (sent.map Prod.fst).Nodup) {f : Stage U} (rack : Rack U) {scratch out : AudioBuffer}
    (hscratch : scratch.shape = (frames * outputs, outputs))
    (hout : out.shape = (frames * outputs, outputs))
    (hf : ∀ x ∈ sent.map Prod.fst, m.stage rack x = f x) :
    (m.mixEvents sounds scratch out rack).2.1 = f.sum sent out ∧
      (m.mixEvents sounds scratch out rack).2.2.journal = rack.journal ++ f.entriesAll sent ∧
      ∀ y, y ∉ sent.map Prod.fst →
        m.stage (m.mixEvents sounds scratch out rack).2.2 y = m.stage rack y := by
  induction hsends generalizing rack scratch out with
  | nil => simp [mixEvents, Stage.sum, Stage.entriesAll]
  | @cons s p sounds sent hs _ ih =>
    obtain ⟨x, fresh⟩ := p
    obtain ⟨rfl, hwrite, hfresh⟩ := hs
    rw [List.map_cons, List.nodup_cons] at hnodup
    rw [List.map_cons, List.forall_mem_cons] at hf
    obtain ⟨hthrough, hentries, hframe⟩ := processAt_eq hm rack (.event s.event)
      (b := fresh) (AudioBuffer.isEmpty_of_shape houtputs hfresh hframes)
    have hhere : m.stage rack (.event s.event) = f (.event s.event) := hf.1
    rw [Stage.through, hhere] at hthrough
    rw [Stage.entries, hhere] at hentries
    have hshape : (f.through (.event s.event) fresh).shape = (frames * outputs, outputs) :=
      (Stage.shape_through ..).trans hfresh
    have hadd : (out.add (f.through (.event s.event) fresh)).shape = (frames * outputs, outputs) :=
      (AudioBuffer.shape_add (hshape.trans hout.symm)).trans hout
    -- what the scratch buffer holds is written over, whoever left it there
    have hstep : m.mixEvents (s :: sounds) scratch out rack = m.mixEvents sounds
        (f.through (.event s.event) fresh) (out.add (f.through (.event s.event) fresh))
        (rack.processAt (m.unitOn (.event s.event)) fresh).2 := by
      rw [mixEvents, hwrite scratch hscratch]
      dsimp only
      rw [hthrough]
      exact congrArg (m.mixEvents sounds _ · _)
        (AudioBuffer.accumulate_eq houtputs hout (hshape.trans hout.symm))
    have hne (y : Target) (hy : y ∈ sent.map Prod.fst) : y ≠ .event s.event :=
      fun heq => hnodup.1 (heq ▸ hy)
    obtain ⟨hsum, hjournal, hframe'⟩ := ih hnodup.2 _ hshape hadd
      fun y hy => (hframe y (hne y hy)).trans (hf.2 y hy)
    rw [hstep]
    refine ⟨hsum, ?_, fun y hy => ?_⟩
    · rw [hjournal, hentries, List.append_assoc]
      rfl
    · rw [List.map_cons, List.mem_cons, not_or] at hy
      exact (hframe' y hy.2).trans (hframe y hy.1)

variable {σ : Type} [SignalSource σ]

def captured (m : Mixer) (source : σ) : Option AudioBuffer :=
  if m.inputChannels = 0 then none else (SignalSource.captureInput source m.input).1

theorem processInput_eq {m : Mixer} (hm : m.owned.Nodup) (source : σ) (rack : Rack U)
    (hfull : ∀ b ∈ m.captured source, b.isEmpty = false) :
    (m.processInput source rack).2.2.journal = rack.journal ++
        (m.stage rack).entriesAll ((m.captured source).toList.map fun b => (.input, b)) ∧
      ∀ y, y ≠ .input → m.stage (m.processInput source rack).2.2 y = m.stage rack y := by
  unfold processInput captured at *
  split
  · simp [Stage.entriesAll]
  · rename_i hchannels
    rw [if_neg hchannels] at hfull
    cases hcapture : SignalSource.captureInput source m.input with
    | mk input? source' =>
      rw [hcapture] at hfull
      cases input? with
      | none => simp [Stage.entriesAll]
      | some input =>
        obtain ⟨-, hjournal, hframe⟩ := processAt_eq hm rack .input (hfull input rfl)
        refine ⟨?_, hframe⟩
        simpa [Stage.entriesAll] using hjournal

theorem mix_eq [Dsp.InPlace U] {m : Mixer} (hm : m.owned.Nodup) (hframes : 0 < frames)
    (houtputs : 0 < outputs) (hshaped : m.Shaped frames outputs inputs) {source : σ}
    {sent : List (Target × AudioBuffer)}
    (hsends : List.Forall₂ (Sounding.Sends (frames * outputs, outputs))
      (SignalSource.renderEvents source m.scratch).1 sent)
    (hnodup : (sent.map Prod.fst).Nodup) {f : Stage U} {rack : Rack U}
    (hf : ∀ x, x ≠ .input → m.stage rack x = f x) (hplays : m.meters.paused = false) :
    (m.mix source rack).2.2.2 = f.through .output (f.sum sent m.blank) ∧
    (m.mix source rack).2.2.1.journal = rack.journal ++
      f.entriesAll (sent ++ [(.output, f.sum sent m.blank)]) := by
  have hblank : m.blank.shape = (frames * outputs, outputs) := by
    rw [hshaped.blank, AudioBuffer.shape_silent]
  have hevent (p : Target × AudioBuffer) (hp : p ∈ sent) :
      (∃ event, p.1 = .event event) ∧ p.2.shape = m.blank.shape := by
    obtain ⟨s, hs⟩ := Sounding.exists_sends hsends p hp
    exact ⟨⟨s.event, hs.target⟩, hs.shape.trans hblank.symm⟩
  have hne {x : Target} (hx : ∀ event, x ≠ .event event) : x ∉ sent.map Prod.fst :=
    not_mem_targets (fun p hp => (hevent p hp).1) hx
  obtain ⟨hsum, hjournal, hframe⟩ := mixEvents_eq hm hframes houtputs hsends hnodup
    rack hshaped.scratch hblank fun x hx => hf x fun hinput => hne (by simp) (hinput ▸ hx)
  have hfull : (f.sum sent m.blank).isEmpty = false :=
    AudioBuffer.isEmpty_of_shape houtputs
      ((Stage.shape_sum fun p hp => (hevent p hp).2).trans hblank) hframes
  have hstage := (hframe .output (hne (by simp))).trans (hf .output (by simp))
  obtain ⟨hthrough, hentries, -⟩ := processAt_eq hm
    (m.mixEvents (SignalSource.renderEvents source m.scratch).1 m.scratch m.blank rack).2.2
    .output hfull
  rw [Stage.through, hstage] at hthrough
  rw [Stage.entries, hstage, hjournal, List.append_assoc] at hentries
  unfold mix
  rw [if_neg (by simp [hplays])]
  dsimp only
  rw [hsum, Stage.entriesAll_append]
  exact ⟨hthrough, by simpa [Stage.entriesAll, Stage.entries] using hentries⟩

/-! Buffers of tones. -/

theorem captured_tones {m : Mixer} (hshaped : m.Shaped frames outputs inputs) (t : ToneStream) :
    m.captured t = t.captured frames inputs := by
  unfold captured
  rw [hshaped.inputChannels]
  by_cases hinputs : inputs = 0
  · rw [if_pos hinputs, ToneStream.captured, if_neg (by simp [hinputs])]
  · rw [if_neg hinputs]
    exact t.captureInput_eq (Nat.pos_of_ne_zero hinputs) hshaped.input

theorem processInput_frame (m : Mixer) (t : ToneStream) (rack : Rack U) :
    (m.processInput t rack).1.units = m.units ∧ (m.processInput t rack).1.meters = m.meters ∧
      ∀ frames outputs,
        (m.processInput t rack).2.1.sent frames outputs = t.sent frames outputs := by
  unfold processInput
  split
  · exact ⟨rfl, rfl, fun _ _ => rfl⟩
  · cases hcapture : SignalSource.captureInput t m.input with
    | mk input? t' =>
      have hsent (frames outputs : Nat) : t'.sent frames outputs = t.sent frames outputs := by
        have heq := t.sent_captureInput frames outputs m.input
        rwa [show t.captureInput m.input = (input?, t') from hcapture] at heq
      cases input? with
      | none => exact ⟨rfl, rfl, hsent⟩
      | some input => exact ⟨rfl, rfl, hsent⟩

/-- Prepared by commands and exchanges, the mixer sends input, events and their sum to whoever sits
there, in this order. -/
theorem render_tones [Dsp.InPlace U] {m : Mixer} {link : Link} (rack : Rack U) {t : ToneStream}
    (hm : (m.drain link).1.owned.Nodup) (hframes : 0 < frames) (houtputs : 0 < outputs)
    (hshaped : m.Shaped frames outputs inputs)
    (hnodup : ((t.sent frames outputs).map Prod.fst).Nodup) {f : Stage U}
    (hf : ∀ x, x ≠ .input → (m.prepare link rack).1.stage (m.prepare link rack).2.2 x = f x) :
    (m.render link rack t).output = (if link.meters.paused.load
      then .silent (frames * outputs) outputs
      else f.through .output (f.sum (t.sent frames outputs) (.silent (frames * outputs) outputs))) ∧
    (m.render link rack t).rack.journal = (m.prepare link rack).2.2.journal ++
      (((m.prepare link rack).1.stage (m.prepare link rack).2.2).entriesAll
          ((t.captured frames inputs).toList.map fun b => (.input, b)) ++
        if link.meters.paused.load then []
        else f.entriesAll (t.sent frames outputs ++
          [(.output, f.sum (t.sent frames outputs) (.silent (frames * outputs) outputs))])) := by
  have hprepared := hshaped.prepare link rack
  have hcaptured := captured_tones hprepared t
  obtain ⟨hjournal, hframe⟩ := processInput_eq (m := (m.prepare link rack).1) hm t
    (m.prepare link rack).2.2 (hcaptured ▸ t.isEmpty_of_captured hframes)
  obtain ⟨hunits, hmeters, hsent⟩ :=
    (m.prepare link rack).1.processInput_frame t (m.prepare link rack).2.2
  have hshaped' := hprepared.processInput t (m.prepare link rack).2.2
  have hpaused := congrArg MeterAudio.paused hmeters
  generalize hr : (m.prepare link rack).1.processInput t (m.prepare link rack).2.2 = r at *
  have houtput : (m.render link rack t).output = (r.1.mix r.2.1 r.2.2).2.2.2 := by
    rw [← hr]
    rfl
  have hrack : (m.render link rack t).rack = (r.1.mix r.2.1 r.2.2).2.2.1 := by
    rw [← hr]
    rfl
  have hblank := hshaped'.blank
  rw [houtput, hrack, ← List.append_assoc, ← hcaptured, ← hjournal, ← hblank]
  cases hplays : link.meters.paused.load with
  | true =>
    have hmix : r.1.mix r.2.1 r.2.2 = (r.1, r.2.1, r.2.2, r.1.blank) :=
      if_pos (hpaused.trans hplays)
    simp [hmix]
  | false =>
    -- input has gone through nobody who sits on an event or on the output
    have hm' : r.1.owned.Nodup := by
      rw [owned, hunits]
      exact hm
    have hstage (x : Target) (hx : x ≠ .input) : r.1.stage r.2.2 x = f x := by
      rw [stage_congr hunits, hframe x hx, hf x hx]
    have hsends := r.2.1.sends_renderEvents houtputs hshaped'.scratch
    rw [hsent] at hsends
    exact mix_eq hm' hframes houtputs hshaped' hsends hnodup hstage (hpaused.trans hplays)

end Mixer

end Patchbay

import Patchbay.Proofs.Session.Journal
import Patchbay.Proofs.Unit.GainMeter

/-! The order in which parameters and levels travel. What a gain meter applies and what it reports is
read off the run alone: which ticks and buffers had it attached, what its gain was at those ticks,
and what it processed before those buffers. Other units have no part in it. -/

namespace Patchbay

open Mixer Activity

variable {U : Type} [Dsp U] [GainMetered U]

/-- Gain meters come as they are made, and of their fields only the gain is written to. -/
def Deed.WritesGain : Deed U → Prop
  | .call (.create design) => ∀ g, meter? design.unit = some g → ∃ gain, g = .ofGain gain
  | .edit _ write => ∀ x y, write x = some y →
    ∃ gain, meter? y = (meter? x).map fun g => { g with control.gain := gain }
  | _ => True

namespace Session

variable (s : Session U) (u : UnitHandle)

def gainMeter? : Option GainMeter :=
  s.engine.units.get? u >>= fun entry => meter? entry.unit

def heldGain : Sample := (s.gainMeter? u).elim 0 (·.control.gain)

/-! What a run says about a unit; the latest deed comes first. -/

/-- The gain held at the last tick with the unit attached in the engine, at first the one that the
unit was made with. -/
def tickedGain : List (Deed U) → Sample
  | [] => 0
  | deed :: past =>
    match (s.after past).made? u deed with
    | some unit => (meter? unit).elim 0 (·.control.gain)
    | none => if (s.after past).ticked u deed then (s.after past).heldGain u else tickedGain past

def lastLevel : List (Deed U) → Sample
  | [] => 0
  | deed :: past =>
    if ((s.after past).made? u deed).isSome then 0
    else ((about u ((s.after past).act deed).2).filterMap level?).getLast?.getD (lastLevel past)

/-- The last level before the last buffer with the unit attached in the mixer. -/
def publishedLevel : List (Deed U) → Sample
  | [] => 0
  | deed :: past =>
    if ((s.after past).made? u deed).isSome then 0
    else if (s.after past).rendered u deed then s.lastLevel u past else publishedLevel past

/-- The level published before the last tick with the unit attached in the engine. -/
def reportedLevel : List (Deed U) → Sample
  | [] => 0
  | deed :: past =>
    if ((s.after past).made? u deed).isSome then 0
    else if (s.after past).ticked u deed then s.publishedLevel u past else reportedLevel past

structure Tracks (past : List (Deed U)) (g : GainMeter) : Prop where
  gain : g.shared.gain.load = s.tickedGain u past
  measured : g.audio.rms = s.lastLevel u past
  published : g.shared.rms.load = s.publishedLevel u past
  reported : g.control.rms = s.reportedLevel u past

variable {s u}

theorem gainMeter?_eq_some {g : GainMeter} : s.gainMeter? u = some g ↔
    ∃ entry, s.engine.units.get? u = some entry ∧ meter? entry.unit = some g :=
  Option.bind_eq_some_iff

theorem Tracks.cons {past : List (Deed U)} {g : GainMeter} (h : Tracks s u past g)
    (deed : Deed U) (hmade : (s.after past).made? u deed = none)
    (hticked : (s.after past).ticked u deed = false) (hrendered : (s.after past).rendered u deed = false)
    (hnil : about u ((s.after past).act deed).2 = []) : Tracks s u (deed :: past) g where
  gain := by simp [tickedGain, hmade, hticked, h.gain]
  measured := by simp [lastLevel, hmade, hnil, h.measured]
  published := by simp [publishedLevel, hmade, hrendered, h.published]
  reported := by simp [reportedLevel, hmade, hticked, h.reported]

theorem tracks_made {past : List (Deed U)} {deed : Deed U} {unit : U} {g : GainMeter}
    (hdeed : deed.WritesGain) (hmade : (s.after past).made? u deed = some unit)
    (hg : meter? unit = some g) : Tracks s u (deed :: past) g := by
  obtain ⟨design, rfl, rfl⟩ := made?_eq_some hmade
  obtain ⟨gain, rfl⟩ := hdeed g hg
  refine ⟨?_, ?_, ?_, ?_⟩
  · simp only [tickedGain, hmade, hg]
    rfl
  · simp [lastLevel, hmade, GainMeter.ofGain]
  · simp [publishedLevel, hmade, GainMeter.ofGain]
  · simp [reportedLevel, hmade, GainMeter.ofGain]

theorem Tracks.edit {past : List (Deed U)} {write : U → Option U} {g : GainMeter} {gain : Sample}
    (h : Tracks s u past g) : Tracks s u (.edit u write :: past)
      { g with control.gain := gain } := by
  have hnil := ((s.after past).act_edit u write).1
  have hsame := h.cons (.edit u write) rfl rfl rfl (by rw [hnil]; rfl)
  exact ⟨hsame.gain, hsame.measured, hsame.published, hsame.reported⟩

theorem isSome_meter?_of_chain {es : List (Activity U)} {x y : U} (h : Chain x es y) :
    (meter? y).isSome = (meter? x).isSome := by
  induction es generalizing x with
  | nil => rw [h]
  | cons e es ih =>
    obtain ⟨rfl, h⟩ := h
    rw [ih h]
    unfold Activity.after
    split
    · rw [GainMetered.meter?_exchangeControl, Option.isSome_map]
    · rw [GainMetered.meter?_exchangeAudio, Option.isSome_map]
    · rw [GainMetered.meter?_process, Option.isSome_map]
    · rfl

theorem InStep.gainMeter?_tick (h : InStep s) {g : GainMeter}
    (hg : s.tick.1.gainMeter? u = some g) :
    ∃ before, s.gainMeter? u = some before ∧
      (about u s.tick.2).filterMap level? = [] ∧
      g = if s.ticked u .tick then before.onControl GainMeter.Control.exchange else before := by
  obtain ⟨rs, es, hjournal, hrs, honce, hchain⟩ := h.journal_tick
  obtain ⟨entry, hu, hg⟩ := gainMeter?_eq_some.mp hg
  obtain ⟨hretired, before, hbefore, hes⟩ := hchain u entry hu
  have hsome := isSome_meter?_of_chain hes
  rw [hg] at hsome
  obtain ⟨g', hg'⟩ := Option.isSome_iff_exists.mp hsome.symm
  have hnil : about u rs = [] := about_eq_nil fun e he heq => hretired (heq ▸ (hrs e he).2)
  refine ⟨g', gainMeter?_eq_some.mpr ⟨before, hbefore, hg'⟩, ?_, ?_⟩
  · rw [hjournal, about_append, hnil, List.nil_append, List.filterMap_eq_nil_iff]
    intro e he
    unfold level?
    rw [honce.kind_eq e (List.mem_of_mem_filter he)]
  · rcases honce u with ⟨hticked, x, hx⟩ | ⟨hticked, hx⟩
    · rw [hx] at hes
      obtain ⟨rfl, hafter⟩ := hes
      rw [hafter, Activity.after, GainMetered.meter?_exchangeControl, hg'] at hg
      rw [if_pos hticked]
      exact (Option.some.inj hg).symm
    · rw [hx] at hes
      rw [hes, hg'] at hg
      rw [if_neg hticked]
      exact (Option.some.inj hg).symm

theorem Tracks.tick {past : List (Deed U)} {g : GainMeter} (h : Tracks s u past g)
    (hg : (s.after past).gainMeter? u = some g)
    (hnil : (about u (s.after past).tick.2).filterMap level? = []) :
    Tracks s u (.tick :: past) (if (s.after past).ticked u .tick then
      g.onControl GainMeter.Control.exchange else g) := by
  have hmade : (s.after past).made? u .tick = none := rfl
  have hrendered : (s.after past).rendered u .tick = false := rfl
  have hmeasured : s.lastLevel u (.tick :: past) = s.lastLevel u past := by
    have hjournal : ((about u ((s.after past).act .tick).2).filterMap level?) = [] := hnil
    simp [lastLevel, hmade, hjournal]
  have hpublished : s.publishedLevel u (.tick :: past) = s.publishedLevel u past := by
    simp [publishedLevel, hmade, hrendered]
  cases hticked : (s.after past).ticked u .tick with
  | true =>
    refine ⟨?_, hmeasured ▸ h.measured, hpublished ▸ h.published, ?_⟩
    · simp only [tickedGain, hmade, hticked, if_true, heldGain, hg]
      rfl
    · simp only [reportedLevel, hmade, hticked, if_true]
      exact h.published
  | false =>
    refine ⟨?_, hmeasured ▸ h.measured, hpublished ▸ h.published, ?_⟩
    · simpa [tickedGain, hmade, hticked] using h.gain
    · simpa [reportedLevel, hmade, hticked] using h.reported

theorem InStep.gainMeter?_render {σ : Type} [SignalSource σ] (h : InStep s) (source : σ)
    {before : GainMeter} (hg : s.gainMeter? u = some before) :
    (s.render source).session.gainMeter? u =
        some (if s.rendered u (.render source) then
          { before.onAudio GainMeter.Audio.exchange with
            audio.rms := ((about u (s.render source).journal).filterMap level?).getLast?.getD
              before.audio.rms }
        else before) ∧
      (s.rendered u (.render source) = false → about u (s.render source).journal = []) ∧
      ∀ e ∈ about u (s.render source).journal, ∀ b, e.kind = .processed b →
        (Dsp.process b e.state).1 = b.map (· * before.shared.gain.load) := by
  obtain ⟨es, fs, hran, honce, hfs⟩ := h.journal_render source
  obtain ⟨entry, hu, hg⟩ := gainMeter?_eq_some.mp hg
  obtain ⟨unit, hunit, hchain⟩ := hran.chain u entry hu
  have hjournal : (s.render source).journal = es ++ fs := hran.journal
  rw [hjournal, about_append]
  rw [about_append] at hchain
  have hkind : ∀ e ∈ about u fs, ∃ b, e.kind = .processed b :=
    fun e he => (hfs e (List.mem_of_mem_filter he)).2
  rcases honce u with ⟨hrendered, x, hx⟩ | ⟨hrendered, hx⟩
  · rw [hx] at hchain ⊢
    obtain ⟨rfl, hchain⟩ := hchain
    have hexchanged : meter? (Dsp.exchangeAudio entry.unit) =
        some (before.onAudio GainMeter.Audio.exchange) := by
      rw [GainMetered.meter?_exchangeAudio, hg]
      rfl
    obtain ⟨hafter, hout⟩ := meter?_of_chain hchain hkind hexchanged
    refine ⟨?_, fun hnot => absurd hrendered (by simp [hnot]), ?_⟩
    · rw [if_pos hrendered]
      exact gainMeter?_eq_some.mpr ⟨_, hunit, hafter⟩
    · intro e he b hb
      rcases List.mem_cons.mp he with rfl | he
      · cases hb
      · exact hout e he b hb
  · have hnone : about u fs = [] := about_eq_nil fun e he heq => hrendered (heq ▸ (hfs e he).1)
    rw [hx, hnone] at hchain ⊢
    refine ⟨?_, fun _ => rfl, by simp⟩
    rw [if_neg hrendered]
    cases hchain
    exact gainMeter?_eq_some.mpr ⟨_, hunit, hg⟩

theorem Tracks.render {past : List (Deed U)} {σ : Type} [SignalSource σ] {source : σ}
    {g : GainMeter} (h : Tracks s u past g)
    (hnil : (s.after past).rendered u (.render source) = false →
      about u ((s.after past).render source).journal = []) :
    Tracks s u (.render source :: past) (if (s.after past).rendered u (.render source) then
      { g.onAudio GainMeter.Audio.exchange with
        audio.rms := ((about u ((s.after past).render source).journal).filterMap level?).getLast?.getD
          g.audio.rms }
      else g) := by
  have hmade : (s.after past).made? u (.render source) = none := rfl
  have hticked : (s.after past).ticked u (.render source) = false := rfl
  cases hrendered : (s.after past).rendered u (.render source) with
  | true =>
    refine ⟨?_, ?_, ?_, ?_⟩
    · simp only [tickedGain, hmade, hticked, Bool.false_eq_true, if_false]
      exact h.gain
    · simp only [lastLevel, hmade, ← h.measured]
      rfl
    · simp only [publishedLevel, hmade, hrendered, if_true]
      exact h.measured
    · simp only [reportedLevel, hmade, hticked, Option.isSome_none, Bool.false_eq_true, if_false]
      exact h.reported
  | false => exact h.cons _ hmade hticked hrendered (hnil hrendered)

theorem tracks_after {c : Config} {tones : ToneBank} (h : Session.start c tones = .ok s)
    {deeds : List (Deed U)} (hdeeds : ∀ deed ∈ deeds, deed.WritesGain) {g : GainMeter}
    (hg : (s.after deeds).gainMeter? u = some g) : Tracks s u deeds g := by
  induction deeds generalizing g with
  | nil =>
    obtain ⟨entry, hentry, -⟩ := gainMeter?_eq_some.mp hg
    obtain ⟨link, -, rfl⟩ := start_eq_ok h
    rw [after, get?_start] at hentry
    cases hentry
  | cons deed past ih =>
    have hstep := inStep_after h past
    have hdeed := hdeeds deed List.mem_cons_self
    have hpast {g : GainMeter} := ih (g := g) fun d hd => hdeeds d (List.mem_cons_of_mem _ hd)
    obtain ⟨entry, hu, hmeter⟩ := gainMeter?_eq_some.mp hg
    rcases hstep.get?_act deed hu with
      hmade | ⟨hmade, before, hbefore, ⟨write, rfl, hwrite⟩ | hchain⟩
    · exact tracks_made hdeed hmade hmeter
    · obtain ⟨gain, hgain⟩ := hdeed _ _ hwrite
      rw [hmeter] at hgain
      obtain ⟨g', hg', rfl⟩ := Option.map_eq_some_iff.mp hgain.symm
      exact (hpast (gainMeter?_eq_some.mpr ⟨before, hbefore, hg'⟩)).edit
    · have hsome := isSome_meter?_of_chain hchain
      rw [hmeter] at hsome
      obtain ⟨g', hg'⟩ := Option.isSome_iff_exists.mp hsome.symm
      have hbefore' := gainMeter?_eq_some.mpr ⟨before, hbefore, hg'⟩
      rcases (s.after past).quiet_or deed with ⟨hnil, hquiet⟩ | rfl | ⟨σ, _, source, rfl⟩
      · rw [hnil] at hchain
        have hunit : entry.unit = before.unit := hchain
        rw [hunit, hg'] at hmeter
        obtain rfl := Option.some.inj hmeter
        exact (hpast hbefore').cons deed hmade (hquiet u).1 (hquiet u).2 (by rw [hnil]; rfl)
      · obtain ⟨g'', hg'', hnil, rfl⟩ := hstep.gainMeter?_tick hg
        exact (hpast hg'').tick hg'' hnil
      · obtain ⟨hnext, hnil, -⟩ := hstep.gainMeter?_render source hbefore'
        obtain rfl := Option.some.inj (hg.symm.trans hnext)
        exact (hpast hbefore').render hnil

theorem InStep.applies_published (h : InStep s) {g : GainMeter} (hg : s.gainMeter? u = some g)
    (deed : Deed U) : ∀ e ∈ (s.act deed).2, e.unit = u → ∀ b, e.kind = .processed b →
      (Dsp.process b e.state).1 = b.map (· * g.shared.gain.load) := by
  intro e he hu b hb
  rcases s.quiet_or deed with ⟨hnil, -⟩ | rfl | ⟨σ, _, source, rfl⟩
  · rw [hnil] at he
    cases he
  · obtain ⟨rs, es, hjournal, hrs, honce, -⟩ := h.journal_tick
    have heq : (s.act .tick).2 = rs ++ es := hjournal
    rw [heq] at he
    rcases List.mem_append.mp he with he | he
    · rw [(hrs e he).1] at hb
      cases hb
    · rw [honce.kind_eq e he] at hb
      cases hb
  · obtain ⟨-, -, hout⟩ := h.gainMeter?_render source hg
    exact hout e (List.mem_filter.mpr ⟨he, decide_eq_true hu⟩) b hb

/-- In every run a unit exchanges its fields once in each tick, and once in each buffer before any
sound, that has it attached; so a gain meter applies the gain held at the last such tick, and
reports the level of the last buffer that it processed before the last such buffer before the last
such tick. -/
theorem parameters_follow_order {c : Config} {tones : ToneBank}
    (h : Session.start c tones = .ok s) (deeds : List (Deed U))
    (hdeeds : ∀ deed ∈ deeds, deed.WritesGain) (u : UnitHandle) :
    (∀ deed, (s.after deeds).ExchangesOnce deed u) ∧
    (((s.after deeds).gainMeter? u).isSome → ∀ deed, ∀ e ∈ ((s.after deeds).act deed).2,
      e.unit = u → ∀ b, e.kind = .processed b →
        (Dsp.process b e.state).1 = b.map (· * s.tickedGain u deeds)) ∧
    ∀ g, (s.after deeds).gainMeter? u = some g → g.control.rms = s.reportedLevel u deeds := by
  have hstep := inStep_after h deeds
  refine ⟨fun deed => hstep.exchangesOnce deed u, fun hsome deed e he hu b hb => ?_, fun g hg =>
    (tracks_after h hdeeds hg).reported⟩
  obtain ⟨g, hg⟩ := Option.isSome_iff_exists.mp hsome
  rw [← (tracks_after h hdeeds hg).gain]
  exact hstep.applies_published hg deed e he hu b hb

def halving : List (Deed StockUnit) :=
  [.tick, .render ({ events := [(⟨0⟩, [2, 14])] } : Playback),
    .render ({ events := [(⟨0⟩, [1, 7])] } : Playback), .tick,
    .edit ⟨0, 0⟩ (StockUnit.editGain? (·.setGain 0.5)),
    .call (.attachToOutput (some ⟨0, 0⟩)), .call (.create (.gainMeter 1))]

theorem writesGain_halving : ∀ deed ∈ halving, deed.WritesGain := by
  intro deed hdeed
  simp only [halving, List.mem_cons, List.not_mem_nil, or_false] at hdeed
  rcases hdeed with rfl | rfl | rfl | rfl | rfl | rfl | rfl
  · trivial
  · trivial
  · trivial
  · trivial
  · intro x y hxy
    cases x with
    | gain g =>
      cases hxy
      exact ⟨_, rfl⟩
    | peak _ | fader _ | probe _ | bypass => cases hxy
  · trivial
  · intro g hg
    exact ⟨1, (Option.some.inj hg).symm⟩

theorem parameters_follow_order_pair :
    Session.start pairConfig (.new 44100) = .ok pair ∧
    (∀ deed ∈ halving, deed.WritesGain) ∧
    pair.tickedGain ⟨0, 0⟩ halving = 0.5 ∧
    pair.lastLevel ⟨0, 0⟩ halving = 5 ∧
    ∃ g, (pair.after halving).gainMeter? ⟨0, 0⟩ = some g ∧ g.control.rms = 2.5 := by
  have hsome : ((pair.after halving).gainMeter? ⟨0, 0⟩).isSome := by decide +kernel
  have hlevel : pair.reportedLevel ⟨0, 0⟩ halving = 2.5 := by decide +kernel
  obtain ⟨g, hg⟩ := Option.isSome_iff_exists.mp hsome
  have horder := parameters_follow_order start_pair halving writesGain_halving ⟨0, 0⟩
  exact ⟨start_pair, writesGain_halving, by decide +kernel, by decide +kernel, g, hg,
    (horder.2.2 g hg).trans hlevel⟩

end Session

end Patchbay

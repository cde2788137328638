import Patchbay.Proofs.Engine.Refusal
import Patchbay.Proofs.Session.Parameters
import Patchbay.Proofs.Session.Turnover

/-! How long a written gain takes. A gain that is written travels with the next tick that has the
unit attached, and from then on it is the only one applied. Ticks that pass while the unit is not
attached do not count, however many there are. -/

namespace Patchbay

open Activity

variable {U : Type} [Dsp U] [GainMetered U]

structure SetsGain (write : U → Option U) (gain : Sample) : Prop where
  isSome : ∀ x, (write x).isSome = (meter? x).isSome
  meter : ∀ x y, write x = some y →
    meter? y = (meter? x).map fun g => { g with control := g.control.setGain gain }

theorem setsGain_editGain? (gain : Sample) :
    SetsGain (StockUnit.editGain? (·.setGain gain)) gain where
  isSome x := by cases x <;> rfl
  meter x y h := by
    cases x with
    | gain g =>
      cases h
      rfl
    | peak _ | fader _ | probe _ | bypass => cases h

theorem SetsGain.writesGain {write : U → Option U} {gain : Sample} (h : SetsGain write gain)
    (u : UnitHandle) : (Deed.edit u write).WritesGain :=
  fun x y hxy => ⟨gain.clamp 0 GainMeter.maxGain, h.meter x y hxy⟩

theorem gain_of_chain {es : List (Activity U)} {x y : U} (h : Chain x es y) :
    (meter? y).map (·.control.gain) = (meter? x).map (·.control.gain) := by
  induction es generalizing x with
  | nil => rw [h]
  | cons e es ih =>
    obtain ⟨rfl, h⟩ := h
    rw [ih h]
    unfold Activity.after
    split
    · rw [GainMetered.meter?_exchangeControl, Option.map_map]
      rfl
    · rw [GainMetered.meter?_exchangeAudio, Option.map_map]
      rfl
    · rw [GainMetered.meter?_process, Option.map_map]
      rfl
    · rfl

namespace Session

variable (s : Session U) (u : UnitHandle)

/-- Whether a unit is in use at the end of a run and after each of the deeds that follow it. -/
def staysLive (past : List (Deed U)) : List (Deed U) → Bool
  | [] => ((s.after past).engine.units.live? u).isSome
  | deed :: later => staysLive past later &&
    ((s.after (deed :: later ++ past)).engine.units.live? u).isSome

def tickedSince (past : List (Deed U)) : List (Deed U) → Bool
  | [] => false
  | deed :: later => (s.after (later ++ past)).ticked u deed || tickedSince past later

structure LastWrite (gain : Sample) (write : U → Option U) (past later : List (Deed U)) : Prop where
  writesGain : ∀ deed ∈ later ++ .edit u write :: past, deed.WritesGain
  sets : SetsGain write gain
  le : 0 ≤ gain
  le_max : gain ≤ GainMeter.maxGain
  meter : ((s.after past).gainMeter? u).isSome
  live : s.staysLive u (.edit u write :: past) later
  last : ∀ deed ∈ later, ∀ other, deed ≠ .edit u other

variable {s u}

theorem InStep.gain_act (h : InStep s) {deed : Deed U} {g : GainMeter}
    (hg : s.gainMeter? u = some g)
    (hafter : ((s.act deed).1.engine.units.live? u).isSome)
    (hedit : ∀ write, deed ≠ .edit u write) :
    s.made? u deed = none ∧
      ∃ g', (s.act deed).1.gainMeter? u = some g' ∧ g'.control.gain = g.control.gain := by
  obtain ⟨entry, hget, hmeter⟩ := gainMeter?_eq_some.mp hg
  obtain ⟨entry', hlive'⟩ := Option.isSome_iff_exists.mp hafter
  have hget' := (UnitStore.live?_eq_some.mp hlive').1
  rcases h.get?_act deed hget' with
    hmade | ⟨hmade, before, hbefore, ⟨write, hdeed, -⟩ | hchain⟩
  · have hgiven := isSome_made?.mp (Option.isSome_of_mem hmade)
    exact absurd rfl (h.vacant_of_given? hgiven (Option.isSome_of_mem hget))
  · exact absurd hdeed (hedit write)
  · obtain rfl := Option.some.inj (hget.symm.trans hbefore)
    have hgain := gain_of_chain hchain
    rw [hmeter, Option.map_some] at hgain
    obtain ⟨g', hg', heq⟩ := Option.map_eq_some_iff.mp hgain
    exact ⟨hmade, g', gainMeter?_eq_some.mpr ⟨entry', hget', hg'⟩, heq⟩

theorem InStep.gain_edit (h : InStep s) {write : U → Option U} {gain : Sample}
    (hwrite : SetsGain write gain) (hmeter : (s.gainMeter? u).isSome)
    (hafter : ((s.act (.edit u write)).1.engine.units.live? u).isSome) :
    ∃ g, (s.act (.edit u write)).1.gainMeter? u = some g ∧
      g.control.gain = gain.clamp 0 GainMeter.maxGain := by
  have hlive : (s.engine.units.live? u).isSome := by
    obtain ⟨units, es, houtline, -, hturn⟩ := h.turnover (.edit u write)
    cases hturn with
    | kept => rwa [← UnitStore.isSome_live?_outline, houtline,
        UnitStore.isSome_live?_outline] at hafter
  obtain ⟨entry, hentry⟩ := Option.isSome_iff_exists.mp hlive
  obtain ⟨g, hg⟩ := Option.isSome_iff_exists.mp hmeter
  obtain ⟨entry', hget, hg⟩ := gainMeter?_eq_some.mp hg
  obtain rfl := Option.some.inj ((UnitStore.live?_eq_some.mp hentry).1.symm.trans hget)
  have hsome := hwrite.isSome entry.unit
  rw [hg] at hsome
  obtain ⟨unit, hunit⟩ := Option.isSome_iff_exists.mp hsome
  have hset : (s.act (.edit u write)).1.engine.units = s.engine.units.setUnit u unit := by
    simp [Session.act, Engine.edit_of_live hentry hunit]
  refine ⟨{ g with control := g.control.setGain gain }, gainMeter?_eq_some.mpr ⟨{ entry with unit },
    ?_, ?_⟩, rfl⟩
  · rw [hset, UnitStore.setUnit, UnitStore.get?_modify, if_pos rfl, hget, Option.map_some]
  · rw [hwrite.meter entry.unit unit hunit, hg, Option.map_some]

variable {c : Config} {tones : ToneBank} {gain : Sample} {write : U → Option U}
  {past later : List (Deed U)}

theorem LastWrite.held (h : Session.start c tones = .ok s)
    (hwrite : s.LastWrite u gain write past later) :
    (∃ g, (s.after (later ++ .edit u write :: past)).gainMeter? u = some g ∧
      g.control.gain = gain) ∧
    s.tickedGain u (later ++ .edit u write :: past) =
      if s.tickedSince u (.edit u write :: past) later then gain else s.tickedGain u past := by
  obtain ⟨-, hsets, hle, hmax, hmeter, hlive, hlast⟩ := hwrite
  induction later with
  | nil =>
    obtain ⟨g, hg, hgain⟩ := (inStep_after h past).gain_edit hsets hmeter hlive
    rw [Sample.clamp_of_mem hle hmax] at hgain
    exact ⟨⟨g, hg, hgain⟩, by simp [tickedGain, tickedSince, made?, ticked]⟩
  | cons deed later ih =>
    rw [staysLive, Bool.and_eq_true] at hlive
    obtain ⟨⟨g, hg, hgain⟩, hticked⟩ :=
      ih hlive.1 fun d hd => hlast d (List.mem_cons_of_mem _ hd)
    obtain ⟨hmade, g', hg', hgain'⟩ := (inStep_after h _).gain_act hg hlive.2
      (hlast deed List.mem_cons_self)
    refine ⟨⟨g', hg', hgain'.trans hgain⟩, ?_⟩
    rw [List.cons_append, tickedGain, hmade, tickedSince, hticked]
    cases ((s.after (later ++ .edit u write :: past)).ticked u deed) with
    | true => simp [heldGain, hg, hgain]
    | false => simp

theorem LastWrite.cons (hwrite : s.LastWrite u gain write past later) (deed : Deed U)
    (hdeed : deed.WritesGain) (hedit : ∀ other, deed ≠ .edit u other)
    (hlive : ((s.after (deed :: later ++ .edit u write :: past)).engine.units.live? u).isSome) :
    s.LastWrite u gain write past (deed :: later) where
  writesGain := by
    simpa using ⟨hdeed, by simpa using hwrite.writesGain⟩
  sets := hwrite.sets
  le := hwrite.le
  le_max := hwrite.le_max
  meter := hwrite.meter
  live := by
    rw [staysLive, hwrite.live, hlive]
    rfl
  last := by
    simpa using ⟨hedit, hwrite.last⟩

def Cycle (deeds : List (Deed U)) : Prop :=
  ∃ (σ : Type) (_ : SignalSource σ) (source : σ) (before between after : List (Deed U)),
    deeds = after ++ .render source :: between ++ .tick :: before

def lateArrival : List (Deed StockUnit) :=
  [.call (.attachToOutput (some ⟨0, 0⟩)), .render Silence.mk, .tick, .render Silence.mk, .tick]

def tone : Playback := { events := [(⟨0⟩, [1])] }

theorem lastWrite_lateArrival : tiny.LastWrite ⟨0, 0⟩ 0.5 (StockUnit.editGain? (·.setGain 0.5))
    [.call (.create (.gainMeter 1))] lateArrival where
  writesGain := by
    have hedit := (setsGain_editGain? 0.5).writesGain ⟨0, 0⟩
    have hmade : (Deed.call (.create (.gainMeter 1))).WritesGain :=
      fun g hg => ⟨1, (Option.some.inj hg).symm⟩
    simp only [lateArrival, List.cons_append, List.nil_append, List.forall_mem_cons, hedit, hmade,
      true_and]
    exact ⟨trivial, trivial, trivial, trivial, trivial, by simp⟩
  sets := setsGain_editGain? 0.5
  le := by decide +kernel
  le_max := by decide +kernel
  meter := by decide +kernel
  live := by decide +kernel
  last := by simp [lateArrival]

/-- When a gain in range was set on a gain meter that stays in use, and was not written to again,
every buffer that the unit processes gets just that gain once a tick had the unit attached. Up to
then it gets the gain of the last such tick before the write. -/
theorem last_write_applies (h : Session.start c tones = .ok s)
    (hwrite : s.LastWrite u gain write past later) (deed : Deed U) :
    ∀ e ∈ ((s.after (later ++ .edit u write :: past)).act deed).2, e.unit = u →
      ∀ b, e.kind = .processed b → (Dsp.process b e.state).1 = b.map (· *
        if s.tickedSince u (.edit u write :: past) later then gain else s.tickedGain u past) := by
  obtain ⟨⟨g, hg, -⟩, hticked⟩ := hwrite.held h
  rw [← hticked, ← (tracks_after h hwrite.writesGain hg).gain]
  exact (inStep_after h _).applies_published hg deed

theorem last_write_applies_tiny :
    Session.start tinyConfig (.new 44100) = .ok tiny ∧
    tiny.LastWrite ⟨0, 0⟩ 0.5 (StockUnit.editGain? (·.setGain 0.5))
      [.call (.create (.gainMeter 1))] (.tick :: lateArrival) ∧
    ∃ e ∈ ((tiny.after (.tick :: lateArrival ++
        .edit ⟨0, 0⟩ (StockUnit.editGain? (·.setGain 0.5)) ::
          [.call (.create (.gainMeter 1))])).act (.render tone)).2,
      e.unit = ⟨0, 0⟩ ∧ ∃ b, e.kind = .processed b ∧
        (Dsp.process b e.state).1 = b.map (· * 0.5) := by
  have hwrite := lastWrite_lateArrival.cons .tick trivial (by simp) (by decide +kernel)
  have happlied := last_write_applies start_tiny hwrite (.render tone)
  have hticked : tiny.tickedSince ⟨0, 0⟩ (.edit ⟨0, 0⟩ (StockUnit.editGain? (·.setGain 0.5)) ::
      [.call (.create (.gainMeter 1))]) (.tick :: lateArrival) = true := by decide +kernel
  have hsounded : ((tiny.after (.tick :: lateArrival ++
      .edit ⟨0, 0⟩ (StockUnit.editGain? (·.setGain 0.5)) ::
        [.call (.create (.gainMeter 1))])).act (.render tone)).2.any fun e =>
      e.unit = ⟨0, 0⟩ && e.kind.buffer?.isSome := by decide +kernel
  refine ⟨start_tiny, hwrite, ?_⟩
  obtain ⟨e, he, hboth⟩ := List.any_eq_true.mp hsounded
  obtain ⟨hunit, hbuffer⟩ := Bool.and_eq_true_iff.mp hboth
  obtain ⟨b, hb⟩ := Option.isSome_iff_exists.mp hbuffer
  have hkind := Occurrence.buffer?_eq_some.mp hb
  have hout := happlied e he (of_decide_eq_true hunit) b hkind
  rw [hticked, if_pos rfl] at hout
  exact ⟨e, he, of_decide_eq_true hunit, b, hkind, hout⟩

/-- Cycles alone do not bring a gain to the mixer: those that pass while the unit is not attached
leave the old one to be applied. -/
theorem cycles_do_not_suffice :
    ¬ ∀ (c : Config) (tones : ToneBank) (s : Session StockUnit),
      Session.start c tones = .ok s → ∀ u gain write past first second,
        s.LastWrite u gain write past (second ++ first) → Cycle first → Cycle second →
        ∀ deed, ∀ e ∈ ((s.after (second ++ first ++ .edit u write :: past)).act deed).2,
          e.unit = u → ∀ b, e.kind = .processed b →
            (Dsp.process b e.state).1 = b.map (· * gain) := by
  intro h
  have hfirst : Cycle (lateArrival.drop 3) := ⟨Silence, _, .mk, [], [], [], rfl⟩
  have hsecond : Cycle (lateArrival.take 3) :=
    ⟨Silence, _, .mk, [], [], [.call (.attachToOutput (some ⟨0, 0⟩))], rfl⟩
  have happlied := h tinyConfig (.new 44100) tiny start_tiny ⟨0, 0⟩ 0.5 _ _ _ _
    lastWrite_lateArrival hfirst hsecond (.render tone)
  have hstale : ((tiny.after (lateArrival ++ .edit ⟨0, 0⟩ (StockUnit.editGain? (·.setGain 0.5)) ::
      [.call (.create (.gainMeter 1))])).act (.render tone)).2.any fun e => e.unit = ⟨0, 0⟩ &&
        e.kind.buffer?.any fun b => (Dsp.process b e.state).1 ≠ b.map (· * 0.5) := by
    decide +kernel
  obtain ⟨e, he, hboth⟩ := List.any_eq_true.mp hstale
  obtain ⟨hunit, hbuffer⟩ := Bool.and_eq_true_iff.mp hboth
  obtain ⟨b, hb, hother⟩ := (Option.any_eq_true _ _).mp hbuffer
  exact of_decide_eq_true hother
    (happlied e he (of_decide_eq_true hunit) b (Occurrence.buffer?_eq_some.mp hb))

end Session

end Patchbay

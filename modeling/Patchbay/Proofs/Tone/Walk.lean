import Patchbay.Proofs.Sound.Handing
import Patchbay.Proofs.Tone.Loading

/-! One voice through a run. All that is handed over of a voice, in all buffers together, is one
walk through the phases of a sine, a step a frame, with the frequency and the amplitude that the
voice has at the time. It makes no difference into which buffers the frames fall, what is left in
these buffers in between, and what happens to other voices. -/

namespace Patchbay

structure Pace where
  frequency : Sample
  amplitude : Sample
  channels : Nat
  deriving DecidableEq

namespace Pace

variable (rate : Sample)

def step (phase : Sample) (p : Pace) : Sample := (phase + p.frequency / rate).fract

def walk : Sample → List Pace → List (List Sample)
  | _, [] => []
  | phase, p :: rest =>
    List.replicate p.channels (p.amplitude * (Sample.tau * phase).sin) ::
      walk (p.step rate phase) rest

end Pace

def Voice.paces (v : Voice) (frames channels : Nat) : List Pace :=
  if v.playing then List.replicate frames ⟨v.frequency, v.amplitude, channels⟩ else []

inductive VoiceChange
  | hold (event : EventHandle) (spec : ToneSpec)
  | vacate
  | play (playing : Bool)

def Voice.act (v : Voice) : VoiceChange → Voice
  | .hold event spec => ⟨v.playing, event, spec.frequency, spec.amplitude⟩
  | .vacate => { v with playing := false }
  | .play playing => { v with playing }

inductive VoiceDeed
  | changed (change : VoiceChange)
  | rendered (frames channels : Nat)

namespace VoiceDeed

def after : List VoiceDeed → Voice
  | [] => {}
  | changed change :: past => (after past).act change
  | rendered _ _ :: past => after past

def paces : List VoiceDeed → List Pace
  | [] => []
  | rendered frames channels :: past => paces past ++ (after past).paces frames channels
  | _ :: past => paces past

end VoiceDeed

def BankCall.isLoad : BankCall → Bool
  | load _ | loadFile _ => true
  | _ => false

namespace ToneBank

def voiceAt (b : ToneBank) (i : Nat) : Voice := (b.slots[i]?.map (·.voice)).getD {}

/-- The event that a call loads into a voice: it has as many events before it as there are free
voices below. -/
def placed? (b : ToneBank) (i : Nat) (call : BankCall) : Option ToneSpec :=
  if (b.given? call).isSome && b.slots[i]?.any (·.isFree) then
    (call.specs?.getD [])[(b.slots.take i).countP ToneSlot.isFree]?
  else none

def own? (b : ToneBank) (i : Nat) : BankCall → Option VoiceChange
  | .start event => if b.isValid event ∧ event.voice = i then some (.play true) else none
  | .stop event => if b.isValid event ∧ event.voice = i then some (.play false) else none
  | .unload bank => if b.vacates i (.unload bank) then some .vacate else none
  | call => (b.placed? i call).map (.hold (.ofVoice i (b.generationAt i)))

end ToneBank

namespace Tones

def own? (t : Tones) (i : Nat) : ToneDeed → Option VoiceDeed
  | .call call => (t.bank.own? i call).map .changed
  | .captureInput _ => none
  | .renderEvents b => some (.rendered b.frames b.channels)

def own (t : Tones) (i : Nat) : List ToneDeed → List VoiceDeed
  | [] => []
  | deed :: past => ((t.after past).own? i deed).toList ++ t.own i past

/-- The frames of a voice in a run, each with the frequency and the amplitude that the voice has
when the buffer is rendered. -/
def paces (t : Tones) (i : Nat) : List ToneDeed → List Pace
  | [] => []
  | .renderEvents b :: past =>
    t.paces i past ++ ((t.after past).bank.voiceAt i).paces b.frames b.channels
  | _ :: past => t.paces i past

/-- All frames that sinks are handed in a run for the events of one voice. In every buffer there may
be another sink. -/
def heard (t : Tones) (sink : List ToneDeed → Sink) (i : Nat) :
    List ToneDeed → List (List Sample)
  | [] => []
  | .renderEvents b :: past =>
    t.heard sink i past ++
      ((Sounding.handed (sink past) ((t.after past).stream.renderEvents b).1 b).filter
        (·.1.voice = i)).flatMap (·.2.eachFrame)
  | _ :: past => t.heard sink i past

end Tones

/-! One buffer of a voice. -/

theorem Pace.walk_append (rate phase : Sample) (ps qs : List Pace) :
    walk rate phase (ps ++ qs) =
      walk rate phase ps ++ walk rate (ps.foldl (step rate) phase) qs := by
  induction ps generalizing phase with
  | nil => rfl
  | cons p ps ih => exact congrArg (_ :: ·) (ih (p.step rate phase))

namespace ToneSource

variable (s : ToneSource) (v : Voice)

theorem walk_succ (phase : Sample) (n : Nat) : s.walk v phase (n + 1) =
    v.amplitude * (Sample.tau * phase).sin :: s.walk v (s.turn v phase) n := by
  simp [walk, List.range_succ_eq_map, Function.comp_def]

theorem walk_paces (hv : v.playing) (phase : Sample) (n channels : Nat) :
    Pace.walk s.sampleRate phase (v.paces n channels) =
      (s.walk v phase n).map (List.replicate channels) := by
  rw [Voice.paces, if_pos hv]
  induction n generalizing phase with
  | zero => rfl
  | succ n ih =>
    rw [List.replicate_succ, Pace.walk, walk_succ, List.map_cons]
    exact congrArg (_ :: ·) (ih _)

theorem phases_renderVoices (voices : List Voice) (frames : Nat) :
    (s.renderVoices voices frames).2 = (voices.zip s.phases).map fun p =>
      if p.1.playing then (s.turn p.1)^[frames] p.2 else p.2 := by
  unfold renderVoices
  dsimp only
  rw [List.map_map]
  apply List.map_congr_left
  rintro ⟨v, phase⟩ -
  cases hplaying : v.playing <;> simp [hplaying, renderVoice_eq]

theorem foldl_paces (phase : Sample) (n channels : Nat) :
    (v.paces n channels).foldl (Pace.step s.sampleRate) phase =
      if v.playing then (s.turn v)^[n] phase else phase := by
  unfold Voice.paces
  split
  · induction n generalizing phase with
    | zero => rfl
    | succ n ih => exact ih _
  · rfl

end ToneSource

theorem filter_eq_toList {α : Type} {l : List α} {p : α → Bool} {i : Nat}
    (h : ∀ k a, l[k]? = some a → p a → k = i) : l.filter p = (l[i]?.filter p).toList := by
  induction l generalizing i with
  | nil => rfl
  | cons a l ih =>
    cases i with
    | zero =>
      have hrest : l.filter p = [] := List.filter_eq_nil_iff.mpr fun b hb hp => by
        obtain ⟨k, hk⟩ := List.mem_iff_getElem?.mp hb
        cases h (k + 1) b hk hp
      by_cases ha : p a <;> simp [ha, hrest, Option.filter]
    | succ i =>
      have ha : ¬p a := fun ha => by cases h 0 a rfl ha
      rw [List.filter_cons_of_neg ha]
      exact ih fun k b hk hp => Nat.succ.inj (h (k + 1) b hk hp)

namespace ToneBank

variable {b : ToneBank}

theorem voiceAt_eq {i : Nat} {slot : ToneSlot} (h : b.slots[i]? = some slot) :
    b.voiceAt i = slot.voice := by
  rw [voiceAt, h]
  rfl

theorem voiceAt_eq_default {i : Nat} (h : b.slots[i]? = none) : b.voiceAt i = {} := by
  rw [voiceAt, h]
  rfl

end ToneBank

namespace Tones

variable {t : Tones}

def phaseAt (t : Tones) (i : Nat) : Sample := t.source.phases[i]?.getD 0

theorem getElem?_zip (hvoiced : t.bank.Voiced) (hphases : t.source.phases.length = maxTones)
    (i : Nat) : ((t.bank.slots.map (·.voice)).zip t.source.phases)[i]? =
      t.bank.slots[i]?.map fun _ => (t.bank.voiceAt i, t.phaseAt i) := by
  cases hslot : t.bank.slots[i]? with
  | none =>
    have hi := List.getElem?_eq_none_iff.mp hslot
    rw [List.getElem?_eq_none]
    · rfl
    · simp [hi]
  | some slot =>
    have hi : i < t.source.phases.length := by
      rw [hphases, ← hvoiced.length]
      exact (List.getElem?_eq_some_iff.mp hslot).1
    have hvoice : (t.bank.slots.map (·.voice))[i]? = some (t.bank.voiceAt i) := by
      rw [List.getElem?_map, hslot, ToneBank.voiceAt_eq hslot]
      rfl
    have hphase : t.source.phases[i]? = some (t.phaseAt i) := by
      rw [phaseAt, List.getElem?_eq_getElem hi]
      rfl
    exact List.getElem?_zip_eq_some.mpr ⟨hvoice, hphase⟩

variable (hvoiced : t.bank.Voiced) (hphases : t.source.phases.length = maxTones)

include hvoiced hphases

theorem filter_playing (i : Nat) :
    (t.source.playing (t.bank.slots.map (·.voice))).filter (·.1.event.voice = i) =
      if (t.bank.voiceAt i).playing then [(t.bank.voiceAt i, t.phaseAt i)] else [] := by
  have hzip := getElem?_zip hvoiced hphases
  have hevent {k : Nat} {slot : ToneSlot} (hslot : t.bank.slots[k]? = some slot)
      (hplaying : (t.bank.voiceAt k).playing = true) : (t.bank.voiceAt k).event.voice = k := by
    rw [ToneBank.voiceAt_eq hslot] at *
    exact hvoiced.voice_event hslot hplaying
  unfold ToneSource.playing
  rw [List.filter_filter, filter_eq_toList (i := i), hzip]
  · cases hslot : t.bank.slots[i]? with
    | none =>
      rw [ToneBank.voiceAt_eq_default hslot]
      rfl
    | some slot =>
      rw [Option.map_some, Option.filter_some]
      by_cases hplaying : (t.bank.voiceAt i).playing
      · simp [hplaying, hevent hslot hplaying]
      · simp [hplaying]
  · intro k p hk hp
    rw [hzip, Option.map_eq_some_iff] at hk
    obtain ⟨slot, hslot, rfl⟩ := hk
    rw [Bool.and_eq_true, decide_eq_true_eq] at hp
    rw [← hevent hslot hp.2, hp.1]

theorem heard_renderEvents (sink : Sink) (i : Nat) (b : AudioBuffer) :
    ((Sounding.handed sink (t.stream.renderEvents b).1 b).filter (·.1.voice = i)).flatMap
        (·.2.eachFrame) =
      Pace.walk t.source.sampleRate (t.phaseAt i)
        ((t.bank.voiceAt i).paces b.frames b.channels) := by
  have hsounds : (t.stream.renderEvents b).1 =
      ((t.source.playing (t.bank.slots.map (·.voice))).map fun p =>
        (p.1.event, t.source.walk p.1 p.2 b.frames)).map fun s => ⟨s.1, (·.writeFrames s.2)⟩ := by
    rw [List.map_map]
    exact t.source.renderVoices_eq ..
  have hlengths : ∀ s ∈ (t.source.playing (t.bank.slots.map (·.voice))).map fun p =>
      (p.1.event, t.source.walk p.1 p.2 b.frames), s.2.length = b.frames :=
    List.forall_mem_map.mpr fun p _ => t.source.length_walk ..
  have hhanded := Sounding.map_eachFrame_handed sink hlengths
  calc
    _ = (((Sounding.handed sink (t.stream.renderEvents b).1 b).map fun p =>
          (p.1, p.2.eachFrame)).filter (·.1.voice = i)).flatMap (·.2) := by
      rw [List.filter_map, List.flatMap_map]
      rfl
    _ = ((t.source.playing (t.bank.slots.map (·.voice))).filter (·.1.event.voice = i)).flatMap
          fun p => (t.source.walk p.1 p.2 b.frames).map (List.replicate b.channels) := by
      rw [hsounds, hhanded, List.map_map, List.filter_map, List.flatMap_map]
      rfl
    _ = _ := by
      rw [filter_playing hvoiced hphases]
      by_cases hplaying : (t.bank.voiceAt i).playing
      · rw [if_pos hplaying, List.flatMap_singleton, t.source.walk_paces _ hplaying]
      · rw [if_neg hplaying, Voice.paces, if_neg hplaying]
        rfl

theorem phaseAt_renderEvents (i : Nat) (b : AudioBuffer) :
    (t.act (.renderEvents b)).phaseAt i =
      ((t.bank.voiceAt i).paces b.frames b.channels).foldl (Pace.step t.source.sampleRate)
        (t.phaseAt i) := by
  have hnext : (t.act (.renderEvents b)).source.phases =
      ((t.bank.slots.map (·.voice)).zip t.source.phases).map fun p =>
        if p.1.playing then (t.source.turn p.1)^[b.frames] p.2
        else p.2 := t.source.phases_renderVoices ..
  rw [phaseAt, hnext, List.getElem?_map, getElem?_zip hvoiced hphases,
    ToneSource.foldl_paces]
  cases hslot : t.bank.slots[i]? with
  | none =>
    have hi : t.source.phases.length ≤ i := by
      rw [hphases, ← hvoiced.length]
      exact List.getElem?_eq_none_iff.mp hslot
    rw [ToneBank.voiceAt_eq_default hslot, phaseAt, List.getElem?_eq_none hi]
    rfl
  | some slot => rfl

end Tones

/-! What happens to one voice. -/

namespace ToneBank

variable (b : ToneBank) (i : Nat)

theorem voiceAt_withPlaying (event : EventHandle) (playing : Bool) (hvalid : b.isValid event) :
    (b.withPlaying event playing).voiceAt i =
      if event.voice = i then { b.voiceAt i with playing } else b.voiceAt i := by
  unfold voiceAt
  rw [getElem?_withPlaying]
  cases hslot : b.slots[i]? with
  | none =>
    have hvoice : event.voice ≠ i := by
      rintro rfl
      obtain ⟨slot, hheld, -⟩ := isValid_iff.mp hvalid
      rw [hslot] at hheld
      cases hheld
    rw [if_neg hvoice]
    rfl
  | some slot => by_cases hvoice : event.voice = i <;> simp [hvoice]

theorem voiceAt_setPlaying (event : EventHandle) (playing : Bool) :
    (b.leftBy (.setPlaying event playing)).voiceAt i =
      (if b.isValid event ∧ event.voice = i then some (VoiceChange.play playing) else none).elim
        (b.voiceAt i) (b.voiceAt i).act := by
  rw [leftBy_setPlaying]
  by_cases hvalid : b.isValid event
  · rw [if_pos hvalid, voiceAt_withPlaying b i event playing hvalid]
    by_cases hvoice : event.voice = i
    · rw [if_pos hvoice, if_pos ⟨hvalid, hvoice⟩]
      rfl
    · rw [if_neg hvoice, if_neg fun h => hvoice h.2]
      rfl
  · rw [if_neg hvalid, if_neg fun h => hvalid h.1]
    rfl

theorem voiceAt_unload (bank : BankHandle) :
    (b.leftBy (.unload bank)).voiceAt i =
      (if b.vacates i (.unload bank) then some VoiceChange.vacate else none).elim
        (b.voiceAt i) (b.voiceAt i).act := by
  have hvacates : b.vacates i (.unload bank) =
      (b.banks.contains bank && b.slots[i]?.any (·.heldBy bank)) := rfl
  unfold leftBy
  rw [hvacates, BankOperation.unload_eq]
  by_cases hbank : b.banks.contains bank
  · rw [if_pos hbank, hbank, Bool.true_and]
    unfold voiceAt withoutBank
    dsimp only
    rw [List.getElem?_map]
    cases b.slots[i]? with
    | none => rfl
    | some slot => by_cases hheld : slot.heldBy bank <;> simp [hheld, ToneSlot.vacate, Voice.act]
  · rw [if_neg hbank, Bool.eq_false_iff.mpr hbank, Bool.false_and]
    rfl

theorem voiceAt_withBank (specs : List ToneSpec) :
    (b.withBank specs).voiceAt i =
      ((if b.slots[i]?.any (·.isFree) then specs[(b.slots.take i).countP ToneSlot.isFree]?
        else none).map (VoiceChange.hold (.ofVoice i (b.generationAt i)))).elim
        (b.voiceAt i) (b.voiceAt i).act := by
  cases hslot : b.slots[i]? with
  | none =>
    have hleft : (b.withBank specs).slots[i]? = none := by
      rw [List.getElem?_eq_none_iff] at hslot ⊢
      exact (ToneSlot.length_holdAll ..).trans_le hslot
    rw [voiceAt_eq_default hslot, voiceAt_eq_default hleft]
    rfl
  | some slot =>
    rw [voiceAt_eq hslot, generationAt_eq hslot, Option.any_some]
    by_cases hfree : slot.isFree
    · have hleft : (b.withBank specs).slots[i]? = some (specs[_]?.elim slot _) :=
        ToneSlot.getElem?_holdAll_of_free hslot hfree
      rw [if_pos hfree, voiceAt_eq hleft, Nat.zero_add]
      cases specs[(b.slots.take i).countP ToneSlot.isFree]? <;> rfl
    · have hheld : slot.holder.isSome := by
        simpa [ToneSlot.isFree, Option.isSome_iff_ne_none] using hfree
      have hleft : (b.withBank specs).slots[i]? = some slot :=
        ToneSlot.getElem?_holdAll hslot hheld
      rw [if_neg hfree, voiceAt_eq hleft]
      rfl

theorem voiceAt_load {call : BankCall} (hcall : call.isLoad) :
    (b.act call).voiceAt i =
      ((b.placed? i call).map (VoiceChange.hold (.ofVoice i (b.generationAt i)))).elim
        (b.voiceAt i) (b.voiceAt i).act := by
  have hstep := b.step call
  unfold placed?
  generalize b.given? call = given, b.act call = left at hstep
  cases hstep with
  | refused => rfl
  | loaded hspecs =>
    rw [hspecs]
    exact b.voiceAt_withBank i _
  | unloaded | started | stopped | fed => cases hcall

theorem voiceAt_act (call : BankCall) : (b.act call).voiceAt i =
    (b.own? i call).elim (b.voiceAt i) (b.voiceAt i).act := by
  cases call with
  | load text => exact b.voiceAt_load i rfl
  | loadFile content => exact b.voiceAt_load i rfl
  | unload bank => exact b.voiceAt_unload i bank
  | start event => exact b.voiceAt_setPlaying i event true
  | stop event => exact b.voiceAt_setPlaying i event false
  | feed change => rfl

end ToneBank

/-! Runs. -/

theorem Voice.paces_zero (v : Voice) (channels : Nat) : v.paces 0 channels = [] := by
  unfold Voice.paces
  split <;> rfl

theorem Voice.paces_append (v : Voice) (m n channels : Nat) :
    v.paces m channels ++ v.paces n channels = v.paces (m + n) channels := by
  unfold Voice.paces
  split
  · rw [List.replicate_add]
  · rfl

namespace Tones

theorem voiceAt_after (rate : UInt32) (i : Nat) (deeds : List ToneDeed) :
    ((new rate).after deeds).bank.voiceAt i = VoiceDeed.after ((new rate).own i deeds) := by
  induction deeds with
  | nil =>
    show ((List.replicate maxTones ({} : ToneSlot))[i]?.map (·.voice)).getD {} = {}
    rw [List.getElem?_replicate]
    split <;> rfl
  | cons deed past ih =>
    cases deed with
    | call call =>
      apply (ToneBank.voiceAt_act ..).trans
      rw [ih, own, own?]
      cases ((new rate).after past).bank.own? i call <;> rfl
    | captureInput b | renderEvents b => exact ih

theorem paces_eq (rate : UInt32) (i : Nat) (deeds : List ToneDeed) :
    (new rate).paces i deeds = VoiceDeed.paces ((new rate).own i deeds) := by
  induction deeds with
  | nil => rfl
  | cons deed past ih =>
    cases deed with
    | call call =>
      apply ih.trans
      rw [own, own?]
      cases ((new rate).after past).bank.own? i call <;> rfl
    | captureInput b => exact ih
    | renderEvents b =>
      rw [paces, ih, voiceAt_after]
      rfl

theorem sampleRate_after (t : Tones) (deeds : List ToneDeed) :
    (t.after deeds).source.sampleRate = t.source.sampleRate := by
  induction deeds with
  | nil => rfl
  | cons deed past ih =>
    cases deed with
    | call call => exact ih
    | captureInput b =>
      obtain ⟨phase, hphase⟩ := (t.after past).stream.exists_captureInput b
      rw [after, act, hphase]
      exact ih
    | renderEvents b => exact ih

/-- All that is handed over of a voice is one walk, and the voice is where this walk ends. -/
theorem heard_and_phaseAt_after (rate : UInt32) (sink : List ToneDeed → Sink) (i : Nat)
    (deeds : List ToneDeed) :
    (new rate).heard sink i deeds =
        Pace.walk (Sample.ofNat rate.toNat) 0 ((new rate).paces i deeds) ∧
      ((new rate).after deeds).phaseAt i =
        ((new rate).paces i deeds).foldl (Pace.step (Sample.ofNat rate.toNat)) 0 := by
  induction deeds with
  | nil =>
    refine ⟨rfl, ?_⟩
    show (List.replicate maxTones (0 : Sample))[i]?.getD 0 = 0
    rw [List.getElem?_replicate]
    split <;> rfl
  | cons deed past ih =>
    cases deed with
    | call call => exact ih
    | captureInput b =>
      have hkept : ((new rate).after (.captureInput b :: past)).phaseAt i =
          ((new rate).after past).phaseAt i := by
        obtain ⟨phase, hphase⟩ := ((new rate).after past).stream.exists_captureInput b
        rw [after, act, hphase]
        rfl
      exact ⟨ih.1, hkept.trans ih.2⟩
    | renderEvents b =>
      have hvoiced := voiced_after rate past
      have hphases := length_phases_after rate past
      have hrate : ((new rate).after past).source.sampleRate = Sample.ofNat rate.toNat :=
        sampleRate_after ..
      obtain ⟨hheard, hphase⟩ := ih
      refine ⟨?_, ?_⟩
      · rw [heard, paces, heard_renderEvents hvoiced hphases, hheard, Pace.walk_append, hphase,
          hrate]
      · rw [after, paces, phaseAt_renderEvents hvoiced hphases, hphase, hrate, List.foldl_append]

theorem bank_renderEvents (t : Tones) (bs : List AudioBuffer) (past : List ToneDeed) :
    (t.after (bs.map .renderEvents ++ past)).bank = (t.after past).bank := by
  induction bs with
  | nil => rfl
  | cons b bs ih => exact ih

theorem paces_renderEvents (t : Tones) (i : Nat) {bs : List AudioBuffer} {channels : Nat}
    (h : ∀ b ∈ bs, b.channels = channels) (past : List ToneDeed) :
    t.paces i (bs.map .renderEvents ++ past) = t.paces i past ++
      ((t.after past).bank.voiceAt i).paces (bs.map (·.frames)).sum channels := by
  induction bs with
  | nil => rw [List.map_nil, List.map_nil, List.sum_nil, Voice.paces_zero, List.append_nil]; rfl
  | cons b bs ih =>
    rw [List.forall_mem_cons] at h
    rw [List.map_cons, List.cons_append, paces, ih h.2, bank_renderEvents, h.1, List.append_assoc,
      Voice.paces_append, List.map_cons, List.sum_cons, Nat.add_comm]

theorem paces_congr (t : Tones) (i : Nat) {past past' : List ToneDeed}
    (hpaces : t.paces i past = t.paces i past')
    (hbank : (t.after past).bank = (t.after past').bank) (later : List ToneDeed) :
    t.paces i (later ++ past) = t.paces i (later ++ past') := by
  have hlater (later : List ToneDeed) :
      (t.after (later ++ past)).bank = (t.after (later ++ past')).bank := by
    rw [bank_after, bank_after] at *
    rw [List.filterMap_append, List.filterMap_append, ToneBank.after_append,
      ToneBank.after_append, hbank]
  induction later with
  | nil => exact hpaces
  | cons deed later ih =>
    cases deed with
    | call call | captureInput b => exact ih
    | renderEvents b => rw [List.cons_append, List.cons_append, paces, paces, ih, hlater]

structure SingleWalk (rate : UInt32) (sink : List ToneDeed → Sink) (i : Nat)
    (deeds : List ToneDeed) : Prop where
  walk : (new rate).heard sink i deeds =
    Pace.walk (Sample.ofNat rate.toNat) 0 ((new rate).paces i deeds)
  own : (new rate).paces i deeds = VoiceDeed.paces ((new rate).own i deeds)
  /-- Nor have the sinks, nor the buffers that the frames are rendered in. -/
  split : ∀ (sink' : List ToneDeed → Sink) (later past : List ToneDeed) (whole : AudioBuffer)
    (parts : List AudioBuffer), deeds = later ++ .renderEvents whole :: past →
      (∀ part ∈ parts, part.channels = whole.channels) →
      (parts.map (·.frames)).sum = whole.frames →
      (new rate).heard sink' i (later ++ (parts.map .renderEvents ++ past)) =
        (new rate).heard sink i deeds

/-- Whatever is done to a registry, and however its tones are rendered, each voice is heard as one
walk. -/
theorem voice_walks (rate : UInt32) (sink : List ToneDeed → Sink) (i : Nat)
    (deeds : List ToneDeed) : SingleWalk rate sink i deeds where
  walk := (heard_and_phaseAt_after rate sink i deeds).1
  own := paces_eq rate i deeds
  split sink' later past whole parts hdeeds hchannels hframes := by
    have hpaces : (new rate).paces i (parts.map .renderEvents ++ past) =
        (new rate).paces i (.renderEvents whole :: past) := by
      rw [paces_renderEvents _ i hchannels, hframes, paces]
    rw [(heard_and_phaseAt_after rate sink' i _).1, (heard_and_phaseAt_after rate sink i _).1,
      hdeeds, paces_congr _ i hpaces (bank_renderEvents _ parts past)]

def smear (x : Sample) : Sink where
  leave _ b := b.fill x
  shape_leave _ _ := AudioBuffer.shape_write ..

def humming : List ToneDeed :=
  [.renderEvents ⟨[0, 0, 0, 0, 0, 0, 0], 2⟩, .call (.start ⟨0⟩), .call (.load ToneBank.hum)]

theorem voice_walks_humming :
    SingleWalk 880 (fun _ => smear 1) 0 humming ∧
    (new 880).paces 0 humming = [⟨110, 0.5, 2⟩, ⟨110, 0.5, 2⟩, ⟨110, 0.5, 2⟩] ∧
    (new 880).heard (fun _ => smear 1) 0 humming = [[0, 0], [0.35355338, 0.35355338], [0.5, 0.5]] ∧
    (new 880).heard (fun _ => smear 0) 0
        [.renderEvents ⟨[0, 0], 2⟩, .renderEvents ⟨[0, 0, 0, 0, 0], 2⟩, .call (.start ⟨0⟩),
          .call (.load ToneBank.hum)] =
      (new 880).heard (fun _ => smear 1) 0 humming := by
  have hwalk := voice_walks 880 (fun _ => smear 1) 0 humming
  exact ⟨hwalk, by decide +kernel, by decide +kernel, hwalk.split (fun _ => smear 0) [] _ _
    [⟨[0, 0], 2⟩, ⟨[0, 0, 0, 0, 0], 2⟩] rfl (by decide) (by decide)⟩

end Tones

end Patchbay

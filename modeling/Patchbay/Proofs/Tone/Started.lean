import Patchbay.Proofs.Tone.Expiry
import Patchbay.Proofs.Tone.Sine

/-! Which events sound. A voice has one flag for all the events that come to hold it, and loading
leaves it as it is. Since a voice without an event is silent, and a stale handle can neither start
nor stop it, the flag says all the same what was last said about the event that holds the voice. -/

namespace Patchbay

namespace ToneBank

def plays (b : ToneBank) (h : EventHandle) : Bool := b.slots[h.voice]?.any (·.voice.playing)

def loads (b : ToneBank) (h : EventHandle) (call : BankCall) : Bool :=
  !b.isValid h && (b.act call).isValid h

/-- What a call says about an event if it succeeds: that it is to play, or that it is not. -/
def said? (b : ToneBank) (h : EventHandle) : BankCall → Option Bool
  | .start event => if event = h then (b.answer? (.start event)).map fun _ => true else none
  | .stop event => if event = h then (b.answer? (.stop event)).map fun _ => false else none
  | _ => none

/-- Whether the last that was said about an event in a run, since it was loaded, is that it is to
play. -/
def started (b : ToneBank) (h : EventHandle) : List BankCall → Bool
  | [] => false
  | call :: past =>
    !(b.after past).loads h call && ((b.after past).said? h call).getD (b.started h past)

variable {b : ToneBank} {h : EventHandle}

theorem plays_eq {slot : ToneSlot} (hslot : b.slots[h.voice]? = some slot) :
    b.plays h = slot.voice.playing := by
  rw [plays, hslot, Option.any_some]

/-! What calls do to the flags. -/

theorem getElem?_withPlaying (b : ToneBank) (event : EventHandle) (playing : Bool) (i : Nat) :
    (b.withPlaying event playing).slots[i]? = b.slots[i]?.map fun slot =>
      if event.voice = i then { slot with voice.playing := playing } else slot := by
  rw [withPlaying, List.getElem?_modify]
  split <;> simp

theorem isValid_withPlaying (b : ToneBank) (event : EventHandle) (playing : Bool) :
    (b.withPlaying event playing).isValid h = b.isValid h := by
  unfold isValid
  rw [getElem?_withPlaying]
  cases b.slots[h.voice]? with
  | none => rfl
  | some slot => by_cases hvoice : event.voice = h.voice <;> simp [hvoice, ToneSlot.isFree]

theorem eq_of_voice {event : EventHandle} (h₁ : b.isValid event) (h₂ : b.isValid h)
    (hvoice : event.voice = h.voice) : event = h := by
  obtain ⟨slot, hslot, -, hgeneration⟩ := isValid_iff.mp h₁
  obtain ⟨slot', hslot', -, hgeneration'⟩ := isValid_iff.mp h₂
  rw [hvoice, hslot', Option.some.injEq] at hslot
  rw [← event.ofVoice_voice, ← h.ofVoice_voice, hvoice, ← hgeneration, ← hgeneration', hslot]

theorem plays_withPlaying {event : EventHandle} (hevent : b.isValid event) (hvalid : b.isValid h)
    (playing : Bool) :
    (b.withPlaying event playing).plays h = if event = h then playing else b.plays h := by
  obtain ⟨slot, hslot, -⟩ := isValid_iff.mp hvalid
  unfold plays
  rw [getElem?_withPlaying, hslot]
  by_cases heq : event = h
  · simp [heq]
  · have hvoice : event.voice ≠ h.voice := fun hvoice => heq (eq_of_voice hevent hvalid hvoice)
    simp [heq, hvoice]

theorem isValid_withBank (hvalid : b.isValid h) (specs : List ToneSpec) :
    (b.withBank specs).isValid h := by
  obtain ⟨slot, hslot, hheld, hgeneration⟩ := isValid_iff.mp hvalid
  exact isValid_iff.mpr ⟨slot, ToneSlot.getElem?_holdAll hslot hheld, hheld, hgeneration⟩

theorem isValid_act (hvalid : b.isValid h) {call : BankCall} (hcall : ∀ bank, call ≠ .unload bank) :
    (b.act call).isValid h := by
  have hstep := b.step call
  generalize b.given? call = given, b.act call = left at hstep
  cases hstep with
  | refused => exact hvalid
  | loaded => exact isValid_withBank hvalid _
  | unloaded => exact absurd rfl (hcall _)
  | started => exact (isValid_withPlaying ..).trans hvalid
  | stopped => exact (isValid_withPlaying ..).trans hvalid
  | fed => exact hvalid

theorem plays_withBank (b : ToneBank) (h : EventHandle) (specs : List ToneSpec) :
    (b.withBank specs).plays h = b.plays h := by
  have hflags := ToneSlot.map_holdAll (f := (·.voice.playing)) (fun _ _ _ _ => rfl)
    ⟨b.nextBank⟩ 0 b.slots specs
  have hany (slots : List ToneSlot) : slots[h.voice]?.any (·.voice.playing) =
      (slots.map (·.voice.playing))[h.voice]?.any id := by
    rw [List.getElem?_map, Option.any_map]
    rfl
  unfold plays
  rw [hany, hany]
  exact congrArg (·[h.voice]?.any id) hflags

theorem Voiced.plays_of_loaded (hb : b.Voiced) {specs : List ToneSpec}
    (hbefore : b.isValid h = false) (hvalid : (b.withBank specs).isValid h) :
    b.plays h = false := by
  obtain ⟨held, hheld, -, hgeneration⟩ := isValid_iff.mp hvalid
  have hgenerations := congrArg (·[h.voice]?)
    (ToneSlot.generation_holdAll ⟨b.nextBank⟩ 0 b.slots specs)
  simp only [List.getElem?_map] at hgenerations
  rw [show (ToneSlot.holdAll ⟨b.nextBank⟩ 0 b.slots specs)[h.voice]? = some held from hheld,
    Option.map_some, eq_comm, Option.map_eq_some_iff] at hgenerations
  obtain ⟨slot, hslot, heq⟩ := hgenerations
  rw [plays_eq hslot]
  apply (hb.voiced _ slot hslot).silent
  rw [← Option.not_isSome_iff_eq_none]
  intro hsome
  rw [isValid_iff.mpr ⟨slot, hslot, hsome, heq.trans hgeneration⟩] at hbefore
  cases hbefore

theorem isValid_of_withoutBank {bank : BankHandle} (hvalid : (b.withoutBank bank).isValid h) :
    b.isValid h ∧ (b.withoutBank bank).plays h = b.plays h := by
  obtain ⟨left, hleft, hheld, hgeneration⟩ := isValid_iff.mp hvalid
  have hmap : (b.withoutBank bank).slots[h.voice]? = b.slots[h.voice]?.map fun slot =>
      if slot.heldBy bank then slot.vacate else slot := List.getElem?_map
  rw [hmap, Option.map_eq_some_iff] at hleft
  obtain ⟨slot, hslot, rfl⟩ := hleft
  by_cases hbank : slot.heldBy bank
  · simp [hbank, ToneSlot.vacate] at hheld
  · rw [if_neg hbank] at hheld hgeneration
    refine ⟨isValid_iff.mpr ⟨slot, hslot, hheld, hgeneration⟩, ?_⟩
    unfold plays
    rw [hmap, hslot, Option.map_some, if_neg hbank]

theorem answer?_setPlaying (b : ToneBank) (event : EventHandle) (playing : Bool) :
    b.answer? (.setPlaying event playing) = if b.isValid event then some () else none := by
  unfold answer?
  rw [BankOperation.setPlaying_eq]
  by_cases hevent : b.isValid event <;> simp [hevent]

theorem leftBy_setPlaying (b : ToneBank) (event : EventHandle) (playing : Bool) :
    b.leftBy (.setPlaying event playing) =
      if b.isValid event then b.withPlaying event playing else b := by
  unfold leftBy
  rw [BankOperation.setPlaying_eq]
  by_cases hevent : b.isValid event <;> simp [hevent]

theorem plays_setPlaying (event : EventHandle) (playing : Bool)
    (hvalid : (b.leftBy (.setPlaying event playing)).isValid h) :
    b.isValid h ∧ (b.leftBy (.setPlaying event playing)).plays h =
      ((if event = h then (b.answer? (.setPlaying event playing)).map fun _ => playing
        else none).getD (b.plays h)) := by
  rw [leftBy_setPlaying] at *
  rw [answer?_setPlaying]
  by_cases hevent : b.isValid event
  · rw [if_pos hevent] at *
    rw [isValid_withPlaying] at hvalid
    rw [plays_withPlaying hevent hvalid, if_pos hevent]
    exact ⟨hvalid, by split <;> rfl⟩
  · rw [if_neg hevent] at *
    rw [if_neg hevent]
    exact ⟨hvalid, by split <;> rfl⟩

theorem loads_of_isValid (hvalid : b.isValid h) (call : BankCall) : b.loads h call = false := by
  simp [loads, hvalid]

theorem Voiced.plays_of_unsaid (hb : b.Voiced) {call : BankCall}
    (hunsaid : ∀ event, call ≠ .start event ∧ call ≠ .stop event)
    (hvalid : (b.act call).isValid h) :
    (b.act call).plays h = (!b.loads h call && b.plays h) := by
  have hkept (hbefore : b.isValid h) (hplays : (b.act call).plays h = b.plays h) :
      (b.act call).plays h = (!b.loads h call && b.plays h) := by
    rw [loads_of_isValid hbefore, hplays]
    rfl
  have hstep := b.step call
  generalize b.given? call = given at hstep
  generalize hact : b.act call = left at *
  cases hstep with
  | refused => exact hkept hvalid rfl
  | loaded =>
    cases hbefore : b.isValid h with
    | true => exact hkept hbefore (plays_withBank ..)
    | false =>
      have hloads : b.loads h call = true := by simp [loads, hbefore, hact, hvalid]
      rw [hloads, plays_withBank, hb.plays_of_loaded hbefore hvalid]
      rfl
  | unloaded =>
    obtain ⟨hbefore, hplays⟩ := isValid_of_withoutBank hvalid
    exact hkept hbefore hplays
  | started => exact absurd rfl (hunsaid _).1
  | stopped => exact absurd rfl (hunsaid _).2
  | fed => exact hkept hvalid rfl

theorem Voiced.plays_act (hb : b.Voiced) (call : BankCall) (hvalid : (b.act call).isValid h) :
    (b.act call).plays h = (!b.loads h call && (b.said? h call).getD (b.plays h)) := by
  cases call with
  | start event =>
    obtain ⟨hbefore, hplays⟩ := plays_setPlaying event true hvalid
    rw [loads_of_isValid hbefore]
    exact hplays
  | stop event =>
    obtain ⟨hbefore, hplays⟩ := plays_setPlaying event false hvalid
    rw [loads_of_isValid hbefore]
    exact hplays
  | load text | loadFile content | unload bank | feed change =>
    exact hb.plays_of_unsaid (fun _ => ⟨nofun, nofun⟩) hvalid

/-- An event that is there plays just when the last that was said about it since it was loaded is
that it is to play. -/
theorem plays_after (rate : UInt32) (calls : List BankCall) {h : EventHandle}
    (hvalid : ((new rate).after calls).isValid h) :
    ((new rate).after calls).plays h = (new rate).started h calls := by
  induction calls with
  | nil =>
    obtain ⟨slot, hslot, hheld, -⟩ := isValid_iff.mp hvalid
    obtain rfl := List.eq_of_mem_replicate (List.mem_of_getElem? hslot)
    cases hheld
  | cons call past ih =>
    rw [after, started, (Reachable.voiced ⟨rate, past, rfl⟩).plays_act call hvalid]
    cases hloads : ((new rate).after past).loads h call with
    | true => rfl
    | false =>
      have hbefore : ((new rate).after past).isValid h := by
        have hvalid' : (((new rate).after past).act call).isValid h := hvalid
        simpa [loads, hvalid'] using hloads
      rw [ih hbefore]

theorem started_of_loaded {later past : List BankCall} {call : BankCall}
    (hloads : (b.after past).loads h call) (hlater : .start h ∉ later) :
    b.started h (later ++ call :: past) = false := by
  induction later with
  | nil => rw [List.nil_append, started, hloads]; rfl
  | cons next later ih =>
    rw [List.mem_cons, not_or] at hlater
    rw [List.cons_append, started, ih hlater.2]
    cases next with
    | start event =>
      have hne : event ≠ h := fun heq => hlater.1 (heq ▸ rfl)
      simp [said?, hne]
    | stop event =>
      have hfalse (o : Option Unit) : (o.map fun _ => false).getD false = false := by
        cases o <;> rfl
      by_cases hevent : event = h <;> simp [said?, hevent, hfalse]
    | load text | loadFile content | unload bank | feed change => simp [said?]

/-! The events of a buffer. -/

theorem Voiced.mem_playing (hb : b.Voiced) : h ∈ b.playing ↔ b.isValid h ∧ b.plays h := by
  unfold playing
  simp only [List.mem_map, List.mem_filter]
  constructor
  · rintro ⟨_, ⟨⟨slot, hslot, rfl⟩, hplaying⟩, rfl⟩
    obtain ⟨i, hi⟩ := List.mem_iff_getElem?.mp hslot
    have hheld := (hb.voiced i slot hi).isSome_holder hplaying
    have hplace : b.slots[slot.voice.event.voice]? = some slot := by
      rw [hb.voice_event hi hplaying]
      exact hi
    have hgeneration : slot.generation = slot.voice.event.generation := by
      rw [(hb.voiced i slot hi).event hheld, EventHandle.generation_ofVoice _ (hb.index_lt hi)]
    exact ⟨isValid_iff.mpr ⟨slot, hplace, hheld, hgeneration⟩, (plays_eq hplace).trans hplaying⟩
  · rintro ⟨hvalid, hplays⟩
    obtain ⟨slot, hslot, hheld, hgeneration⟩ := isValid_iff.mp hvalid
    rw [plays_eq hslot] at hplays
    refine ⟨slot.voice, ⟨⟨slot, List.mem_of_getElem? hslot, rfl⟩, hplays⟩, ?_⟩
    rw [(hb.voiced _ slot hslot).event hheld, hgeneration, EventHandle.ofVoice_voice]

end ToneBank

namespace ToneStream

theorem events_renderEvents (t : ToneStream) (b : AudioBuffer) :
    (t.renderEvents b).1.map (·.event) =
      (((t.voices.zip t.source.phases).map Prod.fst).filter (·.playing)).map (·.event) := by
  simp [renderEvents, ToneSource.renderVoices_eq, ToneSource.playing, List.filter_map,
    Function.comp_def]

end ToneStream

structure Tones where
  bank : ToneBank
  source : ToneSource

inductive ToneDeed
  | call (call : BankCall)
  | captureInput (buffer : AudioBuffer)
  | renderEvents (buffer : AudioBuffer)

def ToneDeed.call? : ToneDeed → Option BankCall
  | .call made => some made
  | _ => none

namespace Tones

def new (rate : UInt32) : Tones := ⟨.new rate, .new rate⟩

def stream (t : Tones) : ToneStream := t.bank.stream t.source

def act (t : Tones) : ToneDeed → Tones
  | .call call => { t with bank := t.bank.act call }
  | .captureInput buffer => { t with source := (t.stream.captureInput buffer).2.source }
  | .renderEvents buffer => { t with source := (t.stream.renderEvents buffer).2.source }

def after (t : Tones) : List ToneDeed → Tones
  | [] => t
  | deed :: past => (t.after past).act deed

def events (t : Tones) (buffer : AudioBuffer) : List EventHandle :=
  (t.stream.renderEvents buffer).1.map (·.event)

theorem bank_after (t : Tones) (deeds : List ToneDeed) :
    (t.after deeds).bank = t.bank.after (deeds.filterMap ToneDeed.call?) := by
  induction deeds with
  | nil => rfl
  | cons deed past ih =>
    cases deed with
    | call call => exact congrArg (ToneBank.act · call) ih
    | captureInput buffer | renderEvents buffer => exact ih

theorem voiced_after (rate : UInt32) (deeds : List ToneDeed) :
    ((new rate).after deeds).bank.Voiced := by
  rw [bank_after]
  exact ToneBank.Reachable.voiced ⟨rate, _, rfl⟩

theorem length_phases_after (rate : UInt32) (deeds : List ToneDeed) :
    ((new rate).after deeds).source.phases.length = maxTones := by
  induction deeds with
  | nil => rfl
  | cons deed past ih =>
    cases deed with
    | call call => exact ih
    | captureInput buffer =>
      rw [after, act, ToneStream.captureInput]
      split <;> exact ih
    | renderEvents buffer =>
      have hvoiced := voiced_after rate past
      simp [after, act, stream, ToneStream.renderEvents, ToneSource.renderVoices, ToneBank.stream,
        ih, hvoiced.length]

theorem events_after (rate : UInt32) (deeds : List ToneDeed) (buffer : AudioBuffer) :
    ((new rate).after deeds).events buffer = ((new rate).after deeds).bank.playing := by
  have hlength : (((new rate).after deeds).bank.slots.map (·.voice)).length ≤
      ((new rate).after deeds).source.phases.length := by
    rw [List.length_map, (voiced_after rate deeds).length, length_phases_after]
  unfold events
  rw [ToneStream.events_renderEvents]
  exact congrArg (fun voices => (voices.filter (·.playing)).map (·.event))
    (List.map_fst_zip hlength)

structure RendersStarted (t : Tones) (rate : UInt32) (calls : List BankCall)
    (buffer : AudioBuffer) : Prop where
  mem : ∀ h, h ∈ t.events buffer ↔ t.bank.isValid h ∧ (ToneBank.new rate).started h calls
  ascending : ((t.events buffer).map EventHandle.voice).Pairwise (· < ·)
  resolves : ∀ h ∈ t.events buffer, ∃ (slot : ToneSlot) (id : String) (bank : BankHandle),
    t.bank.slots[h.voice]? = some slot ∧ slot.holder = some (id, bank) ∧
      t.bank.eventHandle id = .ok h
  /-- An event that was loaded is silent until it is started, whatever its voice did before. -/
  silent : ∀ h later call past, calls = later ++ call :: past →
    ((ToneBank.new rate).after past).loads h call → .start h ∉ later → h ∉ t.events buffer

/-- Whatever calls are made and buffers rendered, each buffer is rendered from the events that were
started since they were loaded, and not stopped. -/
theorem renders_started (rate : UInt32) (deeds : List ToneDeed) (buffer : AudioBuffer) :
    ((new rate).after deeds).RendersStarted rate (deeds.filterMap ToneDeed.call?) buffer := by
  have hvoiced := voiced_after rate deeds
  have hevents := events_after rate deeds buffer
  have hbank : ((new rate).after deeds).bank =
      (ToneBank.new rate).after (deeds.filterMap ToneDeed.call?) := bank_after ..
  have hmem (h : EventHandle) : h ∈ ((new rate).after deeds).events buffer ↔
      ((new rate).after deeds).bank.isValid h ∧
        (ToneBank.new rate).started h (deeds.filterMap ToneDeed.call?) := by
    rw [hevents, hvoiced.mem_playing]
    refine and_congr_right fun hvalid => ?_
    rw [hbank] at hvalid ⊢
    rw [ToneBank.plays_after rate _ hvalid]
  refine ⟨hmem, ?_, fun h hh => ?_, fun h later call past hcalls hloads hlater hh => ?_⟩
  · rw [hevents]
    exact hvoiced.pairwise_playing
  · have hvalid := ((hmem h).mp hh).1
    obtain ⟨slot, hslot, hheld, hgeneration⟩ := ToneBank.isValid_iff.mp hvalid
    obtain ⟨⟨id, bank⟩, hheld⟩ := Option.isSome_iff_exists.mp hheld
    refine ⟨slot, id, bank, hslot, hheld, ?_⟩
    have hkeeps := ToneBank.keeps_after rate (deeds.filterMap ToneDeed.call?)
    rw [← hbank] at hkeeps
    have hid := (hkeeps.eventHandle_held hvoiced hslot).mpr ⟨bank, hheld⟩
    rwa [hgeneration, EventHandle.ofVoice_voice] at hid
  · have hstarted := ((hmem h).mp hh).2
    rw [hcalls, ToneBank.started_of_loaded hloads hlater] at hstarted
    cases hstarted

def takeover : List ToneDeed :=
  [.call (.load ToneBank.hum), .call (.unload ⟨0⟩), .renderEvents ⟨[0, 0], 1⟩,
    .call (.start ⟨0⟩), .call (.load ToneBank.hum)]

theorem renders_started_takeover :
    ((new 44100).after takeover).bank.eventHandle "hum" = .ok ⟨65536⟩ ∧
    ⟨65536⟩ ∉ ((new 44100).after takeover).events ⟨[0, 0], 1⟩ ∧
    ⟨65536⟩ ∈ ((new 44100).after (.call (.start ⟨65536⟩) :: takeover)).events ⟨[0, 0], 1⟩ := by
  have hloads : ((ToneBank.new 44100).after
      [.unload ⟨0⟩, .start ⟨0⟩, .load ToneBank.hum]).loads ⟨65536⟩ (.load ToneBank.hum) := by
    decide +kernel
  have hbefore := renders_started 44100 takeover ⟨[0, 0], 1⟩
  have hafter := renders_started 44100 (.call (.start ⟨65536⟩) :: takeover) ⟨[0, 0], 1⟩
  refine ⟨by decide +kernel, hbefore.silent _ [] _ _ rfl hloads List.not_mem_nil, ?_⟩
  exact (hafter.mem _).mpr (by decide +kernel)

end Tones

end Patchbay

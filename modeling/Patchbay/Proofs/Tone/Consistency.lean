import Patchbay.Proofs.Tone.Directory

/-! The registry stands for what is loaded. A voice is held as long as one id resolves to its
handle, ids that resolve are those of the files of loaded banks, and a bank can be unloaded when a
call of the run loaded it and none unloaded it since. This is said of the slots, and of the parts
that holders, ids and banks are kept in apart. -/

namespace Patchbay

namespace ToneBank

/-! What handles and ids stand for. -/

theorem eventHandle_eq_ok {b : ToneBank} (hids : (b.holders.map Prod.fst).Nodup) {id : String}
    {h : EventHandle} :
    b.eventHandle id = .ok h ↔ ∃ (i : Nat) (slot : ToneSlot) (bank : BankHandle),
      b.slots[i]? = some slot ∧ slot.holder = some (id, bank) ∧ h = .ofVoice i slot.generation := by
  rw [← handle?_eq_some hids]
  unfold eventHandle
  cases b.handle? id <;> simp

theorem eventHandle_eq_error {b : ToneBank} {id : String} :
    b.eventHandle id = .error (.notFound id) ↔ id ∉ b.holders.map Prod.fst := by
  rw [← isSome_find?]
  unfold eventHandle handle?
  cases b.find? id <;> simp

theorem eventHandle_congr {b left : ToneBank} (hids : (b.holders.map Prod.fst).Nodup)
    (hleft : (left.holders.map Prod.fst).Nodup) {id : String}
    (hheld : ∀ (i : Nat) (slot : ToneSlot) (bank : BankHandle), b.slots[i]? = some slot →
      slot.holder = some (id, bank) → left.slots[i]? = some slot)
    (hnew : id ∈ left.holders.map Prod.fst → id ∈ b.holders.map Prod.fst) :
    left.eventHandle id = b.eventHandle id := by
  by_cases hmem : id ∈ b.holders.map Prod.fst
  · obtain ⟨⟨_, bank⟩, hholds, rfl⟩ := List.mem_map.mp hmem
    obtain ⟨i, slot, hslot, hholder⟩ := mem_holders.mp hholds
    have hsame := hheld i slot bank hslot hholder
    rw [(eventHandle_eq_ok hids).mpr ⟨i, slot, bank, hslot, hholder, rfl⟩,
      (eventHandle_eq_ok hleft).mpr ⟨i, slot, bank, hsame, hholder, rfl⟩]
  · rw [eventHandle_eq_error.mpr hmem, eventHandle_eq_error.mpr (mt hnew hmem)]

theorem isValid_iff {b : ToneBank} {h : EventHandle} : b.isValid h ↔ ∃ slot : ToneSlot,
    b.slots[h.voice]? = some slot ∧ slot.holder.isSome ∧ slot.generation = h.generation := by
  unfold isValid
  cases b.slots[h.voice]? with
  | none => simp
  | some slot => simp [ToneSlot.isFree, Option.isSome_iff_ne_none]

theorem Voiced.index_lt {b : ToneBank} (h : b.Voiced) {i : Nat} {slot : ToneSlot}
    (hi : b.slots[i]? = some slot) : i < 2 ^ 16 :=
  Nat.lt_trans (h.length ▸ (List.getElem?_eq_some_iff.mp hi).1) (by decide)

theorem length_holders (b : ToneBank) :
    b.holders.length = b.slots.countP fun slot => !slot.isFree := by
  unfold holders
  rw [List.length_filterMap_eq_countP]
  congr
  funext slot
  cases hheld : slot.holder <;> simp [ToneSlot.isFree, hheld]

structure Consistent (b : ToneBank) (l : Ledger) : Prop where
  held : ∀ (i : Nat) (slot : ToneSlot), b.slots[i]? = some slot →
    (slot.holder.isSome ↔ ∃! id, b.eventHandle id = .ok (.ofVoice i slot.generation))
  voice : ∀ (i : Nat) (slot : ToneSlot), b.slots[i]? = some slot → slot.holder.isSome →
    slot.voice.event = .ofVoice i slot.generation
  valid : ∀ h : EventHandle, b.isValid h ↔ ∃ id, b.eventHandle id = .ok h
  distinct : ∀ (id id' : String) (h : EventHandle),
    b.eventHandle id = .ok h → b.eventHandle id' = .ok h → id = id'
  loaded : ∀ slot ∈ b.slots, ∀ held, slot.holder = some held → held.2 ∈ b.banks
  events : ∀ (id : String) (bank : BankHandle),
    (∃ (h : EventHandle) (slot : ToneSlot), b.eventHandle id = .ok h ∧
      b.slots[h.voice]? = some slot ∧ slot.holder = some (id, bank)) ↔
      ∃ specs, (bank, specs) ∈ l ∧ id ∈ specs.map (·.id)
  count : b.slots.countP (fun slot => !slot.isFree) = (l.map (·.2.length)).sum
  room : (l.map (·.2.length)).sum ≤ maxTones
  unload : ∀ bank, (∃ left, BankOperation.unload bank b = .ok () left) ↔ bank ∈ l.map Prod.fst

theorem Keeps.eventHandle_held {b : ToneBank} {l : Ledger} (h : b.Keeps l) (hvoiced : b.Voiced)
    {i : Nat} {slot : ToneSlot} (hi : b.slots[i]? = some slot) {id : String} :
    b.eventHandle id = .ok (.ofVoice i slot.generation) ↔
      ∃ bank, slot.holder = some (id, bank) := by
  rw [eventHandle_eq_ok h.ids]
  constructor
  · rintro ⟨j, slot', bank, hj, hheld, heq⟩
    have hvoice := congrArg EventHandle.voice heq
    rw [EventHandle.voice_ofVoice _ (hvoiced.index_lt hi),
      EventHandle.voice_ofVoice _ (hvoiced.index_lt hj)] at hvoice
    subst hvoice
    obtain rfl := Option.some.inj (hi.symm.trans hj)
    exact ⟨bank, hheld⟩
  · rintro ⟨bank, hheld⟩
    exact ⟨i, slot, bank, hi, hheld, rfl⟩

theorem Keeps.isValid_iff_eventHandle {b : ToneBank} {l : Ledger} (h : b.Keeps l)
    (hvoiced : b.Voiced) (event : EventHandle) :
    b.isValid event ↔ ∃ id, b.eventHandle id = .ok event := by
  rw [isValid_iff]
  constructor
  · rintro ⟨slot, hi, hheld, hgeneration⟩
    obtain ⟨held, hheld⟩ := Option.isSome_iff_exists.mp hheld
    refine ⟨held.1, (eventHandle_eq_ok h.ids).mpr ⟨_, slot, held.2, hi, hheld, ?_⟩⟩
    rw [hgeneration, EventHandle.ofVoice_voice]
  · rintro ⟨id, hid⟩
    obtain ⟨i, slot, bank, hi, hheld, rfl⟩ := (eventHandle_eq_ok h.ids).mp hid
    have hlt := hvoiced.index_lt hi
    rw [EventHandle.voice_ofVoice _ hlt, EventHandle.generation_ofVoice _ hlt]
    exact ⟨slot, hi, hheld ▸ rfl, rfl⟩

theorem Keeps.mem_holders_iff {b : ToneBank} {l : Ledger} (h : b.Keeps l) {id : String}
    {bank : BankHandle} :
    (id, bank) ∈ b.holders ↔ ∃ specs, (bank, specs) ∈ l ∧ id ∈ specs.map (·.id) := by
  rw [h.holders.mem_iff, Ledger.holders, List.mem_flatMap]
  simp only [List.mem_map, Prod.mk.injEq, Prod.exists]
  grind

theorem Keeps.consistent {b : ToneBank} {l : Ledger} (h : b.Keeps l) (hvoiced : b.Voiced) :
    b.Consistent l where
  held i slot hi := by
    simp only [h.eventHandle_held hvoiced hi]
    constructor
    · intro hheld
      obtain ⟨held, hheld⟩ := Option.isSome_iff_exists.mp hheld
      refine ⟨held.1, ⟨held.2, hheld⟩, ?_⟩
      rintro id ⟨bank, hid⟩
      rw [Option.some.inj (hheld.symm.trans hid)]
    · rintro ⟨id, ⟨bank, hheld⟩, -⟩
      exact hheld ▸ rfl
  voice i slot hi := (hvoiced.voiced i slot hi).event
  valid := h.isValid_iff_eventHandle hvoiced
  distinct id id' event hid hid' := by
    obtain ⟨i, slot, bank, hi, hheld, rfl⟩ := (eventHandle_eq_ok h.ids).mp hid
    obtain ⟨bank', hheld'⟩ := (h.eventHandle_held hvoiced hi).mp hid'
    exact congrArg Prod.fst (Option.some.inj (hheld.symm.trans hheld'))
  loaded slot hslot held hheld := by
    have hmem : held ∈ b.holders := List.mem_filterMap.mpr ⟨slot, hslot, hheld⟩
    obtain ⟨specs, hspecs, -⟩ := h.mem_holders_iff.mp hmem
    rw [h.banks]
    exact List.mem_map_of_mem hspecs
  events id bank := by
    rw [← h.mem_holders_iff, mem_holders]
    constructor
    · rintro ⟨event, slot, -, hi, hheld⟩
      exact ⟨_, slot, hi, hheld⟩
    · rintro ⟨i, slot, hi, hheld⟩
      refine ⟨.ofVoice i slot.generation, slot, ?_, ?_, hheld⟩
      · exact (h.eventHandle_held hvoiced hi).mpr ⟨bank, hheld⟩
      · rw [EventHandle.voice_ofVoice _ (hvoiced.index_lt hi)]
        exact hi
  count := by
    rw [← length_holders, h.holders.length_eq, Ledger.length_holders]
  room := by
    rw [← Ledger.length_holders, ← h.holders.length_eq, length_holders, ← hvoiced.length]
    exact List.countP_le_length
  unload bank := by
    rw [BankOperation.unload_eq, ← h.banks]
    by_cases hbank : bank ∈ b.banks <;> simp [hbank]

theorem Reachable.consistent {b : ToneBank} (h : b.Reachable) : ∃ l, b.Consistent l := by
  obtain ⟨rate, calls, rfl⟩ := h
  exact ⟨_, (keeps_after rate calls).consistent (Reachable.voiced ⟨rate, calls, rfl⟩)⟩

end ToneBank

namespace ToneDirectory

structure Consistent (d : ToneDirectory) (l : Ledger) : Prop where
  lengths : d.holders.length = maxTones ∧ d.generations.length = maxTones ∧
    d.voices.length = maxTones
  held : ∀ (i : Nat) (holder : Option (String × BankHandle)) (generation : UInt16),
    d.holders[i]? = some holder → d.generations[i]? = some generation →
      (holder.isSome ↔ ∃! id, d.eventHandle id = .ok (.ofVoice i generation))
  voice : ∀ (i : Nat) (held : String × BankHandle) (generation : UInt16) (voice : Voice),
    d.holders[i]? = some (some held) → d.generations[i]? = some generation →
      d.voices[i]? = some voice → voice.event = .ofVoice i generation
  valid : ∀ h : EventHandle, d.isValid h ↔ ∃ id, d.eventHandle id = .ok h
  distinct : ∀ (id id' : String) (h : EventHandle),
    d.eventHandle id = .ok h → d.eventHandle id' = .ok h → id = id'
  loaded : ∀ held, some held ∈ d.holders → d.banks held.2
  events : ∀ (id : String) (bank : BankHandle),
    (∃ h : EventHandle, d.eventHandle id = .ok h ∧
      d.holders[h.voice]? = some (some (id, bank))) ↔
      ∃ specs, (bank, specs) ∈ l ∧ id ∈ specs.map (·.id)
  banks : ∀ bank, d.banks bank ↔ bank ∈ l.map Prod.fst
  count : d.holders.countP Option.isSome = (l.map (·.2.length)).sum
  room : (l.map (·.2.length)).sum ≤ maxTones
  unload : ∀ bank, (∃ left, unload bank d = .ok () left) ↔ bank ∈ l.map Prod.fst

theorem Mirrors.consistent {d : ToneDirectory} {b : ToneBank} {l : Ledger} (h : d.Mirrors b)
    (hkeeps : b.Keeps l) (hvoiced : b.Voiced) : d.Consistent l := by
  have hb := hkeeps.consistent hvoiced
  have hholder {i : Nat} {holder : Option (String × BankHandle)} :
      d.holders[i]? = some holder ↔ ∃ slot, b.slots[i]? = some slot ∧ slot.holder = holder := by
    rw [h.holders, List.getElem?_map, Option.map_eq_some_iff]
  have hgeneration {i : Nat} {slot : ToneSlot} {generation : UInt16}
      (hslot : b.slots[i]? = some slot) (hat : d.generations[i]? = some generation) :
      slot.generation = generation := by
    rw [h.generations, List.getElem?_map, hslot] at hat
    exact Option.some.inj hat
  have hbanks (bank : BankHandle) : d.banks bank ↔ bank ∈ l.map Prod.fst := by
    rw [h.banks, List.contains_iff_mem, hkeeps.banks]
  exact {
    lengths := by
      rw [h.holders, h.generations, h.voices, List.length_map, List.length_map, List.length_map]
      exact ⟨hvoiced.length, hvoiced.length, hvoiced.length⟩
    held := by
      intro i holder generation hi hat
      obtain ⟨slot, hslot, rfl⟩ := hholder.mp hi
      rw [← hgeneration hslot hat]
      simp only [h.eventHandle_eq]
      exact hb.held i slot hslot
    voice := by
      intro i held generation voice hi hat hvoice
      obtain ⟨slot, hslot, hheld⟩ := hholder.mp hi
      rw [h.voices, List.getElem?_map, hslot] at hvoice
      rw [← hgeneration hslot hat, ← Option.some.inj hvoice]
      exact hb.voice i slot hslot (hheld ▸ rfl)
    valid := fun event => by simpa only [h.isValid_eq, h.eventHandle_eq] using hb.valid event
    distinct := by simpa only [h.eventHandle_eq] using hb.distinct
    loaded := by
      intro held hheld
      rw [h.holders, List.mem_map] at hheld
      obtain ⟨slot, hslot, hheld⟩ := hheld
      rw [h.banks, List.contains_iff_mem]
      exact hb.loaded slot hslot held hheld
    events := by
      intro id bank
      rw [← hb.events]
      simp only [h.eventHandle_eq, hholder]
      exact exists_congr fun event => exists_and_left.symm
    banks := hbanks
    count := by
      rw [← hb.count, h.holders, List.countP_map]
      congr
      funext slot
      cases hheld : slot.holder <;> simp [ToneSlot.isFree, hheld]
    room := hb.room
    unload := by
      intro bank
      rw [← hbanks, ToneDirectory.unload]
      cases hbank : d.banks bank <;> simp }

end ToneDirectory

namespace ToneBank

/-! Which banks are loaded. -/

/-- A call of a run loaded the bank, and no later one was to unload it. -/
def LoadedIn (b : ToneBank) (calls : List BankCall) (bank : BankHandle) : Prop :=
  ∃ later call earlier, calls = later ++ call :: earlier ∧
    (b.after earlier).given? call = some bank ∧ .unload bank ∉ later

theorem loadedIn_cons {b : ToneBank} {call : BankCall} {past : List BankCall} {bank : BankHandle} :
    b.LoadedIn (call :: past) bank ↔ (b.after past).given? call = some bank ∨
      call ≠ .unload bank ∧ b.LoadedIn past bank := by
  constructor
  · rintro ⟨_ | ⟨_, later⟩, load, earlier, heq, hgiven, hlater⟩
    · cases heq
      exact .inl hgiven
    · cases heq
      rw [List.mem_cons, not_or] at hlater
      exact .inr ⟨Ne.symm hlater.1, later, load, earlier, rfl, hgiven, hlater.2⟩
  · rintro (hgiven | ⟨hcall, later, load, earlier, rfl, hgiven, hlater⟩)
    · exact ⟨[], call, past, rfl, hgiven, List.not_mem_nil⟩
    · refine ⟨call :: later, load, earlier, rfl, hgiven, ?_⟩
      rw [List.mem_cons, not_or]
      exact ⟨Ne.symm hcall, hlater⟩

theorem mem_ledger (b : ToneBank) (calls : List BankCall) (bank : BankHandle) :
    bank ∈ (b.ledger calls).map Prod.fst ↔ b.LoadedIn calls bank := by
  induction calls with
  | nil => simp [ledger, LoadedIn]
  | cons call past ih =>
    rw [loadedIn_cons, ledger, ← ih]
    cases hgiven : (b.after past).given? call with
    | none => simpa using Ledger.mem_enter_none
    | some given =>
      have hcall : call ≠ .unload bank := by
        rintro rfl
        cases hgiven
      rw [Ledger.mem_enter_some, Option.some.injEq]
      simp [hcall]

/-- While banks are numbered upwards, no two loaded ones have one number. -/
structure Numbered (b : ToneBank) (l : Ledger) (loads : Nat) : Prop where
  next : b.nextBank.toNat ≤ loads
  below : ∀ bank ∈ l.map Prod.fst, bank.raw < b.nextBank
  nodup : (l.map Prod.fst).Nodup

theorem Numbered.act {b : ToneBank} {l : Ledger} {loads : Nat} (h : b.Numbered l loads)
    (call : BankCall) (hloads : loads + (if call.text?.isSome then 1 else 0) < 2 ^ 32) :
    (b.act call).Numbered (l.enter call (b.given? call))
      (loads + if call.text?.isSome then 1 else 0) := by
  have hstep := b.step call
  generalize b.given? call = given, b.act call = left at hstep
  have hkept {left : ToneBank} {m : Ledger} (hnext : left.nextBank = b.nextBank)
      (hsub : (m.map Prod.fst).Sublist (l.map Prod.fst)) :
      left.Numbered m (loads + if call.text?.isSome then 1 else 0) :=
    ⟨hnext ▸ Nat.le_add_right_of_le h.next, fun bank hbank => hnext ▸ h.below bank
      (hsub.subset hbank), h.nodup.sublist hsub⟩
  have hsame {call : BankCall} : ((l.enter call none).map Prod.fst).Sublist (l.map Prod.fst) := by
    cases call with
    | unload bank => exact List.filter_sublist.map _
    | _ => exact List.Sublist.refl _
  cases hstep with
  | refused => exact hkept rfl hsame
  | unloaded => exact hkept rfl hsame
  | started => exact hkept rfl hsame
  | stopped => exact hkept rfl hsame
  | fed => exact hkept rfl hsame
  | @loaded _ specs hspecs =>
    have htext : call.text?.isSome := by
      obtain ⟨text, htext, -⟩ := Option.bind_eq_some_iff.mp hspecs
      rw [htext]
      rfl
    rw [if_pos htext] at hloads ⊢
    have hnext : (b.nextBank + 1).toNat = b.nextBank.toNat + 1 := by
      rw [UInt32.toNat_add]
      exact Nat.mod_eq_of_lt (Nat.lt_of_le_of_lt (Nat.succ_le_succ h.next) hloads)
    have hbelow : ∀ bank ∈ (l.enter call (some ⟨b.nextBank⟩)).map Prod.fst,
        bank.raw < b.nextBank + 1 := by
      intro bank hbank
      rw [UInt32.lt_iff_toNat_lt, hnext, Nat.lt_succ_iff]
      obtain rfl | hbank := Ledger.mem_enter_some.mp hbank
      · exact Nat.le_refl _
      · exact Nat.le_of_lt (UInt32.lt_iff_toNat_lt.mp (h.below bank hbank))
    refine ⟨hnext ▸ Nat.succ_le_succ h.next, hbelow, ?_⟩
    rw [Ledger.enter, List.map_append]
    refine List.nodup_append.mpr ⟨h.nodup, List.nodup_singleton _, ?_⟩
    rintro bank hbank _ hnew rfl
    cases List.mem_singleton.mp hnew
    exact UInt32.lt_irrefl _ (h.below _ hbank)

theorem numbered_after (rate : UInt32) {calls : List BankCall}
    (h : calls.countP (·.text?.isSome) < 2 ^ 32) :
    ((new rate).after calls).Numbered ((new rate).ledger calls)
      (calls.countP (·.text?.isSome)) := by
  induction calls with
  | nil => exact ⟨Nat.le_refl _, nofun, List.nodup_nil⟩
  | cons call past ih =>
    rw [List.countP_cons] at h ⊢
    exact (ih (Nat.lt_of_le_of_lt (Nat.le_add_right ..) h)).act call h

/-- After whatever was done to a registry, its parts are in step and stand for what is loaded: the
banks that were loaded and not unloaded since, which are different ones while their numbers last. -/
theorem registry_consistent (rate : UInt32) (calls : List BankCall) :
    ((ToneDirectory.new rate).after calls).Alike ((new rate).after calls) ∧
      ((ToneDirectory.new rate).after calls).Consistent ((new rate).ledger calls) ∧
      ((new rate).after calls).Consistent ((new rate).ledger calls) ∧
      (∀ bank, (∃ left, ToneDirectory.unload bank ((ToneDirectory.new rate).after calls) =
        .ok () left) ↔ (new rate).LoadedIn calls bank) ∧
      (∀ bank, (∃ left, BankOperation.unload bank ((new rate).after calls) = .ok () left) ↔
        (new rate).LoadedIn calls bank) ∧
      (calls.countP (·.text?.isSome) < 2 ^ 32 →
        (((new rate).ledger calls).map Prod.fst).Nodup) := by
  have hkeeps := keeps_after rate calls
  have hvoiced : ((new rate).after calls).Voiced := Reachable.voiced ⟨rate, calls, rfl⟩
  have hmirrors := ToneDirectory.mirrors_after rate calls
  have hparts := hmirrors.consistent hkeeps hvoiced
  have hconsistent := hkeeps.consistent hvoiced
  refine ⟨hmirrors.alike hkeeps.ids, hparts, hconsistent, fun bank => ?_, fun bank => ?_,
    fun hloads => (numbered_after rate hloads).nodup⟩
  · rw [hparts.unload, mem_ledger]
  · rw [hconsistent.unload, mem_ledger]

def changingBanks : List BankCall :=
  [.load "events = [[\"low\", 55.0]]", .unload ⟨0⟩,
    .load "events = [[\"mid\", 110.0], [\"high\", 220.0]]", .load "events = [[\"low\", 55.0]]"]

theorem registry_consistent_tiny : changingBanks.countP (·.text?.isSome) < 2 ^ 32 ∧
    ((ToneDirectory.new 44100).after changingBanks).Consistent
      ((new 44100).ledger changingBanks) ∧
    (((new 44100).ledger changingBanks).map Prod.fst).Nodup ∧
    ((new 44100).ledger changingBanks).map Prod.fst = [⟨1⟩, ⟨2⟩] ∧
    ["low", "mid", "high", "gone"].map ((ToneDirectory.new 44100).after changingBanks).ids =
      [some (.ofVoice 0 1), some (.ofVoice 1 0), some (.ofVoice 2 0), none] ∧
    ((ToneDirectory.new 44100).after changingBanks).isValid (.ofVoice 0 0) = false := by
  obtain ⟨-, hparts, -, -, -, hnodup⟩ := registry_consistent 44100 changingBanks
  have hloads : changingBanks.countP (·.text?.isSome) < 2 ^ 32 := by decide
  exact ⟨hloads, hparts, hnodup hloads, by decide +kernel⟩

end ToneBank

end Patchbay

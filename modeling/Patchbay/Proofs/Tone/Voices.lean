import Mathlib.Data.List.Nodup
import Mathlib.Data.Nat.Bitwise
import Patchbay.Proofs.Engine.Call

/-! Voices of a registry. Whatever is done to it, the voice of an event carries the handle of that
event, and a voice without an event is silent. So voices that play carry different handles. -/

namespace Patchbay

namespace EventHandle

variable (h : EventHandle) {i : Nat} (generation : UInt16)

theorem voice_eq : h.voice = h.raw.toNat % 2 ^ 16 := by
  unfold voice
  rw [UInt32.toNat_and]
  exact Nat.and_two_pow_sub_one_eq_mod _ 16

theorem toNat_generation : h.generation.toNat = h.raw.toNat / 2 ^ 16 := by
  have hlt := h.raw.toNat_lt
  unfold EventHandle.generation
  rw [UInt32.toNat_toUInt16, UInt32.toNat_shiftRight]
  simp only [Nat.shiftRight_eq_div_pow]
  show h.raw.toNat / 2 ^ 16 % 2 ^ 16 = _
  omega

theorem toNat_ofVoice (hi : i < 2 ^ 16) :
    (ofVoice i generation).raw.toNat = generation.toNat * 2 ^ 16 + i := by
  have hlow : (UInt32.ofNat i).toNat = i := by
    simp
    omega
  have hhigh : (generation.toUInt32 <<< 16).toNat = generation.toNat <<< 16 := by
    have hlt := generation.toNat_lt
    simp only [UInt32.toNat_shiftLeft, UInt16.toNat_toUInt32]
    show generation.toNat <<< 16 % 2 ^ 32 = _
    rw [Nat.shiftLeft_eq]
    omega
  unfold ofVoice
  rw [UInt32.toNat_or, hlow, hhigh, ← Nat.shiftLeft_add_eq_or_of_lt hi, Nat.shiftLeft_eq]

theorem voice_ofVoice (hi : i < 2 ^ 16) : (ofVoice i generation).voice = i := by
  rw [voice_eq, toNat_ofVoice generation hi]
  omega

theorem generation_ofVoice (hi : i < 2 ^ 16) :
    (ofVoice i generation).generation = generation := by
  apply UInt16.toNat.inj
  rw [toNat_generation, toNat_ofVoice generation hi]
  omega

theorem ofVoice_voice : ofVoice h.voice h.generation = h := by
  have hvoice : h.voice < 2 ^ 16 := h.voice_eq ▸ Nat.mod_lt _ (by decide)
  have hraw : (ofVoice h.voice h.generation).raw = h.raw := by
    apply UInt32.toNat.inj
    rw [toNat_ofVoice _ hvoice, toNat_generation, voice_eq]
    omega
  exact congrArg EventHandle.mk hraw

end EventHandle

inductive BankCall
  | load (text : String)
  | loadFile (content : Option ByteArray)
  | unload (bank : BankHandle)
  | start (event : EventHandle)
  | stop (event : EventHandle)
  | feed (change : Voice → Voice)

namespace ToneBank

def leftBy {α : Type} (b : ToneBank) (op : BankOperation α) : ToneBank :=
  match op b with
  | .ok _ left | .error _ left => left

def act (b : ToneBank) : BankCall → ToneBank
  | .load text => b.leftBy (.loadText text)
  | .loadFile content => b.leftBy (.loadFile content)
  | .unload bank => b.leftBy (.unload bank)
  | .start event => b.leftBy (.start event)
  | .stop event => b.leftBy (.stop event)
  | .feed change => { b with input := change b.input }

def after (b : ToneBank) : List BankCall → ToneBank
  | [] => b
  | call :: past => (b.after past).act call

def Reachable (b : ToneBank) : Prop := ∃ rate calls, b = (new rate).after calls

theorem Reachable.act {b : ToneBank} (h : b.Reachable) (call : BankCall) :
    (b.act call).Reachable := by
  obtain ⟨rate, calls, rfl⟩ := h
  exact ⟨rate, call :: calls, rfl⟩

end ToneBank

/-! Voices and their events. -/

/-- The voice of an event carries its handle, and a voice without an event is silent. -/
structure ToneSlot.Voiced (slot : ToneSlot) (i : Nat) : Prop where
  event : slot.holder.isSome → slot.voice.event = .ofVoice i slot.generation
  silent : slot.holder = none → slot.voice.playing = false

namespace ToneSlot

theorem Voiced.isSome_holder {slot : ToneSlot} {i : Nat} (h : slot.Voiced i)
    (hplaying : slot.voice.playing = true) : slot.holder.isSome := by
  rw [Option.isSome_iff_ne_none]
  intro hnone
  rw [h.silent hnone] at hplaying
  cases hplaying

theorem voiced_hold (slot : ToneSlot) (i : Nat) (bank : BankHandle) (spec : ToneSpec) :
    (slot.hold i bank spec).Voiced i where
  event _ := rfl
  silent := by simp [hold]

theorem voiced_vacate (slot : ToneSlot) (i : Nat) : slot.vacate.Voiced i where
  event := by simp [vacate]
  silent _ := rfl

theorem voiced_of_holdAll {bank : BankHandle} {i : Nat} {slots : List ToneSlot}
    {specs : List ToneSpec} {k : Nat} {slot : ToneSlot}
    (h : (holdAll bank i slots specs)[k]? = some slot) :
    slot.Voiced (i + k) ∨ slots[k]? = some slot := by
  fun_induction ToneSlot.holdAll bank i slots specs generalizing k with
  | case1 => exact Or.inr h
  | case2 => exact Or.inr h
  | case3 i first slots spec specs hfree ih =>
    cases k with
    | zero =>
      cases h
      exact Or.inl (first.voiced_hold i bank spec)
    | succ k =>
      rw [← Nat.add_assoc, Nat.add_right_comm]
      exact ih h
  | case4 i first slots spec specs hfree ih =>
    cases k with
    | zero => exact Or.inr h
    | succ k =>
      rw [← Nat.add_assoc, Nat.add_right_comm]
      exact ih h

theorem length_holdAll (bank : BankHandle) (i : Nat) (slots : List ToneSlot)
    (specs : List ToneSpec) : (holdAll bank i slots specs).length = slots.length := by
  fun_induction ToneSlot.holdAll bank i slots specs <;> simp_all

end ToneSlot

namespace ToneBank

structure Voiced (b : ToneBank) : Prop where
  length : b.slots.length = maxTones
  voiced : ∀ (i : Nat) (slot : ToneSlot), b.slots[i]? = some slot → slot.Voiced i

theorem voiced_new (rate : UInt32) : (new rate).Voiced where
  length := by simp [new]
  voiced i slot hslot := by
    obtain rfl := List.eq_of_mem_replicate (List.mem_of_getElem? hslot)
    exact ⟨nofun, fun _ => rfl⟩

variable {b : ToneBank}

theorem Voiced.setSlots (h : b.Voiced) {left : ToneBank}
    (hlength : left.slots.length = b.slots.length)
    (hslot : ∀ (i : Nat) (slot : ToneSlot), left.slots[i]? = some slot →
      slot.Voiced i ∨ b.slots[i]? = some slot) : left.Voiced where
  length := hlength.trans h.length
  voiced i slot hi := (hslot i slot hi).elim id (h.voiced i slot)

theorem Voiced.leftBy {α : Type} (h : b.Voiced) {op : BankOperation α}
    (hop : Ends op b fun _ left => left.Voiced) : (b.leftBy op).Voiced := by
  unfold Ends at hop
  unfold ToneBank.leftBy
  cases heq : op b with
  | ok a left =>
    rw [heq] at hop
    exact hop
  | error e left =>
    rw [heq] at hop
    exact hop ▸ h

end ToneBank

namespace BankOperation

variable {b : ToneBank}

theorem ends_load_slots (specs : List ToneSpec) : Ends (load specs) b fun _ left =>
    left.slots = ToneSlot.holdAll ⟨b.nextBank⟩ 0 b.slots specs := by
  unfold load
  apply Ends.get
  split
  · exact rfl
  · split
    · exact rfl
    · exact Ends.of_ok rfl rfl

theorem ends_unload_slots (bank : BankHandle) : Ends (unload bank) b fun _ left =>
    left.slots = b.slots.map fun slot => if slot.heldBy bank then slot.vacate else slot := by
  unfold unload
  apply Ends.get
  split
  · exact Ends.of_ok rfl rfl
  · exact rfl

theorem ends_setPlaying_slots (event : EventHandle) (playing : Bool) :
    Ends (setPlaying event playing) b fun _ left => b.isValid event = true ∧
      left.slots =
        b.slots.modify event.voice fun slot => { slot with voice.playing := playing } := by
  unfold setPlaying
  apply Ends.get
  split
  · rename_i hvalid
    exact Ends.of_ok rfl ⟨hvalid, rfl⟩
  · exact rfl

theorem voiced_loadText (h : b.Voiced) (text : String) :
    Ends (loadText text) b fun _ left => left.Voiced := by
  unfold loadText
  split
  · exact rfl
  · apply (ends_load_slots _).imp
    intro _ left hslots
    refine h.setSlots (by rw [hslots, ToneSlot.length_holdAll]) fun i slot hi => ?_
    rw [hslots] at hi
    simpa using ToneSlot.voiced_of_holdAll hi

theorem voiced_loadFile (h : b.Voiced) (content : Option ByteArray) :
    Ends (loadFile content) b fun _ left => left.Voiced := by
  unfold loadFile
  split
  · exact rfl
  · exact voiced_loadText h _

theorem voiced_unload (h : b.Voiced) (bank : BankHandle) :
    Ends (unload bank) b fun _ left => left.Voiced := by
  apply (ends_unload_slots bank).imp
  intro _ left hslots
  refine h.setSlots (by simp [hslots]) fun i slot hi => ?_
  rw [hslots, List.getElem?_map, Option.map_eq_some_iff] at hi
  obtain ⟨before, hbefore, rfl⟩ := hi
  split
  · exact Or.inl (before.voiced_vacate i)
  · exact Or.inr hbefore

theorem voiced_setPlaying (h : b.Voiced) (event : EventHandle) (playing : Bool) :
    Ends (setPlaying event playing) b fun _ left => left.Voiced := by
  apply (ends_setPlaying_slots event playing).imp
  rintro _ left ⟨hvalid, hslots⟩
  refine h.setSlots (by simp [hslots]) fun i slot hi => ?_
  rw [hslots, List.getElem?_modify] at hi
  split at hi
  · rename_i hvoice
    obtain ⟨before, hbefore, rfl⟩ := Option.map_eq_some_iff.mp hi
    have hheld : before.holder.isSome := by
      rw [ToneBank.isValid, hvoice, hbefore] at hvalid
      simpa [ToneSlot.isFree, Option.isSome_iff_ne_none] using (Bool.and_eq_true_iff.mp hvalid).1
    refine Or.inl ⟨(h.voiced i before hbefore).event, fun hnone => ?_⟩
    rw [hnone] at hheld
    cases hheld
  · exact Or.inr (by simpa using hi)

end BankOperation

namespace ToneBank

theorem Voiced.act {b : ToneBank} (h : b.Voiced) (call : BankCall) : (b.act call).Voiced := by
  cases call with
  | load text => exact h.leftBy (BankOperation.voiced_loadText h text)
  | loadFile content => exact h.leftBy (BankOperation.voiced_loadFile h content)
  | unload bank => exact h.leftBy (BankOperation.voiced_unload h bank)
  | start event => exact h.leftBy (BankOperation.voiced_setPlaying h event true)
  | stop event => exact h.leftBy (BankOperation.voiced_setPlaying h event false)
  | feed change => exact ⟨h.length, h.voiced⟩

theorem Reachable.voiced {b : ToneBank} (h : b.Reachable) : b.Voiced := by
  obtain ⟨rate, calls, rfl⟩ := h
  induction calls with
  | nil => exact voiced_new rate
  | cons call past ih => exact ih.act call

theorem Voiced.voice_event {b : ToneBank} (h : b.Voiced) {i : Nat} {slot : ToneSlot}
    (hi : b.slots[i]? = some slot) (hplaying : slot.voice.playing = true) :
    slot.voice.event.voice = i := by
  have hslot := h.voiced i slot hi
  have hlt : i < maxTones := h.length ▸ (List.getElem?_eq_some_iff.mp hi).1
  rw [hslot.event (hslot.isSome_holder hplaying),
    EventHandle.voice_ofVoice _ (Nat.lt_trans hlt (by decide))]

def playing (b : ToneBank) : List EventHandle :=
  ((b.slots.map (·.voice)).filter (·.playing)).map (·.event)

theorem Voiced.map_voice_playing {b : ToneBank} (h : b.Voiced) : b.playing.map EventHandle.voice =
    (b.slots.zipIdx.filter (·.1.voice.playing)).map Prod.snd := by
  unfold playing
  conv_lhs => rw [← List.zipIdx_map_fst 0 b.slots]
  simp only [List.map_map, List.filter_map]
  apply List.map_congr_left
  rintro ⟨slot, i⟩ hmem
  obtain ⟨hmem, hplaying⟩ := List.mem_filter.mp hmem
  exact h.voice_event (List.mem_zipIdx_iff_getElem?.mp hmem) hplaying

theorem Voiced.pairwise_playing {b : ToneBank} (h : b.Voiced) :
    (b.playing.map EventHandle.voice).Pairwise (· < ·) := by
  rw [h.map_voice_playing]
  have hall : (b.slots.zipIdx.map Prod.snd).Pairwise (· < ·) := by
    rw [List.zipIdx_map_snd]
    exact List.pairwise_lt_range'
  exact hall.sublist (List.filter_sublist.map _)

theorem Voiced.nodup_playing {b : ToneBank} (h : b.Voiced) : b.playing.Nodup :=
  .of_map EventHandle.voice (h.pairwise_playing.imp Nat.ne_of_lt)

end ToneBank

end Patchbay

import Patchbay.Proofs.Tone.Consistency

/-! How long a handle is refused. The generation of a voice counts how often the voice was emptied,
in 16 bits. So the handle of an event that is gone is accepted again when its voice is held after it
was emptied a multiple of 65536 times, and not before. -/

namespace Patchbay

def BankCall.isUnload : BankCall → Bool
  | unload _ => true
  | _ => false

namespace ToneSlot

theorem map_holdAll {α : Type} {f : ToneSlot → α}
    (hf : ∀ (slot : ToneSlot) (i : Nat) (bank : BankHandle) (spec : ToneSpec),
      f (slot.hold i bank spec) = f slot)
    (bank : BankHandle) (i : Nat) (slots : List ToneSlot) (specs : List ToneSpec) :
    (holdAll bank i slots specs).map f = slots.map f := by
  fun_induction ToneSlot.holdAll bank i slots specs with
  | case1 => rfl
  | case2 => rfl
  | case3 i slot slots spec specs _ ih => rw [List.map_cons, List.map_cons, hf, ih]
  | case4 i slot slots spec specs _ ih => rw [List.map_cons, List.map_cons, ih]

theorem generation_holdAll (bank : BankHandle) (i : Nat) (slots : List ToneSlot)
    (specs : List ToneSpec) :
    (holdAll bank i slots specs).map (·.generation) = slots.map (·.generation) :=
  map_holdAll (fun _ _ _ _ => rfl) bank i slots specs

theorem getElem?_holdAll {bank : BankHandle} {i : Nat} {slots : List ToneSlot}
    {specs : List ToneSpec} {k : Nat} {slot : ToneSlot} (h : slots[k]? = some slot)
    (hheld : slot.holder.isSome) : (holdAll bank i slots specs)[k]? = some slot := by
  fun_induction ToneSlot.holdAll bank i slots specs generalizing k with
  | case1 => exact h
  | case2 => exact h
  | case3 _ first _ _ _ hfree ih =>
    cases k with
    | zero =>
      cases h
      simp [Option.isNone_iff_eq_none.mp hfree] at hheld
    | succ k => exact ih h
  | case4 _ _ _ _ _ _ ih =>
    cases k with
    | zero => exact h
    | succ k => exact ih h

end ToneSlot

namespace ToneBank

/-- Whether a call empties a voice: it unloads the bank whose event holds the voice. -/
def vacates (b : ToneBank) (i : Nat) : BankCall → Bool
  | .unload bank => b.banks.contains bank && b.slots[i]?.any (·.heldBy bank)
  | _ => false

def emptied (b : ToneBank) (i : Nat) : List BankCall → Nat
  | [] => 0
  | call :: past => emptied b i past + if (b.after past).vacates i call then 1 else 0

def generationAt (b : ToneBank) (i : Nat) : UInt16 := (b.slots.map (·.generation))[i]?.getD 0

theorem generationAt_eq {b : ToneBank} {i : Nat} {slot : ToneSlot} (hi : b.slots[i]? = some slot) :
    b.generationAt i = slot.generation := by
  rw [generationAt, List.getElem?_map, hi]
  rfl

theorem after_append (b : ToneBank) (later past : List BankCall) :
    b.after (later ++ past) = (b.after past).after later := by
  induction later with
  | nil => rfl
  | cons call later ih => rw [List.cons_append, after, ih, after]

theorem Reachable.after {b : ToneBank} (h : b.Reachable) (calls : List BankCall) :
    (b.after calls).Reachable := by
  induction calls with
  | nil => exact h
  | cons call past ih => exact ih.act call

theorem generationAt_withoutBank (b : ToneBank) (bank : BankHandle) (i : Nat) :
    (b.withoutBank bank).generationAt i =
      b.generationAt i + if b.slots[i]?.any (·.heldBy bank) then 1 else 0 := by
  unfold generationAt withoutBank
  rw [List.map_map, List.getElem?_map, List.getElem?_map]
  cases b.slots[i]? with
  | none => simp
  | some slot => by_cases hheld : slot.heldBy bank <;> simp [hheld, ToneSlot.vacate]

theorem generationAt_act (b : ToneBank) (call : BankCall) (i : Nat) :
    (b.act call).generationAt i = b.generationAt i + if b.vacates i call then 1 else 0 := by
  have hstep := b.step call
  generalize b.given? call = given, b.act call = left at hstep
  have hkept {left : ToneBank} (hno : b.vacates i call = false)
      (hslots : left.slots.map (·.generation) = b.slots.map (·.generation)) :
      left.generationAt i = b.generationAt i + if b.vacates i call then 1 else 0 := by
    rw [generationAt, hslots, hno, if_neg Bool.false_ne_true, UInt16.add_zero]
    rfl
  have hplaying (event : EventHandle) (playing : Bool) :
      (b.withPlaying event playing).slots.map (·.generation) = b.slots.map (·.generation) := by
    rw [← List.filterMap_eq_map]
    apply filterMap_modify
    intro slot
    rfl
  cases hstep with
  | refused hunloaded =>
    refine hkept ?_ rfl
    cases call with
    | unload bank => simp [vacates, hunloaded bank rfl]
    | _ => rfl
  | loaded hspecs =>
    refine hkept ?_ (ToneSlot.generation_holdAll ..)
    cases call with
    | unload bank => cases hspecs
    | _ => rfl
  | @unloaded bank hbank =>
    rw [generationAt_withoutBank, vacates, List.contains_iff_mem.mpr hbank, Bool.true_and]
  | started => exact hkept rfl (hplaying ..)
  | stopped => exact hkept rfl (hplaying ..)
  | fed => exact hkept rfl rfl

/-- A voice counts, modulo 65536, how often it is emptied. -/
theorem generationAt_after (b : ToneBank) (calls : List BankCall) (i : Nat) :
    (b.after calls).generationAt i = b.generationAt i + UInt16.ofNat (b.emptied i calls) := by
  induction calls with
  | nil => simp [after, emptied]
  | cons call past ih =>
    rw [after, generationAt_act, ih, emptied, UInt16.ofNat_add, UInt16.add_assoc]
    split <;> rfl

theorem emptied_le (b : ToneBank) (i : Nat) (calls : List BankCall) :
    b.emptied i calls ≤ calls.countP BankCall.isUnload := by
  induction calls with
  | nil => exact Nat.le_refl _
  | cons call past ih =>
    rw [emptied, List.countP_cons]
    apply Nat.add_le_add ih
    cases call with
    | unload bank => simp only [BankCall.isUnload]; split <;> decide
    | _ => exact Nat.le_refl _

theorem holds_act {b : ToneBank} {i : Nat} {id : String} {bank : BankHandle} {slot : ToneSlot}
    (hi : b.slots[i]? = some slot) (hheld : slot.holder = some (id, bank)) {call : BankCall}
    (hcall : call ≠ .unload bank) : ∃ left,
      (b.act call).slots[i]? = some left ∧ left.holder = some (id, bank) := by
  have hstep := b.step call
  generalize b.given? call = given, b.act call = next at hstep
  have hplaying (event : EventHandle) (playing : Bool) : ∃ left,
      (b.withPlaying event playing).slots[i]? = some left ∧ left.holder = some (id, bank) := by
    unfold withPlaying
    rw [List.getElem?_modify, hi]
    by_cases hevent : event.voice = i <;> simp [hevent, hheld]
  cases hstep with
  | refused => exact ⟨slot, hi, hheld⟩
  | loaded => exact ⟨slot, ToneSlot.getElem?_holdAll hi (hheld ▸ rfl), hheld⟩
  | @unloaded other =>
    have hne : bank ≠ other := fun heq => hcall (heq ▸ rfl)
    have hother : slot.heldBy other = false := by simp [ToneSlot.heldBy, hheld, hne]
    refine ⟨slot, ?_, hheld⟩
    unfold withoutBank
    rw [List.getElem?_map, hi, Option.map_some, hother]
    rfl
  | started => exact hplaying ..
  | stopped => exact hplaying ..
  | fed => exact ⟨slot, hi, hheld⟩

theorem holds_after {b : ToneBank} {i : Nat} {id : String} {bank : BankHandle} {slot : ToneSlot}
    (hi : b.slots[i]? = some slot) (hheld : slot.holder = some (id, bank)) {calls : List BankCall}
    (hcalls : .unload bank ∉ calls) : ∃ left,
      (b.after calls).slots[i]? = some left ∧ left.holder = some (id, bank) := by
  induction calls with
  | nil => exact ⟨slot, hi, hheld⟩
  | cons call past ih =>
    rw [List.mem_cons, not_or] at hcalls
    obtain ⟨left, hleft, hheld⟩ := ih hcalls.2
    exact holds_act hleft hheld (Ne.symm hcalls.1)

theorem Reachable.emptied_pos {b : ToneBank} (h : b.Reachable) {i : Nat} {id : String}
    {bank : BankHandle} {slot : ToneSlot} (hi : b.slots[i]? = some slot)
    (hheld : slot.holder = some (id, bank)) {calls : List BankCall}
    (hcalls : .unload bank ∈ calls) : 0 < b.emptied i calls := by
  induction calls with
  | nil => cases hcalls
  | cons call past ih =>
    rw [emptied]
    by_cases hpast : .unload bank ∈ past
    · exact Nat.add_pos_left (ih hpast) _
    · obtain rfl := (List.mem_cons.mp hcalls).resolve_right hpast
      obtain ⟨left, hleft, hheld⟩ := holds_after hi hheld hpast
      obtain ⟨l, hconsistent⟩ := (h.after past).consistent
      have hloaded := hconsistent.loaded left (List.mem_of_getElem? hleft) _ hheld
      have hvacates : (b.after past).vacates i (.unload bank) = true := by
        simp [vacates, hleft, hloaded, ToneSlot.heldBy, hheld]
      rw [hvacates]
      exact Nat.succ_pos _

structure Rejects (b : ToneBank) (h : EventHandle) : Prop where
  invalid : b.isValid h = false
  start : BankOperation.start h b = .error (.invalidEvent h) b
  stop : BankOperation.stop h b = .error (.invalidEvent h) b
  unissued : ∀ id, b.eventHandle id ≠ .ok h

theorem Reachable.rejects {b : ToneBank} (hb : b.Reachable) {h : EventHandle}
    (hvalid : b.isValid h = false) : b.Rejects h := by
  have hplaying (playing : Bool) :
      BankOperation.setPlaying h playing b = .error (.invalidEvent h) b := by
    rw [BankOperation.setPlaying_eq, hvalid, if_neg Bool.false_ne_true]
  refine ⟨hvalid, hplaying true, hplaying false, fun id hid => ?_⟩
  obtain ⟨l, hconsistent⟩ := hb.consistent
  rw [(hconsistent.valid h).mpr ⟨id, hid⟩] at hvalid
  cases hvalid

theorem isValid_after {b : ToneBank} {h : EventHandle} {slot : ToneSlot}
    (hslot : b.slots[h.voice]? = some slot) (hgeneration : slot.generation = h.generation)
    (calls : List BankCall) : (b.after calls).isValid h ↔
      ((b.after calls).slots[h.voice]?.any (·.holder.isSome)) ∧
        2 ^ 16 ∣ b.emptied h.voice calls := by
  have hround : (b.after calls).generationAt h.voice = h.generation ↔
      2 ^ 16 ∣ b.emptied h.voice calls := by
    rw [generationAt_after, generationAt_eq hslot, hgeneration]
    nth_rewrite 2 [← UInt16.add_zero h.generation]
    rw [UInt16.add_right_inj, ← UInt16.toNat_inj, UInt16.toNat_ofNat']
    exact Nat.dvd_iff_mod_eq_zero.symm
  rw [isValid_iff, ← hround]
  cases hi : (b.after calls).slots[h.voice]? with
  | none => simp
  | some left => simp [generationAt_eq hi]

/-- After the bank of its event was unloaded, a handle is refused in every way unless its voice is
held and was emptied a multiple of 65536 times since. Until as many banks are unloaded it is
refused. -/
theorem handle_expires {b : ToneBank} (hb : b.Reachable) {id : String} {h : EventHandle}
    (hid : b.eventHandle id = .ok h) {slot : ToneSlot} {bank : BankHandle}
    (hslot : b.slots[h.voice]? = some slot) (hheld : slot.holder = some (id, bank))
    {calls : List BankCall} (hcalls : .unload bank ∈ calls) :
    0 < b.emptied h.voice calls ∧
    ((b.after calls).Rejects h ↔ ¬ ((b.after calls).slots[h.voice]?.any (·.holder.isSome) ∧
      2 ^ 16 ∣ b.emptied h.voice calls)) ∧
    (calls.countP BankCall.isUnload < 2 ^ 16 → (b.after calls).Rejects h) := by
  have hgeneration : slot.generation = h.generation := by
    obtain ⟨l, hconsistent⟩ := hb.consistent
    obtain ⟨slot', hslot', -, hgeneration⟩ := isValid_iff.mp ((hconsistent.valid h).mpr ⟨id, hid⟩)
    obtain rfl := Option.some.inj (hslot.symm.trans hslot')
    exact hgeneration
  have hpos := hb.emptied_pos hslot hheld hcalls
  have hrejects : (b.after calls).Rejects h ↔ ¬ ((b.after calls).slots[h.voice]?.any
      (·.holder.isSome) ∧ 2 ^ 16 ∣ b.emptied h.voice calls) := by
    rw [← isValid_after hslot hgeneration, Bool.not_eq_true]
    exact ⟨Rejects.invalid, (hb.after calls).rejects⟩
  refine ⟨hpos, hrejects, fun hfew => hrejects.mpr fun hround => ?_⟩
  have hle := Nat.le_of_dvd hpos hround.2
  exact absurd (hle.trans (emptied_le ..)) (Nat.not_le_of_lt hfew)

/-! A voice that comes round. -/

def hum : String := "events = [[\"hum\", 110.0]]"

def turns : Nat → List BankCall
  | 0 => []
  | n + 1 => .load hum :: .unload ⟨.ofNat n⟩ :: turns n

def humSpec : ToneSpec := { id := "hum", frequency := 110 }

def humSlot (n : Nat) : ToneSlot where
  generation := .ofNat n
  holder := some ("hum", ⟨.ofNat n⟩)
  voice := ⟨false, .ofVoice 0 (.ofNat n), humSpec.frequency, humSpec.amplitude⟩

def hummingAt (n : Nat) : ToneBank :=
  { new 44100 with
    slots := humSlot n :: List.replicate 63 {}
    banks := [⟨.ofNat n⟩]
    nextBank := .ofNat (n + 1) }

def quietAfter (n : Nat) : ToneBank :=
  { new 44100 with
    slots := (humSlot n).vacate :: List.replicate 63 {}
    nextBank := .ofNat (n + 1) }

theorem listOfText?_hum : ToneSpec.listOfText? hum = some [humSpec] := by decide +kernel

theorem act_load_hum {b : ToneBank} {slot : ToneSlot} {rest : List ToneSlot}
    (hslots : b.slots = slot :: rest) (hfree : slot.isFree) (hquiet : b.holders = [])
    (hnyquist : b.nyquist = (new 44100).nyquist) : b.act (.load hum) = { b with
      nextBank := b.nextBank + 1
      slots := slot.hold 0 ⟨b.nextBank⟩ humSpec :: rest
      banks := b.banks ++ [⟨b.nextBank⟩] } := by
  have hfind : (b.find? humSpec.id).isSome = false := by
    rw [← Bool.not_eq_true, isSome_find?, hquiet]
    exact List.not_mem_nil
  have hfrequency : (0 < humSpec.frequency && humSpec.frequency < (new 44100).nyquist) = true := by
    decide +kernel
  have hamplitude : (0 ≤ humSpec.amplitude && humSpec.amplitude ≤ 1) = true := by decide +kernel
  have hfault : b.fault? [] [humSpec] = none := by
    simp [fault?, hfind, hnyquist, hfrequency, hamplitude]
  have hroom : ¬ b.free < [humSpec].length := by
    rw [free, hslots, List.countP_cons_of_pos hfree]
    simp
  have hholds : b.withBank [humSpec] = { b with
      nextBank := b.nextBank + 1
      slots := slot.hold 0 ⟨b.nextBank⟩ humSpec :: rest
      banks := b.banks ++ [⟨b.nextBank⟩] } := by
    rw [withBank, hslots, ToneSlot.holdAll, if_pos hfree]
    cases rest <;> rfl
  show b.leftBy (.loadText hum) = _
  unfold leftBy
  rw [BankOperation.loadText_eq, listOfText?_hum]
  dsimp only
  rw [BankOperation.load_eq, hfault]
  dsimp only
  rw [if_neg hroom, hholds]

theorem act_unload_hum (n : Nat) : (hummingAt n).act (.unload ⟨.ofNat n⟩) = quietAfter n := by
  have hloaded : (hummingAt n).banks.contains ⟨.ofNat n⟩ = true := by simp [hummingAt]
  show (hummingAt n).leftBy (.unload ⟨.ofNat n⟩) = _
  unfold leftBy
  rw [BankOperation.unload_eq, if_pos hloaded]
  simp [withoutBank, hummingAt, quietAfter, new, humSlot, ToneSlot.heldBy]

theorem after_load_hum : (new 44100).after [.load hum] = hummingAt 0 := by
  apply (act_load_hum (b := new 44100) rfl rfl rfl rfl).trans
  rfl

theorem after_turns (n : Nat) : (hummingAt 0).after (turns n) = hummingAt n := by
  induction n with
  | zero => rfl
  | succ n ih =>
    rw [turns, after, after, ih, act_unload_hum]
    apply (act_load_hum (b := quietAfter n) rfl rfl rfl rfl).trans
    simp [quietAfter, hummingAt, humSlot, humSpec, ToneSlot.hold, ToneSlot.vacate, new]

theorem mem_turns (n : Nat) : .unload ⟨0⟩ ∈ turns (n + 1) := by
  induction n with
  | zero => exact List.mem_cons_of_mem _ List.mem_cons_self
  | succ n ih => exact List.mem_cons_of_mem _ (List.mem_cons_of_mem _ ih)

theorem handle_expires_tiny : (hummingAt 0).Reachable ∧
    (hummingAt 0).eventHandle "hum" = .ok ⟨0⟩ ∧
    (hummingAt 0).slots[(⟨0⟩ : EventHandle).voice]? = some (humSlot 0) ∧
    (humSlot 0).holder = some ("hum", ⟨0⟩) ∧
    .unload ⟨0⟩ ∈ turns 1 ∧ ((hummingAt 0).after (turns 1)).Rejects ⟨0⟩ := by
  have hreachable : (hummingAt 0).Reachable := ⟨44100, _, after_load_hum.symm⟩
  have hid : (hummingAt 0).eventHandle "hum" = .ok ⟨0⟩ := rfl
  have hslot : (hummingAt 0).slots[(⟨0⟩ : EventHandle).voice]? = some (humSlot 0) := rfl
  obtain ⟨-, -, hfew⟩ := handle_expires hreachable hid hslot rfl (mem_turns 0)
  exact ⟨hreachable, hid, hslot, rfl, mem_turns 0, hfew (by decide)⟩

theorem handle_comes_back : ((new 44100).after [.load hum]).eventHandle "hum" = .ok ⟨0⟩ ∧
    ((new 44100).after [.load hum]).slots[0]? = some (humSlot 0) ∧
    (humSlot 0).holder = some ("hum", ⟨0⟩) ∧
    .unload ⟨0⟩ ∈ turns 65536 ∧
    ((new 44100).after (turns 65536 ++ [.load hum])).isValid ⟨0⟩ = true ∧
    ((new 44100).after (turns 65536 ++ [.load hum])).eventHandle "hum" = .ok ⟨0⟩ := by
  rw [after_append, after_load_hum, after_turns]
  exact ⟨rfl, rfl, rfl, mem_turns 65535, rfl, rfl⟩

end ToneBank

end Patchbay

import Patchbay.Proofs.Number.Order
import Patchbay.Proofs.Tone.Started

/-! Which files are loaded, and what loading does. A file is refused for the first of its events
that cannot be loaded, and only then for want of voices; what is refused leaves the registry as it
was. The events of a file that is loaded take the lowest free voices in their order. -/

namespace Patchbay

namespace ToneSlot

theorem getElem?_holdAll_of_free {bank : BankHandle} {base : Nat} {slots : List ToneSlot}
    {specs : List ToneSpec} {i : Nat} {slot : ToneSlot} (h : slots[i]? = some slot)
    (hfree : slot.isFree) : (holdAll bank base slots specs)[i]? =
      some (specs[(slots.take i).countP isFree]?.elim slot (slot.hold (base + i) bank)) := by
  fun_induction ToneSlot.holdAll bank base slots specs generalizing i with
  | case1 => simpa using h
  | case2 => cases h
  | case3 base first slots spec specs hfirst ih =>
    cases i with
    | zero =>
      cases h
      rfl
    | succ i =>
      rw [List.getElem?_cons_succ, List.take_succ_cons, List.countP_cons_of_pos hfirst,
        List.getElem?_cons_succ, ih h, Nat.add_right_comm, Nat.add_assoc]
  | case4 base first slots spec specs hfirst ih =>
    cases i with
    | zero =>
      cases h
      exact absurd hfree hfirst
    | succ i =>
      rw [List.getElem?_cons_succ, List.take_succ_cons, List.countP_cons_of_neg hfirst, ih h,
        Nat.add_right_comm, Nat.add_assoc]

theorem exists_free {slots : List ToneSlot} {k : Nat} (h : k < slots.countP isFree) :
    ∃ (i : Nat) (slot : ToneSlot),
      slots[i]? = some slot ∧ slot.isFree ∧ (slots.take i).countP isFree = k := by
  induction slots generalizing k with
  | nil => cases h
  | cons first slots ih =>
    by_cases hfirst : first.isFree
    · cases k with
      | zero => exact ⟨0, first, rfl, hfirst, rfl⟩
      | succ k =>
        rw [List.countP_cons_of_pos hfirst] at h
        obtain ⟨i, slot, hslot, hfree, hbelow⟩ := ih (Nat.lt_of_succ_lt_succ h)
        refine ⟨i + 1, slot, hslot, hfree, ?_⟩
        rw [List.take_succ_cons, List.countP_cons_of_pos hfirst, hbelow]
    · rw [List.countP_cons_of_neg hfirst] at h
      obtain ⟨i, slot, hslot, hfree, hbelow⟩ := ih h
      refine ⟨i + 1, slot, hslot, hfree, ?_⟩
      rw [List.take_succ_cons, List.countP_cons_of_neg hfirst, hbelow]

end ToneSlot

namespace ToneBank

theorem isSome_find?_iff {b : ToneBank} {id : String} :
    (b.find? id).isSome ↔ ∃ h, b.eventHandle id = .ok h := by
  unfold eventHandle handle?
  cases b.find? id <;> simp

/-- What can be wrong with an event that comes after some others in a file. An id that is taken is
told before a frequency, and a frequency before an amplitude. -/
inductive Offends (b : ToneBank) (before : List ToneSpec) (spec : ToneSpec) : BankFault → Prop
  | duplicate
      (taken : spec.id ∈ before.map (·.id) ∨ ∃ h, b.eventHandle spec.id = .ok h) :
      Offends b before spec (.duplicate spec.id)
  | frequency
      (free : ¬(spec.id ∈ before.map (·.id) ∨ ∃ h, b.eventHandle spec.id = .ok h))
      (outside : ¬(0 < spec.frequency ∧ spec.frequency < b.nyquist)) :
      Offends b before spec (.frequency spec.id spec.frequency)
  | amplitude
      (free : ¬(spec.id ∈ before.map (·.id) ∨ ∃ h, b.eventHandle spec.id = .ok h))
      (inside : 0 < spec.frequency ∧ spec.frequency < b.nyquist)
      (outside : ¬(0 ≤ spec.amplitude ∧ spec.amplitude ≤ 1)) :
      Offends b before spec (.amplitude spec.id spec.amplitude)

def OffendsAt (b : ToneBank) (specs : List ToneSpec) (k : Nat) (fault : BankFault) : Prop :=
  ∃ spec, specs[k]? = some spec ∧ b.Offends (specs.take k) spec fault

/-- A fault is that of the first event that has one, from some place of the file on. -/
def FirstFault (b : ToneBank) (specs : List ToneSpec) (start : Nat) (fault : BankFault) : Prop :=
  ∃ k, start ≤ k ∧ b.OffendsAt specs k fault ∧
    ∀ j, start ≤ j → j < k → ∀ other, ¬b.OffendsAt specs j other

variable {b : ToneBank} {before specs : List ToneSpec} {spec : ToneSpec} {fault : BankFault}

theorem offendsAt_length :
    b.OffendsAt (before ++ spec :: specs) before.length fault ↔ b.Offends before spec fault := by
  simp [OffendsAt]

theorem Offends.firstFault (h : b.Offends before spec fault) (specs : List ToneSpec) :
    b.FirstFault (before ++ spec :: specs) before.length fault :=
  ⟨_, Nat.le_refl _, offendsAt_length.mpr h, fun _ hj hlt => absurd hj (Nat.not_le_of_lt hlt)⟩

/-- The fault that is found from some place of a file on, when `seen` are the ids before it. -/
theorem fault?_spec (b : ToneBank) {before specs : List ToneSpec} {seen : List String}
    (hseen : ∀ id, id ∈ seen ↔ id ∈ before.map (·.id)) : match b.fault? seen specs with
      | none => ∀ k, before.length ≤ k → ∀ fault, ¬b.OffendsAt (before ++ specs) k fault
      | some fault => b.FirstFault (before ++ specs) before.length fault := by
  fun_induction ToneBank.fault? b seen specs generalizing before with
  | case1 seen =>
    rintro k hk fault ⟨spec, hspec, -⟩
    rw [List.append_nil, List.getElem?_eq_none hk] at hspec
    cases hspec
  | case2 seen spec specs htaken =>
    rw [Bool.or_eq_true, List.contains_iff_mem, hseen, isSome_find?_iff] at htaken
    exact Offends.firstFault (.duplicate htaken) specs
  | case3 seen spec specs hfree hfrequency =>
    rw [Bool.or_eq_true, List.contains_iff_mem, hseen, isSome_find?_iff] at hfree
    simp only [Bool.not_eq_true', ← Bool.not_eq_true, Bool.and_eq_true, decide_eq_true_eq]
      at hfrequency
    exact Offends.firstFault (.frequency hfree hfrequency) specs
  | case4 seen spec specs hfree hfrequency hamplitude =>
    rw [Bool.or_eq_true, List.contains_iff_mem, hseen, isSome_find?_iff] at hfree
    simp only [Bool.not_eq_true', ← Bool.not_eq_true, Bool.and_eq_true, decide_eq_true_eq,
      not_not] at hfrequency hamplitude
    exact Offends.firstFault (.amplitude hfree hfrequency hamplitude) specs
  | case5 seen spec specs hfree hfrequency hamplitude ih =>
    rw [Bool.or_eq_true, List.contains_iff_mem, hseen, isSome_find?_iff] at hfree
    simp only [Bool.not_eq_true', ← Bool.not_eq_true, Bool.and_eq_true, decide_eq_true_eq,
      not_not] at hfrequency hamplitude
    have hsound : ∀ fault, ¬b.OffendsAt (before ++ spec :: specs) before.length fault := by
      intro fault hoffends
      cases offendsAt_length.mp hoffends with
      | duplicate taken => exact hfree taken
      | frequency _ outside => exact outside hfrequency
      | amplitude _ _ outside => exact outside hamplitude
    -- the scan goes on with this event among those before it, and places stay those of the file
    have hrest := @ih (before ++ [spec]) (fun id => by simp [hseen, or_comm])
    rw [List.append_assoc, List.length_append, List.singleton_append] at hrest
    cases hfault : b.fault? (spec.id :: seen) specs with
    | none =>
      rw [hfault] at hrest
      intro k hk fault
      rcases Nat.eq_or_lt_of_le hk with rfl | hlt
      · exact hsound fault
      · exact hrest k hlt fault
    | some fault =>
      rw [hfault] at hrest
      obtain ⟨k, hk, hoffends, hbelow⟩ := hrest
      refine ⟨k, Nat.le_of_succ_le hk, hoffends, fun j hj hlt other => ?_⟩
      rcases Nat.eq_or_lt_of_le hj with rfl | hj
      · exact hsound other
      · exact hbelow j hj hlt other

structure Sound (b : ToneBank) (specs : List ToneSpec) : Prop where
  distinct : (specs.map (·.id)).Nodup
  fresh : ∀ spec ∈ specs, ∀ h, b.eventHandle spec.id ≠ .ok h
  frequency : ∀ spec ∈ specs, 0 < spec.frequency ∧ spec.frequency < b.nyquist
  amplitude : ∀ spec ∈ specs, 0 ≤ spec.amplitude ∧ spec.amplitude ≤ 1

theorem Sound.not_offendsAt (h : b.Sound specs) (k : Nat) (fault : BankFault) :
    ¬b.OffendsAt specs k fault := by
  rintro ⟨spec, hspec, hoffends⟩
  have hmem := List.mem_of_getElem? hspec
  cases hoffends with
  | duplicate taken =>
    rcases taken with hbefore | ⟨event, hevent⟩
    · have hdrop : spec ∈ specs.drop k := by
        rw [← Nat.add_zero k, ← List.getElem?_drop] at hspec
        exact List.mem_of_getElem? hspec
      have hnodup := h.distinct
      rw [← List.take_append_drop k specs, List.map_append] at hnodup
      exact (List.nodup_append.mp hnodup).2.2 _ hbefore _ (List.mem_map_of_mem hdrop) rfl
    · exact h.fresh spec hmem event hevent
  | frequency _ outside => exact outside (h.frequency spec hmem)
  | amplitude _ _ outside => exact outside (h.amplitude spec hmem)

theorem sound_of_not_offendsAt (h : ∀ k fault, ¬b.OffendsAt specs k fault) : b.Sound specs := by
  have hat {k : Nat} {spec : ToneSpec} (hspec : specs[k]? = some spec) :
      ¬(spec.id ∈ (specs.take k).map (·.id) ∨ ∃ event, b.eventHandle spec.id = .ok event) ∧
        (0 < spec.frequency ∧ spec.frequency < b.nyquist) ∧
          0 ≤ spec.amplitude ∧ spec.amplitude ≤ 1 := by
    have hfree : ¬(spec.id ∈ (specs.take k).map (·.id) ∨
        ∃ event, b.eventHandle spec.id = .ok event) :=
      fun taken => h k _ ⟨spec, hspec, .duplicate taken⟩
    have hfrequency : 0 < spec.frequency ∧ spec.frequency < b.nyquist := by
      by_contra outside
      exact h k _ ⟨spec, hspec, .frequency hfree outside⟩
    refine ⟨hfree, hfrequency, ?_⟩
    by_contra outside
    exact h k _ ⟨spec, hspec, .amplitude hfree hfrequency outside⟩
  have hmem {spec : ToneSpec} (hspec : spec ∈ specs) : ∃ k, specs[k]? = some spec :=
    List.mem_iff_getElem?.mp hspec
  exact {
    distinct := by
      rw [List.Nodup, List.pairwise_map, List.pairwise_iff_getElem]
      intro i j hi hj hij heq
      refine (hat (List.getElem?_eq_getElem hj)).1 (.inl ?_)
      rw [← heq]
      exact List.mem_map_of_mem (List.mem_take_iff_getElem.mpr ⟨i, by omega, rfl⟩)
    fresh := fun spec hspec event hevent => by
      obtain ⟨k, hk⟩ := hmem hspec
      exact (hat hk).1 (.inr ⟨event, hevent⟩)
    frequency := fun spec hspec => by
      obtain ⟨k, hk⟩ := hmem hspec
      exact (hat hk).2.1
    amplitude := fun spec hspec => by
      obtain ⟨k, hk⟩ := hmem hspec
      exact (hat hk).2.2 }

theorem fault?_eq_none_iff : b.fault? [] specs = none ↔ b.Sound specs := by
  have hspec := @fault?_spec b [] specs [] fun _ => Iff.rfl
  cases hfault : b.fault? [] specs with
  | none =>
    rw [hfault] at hspec
    exact iff_of_true rfl (sound_of_not_offendsAt fun k => hspec k (Nat.zero_le k))
  | some fault =>
    rw [hfault] at hspec
    obtain ⟨k, -, hoffends, -⟩ := hspec
    exact iff_of_false nofun fun hsound => hsound.not_offendsAt k fault hoffends

theorem firstFault_of_fault? (h : b.fault? [] specs = some fault) :
    b.FirstFault specs 0 fault := by
  have hspec := @fault?_spec b [] specs [] fun _ => Iff.rfl
  rwa [h] at hspec

/-! What loading does. -/

structure Loads (b : ToneBank) (specs : List ToneSpec) (bank : BankHandle) (left : ToneBank) :
    Prop where
  number : bank = ⟨b.nextBank⟩
  /-- The `k`-th event takes the free voice with `k` free ones below it. -/
  placed : ∀ (k : Nat) (spec : ToneSpec), specs[k]? = some spec →
    ∃ (i : Nat) (slot : ToneSlot), b.slots[i]? = some slot ∧ slot.isFree ∧
      (b.slots.take i).countP ToneSlot.isFree = k ∧
      left.slots[i]? = some
        { generation := slot.generation
          holder := some (spec.id, bank)
          voice := ⟨false, .ofVoice i slot.generation, spec.frequency, spec.amplitude⟩ } ∧
      left.eventHandle spec.id = .ok (.ofVoice i slot.generation)
  others : ∀ (i : Nat) (slot : ToneSlot), b.slots[i]? = some slot →
    ¬(slot.isFree ∧ (b.slots.take i).countP ToneSlot.isFree < specs.length) →
      left.slots[i]? = some slot
  ids : ∀ id ∉ specs.map (·.id), left.eventHandle id = b.eventHandle id
  handles : ∀ h, left.isValid h ↔
    b.isValid h ∨ ∃ spec ∈ specs, left.eventHandle spec.id = .ok h
  plays : ∀ h, left.plays h = b.plays h
  rest : left = { b with
    slots := left.slots
    banks := b.banks ++ [bank]
    nextBank := b.nextBank + 1 }

theorem Keeps.eventHandle_withBank {l : Ledger} (h : b.Keeps l) (hsound : b.Sound specs)
    (hroom : specs.length ≤ b.free) {id : String} (hid : id ∉ specs.map (·.id)) :
    (b.withBank specs).eventHandle id = b.eventHandle id := by
  have hkeeps := h.withBank (fault?_eq_none_iff.mpr hsound) hroom
  refine eventHandle_congr h.ids hkeeps.ids (fun i slot held hslot hholder => ?_) fun hmem => ?_
  · exact ToneSlot.getElem?_holdAll hslot (hholder ▸ rfl)
  · rw [((holders_withBank hroom).map Prod.fst).mem_iff, List.map_append, List.map_map,
      List.mem_append] at hmem
    exact hmem.resolve_right hid

theorem Keeps.loads {l : Ledger} (h : b.Keeps l) (hvoiced : b.Voiced) (hsound : b.Sound specs)
    (hroom : specs.length ≤ b.free) (hleft : (b.withBank specs).Voiced) :
    b.Loads specs ⟨b.nextBank⟩ (b.withBank specs) := by
  have hkeeps := h.withBank (fault?_eq_none_iff.mpr hsound) hroom
  have hids (id : String) (hid : id ∉ specs.map (·.id)) :
      (b.withBank specs).eventHandle id = b.eventHandle id :=
    h.eventHandle_withBank hsound hroom hid
  exact {
    number := rfl
    placed := fun k spec hspec => by
      obtain ⟨hk, -⟩ := List.getElem?_eq_some_iff.mp hspec
      obtain ⟨i, slot, hslot, hfree, hbelow⟩ := ToneSlot.exists_free (Nat.lt_of_lt_of_le hk hroom)
      have hheld : (b.withBank specs).slots[i]? = some (specs[_]?.elim slot _) :=
        ToneSlot.getElem?_holdAll_of_free hslot hfree
      rw [hbelow, hspec, Option.elim_some, Nat.zero_add] at hheld
      have hnone : slot.holder = none := by simpa [ToneSlot.isFree] using hfree
      have hsilent := (hvoiced.voiced i slot hslot).silent hnone
      refine ⟨i, slot, hslot, hfree, hbelow, ?_, ?_⟩
      · rw [← hsilent]
        exact hheld
      · exact (eventHandle_eq_ok hkeeps.ids).mpr ⟨i, _, _, hheld, rfl, rfl⟩
    others := fun i slot hslot hother => by
      by_cases hfree : slot.isFree
      · have hheld : (b.withBank specs).slots[i]? = some (specs[_]?.elim slot _) :=
          ToneSlot.getElem?_holdAll_of_free hslot hfree
        have hbelow := Nat.le_of_not_lt fun hlt => hother ⟨hfree, hlt⟩
        rw [List.getElem?_eq_none hbelow] at hheld
        exact hheld
      · have hheld : slot.holder.isSome := by
          simpa [ToneSlot.isFree, Option.isSome_iff_ne_none] using hfree
        exact ToneSlot.getElem?_holdAll hslot hheld
    ids := hids
    handles := fun event => by
      rw [h.isValid_iff_eventHandle hvoiced, hkeeps.isValid_iff_eventHandle hleft]
      constructor
      · rintro ⟨id, hid⟩
        by_cases hspec : id ∈ specs.map (·.id)
        · obtain ⟨spec, hmem, rfl⟩ := List.mem_map.mp hspec
          exact .inr ⟨spec, hmem, hid⟩
        · exact .inl ⟨id, (hids id hspec).symm.trans hid⟩
      · rintro (⟨id, hid⟩ | ⟨spec, -, hspec⟩)
        · have hfresh : id ∉ specs.map (·.id) := by
            intro hspec
            obtain ⟨spec, hmem, rfl⟩ := List.mem_map.mp hspec
            exact hsound.fresh spec hmem event hid
          exact ⟨id, (hids id hfresh).trans hid⟩
        · exact ⟨_, hspec⟩
    plays := fun event => b.plays_withBank event specs
    rest := rfl }

theorem nyquist_act (b : ToneBank) (call : BankCall) : (b.act call).nyquist = b.nyquist := by
  have hstep := b.step call
  generalize b.given? call = given, b.act call = left at hstep
  cases hstep <;> rfl

theorem nyquist_after (rate : UInt32) (calls : List BankCall) :
    ((new rate).after calls).nyquist = Sample.ofNat rate.toNat / 2 := by
  induction calls with
  | nil => rfl
  | cons call past ih => exact (nyquist_act _ call).trans ih

inductive Refusal (b : ToneBank) (specs : List ToneSpec) : BankFault → Prop
  | fault {fault : BankFault} (first : b.FirstFault specs 0 fault) : Refusal b specs fault
  | exhausted (sound : ∀ k fault, ¬b.OffendsAt specs k fault) (full : b.free < specs.length) :
      Refusal b specs .exhausted

structure LoadsExactly (b : ToneBank) (specs : List ToneSpec) (op : BankOperation BankHandle) :
    Prop where
  accepted : (∃ bank left, op b = .ok bank left) ↔ b.Sound specs ∧ specs.length ≤ b.free
  numbers : b.Sound specs →
    ∀ spec ∈ specs, spec.frequency.isNaN = false ∧ spec.amplitude.isNaN = false
  loaded : ∀ bank left, op b = .ok bank left → b.Loads specs bank left
  refused : ∀ e left, op b = .error e left →
    left = b ∧ ∃ fault, e = .invalidBank fault ∧ b.Refusal specs fault

theorem Keeps.loadsExactly {l : Ledger} (h : b.Keeps l) (hvoiced : b.Voiced)
    (hleft : (b.leftBy (.load specs)).Voiced) : b.LoadsExactly specs (.load specs) := by
  have hload := BankOperation.load_eq b specs
  have hnumbers (hsound : b.Sound specs) (spec : ToneSpec) (hspec : spec ∈ specs) :
      spec.frequency.isNaN = false ∧ spec.amplitude.isNaN = false :=
    ⟨Sample.isNaN_of_lt (hsound.frequency spec hspec).2,
      Sample.isNaN_of_le (hsound.amplitude spec hspec).2⟩
  have hrefused {fault : BankFault} (hrefusal : b.Refusal specs fault)
      (hnot : ¬(b.Sound specs ∧ specs.length ≤ b.free))
      (heq : BankOperation.load specs b = .error (.invalidBank fault) b) :
      b.LoadsExactly specs (.load specs) := {
    accepted := iff_of_false (by simp [heq]) hnot
    numbers := hnumbers
    loaded := by simp [heq]
    refused := fun e left hop => by
      rw [heq] at hop
      cases hop
      exact ⟨rfl, fault, rfl, hrefusal⟩ }
  cases hfault : b.fault? [] specs with
  | some fault =>
    rw [hfault] at hload
    refine hrefused (.fault (firstFault_of_fault? hfault)) (fun hloadable => ?_) hload
    rw [fault?_eq_none_iff.mpr hloadable.1] at hfault
    cases hfault
  | none =>
    have hsound := fault?_eq_none_iff.mp hfault
    rw [hfault] at hload
    dsimp only at hload
    by_cases hfull : b.free < specs.length
    · rw [if_pos hfull] at hload
      exact hrefused (.exhausted hsound.not_offendsAt hfull)
        (fun hloadable => absurd hfull (Nat.not_lt_of_le hloadable.2)) hload
    · rw [if_neg hfull] at hload
      have hroom := Nat.le_of_not_lt hfull
      rw [leftBy, hload] at hleft
      have hloads := h.loads hvoiced hsound hroom hleft
      exact {
        accepted := iff_of_true ⟨_, _, hload⟩ ⟨hsound, hroom⟩
        numbers := hnumbers
        loaded := fun bank left hop => by
          rw [hload] at hop
          cases hop
          exact hloads
        refused := by simp [hload] }

/-- A file is loaded just when its ids are different and new, its numbers in range, and its events
no more than there are free voices. If so they take the lowest of these in order, and all else
stays; if not the registry stays, and the first fault of the file is told. -/
theorem loads_exactly (rate : UInt32) (calls : List BankCall) {text : String}
    {specs : List ToneSpec} (htext : ToneSpec.listOfText? text = some specs) :
    ((new rate).after calls).nyquist = Sample.ofNat rate.toNat / 2 ∧
      ((new rate).after calls).LoadsExactly specs (.loadText text) := by
  have hvoiced : ((new rate).after calls).Voiced := Reachable.voiced ⟨rate, calls, rfl⟩
  have hleft : (((new rate).after calls).leftBy (.loadText text)).Voiced :=
    Reachable.voiced ⟨rate, .load text :: calls, rfl⟩
  have hload : BankOperation.loadText text = .load specs := by
    funext b
    rw [BankOperation.loadText_eq, htext]
  rw [hload] at hleft ⊢
  exact ⟨nyquist_after rate calls, (keeps_after rate calls).loadsExactly hvoiced hleft⟩

def gapped : List BankCall := [.unload ⟨0⟩,
  .load "events = [[\"mid\", 110.0], [\"high\", 220.0]]", .load "events = [[\"low\", 55.0]]"]

theorem loads_exactly_tiny :
    ToneSpec.listOfText? "events = [[\"a\", 440.0], [\"b\", 550.0, 0.25]]" =
      some [⟨"a", 440, 0.5⟩, ⟨"b", 550, 0.25⟩] ∧
    ((new 44100).after gapped).LoadsExactly [⟨"a", 440, 0.5⟩, ⟨"b", 550, 0.25⟩]
      (.loadText "events = [[\"a\", 440.0], [\"b\", 550.0, 0.25]]") ∧
    (((new 44100).after gapped).leftBy
      (.loadText "events = [[\"a\", 440.0], [\"b\", 550.0, 0.25]]")).eventHandle "b" =
        .ok (.ofVoice 3 0) := by
  have htext : ToneSpec.listOfText? "events = [[\"a\", 440.0], [\"b\", 550.0, 0.25]]" =
      some [⟨"a", 440, 0.5⟩, ⟨"b", 550, 0.25⟩] := by decide +kernel
  exact ⟨htext, (loads_exactly 44100 gapped htext).2, by decide +kernel⟩

end ToneBank

end Patchbay

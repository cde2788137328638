import Patchbay.Proofs.Tone.Voices

/-! What is loaded. The ledger of a run has every bank that was loaded and not unloaded since, with
the events of its file. Exactly these events hold the voices of the registry, each one of them, so
that what ids and handles stand for can be read off the ledger. -/

namespace Patchbay

namespace BankCall

def text? : BankCall → Option String
  | load text => some text
  | loadFile content => content >>= String.fromUTF8?
  | _ => none

def specs? (call : BankCall) : Option (List ToneSpec) := call.text? >>= ToneSpec.listOfText?

end BankCall

namespace ToneBank

def holders (b : ToneBank) : List (String × BankHandle) := b.slots.filterMap ToneSlot.holder

def withBank (b : ToneBank) (specs : List ToneSpec) : ToneBank :=
  { b with
    nextBank := b.nextBank + 1
    slots := ToneSlot.holdAll ⟨b.nextBank⟩ 0 b.slots specs
    banks := b.banks ++ [⟨b.nextBank⟩] }

def withoutBank (b : ToneBank) (bank : BankHandle) : ToneBank :=
  { b with
    banks := b.banks.filter (· ≠ bank)
    slots := b.slots.map fun slot => if slot.heldBy bank then slot.vacate else slot }

def withPlaying (b : ToneBank) (event : EventHandle) (playing : Bool) : ToneBank :=
  { b with slots := b.slots.modify event.voice fun slot => { slot with voice.playing := playing } }

end ToneBank

namespace BankOperation

variable (b : ToneBank)

theorem load_eq (specs : List ToneSpec) : load specs b = match b.fault? [] specs with
    | some fault => .error (.invalidBank fault) b
    | none => if b.free < specs.length then .error (.invalidBank .exhausted) b
      else .ok ⟨b.nextBank⟩ (b.withBank specs) := by
  unfold load
  apply (bind_of_ok (a := b) (t := b) rfl).trans
  cases b.fault? [] specs with
  | some fault => rfl
  | none =>
    dsimp only
    split <;> rfl

theorem loadText_eq (text : String) : loadText text b = match ToneSpec.listOfText? text with
    | none => .error .unreadable b
    | some specs => load specs b := by
  unfold loadText
  cases ToneSpec.listOfText? text <;> rfl

theorem loadFile_eq (content : Option ByteArray) :
    loadFile content b = match content >>= String.fromUTF8? with
    | none => .error .unreachable b
    | some text => loadText text b := by
  unfold loadFile
  cases content >>= String.fromUTF8? <;> rfl

theorem unload_eq (bank : BankHandle) : unload bank b =
    if b.banks.contains bank then .ok () (b.withoutBank bank) else .error (.notLoaded bank) b := by
  unfold unload
  apply (bind_of_ok (a := b) (t := b) rfl).trans
  split <;> rfl

theorem setPlaying_eq (event : EventHandle) (playing : Bool) : setPlaying event playing b =
    if b.isValid event then .ok () (b.withPlaying event playing)
    else .error (.invalidEvent event) b := by
  unfold setPlaying
  apply (bind_of_ok (a := b) (t := b) rfl).trans
  split <;> rfl

end BankOperation

namespace ToneBank

def answer? {α : Type} (b : ToneBank) (op : BankOperation α) : Option α :=
  match op b with
  | .ok a _ => some a
  | .error .. => none

def given? (b : ToneBank) : BankCall → Option BankHandle
  | .load text => b.answer? (.loadText text)
  | .loadFile content => b.answer? (.loadFile content)
  | _ => none

inductive Step (b : ToneBank) : BankCall → Option BankHandle → ToneBank → Prop
  | refused {call : BankCall} (unloaded : ∀ bank, call = .unload bank → bank ∉ b.banks) :
      Step b call none b
  | loaded {call : BankCall} {specs : List ToneSpec} (specs? : call.specs? = some specs)
      (sound : b.fault? [] specs = none) (room : specs.length ≤ b.free) :
      Step b call (some ⟨b.nextBank⟩) (b.withBank specs)
  | unloaded {bank : BankHandle} (loaded : bank ∈ b.banks) :
      Step b (.unload bank) none (b.withoutBank bank)
  | started {event : EventHandle} (valid : b.isValid event) :
      Step b (.start event) none (b.withPlaying event true)
  | stopped {event : EventHandle} (valid : b.isValid event) :
      Step b (.stop event) none (b.withPlaying event false)
  | fed (change : Voice → Voice) : Step b (.feed change) none { b with input := change b.input }

theorem step_loadText (b : ToneBank) {call : BankCall} {text : String}
    (htext : call.text? = some text) :
    b.Step call (b.answer? (.loadText text)) (b.leftBy (.loadText text)) := by
  have hrefused : b.Step call none b := .refused fun bank hbank => by
    subst hbank
    cases htext
  unfold answer? leftBy
  rw [BankOperation.loadText_eq]
  cases hspecs : ToneSpec.listOfText? text with
  | none => exact hrefused
  | some specs =>
    dsimp only
    rw [BankOperation.load_eq]
    cases hfault : b.fault? [] specs with
    | some fault => exact hrefused
    | none =>
      dsimp only
      by_cases hroom : b.free < specs.length
      · rw [if_pos hroom]
        exact hrefused
      · rw [if_neg hroom]
        refine .loaded ?_ hfault (Nat.le_of_not_lt hroom)
        rw [BankCall.specs?, htext]
        exact hspecs

theorem step_setPlaying (b : ToneBank) {call : BankCall} {event : EventHandle} {playing : Bool}
    (hcall : ∀ bank, call ≠ .unload bank)
    (hstep : b.isValid event → b.Step call none (b.withPlaying event playing)) :
    b.Step call none (b.leftBy (.setPlaying event playing)) := by
  unfold leftBy
  rw [BankOperation.setPlaying_eq]
  by_cases hvalid : b.isValid event
  · rw [if_pos hvalid]
    exact hstep hvalid
  · rw [if_neg hvalid]
    exact .refused fun bank hbank => absurd hbank (hcall bank)

theorem step (b : ToneBank) (call : BankCall) : b.Step call (b.given? call) (b.act call) := by
  cases call with
  | load text => exact b.step_loadText rfl
  | loadFile content =>
    show b.Step _ (b.answer? (.loadFile content)) (b.leftBy (.loadFile content))
    unfold answer? leftBy
    rw [BankOperation.loadFile_eq]
    cases htext : content >>= String.fromUTF8? with
    | none => exact .refused nofun
    | some text => exact b.step_loadText htext
  | unload bank =>
    show b.Step _ none (b.leftBy (.unload bank))
    unfold leftBy
    rw [BankOperation.unload_eq]
    by_cases hbank : b.banks.contains bank
    · rw [if_pos hbank]
      exact .unloaded (by simpa using hbank)
    · rw [if_neg hbank]
      refine .refused fun bank' heq => ?_
      cases heq
      simpa using hbank
  | start event => exact b.step_setPlaying nofun .started
  | stop event => exact b.step_setPlaying nofun .stopped
  | feed change => exact .fed change

end ToneBank

abbrev Ledger := List (BankHandle × List ToneSpec)

namespace Ledger

def enter (l : Ledger) (call : BankCall) : Option BankHandle → Ledger
  | some bank => l ++ [(bank, call.specs?.getD [])]
  | none =>
    match call with
    | .unload bank => l.filter (·.1 ≠ bank)
    | _ => l

def holders (l : Ledger) : List (String × BankHandle) :=
  l.flatMap fun p => p.2.map fun spec => (spec.id, p.1)

theorem length_holders (l : Ledger) : l.holders.length = (l.map (·.2.length)).sum := by
  simp [holders, List.length_flatMap]

theorem holders_filter (l : Ledger) (bank : BankHandle) :
    holders (l.filter (·.1 ≠ bank)) = (holders l).filter (·.2 ≠ bank) := by
  unfold holders
  induction l with
  | nil => rfl
  | cons p l ih =>
    rw [List.flatMap_cons, List.filter_append, ← ih]
    by_cases hp : p.1 = bank <;> simp [hp, List.filter_map, Function.comp_def]

theorem mem_enter_some {l : Ledger} {call : BankCall} {given bank : BankHandle} :
    bank ∈ (l.enter call (some given)).map Prod.fst ↔ given = bank ∨ bank ∈ l.map Prod.fst := by
  rw [enter, List.map_append, List.mem_append, List.map_singleton, List.mem_singleton, or_comm,
    eq_comm]

theorem mem_enter_none {l : Ledger} {call : BankCall} {bank : BankHandle} :
    bank ∈ (l.enter call none).map Prod.fst ↔ call ≠ .unload bank ∧ bank ∈ l.map Prod.fst := by
  cases call with
  | unload left =>
    have hne : BankCall.unload left ≠ .unload bank ↔ bank ≠ left := by
      rw [ne_eq, BankCall.unload.injEq, ne_eq, eq_comm]
    simp [enter, hne, and_comm]
  | _ => simp [enter]

theorem enter_refused {l : Ledger} {call : BankCall}
    (h : ∀ bank, call = .unload bank → bank ∉ l.map Prod.fst) : l.enter call none = l := by
  cases call with
  | unload bank =>
    refine List.filter_eq_self.mpr fun p hp => decide_eq_true fun hbank => ?_
    exact h bank rfl (hbank ▸ List.mem_map_of_mem hp)
  | _ => rfl

end Ledger

/-- What is loaded after a run: the banks that were loaded and not unloaded since. -/
def ToneBank.ledger (b : ToneBank) : List BankCall → Ledger
  | [] => []
  | call :: past => (b.ledger past).enter call ((b.after past).given? call)

/-! The voices are held as the ledger says. -/

theorem filterMap_modify {α β : Type} {f : α → α} {g : α → Option β} (h : ∀ a, g (f a) = g a)
    (l : List α) (i : Nat) : (l.modify i f).filterMap g = l.filterMap g := by
  induction l generalizing i with
  | nil => rw [List.modify_nil]
  | cons a l ih =>
    cases i with
    | zero => rw [List.modify_zero_cons, List.filterMap_cons, List.filterMap_cons, h]
    | succ i => rw [List.modify_succ_cons, List.filterMap_cons, List.filterMap_cons, ih]

namespace ToneSlot

theorem any_holder {slot : ToneSlot} {id : String} :
    (slot.holder.any fun held => held.1 = id) ↔ ∃ bank, slot.holder = some (id, bank) := by
  rw [Option.any_eq_true]
  constructor
  · rintro ⟨held, hheld, hid⟩
    obtain rfl := of_decide_eq_true hid
    exact ⟨held.2, hheld⟩
  · rintro ⟨bank, hheld⟩
    exact ⟨(id, bank), hheld, decide_eq_true rfl⟩

theorem holders_holdAll (bank : BankHandle) {i : Nat} {slots : List ToneSlot}
    {specs : List ToneSpec} (hroom : specs.length ≤ slots.countP isFree) :
    ((holdAll bank i slots specs).filterMap holder).Perm
      (slots.filterMap holder ++ specs.map fun spec => (spec.id, bank)) := by
  fun_induction ToneSlot.holdAll bank i slots specs with
  | case1 => simp
  | case2 _ specs hspecs => exact absurd (List.length_eq_zero_iff.mp (Nat.le_zero.mp hroom)) hspecs
  | case3 i slot slots spec specs hfree ih =>
    have hnone : slot.holder = none := by simpa [isFree] using hfree
    have hsome : (slot.hold i bank spec).holder = some (spec.id, bank) := rfl
    rw [List.countP_cons_of_pos hfree, List.length_cons] at hroom
    rw [List.filterMap_cons_none hnone, List.filterMap_cons_some hsome, List.map_cons]
    exact ((ih (Nat.le_of_succ_le_succ hroom)).cons _).trans List.perm_middle.symm
  | case4 i slot slots spec specs hheld ih =>
    have hne : slot.holder ≠ none := by simpa [isFree] using hheld
    obtain ⟨held, hsome⟩ := Option.ne_none_iff_exists'.mp hne
    rw [List.countP_cons_of_neg hheld] at hroom
    rw [List.filterMap_cons_some hsome, List.filterMap_cons_some hsome]
    exact (ih hroom).cons held

end ToneSlot

namespace ToneBank

theorem holders_withBank {b : ToneBank} {specs : List ToneSpec} (hroom : specs.length ≤ b.free) :
    (b.withBank specs).holders.Perm
      (b.holders ++ specs.map fun spec => (spec.id, ⟨b.nextBank⟩)) :=
  ToneSlot.holders_holdAll _ hroom

theorem holders_withoutBank (b : ToneBank) (bank : BankHandle) :
    (b.withoutBank bank).holders = b.holders.filter (·.2 ≠ bank) := by
  unfold holders withoutBank
  rw [List.filterMap_map, List.filter_filterMap]
  congr
  funext slot
  cases hholder : slot.holder with
  | none => simp [ToneSlot.heldBy, hholder]
  | some held =>
    by_cases hbank : held.2 = bank <;>
      simp [ToneSlot.heldBy, ToneSlot.vacate, hholder, hbank, Option.filter]

theorem holders_withPlaying (b : ToneBank) (event : EventHandle) (playing : Bool) :
    (b.withPlaying event playing).holders = b.holders := by
  unfold holders withPlaying
  apply filterMap_modify
  intro slot
  rfl

theorem mem_holders {b : ToneBank} {held : String × BankHandle} : held ∈ b.holders ↔
    ∃ (i : Nat) (slot : ToneSlot), b.slots[i]? = some slot ∧ slot.holder = some held := by
  unfold holders
  rw [List.mem_filterMap]
  constructor
  · rintro ⟨slot, hslot, hheld⟩
    obtain ⟨i, hi⟩ := List.mem_iff_getElem?.mp hslot
    exact ⟨i, slot, hi, hheld⟩
  · rintro ⟨i, slot, hi, hheld⟩
    exact ⟨slot, List.mem_of_getElem? hi, hheld⟩

theorem index_eq {b : ToneBank} (hids : (b.holders.map Prod.fst).Nodup) {i j : Nat}
    {slot slot' : ToneSlot} {held held' : String × BankHandle} (hi : b.slots[i]? = some slot)
    (hj : b.slots[j]? = some slot') (hheld : slot.holder = some held)
    (hheld' : slot'.holder = some held') (hid : held.1 = held'.1) : i = j := by
  unfold holders List.Nodup at hids
  rw [List.pairwise_map, List.pairwise_filterMap, List.pairwise_iff_getElem] at hids
  obtain ⟨hilt, rfl⟩ := List.getElem?_eq_some_iff.mp hi
  obtain ⟨hjlt, rfl⟩ := List.getElem?_eq_some_iff.mp hj
  rcases Nat.lt_trichotomy i j with hlt | heq | hlt
  · exact absurd hid (hids i j hilt hjlt hlt _ hheld _ hheld')
  · exact heq
  · exact absurd hid.symm (hids j i hjlt hilt hlt _ hheld' _ hheld)

theorem find?_eq_some {b : ToneBank} (hids : (b.holders.map Prod.fst).Nodup) {id : String}
    {slot : ToneSlot} {i : Nat} : b.find? id = some (slot, i) ↔
      b.slots[i]? = some slot ∧ ∃ bank, slot.holder = some (id, bank) := by
  have hfound {slot : ToneSlot} {i : Nat} (h : b.find? id = some (slot, i)) :
      b.slots[i]? = some slot ∧ ∃ bank, slot.holder = some (id, bank) := by
    have hid := List.find?_some h
    exact ⟨List.mem_zipIdx_iff_getElem?.mp (List.mem_of_find?_eq_some h),
      ToneSlot.any_holder.mp hid⟩
  refine ⟨hfound, ?_⟩
  rintro ⟨hi, bank, hheld⟩
  have hsome : (b.find? id).isSome := by
    unfold find?
    rw [List.find?_isSome]
    exact ⟨(slot, i), List.mem_zipIdx_iff_getElem?.mpr hi, ToneSlot.any_holder.mpr ⟨_, hheld⟩⟩
  obtain ⟨⟨slot', j⟩, hj⟩ := Option.isSome_iff_exists.mp hsome
  obtain ⟨hj', bank', hheld'⟩ := hfound hj
  obtain rfl := index_eq hids hi hj' hheld hheld' rfl
  rw [hj, Option.some.inj (hi.symm.trans hj')]

theorem handle?_eq_some {b : ToneBank} (hids : (b.holders.map Prod.fst).Nodup) {id : String}
    {h : EventHandle} :
    b.handle? id = some h ↔ ∃ (i : Nat) (slot : ToneSlot) (bank : BankHandle),
      b.slots[i]? = some slot ∧ slot.holder = some (id, bank) ∧ h = .ofVoice i slot.generation := by
  rw [handle?, Option.map_eq_some_iff]
  constructor
  · rintro ⟨⟨slot, i⟩, hfind, rfl⟩
    obtain ⟨hi, bank, hheld⟩ := (find?_eq_some hids).mp hfind
    exact ⟨i, slot, bank, hi, hheld, rfl⟩
  · rintro ⟨i, slot, bank, hi, hheld, rfl⟩
    exact ⟨(slot, i), (find?_eq_some hids).mpr ⟨hi, bank, hheld⟩, rfl⟩

theorem isSome_find? (b : ToneBank) (id : String) :
    (b.find? id).isSome ↔ id ∈ b.holders.map Prod.fst := by
  unfold find?
  rw [List.find?_isSome, List.mem_map]
  constructor
  · rintro ⟨⟨slot, i⟩, hi, hid⟩
    obtain ⟨bank, hheld⟩ := ToneSlot.any_holder.mp hid
    exact ⟨_, mem_holders.mpr ⟨i, slot, List.mem_zipIdx_iff_getElem?.mp hi, hheld⟩, rfl⟩
  · rintro ⟨held, hmem, rfl⟩
    obtain ⟨i, slot, hi, hheld⟩ := mem_holders.mp hmem
    exact ⟨(slot, i), List.mem_zipIdx_iff_getElem?.mpr hi, ToneSlot.any_holder.mpr ⟨_, hheld⟩⟩

theorem ids_of_fault? {b : ToneBank} {seen : List String} {specs : List ToneSpec}
    (h : b.fault? seen specs = none) : (specs.map (·.id)).Nodup ∧
      ∀ id ∈ specs.map (·.id), id ∉ seen ∧ id ∉ b.holders.map Prod.fst := by
  fun_induction ToneBank.fault? b seen specs with
  | case1 => simp
  | case2 => cases h
  | case3 => cases h
  | case4 => cases h
  | case5 seen spec specs hnew _ _ ih =>
    obtain ⟨hnodup, hfresh⟩ := ih h
    rw [List.map_cons, List.nodup_cons, List.forall_mem_cons]
    have hspec : spec.id ∉ seen ∧ spec.id ∉ b.holders.map Prod.fst := by
      rw [← isSome_find?]
      simpa using hnew
    refine ⟨⟨fun hmem => (hfresh _ hmem).1 List.mem_cons_self, hnodup⟩, hspec, fun id hid => ?_⟩
    exact ⟨fun hseen => (hfresh id hid).1 (List.mem_cons_of_mem _ hseen), (hfresh id hid).2⟩

/-- The voices are held by the events of the loaded banks, every event by one voice and every id by
one event. -/
structure Keeps (b : ToneBank) (l : Ledger) : Prop where
  banks : b.banks = l.map Prod.fst
  holders : b.holders.Perm l.holders
  ids : (b.holders.map Prod.fst).Nodup

theorem keeps_new (rate : UInt32) : (new rate).Keeps [] := by
  have hholders : (new rate).holders = [] := by
    unfold ToneBank.holders new
    rw [List.filterMap_eq_nil_iff]
    intro slot hslot
    rw [List.eq_of_mem_replicate hslot]
  exact ⟨rfl, by rw [hholders]; rfl, by rw [hholders]; exact List.nodup_nil⟩

theorem Keeps.withBank {b : ToneBank} {l : Ledger} (h : b.Keeps l) {specs : List ToneSpec}
    (hsound : b.fault? [] specs = none) (hroom : specs.length ≤ b.free) :
    (b.withBank specs).Keeps (l ++ [(⟨b.nextBank⟩, specs)]) where
  banks := by
    rw [List.map_append, ← h.banks]
    rfl
  holders := by
    rw [Ledger.holders, List.flatMap_append, List.flatMap_singleton]
    exact (holders_withBank hroom).trans (h.holders.append_right _)
  ids := by
    obtain ⟨hnodup, hfresh⟩ := ids_of_fault? hsound
    have hids := (holders_withBank hroom).map Prod.fst
    rw [List.map_append, List.map_map] at hids
    refine hids.nodup_iff.mpr (List.nodup_append.mpr ⟨h.ids, hnodup, ?_⟩)
    rintro id hheld _ hspec rfl
    exact (hfresh id hspec).2 hheld

theorem Keeps.withoutBank {b : ToneBank} {l : Ledger} (h : b.Keeps l) (bank : BankHandle) :
    (b.withoutBank bank).Keeps (l.filter (·.1 ≠ bank)) where
  banks := by
    rw [ToneBank.withoutBank, h.banks, List.filter_map]
    rfl
  holders := by
    rw [holders_withoutBank, Ledger.holders_filter]
    exact h.holders.filter _
  ids := by
    rw [holders_withoutBank]
    exact h.ids.sublist (List.filter_sublist.map _)

theorem Keeps.withPlaying {b : ToneBank} {l : Ledger} (h : b.Keeps l) (event : EventHandle)
    (playing : Bool) : (b.withPlaying event playing).Keeps l where
  banks := h.banks
  holders := by
    rw [holders_withPlaying]
    exact h.holders
  ids := by
    rw [holders_withPlaying]
    exact h.ids

theorem Keeps.act {b : ToneBank} {l : Ledger} (h : b.Keeps l) (call : BankCall) :
    (b.act call).Keeps (l.enter call (b.given? call)) := by
  have hstep := b.step call
  generalize b.given? call = given, b.act call = left at hstep
  cases hstep with
  | refused hunloaded =>
    rw [Ledger.enter_refused fun bank hbank => h.banks ▸ hunloaded bank hbank]
    exact h
  | loaded hspecs hsound hroom =>
    rw [Ledger.enter, hspecs]
    exact h.withBank hsound hroom
  | unloaded => exact h.withoutBank _
  | started => exact h.withPlaying ..
  | stopped => exact h.withPlaying ..
  | fed => exact ⟨h.banks, h.holders, h.ids⟩

theorem keeps_after (rate : UInt32) (calls : List BankCall) :
    ((new rate).after calls).Keeps ((new rate).ledger calls) := by
  induction calls with
  | nil => exact keeps_new rate
  | cons call past ih => exact ih.act call

end ToneBank

end Patchbay

import Mathlib.Logic.Function.Basic
import Patchbay.Proofs.Tone.Ledger
import Patchbay.Proofs.Unit.Slots

/-! The registry in the parts that it is kept in: who holds the voices, their generations, the map
from ids to handles, and which banks are loaded. Every operation edits these one after the other,
voice by voice. After any operations the parts say what the slots of the registry say, and every
operation ends alike on both. -/

namespace Patchbay

structure ToneDirectory where
  holders : List (Option (String × BankHandle)) := List.replicate maxTones none
  generations : List UInt16 := List.replicate maxTones 0
  voices : List Voice := List.replicate maxTones {}
  ids : String → Option EventHandle := fun _ => none
  banks : BankHandle → Bool := fun _ => false
  nextBank : UInt32 := 0
  nyquist : Sample
  input : Voice := {}

namespace ToneDirectory

abbrev Operation (α : Type) := EStateM BankError ToneDirectory α

def new (rate : UInt32) : ToneDirectory := { nyquist := Sample.ofNat rate.toNat / 2 }

def fault? (d : ToneDirectory) (seen : List String) : List ToneSpec → Option BankFault
  | [] => none
  | e :: es =>
    if seen.contains e.id || (d.ids e.id).isSome then some (.duplicate e.id)
    else if !(0 < e.frequency && e.frequency < d.nyquist) then some (.frequency e.id e.frequency)
    else if !(0 ≤ e.amplitude && e.amplitude ≤ 1) then some (.amplitude e.id e.amplitude)
    else d.fault? (e.id :: seen) es

def freeVoices (d : ToneDirectory) (count : Nat) : List Nat :=
  ((d.holders.zipIdx.filter (·.1.isNone)).map Prod.snd).take count

def place (bank : BankHandle) (d : ToneDirectory) (p : Nat × ToneSpec) : ToneDirectory :=
  let handle := .ofVoice p.1 (d.generations[p.1]?.getD 0)
  { d with
    voices := d.voices.modify p.1 fun v => ⟨v.playing, handle, p.2.frequency, p.2.amplitude⟩
    ids := Function.update d.ids p.2.id (some handle)
    holders := d.holders.set p.1 (some (p.2.id, bank)) }

def load (specs : List ToneSpec) : Operation BankHandle := fun d =>
  match d.fault? [] specs with
  | some fault => .error (.invalidBank fault) d
  | none =>
    let free := d.freeVoices specs.length
    if free.length < specs.length then .error (.invalidBank .exhausted) d
    else
      let bank : BankHandle := ⟨d.nextBank⟩
      let d := { d with nextBank := d.nextBank + 1 }
      let d := (free.zip specs).foldl (place bank) d
      .ok bank { d with banks := Function.update d.banks bank true }

def loadText (text : String) : Operation BankHandle := fun d =>
  match ToneSpec.listOfText? text with
  | none => .error .unreadable d
  | some specs => load specs d

def loadFile (content : Option ByteArray) : Operation BankHandle := fun d =>
  match content >>= String.fromUTF8? with
  | none => .error .unreachable d
  | some text => loadText text d

def vacate (bank : BankHandle) (d : ToneDirectory) (i : Nat) : ToneDirectory :=
  match d.holders[i]? with
  | some (some (id, owner)) =>
    if owner = bank then
      { d with
        voices := d.voices.modify i fun v => { v with playing := false }
        holders := d.holders.set i none
        ids := Function.update d.ids id none
        generations := d.generations.modify i (· + 1) }
    else d
  | _ => d

def unload (bank : BankHandle) : Operation Unit := fun d =>
  if d.banks bank then
    let d := { d with banks := Function.update d.banks bank false }
    .ok () ((List.range d.holders.length).foldl (vacate bank) d)
  else .error (.notLoaded bank) d

def eventHandle (d : ToneDirectory) (id : String) : Except BankError EventHandle :=
  match d.ids id with
  | some h => .ok h
  | none => .error (.notFound id)

def voice? (d : ToneDirectory) (h : EventHandle) : Option Nat :=
  match d.holders[h.voice]? with
  | some (some _) => if d.generations[h.voice]? = some h.generation then some h.voice else none
  | _ => none

def isValid (d : ToneDirectory) (h : EventHandle) : Bool := (d.voice? h).isSome

def setPlaying (h : EventHandle) (playing : Bool) : Operation Unit := fun d =>
  match d.voice? h with
  | some i => .ok () { d with voices := d.voices.modify i fun v => { v with playing } }
  | none => .error (.invalidEvent h) d

def leftBy {α : Type} (d : ToneDirectory) (op : Operation α) : ToneDirectory :=
  match op d with
  | .ok _ left | .error _ left => left

def act (d : ToneDirectory) : BankCall → ToneDirectory
  | .load text => d.leftBy (loadText text)
  | .loadFile content => d.leftBy (loadFile content)
  | .unload bank => d.leftBy (unload bank)
  | .start event => d.leftBy (setPlaying event true)
  | .stop event => d.leftBy (setPlaying event false)
  | .feed change => { d with input := change d.input }

def after (d : ToneDirectory) : List BankCall → ToneDirectory
  | [] => d
  | call :: past => (d.after past).act call

structure Mirrors (d : ToneDirectory) (b : ToneBank) : Prop where
  holders : d.holders = b.slots.map (·.holder)
  generations : d.generations = b.slots.map (·.generation)
  voices : d.voices = b.slots.map (·.voice)
  ids : d.ids = b.handle?
  banks : ∀ bank, d.banks bank = b.banks.contains bank
  nextBank : d.nextBank = b.nextBank
  nyquist : d.nyquist = b.nyquist
  input : d.input = b.input

/-- An operation ends with the same answer or the same error on both, and they stay mirrored. -/
inductive Agree {α : Type} : EStateM.Result BankError ToneDirectory α →
    EStateM.Result BankError ToneBank α → Prop
  | ok (a : α) {d : ToneDirectory} {b : ToneBank} (mirrors : d.Mirrors b) :
      Agree (.ok a d) (.ok a b)
  | error (e : BankError) {d : ToneDirectory} {b : ToneBank} (mirrors : d.Mirrors b) :
      Agree (.error e d) (.error e b)

end ToneDirectory

namespace ToneSlot

def freeFrom (k : Nat) (slots : List ToneSlot) : List Nat :=
  ((slots.zipIdx k).filter (·.1.isFree)).map Prod.snd

theorem length_freeFrom (k : Nat) (slots : List ToneSlot) :
    (freeFrom k slots).length = slots.countP isFree := by
  rw [freeFrom, List.length_map, ← List.countP_eq_length_filter]
  conv_rhs => rw [← List.zipIdx_map_fst k slots, List.countP_map]
  rfl

theorem holdAll_nil (bank : BankHandle) (k : Nat) (slots : List ToneSlot) :
    holdAll bank k slots [] = slots := by
  cases slots <;> rfl

theorem exists_first_free (bank : BankHandle) {k i : Nat} {slots : List ToneSlot}
    {rest : List Nat} (h : freeFrom k slots = i :: rest) :
    ∃ (j : Nat) (slot : ToneSlot), i = k + j ∧ slots[j]? = some slot ∧ slot.isFree ∧
      ∀ spec : ToneSpec, freeFrom k (slots.modify j (·.hold i bank spec)) = rest ∧
        ∀ specs, holdAll bank k slots (spec :: specs) =
          holdAll bank k (slots.modify j (·.hold i bank spec)) specs := by
  induction slots generalizing k with
  | nil => cases h
  | cons slot slots ih =>
    unfold freeFrom at h
    rw [List.zipIdx_cons, List.filter_cons] at h
    by_cases hfree : slot.isFree
    · rw [if_pos hfree] at h
      cases h
      refine ⟨0, slot, rfl, rfl, hfree, fun spec => ?_⟩
      have hheld : ¬(slot.hold k bank spec).isFree := nofun
      refine ⟨?_, fun specs => ?_⟩
      · rw [List.modify_zero_cons, freeFrom, List.zipIdx_cons, List.filter_cons, if_neg hheld]
      · rw [List.modify_zero_cons, holdAll, if_pos hfree]
        cases specs with
        | nil => rw [holdAll_nil, holdAll_nil]
        | cons next specs => rw [holdAll, if_neg hheld]
    · rw [if_neg hfree] at h
      obtain ⟨j, held, rfl, hj, hheld, hspec⟩ := ih h
      refine ⟨j + 1, held, by omega, hj, hheld, fun spec => ?_⟩
      obtain ⟨hrest, hall⟩ := hspec spec
      refine ⟨?_, fun specs => ?_⟩
      · rw [List.modify_succ_cons, freeFrom, List.zipIdx_cons, List.filter_cons, if_neg hfree]
        exact hrest
      · rw [List.modify_succ_cons, holdAll, if_neg hfree, hall]
        cases specs with
        | nil => rw [holdAll_nil, holdAll_nil]
        | cons next specs => rw [holdAll, if_neg hfree]

end ToneSlot

theorem sublist_filterMap_modify {α β : Type} {f : α → α} {g : α → Option β}
    (h : ∀ a, g (f a) = none ∨ g (f a) = g a) (l : List α) (i : Nat) :
    ((l.modify i f).filterMap g).Sublist (l.filterMap g) := by
  induction l generalizing i with
  | nil => rw [List.modify_nil]
  | cons a l ih =>
    cases i with
    | zero =>
      rw [List.modify_zero_cons]
      rcases h a with hnone | hsame
      · rw [List.filterMap_cons_none hnone, List.filterMap_cons]
        cases g a with
        | none => exact List.Sublist.refl _
        | some b => exact List.sublist_cons_self ..
      · rw [List.filterMap_cons, List.filterMap_cons, hsame]
    | succ i =>
      rw [List.modify_succ_cons, List.filterMap_cons, List.filterMap_cons]
      cases g a with
      | none => exact ih i
      | some b => exact (ih i).cons_cons b

theorem ToneBank.handle?_congr {b left : ToneBank}
    (h : b.slots.map (fun slot => (slot.holder, slot.generation)) =
      left.slots.map fun slot => (slot.holder, slot.generation)) : b.handle? = left.handle? := by
  have heq (b : ToneBank) (id : String) : b.handle? id =
      ((b.slots.map fun slot => (slot.holder, slot.generation)).zipIdx.find? fun p =>
        p.1.1.any (·.1 = id)).map fun p => .ofVoice p.2 p.1.2 := by
    rw [List.zipIdx_map, List.find?_map, Option.map_map]
    rfl
  funext id
  rw [heq, h, ← heq]

theorem ToneBank.handle?_modify {b : ToneBank} {i : Nat} {slot : ToneSlot} {f : ToneSlot → ToneSlot}
    (id : String) (hids : (b.holders.map Prod.fst).Nodup)
    (hleft : (({ b with slots := b.slots.modify i f } : ToneBank).holders.map Prod.fst).Nodup)
    (hslot : b.slots[i]? = some slot) (hbefore : ∀ held ∈ slot.holder, held.1 = id)
    (hafter : ∀ held ∈ (f slot).holder, held.1 = id)
    (honly : ∀ (j : Nat) (other : ToneSlot) (bank : BankHandle), b.slots[j]? = some other →
      other.holder = some (id, bank) → i = j) :
    ({ b with slots := b.slots.modify i f } : ToneBank).handle? = Function.update b.handle? id
      ((f slot).holder.map fun _ => .ofVoice i (f slot).generation) := by
  have hmodified : (b.slots.modify i f)[i]? = some (f slot) := by
    rw [List.getElem?_modify_eq, hslot]
    rfl
  have hother {j : Nat} (hj : i ≠ j) : (b.slots.modify i f)[j]? = b.slots[j]? := by
    simp [hj]
  ext id' h
  rw [handle?_eq_some hleft, Function.update_apply]
  by_cases hid : id' = id
  · subst hid
    rw [if_pos rfl, Option.map_eq_some_iff]
    constructor
    · rintro ⟨j, other, bank, hj, hheld, rfl⟩
      by_cases hij : i = j
      · subst hij
        obtain rfl := Option.some.inj (hmodified.symm.trans hj)
        exact ⟨_, hheld, rfl⟩
      · exact absurd (honly j other bank ((hother hij).symm.trans hj) hheld) hij
    · rintro ⟨held, hheld, rfl⟩
      obtain rfl := hafter held hheld
      exact ⟨i, f slot, held.2, hmodified, hheld, rfl⟩
  · rw [if_neg hid, handle?_eq_some hids]
    refine exists_congr fun j => exists_congr fun other => exists_congr fun bank => ?_
    by_cases hij : i = j
    · subst hij
      rw [hmodified, hslot]
      refine iff_of_false ?_ ?_
      · rintro ⟨heq, hheld, -⟩
        exact hid (hafter _ (Option.some.inj heq ▸ hheld))
      · rintro ⟨heq, hheld, -⟩
        exact hid (hbefore _ (Option.some.inj heq ▸ hheld))
    · rw [hother hij]

namespace ToneDirectory

variable {d : ToneDirectory} {b : ToneBank}

theorem mirrors_new (rate : UInt32) : (new rate).Mirrors (ToneBank.new rate) where
  holders := by simp [new, ToneBank.new]
  generations := by simp [new, ToneBank.new]
  voices := by simp [new, ToneBank.new]
  ids := by
    have hids := (ToneBank.keeps_new rate).ids
    funext id
    cases hhandle : (ToneBank.new rate).handle? id with
    | none => rfl
    | some h =>
      obtain ⟨i, slot, bank, hslot, hheld, -⟩ := (ToneBank.handle?_eq_some hids).mp hhandle
      rw [List.eq_of_mem_replicate (List.mem_of_getElem? hslot)] at hheld
      cases hheld
  banks _ := rfl
  nextBank := rfl
  nyquist := rfl
  input := rfl

theorem Mirrors.fault?_eq (h : d.Mirrors b) (seen : List String) (specs : List ToneSpec) :
    d.fault? seen specs = b.fault? seen specs := by
  have htaken (id : String) : (d.ids id).isSome = (b.find? id).isSome := by
    rw [h.ids, ToneBank.handle?, Option.isSome_map]
  induction specs generalizing seen with
  | nil => rfl
  | cons spec specs ih => rw [fault?, ToneBank.fault?, htaken, h.nyquist, ih]

theorem Mirrors.freeVoices_eq (h : d.Mirrors b) (count : Nat) :
    d.freeVoices count = (ToneSlot.freeFrom 0 b.slots).take count := by
  have hzip : d.holders.zipIdx = b.slots.zipIdx.map fun p => (p.1.holder, p.2) := by
    rw [h.holders, List.zipIdx_map]
    rfl
  unfold freeVoices ToneSlot.freeFrom
  rw [hzip, List.filter_map, List.map_map]
  rfl

theorem Mirrors.addBank (h : d.Mirrors b) (bank : BankHandle) :
    Mirrors { d with banks := Function.update d.banks bank true }
      { b with banks := b.banks ++ [bank] } := { h with
  banks := fun other => by
    dsimp only
    rw [Function.update_apply, h.banks]
    by_cases hother : other = bank <;> simp [hother] }

theorem Mirrors.dropBank (h : d.Mirrors b) (bank : BankHandle) :
    Mirrors { d with banks := Function.update d.banks bank false }
      { b with banks := b.banks.filter (· ≠ bank) } := { h with
  banks := fun other => by
    dsimp only
    rw [Function.update_apply, h.banks]
    by_cases hother : other = bank <;> simp [hother] }

theorem Mirrors.place (h : d.Mirrors b) {bank : BankHandle} {spec : ToneSpec} {i : Nat}
    {slot : ToneSlot} (hids : (b.holders.map Prod.fst).Nodup)
    (hleft : (({ b with slots := b.slots.modify i (·.hold i bank spec) } :
      ToneBank).holders.map Prod.fst).Nodup)
    (hslot : b.slots[i]? = some slot) (hfree : slot.isFree)
    (hnew : spec.id ∉ b.holders.map Prod.fst) :
    (place bank d (i, spec)).Mirrors { b with slots := b.slots.modify i (·.hold i bank spec) } := by
  have hgeneration : d.generations[i]?.getD 0 = slot.generation := by
    rw [h.generations, List.getElem?_map, hslot]
    rfl
  have hnone : slot.holder = none := Option.isNone_iff_eq_none.mp hfree
  have hhandle := ToneBank.handle?_modify spec.id hids hleft hslot (by simp [hnone])
    (by simp [ToneSlot.hold]) fun j other owner hj hheld => absurd
      (List.mem_map_of_mem (ToneBank.mem_holders.mpr ⟨j, other, hj, hheld⟩)) hnew
  exact {
    holders := by
      show d.holders.set i _ = _
      rw [h.holders, List.set_eq_modify]
      exact (map_modify (·.hold i bank spec) (·.holder) (fun _ => some (spec.id, bank)) b.slots
        fun _ _ => rfl).symm
    generations := by
      show d.generations = _
      rw [h.generations]
      exact (map_modify_of_eq (·.hold i bank spec) (·.generation) (fun _ => rfl) b.slots i).symm
    voices := by
      show d.voices.modify i _ = _
      rw [h.voices, hgeneration]
      refine (map_modify (·.hold i bank spec) (·.voice) _ b.slots fun a ha => ?_).symm
      obtain rfl := Option.some.inj (hslot.symm.trans ha)
      rfl
    ids := by
      rw [hhandle, ← h.ids]
      show Function.update d.ids spec.id _ = _
      rw [hgeneration]
      rfl
    banks := h.banks
    nextBank := h.nextBank
    nyquist := h.nyquist
    input := h.input }

theorem ToneBank.holders_hold (bank : BankHandle) (spec : ToneSpec) {i : Nat} {rest : List Nat}
    (h : ToneSlot.freeFrom 0 b.slots = i :: rest) :
    ({ b with slots := b.slots.modify i (·.hold i bank spec) } : ToneBank).holders.Perm
      (b.holders ++ [(spec.id, bank)]) := by
  obtain ⟨j, slot, hij, -, -, hspec⟩ := ToneSlot.exists_first_free bank h
  obtain rfl : i = j := hij.trans (Nat.zero_add j)
  unfold ToneBank.holders
  rw [← ToneSlot.holdAll_nil bank 0 (b.slots.modify i _), ← (hspec spec).2]
  apply ToneSlot.holders_holdAll
  rw [← ToneSlot.length_freeFrom 0, h]
  exact Nat.succ_le_succ (Nat.zero_le _)

theorem Mirrors.placeAll (h : d.Mirrors b) (bank : BankHandle) {specs : List ToneSpec}
    (hids : (b.holders.map Prod.fst ++ specs.map (·.id)).Nodup) (hroom : specs.length ≤ b.free) :
    (((d.freeVoices specs.length).zip specs).foldl (ToneDirectory.place bank) d).Mirrors
      { b with slots := ToneSlot.holdAll bank 0 b.slots specs } := by
  rw [h.freeVoices_eq]
  induction specs generalizing d b with
  | nil =>
    rw [List.zip_nil_right, ToneSlot.holdAll_nil]
    exact h
  | cons spec specs ih =>
    rw [ToneBank.free, ← ToneSlot.length_freeFrom 0] at hroom
    cases hfree : ToneSlot.freeFrom 0 b.slots with
    | nil =>
      rw [hfree] at hroom
      cases hroom
    | cons i rest =>
      obtain ⟨j, slot, hij, hslot, hempty, hspec⟩ := ToneSlot.exists_first_free bank hfree
      obtain rfl : i = j := hij.trans (Nat.zero_add j)
      obtain ⟨hrest, hall⟩ := hspec spec
      have hmoved := ((ToneBank.holders_hold bank spec hfree).map Prod.fst).append_right
        (specs.map (·.id))
      rw [List.map_append, List.append_assoc] at hmoved
      have hids' := hmoved.nodup_iff.mpr hids
      obtain ⟨hheld, -, hapart⟩ := List.nodup_append.mp hids
      have hplace := h.place hheld (List.nodup_append.mp hids').1 hslot hempty
        fun hmem => hapart _ hmem _ List.mem_cons_self rfl
      have hroom' : specs.length ≤ ToneBank.free { b with
          slots := b.slots.modify i (·.hold i bank spec) } := by
        rw [ToneBank.free, ← ToneSlot.length_freeFrom 0, hrest]
        rw [hfree] at hroom
        exact Nat.le_of_succ_le_succ hroom
      have hfold := ih hplace hids' hroom'
      rw [hrest, ← hall] at hfold
      rw [List.length_cons, List.take_succ_cons, List.zip_cons_cons, List.foldl_cons]
      exact hfold

theorem Mirrors.load (h : d.Mirrors b) (hids : (b.holders.map Prod.fst).Nodup)
    (specs : List ToneSpec) : Agree (load specs d) (BankOperation.load specs b) := by
  have hfree : (d.freeVoices specs.length).length < specs.length ↔ b.free < specs.length := by
    rw [h.freeVoices_eq, List.length_take, ToneSlot.length_freeFrom]
    unfold ToneBank.free
    omega
  rw [BankOperation.load_eq]
  unfold ToneDirectory.load
  rw [h.fault?_eq]
  cases hfault : b.fault? [] specs with
  | some fault => exact .error _ h
  | none =>
    dsimp only
    by_cases hfull : b.free < specs.length
    · rw [if_pos hfull, if_pos (hfree.mpr hfull)]
      exact .error _ h
    · rw [if_neg hfull, if_neg (mt hfree.mp hfull), h.nextBank]
      obtain ⟨hnodup, hnew⟩ := ToneBank.ids_of_fault? hfault
      have hnext : Mirrors { d with nextBank := b.nextBank + 1 }
          { b with nextBank := b.nextBank + 1 } := { h with nextBank := rfl }
      have hapart : (b.holders.map Prod.fst ++ specs.map (·.id)).Nodup :=
        List.nodup_append.mpr ⟨hids, hnodup, fun id hid other hother heq =>
          (hnew other hother).2 (heq ▸ hid)⟩
      have hplaced := hnext.placeAll ⟨b.nextBank⟩ hapart (Nat.le_of_not_lt hfull)
      exact .ok _ (hplaced.addBank ⟨b.nextBank⟩)

theorem Mirrors.loadText (h : d.Mirrors b) (hids : (b.holders.map Prod.fst).Nodup)
    (text : String) : Agree (loadText text d) (BankOperation.loadText text b) := by
  rw [BankOperation.loadText_eq]
  unfold ToneDirectory.loadText
  cases ToneSpec.listOfText? text with
  | none => exact .error _ h
  | some specs => exact h.load hids specs

theorem Mirrors.loadFile (h : d.Mirrors b) (hids : (b.holders.map Prod.fst).Nodup)
    (content : Option ByteArray) :
    Agree (loadFile content d) (BankOperation.loadFile content b) := by
  rw [BankOperation.loadFile_eq]
  unfold ToneDirectory.loadFile
  cases content >>= String.fromUTF8? with
  | none => exact .error _ h
  | some text => exact h.loadText hids text

end ToneDirectory

def ToneSlot.without (bank : BankHandle) (slot : ToneSlot) : ToneSlot :=
  if slot.heldBy bank then slot.vacate else slot

theorem getElem?_foldl_modify {α : Type} (f : α → α) (l : List α) (n i : Nat) :
    ((List.range n).foldl (fun l i => l.modify i f) l)[i]? =
      if i < n then l[i]?.map f else l[i]? := by
  induction n with
  | zero => rfl
  | succ n ih =>
    rw [List.range_succ, List.foldl_append, List.foldl_cons, List.foldl_nil, List.getElem?_modify,
      ih]
    by_cases hi : n = i
    · simp [hi]
    · have hlt : i < n + 1 ↔ i < n := by omega
      simp [hi, hlt]

theorem foldl_modify {α : Type} (f : α → α) (l : List α) :
    (List.range l.length).foldl (fun l i => l.modify i f) l = l.map f := by
  apply List.ext_getElem?
  intro i
  rw [getElem?_foldl_modify, List.getElem?_map]
  split
  · rfl
  · rw [List.getElem?_eq_none (by omega)]
    rfl

namespace ToneDirectory

variable {d : ToneDirectory} {b : ToneBank}

theorem nodup_without (hids : (b.holders.map Prod.fst).Nodup) (bank : BankHandle) (i : Nat) :
    (({ b with slots := b.slots.modify i (·.without bank) } :
      ToneBank).holders.map Prod.fst).Nodup := by
  refine hids.sublist (List.Sublist.map _ (sublist_filterMap_modify (fun slot => ?_) _ i))
  unfold ToneSlot.without
  split
  · exact Or.inl rfl
  · exact Or.inr rfl

theorem modify_without_eq_self {bank : BankHandle} {slots : List ToneSlot} {i : Nat}
    (h : ∀ slot, slots[i]? = some slot → ¬slot.heldBy bank) :
    slots.modify i (·.without bank) = slots := by
  apply List.ext_getElem?
  intro j
  rw [List.getElem?_modify]
  by_cases hij : i = j
  · subst hij
    cases hslot : slots[i]? with
    | none => rfl
    | some slot => simp [ToneSlot.without, h slot hslot]
  · simp [hij]

/-- A voice that is held by an event of the bank loses it, and the id resolves no more. -/
theorem Mirrors.vacateHeld (h : d.Mirrors b) (hids : (b.holders.map Prod.fst).Nodup) {i : Nat}
    {slot : ToneSlot} {id : String} {bank : BankHandle} (hslot : b.slots[i]? = some slot)
    (hheld : slot.holder = some (id, bank)) :
    Mirrors { d with
        voices := d.voices.modify i fun v => { v with playing := false }
        holders := d.holders.set i none
        ids := Function.update d.ids id none
        generations := d.generations.modify i (· + 1) }
      { b with slots := b.slots.modify i (·.without bank) } := by
  have hwithout : slot.without bank = slot.vacate := if_pos (by simp [ToneSlot.heldBy, hheld])
  have hmap {β : Type} (g : ToneSlot → β) {k : β → β} (hg : ∀ a : ToneSlot, g a.vacate = k (g a)) :
      (b.slots.map g).modify i k = (b.slots.modify i (·.without bank)).map g := by
    refine (map_modify _ g k b.slots fun a ha => ?_).symm
    obtain rfl := Option.some.inj (hslot.symm.trans ha)
    rw [hwithout]
    exact hg slot
  have hhandle := ToneBank.handle?_modify id hids (nodup_without hids bank i) hslot
    (by simp [hheld]) (by simp [hwithout, ToneSlot.vacate]) fun j other owner hj hother =>
      ToneBank.index_eq hids hslot hj hheld hother rfl
  exact {
    holders := by
      dsimp only
      rw [h.holders, List.set_eq_modify]
      exact hmap ToneSlot.holder fun _ => rfl
    generations := by
      dsimp only
      rw [h.generations]
      exact hmap ToneSlot.generation fun _ => rfl
    voices := by
      dsimp only
      rw [h.voices]
      exact hmap ToneSlot.voice fun _ => rfl
    ids := by
      rw [hhandle, ← h.ids, hwithout]
      rfl
    banks := h.banks
    nextBank := h.nextBank
    nyquist := h.nyquist
    input := h.input }

theorem Mirrors.vacate (h : d.Mirrors b) (hids : (b.holders.map Prod.fst).Nodup)
    (bank : BankHandle) (i : Nat) :
    (vacate bank d i).Mirrors { b with slots := b.slots.modify i (·.without bank) } := by
  have hkept (hnot : ∀ slot, b.slots[i]? = some slot → ¬slot.heldBy bank) :
      d.Mirrors { b with slots := b.slots.modify i (·.without bank) } := by
    rw [modify_without_eq_self hnot]
    exact h
  unfold ToneDirectory.vacate
  rw [h.holders, List.getElem?_map]
  cases hslot : b.slots[i]? with
  | none => exact hkept fun slot hsome => by rw [hslot] at hsome; cases hsome
  | some slot =>
    rw [Option.map_some]
    cases hheld : slot.holder with
    | none =>
      refine hkept fun slot' hsome => ?_
      obtain rfl := Option.some.inj (hslot.symm.trans hsome)
      simp [ToneSlot.heldBy, hheld]
    | some held =>
      obtain ⟨id, owner⟩ := held
      dsimp only
      by_cases howner : owner = bank
      · subst howner
        rw [if_pos rfl, ← h.holders]
        exact h.vacateHeld hids hslot hheld
      · rw [if_neg howner]
        refine hkept fun slot' hsome => ?_
        obtain rfl := Option.some.inj (hslot.symm.trans hsome)
        simp [ToneSlot.heldBy, hheld, howner]

theorem Mirrors.vacateAll (h : d.Mirrors b) (hids : (b.holders.map Prod.fst).Nodup)
    (bank : BankHandle) (is : List Nat) : (is.foldl (ToneDirectory.vacate bank) d).Mirrors { b with
      slots := is.foldl (fun slots i => slots.modify i (·.without bank)) b.slots } := by
  induction is generalizing d b with
  | nil => exact h
  | cons i is ih => exact ih (h.vacate hids bank i) (nodup_without hids bank i)

theorem Mirrors.unload (h : d.Mirrors b) (hids : (b.holders.map Prod.fst).Nodup)
    (bank : BankHandle) : Agree (unload bank d) (BankOperation.unload bank b) := by
  rw [BankOperation.unload_eq]
  unfold ToneDirectory.unload
  rw [h.banks]
  by_cases hbank : b.banks.contains bank
  · rw [if_pos hbank, if_pos hbank]
    have hlength : d.holders.length = b.slots.length := by rw [h.holders, List.length_map]
    have hvacated := (h.dropBank bank).vacateAll hids bank (List.range d.holders.length)
    rw [hlength, foldl_modify, ← hlength] at hvacated
    exact .ok _ hvacated
  · rw [if_neg hbank, if_neg hbank]
    exact .error _ h

theorem Mirrors.eventHandle_eq (h : d.Mirrors b) (id : String) :
    d.eventHandle id = b.eventHandle id := by
  rw [ToneDirectory.eventHandle, h.ids]
  rfl

theorem Mirrors.voice?_eq (h : d.Mirrors b) (event : EventHandle) :
    d.voice? event = if b.isValid event then some event.voice else none := by
  have hholder : d.holders[event.voice]? = b.slots[event.voice]?.map (·.holder) := by
    rw [h.holders, List.getElem?_map]
  have hgeneration : d.generations[event.voice]? = b.slots[event.voice]?.map (·.generation) := by
    rw [h.generations, List.getElem?_map]
  unfold voice? ToneBank.isValid
  rw [hholder, hgeneration]
  cases b.slots[event.voice]? with
  | none => rfl
  | some slot => cases hheld : slot.holder <;> simp [hheld, ToneSlot.isFree]

theorem Mirrors.isValid_eq (h : d.Mirrors b) (event : EventHandle) :
    d.isValid event = b.isValid event := by
  rw [ToneDirectory.isValid, h.voice?_eq]
  cases b.isValid event <;> rfl

theorem Mirrors.setPlaying (h : d.Mirrors b) (event : EventHandle) (playing : Bool) :
    Agree (setPlaying event playing d) (BankOperation.setPlaying event playing b) := by
  rw [BankOperation.setPlaying_eq]
  unfold ToneDirectory.setPlaying
  rw [h.voice?_eq]
  by_cases hvalid : b.isValid event
  · rw [if_pos hvalid, if_pos hvalid]
    have hmap {β : Type} (g : ToneSlot → β)
        (hg : ∀ slot : ToneSlot, g { slot with voice.playing := playing } = g slot) :
        b.slots.map g = (b.withPlaying event playing).slots.map g :=
      (map_modify_of_eq _ g hg b.slots event.voice).symm
    refine .ok _ {
      holders := h.holders.trans (hmap _ fun _ => rfl)
      generations := h.generations.trans (hmap _ fun _ => rfl)
      voices := ?_
      ids := h.ids.trans (ToneBank.handle?_congr (hmap _ fun _ => rfl))
      banks := h.banks
      nextBank := h.nextBank
      nyquist := h.nyquist
      input := h.input }
    dsimp only
    rw [h.voices]
    exact (map_modify _ ToneSlot.voice _ b.slots fun _ _ => rfl).symm
  · rw [if_neg hvalid, if_neg hvalid]
    exact .error _ h

theorem Agree.leftBy {α : Type} {op : Operation α} {op' : BankOperation α}
    (h : Agree (op d) (op' b)) : (d.leftBy op).Mirrors (b.leftBy op') := by
  unfold ToneDirectory.leftBy ToneBank.leftBy
  generalize op d = result, op' b = result' at h
  cases h with
  | ok _ mirrors => exact mirrors
  | error _ mirrors => exact mirrors

theorem Mirrors.act (h : d.Mirrors b) (hids : (b.holders.map Prod.fst).Nodup) (call : BankCall) :
    (d.act call).Mirrors (b.act call) := by
  cases call with
  | load text => exact (h.loadText hids text).leftBy
  | loadFile content => exact (h.loadFile hids content).leftBy
  | unload bank => exact (h.unload hids bank).leftBy
  | start event => exact (h.setPlaying event true).leftBy
  | stop event => exact (h.setPlaying event false).leftBy
  | feed change => exact { h with input := congrArg change h.input }

/-- After every run the parts say what the slots say. -/
theorem mirrors_after (rate : UInt32) (calls : List BankCall) :
    ((new rate).after calls).Mirrors ((ToneBank.new rate).after calls) := by
  induction calls with
  | nil => exact mirrors_new rate
  | cons call past ih => exact ih.act (ToneBank.keeps_after rate past).ids call

/-- Whatever is asked or done, the answer is the same. -/
structure Alike (d : ToneDirectory) (b : ToneBank) : Prop where
  mirrors : d.Mirrors b
  eventHandle : ∀ id, d.eventHandle id = b.eventHandle id
  isValid : ∀ event, d.isValid event = b.isValid event
  loadText : ∀ text, Agree (loadText text d) (BankOperation.loadText text b)
  loadFile : ∀ content, Agree (loadFile content d) (BankOperation.loadFile content b)
  unload : ∀ bank, Agree (unload bank d) (BankOperation.unload bank b)
  start : ∀ event, Agree (ToneDirectory.setPlaying event true d) (BankOperation.start event b)
  stop : ∀ event, Agree (ToneDirectory.setPlaying event false d) (BankOperation.stop event b)

theorem Mirrors.alike (h : d.Mirrors b) (hids : (b.holders.map Prod.fst).Nodup) : d.Alike b where
  mirrors := h
  eventHandle := h.eventHandle_eq
  isValid := h.isValid_eq
  loadText := h.loadText hids
  loadFile := h.loadFile hids
  unload := h.unload hids
  start event := h.setPlaying event true
  stop event := h.setPlaying event false

end ToneDirectory

end Patchbay

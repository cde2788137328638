import Patchbay.Proofs.Session.Admission
import Patchbay.Proofs.Session.Unloading

/-! What unloading a bank takes away. The events of the bank go and the units on them come off, with
one command each; no other event and no other unit has a part in it. The order in which the table
lists its units makes no difference to where they then are, for the engine or for the mixer. -/

namespace Patchbay

namespace ToneBank

def EventOf (b : ToneBank) (bank : BankHandle) (id : String) (h : EventHandle) : Prop :=
  b.eventHandle id = .ok h ∧
    ∃ slot, b.slots[h.voice]? = some slot ∧ slot.holder = some (id, bank)

def Owns (b : ToneBank) (bank : BankHandle) (h : EventHandle) : Prop :=
  ∃ id, b.EventOf bank id h

structure Forgets (b left : ToneBank) (bank : BankHandle) : Prop where
  handles : ∀ h, left.isValid h ↔ b.isValid h ∧ ¬b.Owns bank h
  gone : ∀ id h, b.EventOf bank id h → left.eventHandle id = .error (.notFound id)
  kept : ∀ id, (∀ h, ¬b.EventOf bank id h) → left.eventHandle id = b.eventHandle id
  plays : ∀ h, left.isValid h → left.plays h = b.plays h
  slots : ∀ (i : Nat) (slot : ToneSlot), b.slots[i]? = some slot → ¬slot.heldBy bank →
    left.slots[i]? = some slot
  banks : left.banks = b.banks.filter (· ≠ bank)
  rest : left = { b with slots := left.slots, banks := left.banks }

variable {b : ToneBank} {l : Ledger} {bank : BankHandle}

theorem getElem?_withoutBank (b : ToneBank) (bank : BankHandle) (i : Nat) :
    (b.withoutBank bank).slots[i]? =
      b.slots[i]?.map fun slot => if slot.heldBy bank then slot.vacate else slot :=
  List.getElem?_map

theorem Keeps.heldBy_iff (h : b.Keeps l) (hvoiced : b.Voiced) {event : EventHandle}
    {slot : ToneSlot} (hslot : b.slots[event.voice]? = some slot)
    (hgeneration : slot.generation = event.generation) :
    slot.heldBy bank ↔ b.Owns bank event := by
  have hevent : .ofVoice event.voice slot.generation = event := by
    rw [hgeneration, EventHandle.ofVoice_voice]
  unfold ToneSlot.heldBy
  constructor
  · intro hheld
    obtain ⟨⟨id, held⟩, hholder, hbank⟩ := (Option.any_eq_true ..).mp hheld
    obtain rfl : held = bank := by simpa using hbank
    have hid := (h.eventHandle_held hvoiced hslot).mpr ⟨held, hholder⟩
    rw [hevent] at hid
    exact ⟨id, hid, slot, hslot, hholder⟩
  · rintro ⟨id, -, slot', hslot', hholder⟩
    obtain rfl := Option.some.inj (hslot.symm.trans hslot')
    rw [hholder]
    simp

theorem Keeps.isValid_withoutBank (h : b.Keeps l) (hvoiced : b.Voiced) (event : EventHandle) :
    (b.withoutBank bank).isValid event ↔ b.isValid event ∧ ¬b.Owns bank event := by
  constructor
  · -- a handle that is still good was good, and its voice would be empty were it the bank's
    intro hvalid
    refine ⟨(isValid_of_withoutBank hvalid).1, fun howns => ?_⟩
    obtain ⟨slot, hslot, -, hgeneration⟩ := isValid_iff.mp (isValid_of_withoutBank hvalid).1
    have hheld := (h.heldBy_iff hvoiced hslot hgeneration).mpr howns
    obtain ⟨left, hleft, hsome, -⟩ := isValid_iff.mp hvalid
    rw [getElem?_withoutBank, hslot, Option.map_some, if_pos hheld] at hleft
    obtain rfl := Option.some.inj hleft
    cases hsome
  · rintro ⟨hvalid, howns⟩
    obtain ⟨slot, hslot, hsome, hgeneration⟩ := isValid_iff.mp hvalid
    rw [← h.heldBy_iff hvoiced hslot hgeneration] at howns
    refine isValid_iff.mpr ⟨slot, ?_, hsome, hgeneration⟩
    rw [getElem?_withoutBank, hslot, Option.map_some, if_neg howns]

theorem Keeps.forgets (h : b.Keeps l) (hvoiced : b.Voiced) (bank : BankHandle) :
    b.Forgets (b.withoutBank bank) bank where
  handles := h.isValid_withoutBank hvoiced
  gone id event hevent := by
    obtain ⟨-, slot, hslot, hholder⟩ := hevent
    have hmem : (id, bank) ∈ b.holders := mem_holders.mpr ⟨_, slot, hslot, hholder⟩
    rw [eventHandle_eq_error, holders_withoutBank]
    intro hleft
    obtain ⟨⟨_, other⟩, hother, rfl⟩ := List.mem_map.mp hleft
    obtain ⟨hother, hbank⟩ := List.mem_filter.mp hother
    have heq := List.inj_on_of_nodup_map h.ids hother hmem rfl
    simp [(Prod.mk.inj heq).2] at hbank
  kept id hid := by
    refine eventHandle_congr h.ids (h.withoutBank bank).ids (fun i slot held hslot hholder => ?_) ?_
    · have hheld : ¬slot.heldBy bank := by
        intro hheld
        obtain rfl : held = bank := by simpa [ToneSlot.heldBy, hholder] using hheld
        have hok := (h.eventHandle_held hvoiced hslot).mpr ⟨held, hholder⟩
        refine hid _ ⟨hok, slot, ?_, hholder⟩
        rwa [EventHandle.voice_ofVoice _ (hvoiced.index_lt hslot)]
      rw [getElem?_withoutBank, hslot, Option.map_some, if_neg hheld]
    · rw [holders_withoutBank]
      exact fun hleft => (List.filter_sublist.map _).subset hleft
  plays _ hvalid := (isValid_of_withoutBank hvalid).2
  slots i slot hslot hheld := by
    rw [getElem?_withoutBank, hslot, Option.map_some, if_neg hheld]
  banks := rfl
  rest := rfl

end ToneBank

variable {U : Type}

namespace AttachmentTable

theorem attachment_perm {t t' : AttachmentTable} (h : t'.pairs.Perm t.pairs) :
    t'.attachment = t.attachment := by
  ext u x
  rw [attachment_eq_some, attachment_eq_some, h.mem_iff]

end AttachmentTable

namespace Operation

variable (t : AttachmentTable) {events : List EventHandle}

theorem attachment_clear (events : List EventHandle) (u : UnitHandle) :
    (clear t events).1.attachment u =
      (t.attachment u).filter fun x => x ∉ events.map Target.event := by
  induction events generalizing t with
  | nil => cases h : t.attachment u <;> exact h
  | cons event events ih =>
    have hfirst : (t.detachEvent event).1.attachment u =
        (t.attachment u).filter (· ≠ .event event) := t.attachment_detachTarget u (.event event)
    simp only [clear]
    rw [ih, hfirst, Option.filter_filter]
    congr
    funext x
    simp

theorem commands_clear (hnodup : events.Nodup) : (clear t events).2.map .ofChange =
    (events.filterMap fun event => t.unitAt (.event event)).map Command.detach := by
  induction events generalizing t with
  | nil => rfl
  | cons event events ih =>
    rw [List.nodup_cons] at hnodup
    have hrest : ∀ other ∈ events, (t.detachEvent event).1.unitAt (.event other) =
        t.unitAt (.event other) := by
      intro other hother
      have hne : other ≠ event := fun heq => hnodup.1 (heq ▸ hother)
      ext u
      rw [AttachmentTable.unitAt_eq_some, AttachmentTable.unitAt_eq_some]
      simp only [AttachmentTable.detachEvent]
      rw [AttachmentTable.attachment_detachTarget, Option.filter_eq_some_iff]
      simp [hne]
    simp only [clear]
    rw [List.map_append, ih _ hnodup.2, List.filterMap_congr hrest]
    cases h : t.unitAt (.event event) <;>
      simp [AttachmentTable.detachEvent, AttachmentTable.detachTarget, Command.ofChange, h]

def evicted (c : Console U) (bank : BankHandle) : Console U where
  engine := { c.engine.withoutBank bank with
    table := (clear c.engine.table (c.engine.withoutBank bank).gone).1 }
  commands := ((clear c.engine.table (c.engine.withoutBank bank).gone).2.map .ofChange).foldl
    Queue.push c.commands

theorem ends_evicted {c : Console U} (bank : BankHandle) :
    Ends (unloadBank bank) c fun _ d => bank ∈ c.engine.tones.banks ∧
      c.engine.hosted ≤ c.commands.free ∧ d = evicted c bank := by
  by_cases hroom : c.engine.hosted ≤ c.commands.free
  · by_cases hbank : bank ∈ c.engine.tones.banks
    · exact Ends.of_ok ((unloadBank_of_room hbank hroom).trans (clearEvents_eq _))
        ⟨hbank, hroom, rfl⟩
    · unfold unloadBank
      refine Ends.get (Ends.check (ends_reserve _) fun _ _ => ?_)
      unfold Ends
      rw [bind_of_error (onTones_unload.trans (if_neg (by simpa using hbank)))]
  · unfold Ends
    rw [unloadBank_of_full (Nat.lt_of_not_le hroom)]

end Operation

namespace Engine

variable {e : Engine U} {l : Ledger} {bank : BankHandle}

theorem nodup_gone (e : Engine U) : e.gone.Nodup := by
  unfold gone
  have hevents : ((e.table.pairs.map Prod.snd).filterMap Target.event?).Nodup := by
    refine e.table.nodup_targets.filterMap fun x y event hx hy => ?_
    cases x <;> cases y <;> simp_all [Target.event?]
  rw [List.filterMap_map] at hevents
  exact hevents.sublist List.filter_sublist

theorem mem_gone {event : EventHandle} : event ∈ e.gone ↔
    (∃ u, e.table.attachment u = some (.event event)) ∧ ¬e.tones.isValid event := by
  unfold gone
  rw [List.mem_filter, List.mem_filterMap]
  refine and_congr ?_ (by simp)
  constructor
  · rintro ⟨⟨u, x⟩, hp, hx⟩
    cases x with
    | event other =>
      cases hx
      exact ⟨u, AttachmentTable.attachment_eq_some.mpr hp⟩
    | input => cases hx
    | output => cases hx
  · rintro ⟨u, hu⟩
    exact ⟨_, AttachmentTable.attachment_eq_some.mp hu, rfl⟩

theorem Admits.mem_gone (h : e.Admits) (hkeeps : e.tones.Keeps l) (hvoiced : e.tones.Voiced)
    {event : EventHandle} : event ∈ (e.withoutBank bank).gone ↔
      (∃ u, e.table.attachment u = some (.event event)) ∧ e.tones.Owns bank event := by
  rw [Engine.mem_gone]
  refine and_congr_right ?_
  rintro ⟨u, hu⟩
  have hvalid : e.tones.isValid event := h u _ hu
  show ¬(e.tones.withoutBank bank).isValid event ↔ _
  rw [hkeeps.isValid_withoutBank hvoiced, not_and, not_not]
  exact ⟨fun howns => howns hvalid, fun howns _ => howns⟩

def OnBank (e : Engine U) (bank : BankHandle) (u : UnitHandle) : Prop :=
  ∃ event, e.table.attachment u = some (.event event) ∧ e.tones.Owns bank event

theorem Admits.mem_map_gone (h : e.Admits) (hkeeps : e.tones.Keeps l) (hvoiced : e.tones.Voiced)
    {u : UnitHandle} {x : Target} (hx : e.table.attachment u = some x) :
    x ∈ (e.withoutBank bank).gone.map Target.event ↔ e.OnBank bank u := by
  rw [List.mem_map]
  constructor
  · rintro ⟨event, hmem, rfl⟩
    exact ⟨event, hx, ((h.mem_gone hkeeps hvoiced).mp hmem).2⟩
  · rintro ⟨event, hu, howns⟩
    exact ⟨event, (h.mem_gone hkeeps hvoiced).mpr ⟨⟨u, hu⟩, howns⟩,
      Option.some.inj (hu.symm.trans hx)⟩

def unseated (e : Engine U) (bank : BankHandle) : List UnitHandle :=
  (e.withoutBank bank).gone.filterMap fun event => e.table.unitAt (.event event)

theorem nodup_unseated (e : Engine U) (bank : BankHandle) : (e.unseated bank).Nodup := by
  refine (e.withoutBank bank).nodup_gone.filterMap fun event other u hu hv => ?_
  have hsame := (AttachmentTable.unitAt_eq_some.mp hu).symm.trans
    (AttachmentTable.unitAt_eq_some.mp hv)
  exact Target.event.inj (Option.some.inj hsame)

theorem Admits.mem_unseated (h : e.Admits) (hkeeps : e.tones.Keeps l) (hvoiced : e.tones.Voiced)
    {u : UnitHandle} : u ∈ e.unseated bank ↔ e.OnBank bank u := by
  unfold unseated
  rw [List.mem_filterMap]
  simp only [AttachmentTable.unitAt_eq_some]
  constructor
  · rintro ⟨event, hmem, hu⟩
    exact ⟨event, hu, ((h.mem_gone hkeeps hvoiced).mp hmem).2⟩
  · rintro ⟨event, hu, howns⟩
    exact ⟨event, (h.mem_gone hkeeps hvoiced).mpr ⟨⟨u, hu⟩, howns⟩, hu⟩

end Engine

namespace Session

structure Evicts (s t : Session U) (bank : BankHandle) : Prop where
  tones : s.engine.tones.Forgets t.engine.tones bank
  off : ∀ u, s.engine.OnBank bank u → t.engine.table.attachment u = none
  stays : ∀ u, ¬s.engine.OnBank bank u → t.engine.table.attachment u = s.engine.table.attachment u
  sent : ∃ us : List UnitHandle, us.Nodup ∧ (∀ u, u ∈ us ↔ s.engine.OnBank bank u) ∧
    s.link.commands.Takes (us.map .detach) t.link.commands
  rest : t = { s with
    engine.tones := t.engine.tones
    engine.table := t.engine.table
    link.commands := t.link.commands }

variable {s : Session U} {l : Ledger} {bank : BankHandle}

theorem exists_of_attempt {α : Type} {op : Operation U α} {post : α → Console U → Prop}
    (h : Ends op ⟨s.engine, s.link.commands⟩ post) {a : α} (hok : (s.attempt op).1 = .ok a) :
    ∃ d, post a d ∧ s.attempt op = (.ok a, s.withConsole d) := by
  unfold Ends at h
  unfold attempt at *
  cases hop : op ⟨s.engine, s.link.commands⟩ with
  | ok b d =>
    rw [hop] at h hok
    obtain rfl := Except.ok.inj hok
    exact ⟨d, h, rfl⟩
  | error e d =>
    rw [hop] at hok
    cases hok

theorem attempt_unloadBank_eq
    (hok : (s.attempt (Call.unloadBank bank).operation).1 = .ok .done) :
    bank ∈ s.engine.tones.banks ∧ s.engine.hosted ≤ s.link.commands.free ∧
      (s.attempt (Call.unloadBank bank).operation).2 =
        s.withConsole (Operation.evicted ⟨s.engine, s.link.commands⟩ bank) := by
  have hends : Ends (Call.unloadBank bank).operation ⟨s.engine, s.link.commands⟩ fun _ d =>
      bank ∈ s.engine.tones.banks ∧ s.engine.hosted ≤ s.link.commands.free ∧
        d = Operation.evicted ⟨s.engine, s.link.commands⟩ bank :=
    Ends.map (Operation.ends_evicted bank)
  obtain ⟨_, ⟨hbank, hroom, rfl⟩, heq⟩ := exists_of_attempt hends hok
  exact ⟨hbank, hroom, congrArg Prod.snd heq⟩

theorem evicts_of_done (hkeeps : s.engine.tones.Keeps l) (hvoiced : s.engine.tones.Voiced)
    (hadmits : s.engine.Admits)
    (hok : (s.attempt (Call.unloadBank bank).operation).1 = .ok .done) :
    s.Evicts (s.attempt (Call.unloadBank bank).operation).2 bank := by
  obtain ⟨-, hroom, heq⟩ := attempt_unloadBank_eq hok
  rw [heq]
  have hseat := Operation.attachment_clear s.engine.table (s.engine.withoutBank bank).gone
  have hnodup := (s.engine.withoutBank bank).nodup_gone
  have hlength : (Operation.clear s.engine.table (s.engine.withoutBank bank).gone).2.length ≤
      s.link.commands.free := Nat.le_trans (Operation.length_clear_le ..)
    (Nat.le_trans (Operation.length_gone_le ..) hroom)
  exact {
    tones := hkeeps.forgets hvoiced bank
    off := fun u hu => by
      obtain ⟨event, hevent, -⟩ := id hu
      apply (hseat u).trans
      rw [hevent, Option.filter_some, if_neg]
      simpa using (hadmits.mem_map_gone hkeeps hvoiced hevent).mpr hu
    stays := fun u hu => by
      apply (hseat u).trans
      cases hx : s.engine.table.attachment u with
      | none => rfl
      | some x =>
        rw [Option.filter_some, if_pos]
        simpa using mt (hadmits.mem_map_gone hkeeps hvoiced hx).mp hu
    sent := by
      refine ⟨s.engine.unseated bank, s.engine.nodup_unseated bank,
        fun u => hadmits.mem_unseated hkeeps hvoiced, ?_⟩
      have hcommands : (s.engine.unseated bank).map Command.detach =
        (Operation.clear s.engine.table (s.engine.withoutBank bank).gone).2.map .ofChange :=
          (Operation.commands_clear s.engine.table hnodup).symm
      rw [hcommands]
      exact Queue.takes_foldl_push (by rwa [List.length_map])
    rest := rfl }

/-! The order of the table. -/

def relisted (s : Session U) (table : AttachmentTable) : Session U :=
  { s with engine.table := table }

theorem InStep.relisted (h : InStep s) {table : AttachmentTable}
    (hseat : table.attachment = s.engine.table.attachment) : InStep (s.relisted table) where
  store := h.store
  seated u hu := h.seated u (by rwa [← hseat])
  capacity := h.capacity
  ready := h.ready
  mem_halves := h.mem_halves
  routing := by
    apply h.routing.trans
    unfold Engine.routing
    exact congrArg (Seating.among · _) hseat.symm
  lost := h.lost

theorem InStep.routing_render [Dsp U] {σ : Type} [SignalSource σ] (h : InStep s) (source : σ) :
    (s.render source).session.mixer.routing = s.engine.routing := by
  have hrendered := (h.render source).routing
  have hdrained : (s.render source).session.link.commands.items = [] :=
    s.drained_after_render source []
  rw [hdrained] at hrendered
  apply hrendered.trans
  obtain ⟨-, -, -, es, fs, hran, -, -⟩ :=
    Mixer.render_spec ⟨s.engine.units, []⟩ source h.isSome_get?_of_drain
  refine Engine.routing_congr rfl fun u => ?_
  rw [← UnitStore.isSome_live?_outline, ← s.engine.units.isSome_live?_outline]
  exact congrArg (fun units => (units.live? u).isSome) hran.outline

structure Agrees [Dsp U] (r t : Session U) : Prop where
  attachment : r.engine.table.attachment = t.engine.table.attachment
  unitAt : r.engine.table.unitAt = t.engine.table.unitAt
  routing : ∀ {σ : Type} [SignalSource σ] (source : σ),
    (r.render source).session.mixer.routing = (t.render source).session.mixer.routing

theorem Evicts.agrees [Dsp U] {r s r' t : Session U} (hr : r.Evicts r' bank) (ht : s.Evicts t bank)
    (hin : InStep r') (hin' : InStep t)
    (hseat : r.engine.table.attachment = s.engine.table.attachment)
    (htones : r.engine.tones = s.engine.tones) (hunits : r.engine.units = s.engine.units) :
    r'.Agrees t := by
  have hattachment : r'.engine.table.attachment = t.engine.table.attachment := by
    funext u
    have hsame : r.engine.OnBank bank u ↔ s.engine.OnBank bank u := by
      unfold Engine.OnBank
      rw [hseat, htones]
    by_cases hu : s.engine.OnBank bank u
    · rw [hr.off u (hsame.mpr hu), ht.off u hu]
    · rw [hr.stays u (mt hsame.mp hu), ht.stays u hu, hseat]
  refine ⟨hattachment, ?_, fun source => ?_⟩
  · ext x u
    rw [AttachmentTable.unitAt_eq_some, AttachmentTable.unitAt_eq_some, hattachment]
  · rw [hin.routing_render, hin'.routing_render]
    have hsame : r'.engine.units = t.engine.units :=
      (congrArg (·.engine.units) hr.rest).trans
        (hunits.trans (congrArg (·.engine.units) ht.rest).symm)
    unfold Engine.routing
    rw [hattachment, hsame]

theorem done_relisted {table : AttachmentTable} (hperm : table.pairs.Perm s.engine.table.pairs)
    (hok : (s.attempt (Call.unloadBank bank).operation).1 = .ok .done) :
    ((s.relisted table).attempt (Call.unloadBank bank).operation).1 = .ok .done := by
  obtain ⟨hbank, hroom, -⟩ := attempt_unloadBank_eq hok
  rw [attempt_unloadBank (s := s.relisted table) hbank, if_pos]
  exact Nat.le_trans (Nat.le_of_eq (hperm.countP_eq _)) hroom

/-- When a bank is unloaded, exactly its events go, exactly the units on them come off with a
command each, and nothing else is different. With the units listed in any other order it is done as
well, and leaves every unit in the same place. -/
theorem unload_evicts [Dsp U] {c : Config} {tones : ToneBank} (h : Session.start c tones = .ok s)
    (htones : tones.Reachable) (deeds : List (Deed U))
    (hok : ((s.after deeds).attempt (Call.unloadBank bank).operation).1 = .ok .done) :
    (s.after deeds).Evicts ((s.after deeds).attempt (Call.unloadBank bank).operation).2 bank ∧
    ∀ table : AttachmentTable, table.pairs.Perm (s.after deeds).engine.table.pairs →
      (((s.after deeds).relisted table).attempt (Call.unloadBank bank).operation).1 = .ok .done ∧
      ((s.after deeds).relisted table).Evicts
        (((s.after deeds).relisted table).attempt (Call.unloadBank bank).operation).2 bank ∧
      (((s.after deeds).relisted table).attempt (Call.unloadBank bank).operation).2.Agrees
        ((s.after deeds).attempt (Call.unloadBank bank).operation).2 := by
  have hstart : s.engine.tones.Reachable := by
    obtain ⟨link, -, rfl⟩ := start_eq_ok h
    exact htones
  have hreachable := reachable_tones hstart deeds
  obtain ⟨rate, calls, hcalls⟩ := id hreachable
  have hkeeps := hcalls ▸ ToneBank.keeps_after rate calls
  have hadmits := (admits_after h deeds).2
  have hin := inStep_after h deeds
  have hevicts := evicts_of_done hkeeps hreachable.voiced hadmits hok
  refine ⟨hevicts, fun table hperm => ?_⟩
  have hseat := AttachmentTable.attachment_perm hperm
  have hok' := done_relisted hperm hok
  have hadmits' : ((s.after deeds).relisted table).engine.Admits :=
    hadmits.sub rfl (fun _ => id) fun u x hx => by rwa [← hseat]
  have hevicts' := evicts_of_done (s := (s.after deeds).relisted table) hkeeps hreachable.voiced
    hadmits' hok'
  exact ⟨hok', hevicts', hevicts'.agrees hevicts ((hin.relisted hseat).called _) (hin.called _)
    hseat rfl rfl⟩

def twoBanks : ToneBank := (ToneBank.new 44100).after
  [.load "events = [[\"e\", 330.0]]", .load "events = [[\"c\", 264.0]]"]

def paired : Session StockUnit := { narrow with engine := .ofConfig narrowConfig twoBanks }

def swapped : AttachmentTable where
  pairs := [(⟨1, 0⟩, .event ⟨1⟩), (⟨0, 0⟩, .event ⟨0⟩)]
  nodup_units := by decide
  nodup_targets := by decide

theorem unload_evicts_tiny : Session.start narrowConfig twoBanks = .ok paired ∧
    twoBanks.Reachable ∧
    ((paired.after (.render Silence.mk :: duet)).attempt (Call.unloadBank ⟨0⟩).operation).1 =
      .ok .done ∧
    (paired.after (.render Silence.mk :: duet)).Evicts
      ((paired.after (.render Silence.mk :: duet)).attempt (Call.unloadBank ⟨0⟩).operation).2
      ⟨0⟩ ∧
    (((paired.after (.render Silence.mk :: duet)).relisted swapped).attempt
      (Call.unloadBank ⟨0⟩).operation).2.Agrees
      ((paired.after (.render Silence.mk :: duet)).attempt (Call.unloadBank ⟨0⟩).operation).2 ∧
    ((paired.after (.render Silence.mk :: duet)).attempt
      (Call.unloadBank ⟨0⟩).operation).2.engine.table.pairs = [(⟨1, 0⟩, .event ⟨1⟩)] := by
  obtain ⟨hok, hpairs, hleft⟩ :
      ((paired.after (.render Silence.mk :: duet)).attempt (Call.unloadBank ⟨0⟩).operation).1 =
        .ok .done ∧
      (paired.after (.render Silence.mk :: duet)).engine.table.pairs =
        [(⟨0, 0⟩, .event ⟨0⟩), (⟨1, 0⟩, .event ⟨1⟩)] ∧
      ((paired.after (.render Silence.mk :: duet)).attempt
        (Call.unloadBank ⟨0⟩).operation).2.engine.table.pairs = [(⟨1, 0⟩, .event ⟨1⟩)] := by
    decide +kernel
  have hstart : Session.start narrowConfig twoBanks = .ok paired := rfl
  have hreachable : twoBanks.Reachable := ⟨44100, _, rfl⟩
  obtain ⟨hevicts, horder⟩ := unload_evicts hstart hreachable _ hok
  obtain ⟨-, -, hagrees⟩ := horder swapped (hpairs ▸ List.Perm.swap ..)
  exact ⟨hstart, hreachable, hok, hevicts, hagrees, hleft⟩

end Session

end Patchbay

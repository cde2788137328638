import Patchbay.Proofs.Engine.Dispatch
import Patchbay.Proofs.Engine.Sending
import Patchbay.Proofs.Session.Mix
import Patchbay.Proofs.Tone.Started

/-! What units may sit on. The table of an engine names units in use, and targets that can be used:
events only while they are valid, and input only if some is captured. So no unit ever hears an event
that is gone, or one that does not play. -/

namespace Patchbay

open Mixer Activity

variable {U : Type}

/-- Whether a target can be used, with the events that a registry has. -/
def Target.Usable (c : Config) (tones : ToneBank) : Target → Prop
  | .event h => tones.isValid h
  | .input => 0 < c.inputChannels
  | .output => True

namespace Engine

def Admits (e : Engine U) : Prop :=
  ∀ u x, e.table.attachment u = some x → x.Usable e.config e.tones

theorem Admits.sub {e e' : Engine U} (h : e.Admits) (hconfig : e'.config = e.config)
    (hvalid : ∀ event, e.tones.isValid event → e'.tones.isValid event)
    (htable : ∀ u x, e'.table.attachment u = some x → e.table.attachment u = some x) :
    e'.Admits := by
  intro u x hx
  have hbefore := h u x (htable u x hx)
  cases x with
  | event event => exact hvalid event hbefore
  | input =>
    show 0 < e'.config.inputChannels
    rw [hconfig]
    exact hbefore
  | output => trivial

end Engine

namespace AttachmentTable

theorem attachment_of_detachTarget {t : AttachmentTable} {x y : Target} {u : UnitHandle}
    (h : (t.detachTarget x).1.attachment u = some y) : y ≠ x ∧ t.attachment u = some y := by
  rw [attachment_detachTarget, Option.filter_eq_some_iff] at h
  simpa [and_comm] using h

theorem attachment_of_detach {t : AttachmentTable} {u v : UnitHandle} {x : Target}
    (h : (t.detach u).1.attachment v = some x) : t.attachment v = some x := by
  rw [attachment_detach, Function.update_apply] at h
  split at h
  · cases h
  · exact h

end AttachmentTable

namespace Operation

variable {c : Console U}

theorem attachment_of_clear {t : AttachmentTable} {events : List EventHandle} {u : UnitHandle}
    {x : Target} (h : (clear t events).1.attachment u = some x) :
    x ∉ events.map .event ∧ t.attachment u = some x := by
  induction events generalizing t with
  | nil => exact ⟨List.not_mem_nil, h⟩
  | cons event events ih =>
    obtain ⟨hx, hrest⟩ := ih h
    obtain ⟨hne, hfirst⟩ := AttachmentTable.attachment_of_detachTarget hrest
    rw [List.map_cons, List.mem_cons, not_or]
    exact ⟨⟨hne, hx⟩, hfirst⟩

theorem admits_route (h : c.engine.Admits) (unit? : Option UnitHandle) {x : Target}
    (hx : x.Usable c.engine.config c.engine.tones) :
    Ends (route unit? x : Operation U Unit) c fun _ d => d.engine.Admits := by
  unfold route
  cases unit? with
  | none =>
    apply Ends.get
    split
    · exact Ends.of_ok rfl h
    · refine Ends.check (ends_reserve 1) fun _ _ => Ends.of_ok (follow_eq _) ?_
      exact h.sub rfl (fun _ => id) fun u y hy => (AttachmentTable.attachment_of_detachTarget hy).2
  | some u =>
    refine Ends.check (ends_entry u) fun _ _ => Ends.check (ends_reserve 2) fun _ _ =>
      Ends.of_ok (follow_eq _) ?_
    intro v y hy
    have hattach : (if v = u then some x else (c.engine.table.attachment v).filter (· ≠ x)) =
        some y := (c.engine.table.attachment_attach u v x).symm.trans hy
    split at hattach
    · cases hattach
      exact hx
    · exact h v y (Option.filter_eq_some_iff.mp hattach).1

theorem admits_detach (h : c.engine.Admits) (u : UnitHandle) :
    Ends (detach u : Operation U Unit) c fun _ d => d.engine.Admits := by
  unfold detach
  refine Ends.check (ends_entry u) fun _ _ => Ends.get ?_
  split
  · exact Ends.of_ok rfl h
  · refine Ends.check (ends_reserve 1) fun _ _ => Ends.of_ok (follow_eq _) ?_
    exact h.sub rfl (fun _ => id) fun v x hx => AttachmentTable.attachment_of_detach hx

theorem admits_release (h : c.engine.Admits) (u : UnitHandle) :
    Ends (release u : Operation U Unit) c fun _ d => d.engine.Admits := by
  unfold release
  refine Ends.check (ends_entry u) fun _ _ => Ends.check (ends_reserve 1) fun _ _ =>
    Ends.of_ok rfl ?_
  exact h.sub rfl (fun _ => id) fun v x hx => AttachmentTable.attachment_of_detach hx

theorem admits_create (h : c.engine.Admits) (design : Design U) :
    Ends (create design) c fun _ d => d.engine.Admits := by
  unfold create
  refine Ends.check (ends_read _) fun _ _ => Ends.check (ends_reserve 1) fun _ _ => Ends.get ?_
  dsimp only
  split
  · exact Ends.of_ok rfl (h.sub rfl (fun _ => id) fun _ _ => id)
  · exact rfl

theorem admits_onTones (h : c.engine.Admits) {α : Type} {op : BankOperation α} (call : BankCall)
    (hends : ∀ b, Ends op b fun _ _ => True) (hleft : ∀ b : ToneBank, b.act call = b.leftBy op)
    (hcall : ∀ bank, call ≠ .unload bank) :
    Ends (onTones op : Operation U α) c fun _ d => d.engine.Admits := by
  have hop := hends c.engine.tones
  have hact := hleft c.engine.tones
  unfold Ends at *
  unfold ToneBank.leftBy at hact
  unfold onTones
  cases heq : op c.engine.tones with
  | ok a left =>
    rw [heq] at hact
    refine h.sub rfl (fun event hvalid => ?_) fun _ _ => id
    rw [show left = c.engine.tones.act call from hact.symm]
    exact ToneBank.isValid_act hvalid hcall
  | error e left =>
    rw [heq] at hop
    simp only [hop]

theorem admits_unloadBank (h : c.engine.Admits) (bank : BankHandle) :
    Ends (unloadBank bank : Operation U Unit) c fun _ d => d.engine.Admits := by
  unfold unloadBank
  refine Ends.get (Ends.check (ends_reserve _) fun _ _ => ?_)
  by_cases hbank : c.engine.tones.banks.contains bank
  · apply Ends.of_ok ((bind_of_ok (onTones_unload.trans (if_pos hbank))).trans (clearEvents_eq _))
    intro u x hx
    obtain ⟨hgone, hbefore⟩ := attachment_of_clear hx
    have husable := h u x hbefore
    cases x with
    | event event =>
      have hmem : event ∈ c.engine.table.pairs.filterMap (·.2.event?) :=
        List.mem_filterMap.mpr ⟨_, AttachmentTable.attachment_eq_some.mp hbefore, rfl⟩
      show (c.engine.tones.withoutBank bank).isValid event
      by_contra hinvalid
      have hnot : (c.engine.withoutBank bank).tones.isValid event = false :=
        Bool.eq_false_iff.mpr hinvalid
      exact hgone (List.mem_map_of_mem (List.mem_filter.mpr ⟨hmem, by rw [hnot]; rfl⟩))
    | input => exact husable
    | output => trivial
  · unfold Ends
    rw [bind_of_error (onTones_unload.trans (if_neg hbank))]

end Operation

theorem Call.admits (call : Call U) {c : Console U} (h : c.engine.Admits) :
    Ends call.operation c fun _ d => d.engine.Admits := by
  cases call with
  | create design => exact Ends.map (Operation.admits_create h design)
  | attachToEvent unit? event =>
    apply Ends.map
    unfold Operation.attachToEvent
    apply Ends.get
    split
    · rename_i hvalid
      exact Operation.admits_route h unit? hvalid
    · exact rfl
  | attachToInput unit? =>
    apply Ends.map
    unfold Operation.attachToInput
    apply Ends.get
    split
    · rename_i hinput
      refine Operation.admits_route h unit? ?_
      simpa [Target.Usable, Config.inputFormat?] using hinput
    · exact rfl
  | attachToOutput unit? => exact Ends.map (Operation.admits_route h unit? trivial)
  | detach u => exact Ends.map (Operation.admits_detach h u)
  | release u => exact Ends.map (Operation.admits_release h u)
  | loadBank content =>
    exact Ends.map (Operation.admits_onTones h (.loadFile content)
      (BankOperation.ends_loadFile content) (fun _ => rfl) (by simp))
  | unloadBank bank => exact Ends.map (Operation.admits_unloadBank h bank)
  | startEvent event =>
    exact Ends.map (Operation.admits_onTones h (.start event)
      (BankOperation.ends_setPlaying event true) (fun _ => rfl) (by simp))
  | stopEvent event =>
    exact Ends.map (Operation.admits_onTones h (.stop event)
      (BankOperation.ends_setPlaying event false) (fun _ => rfl) (by simp))

theorem Activity.map_key_sounded (es : List (Activity U)) :
    (sounded es).map key = (es.map key).filter (·.2.buffer?.isSome) := by
  rw [List.filter_map]
  rfl

theorem ToneBank.Voiced.valid_of_sounds {b : ToneBank} (hb : b.Voiced) (source : ToneSource)
    {buffer : AudioBuffer} {s : Sounding} (hs : s ∈ ((b.stream source).renderEvents buffer).1) :
    b.isValid s.event ∧ b.plays s.event := by
  rw [← hb.mem_playing]
  have hmem := List.mem_map_of_mem (f := Sounding.event) hs
  rw [ToneStream.events_renderEvents, List.zip_eq_zip_take_min, List.map_fst_zip (by simp)] at hmem
  exact (((List.take_sublist ..).filter _).map _).subset hmem

namespace Session

variable [Dsp U] {c : Config} {tones : ToneBank} {s : Session U}

theorem config_act (s : Session U) (deed : Deed U) :
    (s.act deed).1.engine.config = s.engine.config := by
  cases deed with
  | call call =>
    rcases s.attempt_call call with ⟨e, heq⟩ | ⟨answer, t, heq, ⟨sent, -, heffect⟩, -⟩
    · rw [act, heq]
    · rw [act, heq]
      generalize t.engine = engine at *
      cases heffect <;> rfl
  | edit u write =>
    obtain ⟨-, heq | ⟨before, unit, -, -, heq⟩⟩ := s.act_edit u write <;> rw [heq]
  | takeUp => exact congrArg Engine.config s.engine_takeUp
  | _ => rfl

theorem admits_act (h : s.engine.Admits) (deed : Deed U) : (s.act deed).1.engine.Admits := by
  cases deed with
  | call call =>
    have hcall := call.admits (c := ⟨s.engine, s.link.commands⟩) h
    show (s.attempt call.operation).2.engine.Admits
    unfold Ends at hcall
    unfold attempt
    cases hop : call.operation ⟨s.engine, s.link.commands⟩ with
    | ok answer d =>
      rw [hop] at hcall
      exact hcall
    | error e d =>
      rw [hop] at hcall
      rw [hcall]
      exact h
  | edit u write =>
    obtain ⟨-, heq | ⟨before, unit, -, -, heq⟩⟩ := s.act_edit u write <;> rw [heq] <;> exact h
  | takeUp => exact s.engine_takeUp.symm ▸ h
  | _ => exact h

theorem admits_after (h : Session.start c tones = .ok s) (deeds : List (Deed U)) :
    (s.after deeds).engine.config = c ∧ (s.after deeds).engine.Admits := by
  induction deeds with
  | nil =>
    obtain ⟨link, -, rfl⟩ := start_eq_ok h
    exact ⟨rfl, nofun⟩
  | cons deed past ih => exact ⟨(config_act _ deed).trans ih.1, admits_act ih.2 deed⟩

def sounds (s : Session U) (source : ToneSource) : List Sounding :=
  if s.link.meters.paused.load then []
  else ((s.engine.tones.stream source).renderEvents s.mixer.scratch).1

/-- What is done in a buffer: every unit that sits somewhere processes what is sent there, and what
is sent to an event is the sound of one that is there and plays. -/
structure Hears (s : Session U) (source : ToneSource) (d : Dispatch (s.sounds source)) : Prop where
  processed : (sounded (s.render (s.engine.tones.stream source)).journal).map key =
    d.sent.filterMap (hears s.engine.table.unitAt)
  attached : ∀ e ∈ (s.render (s.engine.tones.stream source)).journal, ∀ b,
    e.kind = .processed b → ∃ x, s.engine.table.attachment e.unit = some x ∧ (x, b) ∈ d.sent
  events : ∀ event b, (.event event, b) ∈ d.sent →
    s.engine.tones.isValid event ∧ s.engine.tones.plays event

theorem InStep.seats_prepare (h : InStep s) :
    (s.mixer.drain s.link).1.Seats (s.mixer.prepare s.link ⟨s.engine.units, []⟩).2.2 := by
  obtain ⟨es, hran, -⟩ := h.exchanged
  intro x u hu
  rw [hran.isSome_get?]
  exact h.isSome_get?_of_drain u (List.mem_map_of_mem (mem_units_of_unitOn hu))

theorem InStep.sounded_render (h : InStep s) (source : ToneSource) :
    ∃ d : Dispatch (s.sounds source),
      (sounded (s.render (s.engine.tones.stream source)).journal).map key =
        d.sent.filterMap (Patchbay.hears s.engine.table.unitAt) := by
  have hon : (s.mixer.drain s.link).1.unitOn = s.engine.table.unitAt :=
    funext (h.follows_drain.unitOn h.seated)
  obtain ⟨d, hkeys⟩ := keys_render_tones h.seats_prepare (s.engine.tones.stream source)
  rw [hon] at hkeys
  have hheard : (d.sent.filterMap (Patchbay.hears s.engine.table.unitAt)).filter
      (·.2.buffer?.isSome) = d.sent.filterMap (Patchbay.hears s.engine.table.unitAt) := by
    refine List.filter_eq_self.mpr fun k hk => ?_
    obtain ⟨p, -, hp⟩ := List.mem_filterMap.mp hk
    rw [(hears_eq_some.mp hp).2.2]
    rfl
  refine ⟨d, ?_⟩
  rw [Activity.map_key_sounded]
  apply (congrArg (List.filter _) hkeys).trans
  rw [List.filter_append, ← Activity.map_key_sounded, h.sounded_prepare, hheard]
  rfl

theorem InStep.hears (h : InStep s) (htones : s.engine.tones.Voiced) (source : ToneSource) :
    ∃ d : Dispatch (s.sounds source), s.Hears source d := by
  obtain ⟨d, hprocessed⟩ := h.sounded_render source
  refine ⟨d, hprocessed, fun e he b hb => ?_, fun event b hmem => ?_⟩
  · have hsounded : e ∈ sounded (s.render (s.engine.tones.stream source)).journal :=
      List.mem_filter.mpr ⟨he, by rw [hb]; rfl⟩
    have hkey := List.mem_map_of_mem (f := key) hsounded
    rw [hprocessed] at hkey
    obtain ⟨⟨x, sent⟩, hp, hhears⟩ := List.mem_filterMap.mp hkey
    obtain ⟨-, hx, hkind⟩ := hears_eq_some.mp hhears
    rw [hb, Occurrence.processed.injEq] at hkind
    exact ⟨x, AttachmentTable.unitAt_eq_some.mp hx, hkind ▸ hp⟩
  · obtain ⟨sounding, hsounding, rfl, -⟩ := Dispatch.exists_sounding hmem
    unfold sounds at hsounding
    split at hsounding
    · cases hsounding
    · exact htones.valid_of_sounds source hsounding

/-- In every state of a run the table names units in use and targets that can be used, and in the
next buffer no unit hears an event unless the table has it there, the event is valid, and it plays. -/
theorem table_admits_and_hears (h : Session.start c tones = .ok s) (htones : tones.Reachable)
    (deeds : List (Deed U)) :
    (∀ p ∈ (s.after deeds).engine.table.pairs,
      ((s.after deeds).engine.units.live? p.1).isSome ∧
        p.2.Usable c (s.after deeds).engine.tones) ∧
    ∀ source, ∃ d, (s.after deeds).Hears source d := by
  have hin := inStep_after h deeds
  obtain ⟨hconfig, hadmits⟩ := admits_after h deeds
  have hbank : s.engine.tones.Reachable := by
    obtain ⟨link, -, rfl⟩ := start_eq_ok h
    exact htones
  refine ⟨fun p hp => ?_, fun source => hin.hears (reachable_tones hbank deeds).voiced source⟩
  have hattached := AttachmentTable.attachment_eq_some.mpr hp
  have husable := hadmits p.1 p.2 hattached
  rw [hconfig] at husable
  exact ⟨hin.seated p.1 (Option.isSome_of_mem hattached), husable⟩

theorem table_admits_and_hears_tiny :
    Session.start tinyConfig humming = .ok { tiny with engine.tones := humming } ∧
    humming.Reachable ∧
    ({ tiny with engine.tones := humming }.after muffling).engine.table.pairs =
      [(⟨0, 0⟩, .event ⟨0⟩), (⟨1, 0⟩, .output)] ∧
    (∃ d, ({ tiny with engine.tones := humming }.after muffling).Hears quarterTurned d) ∧
    ((sounded (({ tiny with engine.tones := humming }.after muffling).render
      (({ tiny with engine.tones := humming }.after muffling).engine.tones.stream
        quarterTurned)).journal).map (·.unit)) = [⟨0, 0⟩, ⟨1, 0⟩] := by
  have hstart : Session.start tinyConfig humming =
      .ok { tiny with engine.tones := humming } := rfl
  have htones : humming.Reachable := ⟨44100, _, rfl⟩
  obtain ⟨-, hhears⟩ := table_admits_and_hears hstart htones muffling
  exact ⟨hstart, htones, by decide +kernel, hhears quarterTurned, by decide +kernel⟩

end Session

end Patchbay

import Patchbay.Proofs.Engine.Round
import Patchbay.Proofs.Session.Run

/-! The engine and the mixer in step. In every state of a run the commands that still wait take the
mixer's routing to the engine's, and the audio halves on the way, in the mixer and on the way back
are those of the units that hold a slot. Every deed keeps this up. -/

namespace Patchbay

open Mixer Command

variable {U : Type}

def Engine.routing (e : Engine U) : Routing :=
  Seating.among e.table.attachment fun u => (e.units.live? u).isSome

theorem Engine.routing_congr {e e' : Engine U} (htable : e'.table = e.table)
    (hlive : ∀ u, (e'.units.live? u).isSome = (e.units.live? u).isSome) :
    e'.routing = e.routing := by
  unfold Engine.routing
  rw [htable]
  congr
  funext u
  exact hlive u

theorem Engine.edit_eq_ok {e e' : Engine U} {u : UnitHandle} {write : U → Option U}
    (h : e.edit u write = .ok e') : ∃ entry unit, e.units.get? u = some entry ∧
      write entry.unit = some unit ∧ e' = { e with units := e.units.setUnit u unit } := by
  unfold Engine.edit Engine.entry at h
  cases hlive : e.units.live? u with
  | none =>
    rw [hlive] at h
    cases h
  | some entry =>
    rw [hlive] at h
    dsimp only [bind, Except.bind] at h
    split at h
    · rename_i unit hwrite
      exact ⟨entry, unit, (UnitStore.live?_eq_some.mp hlive).1, hwrite, (Except.ok.inj h).symm⟩
    · cases h

namespace Session

@[simp] theorem engine_takeUp (s : Session U) : s.takeUp.engine = s.engine := by
  unfold takeUp
  split <;> rfl

theorem act_edit [Dsp U] (s : Session U) (u : UnitHandle) (write : U → Option U) :
    (s.act (.edit u write)).2 = [] ∧
      ((s.act (.edit u write)).1 = s ∨
        ∃ before unit, s.engine.units.get? u = some before ∧ write before.unit = some unit ∧
          (s.act (.edit u write)).1 =
            { s with engine.units := s.engine.units.setUnit u unit }) := by
  unfold act
  dsimp only
  split
  · rename_i engine hedit
    obtain ⟨before, unit, hbefore, hwrite, rfl⟩ := Engine.edit_eq_ok hedit
    exact ⟨rfl, Or.inr ⟨before, unit, hbefore, hwrite, rfl⟩⟩
  · exact ⟨rfl, Or.inl rfl⟩

def halves (s : Session U) : List UnitHandle :=
  Mixer.halves s.link.commands.items s.mixer s.link.retired

structure InStep (s : Session U) : Prop where
  store : s.engine.units.WellFormed
  seated : ∀ u, (s.engine.table.attachment u).isSome → (s.engine.units.live? u).isSome
  capacity : s.mixer.capacity = s.engine.units.capacity
  ready : Ready s.link.commands.items s.mixer s.link.retired
  mem_halves : ∀ u, u ∈ s.halves ↔ (s.engine.units.get? u).isSome
  routing : actAll s.mixer.routing s.link.commands.items = s.engine.routing
  lost : s.link.commands.lost = []

theorem ofCapacity?_eq_some {c n : Nat} {link : Link} (h : Link.ofCapacity? c n = some link) :
    link.commands.items = [] ∧ link.commands.lost = [] ∧ link.retired.items = [] ∧
      link.retired.capacity = n := by
  unfold Link.ofCapacity? Queue.ofCapacity? at h
  split at h
  · split at h
    · cases h
      exact ⟨rfl, rfl, rfl, rfl⟩
    · cases h
  · cases h

theorem start_eq_ok {c : Config} {tones : ToneBank} {s : Session U}
    (h : Session.start c tones = .ok s) :
    ∃ link, Link.ofCapacity? c.queueCapacity.toNat c.maxUnits.toNat = some link ∧
      s = ⟨.ofConfig c tones, link, .ofConfig c⟩ := by
  unfold Session.start at h
  cases hvalid : c.validate.mapError EngineError.config with
  | error e =>
    rw [hvalid] at h
    cases h
  | ok _ =>
    rw [hvalid] at h
    cases hlink : Link.ofCapacity? c.queueCapacity.toNat c.maxUnits.toNat with
    | none =>
      simp only [hlink] at h
      cases h
    | some link =>
      simp only [hlink] at h
      exact ⟨link, rfl, (Except.ok.inj h).symm⟩

theorem get?_start {c : Config} {tones : ToneBank} (u : UnitHandle) :
    (Engine.ofConfig c tones : Engine U).units.get? u = none := by
  simp [Engine.ofConfig, UnitStore.get?, UnitStore.slot?]

theorem inStep_start {c : Config} {tones : ToneBank} {s : Session U}
    (h : Session.start c tones = .ok s) : InStep s := by
  obtain ⟨link, hlink, rfl⟩ := start_eq_ok h
  obtain ⟨hitems, hlost, hretired, hcapacity⟩ := ofCapacity?_eq_some hlink
  have hhalves : Mixer.halves link.commands.items (.ofConfig c) link.retired = [] := by
    unfold Mixer.halves
    rw [hitems, hretired]
    rfl
  have hready : Ready link.commands.items (.ofConfig c) link.retired := {
    nodup := hhalves ▸ List.nodup_nil
    length_le := by
      rw [hhalves]
      exact Nat.zero_le _
    capacity := hcapacity
    overflow := rfl
    fits := by
      rw [hitems]
      trivial }
  exact {
    store := UnitStore.wellFormed_empty _
    seated := fun u hu => by cases hu
    capacity := rfl
    ready := hready
    mem_halves := fun u => by
      unfold halves
      rw [hhalves, get?_start]
      simp
    routing := by
      rw [hitems]
      rfl
    lost := hlost }

/-! Steps of the mixer. -/

theorem InStep.carriedOut {s t : Session U} {cs : List Command} (h : InStep s)
    (bs : List Command) (hitems : s.link.commands.items = bs ++ cs)
    (hrest : t.link.commands.items = cs) (hlost : t.link.commands.lost = s.link.commands.lost)
    (hmixer : Same (s.mixer.applyAll s.link.retired bs).1 t.mixer)
    (hretired : t.link.retired = (s.mixer.applyAll s.link.retired bs).2)
    (houtline : t.engine.units.outline = s.engine.units.outline)
    (htable : t.engine.table = s.engine.table) : InStep t := by
  have hready := h.ready
  have hrouting := h.routing
  rw [hitems] at hready hrouting
  have hentry (u : UnitHandle) :
      (t.engine.units.get? u).isSome = (s.engine.units.get? u).isSome := by
    rw [← UnitStore.isSome_get?_outline, houtline, UnitStore.isSome_get?_outline]
  have hlive (u : UnitHandle) :
      (t.engine.units.live? u).isSome = (s.engine.units.live? u).isSome := by
    rw [← UnitStore.isSome_live?_outline, houtline, UnitStore.isSome_live?_outline]
  have hunits : t.engine.units.capacity = s.engine.units.capacity :=
    congrArg (UnitStore.capacity (U := Unit)) houtline
  have hhalves : t.halves.Perm s.halves := by
    unfold halves Mixer.halves owned
    rw [hrest, hretired, hmixer.units, hmixer.overflow, hitems]
    exact halves_applyAll ..
  exact {
    store := by
      rw [← UnitStore.wellFormed_outline, houtline]
      exact UnitStore.wellFormed_outline.mpr h.store
    seated := fun u hu => by
      rw [hlive]
      exact h.seated u (htable ▸ hu)
    capacity := by
      rw [hmixer.capacity, capacity_applyAll, hunits]
      exact h.capacity
    ready := by
      rw [hrest, hretired]
      exact hready.applyAll.congr hmixer
    mem_halves := fun u => by
      rw [hhalves.mem_iff, hentry]
      exact h.mem_halves u
    routing := by
      rw [actAll_append, ← hready.routing_applyAll] at hrouting
      rw [hrest, routing_congr hmixer.units, hrouting]
      exact (Engine.routing_congr htable hlive).symm
    lost := hlost.trans h.lost }

theorem InStep.congr {s t : Session U} (h : InStep s) (hlink : t.link = s.link)
    (hmixer : t.mixer = s.mixer) (houtline : t.engine.units.outline = s.engine.units.outline)
    (htable : t.engine.table = s.engine.table) : InStep t := by
  refine h.carriedOut [] rfl (by rw [hlink]) (by rw [hlink]) ?_ ?_ houtline htable
  · rw [hmixer]
    exact ⟨rfl, rfl, rfl⟩
  · rw [hlink]
    rfl

theorem InStep.takeUp {s : Session U} (h : InStep s) : InStep s.takeUp := by
  unfold Session.takeUp
  cases hpop : s.link.commands.pop? with
  | none => exact h
  | some popped =>
    obtain ⟨c, commands⟩ := popped
    obtain ⟨hitems, hlost⟩ := Queue.pop?_eq_some hpop
    exact h.carriedOut [c] hitems rfl hlost ⟨rfl, rfl, rfl⟩ rfl rfl rfl

theorem InStep.nodup_drain {s : Session U} (h : InStep s) :
    (s.mixer.drain s.link).1.owned.Nodup := by
  have hready := h.ready
  rw [← List.append_nil s.link.commands.items] at hready
  rw [drain_eq s.link h.ready.overflow]
  exact hready.applyAll.owned_nodup

theorem InStep.isSome_get?_of_applied {s : Session U} (h : InStep s) {bs cs : List Command}
    (hitems : s.link.commands.items = bs ++ cs) :
    ∀ u ∈ (s.mixer.applyAll s.link.retired bs).1.owned, (s.engine.units.get? u).isSome := by
  intro u hu
  apply (h.mem_halves u).mp
  unfold halves
  rw [hitems, ← (halves_applyAll _ _ _ _).mem_iff]
  exact List.mem_append_right _ (List.mem_append_left _ hu)

theorem InStep.isSome_get?_of_drain {s : Session U} (h : InStep s) :
    ∀ u ∈ (s.mixer.drain s.link).1.owned, (s.engine.units.get? u).isSome := by
  rw [drain_eq s.link h.ready.overflow]
  exact h.isSome_get?_of_applied (List.append_nil _).symm

theorem InStep.render [Dsp U] {σ : Type} [SignalSource σ] {s : Session U} (h : InStep s)
    (source : σ) : InStep (s.render source).session := by
  have hdrain := drain_eq s.link h.ready.overflow
  obtain ⟨hsame, hcommands, hretired, es, fs, hran, -, -⟩ :=
    render_spec ⟨s.engine.units, []⟩ source h.isSome_get?_of_drain
  rw [hdrain] at hsame hcommands hretired
  refine h.carriedOut _ (List.append_nil _).symm ?_ ?_ hsame hretired hran.outline rfl
  · exact congrArg Queue.items hcommands
  · exact (congrArg Queue.lost hcommands).trans rfl

/-! Calls. -/

/-- Commands that fit the engine's routing, and come to what is left of it, keep the mixer in step
when the units that they hand over are those that are new. -/
theorem InStep.sent {s t : Session U} {sent : List Command} (h : InStep s)
    (htakes : s.link.commands.Takes sent t.link.commands) (hmixer : t.mixer = s.mixer)
    (hretired : t.link.retired = s.link.retired) (hstore : t.engine.units.WellFormed)
    (hcapacity : t.engine.units.capacity = s.engine.units.capacity)
    (hseated : ∀ u, (t.engine.table.attachment u).isSome → (t.engine.units.live? u).isSome)
    (hfits : FitAll s.engine.routing sent) (hrouting : actAll s.engine.routing sent =
      t.engine.routing) (hnodup : (sent.filterMap adopted?).Nodup)
    (hnew : ∀ u ∈ sent.filterMap adopted?, s.engine.units.get? u = none)
    (hentry : ∀ u, (t.engine.units.get? u).isSome ↔
      u ∈ sent.filterMap adopted? ∨ (s.engine.units.get? u).isSome) : InStep t := by
  have hhalves : t.halves.Perm (sent.filterMap adopted? ++ s.halves) := by
    unfold halves Mixer.halves
    rw [htakes.items, hmixer, hretired, List.filterMap_append]
    apply (List.perm_append_comm.append_right _).trans
    rw [List.append_assoc]
  have hmem (u : UnitHandle) : u ∈ t.halves ↔ (t.engine.units.get? u).isSome := by
    rw [hhalves.mem_iff, List.mem_append, hentry, h.mem_halves]
  have ht : t.halves.Nodup := by
    refine hhalves.nodup_iff.mpr (List.nodup_append.mpr ⟨hnodup, h.ready.nodup, ?_⟩)
    rintro u hu _ hv rfl
    have hsome := (h.mem_halves u).mp hv
    rw [hnew u hu] at hsome
    cases hsome
  have hmixerCapacity : t.mixer.capacity = t.engine.units.capacity := by
    rw [hmixer, hcapacity]
    exact h.capacity
  have hready : Ready t.link.commands.items t.mixer t.link.retired := {
    nodup := ht
    length_le := by
      rw [hmixerCapacity]
      exact hstore.length_le_of_nodup ht fun u hu => (hmem u).mp hu
    capacity := by
      rw [hretired, hmixer]
      exact h.ready.capacity
    overflow := by
      rw [hmixer]
      exact h.ready.overflow
    fits := by
      rw [htakes.items, fitAll_append, hmixer, h.routing]
      exact ⟨h.ready.fits, hfits⟩ }
  exact {
    store := hstore
    seated := hseated
    capacity := hmixerCapacity
    ready := hready
    mem_halves := hmem
    routing := by rw [htakes.items, actAll_append, hmixer, h.routing, hrouting]
    lost := by
      rw [htakes.lost]
      exact h.lost }

theorem InStep.created {s t : Session U} {d : Design U} {u : UnitHandle} (h : InStep s)
    (hinsert : s.engine.units.insert? d.name d.unit = some (u, t.engine.units))
    (htable : t.engine.table = s.engine.table)
    (htakes : s.link.commands.Takes [.adopt u] t.link.commands) (hmixer : t.mixer = s.mixer)
    (hretired : t.link.retired = s.link.retired) : InStep t := by
  obtain ⟨hstore, hcapacity, hindex, hentry⟩ := UnitStore.insert?_eq_some h.store hinsert
  have hnew : s.engine.units.get? u = none := by
    rw [← Option.not_isSome_iff_eq_none]
    exact fun hsome => hindex u hsome rfl
  have hnotLive : s.engine.units.live? u = none := by
    unfold UnitStore.live?
    rw [hnew]
    rfl
  have hlive (v : UnitHandle) : (t.engine.units.live? v).isSome =
      if v = u then true else (s.engine.units.live? v).isSome := by
    unfold UnitStore.live?
    rw [hentry]
    by_cases hv : v = u <;> simp [hv]
  have hunseated : s.engine.table.attachment u = none := by
    rw [← Option.not_isSome_iff_eq_none]
    intro hsome
    have hu := h.seated u hsome
    rw [hnotLive] at hu
    cases hu
  have hseated (v : UnitHandle) (hv : (t.engine.table.attachment v).isSome) :
      (t.engine.units.live? v).isSome := by
    rw [hlive]
    split
    · rfl
    · exact h.seated v (htable ▸ hv)
  have hfits : Fits s.engine.routing (.adopt u) := by
    simp [Fits, Engine.routing, Seating.among, hnotLive]
  have hrouting : actAll s.engine.routing [.adopt u] = t.engine.routing := by
    funext v
    simp only [actAll, Command.act, Function.update_apply, Engine.routing, Seating.among, hlive,
      htable]
    by_cases hv : v = u
    · simp [hv, hunseated]
    · simp [hv]
  apply h.sent htakes hmixer hretired hstore hcapacity hseated ⟨hfits, trivial⟩ hrouting
  · simp [adopted?]
  · intro v hv
    rw [List.mem_singleton.mp hv]
    exact hnew
  · intro v
    rw [hentry]
    by_cases hv : v = u <;> simp [hv, adopted?]

theorem InStep.released {s t : Session U} {u : UnitHandle} (h : InStep s)
    (hlive : (s.engine.units.live? u).isSome)
    (hunits : t.engine.units = s.engine.units.setReleasing u)
    (htable : t.engine.table = (s.engine.table.detach u).1)
    (htakes : s.link.commands.Takes [.release u] t.link.commands) (hmixer : t.mixer = s.mixer)
    (hretired : t.link.retired = s.link.retired) : InStep t := by
  have hentry (v : UnitHandle) := s.engine.units.get?_modify u v ({ · with releasing := true })
  have hisSome (v : UnitHandle) :
      (t.engine.units.get? v).isSome = (s.engine.units.get? v).isSome := by
    rw [hunits, UnitStore.setReleasing, hentry]
    split <;> simp
  have hothers (v : UnitHandle) : (t.engine.units.live? v).isSome =
      if v = u then false else (s.engine.units.live? v).isSome := by
    rw [hunits, UnitStore.isSome_live?_setReleasing]
  have hseat (v : UnitHandle) : t.engine.table.attachment v =
      if v = u then none else s.engine.table.attachment v := by
    rw [htable, AttachmentTable.attachment_detach, Function.update_apply]
  have hstore : t.engine.units.WellFormed := by
    rw [hunits]
    exact h.store.modify u _
  have hcapacity : t.engine.units.capacity = s.engine.units.capacity := by
    rw [hunits]
    unfold UnitStore.setReleasing UnitStore.modify
    split <;> rfl
  have hseated (v : UnitHandle) (hv : (t.engine.table.attachment v).isSome) :
      (t.engine.units.live? v).isSome := by
    rw [hseat] at hv
    rw [hothers]
    by_cases hvu : v = u
    · rw [if_pos hvu] at hv
      cases hv
    · rw [if_neg hvu] at hv ⊢
      exact h.seated v hv
  have hfits : Fits s.engine.routing (.release u) := (Seating.isSome_among ..).trans hlive
  have hrouting : actAll s.engine.routing [.release u] = t.engine.routing := by
    funext v
    simp only [actAll, Command.act, Function.update_apply, Engine.routing, Seating.among, hothers,
      hseat]
    by_cases hv : v = u <;> simp [hv]
  apply h.sent htakes hmixer hretired hstore hcapacity hseated ⟨hfits, trivial⟩ hrouting
  · exact List.nodup_nil
  · simp [adopted?]
  · intro v
    rw [hisSome]
    simp [adopted?]

theorem InStep.rerouted {s t : Session U} {changes : List RouteChange} (h : InStep s)
    (hlead : RouteChange.Lead s.engine.table.attachment changes t.engine.table.attachment)
    (hknown : ∀ c ∈ changes, (s.engine.units.live? c.unit).isSome ∨
      (s.engine.table.attachment c.unit).isSome)
    (hunits : t.engine.units = s.engine.units)
    (htakes : s.link.commands.Takes (changes.map ofChange) t.link.commands)
    (hmixer : t.mixer = s.mixer) (hretired : t.link.retired = s.link.retired) : InStep t := by
  have hlive : ∀ c ∈ changes, (s.engine.units.live? c.unit).isSome :=
    fun c hc => (hknown c hc).elim id (h.seated c.unit)
  have hadopted : (changes.map ofChange).filterMap adopted? = [] := by
    rw [List.filterMap_map, List.filterMap_eq_nil_iff]
    exact fun c _ => adopted?_ofChange c
  have hseated (u : UnitHandle) (hu : (t.engine.table.attachment u).isSome) :
      (t.engine.units.live? u).isSome := by
    rw [hunits]
    rcases hlead.eq_or_mem u with heq | ⟨c, hc, rfl⟩
    · exact h.seated u (heq ▸ hu)
    · exact hlive c hc
  have hrouting : actAll s.engine.routing (changes.map ofChange) = t.engine.routing := by
    apply (actAll_of_lead hlead).trans
    unfold Engine.routing
    rw [hunits]
  apply h.sent htakes hmixer hretired (hunits ▸ h.store) (by rw [hunits]) hseated
    (fitAll_of_lead hlead hlive) hrouting
  · rw [hadopted]
    exact List.nodup_nil
  · simp [hadopted]
  · simp [hadopted, hunits]

theorem InStep.called {s : Session U} (h : InStep s) (call : Call U) :
    InStep (s.attempt call.operation).2 := by
  rcases s.attempt_call call with ⟨e, heq⟩ | ⟨answer, t, heq, hdone, hmixer, hretired⟩
  · rw [heq]
    exact h
  · rw [heq]
    obtain ⟨sent, htakes, heffect⟩ := hdone
    generalize hengine : t.engine = engine at heffect
    cases heffect with
    | create hinsert =>
      exact h.created (by rw [hinsert, hengine]) (by rw [hengine]) htakes hmixer hretired
    | release hlive =>
      exact h.released hlive (by rw [hengine]) (by rw [hengine]) htakes hmixer hretired
    | reroute _ hlead hknown =>
      exact h.rerouted (by rwa [hengine]) hknown (by rw [hengine]) htakes hmixer hretired

/-! Control ticks. -/

theorem InStep.isSome_get?_of_retired {s : Session U} (h : InStep s) {u : UnitHandle}
    (hu : u ∈ s.link.retired.items) : (s.engine.units.get? u).isSome := by
  apply (h.mem_halves u).mp
  unfold halves Mixer.halves
  rw [List.mem_append, List.mem_append, List.mem_append]
  exact Or.inr (Or.inr (Or.inr hu))

theorem InStep.not_mem_retired {s : Session U} (h : InStep s) {u : UnitHandle}
    (hu : (s.engine.units.live? u).isSome) : u ∉ s.link.retired.items := by
  have hnodup := h.ready.nodup
  unfold Mixer.halves at hnodup
  have hown := List.nodup_append.mp (List.nodup_append.mp hnodup).2.1
  have hsome : (actAll s.mixer.routing s.link.commands.items u).isSome := by
    rw [h.routing]
    exact (Seating.isSome_among ..).trans hu
  intro hretired
  rcases isSome_of_actAll hsome with hadopted | howned
  · exact (List.nodup_append.mp hnodup).2.2 u hadopted u
      (List.mem_append_right _ (List.mem_append_right _ hretired)) rfl
  · exact hown.2.2 u ((s.mixer.isSome_routing u).mp howned) u
      (List.mem_append_right _ hretired) rfl

theorem InStep.collected {s : Session U} (h : InStep s) :
    (s.engine.collected s.link).units.WellFormed ∧
      (s.engine.collected s.link).units.capacity = s.engine.units.capacity ∧
      (∀ u, (s.engine.collected s.link).units.get? u =
        if u ∈ s.link.retired.items then none else s.engine.units.get? u) ∧
      ∃ es, (s.engine.collected s.link).journal = es ∧
        es.map Activity.key = s.link.retired.items.map (·, .released) := by
  obtain ⟨hstore, hcapacity, hentry, es, hes, hkey⟩ := Engine.collect_spec
    ⟨s.engine.units, []⟩ h.store h.ready.retired_nodup fun u hu => h.isSome_get?_of_retired hu
  exact ⟨hstore, hcapacity, hentry, es, hes, hkey⟩

theorem InStep.isSome_live?_collected {s : Session U} (h : InStep s) (u : UnitHandle) :
    ((s.engine.collected s.link).units.live? u).isSome = (s.engine.units.live? u).isSome := by
  obtain ⟨-, -, hentry, -⟩ := h.collected
  by_cases hu : u ∈ s.link.retired.items
  · have hnot : (s.engine.units.live? u).isSome = false := by
      rw [Bool.eq_false_iff]
      exact fun hsome => h.not_mem_retired hsome hu
    rw [hnot, UnitStore.live?, hentry, if_pos hu]
    rfl
  · unfold UnitStore.live?
    rw [hentry, if_neg hu]

theorem InStep.ran_tick [Dsp U] {s : Session U} (h : InStep s) :
    ∃ es, (s.engine.collected s.link).Ran es ⟨s.tick.1.engine.units, s.tick.2⟩ ∧
      es.map Activity.key = s.engine.table.pairs.map fun p => (p.1, .exchangedControl) := by
  apply Engine.tick_spec
  intro u x hx
  have hu := h.seated u (Option.isSome_of_mem hx)
  rw [← h.isSome_live?_collected] at hu
  exact Option.isSome_of_isSome_filter _ _ hu

theorem InStep.tick [Dsp U] {s : Session U} (h : InStep s) : InStep s.tick.1 := by
  obtain ⟨hstore, hcapacity, hentry, -⟩ := h.collected
  obtain ⟨es, hran, -⟩ := h.ran_tick
  have houtline : s.tick.1.engine.units.outline = (s.engine.collected s.link).units.outline :=
    hran.outline
  have hlive (u : UnitHandle) :
      (s.tick.1.engine.units.live? u).isSome = (s.engine.units.live? u).isSome := by
    rw [← h.isSome_live?_collected, ← UnitStore.isSome_live?_outline, houtline,
      UnitStore.isSome_live?_outline]
  have hunits : s.tick.1.engine.units.capacity = s.engine.units.capacity :=
    (congrArg (UnitStore.capacity (U := Unit)) houtline).trans hcapacity
  have htable : s.tick.1.engine.table = s.engine.table := rfl
  -- the halves that came back are gone, and so are the entries of their units
  have hsplit : s.halves.Perm (s.tick.1.halves ++ s.link.retired.items) := by
    unfold halves Mixer.halves
    simp only [← List.append_assoc]
    exact (List.append_nil _ ▸ List.Perm.refl _)
  have hnodup := List.nodup_append.mp (hsplit.nodup_iff.mp h.ready.nodup)
  have hready : Ready s.tick.1.link.commands.items s.tick.1.mixer s.tick.1.link.retired := {
    nodup := hnodup.1
    length_le := by
      have hle : s.halves.length ≤ s.mixer.capacity := h.ready.length_le
      rw [hsplit.length_eq, List.length_append] at hle
      exact Nat.le_of_add_right_le hle
    capacity := h.ready.capacity
    overflow := h.ready.overflow
    fits := h.ready.fits }
  exact {
    store := by
      rw [← UnitStore.wellFormed_outline, houtline]
      exact UnitStore.wellFormed_outline.mpr hstore
    seated := fun u hu => by
      rw [hlive]
      exact h.seated u hu
    capacity := by
      rw [hunits]
      exact h.capacity
    ready := hready
    mem_halves := fun u => by
      rw [← UnitStore.isSome_get?_outline, houtline, UnitStore.isSome_get?_outline, hentry]
      by_cases hu : u ∈ s.link.retired.items
      · simp only [if_pos hu, Option.isSome_none, Bool.false_eq_true, iff_false]
        exact fun hmem => hnodup.2.2 u hmem u hu rfl
      · rw [if_neg hu, ← h.mem_halves, hsplit.mem_iff, List.mem_append]
        simp [hu]
    routing := h.routing.trans (Engine.routing_congr htable hlive).symm
    lost := h.lost }

/-! Runs. -/

theorem InStep.act [Dsp U] {s : Session U} (h : InStep s) (deed : Deed U) :
    InStep (s.act deed).1 := by
  cases deed with
  | call call => exact h.called call
  | edit u write =>
    obtain ⟨-, heq | ⟨before, unit, -, -, heq⟩⟩ := s.act_edit u write
    · rw [heq]
      exact h
    · rw [heq]
      exact h.congr rfl rfl (UnitStore.outline_setUnit ..) rfl
  | pause paused => exact h.congr rfl rfl rfl rfl
  | meter metering => exact h.congr rfl rfl rfl rfl
  | feed change => exact h.congr rfl rfl rfl rfl
  | tick => exact h.tick
  | render source => exact h.render source
  | takeUp => exact h.takeUp

theorem inStep_after [Dsp U] {c : Config} {tones : ToneBank} {s : Session U}
    (h : Session.start c tones = .ok s) (deeds : List (Deed U)) : InStep (s.after deeds) := by
  induction deeds with
  | nil => exact inStep_start h
  | cons deed past ih => exact ih.act deed

end Session

end Patchbay

import Patchbay.Demo.Run
import Patchbay.Proofs.Session.FrameCount

/-! What a demo reports. The session of a demo and its audio thread take turns like any others, so
in its report there are never more frames than the buffers have. -/

namespace Patchbay

theorem exists_of_bind {ε α β : Type} {x : Except ε α} {f : α → Except ε β} {b : β}
    (h : (x >>= f) = .ok b) : ∃ a, x = .ok a ∧ f a = .ok b := by
  cases x with
  | error e => cases h
  | ok a => exact ⟨a, rfl, h⟩

theorem eq_ok_of_mapError {ε ε' α : Type} {f : ε → ε'} {x : Except ε α} {a : α}
    (h : x.mapError f = .ok a) : x = .ok a := by
  cases x with
  | error e => cases h
  | ok b => exact congrArg _ (Except.ok.inj h)

theorem exists_of_map {ε α β : Type} {x : Except ε α} {f : α → β} {b : β}
    (h : x.map f = .ok b) : ∃ a, x = .ok a ∧ f a = b := by
  cases x with
  | error e => cases h
  | ok a => exact ⟨a, rfl, Except.ok.inj h⟩

theorem foldlM_ok {ε α β : Type} {p : β → Prop} {f : β → α → Except ε β}
    (hstep : ∀ b a b', p b → f b a = .ok b' → p b') {l : List α} {b b' : β} (hb : p b)
    (h : l.foldlM f b = .ok b') : p b' := by
  induction l generalizing b with
  | nil => exact Except.ok.inj h ▸ hb
  | cons a l ih =>
    rw [List.foldlM_cons] at h
    obtain ⟨c, hc, hrest⟩ := exists_of_bind h
    exact ih (hstep b a c hb hc) hrest

namespace Playing

variable {σ U : Type} [SignalSource σ] [Dsp U]

def Leads (p q : Playing σ U) : Prop := ∃ turns, p.after turns = q

variable {p q r : Playing σ U} {t : AudioThread σ} {s : Session U}

theorem Leads.refl (p : Playing σ U) : p.Leads p := ⟨[], rfl⟩

theorem Leads.trans (h : p.Leads q) (k : q.Leads r) : p.Leads r := by
  obtain ⟨turns, rfl⟩ := h
  obtain ⟨later, rfl⟩ := k
  exact ⟨later ++ turns, p.after_append later turns⟩

theorem leads_control (deed : Deed U) (hdeed : deed.onMixer = false) :
    Leads ⟨t, s, .idle⟩ ⟨t, (s.act deed).1, .idle⟩ :=
  ⟨[.control deed], if_neg (by simp [hdeed])⟩

theorem leads_run (t : AudioThread σ) (s : Session U) (n : Nat) :
    Leads ⟨t, s, .idle⟩ ⟨(t.run s n).1, (t.run s n).2, .idle⟩ := by
  obtain ⟨k, hk⟩ := exists_after_run t s n
  exact ⟨_, hk⟩

end Playing

namespace Demo

open Playing CommandLine

variable {t t' : AudioThread ToneStream} {s s' : Session StockUnit}

theorem leads_perform (call : Call StockUnit) {α : Type} {op : Operation StockUnit α} {a : α}
    {f : α → Answer} (hcall : call.operation = f <$> op)
    (h : perform s op = .ok (a, s')) : Leads ⟨t, s, .idle⟩ ⟨t, s', .idle⟩ := by
  have hact : (s.act (.call call)).1 = s' := by
    have hperform := eq_ok_of_mapError h
    unfold Session.perform Session.attempt at hperform
    show (s.attempt call.operation).2 = s'
    unfold Session.attempt
    rw [hcall]
    cases hop : op ⟨s.engine, s.link.commands⟩ with
    | ok b d =>
      rw [hop] at hperform
      rw [map_of_ok hop]
      exact congrArg Prod.snd (Except.ok.inj hperform)
    | error e d =>
      rw [hop] at hperform
      cases hperform
  exact hact ▸ leads_control (.call call) rfl

def Follows (afterTick : Engine StockUnit → Except EngineError (Engine StockUnit)) : Prop :=
  ∀ (t : AudioThread ToneStream) (s : Session StockUnit) (engine : Engine StockUnit),
    afterTick s.engine = .ok engine → Leads ⟨t, s, .idle⟩ ⟨t, { s with engine }, .idle⟩

variable {afterTick : Engine StockUnit → Except EngineError (Engine StockUnit)}

theorem leads_round (hafter : Follows afterTick) (n : Nat) {engine : Engine StockUnit}
    (hengine : afterTick (t.run s n).2.tick.1.engine = .ok engine) :
    Leads ⟨t, s, .idle⟩ ⟨(t.run s n).1, { (t.run s n).2.tick.1 with engine }, .idle⟩ := by
  have htick : Leads ⟨(t.run s n).1, (t.run s n).2, .idle⟩
      ⟨(t.run s n).1, (t.run s n).2.tick.1, .idle⟩ := leads_control .tick rfl
  exact ((leads_run t s n).trans htick).trans (hafter _ _ _ hengine)

theorem leads_drive {pacing : Pacing} {time : Span} (hafter : Follows afterTick)
    (h : drive pacing time afterTick t s = .ok (t', s')) :
    Leads ⟨t, s, .idle⟩ ⟨t', s', .idle⟩ := by
  unfold drive at h
  split at h
  · cases h
  · refine foldlM_ok (p := fun x => Leads ⟨t, s, .idle⟩ ⟨x.1, x.2, .idle⟩) ?_ (.refl _) h
    rintro ⟨t₁, s₁⟩ k x hleads hstep
    obtain ⟨engine, hengine, hx⟩ := exists_of_bind hstep
    obtain rfl := Except.ok.inj hx
    exact hleads.trans (leads_round hafter _ (eq_ok_of_mapError hengine))

/-- A report tells the buffers that are seen after some run of a session for a configuration, and
what is known of the mix some turns later, with no tick since. -/
def Shows (config : Config) (r : Report) : Prop :=
  ∃ (tones : ToneBank) (s : Session StockUnit) (source : ToneStream)
    (past turns : List (Playing.Turn ToneStream StockUnit)),
    Session.start config tones = .ok s ∧ .control .tick ∉ turns ∧
      r.buffers = (Playing.after ⟨{ source }, s, .idle⟩ past).buffers ∧
      r.meters = (Playing.after ⟨{ source }, s, .idle⟩ (turns ++ past)).snapshot

theorem shows_of_leads {config : Config} {tones : ToneBank} {source : ToneStream} {r : Report}
    (hstart : Session.start config tones = .ok s)
    (hleads : Leads ⟨{ source }, s, .idle⟩ ⟨t', s', .idle⟩) (hbuffers : r.buffers = t'.buffers.load)
    {n : Nat} (hmeters : r.meters = (t'.run s' n).2.engine.meters.snapshot) : Shows config r := by
  obtain ⟨past, hpast⟩ := hleads
  obtain ⟨k, hk⟩ := exists_after_run t' s' n
  have htick : (.control .tick : Playing.Turn ToneStream StockUnit) ∉ List.replicate k .audio :=
    fun h => nomatch List.eq_of_mem_replicate h
  refine ⟨tones, s, source, past, .replicate k .audio, hstart, htick, ?_, ?_⟩
  · rw [hpast]
    exact hbuffers
  · rw [after_append, hpast, hk]
    exact hmeters

theorem follows_nothing : Follows .ok := by
  intro t s engine hengine
  obtain rfl := Except.ok.inj hengine
  exact .refl _

theorem follows_climb (u : UnitHandle) (write : StockUnit → Option StockUnit) :
    Follows fun e => e.edit u write := by
  intro t s engine hengine
  have hact : (s.act (.edit u write)).1 = { s with engine } := by
    have hedit : s.engine.edit u write = .ok engine := hengine
    simp only [Session.act, hedit]
  exact hact ▸ leads_control (.edit u write) rfl

theorem shows_input {pacing : Pacing} {config : Config} {time : Span} {frequency level : Sample}
    {r : Report} (h : Demo.input pacing config time frequency level = .ok r) : Shows config r := by
  unfold Demo.input at h
  obtain ⟨s, hstart, h⟩ := exists_of_bind h
  obtain ⟨⟨u, s₁⟩, hcreate, h⟩ := exists_of_bind h
  obtain ⟨⟨⟨⟩, s₂⟩, hattach, h⟩ := exists_of_bind h
  obtain ⟨⟨t, s₃⟩, hdrive, h⟩ := exists_of_bind h
  obtain ⟨c, -, h⟩ := exists_of_bind h
  obtain rfl := Except.ok.inj h
  have hcreated : Leads ⟨thread s₂, s, .idle⟩ ⟨thread s₂, s₁, .idle⟩ :=
    leads_perform (.create .peakMeter) rfl hcreate
  have hattached : Leads ⟨thread s₂, s₁, .idle⟩ ⟨thread s₂, s₂, .idle⟩ :=
    leads_perform (.attachToInput (some u)) rfl hattach
  have hdriven : Leads ⟨thread s₂, s₂, .idle⟩ ⟨t, s₃, .idle⟩ := leads_drive follows_nothing hdrive
  have hread := leads_run t s₃ pacing.beforeRead
  exact shows_of_leads (eq_ok_of_mapError hstart)
    (((hcreated.trans hattached).trans hdriven).trans hread) rfl rfl

theorem exists_of_default {tones : ToneBank} {own : Bool} {f : ToneBank → Outcome Report}
    {loaded : EStateM.Result BankError ToneBank BankHandle} {r : Report}
    (h : (if own then .ok tones >>= f
      else match loaded with
        | .ok _ tones => .ok tones >>= f
        | .error cause _ => .error (.bank cause) >>= f) = .ok r) : ∃ tones, f tones = .ok r := by
  split at h
  · exact ⟨tones, h⟩
  · split at h
    · exact ⟨_, h⟩
    · cases h

theorem exists_of_given {bank : Option (Option ByteArray)} {f : Session StockUnit → Outcome Report}
    {r : Report} (h : (match bank with
      | some content => (perform s (.loadBank content)).map Prod.snd >>= f
      | none => .ok s >>= f) = .ok r) :
    ∃ s', (∀ t : AudioThread ToneStream, Leads ⟨t, s, .idle⟩ ⟨t, s', .idle⟩) ∧ f s' = .ok r := by
  split at h
  · rename_i content
    obtain ⟨s', hload, hrest⟩ := exists_of_bind h
    obtain ⟨⟨number, left⟩, hperform, rfl⟩ := exists_of_map hload
    exact ⟨left, fun t => leads_perform (.loadBank content) rfl hperform, hrest⟩
  · exact ⟨s, fun t => .refl _, h⟩

theorem shows_gain {pacing : Pacing} {config : Config} {time : Span}
    {bank : Option (Option ByteArray)} {id : String} {gain ramp : Sample} {r : Report}
    (h : Demo.gain pacing config time bank id gain ramp = .ok r) : Shows config r := by
  unfold Demo.gain at h
  dsimp only at h
  -- whatever becomes of the bank of its own, which would be read here otherwise
  generalize BankOperation.loadText defaultBank (.new config.sampleRate) = loaded at h
  obtain ⟨tones, h⟩ := exists_of_default h
  obtain ⟨s, hstart, h⟩ := exists_of_bind h
  obtain ⟨s₁, hloaded, h⟩ := exists_of_given h
  obtain ⟨event, -, h⟩ := exists_of_bind h
  obtain ⟨⟨u, s₂⟩, hcreate, h⟩ := exists_of_bind h
  obtain ⟨⟨⟨⟩, s₃⟩, hattach, h⟩ := exists_of_bind h
  obtain ⟨⟨⟨⟩, s₄⟩, hplay, h⟩ := exists_of_bind h
  obtain ⟨⟨t, s₅⟩, hdrive, h⟩ := exists_of_bind h
  obtain ⟨⟨⟨⟩, s₆⟩, hstop, h⟩ := exists_of_bind h
  obtain ⟨c, -, h⟩ := exists_of_bind h
  obtain rfl := Except.ok.inj h
  have hcreated : Leads ⟨thread s₄, s₁, .idle⟩ ⟨thread s₄, s₂, .idle⟩ :=
    leads_perform (.create (.gainMeter gain)) rfl hcreate
  have hattached : Leads ⟨thread s₄, s₂, .idle⟩ ⟨thread s₄, s₃, .idle⟩ :=
    leads_perform (.attachToEvent (some u) event) rfl hattach
  have hplayed : Leads ⟨thread s₄, s₃, .idle⟩ ⟨thread s₄, s₄, .idle⟩ :=
    leads_perform (.startEvent event) rfl hplay
  have hdriven : Leads ⟨thread s₄, s₄, .idle⟩ ⟨t, s₅, .idle⟩ :=
    leads_drive (follows_climb u _) hdrive
  have hstopped : Leads ⟨t, s₅, .idle⟩ ⟨t, s₆, .idle⟩ :=
    leads_perform (.stopEvent event) rfl hstop
  have hread := leads_run t s₆ pacing.beforeRead
  exact shows_of_leads (eq_ok_of_mapError hstart) (((((((hloaded _).trans hcreated).trans
    hattached).trans hplayed).trans hdriven).trans hstopped).trans hread) rfl rfl

theorem Shows.frames_le {config : Config} {r : Report} (h : Shows config r) :
    r.meters.framesMixed ≤ r.buffers * config.framesPerBuffer.toNat := by
  obtain ⟨tones, s, source, past, turns, hstart, htick, hbuffers, hmeters⟩ := h
  rw [hbuffers, hmeters, Nat.mul_comm]
  exact (framesBehind_start hstart source past).earlier turns htick

def GoesBy (request : Request) (files : String → Option ByteArray) (config : Config) : Prop :=
  match request.config with
  | some path => Config.load (files path) = .ok config
  | none => config = {}

theorem exists_of_configured {request : Request} {files : String → Option ByteArray}
    {f : Config → Outcome Report} {r : Report} (h : (match request.config with
      | some path =>
        (Config.load (files path)).mapError (fun _ => DemoFailure.unloadable path) >>= f
      | none => (.ok {} : Outcome Config) >>= f) = .ok r) :
    ∃ config, GoesBy request files config ∧ f config = .ok r := by
  unfold GoesBy
  split at h
  · obtain ⟨config, hload, hrest⟩ := exists_of_bind h
    exact ⟨config, eq_ok_of_mapError hload, hrest⟩
  · exact ⟨_, rfl, h⟩

theorem shows_run {pace : Config → Span → Pacing} {request : Request}
    {files : String → Option ByteArray} {r : Report} (h : request.runAt pace files = .ok r) :
    ∃ config, GoesBy request files config ∧ Shows config r := by
  unfold Request.runAt at h
  obtain ⟨config, hconfig, h⟩ := exists_of_configured h
  refine ⟨config, hconfig, ?_⟩
  split at h
  · cases h
  · dsimp only at h
    split at h
    · exact shows_gain h
    · exact shows_input h

/-- Frames never run ahead of buffers: not for a control side that breaks in anywhere between the
turns of the audio thread, not in a report that is read off such a run after its last tick, and not
in the report of a demo, whatever the pace of its threads. -/
theorem frames_never_ahead {σ U : Type} [SignalSource σ] [Dsp U] [Dsp.InPlace U]
    [SignalSource.InPlace σ] :
    (∀ {c : Config} {tones : ToneBank} {s : Session U}, Session.start c tones = .ok s →
      ∀ (source : σ) (past : List (Playing.Turn σ U)),
        FramesBehind c.framesPerBuffer.toNat ⟨{ source }, s, .idle⟩ past) ∧
      (∀ {config : Config} {r : Report}, Shows config r →
        r.meters.framesMixed ≤ r.buffers * config.framesPerBuffer.toNat) ∧
      ∀ {pace : Config → Span → Pacing} {request : Request} {files : String → Option ByteArray}
        {r : Report}, request.runAt pace files = .ok r → ∃ config, GoesBy request files config ∧
          Shows config r ∧ r.meters.framesMixed ≤ r.buffers * config.framesPerBuffer.toNat := by
  refine ⟨fun h source past => framesBehind_start h source past, Shows.frames_le, fun h => ?_⟩
  obtain ⟨config, hconfig, hshows⟩ := shows_run h
  exact ⟨config, hconfig, hshows, hshows.frames_le⟩

def brokenIn : List (Playing.Turn ToneStream StockUnit) :=
  [.control .tick, .audio, .audio, .audio, .audio]

def shortBeep : Request := ⟨some "short.toml", 0.001, false, .gain none "beep" 0.5 0⟩

def shortFiles (_ : String) : Option ByteArray :=
  some "sample_rate = 4000\nframes_per_buffer = 1\ntick_rate_hz = 1000\n".toUTF8

def ragged (_ : Config) (_ : Span) : Pacing :=
  { ticks := 2, beforeTick := (3 * ·), beforeRead := 1, beforeStop := 1 }

theorem frames_never_ahead_short :
    Session.start Session.tinyConfig (.new 44100) = .ok Session.tiny ∧
    (Playing.after ⟨thread Session.tiny, Session.tiny, .idle⟩ brokenIn).snapshot.framesMixed = 1 ∧
    (Playing.after ⟨thread Session.tiny, Session.tiny, .idle⟩ brokenIn).buffers = 1 ∧
    FramesBehind 1 ⟨thread Session.tiny, Session.tiny, .idle⟩ brokenIn ∧
    (∃ r, shortBeep.run shortFiles = .ok r ∧ r.buffers = 4 ∧ r.meters.framesMixed = 3 ∧
      ∃ config, GoesBy shortBeep shortFiles config ∧
        r.meters.framesMixed ≤ r.buffers * config.framesPerBuffer.toNat) ∧
    ∃ r, shortBeep.runAt ragged shortFiles = .ok r ∧ r.buffers = 4 ∧ r.meters.framesMixed = 2 ∧
      ∃ config, Shows config r ∧
        r.meters.framesMixed ≤ r.buffers * config.framesPerBuffer.toNat := by
  have hrun : (shortBeep.run shortFiles).toOption.map (fun r => (r.buffers, r.meters.framesMixed)) =
      some (4, 3) := by decide +kernel
  have hragged : (shortBeep.runAt ragged shortFiles).toOption.map
      (fun r => (r.buffers, r.meters.framesMixed)) = some (4, 2) := by decide +kernel
  obtain ⟨hplaying, hshown, hreports⟩ := frames_never_ahead (σ := ToneStream) (U := StockUnit)
  refine ⟨Session.start_tiny, by decide +kernel, by decide +kernel,
    hplaying Session.start_tiny _ brokenIn, ?_, ?_⟩
  · cases hreport : shortBeep.run shortFiles with
    | error cause =>
      rw [hreport] at hrun
      cases hrun
    | ok r =>
      rw [hreport] at hrun
      obtain ⟨hbuffers, hframes⟩ := Prod.mk.inj (Option.some.inj hrun)
      obtain ⟨config, hconfig, -, hle⟩ := hreports hreport
      exact ⟨r, rfl, hbuffers, hframes, config, hconfig, hle⟩
  · cases hreport : shortBeep.runAt ragged shortFiles with
    | error cause =>
      rw [hreport] at hragged
      cases hragged
    | ok r =>
      rw [hreport] at hragged
      obtain ⟨hbuffers, hframes⟩ := Prod.mk.inj (Option.some.inj hragged)
      obtain ⟨config, -, hshows, -⟩ := hreports hreport
      exact ⟨r, rfl, hbuffers, hframes, config, hshows, hshown hshows⟩

end Demo

end Patchbay

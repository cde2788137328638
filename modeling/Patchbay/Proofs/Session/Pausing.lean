import Patchbay.Proofs.Session.Eviction
import Patchbay.Proofs.Session.Mix
import Patchbay.Proofs.Unit.Effect

/-! Pauses. A paused mixer goes on to carry out commands, to exchange fields and to send input
through its unit, but none of this is heard afterwards: when it plays again, the buffers are those
that there would have been without the pause. -/

namespace Patchbay

open Mixer Activity

variable {U : Type}

/-! Tones in a pause. -/

namespace ToneSource

def withoutInput (s : ToneSource) : ToneSource := { s with inputPhase := 0 }

/-- The source after a buffer, but for the input; in a pause no event gets any further. -/
def rendered (s : ToneSource) (voices : List Voice) (frames : Nat) (paused : Bool) :
    ToneSource where
  sampleRate := s.sampleRate
  phases := if paused then s.phases else (s.renderVoices voices frames).2

end ToneSource

namespace Mixer

variable [Dsp U]

theorem source_processInput (m : Mixer) (bank : ToneBank) (source : ToneSource) (rack : Rack U) :
    ∃ phase, (m.processInput (bank.stream source) rack).2.1 =
      bank.stream { source with inputPhase := phase } := by
  unfold processInput
  split
  · exact ⟨source.inputPhase, rfl⟩
  · obtain ⟨phase, hphase⟩ := (bank.stream source).exists_captureInput m.input
    refine ⟨phase, Eq.trans ?_ hphase⟩
    split <;> rename_i hcapture <;> exact (congrArg Prod.snd hcapture).symm

theorem source_mix {m : Mixer} {frames outputs inputs : Nat} (houtputs : 0 < outputs)
    (hshaped : m.Shaped frames outputs inputs) (rack : Rack U) (bank : ToneBank)
    (source : ToneSource) :
    ∃ source', (m.mix (bank.stream source) rack).2.1 = bank.stream source' ∧
      source'.withoutInput =
        source.rendered (bank.slots.map (·.voice)) frames m.meters.paused := by
  unfold mix
  cases hplays : m.meters.paused with
  | true =>
    rw [if_pos rfl]
    exact ⟨source, rfl, rfl⟩
  | false =>
    rw [if_neg Bool.false_ne_true, ← AudioBuffer.frames_of_shape houtputs hshaped.scratch]
    exact ⟨_, rfl, rfl⟩

theorem source_render [Dsp.InPlace U] {m : Mixer} {frames outputs inputs : Nat}
    (houtputs : 0 < outputs) (hshaped : m.Shaped frames outputs inputs) (link : Link)
    (rack : Rack U) (bank : ToneBank) (source : ToneSource) :
    ∃ source', (m.render link rack (bank.stream source)).source = bank.stream source' ∧
      source'.withoutInput =
        source.rendered (bank.slots.map (·.voice)) frames link.meters.paused.load := by
  have hshaped' := (hshaped.prepare link rack).processInput (bank.stream source)
    (m.prepare link rack).2.2
  obtain ⟨-, hmeters, -⟩ :=
    (m.prepare link rack).1.processInput_frame (bank.stream source) (m.prepare link rack).2.2
  obtain ⟨phase, hphase⟩ :=
    (m.prepare link rack).1.source_processInput bank source (m.prepare link rack).2.2
  obtain ⟨source', hsource, hrendered⟩ := source_mix houtputs hshaped'
    ((m.prepare link rack).1.processInput (bank.stream source) (m.prepare link rack).2.2).2.2
    bank { source with inputPhase := phase }
  rw [hmeters] at hrendered
  refine ⟨source', ?_, hrendered⟩
  rw [← hsource, ← hphase]
  rfl

end Mixer

namespace Stage

variable [Dsp U]

theorem sum_congr {f g : Stage U} (h : g.through = f.through) : g.sum = f.sum := by
  unfold sum
  rw [h]

/-- The buffers that come of tones, one after the other, as long as everyone goes on doing to sound
what they do on a stage. -/
def heard (f : Stage U) (bank : ToneBank) (frames outputs : Nat) :
    ToneSource → Nat → List AudioBuffer
  | _, 0 => []
  | source, n + 1 =>
    f.through .output (f.sum ((bank.stream source).sent frames outputs)
        (.silent (frames * outputs) outputs)) ::
      f.heard bank frames outputs (source.rendered (bank.slots.map (·.voice)) frames false) n

theorem heard_withoutInput (f : Stage U) (bank : ToneBank) (frames outputs : Nat)
    (source : ToneSource) (n : Nat) :
    f.heard bank frames outputs source.withoutInput n = f.heard bank frames outputs source n := by
  cases n <;> rfl

end Stage

namespace Session

structure Played (U σ : Type) where
  session : Session U
  source : σ
  outputs : List AudioBuffer := []

variable [Dsp U]

def play {σ : Type} [SignalSource σ] (s : Session U) (source : σ) : Nat → Played U σ
  | 0 => { session := s, source }
  | n + 1 =>
    let r := s.render source
    let rest := r.session.play r.source n
    { rest with outputs := r.output :: rest.outputs }

def resumed (s : Session U) : Session U := ((s.act (.pause false)).1.act .tick).1

def manner (s : Session U) (x : Target) : Option (Dsp.Control U × (AudioBuffer → AudioBuffer)) :=
  s.engine.table.unitAt x >>= fun u =>
    (s.engine.units.get? u).map fun entry => (Dsp.control entry.unit, Dsp.effect entry.unit)

variable {s : Session U}

theorem through_eq (s : Session U) (x : Target) :
    s.stage.through x = (s.manner x).elim id Prod.snd := by
  funext b
  unfold Stage.through stage manner
  cases s.engine.table.unitAt x with
  | none => rfl
  | some u =>
    rw [Option.bind_eq_bind, Option.bind_eq_bind, Option.bind_some, Option.bind_some]
    cases s.engine.units.get? u <;> rfl

theorem manner_eq_none {x : Target} (hx : s.engine.table.unitAt x = none) : s.manner x = none := by
  unfold manner
  rw [hx]
  rfl

theorem InStep.manner_eq_some (h : InStep s) {u : UnitHandle} {x : Target}
    (hu : s.engine.table.unitAt x = some u) :
    ∃ entry, s.engine.units.get? u = some entry ∧
      s.manner x = some (Dsp.control entry.unit, Dsp.effect entry.unit) := by
  have hlive := h.seated u (Option.isSome_of_mem (AttachmentTable.unitAt_eq_some.mp hu))
  obtain ⟨entry, hentry⟩ := Option.isSome_iff_exists.mp (Option.isSome_of_isSome_filter _ _ hlive)
  refine ⟨entry, hentry, ?_⟩
  unfold manner
  rw [hu, Option.bind_eq_bind, Option.bind_some, hentry, Option.map_some]

theorem InStep.routing_engine_render (h : InStep s) {σ : Type} [SignalSource σ] (source : σ) :
    (s.render source).session.engine.routing = s.engine.routing :=
  (h.render source).routing.symm.trans (h.routing_render source)

/-! Runs of buffers. -/

theorem InStep.play [Dsp.InPlace U] (h : InStep s) {frames outputs inputs : Nat}
    (hshaped : s.mixer.Shaped frames outputs inputs) {σ : Type} [SignalSource σ]
    [SignalSource.InPlace σ] (source : σ) (n : Nat) :
    InStep (s.play source n).session ∧
      (s.play source n).session.mixer.Shaped frames outputs inputs := by
  induction n generalizing s source with
  | zero => exact ⟨h, hshaped⟩
  | succ n ih => exact ih (h.render source) (hshaped.render ..) _

theorem InStep.manner_render [Dsp.Steady U] (h : InStep s) {σ : Type} [SignalSource σ]
    (source : σ) : (s.render source).session.manner = s.manner := by
  obtain ⟨es, fs, hran, honce, hfs⟩ := h.journal_render source
  funext x
  cases hx : s.engine.table.unitAt x with
  | none => rw [manner_eq_none hx, manner_eq_none (s := (s.render source).session) hx]
  | some u =>
    obtain ⟨entry, hentry, hmanner⟩ := h.manner_eq_some hx
    obtain ⟨left, hleft, hmanner'⟩ := (h.render source).manner_eq_some (x := x) hx
    obtain ⟨unit, hunit, hchain⟩ := hran.chain u entry hentry
    obtain rfl := Option.some.inj (hleft.symm.trans hunit)
    -- the control fields and the effect are what neither an exchange nor sound gets at
    have hkinds : ∀ e ∈ about u (es ++ fs),
        e.kind = .exchangedAudio ∨ ∃ b, e.kind = .processed b := by
      intro e he
      rcases List.mem_append.mp (List.mem_of_mem_filter he) with he | he
      · exact .inl (honce.kind_eq e he)
      · exact .inr (hfs e he).2
    obtain ⟨hcontrol, heffect⟩ := hchain.keeps hkinds
    rw [hmanner, hmanner', hcontrol, heffect]

theorem InStep.through_tick [Dsp.Steady U] (h : InStep s) (x : Target) :
    s.tick.1.stage.through x = (s.manner x).elim id fun p => Dsp.Steady.published p.1 := by
  obtain ⟨-, es, -, -, honce, hchain⟩ := h.journal_tick
  rw [through_eq]
  cases hx : s.engine.table.unitAt x with
  | none =>
    rw [manner_eq_none hx, manner_eq_none (s := s.tick.1) hx]
    rfl
  | some u =>
    obtain ⟨entry, hentry, hmanner⟩ := h.manner_eq_some hx
    obtain ⟨left, hleft, hmanner'⟩ := h.tick.manner_eq_some (x := x) hx
    obtain ⟨-, before, hbefore, hes⟩ := hchain u left hleft
    obtain rfl := Option.some.inj (hbefore.symm.trans hentry)
    have hticked : s.ticked u .tick :=
      Option.isSome_of_mem (AttachmentTable.unitAt_eq_some.mp hx)
    obtain ⟨-, state, hstate⟩ := (honce u).resolve_right fun hnot => hnot.1 hticked
    rw [hstate] at hes
    obtain ⟨rfl, hafter⟩ := hes
    rw [hmanner, hmanner']
    have hunit : left.unit = Dsp.exchangeControl before.unit := hafter
    exact congrArg Dsp.effect hunit |>.trans (Dsp.Steady.effect_exchangeControl _)

theorem InStep.through_resumed [Dsp.Steady U] (h : InStep s) (x : Target) :
    s.resumed.stage.through x = (s.manner x).elim id fun p => Dsp.Steady.published p.1 :=
  (h.act (.pause false)).through_tick x

/-- Buffers of tones that are made in a pause are silent, and leave alone all that later ones are
made of. -/
structure Hushes (s : Session U) (bank : ToneBank) (source : ToneSource) (frames outputs k : Nat) :
    Prop where
  outputs : (s.play (bank.stream source) k).outputs =
    List.replicate k (.silent (frames * outputs) outputs)
  voices : ∃ left, (s.play (bank.stream source) k).source = bank.stream left ∧
    left.withoutInput = source.withoutInput
  lost : (s.play (bank.stream source) k).session.link.commands.lost = []
  routing : (s.play (bank.stream source) k).session.engine.routing = s.engine.routing ∧
    (0 < k → (s.play (bank.stream source) k).session.mixer.routing = s.engine.routing)
  manner : (s.play (bank.stream source) k).session.manner = s.manner

section Runs

variable [Dsp.InPlace U] {frames outputs inputs : Nat} {bank : ToneBank} (hframes : 0 < frames)
  (houtputs : 0 < outputs) (hbank : bank.Voiced)

include hframes houtputs hbank

theorem InStep.play_succ (h : InStep s) (hshaped : s.mixer.Shaped frames outputs inputs)
    (source : ToneSource) (n : Nat) :
    ∃ next, next.withoutInput =
        source.rendered (bank.slots.map (·.voice)) frames s.link.meters.paused.load ∧
      s.play (bank.stream source) (n + 1) =
        { (s.render (bank.stream source)).session.play (bank.stream next) n with
          outputs := (if s.link.meters.paused.load then .silent (frames * outputs) outputs
            else s.stage.through .output (s.stage.sum ((bank.stream source).sent frames outputs)
              (.silent (frames * outputs) outputs))) ::
            ((s.render (bank.stream source)).session.play (bank.stream next) n).outputs } := by
  have houtput := (h.mixesTones hframes houtputs hshaped hbank source).output s.stage
    fun _ _ => rfl
  obtain ⟨next, hnext, hrendered⟩ :
      ∃ next, (s.render (bank.stream source)).source = bank.stream next ∧ _ :=
    source_render houtputs hshaped s.link ⟨s.engine.units, []⟩ bank source
  refine ⟨next, hrendered, ?_⟩
  rw [Session.play, hnext, houtput]

theorem InStep.hushes [Dsp.Steady U] (h : InStep s)
    (hshaped : s.mixer.Shaped frames outputs inputs) (hpaused : s.link.meters.paused.load)
    (source : ToneSource) (k : Nat) :
    s.Hushes bank source frames outputs k := by
  induction k generalizing s source with
  | zero => exact ⟨rfl, ⟨source, rfl, rfl⟩, h.lost, ⟨rfl, nofun⟩, rfl⟩
  | succ k ih =>
    obtain ⟨next, hnext, hplay⟩ := h.play_succ hframes houtputs hbank hshaped source k
    rw [hpaused] at hnext
    rw [if_pos hpaused] at hplay
    have hrest := ih (h.render (bank.stream source)) (hshaped.render ..) hpaused next
    have hengine := h.routing_engine_render (bank.stream source)
    obtain ⟨left, hleft, hsame⟩ := hrest.voices
    constructor
    · rw [hplay, hrest.outputs, List.replicate_succ]
    · rw [hplay]
      exact ⟨left, hleft, hsame.trans hnext⟩
    · rw [hplay]
      exact hrest.lost
    · rw [hplay]
      refine ⟨hrest.routing.1.trans hengine, fun _ => ?_⟩
      cases k with
      | zero => exact h.routing_render _
      | succ k => exact (hrest.routing.2 k.succ_pos).trans hengine
    · rw [hplay]
      exact hrest.manner.trans (h.manner_render _)

theorem InStep.outputs_play [Dsp.Steady U] (h : InStep s)
    (hshaped : s.mixer.Shaped frames outputs inputs) (hplays : s.link.meters.paused.load = false)
    (source : ToneSource) {f : Stage U} (hf : s.stage.through = f.through) (n : Nat) :
    (s.play (bank.stream source) n).outputs = f.heard bank frames outputs source n := by
  induction n generalizing s source with
  | zero => rfl
  | succ n ih =>
    obtain ⟨next, hnext, hplay⟩ := h.play_succ hframes houtputs hbank hshaped source n
    rw [hplays] at hnext
    rw [hplays, if_neg Bool.false_ne_true, hf, Stage.sum_congr hf] at hplay
    -- units are in other states after the first buffer, but do the same to sound
    have hthrough : (s.render (bank.stream source)).session.stage.through = f.through := by
      rw [← hf]
      funext x
      rw [through_eq, through_eq, h.manner_render]
    have hrest := ih (h.render (bank.stream source)) (hshaped.render ..) hplays next hthrough
    rw [hplay, hrest, ← f.heard_withoutInput, hnext, Stage.heard]

theorem InStep.outputs_resumed [Dsp.Steady U] (h : InStep s)
    (hshaped : s.mixer.Shaped frames outputs inputs) (source : ToneSource) {f : Stage U}
    (hf : s.resumed.stage.through = f.through) (n : Nat) :
    (s.resumed.play (bank.stream source) n).outputs = f.heard bank frames outputs source n := by
  have hresumed : InStep s.resumed := (h.act (.pause false)).act .tick
  exact hresumed.outputs_play hframes houtputs hbank hshaped rfl source hf n

/-- However long a pause is, the buffers after it are those that there would have been without. -/
theorem InStep.outputs_after_pause [Dsp.Steady U] (h : InStep s)
    (hshaped : s.mixer.Shaped frames outputs inputs) {source : ToneSource} {k : Nat}
    (hhushes : s.Hushes bank source frames outputs k) (n : Nat) :
    ((s.play (bank.stream source) k).session.resumed.play
        (s.play (bank.stream source) k).source n).outputs =
      (s.resumed.play (bank.stream source) n).outputs := by
  obtain ⟨hin, hshaped'⟩ := h.play hshaped (bank.stream source) k
  obtain ⟨left, hleft, hsame⟩ := hhushes.voices
  -- the tick publishes control fields, which are the same with the pause and without it
  have hthrough : (s.play (bank.stream source) k).session.resumed.stage.through =
      s.resumed.stage.through := by
    funext x
    rw [hin.through_resumed, h.through_resumed, hhushes.manner]
  rw [hleft, hin.outputs_resumed hframes houtputs hbank hshaped' left hthrough,
    h.outputs_resumed hframes houtputs hbank hshaped source rfl,
    ← Stage.heard_withoutInput, hsame, Stage.heard_withoutInput]

end Runs

/-- In every state of a run that the mixer is paused in, any number of buffers can be made before it
is to play again. These are silent, and nothing can be heard of them afterwards. -/
theorem pause_unheard {c : Config} {tones : ToneBank} {s : Session StockUnit}
    (h : Session.start c tones = .ok s) {deeds : List (Deed StockUnit)}
    (hdeeds : ∀ deed ∈ deeds, deed.InPlace) (hpaused : (s.after deeds).link.meters.paused.load)
    {bank : ToneBank} (hbank : bank.Reachable) (source : ToneSource) (k : Nat) :
    (s.after deeds).Hushes bank source c.framesPerBuffer.toNat c.channels.toNat k ∧
      ∀ n, (((s.after deeds).play (bank.stream source) k).session.resumed.play
          ((s.after deeds).play (bank.stream source) k).source n).outputs =
        ((s.after deeds).resumed.play (bank.stream source) n).outputs := by
  obtain ⟨hframes, houtputs⟩ := Config.pos_of_fault? (fault?_of_start h)
  have hin := inStep_after h deeds
  have hshaped := shaped_after h hdeeds
  have hhushes := hin.hushes hframes houtputs hbank.voiced hshaped hpaused source k
  exact ⟨hhushes, hin.outputs_after_pause hframes houtputs hbank.voiced hshaped hhushes⟩

def hushing : List (Deed StockUnit) :=
  .call (.detach ⟨0, 0⟩) :: .tick :: .pause true :: muffling

theorem pause_unheard_tiny :
    Session.start tinyConfig humming = .ok { tiny with engine.tones := humming } ∧
    (∀ deed ∈ hushing, deed.InPlace) ∧
    (({ tiny with engine.tones := humming }.after hushing).link.meters.paused.load) ∧
    humming.Reachable ∧
    ({ tiny with engine.tones := humming }.after hushing).Hushes humming quarterTurned 1 1 3 ∧
    ((({ tiny with engine.tones := humming }.after hushing).play
        (humming.stream quarterTurned) 3).session.resumed.play
      (({ tiny with engine.tones := humming }.after hushing).play
        (humming.stream quarterTurned) 3).source 2).outputs =
      (({ tiny with engine.tones := humming }.after hushing).resumed.play
        (humming.stream quarterTurned) 2).outputs ∧
    (({ tiny with engine.tones := humming }.after hushing).resumed.play
      (humming.stream quarterTurned) 1).outputs = [⟨[0.5 * 0.5], 1⟩] := by
  have hstart : Session.start tinyConfig humming =
      .ok { tiny with engine.tones := humming } := rfl
  have hdeeds : ∀ deed ∈ hushing, deed.InPlace := by
    simp only [hushing, muffling, List.forall_mem_cons]
    exact ⟨trivial, trivial, trivial, trivial, inferInstanceAs (SignalSource.InPlace ToneStream),
      trivial, trivial, trivial, by simp⟩
  have hpaused : ({ tiny with engine.tones := humming }.after hushing).link.meters.paused.load := by
    decide +kernel
  have hbank : humming.Reachable := ⟨44100, _, rfl⟩
  obtain ⟨hhushes, hunheard⟩ := pause_unheard hstart hdeeds hpaused hbank quarterTurned 3
  exact ⟨hstart, hdeeds, hpaused, hbank, hhushes, hunheard 2, by decide +kernel⟩

end Session

end Patchbay

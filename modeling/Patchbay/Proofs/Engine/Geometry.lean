import Patchbay.Proofs.Engine.Mixer
import Patchbay.Proofs.Sound.Shape

/-! The geometry of a mixer. Whatever commands it carries out, and whatever sources and units do to
its buffers in place, these keep the size and the channels that they were made with. -/

namespace Patchbay

namespace Rack

variable {U : Type} [Dsp U] [Dsp.InPlace U] (rack : Rack U)

theorem shape_process (u : UnitHandle) (b : AudioBuffer) :
    (rack.process u b).1.shape = b.shape := by
  unfold process Dsp.run
  cases rack.units.get? u with
  | none => rfl
  | some entry =>
    dsimp only
    split
    · rfl
    · exact Dsp.InPlace.shape_process b entry.unit

theorem shape_processAt (u? : Option UnitHandle) (b : AudioBuffer) :
    (rack.processAt u? b).1.shape = b.shape := by
  cases u? with
  | none => rfl
  | some u => exact rack.shape_process u b

end Rack

namespace Mixer

structure Shaped (frames outputs inputs : Nat) (m : Mixer) : Prop where
  outputChannels : m.outputChannels = outputs
  inputChannels : m.inputChannels = inputs
  scratch : m.scratch.shape = (frames * outputs, outputs)
  input : m.input.shape = (frames * inputs, inputs)

theorem shaped_ofConfig (c : Config) :
    (ofConfig c).Shaped c.framesPerBuffer.toNat c.channels.toNat c.inputChannels.toNat where
  outputChannels := rfl
  inputChannels := rfl
  scratch := by
    simp [ofConfig, AudioBuffer.shape_silent, Config.outputFormat, StreamFormat.samplesPerBuffer]
  input := by
    rw [ofConfig, AudioBuffer.shape_silent, Config.inputFormat?]
    split
    · simp [Config.outputFormat, StreamFormat.samplesPerBuffer]
    · rename_i hnone
      have hzero : c.inputChannels.toNat = 0 := by simpa [UInt16.lt_iff_toNat_lt] using hnone
      simp [hzero]

variable {frames outputs inputs : Nat} {m : Mixer}

theorem Shaped.blank (h : m.Shaped frames outputs inputs) :
    m.blank = .silent (frames * outputs) outputs := by
  rw [Mixer.blank, samplesPerBuffer, (Prod.mk.inj h.scratch).1, h.outputChannels]

theorem Shaped.apply (h : m.Shaped frames outputs inputs) (retired : Queue UnitHandle)
    (c : Command) : (m.apply retired c).1.Shaped frames outputs inputs := by
  obtain ⟨units, overflow, heq⟩ := m.exists_apply retired c
  rw [heq]
  exact ⟨h.outputChannels, h.inputChannels, h.scratch, h.input⟩

theorem Shaped.applyAll (h : m.Shaped frames outputs inputs) (retired : Queue UnitHandle)
    (cs : List Command) : (m.applyAll retired cs).1.Shaped frames outputs inputs := by
  induction cs generalizing m retired with
  | nil => exact h
  | cons c cs ih => exact ih (h.apply retired c) _

theorem Shaped.drain (h : m.Shaped frames outputs inputs) (link : Link) :
    (m.drain link).1.Shaped frames outputs inputs := by
  have hflushed (overflow : List UnitHandle) :
      ({ m with overflow } : Mixer).Shaped frames outputs inputs :=
    ⟨h.outputChannels, h.inputChannels, h.scratch, h.input⟩
  exact (hflushed _).applyAll ..

variable {U σ : Type} [Dsp U] [SignalSource σ]

theorem Shaped.prepare (h : m.Shaped frames outputs inputs) (link : Link)
    (rack : Rack U) : (m.prepare link rack).1.Shaped frames outputs inputs :=
  have hdrain := h.drain link
  ⟨hdrain.outputChannels, hdrain.inputChannels, hdrain.scratch, hdrain.input⟩

variable [Dsp.InPlace U] [SignalSource.InPlace σ]

theorem Shaped.processInput (h : m.Shaped frames outputs inputs) (source : σ)
    (rack : Rack U) :
    (m.processInput source rack).1.Shaped frames outputs inputs := by
  unfold Mixer.processInput
  split
  · exact h
  · cases hcapture : SignalSource.captureInput source m.input with
    | mk input? source' =>
      cases input? with
      | none => exact h
      | some input =>
        have hinput : input.shape = m.input.shape :=
          SignalSource.InPlace.shape_captureInput source m.input input (by simp [hcapture])
        exact ⟨h.outputChannels, h.inputChannels, h.scratch,
          (rack.shape_processAt ..).trans (hinput.trans h.input)⟩

theorem shape_mixEvents (m : Mixer) {sounds : List Sounding}
    (hwrite : ∀ s ∈ sounds, ∀ b, (s.write b).shape = b.shape) (scratch out : AudioBuffer)
    (rack : Rack U) : (m.mixEvents sounds scratch out rack).1.shape = scratch.shape := by
  induction sounds generalizing scratch out rack with
  | nil => rfl
  | cons s sounds ih =>
    apply (ih (fun t ht => hwrite t (List.mem_cons_of_mem _ ht)) _ _ _).trans
    exact (rack.shape_processAt ..).trans (hwrite s List.mem_cons_self scratch)

theorem Shaped.mix (h : m.Shaped frames outputs inputs) (source : σ) (rack : Rack U) :
    (m.mix source rack).1.Shaped frames outputs inputs := by
  unfold Mixer.mix
  split
  · exact h
  · have hscratch := m.shape_mixEvents
      (SignalSource.InPlace.shape_write source m.scratch) m.scratch m.blank rack
    exact ⟨h.outputChannels, h.inputChannels, hscratch.trans h.scratch, h.input⟩

theorem Shaped.render (h : m.Shaped frames outputs inputs) (link : Link) (rack : Rack U)
    (source : σ) :
    (m.render link rack source).mixer.Shaped frames outputs inputs :=
  have hmix := ((h.prepare link rack).processInput source _).mix _ _
  ⟨hmix.outputChannels, hmix.inputChannels, hmix.scratch, hmix.input⟩

omit [Dsp.InPlace U] in
theorem shape_mixed (m : Mixer) (sounds : List Sounding) (scratch out : AudioBuffer)
    (rack : Rack U) : (m.mixEvents sounds scratch out rack).2.1.shape = out.shape := by
  induction sounds generalizing scratch out rack with
  | nil => rfl
  | cons s sounds ih => exact (ih ..).trans (AudioBuffer.shape_write ..)

omit [SignalSource.InPlace σ] in
theorem shape_mix (m : Mixer) (source : σ) (rack : Rack U) :
    (m.mix source rack).2.2.2.shape = m.blank.shape := by
  unfold Mixer.mix
  split
  · rfl
  · exact (Rack.shape_processAt ..).trans (shape_mixed ..)

theorem Shaped.output (h : m.Shaped frames outputs inputs) (link : Link) (rack : Rack U)
    (source : σ) : (m.render link rack source).output.shape = (frames * outputs, outputs) := by
  have hprepared := (h.prepare link rack).processInput source (m.prepare link rack).2.2
  have hmix := shape_mix ((m.prepare link rack).1.processInput source (m.prepare link rack).2.2).1
    ((m.prepare link rack).1.processInput source (m.prepare link rack).2.2).2.1
    ((m.prepare link rack).1.processInput source (m.prepare link rack).2.2).2.2
  rw [hprepared.blank, AudioBuffer.shape_silent] at hmix
  exact hmix

end Mixer

end Patchbay

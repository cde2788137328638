import Patchbay.Config.File
import Patchbay.Proofs.Config.TickRate
import Patchbay.Proofs.Toml.Lines

/-! Settings that are saved and loaded. The text of settings is a document of seven lines; what is
read from it is what was written, and what may not be loaded is not saved. -/

namespace Patchbay.Config

open Toml

def wholeSetting (key : String) (n : Nat) : Setting := ⟨key, digitsOf n, .integer n⟩

def rateSetting (x : Sample) (rate : Float) : Setting :=
  ⟨"tick_rate_hz", (NumberStyle.pointed.write x).toList, .float rate⟩

def settings (c : Config) (rate : Float) : List Setting :=
  [wholeSetting "sample_rate" c.sampleRate.toNat,
    wholeSetting "channels" c.channels.toNat,
    wholeSetting "input_channels" c.inputChannels.toNat,
    wholeSetting "frames_per_buffer" c.framesPerBuffer.toNat,
    rateSetting c.tickRate rate,
    wholeSetting "max_dsp_units" c.maxUnits.toNat,
    wholeSetting "command_queue_capacity" c.queueCapacity.toNat]

variable {c : Config} {rate : Float}

theorem toText_eq (c : Config) (rate : Float) :
    c.toText = String.ofList ((c.settings rate).flatMap Setting.line) := by
  have hword16 (n : UInt16) : (toString n).toList = digitsOf n.toNat := String.toList_ofList
  have hword32 (n : UInt32) : (toString n).toList = digitsOf n.toNat := String.toList_ofList
  have hword64 (n : UInt64) : (toString n).toList = digitsOf n.toNat := String.toList_ofList
  have hequals : " = ".toList = [' ', '=', ' '] := rfl
  have hbreak : "\n".toList = ['\n'] := rfl
  apply String.toList_inj.mp
  unfold toText
  simp only [settings, wholeSetting, rateSetting, Setting.line, List.flatMap_cons, List.flatMap_nil,
    String.toList_append, String.toList_ofList, hword16, hword32, hword64, hequals, hbreak,
    List.append_assoc, List.cons_append, List.nil_append, List.append_nil]

theorem keys_settings (c : Config) (rate : Float) : ((c.settings rate).map Setting.key).Nodup := by
  simp [settings, wholeSetting, rateSetting]

theorem plain_wholeSetting {key : String} (hne : key.toList ≠ [])
    (hkey : key.toList.all Document.isKeyChar = true) {n : Nat} (hn : n < 2 ^ 128) :
    (wholeSetting key n).Plain :=
  ⟨hne, List.all_eq_true.mp hkey, Scalar.denotes_digitsOf hn⟩

theorem plain_settings
    (h : Scalar.Denotes (NumberStyle.pointed.write c.tickRate).toList (.float rate)) :
    ∀ s ∈ c.settings rate, s.Plain := by
  have hword16 (n : UInt16) : n.toNat < 2 ^ 128 := n.toNat_lt.trans (by decide)
  have hword32 (n : UInt32) : n.toNat < 2 ^ 128 := n.toNat_lt.trans (by decide)
  have hword64 (n : UInt64) : n.toNat < 2 ^ 128 := n.toNat_lt.trans (by decide)
  unfold settings
  simp only [List.forall_mem_cons]
  exact ⟨plain_wholeSetting (by simp) (by decide) (hword32 _),
    plain_wholeSetting (by simp) (by decide) (hword16 _),
    plain_wholeSetting (by simp) (by decide) (hword16 _),
    plain_wholeSetting (by simp) (by decide) (hword32 _),
    ⟨by simp [rateSetting],
      List.all_eq_true.mp (show "tick_rate_hz".toList.all Document.isKeyChar = true by decide), h⟩,
    plain_wholeSetting (by simp) (by decide) (hword64 _),
    plain_wholeSetting (by simp) (by decide) (hword64 _), List.forall_mem_nil _⟩

/-! What is read from the table. -/

theorem setting_settings {α : Type} {s : Setting} (hs : s ∈ c.settings rate)
    (read : Value → Option α) (default : α) :
    setting ((c.settings rate).map Setting.entry) s.key read default = read (.scalar s.value) := by
  unfold setting
  rw [get?_settings (c.keys_settings rate) hs]

theorem natural?_integer {n bound : Nat} (h : n < bound) :
    Value.natural? bound (.scalar (.integer n)) = some n := by
  simp [Value.natural?, h]

theorem setting_whole {α : Type} {ofNat : Nat → α} {key : String} {n bound : Nat} (hn : n < bound)
    (h : wholeSetting key n ∈ c.settings rate) (default : α) :
    setting ((c.settings rate).map Setting.entry) key (fun v => ofNat <$> v.natural? bound)
      default = some (ofNat n) := by
  refine (setting_settings h _ _).trans ?_
  simp [wholeSetting, natural?_integer hn]

theorem setting_rate (hrate : Sample.narrow rate = c.tickRate) (default : Sample) :
    setting ((c.settings rate).map Setting.entry) "tick_rate_hz" Value.sample? default =
      some c.tickRate := by
  have hs : rateSetting c.tickRate rate ∈ c.settings rate := by simp [settings]
  refine (setting_settings hs _ _).trans ?_
  rw [← hrate]
  rfl

theorem ofTable?_settings (hrate : Sample.narrow rate = c.tickRate) :
    ofTable? ((c.settings rate).map Setting.entry) = some c := by
  have hmeaningful : Table.isMeaningful ((c.settings rate).map Setting.entry) = true := by
    simp [settings, wholeSetting, rateSetting, Setting.entry, Table.isMeaningful,
      Value.isMeaningful, Scalar.isMeaningful]
  unfold ofTable? ofTable?.word16 ofTable?.word32 ofTable?.word64
  extract_lets d
  rw [hmeaningful, setting_rate hrate,
    setting_whole c.sampleRate.toNat_lt_size (by simp [settings]),
    setting_whole c.channels.toNat_lt_size (by simp [settings]),
    setting_whole c.inputChannels.toNat_lt_size (by simp [settings]),
    setting_whole c.framesPerBuffer.toNat_lt_size (by simp [settings]),
    setting_whole c.maxUnits.toNat_lt_size (by simp [settings]),
    setting_whole c.queueCapacity.toNat_lt_size (by simp [settings])]
  simp

/-! Saving and loading. -/

theorem fault?_of_validate (h : c.validate = .ok ()) : c.fault? = none := by
  unfold validate at h
  split at h
  · contradiction
  · assumption

theorem tickRate_of_validate (h : c.validate = .ok ()) :
    minTickRate ≤ c.tickRate ∧ c.tickRate ≤ maxTickRate := by
  have hfault := fault?_of_validate h
  unfold fault? at hfault
  split_ifs at hfault with _ _ _ _ hrange
  rw [Bool.not_eq_true', Bool.not_eq_false] at hrange
  simpa only [Bool.and_eq_true, decide_eq_true_eq] using hrange

theorem ofText_toText (h : c.validate = .ok ()) : ofText c.toText = .ok c := by
  obtain ⟨hlow, hhigh⟩ := tickRate_of_validate h
  obtain ⟨m, a, hm, hx, ha, ha'⟩ := exists_unpacked hlow hhigh
  obtain ⟨rate, hdenotes, hrate⟩ := Scalar.exists_denotes_write hm hx (by omega) (by omega)
  have hplain := plain_settings hdenotes
  have hread : read? c.toText = some ((c.settings rate).map Setting.entry) := by
    rw [toText_eq c rate]
    exact read?_settings hplain (c.keys_settings rate)
  have hvalue : (read? c.toText >>= ofTable?) = some c :=
    Option.bind_eq_some_iff.mpr ⟨_, hread, ofTable?_settings hrate⟩
  unfold ofText
  rw [hvalue]
  show (c.validate >>= fun _ => pure c) = _
  rw [h]
  rfl

theorem load_toText (h : c.validate = .ok ()) : load (some c.toText.toUTF8) = .ok c := by
  have hutf8 : String.fromUTF8? c.toText.toUTF8 = some c.toText := by
    unfold String.fromUTF8?
    exact dif_pos c.toText.isValidUTF8
  unfold load
  rw [Option.bind_eq_bind, Option.bind_some, hutf8]
  exact ofText_toText h

theorem saveFile_of_ok (h : c.validate = .ok ()) (file : Option ByteArray) :
    c.saveFile file = .ok () (some c.toText.toUTF8) := by
  have hsave : c.save = .ok c.toText := by
    unfold save
    rw [h]
    rfl
  unfold saveFile
  rw [hsave]
  rfl

theorem saveFile_of_error {e : ConfigError} (h : c.validate = .error e) (file : Option ByteArray) :
    c.saveFile file = .error e file := by
  have hsave : c.save = .error e := by
    unfold save
    rw [h]
    rfl
  unfold saveFile
  rw [hsave]
  rfl

theorem loadFile_of_ok {content : ByteArray} (h : load (some content) = .ok c) :
    loadFile (some content) = .ok c (some content) := by
  show (ofExcept (load (some content)) : FileOperation Config) (some content) = _
  rw [h]
  rfl

/-- Settings in range that are written are read back the same, bit for bit, also by way of a file.
Saving others fails and leaves the file as it was. -/
theorem saved_loads_back (c : Config) :
    (c.validate = .ok () → ofText c.toText = .ok c ∧
      ∀ file, ((do c.saveFile; loadFile) : FileOperation Config) file =
        .ok c (some c.toText.toUTF8)) ∧
    ∀ e, c.validate = .error e → ∀ file, c.saveFile file = .error e file := by
  refine ⟨fun h => ⟨ofText_toText h, fun file => ?_⟩, fun e h => saveFile_of_error h⟩
  show EStateM.bind c.saveFile (fun _ => loadFile) file = _
  unfold EStateM.bind
  rw [saveFile_of_ok h file]
  exact loadFile_of_ok (load_toText h)

theorem saved_loads_back_extremes :
    let finest : Config := { tickRate := minTickRate, maxUnits := -1, queueCapacity := -1 }
    let silent : Config := { finest with tickRate := 0 }
    (ofText finest.toText = .ok finest ∧
      ∀ file, ((do finest.saveFile; loadFile) : FileOperation Config) file =
        .ok finest (some finest.toText.toUTF8)) ∧
    ∀ file, silent.saveFile file = .error (.invalid (.tickRate 0)) file :=
  ⟨(saved_loads_back _).1 rfl, (saved_loads_back _).2 _ rfl⟩

end Patchbay.Config

import Mathlib.Data.List.Basic
import Mathlib.Data.List.GetD
import Patchbay.Sound.Buffer

/-! How a buffer shares its samples out. The exposed samples are the whole frames; each channel has
one of every frame, so the channels laid side by side are the exposed samples again. Whatever is
written to a buffer stays within its frames. -/

namespace Patchbay

def everyNth {α : Type} (n : Nat) : List α → List α
  | [] => []
  | x :: xs => x :: everyNth n (xs.drop (n - 1))
termination_by xs => xs.length

theorem getElem?_everyNth {α : Type} {n : Nat} (h : 0 < n) (xs : List α) (i : Nat) :
    (everyNth n xs)[i]? = xs[i * n]? := by
  induction i generalizing xs with
  | zero => cases xs <;> simp [everyNth]
  | succ i ih =>
    cases xs with
    | nil => simp [everyNth]
    | cons x xs =>
      have hplace : (i + 1) * n = n - 1 + i * n + 1 := by
        rw [Nat.succ_mul]
        omega
      rw [everyNth, List.getElem?_cons_succ, ih, List.getElem?_drop, hplace,
        List.getElem?_cons_succ]

theorem filterMap_getElem?_range {α : Type} (xs : List α) (n : Nat) :
    (List.range n).filterMap (xs[·]?) = xs.take n := by
  induction n with
  | zero => rfl
  | succ n ih =>
    rw [List.range_succ, List.filterMap_append, ih, List.take_add_one]
    cases h : xs[n]? <;> simp [h]

def interleave {α : Type} (n : Nat) (lists : List (List α)) : List α :=
  (List.range n).flatMap fun i => lists.filterMap (·[i]?)

namespace AudioBuffer

variable (b : AudioBuffer)

/-! Frames and channels. -/

/-- A channel as it is read off in one go: pass over the channels before it, then take what is a
whole frame further on each time, one sample of every frame. There is none of a channel past the
last. -/
def strided (c : Nat) : List Sample :=
  (everyNth (max b.channels 1) (b.samples.drop c)).take (if c < b.channels then b.frames else 0)

theorem filter_zipIdx_frame {n c k : Nat} {frame : List Sample} (hlength : frame.length = n)
    (hc : c < n) :
    ((frame.zipIdx (k * n)).filter fun (_, i) => i % n = c).map Prod.fst = [frame.getD c 0] := by
  have hother (xs : List Sample) (start : Nat)
      (hxs : ∀ i, start ≤ i → i < start + xs.length → i % n ≠ c) :
      (xs.zipIdx start).filter (fun (_, i) => i % n = c) = [] := by
    rw [List.filter_eq_nil_iff]
    rintro ⟨x, i⟩ hmem
    obtain ⟨hlow, hhigh, -⟩ := List.mem_zipIdx hmem
    simpa using hxs i hlow hhigh
  have hplace {i : Nat} (hlow : k * n ≤ i) (hhigh : i < k * n + n) : i % n = i - k * n := by
    obtain ⟨j, rfl⟩ := Nat.exists_eq_add_of_le hlow
    rw [Nat.mul_add_mod', Nat.mod_eq_of_lt (by omega), Nat.add_sub_cancel_left]
  have hsplit : frame.zipIdx (k * n) = (frame.take c).zipIdx (k * n) ++
      (frame.getD c 0, k * n + c) :: (frame.drop (c + 1)).zipIdx (k * n + c + 1) := by
    have hfront : (frame.take c).length = c := by
      rw [List.length_take]
      omega
    have happend : ((frame.take c) ++ (frame.drop c)).zipIdx (k * n) = _ := List.zipIdx_append
    rwa [List.take_append_drop, hfront, List.drop_eq_getElem_cons (by omega), List.zipIdx_cons,
      ← List.getD_eq_getElem _ 0] at happend
  rw [hsplit, List.filter_append, List.filter_cons_of_pos, hother, hother, List.nil_append,
    List.map_cons, List.map_nil]
  · intro i hlow hhigh
    rw [List.length_drop] at hhigh
    rw [hplace (by omega) (by omega)]
    omega
  · intro i hlow hhigh
    rw [List.length_take] at hhigh
    rw [hplace (by omega) (by omega)]
    omega
  · simp [Nat.mod_eq_of_lt hc]

theorem filter_zipIdx_frames {n c : Nat} (hc : c < n) (frames k : Nat) {xs : List Sample}
    (hlength : xs.length = frames * n) :
    ((xs.zipIdx (k * n)).filter fun (_, i) => i % n = c).map Prod.fst =
      (List.range frames).map fun i => xs.getD (i * n + c) 0 := by
  induction frames generalizing xs k with
  | zero =>
    rw [Nat.zero_mul, List.length_eq_zero_iff] at hlength
    rw [hlength]
    rfl
  | succ frames ih =>
    rw [Nat.succ_mul] at hlength
    have hfront : (xs.take n).length = n := by
      rw [List.length_take]
      omega
    have hsplit : xs.zipIdx (k * n) =
        (xs.take n).zipIdx (k * n) ++ (xs.drop n).zipIdx ((k + 1) * n) := by
      have happend : (xs.take n ++ xs.drop n).zipIdx (k * n) = _ := List.zipIdx_append
      rwa [List.take_append_drop, hfront, ← Nat.succ_mul] at happend
    have hrest (i : Nat) : (xs.drop n).getD (i * n + c) 0 = xs.getD ((i + 1) * n + c) 0 := by
      rw [List.getD_eq_getElem?_getD, List.getElem?_drop, List.getD_eq_getElem?_getD, Nat.succ_mul]
      congr 2
      omega
    rw [hsplit, List.filter_append, List.map_append, filter_zipIdx_frame hfront hc,
      ih (k + 1) (by rw [List.length_drop]; omega), List.range_succ_eq_map, List.map_cons,
      List.map_map]
    simp only [Function.comp_def, Nat.succ_eq_add_one, hrest, Nat.zero_mul, Nat.zero_add]
    rw [List.getD_eq_getElem?_getD, List.getElem?_take_of_lt hc, ← List.getD_eq_getElem?_getD]
    rfl

variable {b}

theorem channel_eq {c : Nat} (hc : c < b.channels) :
    b.channel c = (List.range b.frames).map fun i => b.samples.getD (i * b.channels + c) 0 := by
  have hframes := filter_zipIdx_frames hc b.frames 0 b.length_samples
  rwa [Nat.zero_mul] at hframes

theorem length_channel {c : Nat} (hc : c < b.channels) : (b.channel c).length = b.frames := by
  simp [channel_eq hc]

theorem place_lt {c i : Nat} (hc : c < b.channels) (hi : i < b.frames) :
    i * b.channels + c < b.size := by
  have hle := Nat.mul_le_mul_right b.channels (show i + 1 ≤ b.frames from hi)
  rw [Nat.succ_mul] at hle
  exact Nat.lt_of_lt_of_le (by omega) hle

theorem getElem?_channel {c i : Nat} (hc : c < b.channels) (hi : i < b.frames) :
    (b.channel c)[i]? = b.samples[i * b.channels + c]? := by
  have hlt : i * b.channels + c < b.samples.length := by
    rw [length_samples]
    exact place_lt hc hi
  simp [channel_eq hc, hi, List.getElem?_eq_getElem hlt]

theorem channel_eq_nil {c : Nat} (hc : b.channels ≤ c) : b.channel c = [] := by
  unfold channel
  rw [List.map_eq_nil_iff, List.filter_eq_nil_iff]
  rintro ⟨x, i⟩ hmem
  have hi : i < b.samples.length := by
    obtain ⟨-, hlt, -⟩ := List.mem_zipIdx hmem
    omega
  rw [length_samples] at hi
  have hmod := Nat.mod_lt i (Nat.pos_of_lt_mul_left hi)
  simp only [decide_eq_true_eq]
  omega

theorem channel_eq_strided (b : AudioBuffer) (c : Nat) : b.channel c = b.strided c := by
  unfold strided
  by_cases hc : c < b.channels
  · rw [if_pos hc, Nat.max_eq_left (by omega)]
    apply List.ext_getElem?
    intro i
    rw [List.getElem?_take]
    split
    · rename_i hi
      rw [getElem?_channel hc hi, getElem?_everyNth (by omega), List.getElem?_drop, Nat.add_comm]
    · rename_i hi
      exact List.getElem?_eq_none (by rw [length_channel hc]; omega)
  · rw [if_neg hc, channel_eq_nil (by omega), List.take_zero]

theorem interleave_channels (b : AudioBuffer) :
    interleave b.frames ((List.range b.channels).map b.channel) = b.samples := by
  have hframe : ∀ i ∈ List.range b.frames,
      ((List.range b.channels).map b.channel).filterMap (·[i]?) =
        (b.samples.drop (i * b.channels)).take b.channels := by
    intro i hi
    rw [List.filterMap_map, ← filterMap_getElem?_range]
    apply List.filterMap_congr
    intro c hc
    rw [Function.comp, getElem?_channel (List.mem_range.mp hc) (List.mem_range.mp hi),
      List.getElem?_drop]
  have hframes (n : Nat) : ((List.range n).flatMap fun i =>
      (b.samples.drop (i * b.channels)).take b.channels) = b.samples.take (n * b.channels) := by
    induction n with
    | zero => simp
    | succ n ih =>
      rw [List.range_succ, List.flatMap_append, ih, Nat.succ_mul, List.take_add,
        List.flatMap_singleton]
  rw [interleave, List.flatMap_congr hframe, hframes, List.take_of_length_le]
  exact Nat.le_of_eq b.length_samples

/-! What is written to a buffer. -/

theorem getElem?_addOnto (xs ys : List Sample) (i : Nat) :
    (addOnto xs ys)[i]? = xs[i]?.map fun x => ys[i]?.elim x (x + ·) := by
  induction xs generalizing ys i with
  | nil => simp [addOnto]
  | cons x xs ih =>
    cases ys with
    | nil => simp [addOnto]
    | cons y ys =>
      cases i with
      | zero => rfl
      | succ i => exact ih ys i

theorem size_write (b : AudioBuffer) (xs : List Sample) : (b.write xs).size = b.size := by
  rw [size, frames_write, channels_write, size]

theorem samples_write {xs : List Sample} (h : xs.length = b.size) : (b.write xs).samples = xs := by
  rw [samples, size_write, write, List.take_of_length_le (Nat.le_of_eq h), ← h, List.take_left]

theorem trailing_write (b : AudioBuffer) (xs : List Sample) :
    (b.write xs).trailing = b.trailing := by
  have hfront : (xs.take b.size).length ≤ b.size := List.length_take_le ..
  rw [trailing, size_write, write, List.drop_append, List.drop_of_length_le hfront,
    List.nil_append, List.drop_drop, List.length_take, trailing]
  congr 1
  omega

inductive Edit
  | fill (x : Sample)
  | accumulate (other : AudioBuffer)
  | set (i : Nat) (x : Sample)

/-- What an edit makes of the sample at a place. Where another buffer is added, its samples count as
far as they go. -/
def Edit.at (i : Nat) (x : Sample) : Edit → Sample
  | fill y => y
  | accumulate other => other.samples[i]?.elim x (x + ·)
  | set j y => if i = j then y else x

def Edit.Within (size : Nat) : Edit → Prop
  | set i _ => i < size
  | _ => True

def edit? (b : AudioBuffer) : Edit → Option AudioBuffer
  | .fill x => some (b.fill x)
  | .accumulate other => some (b.accumulate other)
  | .set i x => b.set? i x

def after? (b : AudioBuffer) (edits : List Edit) : Option AudioBuffer := edits.foldlM edit? b

structure Rewrites (f : Nat → Sample → Sample) (b b' : AudioBuffer) : Prop where
  length : b'.data.length = b.data.length
  channels : b'.channels = b.channels
  trailing : b'.trailing = b.trailing
  samples : ∀ i, b'.samples[i]? = b.samples[i]?.map (f i)

theorem Rewrites.size {f : Nat → Sample → Sample} {b b' : AudioBuffer} (h : Rewrites f b b') :
    b'.size = b.size := by
  rw [AudioBuffer.size, frames, h.length, h.channels, AudioBuffer.size, frames]

theorem rewrites_write {f : Nat → Sample → Sample} {xs : List Sample} (hlength : xs.length = b.size)
    (hsamples : ∀ i, xs[i]? = b.samples[i]?.map (f i)) : Rewrites f b (b.write xs) where
  length := length_data_write b xs
  channels := channels_write b xs
  trailing := trailing_write b xs
  samples i := by rw [samples_write hlength, hsamples]

theorem rewrites_set {i : Nat} (h : i < b.size) (x : Sample) :
    Rewrites (fun j y => if j = i then x else y) b { b with data := b.data.set i x } := by
  have hsize : size { b with data := b.data.set i x } = b.size := by simp [size, frames]
  have hlt : i < b.samples.length := by rwa [length_samples]
  have hsamples : (b.data.set i x).take b.size = b.samples.set i x := List.take_set ..
  refine ⟨List.length_set, rfl, ?_, fun j => ?_⟩
  · rw [trailing, hsize, List.drop_set_of_lt h, trailing]
  · rw [samples, hsize, hsamples]
    by_cases hj : j = i
    · rw [hj, List.getElem?_set_self hlt, List.getElem?_eq_getElem hlt, Option.map_some, if_pos rfl]
    · rw [List.getElem?_set_ne (Ne.symm hj)]
      simp only [hj, if_false, Option.map_id']

theorem edit?_eq (b : AudioBuffer) (e : Edit) : ((b.edit? e).isSome ↔ e.Within b.size) ∧
    ∀ b', b.edit? e = some b' → Rewrites (fun i x => e.at i x) b b' := by
  cases e with
  | fill x =>
    refine ⟨by simp [edit?, Edit.Within], fun b' hb' => ?_⟩
    cases hb'
    refine rewrites_write List.length_replicate fun i => ?_
    rw [List.getElem?_replicate, ← length_samples]
    split
    · rename_i hi
      rw [List.getElem?_eq_getElem hi]
      rfl
    · rename_i hi
      rw [List.getElem?_eq_none (Nat.le_of_not_lt hi)]
      rfl
  | accumulate other =>
    refine ⟨by simp [edit?, Edit.Within], fun b' hb' => ?_⟩
    cases hb'
    exact rewrites_write (by simp) fun i => getElem?_addOnto ..
  | set i x =>
    rw [edit?, set?, Edit.Within]
    by_cases h : i < b.size
    · rw [if_pos h]
      refine ⟨by simp [h], fun b' hb' => ?_⟩
      cases hb'
      exact rewrites_set h x
    · rw [if_neg h]
      exact ⟨by simp [h], nofun⟩

def Edit.atAll (edits : List Edit) (i : Nat) (x : Sample) : Sample :=
  edits.foldl (fun x e => e.at i x) x

theorem after?_eq (b : AudioBuffer) (edits : List Edit) :
    ((b.after? edits).isSome ↔ ∀ e ∈ edits, e.Within b.size) ∧
      ∀ b', b.after? edits = some b' → Rewrites (Edit.atAll edits) b b' := by
  induction edits generalizing b with
  | nil =>
    refine ⟨by simp [after?], fun b' hb' => ?_⟩
    cases hb'
    exact ⟨rfl, rfl, rfl, fun i => (congrFun Option.map_id b.samples[i]?).symm⟩
  | cons e edits ih =>
    obtain ⟨hwithin, hrewrites⟩ := b.edit?_eq e
    have hafter : b.after? (e :: edits) = (b.edit? e).bind (·.after? edits) := rfl
    rw [hafter, List.forall_mem_cons]
    cases hedit : b.edit? e with
    | none =>
      rw [hedit] at hwithin
      exact ⟨by simp [← hwithin], nofun⟩
    | some c =>
      have hfirst := hrewrites c hedit
      obtain ⟨hrest, hrewritten⟩ := ih c
      rw [hedit] at hwithin
      rw [← hwithin, ← hfirst.size]
      refine ⟨by simpa using hrest, fun b' hb' => ?_⟩
      have hlast := hrewritten b' hb'
      exact {
        length := hlast.length.trans hfirst.length
        channels := hlast.channels.trans hfirst.channels
        trailing := hlast.trailing.trans hfirst.trailing
        samples := fun i => by
          rw [hlast.samples, hfirst.samples, Option.map_map]
          rfl }

structure SharesOut (b : AudioBuffer) : Prop where
  samples : b.samples = b.data.take (b.channels * (b.data.length / b.channels))
  frames : b.frames = b.data.length / b.channels
  none : b.channels = 0 → b.samples = []
  channel : ∀ c < b.channels, (b.channel c).length = b.frames ∧
    ∀ i < b.frames, ∃ x, (b.channel c)[i]? = some x ∧ b.samples[i * b.channels + c]? = some x
  past : ∀ c, b.channels ≤ c → b.channel c = []
  strided : ∀ c, b.channel c = b.strided c
  interleave : interleave b.frames ((List.range b.channels).map b.channel) = b.samples

theorem sharesOut (b : AudioBuffer) : b.SharesOut where
  samples := by rw [samples, size, frames, Nat.mul_comm]
  frames := rfl
  none h := by simp [samples, size, h]
  channel c hc := by
    refine ⟨length_channel hc, fun i hi => ?_⟩
    have hlt : i * b.channels + c < b.samples.length := by
      rw [length_samples]
      exact place_lt hc hi
    rw [getElem?_channel hc hi, List.getElem?_eq_getElem hlt]
    exact ⟨_, rfl, rfl⟩
  past c := channel_eq_nil
  strided := channel_eq_strided b
  interleave := interleave_channels b

/-- Whatever data a buffer has and however many channels, it exposes its whole frames, which its
channels share out among them. Edits that stay within them leave all else of the data as it is, and
make of each exposed sample what they say. -/
theorem whole_frames_shared_out (b : AudioBuffer) (edits : List Edit) :
    b.SharesOut ∧ ((b.after? edits).isSome ↔ ∀ e ∈ edits, e.Within b.size) ∧
      ∀ b', b.after? edits = some b' → b'.SharesOut ∧ Rewrites (Edit.atAll edits) b b' := by
  obtain ⟨hwithin, hrewrites⟩ := b.after?_eq edits
  exact ⟨b.sharesOut, hwithin, fun b' hb' => ⟨b'.sharesOut, hrewrites b' hb'⟩⟩

/-- Of two frames and a sample left over, on two channels, to which a single channel of three samples
is added after its first was overwritten. -/
example :
    let b : AudioBuffer := ⟨[1, 2, 3, 4, 5], 2⟩
    (b.after? [.set 0 8, .accumulate ⟨[1, 1, 1], 1⟩]).map (·.data) = some [9, 3, 4, 4, 5] ∧
      b.channel 1 = [2, 4] := by
  decide +kernel

end AudioBuffer

end Patchbay

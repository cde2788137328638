import Mathlib
import Patchbay.Number.Sample

/-! The order of samples. All that are numbers have a place on one line, the two zeros the same one,
and compare as their places do; what is not a number compares with nothing. So the loudest of some
samples is found whatever else is among them. -/

namespace Patchbay.Sample

open Float.Model

/-- Where a number is on the line: by its sign, then by its size. -/
def place : UnpackedFloat → ℤ ×ₗ ℤ ×ₗ ℤ
  | .infinity .negative => toLex (-2, toLex (0, 0))
  | .finite .negative m e _ => toLex (-1, toLex (-e, -m))
  | .zero _ | .notANumber => toLex (0, toLex (0, 0))
  | .finite .positive m e _ => toLex (1, toLex (e, m))
  | .infinity .positive => toLex (2, toLex (0, 0))

theorem compare_toLex (a a' b b' c c' : ℤ) :
    compare (toLex (a, toLex (b, c))) (toLex (a', toLex (b', c'))) =
      (compare a a').then ((compare b b').then (compare c c')) := rfl

theorem compare_natCast (m n : ℕ) : compare (m : ℤ) (n : ℤ) = compare m n := by
  rcases lt_trichotomy m n with h | rfl | h
  · rw [compare_lt_iff_lt.mpr h, compare_lt_iff_lt.mpr (by omega)]
  · simp
  · rw [compare_gt_iff_gt.mpr h, compare_gt_iff_gt.mpr (by omega)]

theorem compare_neg (a b : ℤ) : compare (-a) (-b) = (compare a b).swap := by
  rw [← Std.OrientedCmp.eq_swap]
  rcases lt_trichotomy a b with h | rfl | h
  · rw [compare_gt_iff_gt.mpr h, compare_gt_iff_gt.mpr (by omega)]
  · simp
  · rw [compare_lt_iff_lt.mpr h, compare_lt_iff_lt.mpr (by omega)]

theorem compare_eq {a b : UnpackedFloat} (ha : a.isNaN = false) (hb : b.isNaN = false) :
    a.compare b = some (compare (place a) (place b)) := by
  cases a with
  | notANumber => cases ha
  | infinity s =>
    cases b with
    | notANumber => cases hb
    | infinity t | finite t _ _ _ => cases s <;> cases t <;> rfl
    | zero t => cases s <;> rfl
  | zero s =>
    cases b with
    | notANumber => cases hb
    | infinity t | finite t _ _ _ => cases t <;> rfl
    | zero t => rfl
  | finite s m e h =>
    cases b with
    | notANumber => cases hb
    | infinity t => cases s <;> cases t <;> rfl
    | zero t => cases s <;> rfl
    | finite t n f k =>
      cases s with
      | positive =>
        cases t with
        | positive =>
          rw [place, place, compare_toLex, compare_natCast]
          rfl
        | negative => rfl
      | negative =>
        cases t with
        | positive => rfl
        | negative =>
          rw [place, place, compare_toLex, compare_neg, compare_neg, compare_neg, compare_natCast,
            ← Ordering.swap_then]
          rfl

theorem compare_of_isNaN {a b : UnpackedFloat} (h : a.isNaN ∨ b.isNaN) : a.compare b = none := by
  rcases h with h | h
  · cases a with
    | notANumber => rfl
    | _ => cases h
  · cases b with
    | notANumber =>
      cases a with
      | notANumber => rfl
      | infinity s | zero s | finite s _ _ _ => cases s <;> rfl
    | _ => cases h

theorem isNaN_of_compare {a b : UnpackedFloat} {o : Ordering} (h : a.compare b = some o) :
    a.isNaN = false ∧ b.isNaN = false := by
  by_contra hnan
  rw [not_and_or, Bool.not_eq_false, Bool.not_eq_false] at hnan
  rw [compare_of_isNaN hnan] at h
  cases h

variable {x y z : Sample}

theorem lt_iff : x < y ↔ x.isNaN = false ∧ y.isNaN = false ∧
    place x.toModel.unpack < place y.toModel.unpack := by
  have hlt : x < y ↔ x.toModel.unpack.compare y.toModel.unpack = some .lt :=
    ⟨fun h => eq_of_beq (of_decide_eq_true h), fun h => decide_eq_true (beq_of_eq h)⟩
  rw [hlt]
  constructor
  · intro h
    obtain ⟨hx, hy⟩ := isNaN_of_compare h
    rw [compare_eq hx hy] at h
    exact ⟨hx, hy, compare_lt_iff_lt.mp (Option.some.inj h)⟩
  · rintro ⟨hx, hy, h⟩
    rw [compare_eq hx hy, compare_lt_iff_lt.mpr h]

theorem le_iff : x ≤ y ↔ x.isNaN = false ∧ y.isNaN = false ∧
    place x.toModel.unpack ≤ place y.toModel.unpack := by
  have hle : x ≤ y ↔ (x.toModel.unpack.compare y.toModel.unpack).any (·.isLE) :=
    ⟨fun h => of_decide_eq_true h, fun h => decide_eq_true h⟩
  rw [hle]
  constructor
  · intro h
    obtain ⟨o, ho, hisLE⟩ := (Option.any_eq_true _ _).mp h
    obtain ⟨hx, hy⟩ := isNaN_of_compare ho
    rw [compare_eq hx hy] at ho
    rw [← Option.some.inj ho] at hisLE
    exact ⟨hx, hy, compare_le_iff_le.mp (Ordering.isLE_iff_ne_gt.mp hisLE)⟩
  · rintro ⟨hx, hy, h⟩
    rw [compare_eq hx hy, Option.any_some]
    exact Ordering.isLE_iff_ne_gt.mpr (compare_le_iff_le.mpr h)

theorem isNaN_of_lt (h : x < y) : x.isNaN = false := (lt_iff.mp h).1

theorem isNaN_of_le (h : x ≤ y) : x.isNaN = false := (le_iff.mp h).1

theorem not_lt_of_le (h : x ≤ y) : ¬y < x :=
  fun hlt => absurd (lt_iff.mp hlt).2.2 (not_lt.mpr (le_iff.mp h).2.2)

theorem le_of_not_lt (hx : x.isNaN = false) (hy : y.isNaN = false) (h : ¬y < x) : x ≤ y := by
  rw [lt_iff, not_and, not_and] at h
  exact le_iff.mpr ⟨hx, hy, not_lt.mp (h hy hx)⟩

theorem le_of_lt (h : x < y) : x ≤ y := by
  obtain ⟨hx, hy, hplace⟩ := lt_iff.mp h
  exact le_iff.mpr ⟨hx, hy, hplace.le⟩

theorem le_self (h : x.isNaN = false) : x ≤ x := le_iff.mpr ⟨h, h, le_rfl⟩

theorem le_trans (hxy : x ≤ y) (hyz : y ≤ z) : x ≤ z := by
  obtain ⟨hx, -, hxy⟩ := le_iff.mp hxy
  obtain ⟨-, hz, hyz⟩ := le_iff.mp hyz
  exact le_iff.mpr ⟨hx, hz, hxy.trans hyz⟩

theorem lt_of_lt_of_le (hxy : x < y) (hyz : y ≤ z) : x < z := by
  obtain ⟨hx, -, hxy⟩ := lt_iff.mp hxy
  obtain ⟨-, hz, hyz⟩ := le_iff.mp hyz
  exact lt_iff.mpr ⟨hx, hz, hxy.trans_le hyz⟩

theorem lt_of_le_of_lt (hxy : x ≤ y) (hyz : y < z) : x < z := by
  obtain ⟨hx, -, hxy⟩ := le_iff.mp hxy
  obtain ⟨-, hz, hyz⟩ := lt_iff.mp hyz
  exact lt_iff.mpr ⟨hx, hz, hxy.trans_lt hyz⟩

theorem clamp_of_mem {lo hi : Sample} (hlo : lo ≤ x) (hhi : x ≤ hi) : Sample.clamp x lo hi = x := by
  rw [Sample.clamp, if_neg (not_lt_of_le hlo), if_neg (not_lt_of_le hhi)]

/-! Magnitudes. -/

theorem ofNat_ne_neg_one {n e : ℕ} (h : e + 1 < 2 ^ n) : BitVec.ofNat n e ≠ -1#n := by
  intro heq
  have hnat := congrArg BitVec.toNat heq
  rw [BitVec.neg_one_eq_allOnes, BitVec.toNat_allOnes, BitVec.toNat_ofNat,
    Nat.mod_eq_of_lt (by omega)] at hnat
  omega

theorem isNaN_unpack {f : Format} (b : BitVec f.numBits) : (UnpackedFloat.unpack f b).isNaN =
    (UnpackedFloat.unpackExponent b = -1#_ && UnpackedFloat.unpackMantissa b ≠ 0#_) := by
  unfold UnpackedFloat.unpack
  dsimp only
  split
  · split <;> simp_all [UnpackedFloat.isNaN]
  · split
    · split <;> simp_all [UnpackedFloat.isNaN]
    · simp_all [UnpackedFloat.isNaN]

theorem isNaN_unpack_pack (u : UnpackedFloat) :
    (UnpackedFloat.unpack .binary32 (UnpackedFloat.pack .binary32 u)).isNaN = u.isNaN := by
  cases u with
  | notANumber => rfl
  | infinity s | zero s => cases s <;> rfl
  | finite s m e h =>
    rw [isNaN_unpack, UnpackedFloat.pack]
    dsimp only
    split
    · simp [UnpackedFloat.packedInfinity, UnpackedFloat.isNaN]
    · rename_i hfits
      split
      · rw [UnpackedFloat.unpackExponent_packComponents,
          decide_eq_false (ofNat_ne_neg_one (Nat.lt_of_not_le hfits)), Bool.false_and]
        rfl
      · simp [UnpackedFloat.isNaN]

@[simp] theorem isNaN_abs (x : Sample) : x.abs.isNaN = x.isNaN := by
  have habs : x.abs.isNaN = x.toModel.unpack.abs.isNaN := isNaN_unpack_pack x.toModel.unpack.abs
  rw [habs]
  show _ = x.toModel.unpack.isNaN
  cases x.toModel.unpack <;> rfl

/-! The loudest of some samples. -/

/-- A level that no number among some samples is louder than, and that one of them has unless it is
zero. -/
structure Loudest (level : Sample) (heard : Sample → Prop) : Prop where
  attained : level = 0 ∨ ∃ x, heard x ∧ level = x.abs
  bound : ∀ x, heard x → x.isNaN = false → x.abs ≤ level

variable {level : Sample}

theorem le_louder (h : level.isNaN = false) (x : Sample) : level ≤ louder level x := by
  unfold louder
  split
  · exact le_of_lt ‹_›
  · exact le_self h

theorem abs_le_louder (h : level.isNaN = false) (hx : x.isNaN = false) :
    x.abs ≤ louder level x := by
  have habs : x.abs.isNaN = false := by rw [isNaN_abs, hx]
  unfold louder
  split
  · exact le_self habs
  · exact le_of_not_lt habs h ‹_›

theorem le_foldl_louder (xs : List Sample) (h : level.isNaN = false) :
    level ≤ xs.foldl louder level ∧
      ∀ x ∈ xs, x.isNaN = false → x.abs ≤ xs.foldl louder level := by
  induction xs generalizing level with
  | nil => exact ⟨le_self h, by simp⟩
  | cons x xs ih =>
    have hlouder := le_louder h x
    obtain ⟨hle, hbound⟩ := ih (le_iff.mp hlouder).2.1
    refine ⟨le_trans hlouder hle, ?_⟩
    rw [List.forall_mem_cons]
    exact ⟨fun hx => le_trans (abs_le_louder h hx) hle, hbound⟩

theorem foldl_louder_eq (xs : List Sample) (level : Sample) :
    xs.foldl louder level = level ∨ ∃ x ∈ xs, xs.foldl louder level = x.abs := by
  induction xs generalizing level with
  | nil => exact Or.inl rfl
  | cons x xs ih =>
    rw [List.foldl_cons]
    rcases ih (louder level x) with h | ⟨y, hy, h⟩
    · rw [h, louder]
      split
      · exact Or.inr ⟨x, List.mem_cons_self, rfl⟩
      · exact Or.inl rfl
    · exact Or.inr ⟨y, List.mem_cons_of_mem x hy, h⟩

theorem loudest_peak (xs : List Sample) : Loudest (peak xs) (· ∈ xs) where
  attained := foldl_louder_eq xs 0
  bound := (le_foldl_louder xs (by decide +kernel)).2

end Patchbay.Sample

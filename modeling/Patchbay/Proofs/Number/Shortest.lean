import Patchbay.Number.Written
import Patchbay.Proofs.Number.Narrowing

/-! The shortest decimal of a number rounds back to it: it is a point of a grid, no finer than one
grid that is sure to have a point in the interval of the number. -/

namespace Patchbay

open Float.Model

/-! The first grid with a point. -/

theorem Shortest.pairwise_grids (f : Format) : (Shortest.grids f).Pairwise (· > ·) := by
  unfold Shortest.grids
  rw [List.pairwise_map]
  exact List.pairwise_lt_range.imp fun h => by omega

theorem RoundingInterval.contains_of_onGrid? {i : RoundingInterval} {tie : Tie} {p : Int} {j : Nat}
    (h : i.onGrid? tie p = some j) : i.contains j p = true := by
  unfold onGrid? at h
  extract_lets num den near floor other at h
  by_cases hnear : i.contains near p
  · rw [if_pos hnear] at h
    exact Option.some.inj h ▸ hnear
  · rw [if_neg hnear] at h
    by_cases hother : i.contains other p
    · rw [if_pos hother] at h
      exact Option.some.inj h ▸ hother
    · rw [if_neg hother] at h
      contradiction

theorem Shortest.contains_decimal {f : Format} (tie : Tie) {m : Nat} {e p : Int}
    (hp : p ∈ Shortest.grids f) (h : ((RoundingInterval.around f m e).onGrid? tie p).isSome) :
    (RoundingInterval.around f m e).contains (Shortest.decimal f tie m e).1
        (Shortest.decimal f tie m e).2 = true ∧ p ≤ (Shortest.decimal f tie m e).2 := by
  unfold Shortest.decimal
  extract_lets i
  cases hfound : (Shortest.grids f).findSome? fun p => (i.onGrid? tie p).map (·, p) with
  | none =>
    rw [List.findSome?_eq_none_iff] at hfound
    rw [Option.map_eq_none_iff.mp (hfound p hp)] at h
    contradiction
  | some found =>
    obtain ⟨before, q, after, hgrids, hq, hbefore⟩ := List.findSome?_eq_some_iff.mp hfound
    obtain ⟨j, hj, rfl⟩ := Option.map_eq_some_iff.mp hq
    refine ⟨RoundingInterval.contains_of_onGrid? hj, ?_⟩
    show p ≤ q
    have hsorted := Shortest.pairwise_grids f
    rw [hgrids] at hp hsorted
    rcases List.mem_append.mp hp with hmem | hmem
    · rw [Option.map_eq_none_iff.mp (hbefore p hmem)] at h
      contradiction
    · rcases List.mem_cons.mp hmem with rfl | hmem
      · exact le_rfl
      · exact (List.rel_of_pairwise_cons (List.pairwise_append.mp hsorted).2.1 hmem).le

@[simp] theorem RoundingInterval.unit_around (f : Format) (m a : Nat) :
    (around f m (2 - a)).unit = 1 := by
  simp [around]

@[simp] theorem RoundingInterval.den_around (f : Format) (m a : Nat) :
    (around f m (2 - a)).den = 2 ^ a := by
  simp [around]

theorem RoundingInterval.contains_places {f : Format} {m a : Nat} (j k : Nat) :
    (around f m (2 - a)).contains j (-k) = true ↔
      (around f m (2 - a)).Holds (2 ^ a * j) (10 ^ k) := by
  rw [contains_iff]
  simp [Nat.mul_comm]

/-- A grid whose points lie closer together than the ends of an interval has one in the interval. -/
theorem RoundingInterval.isSome_onGrid? {m a k : Nat} (tie : Tie) (hm : Normal .binary32 m)
    (ha : a ≤ 150) (hk : 2 ^ a < 2 * 10 ^ k) :
    ((around .binary32 m (2 - a)).onGrid? tie (-k)).isSome := by
  have hnear := roundDiv_near (Nat.two_pow_pos a) tie (4 * m * 10 ^ k)
  have hlo := lo_around hm.pos ha
  have hcontains : (around .binary32 m (2 - a)).contains
      (roundDiv tie (4 * m * 10 ^ k) (2 ^ a)) (-k) = true := by
    have hlow : (around .binary32 m (2 - a)).lo * 10 ^ k + 10 ^ k ≤ 4 * m * 10 ^ k := by
      rw [← Nat.succ_mul]
      exact Nat.mul_le_mul_right _ (by omega)
    have hhigh : (around .binary32 m (2 - a)).hi * 10 ^ k = 4 * m * 10 ^ k + 2 * 10 ^ k :=
      Nat.add_mul ..
    rw [contains_places]
    exact ⟨by omega, by omega, .inr ⟨by omega, by omega⟩⟩
  unfold onGrid?
  extract_lets num den near floor other
  have hnum : num = 4 * m * 10 ^ k := by simp [num, around]
  have hden : den = 2 ^ a := by simp [den, around]
  rw [if_pos (by rw [← hnum, ← hden] at hcontains; exact hcontains)]
  rfl

/-! Trailing zeros. -/

theorem RoundingInterval.contains_mul_ten_pow (i : RoundingInterval) (j n : Nat) (p : Int) :
    i.contains (j * 10 ^ n) p = true ↔ i.contains j (p + n) = true := by
  obtain ⟨s, hs⟩ : ∃ s, (-p).toNat = (-(p + n)).toNat + s ∧ n + p.toNat = (p + n).toNat + s :=
    ⟨(-p).toNat - (-(p + n)).toNat, by omega, by omega⟩
  have hnum : j * 10 ^ n * Nat.pow 10 p.toNat * i.den =
      10 ^ s * (j * Nat.pow 10 (p + n).toNat * i.den) := by
    simp only [Nat.pow_eq]
    rw [Nat.mul_assoc j, ← Nat.pow_add, hs.2, Nat.pow_add]
    ring
  have hden : i.unit * Nat.pow 10 (-p).toNat = 10 ^ s * (i.unit * Nat.pow 10 (-(p + n)).toNat) := by
    simp only [Nat.pow_eq]
    rw [hs.1, Nat.pow_add]
    ring
  rw [contains_iff, contains_iff, hnum, hden, holds_mul_left _ (by positivity)]

theorem Decimal.exists_stripZeros (k c : Nat) (p : Int) :
    ∃ n : Nat, (stripZeros k c p).2 = p + n ∧ c = (stripZeros k c p).1 * 10 ^ n := by
  induction k generalizing c p with
  | zero => exact ⟨0, by simp [stripZeros]⟩
  | succ k ih =>
    unfold stripZeros
    split
    · rename_i hzero
      obtain ⟨n, hp, hc⟩ := ih (c / 10) (p + 1)
      refine ⟨n + 1, ?_, ?_⟩
      · rw [hp]
        push_cast
        ring
      · rw [Nat.pow_succ, ← Nat.mul_assoc, ← hc]
        omega
    · exact ⟨0, by simp⟩

/-! Written digits. -/

def NumberStyle.written (s : NumberStyle) (f : Format) (m : Nat) (e : Int) : Nat × Int :=
  Decimal.stripZeros 40 (Shortest.decimal f s.tie m e).1 (Shortest.decimal f s.tie m e).2

section Written

variable {m a : Nat} (hm : Normal .binary32 m)
include hm

/-- What is written of a sample lies in its interval, with nine places at most. -/
theorem NumberStyle.contains_written (s : NumberStyle) (ha : a ≤ 30) :
    (RoundingInterval.around .binary32 m (2 - a)).contains (s.written .binary32 m (2 - a)).1
        (s.written .binary32 m (2 - a)).2 = true ∧ -9 ≤ (s.written .binary32 m (2 - a)).2 := by
  have hgrid : (-9 : Int) ∈ Shortest.grids .binary32 := by decide
  have hfine : 2 ^ a < 2 * 10 ^ 9 :=
    (Nat.pow_le_pow_right Nat.two_pos ha).trans_lt (by decide)
  obtain ⟨hcontains, hplaces⟩ := Shortest.contains_decimal s.tie hgrid
    (RoundingInterval.isSome_onGrid? (k := 9) s.tie hm (by omega) hfine)
  obtain ⟨n, hp, hc⟩ := Decimal.exists_stripZeros 40
    (Shortest.decimal .binary32 s.tie m (2 - a)).1 (Shortest.decimal .binary32 s.tie m (2 - a)).2
  rw [hc, RoundingInterval.contains_mul_ten_pow, ← hp] at hcontains
  exact ⟨hcontains, by unfold NumberStyle.written; omega⟩

theorem RoundingInterval.bounds_of_contains {c : Nat} {p : Int} (ha : a ≤ 150) (hp : -9 ≤ p)
    (h : (around .binary32 m (2 - a)).contains c p = true) :
    0 < c ∧ c * 10 ^ p.toNat < 10 ^ 17 := by
  have hmlt : m < 2 ^ 24 := hm.lt
  rw [contains_iff, unit_around, den_around, Nat.one_mul, Nat.pow_eq, Nat.pow_eq] at h
  constructor
  · have hpos := h.pos (lo_around_pos hm ha) (by positivity)
    exact Nat.pos_of_mul_pos_right (Nat.pos_of_mul_pos_right hpos)
  · calc c * 10 ^ p.toNat ≤ c * 10 ^ p.toNat * 2 ^ a := Nat.le_mul_of_pos_right _ (by positivity)
      _ ≤ (4 * m + 2) * 10 ^ (-p).toNat := h.ge
      _ ≤ (4 * m + 2) * 10 ^ 9 := Nat.mul_le_mul_left _ (Nat.pow_le_pow_right (by decide) (by omega))
      _ < 10 ^ 17 := by omega

end Written

end Patchbay

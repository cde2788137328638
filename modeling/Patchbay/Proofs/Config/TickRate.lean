import Patchbay.Config.Basic
import Patchbay.Proofs.Number.Shortest
import Patchbay.Proofs.Toml.Numeral

/-! Tick rates as they are saved. A rate in its range is a normal number, neither so small nor so
large that nine places would not do; its shortest decimal is read back as the same bits. -/

namespace Patchbay

open Float.Model

/-! Samples as values of a document. -/

section Written

variable {x : Sample} {m a : Nat} (hm : Normal .binary32 m)
  (hx : x.unpacked = .finite .positive m (2 - a) hm.pos)
include hx

theorem NumberStyle.write_eq (s : NumberStyle) :
    (s.write x).toList =
      s.layout (s.written .binary32 m (2 - a)).1 (s.written .binary32 m (2 - a)).2 := by
  unfold write text
  rw [hx]
  exact String.toList_ofList

/-- What is written of a sample of moderate size is read as a number that narrows to the sample. -/
theorem Toml.Scalar.exists_denotes_write (ha : 9 ≤ a) (ha' : a ≤ 30) :
    ∃ y, Denotes (NumberStyle.pointed.write x).toList (.float y) ∧ Sample.narrow y = x := by
  obtain ⟨hcontains, hplaces⟩ := NumberStyle.pointed.contains_written hm ha'
  rw [NumberStyle.write_eq hm hx]
  generalize NumberStyle.pointed.written .binary32 m (2 - a) = written at hcontains hplaces ⊢
  obtain ⟨c, p⟩ := written
  dsimp only at hcontains hplaces ⊢
  obtain ⟨hc, hbound⟩ := RoundingInterval.bounds_of_contains hm (by omega) hplaces hcontains
  have hlength : (digitsOf c).length - 1 + p.toNat < 17 := by
    have hle := Nat.mul_le_mul_right (10 ^ p.toNat) (ten_pow_le_of_digitsOf hc)
    rw [← Nat.pow_add] at hle
    exact (Nat.pow_lt_pow_iff_right (by decide)).mp (hle.trans_lt hbound)
  obtain ⟨whole, fraction, hlayout, hspelled, hlow, hhigh, hvalue⟩ :=
    NumberStyle.exists_layout hc (show -400 ≤ p by omega) (by omega)
  have hpos : 0 < fraction.length := List.length_pos_of_ne_nil hspelled.fraction_ne_nil
  have hshift : -(fraction.length : Int) + (p + fraction.length).toNat = p := by omega
  rw [← hshift, ← RoundingInterval.contains_mul_ten_pow, ← hvalue,
    RoundingInterval.contains_places] at hcontains
  obtain ⟨hfinite, hnarrow⟩ := narrow_toFloat hm hx ha (by omega) hpos (by omega) hcontains
  rw [hlayout]
  exact ⟨_, denotes_spelled hspelled rfl hfinite, hnarrow⟩

end Written

/-! The range of tick rates. -/

namespace Config

theorem unpacked_minTickRate :
    minTickRate.unpacked = .finite .positive 13421773 (-27) (by decide) := by
  rfl

theorem unpacked_maxTickRate :
    maxTickRate.unpacked = .finite .positive 16384000 (-14) (by decide) := by
  rfl

theorem le_unpacked {x y : Sample} (h : x ≤ y) : x.unpacked.le y.unpacked = true :=
  of_decide_eq_true h

theorem exponent_le {m n : Nat} {d e : Int} {hm : 0 < m} {hn : 0 < n}
    (h : (UnpackedFloat.finite .positive m d hm).le (.finite .positive n e hn) = true) : d ≤ e := by
  by_contra hlt
  have hgt : compare d e = .gt := compare_gt_iff_gt.mpr (by omega)
  simp [UnpackedFloat.le, UnpackedFloat.compare, hgt] at h

theorem exists_unpacked {x : Sample} (hlow : minTickRate ≤ x) (hhigh : x ≤ maxTickRate) :
    ∃ (m a : Nat) (hm : Normal .binary32 m),
      x.unpacked = .finite .positive m (2 - a) hm.pos ∧ 16 ≤ a ∧ a ≤ 29 := by
  have hle := le_unpacked hlow
  have hge := le_unpacked hhigh
  rw [unpacked_minTickRate] at hle
  rw [unpacked_maxTickRate] at hge
  cases hx : x.unpacked with
  | notANumber =>
    rw [hx] at hle
    contradiction
  | zero s =>
    rw [hx] at hle
    cases s <;> contradiction
  | infinity s =>
    rw [hx] at hle hge
    cases s <;> contradiction
  | finite s m e hpos =>
    rw [hx] at hle hge
    cases s with
    | negative => contradiction
    | positive =>
      have hlow := exponent_le hle
      have hhigh := exponent_le hge
      have hmin : Format.binary32.minExponent = -149 := rfl
      obtain ⟨a, ha⟩ := Int.eq_ofNat_of_zero_le (show 0 ≤ 2 - e by omega)
      obtain rfl : e = 2 - a := by omega
      exact ⟨m, a, normal_of_unpack hx (by omega), rfl, by omega, by omega⟩

end Config

end Patchbay

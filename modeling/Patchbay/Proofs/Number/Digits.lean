import Mathlib.Data.List.Basic
import Mathlib.Tactic.Positivity
import Patchbay.Number.Written

/-! Digits as they are written and read. A number written without an exponent has a digit on either
side of its point, and a zero leads only where no other digit stands before the point. -/

namespace Patchbay

/-! Whole numbers. -/

namespace Decimal

theorem ofDigits_append (ds es : List Char) :
    ofDigits (ds ++ es) = ofDigits ds * 10 ^ es.length + ofDigits es := by
  unfold ofDigits
  rw [List.foldl_append, Nat.mul_comm]
  exact Nat.ofDigitChars_eq_ofDigitChars_zero

theorem ofDigits_zeros (n : Nat) : ofDigits (List.replicate n '0') = 0 :=
  Nat.ofDigitChars_replicate_zero.trans (Nat.mul_zero _)

theorem ofDigits_digitsOf (n : Nat) : ofDigits (digitsOf n) = n :=
  Nat.ofDigitChars_ten_toDigits

end Decimal

theorem isDigit_of_mem_digitsOf {n : Nat} {c : Char} (h : c ∈ digitsOf n) : c.isDigit = true :=
  Nat.isDigit_of_mem_toDigits (by decide) (by decide) h

theorem digitsOf_ne_nil (n : Nat) : digitsOf n ≠ [] := Nat.toDigits_ne_nil

theorem head?_digitsOf {n : Nat} (hn : 0 < n) : (digitsOf n).head? ≠ some '0' := by
  unfold digitsOf
  induction n using Nat.strongRecOn with
  | ind n ih =>
    rw [Nat.toDigits_eq_if (by decide)]
    split
    · simp only [List.head?_cons, ne_eq, Option.some.injEq, Nat.digitChar_eq_zero]
      omega
    · rw [List.head?_append_of_ne_nil _ Nat.toDigits_ne_nil]
      exact ih (n / 10) (by omega) (by omega)

theorem ten_pow_le_of_digitsOf {n : Nat} (hn : 0 < n) : 10 ^ ((digitsOf n).length - 1) ≤ n := by
  rcases Nat.eq_zero_or_pos ((digitsOf n).length - 1) with hone | hmore
  · rw [hone]
    exact hn
  · rw [← Nat.not_lt, ← Nat.length_toDigits_le_iff (by decide) hmore]
    unfold digitsOf at hmore ⊢
    omega

/-! Numbers with a point. -/

structure Spelled (whole fraction : List Char) : Prop where
  isDigit : ∀ c ∈ whole ++ fraction, c.isDigit = true
  whole_ne_nil : whole ≠ []
  fraction_ne_nil : fraction ≠ []
  lead : whole.head? = some '0' → whole.length = 1

def padded (ds : List Char) (places : Nat) : List Char :=
  List.replicate (places + 1 - ds.length) '0' ++ ds

theorem length_padded (ds : List Char) (places : Nat) :
    (padded ds places).length = max (places + 1) ds.length := by
  simp [padded]
  omega

theorem ofDigits_padded (ds : List Char) (places : Nat) :
    Decimal.ofDigits (padded ds places) = Decimal.ofDigits ds := by
  rw [padded, Decimal.ofDigits_append, Decimal.ofDigits_zeros, Nat.zero_mul, Nat.zero_add]

section Spelled

variable {ds : List Char} (hdigits : ∀ d ∈ ds, d.isDigit = true) (hhead : ds.head? ≠ some '0')
include hdigits hhead

theorem spelled_zeros (hne : ds ≠ []) (n : Nat) : Spelled (ds ++ List.replicate n '0') ['0'] := by
  refine ⟨?_, by simp [hne], by simp, ?_⟩
  · simp only [List.mem_append, List.mem_singleton, List.mem_replicate]
    rintro d ((hd | ⟨-, rfl⟩) | rfl)
    · exact hdigits d hd
    · decide
    · decide
  · intro hzero
    rw [List.head?_append_of_ne_nil _ hne] at hzero
    exact absurd hzero hhead

theorem spelled_padded {places : Nat} (hplaces : 0 < places) :
    Spelled ((padded ds places).take ((padded ds places).length - places))
      ((padded ds places).drop ((padded ds places).length - places)) := by
  have hlen := length_padded ds places
  refine ⟨?_, ?_, ?_, ?_⟩
  · rw [List.take_append_drop]
    intro d hd
    rcases List.mem_append.mp hd with hzero | hd
    · rw [List.eq_of_mem_replicate hzero]
      decide
    · exact hdigits d hd
  · refine List.ne_nil_of_length_pos ?_
    rw [List.length_take]
    omega
  · refine List.ne_nil_of_length_pos ?_
    rw [List.length_drop]
    omega
  · intro hzero
    rw [List.length_take]
    rcases Nat.lt_or_ge places ds.length with hlong | hshort
    · -- No zero was added, and the digits have no leading one.
      rw [List.head?_take, if_neg (by omega), padded, Nat.sub_eq_zero_of_le hlong] at hzero
      exact absurd hzero hhead
    · omega

end Spelled

theorem NumberStyle.exists_layout {c : Nat} {p : Int} (hc : 0 < c) (hlow : -400 ≤ p)
    (hhigh : p + (digitsOf c).length ≤ 400) :
    ∃ whole fraction, pointed.layout c p = whole ++ '.' :: fraction ∧ Spelled whole fraction ∧
      0 ≤ p + fraction.length ∧ fraction.length ≤ max 1 (-p).toNat ∧
      Decimal.ofDigits (whole ++ fraction) = c * 10 ^ (p + fraction.length).toNat := by
  have hlen : 0 < (digitsOf c).length := List.length_pos_of_ne_nil (digitsOf_ne_nil c)
  have hhead := head?_digitsOf hc
  have hdigits : ∀ d ∈ digitsOf c, d.isDigit = true := fun d => isDigit_of_mem_digitsOf
  have hvalue := Decimal.ofDigits_digitsOf c
  unfold layout
  generalize digitsOf c = ds at *
  dsimp only
  rw [if_pos ⟨by show -400 ≤ _; omega, by show _ < (400 : Int); omega⟩]
  by_cases hp : 0 ≤ p
  · rw [if_pos hp]
    refine ⟨ds ++ List.replicate p.toNat '0', ['0'], by simp [pointed],
      spelled_zeros hdigits hhead (List.ne_nil_of_length_pos hlen) _, ?_, by simp, ?_⟩
    · simp
      omega
    · rw [List.append_assoc, ← List.replicate_succ', Decimal.ofDigits_append,
        Decimal.ofDigits_zeros, hvalue, List.length_replicate]
      simp
      omega
  · rw [if_neg hp]
    have hspelled := spelled_padded hdigits hhead (show 0 < (-p).toNat by omega)
    have hlength : ((padded ds (-p).toNat).drop
        ((padded ds (-p).toNat).length - (-p).toNat)).length = (-p).toNat := by
      have := length_padded ds (-p).toNat
      rw [List.length_drop]
      omega
    have hjoin := List.take_append_drop ((padded ds (-p).toNat).length - (-p).toNat)
      (padded ds (-p).toNat)
    generalize hwhole : (padded ds (-p).toNat).take _ = whole at hspelled hjoin
    generalize hfraction : (padded ds (-p).toNat).drop _ = fraction at hspelled hjoin hlength
    refine ⟨whole, fraction, ?_, hspelled, by omega, by omega, ?_⟩
    · rw [← hwhole, ← hfraction]
      rfl
    · rw [hjoin, ofDigits_padded, hvalue, show (p + fraction.length).toNat = 0 by omega]
      simp

end Patchbay

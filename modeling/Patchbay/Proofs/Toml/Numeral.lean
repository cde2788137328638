import Mathlib.Data.List.Basic
import Patchbay.Toml.Document
import Patchbay.Proofs.Number.Digits

/-! Numbers as values of a document. Digits, with a point among them or without, are a number and
nothing else: no date, no word, no other base. -/

namespace Patchbay

open Scan

theorem dropWhile_of_head {α : Type} {p : α → Bool} {l : List α} (h : l.head?.any p = false) :
    l.dropWhile p = l := by
  cases l with
  | nil => rfl
  | cons a l => exact List.dropWhile_cons_of_neg (Bool.eq_false_iff.mp h)

theorem dropWhile_of_forall {α : Type} {p : α → Bool} {l : List α} (h : ∀ a ∈ l, p a = true) :
    l.dropWhile p = [] := by
  rw [← List.append_nil l, List.dropWhile_append_of_pos h]
  rfl

theorem takeWhile_append_of_head {α : Type} {p : α → Bool} {l r : List α} (hl : ∀ a ∈ l, p a = true)
    (hr : r.head?.any p = false) : (l ++ r).takeWhile p = l := by
  rw [List.takeWhile_append_of_pos hl]
  cases r with
  | nil => simp
  | cons a r =>
    have ha : ¬p a = true := Bool.eq_false_iff.mp hr
    rw [List.takeWhile_cons_of_neg ha, List.append_nil]

theorem Scan.digits_append {ds r : List Char} (hne : ds ≠ []) (hdigits : ∀ c ∈ ds, c.isDigit = true)
    (hr : r.head?.any Char.isDigit = false) : digits (ds ++ r) = some (ds, r) := by
  unfold digits
  simp [takeWhile_append_of_head hdigits hr, List.dropWhile_append_of_pos hdigits,
    dropWhile_of_head hr, hne]

namespace Toml

/-! Text that can only be a number. -/

structure Numeral (text : List Char) : Prop where
  head : text.head?.any Char.isDigit = true
  chars : ∀ c ∈ text, c.isDigit = true ∨ c = '.'

namespace Numeral

variable {text : List Char}

theorem of_digits (hne : text ≠ []) (h : ∀ c ∈ text, c.isDigit = true) : Numeral text := by
  obtain ⟨d, r, rfl⟩ := List.exists_cons_of_ne_nil hne
  exact ⟨h d List.mem_cons_self, fun c hc => .inl (h c hc)⟩

theorem of_spelled {whole fraction : List Char} (h : Spelled whole fraction) :
    Numeral (whole ++ '.' :: fraction) := by
  obtain ⟨d, r, rfl⟩ := List.exists_cons_of_ne_nil h.whole_ne_nil
  refine ⟨h.isDigit d (by simp), fun c hc => ?_⟩
  by_cases hpoint : c = '.'
  · exact .inr hpoint
  · refine .inl (h.isDigit c ?_)
    simpa [hpoint] using hc

theorem exists_cons (h : Numeral text) : ∃ d r, text = d :: r ∧ d.isDigit = true := by
  obtain ⟨hhead, -⟩ := h
  cases text with
  | nil => contradiction
  | cons d r => exact ⟨d, r, rfl, hhead⟩

theorem notMem (h : Numeral text) {c : Char} (hc : (c.isDigit || c = '.') = false) : c ∉ text := by
  intro hmem
  rcases h.chars c hmem with hdigit | rfl
  · simp [hdigit] at hc
  · simp at hc

theorem ne (h : Numeral text) {c d : Char} (hc : c ∈ text)
    (hd : (d.isDigit || d = '.') = false) : c ≠ d := fun heq => h.notMem hd (heq ▸ hc)

theorem filter_eq (h : Numeral text) : text.filter (· ≠ '_') = text :=
  List.filter_eq_self.mpr fun _ hc => decide_eq_true (h.ne hc (by decide))

end Numeral

namespace Scalar

/-! How a number is read. -/

theorem isGrouped_of_notMem (isDigit : Char → Bool) {text : List Char} (h : '_' ∉ text)
    (before : Bool) : isGrouped isDigit before text = true := by
  induction text generalizing before with
  | nil => rfl
  | cons c s ih =>
    rw [List.mem_cons, not_or] at h
    simp [isGrouped, ih h.2, Ne.symm h.1]

theorem leads_eq_false {whole text : List Char} (h : text.head? = some '0' → whole.length = 1) :
    (text.head? = some '0' && 1 < whole.length) = false := by
  by_cases hzero : text.head? = some '0'
  · simp [h hzero]
  · simp [hzero]

theorem sign_numeral {text : List Char} (h : Numeral text) : sign text = (false, text) := by
  have hplus := h.notMem (c := '+') (by decide)
  have hminus := h.notMem (c := '-') (by decide)
  unfold sign
  split
  · exact absurd List.mem_cons_self hminus
  · exact absurd List.mem_cons_self hplus
  · rfl

theorem number?_numeral {text : List Char} (h : Numeral text) :
    number? text = if (text.dropWhile Char.isDigit).any fun c => c = '.' || c = 'e' || c = 'E' then
      (decimal? false text).map fun d => if d.toFloat.isInf then valueless else float d.toFloat
    else integer? false text := by
  have hx := h.notMem (c := 'x') (by decide)
  have ho := h.notMem (c := 'o') (by decide)
  have hb := h.notMem (c := 'b') (by decide)
  have hinf : text ≠ ['i', 'n', 'f'] := by
    rintro rfl
    exact h.notMem (c := 'i') (by decide) (by decide)
  have hnan : text ≠ ['n', 'a', 'n'] := by
    rintro rfl
    exact h.notMem (c := 'a') (by decide) (by decide)
  unfold number?
  split
  · simp at hx
  · simp at ho
  · simp at hb
  · rw [sign_numeral h]
    simp only [hinf, hnan, ↓reduceIte, Option.map_eq_bind, Function.comp_def]
    rfl

theorem decimal?_spelled {whole fraction : List Char} (h : Spelled whole fraction) :
    decimal? false (whole ++ '.' :: fraction) =
      some ⟨false, Decimal.ofDigits (whole ++ fraction), -fraction.length⟩ := by
  have hunder := (Numeral.of_spelled h).notMem (c := '_') (by decide)
  have hwhole : digits (whole ++ '.' :: fraction) = some (whole, '.' :: fraction) :=
    digits_append h.whole_ne_nil (fun c hc => h.isDigit c (List.mem_append_left _ hc)) rfl
  have hfraction : digits fraction = some (fraction, []) := by
    simpa using digits_append (r := []) h.fraction_ne_nil
      (fun c hc => h.isDigit c (List.mem_append_right _ hc)) rfl
  have hlead : ((whole ++ '.' :: fraction).head? = some '0' && 1 < whole.length) = false := by
    apply leads_eq_false
    rw [List.head?_append_of_ne_nil _ h.whole_ne_nil]
    exact h.lead
  unfold decimal?
  rw [(Numeral.of_spelled h).filter_eq, hwhole]
  simp only [Option.bind_eq_bind, Option.bind_some, hfraction, exponent, hlead, Bool.or_false,
    isGrouped_of_notMem _ hunder, Decimal.ofParts, zero_sub]
  rfl

theorem integer?_digits {text : List Char} (hne : text ≠ []) (h : ∀ c ∈ text, c.isDigit = true)
    (hlead : text.head? = some '0' → text.length = 1) (hsmall : Decimal.ofDigits text < 2 ^ 128) :
    integer? false text = some (integer (Decimal.ofDigits text)) := by
  have hunder := (Numeral.of_digits hne h).notMem (c := '_') (by decide)
  have htail : text.dropWhile Char.isDigit = [] := dropWhile_of_forall h
  have hvalue : text.foldl (fun n d => 10 * n + hexValue d) 0 = Decimal.ofDigits text :=
    List.foldl_ext _ _ _ fun n c hc => by rw [hexValue, if_pos (h c hc)]
  have hdigits : text.all (isDigitOf 10) = true := by
    refine List.all_eq_true.mpr fun c hc => ?_
    have hnine : c.toNat ≤ 57 := (Char.isDigit_iff_toNat.mp (h c hc)).2
    simp [isDigitOf, isHexDigit, hexValue, h c hc]
    omega
  have hrange : inRange (Decimal.ofDigits text) = true := by
    simp only [inRange, Nat.pow_eq, Bool.and_eq_true, decide_eq_true_eq]
    omega
  have hspelled : spelled 10 false text = integer (Decimal.ofDigits text) := by
    simp [spelled, hvalue, hdigits, hrange, hne]
  unfold integer?
  rw [(Numeral.of_digits hne h).filter_eq, hspelled, htail, isGrouped_of_notMem _ hunder,
    leads_eq_false hlead]
  simp [hne, opensString]

theorem not_numeral_of_isDelimiter {c : Char} (h : isDelimiter c = true) :
    (c.isDigit || c = '.') = false := by
  simp only [isDelimiter, Bool.or_eq_true, decide_eq_true_eq, or_assoc] at h
  rcases h with rfl | rfl | rfl | rfl | rfl | rfl | rfl | rfl | rfl <;> rfl

structure Denotes (text : List Char) (x : Scalar) : Prop where
  numeral : Numeral text
  number : number? text = some x

theorem denotes_spelled {whole fraction : List Char} (h : Spelled whole fraction) {x : Float}
    (hx : x = (Decimal.mk false (Decimal.ofDigits (whole ++ fraction)) (-fraction.length)).toFloat)
    (hfinite : x.isInf = false) : Denotes (whole ++ '.' :: fraction) (float x) := by
  have hnumeral := Numeral.of_spelled h
  have hpoint : ((whole ++ '.' :: fraction).dropWhile Char.isDigit).any
      (fun c => c = '.' || c = 'e' || c = 'E') = true := by
    rw [List.dropWhile_append_of_pos fun c hc => h.isDigit c (List.mem_append_left _ hc)]
    rfl
  refine ⟨hnumeral, ?_⟩
  rw [number?_numeral hnumeral, if_pos hpoint, decimal?_spelled h]
  simp [← hx, hfinite]

theorem denotes_digitsOf {n : Nat} (hn : n < 2 ^ 128) : Denotes (digitsOf n) (integer n) := by
  have hdigits : ∀ c ∈ digitsOf n, c.isDigit = true := fun c => isDigit_of_mem_digitsOf
  have hnumeral := Numeral.of_digits (digitsOf_ne_nil n) hdigits
  have hlead : (digitsOf n).head? = some '0' → (digitsOf n).length = 1 := by
    intro hzero
    rcases Nat.eq_zero_or_pos n with rfl | hpos
    · rfl
    · exact absurd hzero (head?_digitsOf hpos)
  have htail : (digitsOf n).dropWhile Char.isDigit = [] := dropWhile_of_forall hdigits
  refine ⟨hnumeral, ?_⟩
  rw [number?_numeral hnumeral, htail, List.any_nil, if_neg Bool.false_ne_true,
    integer?_digits (digitsOf_ne_nil n) hdigits hlead (by rwa [Decimal.ofDigits_digitsOf]),
    Decimal.ofDigits_digitsOf]

namespace Denotes

variable {text : List Char} {x : Scalar}

theorem ofChars? (h : Denotes text x) : Scalar.ofChars? text = some x := by
  have htrue : text ≠ ['t', 'r', 'u', 'e'] := by
    rintro rfl
    exact h.numeral.notMem (c := 't') (by decide) (by decide)
  have hfalse : text ≠ ['f', 'a', 'l', 's', 'e'] := by
    rintro rfl
    exact h.numeral.notMem (c := 'f') (by decide) (by decide)
  unfold Scalar.ofChars?
  rw [if_neg htrue, if_neg hfalse, h.number]

theorem read (h : Denotes text x) (rest : List Char) :
    Scalar.read (text ++ '\n' :: rest) = some (x, '\n' :: rest) := by
  have htake : (text ++ '\n' :: rest).takeWhile (!isDelimiter ·) = text := by
    refine takeWhile_append_of_head (fun c hc => ?_) rfl
    rw [Bool.not_eq_true', Bool.eq_false_iff]
    exact fun hdelimiter => h.numeral.notMem (not_numeral_of_isDelimiter hdelimiter) hc
  have hblank : text.reverse.dropWhile (fun c => c = ' ' || c = '\t') = text.reverse := by
    apply dropWhile_of_head
    rw [Option.any_eq_false]
    intro c hc
    have hmem := List.mem_reverse.mp (List.mem_of_head? hc)
    simp [h.numeral.ne hmem]
  unfold Scalar.read
  simp only [htake, hblank, List.reverse_reverse, h.ofChars?, List.drop_left]
  rfl

theorem skipBlanks (h : Denotes text x) (rest : List Char) :
    Document.skipBlanks (text ++ rest) = text ++ rest := by
  obtain ⟨d, r, rfl, -⟩ := h.numeral.exists_cons
  apply dropWhile_of_head
  simp [h.numeral.ne List.mem_cons_self]

theorem value (h : Denotes text x) (depth : Nat) (rest : List Char) :
    Document.value depth (text ++ '\n' :: rest) = some (.scalar x, '\n' :: rest) := by
  have hread := h.read rest
  obtain ⟨d, r, rfl, -⟩ := h.numeral.exists_cons
  have hplain : Document.value.plain (d :: r ++ '\n' :: rest) = some (.scalar x, '\n' :: rest) := by
    have hquote : d ≠ Quoted.quote := h.numeral.ne List.mem_cons_self rfl
    have htick : d ≠ Quoted.tick := h.numeral.ne List.mem_cons_self rfl
    unfold Document.value.plain
    rw [hread]
    simp [hquote, htick]
  have hbracket : d ≠ '[' := h.numeral.ne List.mem_cons_self rfl
  have hbrace : d ≠ '\x7b' := h.numeral.ne List.mem_cons_self rfl
  cases depth with
  | zero => exact hplain
  | succ depth =>
    unfold Document.value
    split
    · rename_i heq
      cases heq
      contradiction
    · rename_i heq
      cases heq
      contradiction
    · exact hplain

end Denotes

end Scalar

end Toml

end Patchbay

import Patchbay.Proofs.Toml.Numeral

/-! Documents of one setting a line. Such a document is read as the table of its settings, in their
order, if no two have the same key. -/

namespace Patchbay.Toml

open Scan

structure Setting where
  key : String
  text : List Char
  value : Scalar

namespace Setting

def line (s : Setting) : List Char := s.key.toList ++ ' ' :: '=' :: ' ' :: (s.text ++ ['\n'])

theorem length_le_flatMap_line (ss : List Setting) : ss.length ≤ (ss.flatMap line).length := by
  induction ss with
  | nil => exact le_rfl
  | cons s ss ih =>
    simp [line]
    omega

def entry (s : Setting) : String × Value := (s.key, .scalar s.value)

structure Plain (s : Setting) : Prop where
  key_ne_nil : s.key.toList ≠ []
  isKeyChar : ∀ c ∈ s.key.toList, Document.isKeyChar c = true
  denotes : Scalar.Denotes s.text s.value

end Setting

namespace Document

variable {s : Setting}

/-! One line. -/

theorem simpleKey_line (h : s.Plain) (r : List Char) :
    simpleKey (s.key.toList ++ ' ' :: r) = some (s.key, ' ' :: r) := by
  have htake : (s.key.toList ++ ' ' :: r).takeWhile isKeyChar = s.key.toList :=
    takeWhile_append_of_head h.isKeyChar rfl
  have hdrop : (s.key.toList ++ ' ' :: r).dropWhile isKeyChar = ' ' :: r := by
    rw [List.dropWhile_append_of_pos h.isKeyChar]
    rfl
  unfold simpleKey
  rw [htake]
  split
  · rename_i hnil
    exact absurd hnil h.key_ne_nil
  · rw [hdrop, String.ofList_toList]

theorem keyPath_line (h : s.Plain) (n : Nat) (r : List Char) :
    keyPath (n + 1) (s.key.toList ++ ' ' :: '=' :: r) = some ([s.key], '=' :: r) := by
  unfold keyPath
  rw [simpleKey_line h]
  rfl

theorem line_append (s : Setting) (rest : List Char) :
    s.line ++ rest = s.key.toList ++ ' ' :: '=' :: ' ' :: (s.text ++ '\n' :: rest) := by
  simp [Setting.line]

theorem exists_line (h : s.Plain) (rest : List Char) :
    ∃ c r, s.line ++ rest = c :: r ∧ isKeyChar c = true := by
  obtain ⟨c, k, hkey⟩ := List.exists_cons_of_ne_nil h.key_ne_nil
  refine ⟨c, k ++ ' ' :: '=' :: ' ' :: (s.text ++ '\n' :: rest), ?_, ?_⟩
  · rw [line_append, hkey, List.cons_append]
  · exact h.isKeyChar c (by rw [hkey]; exact List.mem_cons_self)

theorem ne_of_isKeyChar {c d : Char} (h : isKeyChar c = true) (hd : isKeyChar d = false) : c ≠ d := by
  rintro rfl
  rw [h] at hd
  contradiction

theorem pair_line (h : s.Plain) (rest : List Char) :
    pair (some ∘ skipBlanks) (value maxDepth) (s.line ++ rest) =
      some (([s.key], .scalar s.value), '\n' :: rest) := by
  have hkey (r : List Char) : key (s.key.toList ++ ' ' :: '=' :: r) = some ([s.key], '=' :: r) :=
    keyPath_line h 79 r
  have hequals (r : List Char) : skipBlanks ('=' :: r) = '=' :: r := rfl
  have hblank (r : List Char) : skipBlanks (' ' :: r) = skipBlanks r := rfl
  unfold pair
  rw [line_append, hkey]
  simp only [Option.bind_eq_bind, Option.bind_some, Function.comp_apply, hequals, hblank,
    h.denotes.skipBlanks, h.denotes.value]

theorem line_line (h : s.Plain) (rest : List Char) :
    line (s.line ++ rest) = some (.pair [s.key] (.scalar s.value), '\n' :: rest) := by
  have hpair := pair_line h rest
  obtain ⟨c, r, hline, hc⟩ := exists_line h rest
  rw [hline] at hpair ⊢
  have hbracket := ne_of_isKeyChar hc (d := '[') rfl
  unfold line
  split
  · simp_all
  · simp_all
  · rw [hpair]
    rfl

theorem skip_line (h : s.Plain) (rest : List Char) : skip (s.line ++ rest) = some (s.line ++ rest) := by
  obtain ⟨c, r, hline, hc⟩ := exists_line h rest
  have hblanks : skipBlanks (c :: r) = c :: r := by
    apply dropWhile_of_head
    simp [ne_of_isKeyChar hc (d := ' ') rfl, ne_of_isKeyChar hc (d := '\t') rfl]
  rw [hline]
  unfold skip
  rw [List.length_cons, skipLines, hblanks]
  simp [ne_of_isKeyChar hc (d := '#') rfl, ne_of_isKeyChar hc (d := '\n') rfl,
    ne_of_isKeyChar hc (d := '\r') rfl]

/-! All lines. -/

theorem lines_settings {ss : List Setting} (h : ∀ s ∈ ss, s.Plain) {n : Nat} (hn : ss.length < n) :
    lines n (ss.flatMap Setting.line) =
      some (ss.map fun s => .pair [s.key] (.scalar s.value)) := by
  induction ss generalizing n with
  | nil =>
    obtain ⟨n, rfl⟩ := Nat.exists_eq_succ_of_ne_zero (Nat.ne_of_gt hn)
    rfl
  | cons s ss ih =>
    obtain ⟨n, rfl⟩ := Nat.exists_eq_succ_of_ne_zero (Nat.ne_of_gt (Nat.zero_lt_of_lt hn))
    have hs := h s List.mem_cons_self
    have hrest := ih (fun t ht => h t (List.mem_cons_of_mem s ht)) (Nat.lt_of_succ_lt_succ hn)
    have hend : lineEnd ('\n' :: ss.flatMap Setting.line) = some (ss.flatMap Setting.line) := rfl
    have hline := line_line hs (ss.flatMap Setting.line)
    have hskip := skip_line hs (ss.flatMap Setting.line)
    obtain ⟨c, r, hcons, -⟩ := exists_line hs (ss.flatMap Setting.line)
    rw [List.flatMap_cons, lines, hskip]
    rw [hcons] at hline ⊢
    simp only [Option.bind_eq_bind, Option.bind_some, hline, hend, hrest, List.map_cons]

theorem unmarked_settings {ss : List Setting} (h : ∀ s ∈ ss, s.Plain) :
    unmarked (ss.flatMap Setting.line) = ss.flatMap Setting.line := by
  cases ss with
  | nil => rfl
  | cons s ss =>
    obtain ⟨c, r, hcons, hc⟩ := exists_line (h s List.mem_cons_self) (ss.flatMap Setting.line)
    have hmark := ne_of_isKeyChar hc (d := '\uFEFF') rfl
    rw [List.flatMap_cons, hcons]
    unfold unmarked
    split
    · simp_all
    · rfl

theorem add_setting {t : Table} (s : Setting) (h : s.key ∉ t.map Prod.fst) :
    Open.add ⟨t, []⟩ (.pair [s.key] (.scalar s.value)) = some ⟨t ++ [s.entry], []⟩ := by
  have hget : t.get? s.key = none := by
    rw [Table.get?, Option.map_eq_none_iff, List.find?_eq_none]
    intro e he heq
    rw [decide_eq_true_eq] at heq
    exact h (heq ▸ List.mem_map_of_mem he)
  have hinsert : Table.insert true s.key (.scalar s.value) .header t = some (t ++ [s.entry]) := by
    unfold Table.insert
    rw [hget]
    rfl
  show (Table.insert true s.key (.scalar s.value) .header t).bind _ = _
  rw [hinsert]
  rfl

theorem foldlM_settings {ss : List Setting} {t : Table}
    (h : (t.map Prod.fst ++ ss.map Setting.key).Nodup) :
    (ss.map fun s => Line.pair [s.key] (.scalar s.value)).foldlM Open.add ⟨t, []⟩ =
      some ⟨t ++ ss.map Setting.entry, []⟩ := by
  induction ss generalizing t with
  | nil => simp
  | cons s ss ih =>
    have hnew : s.key ∉ t.map Prod.fst := fun hold =>
      List.disjoint_of_nodup_append h hold List.mem_cons_self
    have hrest : ((t ++ [s.entry]).map Prod.fst ++ ss.map Setting.key).Nodup := by
      simpa [Setting.entry] using h
    rw [List.map_cons, List.foldlM_cons, add_setting s hnew]
    simp [ih hrest]

end Document

theorem read?_settings {ss : List Setting} (h : ∀ s ∈ ss, s.Plain)
    (hkeys : (ss.map Setting.key).Nodup) :
    read? (String.ofList (ss.flatMap Setting.line)) = some (ss.map Setting.entry) := by
  have hlines := Document.lines_settings h (Nat.lt_succ_of_le (Setting.length_le_flatMap_line ss))
  have hfold := Document.foldlM_settings (t := []) hkeys
  unfold read?
  rw [String.toList_ofList, Document.unmarked_settings h]
  simp only [Option.bind_eq_bind, hlines, Option.bind_some, hfold]
  rfl

theorem get?_settings {ss : List Setting} (hkeys : (ss.map Setting.key).Nodup) {s : Setting}
    (hs : s ∈ ss) : Table.get? (ss.map Setting.entry) s.key = some (.scalar s.value) := by
  have hfind : ss.find? (fun t => t.key = s.key) = some s := by
    induction ss with
    | nil => contradiction
    | cons t ss ih =>
      rw [List.map_cons, List.nodup_cons] at hkeys
      rcases List.mem_cons.mp hs with rfl | hs
      · exact List.find?_cons_of_pos (decide_eq_true rfl)
      · have hne : t.key ≠ s.key := fun heq => hkeys.1 (heq ▸ List.mem_map_of_mem hs)
        rw [List.find?_cons_of_neg (by simpa using hne)]
        exact ih hkeys.2 hs
  unfold Table.get?
  rw [List.find?_map]
  exact congrArg _ (congrArg _ hfind)

end Patchbay.Toml

import Mathlib.Data.List.Infix

/-! @scheme words | name:texts that are split and joined

    A text is read word by word, words are gathered into groups between separators, and pieces are joined
    with something between them. What is not in the pieces or across their joints is not in the whole.

        "ab  c @@ d"  ──words──▶  ab c @@ d  ──groups──▶  [ab c] [d] -/

namespace Schemes
variable {α : Type}

/-- The words of a text: what is between blanks, where there is something. -/
def words (blank : α → Bool) (s : List α) : List (List α) := (s.splitOnP blank).filter (fun w => !w.isEmpty)

theorem ne_nil_of_mem_words {blank : α → Bool} {s w : List α} (h : w ∈ words blank s) : w ≠ [] := by
  have hw := (List.mem_filter.mp h).2
  intro hnil
  rw [hnil] at hw
  cases hw

/-- The pieces of a list between separators; `cur` is the piece that is being read. -/
def groupsFrom [DecidableEq α] (sep : α) (cur : List α) : List α → List (List α)
  | [] => [cur]
  | w :: ws => if w = sep then cur :: groupsFrom sep [] ws else groupsFrom sep (cur ++ [w]) ws

/-- What is in a piece is in the list. -/
theorem mem_of_mem_groupsFrom [DecidableEq α] {sep : α} : ∀ {ws cur g : List α} {x : α},
    g ∈ groupsFrom sep cur ws → x ∈ g → x ∈ cur ∨ x ∈ ws
  | [], cur, g, x, hg, hx => by
    rw [groupsFrom, List.mem_singleton] at hg
    exact .inl (hg ▸ hx)
  | w :: ws, cur, g, x, hg, hx => by
    rw [groupsFrom] at hg
    split at hg
    · rcases List.mem_cons.mp hg with rfl | hg
      · exact .inl hx
      · rcases mem_of_mem_groupsFrom hg hx with h | h
        · cases h
        · exact .inr (List.mem_cons_of_mem _ h)
    · rcases mem_of_mem_groupsFrom hg hx with h | h
      · rcases List.mem_append.mp h with h | h
        · exact .inl h
        · exact .inr (List.mem_singleton.mp h ▸ List.mem_cons_self)
      · exact .inr (List.mem_cons_of_mem _ h)

/-- The separator is in none of the pieces. -/
theorem not_mem_of_mem_splitOn [DecidableEq α] {sep : α} : ∀ {s piece : List α}, piece ∈ s.splitOn sep → sep ∉ piece
  | [], piece, h => by
    rw [List.splitOn_nil, List.mem_singleton] at h
    rw [h]
    exact List.not_mem_nil
  | x :: s, piece, h => by
    rw [List.splitOn_cons_eq_if_modifyHead] at h
    split at h
    · rcases List.mem_cons.mp h with rfl | h
      · exact List.not_mem_nil
      · exact not_mem_of_mem_splitOn h
    · rename_i hx
      cases hs : s.splitOn sep with
      | nil => exact absurd hs (List.splitOn_ne_nil sep s)
      | cons p ps =>
        rw [hs, List.modifyHead_cons] at h
        have hp : sep ∉ p := not_mem_of_mem_splitOn (s := s) (hs ▸ List.mem_cons_self)
        rcases List.mem_cons.mp h with rfl | h
        · rw [List.mem_cons, not_or]
          exact ⟨fun hsep => hx (by simp [hsep]), hp⟩
        · exact not_mem_of_mem_splitOn (s := s) (hs ▸ List.mem_cons_of_mem _ h)

/-! ### Words and blanks -/

/-- What is in a piece is in the text, and no blank. -/
theorem of_mem_splitOnP {blank : α → Bool} : ∀ {s piece : List α} {x : α}, piece ∈ s.splitOnP blank → x ∈ piece →
    x ∈ s ∧ blank x = false
  | [], piece, x, h, hx => by
    rw [List.splitOnP_nil, List.mem_singleton] at h
    rw [h] at hx
    cases hx
  | y :: s, piece, x, h, hx => by
    rw [List.splitOnP_cons_eq_if_modifyHead] at h
    split at h
    · rcases List.mem_cons.mp h with rfl | h
      · cases hx
      · obtain ⟨hs, hb⟩ := of_mem_splitOnP h hx
        exact ⟨List.mem_cons_of_mem y hs, hb⟩
    · rename_i hy
      cases hs : s.splitOnP blank with
      | nil => exact absurd hs (List.splitOnP_ne_nil blank s)
      | cons p ps =>
        rw [hs, List.modifyHead_cons] at h
        have hrest : ∀ q ∈ p :: ps, x ∈ q → x ∈ s ∧ blank x = false := fun q hq hxq =>
          of_mem_splitOnP (hs ▸ hq) hxq
        have hstep : ∀ q ∈ p :: ps, x ∈ q → x ∈ y :: s ∧ blank x = false := fun q hq hxq =>
          ⟨List.mem_cons_of_mem y (hrest q hq hxq).1, (hrest q hq hxq).2⟩
        rcases List.mem_cons.mp h with rfl | h
        · rcases List.mem_cons.mp hx with rfl | hx
          · exact ⟨List.mem_cons_self, by simpa using hy⟩
          · exact hstep p List.mem_cons_self hx
        · exact hstep piece (List.mem_cons_of_mem p h) hx

theorem of_mem_words {blank : α → Bool} {s w : List α} {x : α} (h : w ∈ words blank s) (hx : x ∈ w) :
    x ∈ s ∧ blank x = false :=
  of_mem_splitOnP (List.mem_of_mem_filter h) hx

/-- The words of a text behind its first blank. -/
def laterWords (blank : α → Bool) (s : List α) : List (List α) :=
  (s.splitOnP blank).tail.filter (fun w => !w.isEmpty)

theorem splitOnP_append {blank : α → Bool} : ∀ {a : List α}, (∀ x ∈ a, blank x = false) → ∀ s,
    (a ++ s).splitOnP blank = (s.splitOnP blank).modifyHead (a ++ ·)
  | [], _, s => by cases hs : s.splitOnP blank <;> simp [hs]
  | x :: a, h, s => by
    obtain ⟨hx, ha⟩ := List.forall_mem_cons.mp h
    rw [List.cons_append, List.splitOnP_cons_eq_if_modifyHead, hx, splitOnP_append ha s, List.modifyHead_modifyHead]
    rfl

/-- A text that begins with something but blanks has this at the front of its first word. -/
theorem words_append {blank : α → Bool} {a : List α} (ha : a ≠ []) (h : ∀ x ∈ a, blank x = false) (s : List α) :
    ∃ w, words blank (a ++ s) = (a ++ w) :: laterWords blank s := by
  rw [words, splitOnP_append h, laterWords]
  cases hs : s.splitOnP blank with
  | nil => exact absurd hs (List.splitOnP_ne_nil blank s)
  | cons p ps => exact ⟨p, by simp [ha]⟩

theorem words_self {blank : α → Bool} {s : List α} (hs : s ≠ []) (h : ∀ x ∈ s, blank x = false) :
    words blank s = [s] := by
  simp [words, List.splitOnP_eq_singleton h, hs]

/-- A word and a blank in front of a text. -/
theorem words_cons {blank : α → Bool} {w : List α} {b : α} (hw : w ≠ []) (h : ∀ x ∈ w, blank x = false)
    (hb : blank b = true) (s : List α) : words blank (w ++ b :: s) = w :: words blank s := by
  simp [words, List.splitOnP_append_cons_of_forall_mem h b hb, hw]

/-- An empty last piece leaves a separator at the end. -/
theorem intercalate_concat_nil {sep : List α} : ∀ {xs : List (List α)}, xs ≠ [] →
    sep.intercalate (xs ++ [[]]) = sep.intercalate xs ++ sep
  | [], h => absurd rfl h
  | [x], _ => by simp [List.intercalate]
  | x :: y :: xs, _ => by
    have ih := @intercalate_concat_nil sep (y :: xs) (List.cons_ne_nil y xs)
    rw [List.cons_append, List.cons_append, List.intercalate_cons_cons, List.intercalate_cons_cons, ← List.cons_append, ih]
    simp

/-- What is joined of the words that are not known is empty where only empty ones are not. -/
theorem foldl_join_eq_nil_iff [DecidableEq α] {known : List α → Prop} [DecidablePred known] {sep : List α} :
    ∀ (keys : List (List α)) (out : List α),
    keys.foldl (fun out key => if known key then out else (if out ≠ [] then out ++ sep else out) ++ key) out = [] ↔
      out = [] ∧ ∀ key ∈ keys, known key ∨ key = []
  | [], out => by simp
  | key :: keys, out => by
    rw [List.foldl_cons, foldl_join_eq_nil_iff keys, List.forall_mem_cons]
    rcases em (known key) with hk | hk
    · simp [hk]
    · rw [if_neg hk]
      rcases eq_or_ne out [] with rfl | hne
      · simp [hk]
      · simp [hne]

/-! ### Two in a row -/

/-- Two elements are not on both sides of a third. -/
theorem pair_infix_append {a b c : α} (ha : a ≠ c) (hb : b ≠ c) (r : List α) : ∀ l : List α,
    [a, b] <:+: l ++ c :: r ↔ [a, b] <:+: l ∨ [a, b] <:+: r
  | [] => by
    rw [List.nil_append, List.infix_cons_iff]
    simp [ha]
  | x :: l => by
    rw [List.cons_append, List.infix_cons_iff, List.infix_cons_iff, pair_infix_append ha hb r l, or_assoc]
    refine or_congr_left ?_
    cases l with
    | nil => simp [hb]
    | cons y l => simp

theorem pair_infix_skip {a b : α} : ∀ {sep : List α}, sep ≠ [] → a ∉ sep → b ∉ sep → ∀ l r : List α,
    [a, b] <:+: l ++ (sep ++ r) ↔ [a, b] <:+: l ∨ [a, b] <:+: r
  | [], h, _, _, _, _ => absurd rfl h
  | c :: sep, _, ha, hb, l, r => by
    rw [List.mem_cons, not_or] at ha hb
    rw [List.cons_append, pair_infix_append ha.1 hb.1]
    by_cases hsep : sep = []
    · rw [hsep, List.nil_append]
    · rw [← List.nil_append (sep ++ r), pair_infix_skip hsep ha.2 hb.2 [] r]
      simp

/-- They are in the whole only if they are in a piece. -/
theorem pair_infix_intercalate {a b : α} {sep : List α} (hsep : sep ≠ []) (ha : a ∉ sep) (hb : b ∉ sep) :
    ∀ xs : List (List α), [a, b] <:+: sep.intercalate xs ↔ ∃ x ∈ xs, [a, b] <:+: x
  | [] => by simp [List.intercalate]
  | [x] => by simp [List.intercalate]
  | x :: y :: xs => by
    rw [List.intercalate_cons_cons, List.append_assoc, pair_infix_skip hsep ha hb,
      pair_infix_intercalate hsep ha hb (y :: xs)]
    simp

end Schemes

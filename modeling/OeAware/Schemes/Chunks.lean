import Mathlib.Data.List.Basic

/-! @scheme chunks | name:a byte stream in the pieces in which it arrives | models:recv

    A stream socket delivers a sequence of elements in pieces whose borders mean nothing to the
    sender. The feed is the list of those pieces; a read takes at most so much of the first one.
    Positions are absolute: `spans p cs` says where each piece begins and ends when the first one
    begins at `p`, and `advance k` moves on by `k` elements without disturbing a later border. -/

namespace Schemes
variable {α : Type}

/-- Read at most `size` elements of the next piece; nothing once there is no more to come. -/
def recv : List (List α) → ℕ → List α × List (List α)
  | [], _ => ([], [])
  | c :: cs, size => if c.length ≤ size then (c, cs) else (c.take size, c.drop size :: cs)

/-- Where each piece begins and ends. -/
def spans : ℕ → List (List α) → List (ℕ × ℕ)
  | _, [] => []
  | p, c :: cs => (p, p + c.length) :: spans (p + c.length) cs

/-- The positions at which pieces end. -/
def cuts (p : ℕ) (cs : List (List α)) : List ℕ := (spans p cs).map (·.2)

/-- What is left of the feed after `k` more elements. -/
def advance : ℕ → List (List α) → List (List α)
  | _, [] => []
  | k, c :: cs => if k < c.length then c.drop k :: cs else advance (k - c.length) cs

/-- No piece is empty. -/
def Solid (cs : List (List α)) : Prop := ∀ c ∈ cs, c ≠ []

theorem Solid.tail {c : List α} {cs : List (List α)} (h : Solid (c :: cs)) : Solid cs :=
  fun d hd => h d (List.mem_cons_of_mem _ hd)

theorem Solid.head_pos {c : List α} {cs : List (List α)} (h : Solid (c :: cs)) : 0 < c.length :=
  List.length_pos_of_ne_nil (h c (List.mem_cons_self ..))

/-! ### Reading -/

theorem recv_flatten (cs : List (List α)) (size : ℕ) :
    (recv cs size).1 ++ (recv cs size).2.flatten = cs.flatten := by
  cases cs with
  | nil => rfl
  | cons c cs =>
    rw [recv]
    split
    · rfl
    · rw [List.flatten_cons, ← List.append_assoc, List.take_append_drop, List.flatten_cons]

theorem length_recv_le (cs : List (List α)) (size : ℕ) : (recv cs size).1.length ≤ size := by
  cases cs with
  | nil => exact Nat.zero_le _
  | cons c cs =>
    rw [recv]
    split
    · assumption
    · exact List.length_take_le _ _

theorem recv_solid {cs : List (List α)} (h : Solid cs) (size : ℕ) : Solid (recv cs size).2 := by
  cases cs with
  | nil => exact h
  | cons c cs =>
    rw [recv]
    split
    · exact h.tail
    · rename_i hlt
      intro d hd
      rcases List.mem_cons.mp hd with rfl | hd
      · intro hnil
        have := List.drop_eq_nil_iff.mp hnil
        omega
      · exact h.tail d hd

theorem recv_ne_nil {cs : List (List α)} (h : Solid cs) (hne : cs ≠ []) {size : ℕ}
    (hs : 0 < size) : (recv cs size).1 ≠ [] := by
  cases cs with
  | nil => exact absurd rfl hne
  | cons c cs =>
    have hc := h.head_pos
    rw [recv]
    split
    · exact h c (List.mem_cons_self ..)
    · intro hnil
      have := congrArg List.length hnil
      rw [List.length_take] at this
      simp only [List.length_nil] at this
      omega

/-! ### Moving on -/

theorem flatten_advance : ∀ (k : ℕ) (cs : List (List α)),
    (advance k cs).flatten = cs.flatten.drop k
  | k, [] => by simp [advance]
  | k, c :: cs => by
    rw [advance]
    split
    · rw [List.flatten_cons, List.flatten_cons, List.drop_append_of_le_length (by omega)]
    · rename_i h
      have hc : c.drop k = [] := List.drop_eq_nil_iff.mpr (by omega)
      rw [flatten_advance, List.flatten_cons, List.drop_append, hc, List.nil_append]

theorem advance_zero {cs : List (List α)} (h : Solid cs) : advance 0 cs = cs := by
  cases cs with
  | nil => rfl
  | cons c cs => rw [advance, if_pos h.head_pos, List.drop_zero]

theorem advance_length {c : List α} {cs : List (List α)} (h : Solid cs) :
    advance c.length (c :: cs) = cs := by
  rw [advance, if_neg (Nat.lt_irrefl _), Nat.sub_self, advance_zero h]

theorem advance_lt {c : List α} {k : ℕ} (h : k < c.length) (cs : List (List α)) :
    advance k (c :: cs) = c.drop k :: cs := by
  rw [advance, if_pos h]

theorem advance_add (j k : ℕ) : ∀ cs : List (List α),
    advance (j + k) cs = advance k (advance j cs)
  | [] => rfl
  | c :: cs => by
    rw [advance, advance.eq_def j]
    dsimp only
    by_cases hj : j < c.length
    · rw [if_pos hj, advance, List.length_drop, List.drop_drop]
      by_cases hk : j + k < c.length
      · rw [if_pos hk, if_pos (by omega)]
      · rw [if_neg hk, if_neg (by omega)]
        congr 1
        omega
    · rw [if_neg hj, if_neg (by omega), ← advance_add (j - c.length) k cs]
      congr 1
      omega

theorem advance_solid : ∀ (k : ℕ) {cs : List (List α)}, Solid cs → Solid (advance k cs)
  | _, [], h => h
  | k, c :: cs, h => by
    rw [advance]
    split
    · rename_i hk
      intro d hd
      rcases List.mem_cons.mp hd with rfl | hd
      · intro hnil
        have := List.drop_eq_nil_iff.mp hnil
        omega
      · exact h.tail d hd
    · exact advance_solid _ h.tail

theorem advance_append : ∀ {k : ℕ} {cs cs' : List (List α)}, Solid cs' → k ≤ cs.flatten.length →
    advance k (cs ++ cs') = advance k cs ++ cs'
  | k, [], cs', h, hk => by
    rw [Nat.le_zero.mp hk, List.nil_append, advance_zero h]
    rfl
  | k, c :: cs, cs', h, hk => by
    rw [List.flatten_cons, List.length_append] at hk
    rw [List.cons_append, advance, advance]
    split
    · rfl
    · exact advance_append h (by omega)

/-! ### Borders -/

theorem le_of_mem_spans : ∀ {p : ℕ} {cs : List (List α)} {a b : ℕ}, (a, b) ∈ spans p cs →
    p ≤ a ∧ a ≤ b ∧ b ≤ p + cs.flatten.length
  | _, [], _, _, h => by cases h
  | p, c :: cs, a, b, h => by
    rw [List.flatten_cons, List.length_append]
    rcases List.mem_cons.mp h with he | h
    · cases he; omega
    · have := le_of_mem_spans h
      omega

theorem mem_cuts {p b : ℕ} {cs : List (List α)} : b ∈ cuts p cs ↔ ∃ a, (a, b) ∈ spans p cs := by
  simp [cuts]

theorem mem_cuts_cons {p b : ℕ} {c : List α} {cs : List (List α)} :
    b ∈ cuts p (c :: cs) ↔ b = p + c.length ∨ b ∈ cuts (p + c.length) cs := by
  simp [cuts, spans]

theorem le_of_mem_cuts {p b : ℕ} {c : List α} {cs : List (List α)} (h : b ∈ cuts p (c :: cs)) :
    p + c.length ≤ b := by
  rcases mem_cuts_cons.mp h with rfl | h
  · exact Nat.le_refl _
  · obtain ⟨a, ha⟩ := mem_cuts.mp h
    have := le_of_mem_spans ha
    omega

theorem spans_append : ∀ (p : ℕ) (cs cs' : List (List α)),
    spans p (cs ++ cs') = spans p cs ++ spans (p + cs.flatten.length) cs'
  | _, [], _ => rfl
  | p, c :: cs, cs' => by
    rw [List.cons_append, spans, spans, spans_append, List.flatten_cons, List.length_append,
      Nat.add_assoc]
    rfl

theorem mem_cuts_append {p b : ℕ} {cs cs' : List (List α)} :
    b ∈ cuts p (cs ++ cs') ↔ b ∈ cuts p cs ∨ b ∈ cuts (p + cs.flatten.length) cs' := by
  rw [cuts, spans_append, List.map_append, List.mem_append]
  rfl

/-- Cutting a piece in two adds a border and takes none away. -/
theorem mem_cuts_split (k : ℕ) {p b : ℕ} {c : List α} {cs : List (List α)}
    (h : b ∈ cuts p (c :: cs)) : b ∈ cuts p (c.take k :: c.drop k :: cs) := by
  have hlen : p + (c.take k).length + (c.drop k).length = p + c.length := by
    rw [Nat.add_assoc, ← List.length_append, List.take_append_drop]
  rw [mem_cuts_cons, mem_cuts_cons, hlen]
  exact Or.inr (mem_cuts_cons.mp h)

/-- What a read returns and what it leaves are cut where the feed was. -/
theorem mem_cuts_recv (size : ℕ) {p b : ℕ} {cs : List (List α)} (h : b ∈ cuts p cs) :
    b ∈ cuts p ((recv cs size).1 :: (recv cs size).2) := by
  cases cs with
  | nil => cases h
  | cons c cs =>
    rw [recv]
    split
    · exact h
    · exact mem_cuts_split size h

/-- A border beyond the new position is a border of the old feed, and the other way round. -/
theorem mem_cuts_advance : ∀ (k : ℕ) {p b : ℕ} {cs : List (List α)},
    p + k < b → (b ∈ cuts (p + k) (advance k cs) ↔ b ∈ cuts p cs)
  | _, _, _, [], _ => Iff.rfl
  | k, p, b, c :: cs, hb => by
    rw [advance]
    split
    · have hlen : p + k + (c.drop k).length = p + c.length := by
        rw [List.length_drop]; omega
      rw [mem_cuts_cons, mem_cuts_cons, hlen]
    · have hp : p + k = p + c.length + (k - c.length) := by omega
      rw [mem_cuts_cons, hp, mem_cuts_advance (k - c.length) (by omega)]
      constructor
      · exact Or.inr
      · rintro (he | h)
        · omega
        · exact h

/-- A piece of the new feed is the end of a piece of the old one. -/
theorem mem_spans_advance : ∀ (k : ℕ) {p a b : ℕ} {cs : List (List α)},
    (a, b) ∈ spans (p + k) (advance k cs) → ∃ a0 ≤ a, (a0, b) ∈ spans p cs
  | _, _, _, _, [], h => by cases h
  | k, p, a, b, c :: cs, h => by
    rw [advance] at h
    split at h
    · have hlen : p + k + (c.drop k).length = p + c.length := by
        rw [List.length_drop]; omega
      rw [spans, hlen] at h
      rcases List.mem_cons.mp h with he | h
      · cases he
        exact ⟨p, by omega, List.mem_cons_self ..⟩
      · exact ⟨a, Nat.le_refl a, List.mem_cons_of_mem _ h⟩
    · have hp : p + k = p + c.length + (k - c.length) := by omega
      rw [hp] at h
      obtain ⟨a0, ha, h0⟩ := mem_spans_advance (k - c.length) h
      exact ⟨a0, ha, List.mem_cons_of_mem _ h0⟩

/-! ### Several reads -/

/-- What reads of at least `size` elements each leave of a feed: it has been cut at one of its own
    borders, or within a piece at least `size` elements after that piece began. -/
def Drawn (size : ℕ) (cs cs' : List (List α)) : Prop :=
  ∃ j, cs' = advance j cs ∧ ∀ p, j = 0 ∨ p + j ∈ cuts p cs ∨
    ∃ a b, (a, b) ∈ spans p cs ∧ a + size ≤ p + j ∧ p + j < b

theorem Drawn.refl (size : ℕ) {cs : List (List α)} (h : Solid cs) : Drawn size cs cs :=
  ⟨0, (advance_zero h).symm, fun _ => Or.inl rfl⟩

theorem Drawn.trans {size : ℕ} {cs cs' cs'' : List (List α)} (h : Drawn size cs cs')
    (h' : Drawn size cs' cs'') : Drawn size cs cs'' := by
  obtain ⟨j, rfl, hj⟩ := h
  obtain ⟨k, rfl, hk⟩ := h'
  refine ⟨j + k, (advance_add j k cs).symm, fun p => ?_⟩
  rcases Nat.eq_zero_or_pos k with rfl | hpos
  · exact hj p
  · rw [← Nat.add_assoc]
    refine Or.inr ?_
    rcases hk (p + j) with h0 | hc | ⟨a, b, hm, ha, hb⟩
    · omega
    · exact Or.inl ((mem_cuts_advance j (by omega)).mp hc)
    · obtain ⟨a0, ha0, h0⟩ := mem_spans_advance j hm
      exact Or.inr ⟨a0, b, h0, by omega, hb⟩

theorem Drawn.recv {size n : ℕ} (hn : size ≤ n) {cs : List (List α)} (h : Solid cs) :
    Drawn size cs (recv cs n).2 := by
  cases cs with
  | nil => exact .refl size h
  | cons c cs =>
    rw [Schemes.recv]
    split
    · refine ⟨c.length, (advance_length h.tail).symm, fun p => Or.inr (Or.inl ?_)⟩
      exact mem_cuts_cons.mpr (Or.inl rfl)
    · refine ⟨n, (advance_lt (by omega) cs).symm, fun p => Or.inr (Or.inr ?_)⟩
      exact ⟨p, p + c.length, List.mem_cons_self .., by omega, by omega⟩

end Schemes

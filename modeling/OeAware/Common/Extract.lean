import OeAware.Common.Numbers

/-! @src src/plugin/tune/system/cpu/dynamic_smt_tune, src/plugin/tune/docker/coordination_burst | name:std::istream::operator>>

    An `int` that is taken from a file. What is no number makes it 0, what is too large the bound, and an empty file
    leaves it alone. What the kernel shows of a number it has is read back.

        -20⏎ ──isSpace──▶ sign │ digits ──▶ -20 -/

namespace OeAware

/-! ### Taking a number -/

/-- Whether there is a minus, and what is behind the sign. -/
def takeSign : Str → Bool × Str
  | 45 :: rest => (true, rest)
  | 43 :: rest => (false, rest)
  | s => (false, s)

/-- The digits at the front. -/
def takeDigits (s : Str) : Str := s.takeWhile (fun c => 48 ≤ c ∧ c ≤ 57)

/-- The number that sign and digits say. -/
def numeral (s : Str) : ℤ :=
  let n : ℤ := (takeDigits (takeSign s).2).foldl (fun n c => 10 * n + (c.toNat - 48)) 0
  if (takeSign s).1 then -n else n

/-- `file >> n`: what becomes of `n`. -/
def extractInt (file : Str) (n : ℤ) : ℤ :=
  let s := file.dropWhile isSpace
  if s = [] then n
  else if takeDigits (takeSign s).2 = [] then 0
  else max (-2 ^ 31) (min (2 ^ 31 - 1) (numeral s))

/-- What the kernel shows of a number. -/
def showLine (n : ℤ) : Str := showInt n ++ [10]

/-! ### Reading back -/

theorem showLine_injective {m n : ℤ} (h : showLine m = showLine n) : m = n := showInt_injective (List.append_cancel_right h)

theorem takeSign_showInt (n : ℤ) (rest : Str) :
    takeSign (showInt n ++ rest) = (decide (n < 0), toStr n.natAbs ++ rest) := by
  rw [showInt]
  split
  · rename_i hneg
    rw [decide_eq_true hneg]
    rfl
  · rename_i hneg
    obtain ⟨c, l, hc, hne⟩ := toStr_cons n.natAbs
    have h45 : c ≠ 45 := hne 45 (by decide)
    have h43 : c ≠ 43 := hne 43 (by decide)
    rw [decide_eq_false hneg, hc, List.cons_append, takeSign.eq_def]
    split
    · rename_i heq
      exact absurd (List.cons.inj heq).1 h45
    · rename_i heq
      exact absurd (List.cons.inj heq).1 h43
    · rfl

theorem takeDigits_toStr (n : ℕ) {rest : Str} (h : takeDigits rest = []) : takeDigits (toStr n ++ rest) = toStr n := by
  have hall : ∀ c ∈ toStr n, decide (48 ≤ c ∧ c ≤ 57) = true := fun c hc => decide_eq_true (mem_toStr hc)
  rw [takeDigits, List.takeWhile_append_of_pos hall]
  exact (congrArg (toStr n ++ ·) h).trans (List.append_nil _)

theorem numeral_showInt (n : ℤ) {rest : Str} (h : takeDigits rest = []) : numeral (showInt n ++ rest) = n := by
  rw [numeral, takeSign_showInt]
  dsimp only
  rw [takeDigits_toStr _ h, foldl_digits_toStr]
  split
  · rename_i hneg
    have := of_decide_eq_true hneg
    omega
  · rename_i hneg
    have : ¬ n < 0 := fun h => hneg (decide_eq_true h)
    omega

/-- A number that is shown begins with no blank. -/
theorem dropWhile_showInt (n : ℤ) (rest : Str) : (showInt n ++ rest).dropWhile isSpace = showInt n ++ rest := by
  rw [showInt]
  split
  · rfl
  · obtain ⟨c, l, hc, hne⟩ := toStr_cons n.natAbs
    rw [hc, List.cons_append, List.dropWhile_cons_of_neg]
    rw [Bool.not_eq_true, isSpace, Bool.or_eq_false_iff, decide_eq_false_iff_not, Bool.and_eq_false_iff]
    refine ⟨hne 32 (by decide), Or.inr (decide_eq_false fun h13 => ?_)⟩
    have h13 : c.toNat ≤ 13 := UInt8.le_iff_toNat_le.mp h13
    exact hne (UInt8.ofNat c.toNat) (by rw [UInt8.toNat_ofNat']; omega) (by simp)

/-- READ BACK: what is shown of an `int` is the `int`. -/
theorem extractInt_showLine {n : ℤ} (hlow : -2 ^ 31 ≤ n) (hhigh : n < 2 ^ 31) (old : ℤ) : extractInt (showLine n) old = n := by
  have hten : takeDigits [10] = [] := by decide
  have hne : showInt n ++ [10] ≠ [] := List.append_ne_nil_of_right_ne_nil _ (List.cons_ne_nil _ _)
  have hdigits : takeDigits (takeSign (showInt n ++ [10])).2 ≠ [] := by
    rw [takeSign_showInt, takeDigits_toStr _ hten]
    exact toStr_ne_nil _
  rw [extractInt, showLine, dropWhile_showInt, if_neg hne, if_neg hdigits, numeral_showInt n hten]
  omega

/-! ### Integers -/

/-- Such a text is a number for `atoi` too, if it is one of the `int`s. -/
theorem atoi_eq_numeral {s : Str} (hspace : s.dropWhile (fun c => c = 32 ∨ (9 ≤ c ∧ c ≤ 13)) = s)
    (hlow : -2 ^ 31 ≤ numeral s) (hhigh : numeral s < 2 ^ 31) : atoi s = numeral s := by
  have hatoi : atoi s = Int.bmod (max (-2 ^ 63) (min (2 ^ 63 - 1) (numeral s))) (2 ^ 32) := by
    rw [atoi, hspace]
    rfl
  have hclamp : max (-2 ^ 63) (min (2 ^ 63 - 1) (numeral s)) = numeral s := by omega
  rw [hatoi, hclamp]
  exact Int.bmod_eq_of_le (by omega) (by omega)

end OeAware

import Mathlib.Algebra.Ring.Int.Defs
import Mathlib.Algebra.Ring.Nat
import Mathlib.Data.List.TakeWhile
import OeAware.Common.Topic

/-! @src src/plugin_mgr/message_manager.cpp, src/plugin/tune/docker/cluster_affinity | name:std::to_string,
    std::stoi

    Numbers as text. The kernel writes a set of CPUs or nodes as a list of ranges, and the readers of such
    lists split it at the commas and each range at its dash.

        0-3,8,10-11 ──▶ 0-3 │ 8 │ 10-11 ──▶ 0 1 2 3 8 10 11 -/

namespace OeAware

/-! ### Decimal numbers -/

/-- `std::to_string` of a descriptor. -/
def toStr (fd : ℕ) : Str := (Nat.toDigits 10 fd).map (fun c => UInt8.ofNat c.toNat)

/-- The same for a number with a sign. -/
def showInt (n : ℤ) : Str := if n < 0 then 45 :: toStr n.natAbs else toStr n.natAbs

/-- A decimal digit of a descriptor's number is a byte between `0` and `9`. -/
theorem mem_toStr {fd : ℕ} {c : UInt8} (h : c ∈ toStr fd) : 48 ≤ c ∧ c ≤ 57 := by
  obtain ⟨d, hd, rfl⟩ := List.mem_map.mp h
  have hdig := Nat.isDigit_of_mem_toDigits (by decide) (by decide) hd
  rw [Char.isDigit_iff_toNat] at hdig
  rw [UInt8.le_iff_toNat_le, UInt8.le_iff_toNat_le, UInt8.toNat_ofNat']
  have h1 : 48 ≤ d.toNat := hdig.1
  have h2 : d.toNat ≤ 57 := hdig.2
  rw [Nat.mod_eq_of_lt (by omega)]
  exact ⟨h1, h2⟩

theorem toStr_ne_nil (fd : ℕ) : toStr fd ≠ [] := by
  simp [toStr, Nat.toDigits_ne_nil]

theorem foldl_toStr : ∀ (l : List Char) (n : ℕ), (∀ c ∈ l, c.isDigit = true) →
    (l.map (fun c => UInt8.ofNat c.toNat)).foldl (fun (n : ℤ) c => 10 * n + (c.toNat - 48)) n =
      Nat.ofDigitChars 10 l n
  | [], n, _ => by simp
  | c :: l, n, h => by
    have hc := h c (List.mem_cons_self ..)
    rw [Char.isDigit_iff_toNat] at hc
    have h1 : 48 ≤ c.toNat := hc.1
    have h2 : c.toNat ≤ 57 := hc.2
    have h3 : (10 * n + (((UInt8.ofNat c.toNat).toNat : ℤ) - 48) : ℤ) =
        ((10 * n + (c.toNat - 48) : ℕ) : ℤ) := by
      rw [UInt8.toNat_ofNat', Nat.mod_eq_of_lt (by omega)]
      omega
    rw [List.map_cons, List.foldl_cons, h3, foldl_toStr l _ (fun d hd => h d (List.mem_cons_of_mem _ hd)),
      Nat.ofDigitChars_cons]
    rfl

/-- `std::stoi`; `none` where it throws. -/
def stoi (s : Str) : Option ℤ :=
  let s := s.dropWhile (fun c => c = 32 ∨ (9 ≤ c ∧ c ≤ 13))
  let (neg, s) := match s with
    | 45 :: rest => (true, rest)
    | 43 :: rest => (false, rest)
    | s => (false, s)
  let digits := s.takeWhile (fun c => 48 ≤ c ∧ c ≤ 57)
  let n : ℤ := digits.foldl (fun n c => 10 * n + (c.toNat - 48)) 0
  let n := if neg then -n else n
  if digits = [] ∨ n < -2 ^ 31 ∨ 2 ^ 31 ≤ n then none else some n

section Reading
variable {n : ℕ}

/-- A number begins with a digit. -/
theorem toStr_cons (n : ℕ) : ∃ c l, toStr n = c :: l ∧ ∀ d : UInt8, d.toNat < 48 → c ≠ d := by
  obtain ⟨c, l, hc⟩ := List.exists_cons_of_ne_nil (toStr_ne_nil n)
  have hmem : c ∈ toStr n := hc ▸ List.mem_cons_self
  have h48 : 48 ≤ c.toNat := UInt8.le_iff_toNat_le.mp (mem_toStr hmem).1
  refine ⟨c, l, hc, ?_⟩
  rintro d hd rfl
  omega

theorem dropWhile_toStr (n : ℕ) :
    (toStr n).dropWhile (fun c => c = 32 ∨ (9 ≤ c ∧ c ≤ 13)) = toStr n := by
  obtain ⟨c, l, hc, hne⟩ := toStr_cons n
  rw [hc, List.dropWhile_cons_of_neg]
  have h13 : ¬ c ≤ 13 := fun h13 => by
    have h13 : c.toNat ≤ 13 := UInt8.le_iff_toNat_le.mp h13
    exact hne (UInt8.ofNat c.toNat) (by rw [UInt8.toNat_ofNat']; omega) (by simp)
  simp [hne 32 (by decide), h13]

theorem takeWhile_toStr (n : ℕ) : (toStr n).takeWhile (fun c => 48 ≤ c ∧ c ≤ 57) = toStr n := by
  rw [List.takeWhile_eq_self_iff]
  simpa using fun c hc => mem_toStr hc

theorem foldl_digits_toStr (n : ℕ) :
    (toStr n).foldl (fun (n : ℤ) c => 10 * n + (c.toNat - 48)) 0 = n := by
  have hfold := foldl_toStr (Nat.toDigits 10 n) 0
    (fun c hd => Nat.isDigit_of_mem_toDigits (by decide) (by decide) hd)
  rwa [Nat.ofDigitChars_ten_toDigits] at hfold

theorem toStr_injective {m : ℕ} (h : toStr n = toStr m) : n = m := by
  have hn := foldl_digits_toStr n
  rw [h, foldl_digits_toStr] at hn
  exact (Int.ofNat.inj hn).symm

/-- Different numbers are written differently. -/
theorem showInt_injective {v w : ℤ} (h : showInt v = showInt w) : v = w := by
  have hsign : ∀ {a b : ℕ}, toStr a ≠ 45 :: toStr b := by
    intro a b heq
    obtain ⟨c, l, hc, hne⟩ := toStr_cons a
    rw [hc] at heq
    exact hne 45 (by decide) (List.cons.inj heq).1
  unfold showInt at h
  split at h
  · split at h
    · have habs := toStr_injective (List.cons.inj h).2
      omega
    · exact absurd h.symm hsign
  · split at h
    · exact absurd h hsign
    · have habs := toStr_injective h
      omega

/-- `atoi` reads back what `to_string` wrote. -/
theorem atoi_toStr (h : n < 2 ^ 31) : atoi (toStr n) = n := by
  obtain ⟨c, l, hc, hne⟩ := toStr_cons n
  have hclamp : max (-2 ^ 63) (min (2 ^ 63 - 1) (n : ℤ)) = n := by omega
  unfold atoi
  simp only [dropWhile_toStr]
  split
  · rename_i heq
    rw [hc] at heq
    exact absurd (List.cons.inj heq).1 (hne 45 (by decide))
  · rename_i heq
    rw [hc] at heq
    exact absurd (List.cons.inj heq).1 (hne 43 (by decide))
  · rw [takeWhile_toStr, foldl_digits_toStr, if_neg Bool.false_ne_true, hclamp]
    exact Int.bmod_eq_of_le (by omega) (by omega)

/-- So does `stoi`. -/
theorem stoi_toStr (h : n < 2 ^ 31) : stoi (toStr n) = some (n : ℤ) := by
  obtain ⟨c, l, hc, hne⟩ := toStr_cons n
  unfold stoi
  simp only [dropWhile_toStr]
  split
  · rename_i heq
    rw [hc] at heq
    exact absurd (List.cons.inj heq).1 (hne 45 (by decide))
  · rename_i heq
    rw [hc] at heq
    exact absurd (List.cons.inj heq).1 (hne 43 (by decide))
  · rw [takeWhile_toStr, foldl_digits_toStr, if_neg Bool.false_ne_true, if_neg]
    have := toStr_ne_nil n
    simp only [this, false_or, not_or]
    omega

end Reading

/-! ### Words -/

def isSpace (c : UInt8) : Bool := c = 32 || (9 ≤ c && c ≤ 13)

/-- `ifs >> s`, which leaves the string alone where there is no word. -/
def readWord (file s : Str) : Str :=
  let word := (file.dropWhile isSpace).takeWhile (fun c => !isSpace c)
  if word = [] then s else word

/-! ### Lists of ranges -/

/-- A range of CPUs or nodes as the kernel writes it. -/
def showRange (r : ℕ × ℕ) : Str := if r.1 = r.2 then toStr r.1 else toStr r.1 ++ 45 :: toStr r.2

/-- What is in a range. -/
def expandRange (r : ℕ × ℕ) : List ℕ := List.range' r.1 (r.2 + 1 - r.1)

/-- The string is a list in the kernel's format, and `v` is what it lists. No CPU or node has the largest
    `int` for its number. -/
def Lists (s : Str) (v : List ℕ) : Prop :=
  ∃ rs : List (ℕ × ℕ), (∀ r ∈ rs, r.1 ≤ r.2 ∧ r.2 < 2 ^ 31 - 1) ∧
    s = [44].intercalate (rs.map showRange) ∧ v = (rs.map expandRange).flatten

theorem not_mem_toStr {c : UInt8} (h : c < 48) (n : ℕ) : c ∉ toStr n :=
  fun hc => absurd (mem_toStr hc).1 (UInt8.not_le.mpr h)

theorem not_mem_showRange (r : ℕ × ℕ) : 44 ∉ showRange r := by
  have h44 : ∀ n, 44 ∉ toStr n := not_mem_toStr (by decide)
  unfold showRange
  split
  · exact h44 _
  · simp [h44]

theorem showRange_ne_nil (r : ℕ × ℕ) : showRange r ≠ [] := by
  unfold showRange
  split
  · exact toStr_ne_nil _
  · exact fun h => toStr_ne_nil _ (List.append_eq_nil_iff.mp h).1

/-- The text between the commas. -/
theorem splitOn_showRanges {rs : List (ℕ × ℕ)} (h : rs ≠ []) :
    ([44].intercalate (rs.map showRange)).splitOn 44 = rs.map showRange := by
  refine List.splitOn_intercalate 44 (fun l hl => ?_) (by simpa using h)
  obtain ⟨r, -, rfl⟩ := List.mem_map.mp hl
  exact not_mem_showRange r

/-- A list of nothing is the empty string. -/
theorem Lists.eq_nil_iff {s : Str} {v : List ℕ} (h : Lists s v) : s = [] ↔ v = [] := by
  obtain ⟨rs, hrs, rfl, rfl⟩ := h
  cases rs with
  | nil => exact ⟨fun _ => rfl, fun _ => rfl⟩
  | cons r rs =>
    obtain ⟨hr, -⟩ := List.forall_mem_cons.mp hrs
    refine iff_of_false (fun h => ?_) (fun h => ?_)
    · have hsplit := splitOn_showRanges (List.cons_ne_nil r rs)
      rw [h, List.map_cons] at hsplit
      exact showRange_ne_nil r (List.cons.inj hsplit).1.symm
    · have hlen := congrArg List.length (List.append_eq_nil_iff.mp h).1
      rw [expandRange, List.length_range', List.length_nil] at hlen
      omega

end OeAware

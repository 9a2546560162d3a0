import OeAware.Tune.ClusterAffinity
import OeAware.Schemes.Loops

/-! @src src/plugin/tune/docker/cluster_affinity/cluster_affinity_adapt.cpp |
    name:ConvertCpusetToString, TransformStrToVec | scheme:fold

    A vector of CPUs is written as a list of ranges, a new one wherever the next element is not the
    successor of the last. Nothing is sorted and nothing merged that is not side by side, so the list reads
    back as the vector, in its order and with its repetitions.

        8 0 1 2 5 6 5 ──▶ 8,0-2,5-6,5 ──▶ 8 0 1 2 5 6 5 -/

namespace OeAware
open Schemes

namespace ClusterAffinity

/-! ### Reading -/

theorem toNumber_toStr {n : ℕ} (h : n < 2 ^ 31) : toNumber (toStr n) = .ok (n : ℤ) := by
  rw [toNumber, stoi_toStr h]

/-- A dash ends the first number of a range. -/
theorem split_dash (a b : ℕ) : (toStr a ++ 45 :: toStr b).takeWhile (· ≠ 45) = toStr a ∧
    ((toStr a ++ 45 :: toStr b).dropWhile (· ≠ 45)).drop 1 = toStr b := by
  have hne : ∀ c ∈ toStr a, decide (c ≠ 45) = true := by
    intro c hc
    rw [decide_eq_true_eq]
    rintro rfl
    exact not_mem_toStr (by decide) a hc
  rw [List.takeWhile_append_of_pos hne, List.dropWhile_append_of_pos hne]
  simp

theorem parseRange_show {r : ℕ × ℕ} (h : r.1 ≤ r.2 ∧ r.2 < 2 ^ 31 - 1) :
    parseRange (showRange r) = .ok (expandRange r) := by
  obtain ⟨a, b⟩ := r
  dsimp only at h
  unfold showRange expandRange
  by_cases hab : a = b
  · subst hab
    have h45 : 45 ∉ toStr a := not_mem_toStr (by decide) a
    rw [if_pos rfl, parseRange, if_neg h45, toNumber_toStr (by omega)]
    simp [bind, Except.bind, pure, Except.pure]
  · obtain ⟨htake, hdrop⟩ := split_dash a b
    have hlast : (b : ℤ) ≠ 2 ^ 31 - 1 := by omega
    have hlen : ((b : ℤ) + 1 - a).toNat = b + 1 - a := by omega
    rw [if_neg hab, parseRange, if_pos (by simp), htake, hdrop, toNumber_toStr (by omega),
      toNumber_toStr (by omega)]
    simp only [bind, Except.bind, if_neg hlast, hlen, Int.toNat_natCast]
    rfl

theorem mapM_parseRange : ∀ {rs : List (ℕ × ℕ)}, (∀ r ∈ rs, r.1 ≤ r.2 ∧ r.2 < 2 ^ 31 - 1) →
    (rs.map showRange).mapM parseRange = .ok (rs.map expandRange)
  | [], _ => rfl
  | r :: rs, h => by
    obtain ⟨hr, hrs⟩ := List.forall_mem_cons.mp h
    rw [List.map_cons, List.mapM_cons, parseRange_show hr, mapM_parseRange hrs]
    rfl

/-- A list in the kernel's format is read as what it lists. -/
theorem transformStrToVec_of_lists {s : Str} {v : List ℕ} (h : Lists s v) :
    transformStrToVec s = .ok v := by
  obtain ⟨rs, hrs, rfl, rfl⟩ := h
  unfold transformStrToVec
  cases rs with
  | nil => rfl
  | cons r rs =>
    have hlast : ((r :: rs).map showRange).getLast? ≠ some [] := by
      intro h
      obtain ⟨x, -, hx⟩ := List.mem_map.mp (List.mem_of_getLast? h)
      exact showRange_ne_nil x hx
    rw [splitOn_showRanges (List.cons_ne_nil r rs)]
    dsimp only
    rw [if_neg hlast, mapM_parseRange hrs]
    rfl

/-! ### Writing -/

/-- `result << start << "-" << end`, or `start` alone. -/
def showInts (r : ℤ × ℤ) : Str := if r.1 = r.2 then showInt r.1 else showInt r.1 ++ 45 :: showInt r.2

/-- The loop of `ConvertCpusetToString`, where it has come from `start` to `stop` without a gap. -/
def convertLoop (start stop : ℤ) : List ℤ → Str
  | [] => showInts (start, stop)
  | n :: nums =>
    if n = stop + 1 then convertLoop start n nums
    else showInts (start, stop) ++ 44 :: convertLoop n n nums

/-- `ConvertCpusetToString`. -/
def convertCpusetToString : List ℤ → Str
  | [] => []
  | n :: nums => convertLoop n n nums

/-- The ranges that are written. -/
def ranges (start stop : ℤ) : List ℤ → List (ℤ × ℤ)
  | [] => [(start, stop)]
  | n :: nums => if n = stop + 1 then ranges start n nums else (start, stop) :: ranges n n nums

theorem ranges_ne_nil : ∀ (start stop : ℤ) (nums : List ℤ), ranges start stop nums ≠ []
  | _, _, [] => List.cons_ne_nil _ _
  | start, stop, n :: nums => by
    rw [ranges]
    split
    · exact ranges_ne_nil start n nums
    · exact List.cons_ne_nil _ _

theorem convertLoop_eq : ∀ (start stop : ℤ) (nums : List ℤ),
    convertLoop start stop nums = [44].intercalate ((ranges start stop nums).map showInts)
  | _, _, [] => by simp [convertLoop, ranges]
  | start, stop, n :: nums => by
    rw [convertLoop, ranges]
    split
    · exact convertLoop_eq start n nums
    · obtain ⟨r, rs, hr⟩ := List.exists_cons_of_ne_nil (ranges_ne_nil n n nums)
      rw [convertLoop_eq n n nums, hr, List.map_cons, List.map_cons, List.map_cons,
        List.intercalate_cons_cons, List.append_assoc]
      rfl

/-- What the ranges hold is what was written. -/
theorem expand_ranges : ∀ {start stop : ℕ} {nums : List ℕ}, start ≤ stop →
    ((ranges start stop (nums.map Int.ofNat)).map
      (fun r => expandRange (r.1.toNat, r.2.toNat))).flatten = expandRange (start, stop) ++ nums
  | start, stop, [], _ => by simp [ranges]
  | start, stop, n :: nums, h => by
    rw [List.map_cons, ranges]
    split
    · rename_i hn
      have hn : n = stop + 1 := by simpa using Int.ofNat.inj hn
      rw [show (Int.ofNat n : ℤ) = ((n : ℕ) : ℤ) from rfl, expand_ranges (by omega), hn, expandRange,
        expandRange]
      have hlen : stop + 1 + 1 - start = stop + 1 - start + 1 := by omega
      have hnext : start + (stop + 1 - start) = stop + 1 := by omega
      dsimp only
      rw [hlen, List.range'_concat, Nat.one_mul, hnext, List.append_assoc]
      rfl
    · rw [List.map_cons, List.flatten_cons, show (Int.ofNat n : ℤ) = ((n : ℕ) : ℤ) from rfl,
        expand_ranges (Nat.le_refl n)]
      simp [expandRange]

/-- They are ranges of the kernel's format where the numbers are. -/
theorem mem_ranges : ∀ {start stop : ℤ} {nums : List ℤ} {r : ℤ × ℤ}, r ∈ ranges start stop nums →
    0 ≤ start → start ≤ stop → stop < 2 ^ 31 - 1 → (∀ n ∈ nums, 0 ≤ n ∧ n < 2 ^ 31 - 1) →
    0 ≤ r.1 ∧ r.1 ≤ r.2 ∧ r.2 < 2 ^ 31 - 1
  | start, stop, [], r, hr, h0, hle, hlt, _ => by
    cases List.mem_singleton.mp hr
    exact ⟨h0, hle, hlt⟩
  | start, stop, n :: nums, r, hr, h0, hle, hlt, hall => by
    obtain ⟨hn, hnums⟩ := List.forall_mem_cons.mp hall
    rw [ranges] at hr
    split at hr
    · exact mem_ranges hr h0 (by omega) hn.2 hnums
    · rcases List.mem_cons.mp hr with rfl | hr
      · exact ⟨h0, hle, hlt⟩
      · exact mem_ranges hr hn.1 (le_refl n) hn.2 hnums

theorem showInts_eq {r : ℤ × ℤ} (h : 0 ≤ r.1 ∧ r.1 ≤ r.2) :
    showInts r = showRange (r.1.toNat, r.2.toNat) := by
  obtain ⟨a, b⟩ := r
  obtain ⟨a, rfl⟩ := Int.eq_ofNat_of_zero_le h.1
  obtain ⟨b, rfl⟩ := Int.eq_ofNat_of_zero_le (h.1.trans h.2)
  have hshow : ∀ n : ℕ, showInt n = toStr n := fun n => if_neg (by omega)
  simp only [showInts, showRange, hshow, Int.toNat_natCast, Nat.cast_inj]

/-- A vector of CPUs is written in the kernel's format. -/
theorem lists_convert {v : List ℕ} (h : ∀ x ∈ v, x < 2 ^ 31 - 1) :
    Lists (convertCpusetToString (v.map Int.ofNat)) v := by
  cases v with
  | nil => exact ⟨[], by simp, rfl, rfl⟩
  | cons n nums =>
    obtain ⟨hn, hnums⟩ := List.forall_mem_cons.mp h
    have hall : ∀ r ∈ ranges n n (nums.map Int.ofNat), 0 ≤ r.1 ∧ r.1 ≤ r.2 ∧ r.2 < 2 ^ 31 - 1 := by
      intro r hr
      refine mem_ranges hr (Int.natCast_nonneg n) (le_refl _) (by omega) (fun m hm => ?_)
      obtain ⟨x, hx, rfl⟩ := List.mem_map.mp hm
      have := hnums x hx
      exact ⟨Int.natCast_nonneg x, by simp only [Int.ofNat_eq_natCast]; omega⟩
    refine ⟨(ranges n n (nums.map Int.ofNat)).map (fun r => (r.1.toNat, r.2.toNat)), ?_, ?_, ?_⟩
    · intro x hx
      obtain ⟨r, hr, rfl⟩ := List.mem_map.mp hx
      have := hall r hr
      dsimp only
      omega
    · rw [List.map_cons, convertCpusetToString, show (Int.ofNat n : ℤ) = ((n : ℕ) : ℤ) from rfl,
        convertLoop_eq, List.map_map]
      congr 1
      exact List.map_congr_left (fun r hr => showInts_eq ⟨(hall r hr).1, (hall r hr).2.1⟩)
    · rw [List.map_map]
      have := (@expand_ranges n n nums (Nat.le_refl n)).symm
      simpa [Function.comp_def, expandRange] using this

/-- ROUND TRIP of a vector of CPUs, in any order and with any runs. -/
theorem transformStrToVec_convert {v : List ℕ} (h : ∀ x ∈ v, x < 2 ^ 31 - 1) :
    transformStrToVec (convertCpusetToString (v.map Int.ofNat)) = .ok v :=
  transformStrToVec_of_lists (lists_convert h)

end ClusterAffinity
end OeAware

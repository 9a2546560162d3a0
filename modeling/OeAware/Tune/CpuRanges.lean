import Mathlib.Data.Int.Order.Basic
import OeAware.Tune.RealtimeSwitches

/-! @src src/plugin/tune/system/realtime/realtime_tune.cpp, src/common/utils.cpp | name:ValidateCpuRange,
    ValidateCpuToken, ParseRange, GetNotRangeCpus

    The validator and the parser cut the same string at its commas, and each reads the items in its own way: the
    one trims blanks and wants digits, the other leaves both to `stoi`. What is valid is a list of items, and the
    parser reads of each what it says. The CPUs that are left are written as such a list again.

        " 1-3, 5"  ──▶  " 1-3" │ " 5"  ──▶  1 2 3 5        0 4 6 7  ──▶  (0,0) (4,4) (6,7)  ──▶  "0,4,6-7" -/

namespace OeAware
open Schemes

namespace RealTimeTune

/-! ### Numbers -/

def Blanks (s : Str) : Prop := ∀ c ∈ s, c = 32 ∨ c = 9

def Digits (s : Str) : Prop := s ≠ [] ∧ ∀ c ∈ s, isDigit c = true

/-- What the digits say. -/
def number (digits : Str) : ℤ := digits.foldl (fun n c => 10 * n + (c.toNat - 48)) 0

section
variable {pre post ds a b token : Str} {maxCpuId : ℤ}

theorem isDigit_iff {c : UInt8} : isDigit c = true ↔ 48 ≤ c ∧ c ≤ 57 := by
  rw [isDigit, Bool.and_eq_true, decide_eq_true_eq, decide_eq_true_eq]

theorem isDigit_eq : (fun c : UInt8 => decide (48 ≤ c ∧ c ≤ 57)) = isDigit := by
  funext c
  rw [isDigit, Bool.decide_and]

theorem Digits.ne {d : UInt8} (h : Digits ds) (hd : isDigit d = false) : d ∉ ds := by
  intro hmem
  rw [h.2 d hmem] at hd
  cases hd

theorem Blanks.ne {d : UInt8} (h : Blanks ds) (h32 : d ≠ 32) (h9 : d ≠ 9) : d ∉ ds := by
  intro hmem
  rcases h d hmem with rfl | rfl
  · exact h32 rfl
  · exact h9 rfl

theorem Blanks.not_digit {c : UInt8} (h : Blanks ds) (hc : c ∈ ds) : isDigit c = false := by
  rcases h c hc with rfl | rfl <;> rfl

theorem number_nonneg_from : ∀ {ds : Str} {n : ℤ}, (∀ c ∈ ds, isDigit c = true) → 0 ≤ n →
    0 ≤ ds.foldl (fun n c => 10 * n + ((c.toNat : ℤ) - 48)) n
  | [], _, _, hn => hn
  | c :: ds, n, h, hn => by
    obtain ⟨hc, hds⟩ := List.forall_mem_cons.mp h
    have h48 : 48 ≤ c.toNat := UInt8.le_iff_toNat_le.mp (isDigit_iff.mp hc).1
    rw [List.foldl_cons]
    exact number_nonneg_from hds (by omega)

theorem number_nonneg (h : Digits ds) : 0 ≤ number ds := number_nonneg_from h.2 le_rfl

/-- Behind blanks and up to what is no digit `stoi` reads a number. -/
theorem stoi_eq (hpre : Blanks pre) (hds : Digits ds) (hpost : ∀ c ∈ post.head?, isDigit c = false) :
    stoi (pre ++ (ds ++ post)) = if 2 ^ 31 ≤ number ds then none else some (number ds) := by
  obtain ⟨c, l, rfl⟩ := List.exists_cons_of_ne_nil hds.1
  obtain ⟨h48, -⟩ := isDigit_iff.mp (hds.2 c List.mem_cons_self)
  have h48 : 48 ≤ c.toNat := UInt8.le_iff_toNat_le.mp h48
  have hne : ∀ d : UInt8, d.toNat < 48 → c ≠ d := by
    rintro d hd rfl
    omega
  have hskip : (pre ++ (c :: l ++ post)).dropWhile (fun c => c = 32 ∨ (9 ≤ c ∧ c ≤ 13)) = c :: (l ++ post) := by
    rw [List.dropWhile_append_of_pos, List.cons_append, List.dropWhile_cons_of_neg]
    · have h13 : ¬ c ≤ 13 := fun h13 => by
        have h13 : c.toNat ≤ 13 := UInt8.le_iff_toNat_le.mp h13
        omega
      simp [hne 32 (by decide), h13]
    · intro d hd
      rcases hpre d hd with rfl | rfl <;> decide
  have hdigits : (c :: (l ++ post)).takeWhile (fun c => 48 ≤ c ∧ c ≤ 57) = c :: l := by
    have hstop : post.takeWhile isDigit = [] := by
      cases post with
      | nil => rfl
      | cons d post => rw [List.takeWhile_cons, hpost d rfl, if_neg Bool.false_ne_true]
    rw [isDigit_eq, ← List.cons_append, List.takeWhile_append_of_pos hds.2, hstop, List.append_nil]
  have hpos := number_nonneg hds
  unfold stoi
  simp only [hskip]
  split
  · rename_i heq
    exact absurd (List.cons.inj heq).1 (hne 45 (by decide))
  · rename_i heq
    exact absurd (List.cons.inj heq).1 (hne 43 (by decide))
  · rw [hdigits, if_neg Bool.false_ne_true]
    change (if c :: l = [] ∨ number (c :: l) < -2 ^ 31 ∨ 2 ^ 31 ≤ number (c :: l) then none
      else some (number (c :: l))) = _
    have hlow : ¬number (c :: l) < -2 ^ 31 := by omega
    simp only [reduceCtorEq, false_or, hlow]

theorem stoi_number (hpre : Blanks pre) (hds : Digits ds) (hpost : ∀ c ∈ post.head?, isDigit c = false)
    (hlt : number ds < 2 ^ 31) : stoi (pre ++ (ds ++ post)) = some (number ds) := by
  rw [stoi_eq hpre hds hpost, if_neg (not_le.mpr hlt)]

/-- So for the validator, which has removed the blanks. -/
theorem stoi_pure (hds : Digits ds) : stoi ds = if 2 ^ 31 ≤ number ds then none else some (number ds) := by
  have hnone : Blanks [] := fun _ hc => by cases hc
  have hhead : ∀ c ∈ ([] : Str).head?, isDigit c = false := fun _ hc => by cases hc
  have h := stoi_eq hnone hds hhead
  rwa [List.nil_append, List.append_nil] at h

theorem Blanks.head (h : Blanks post) : ∀ c ∈ post.head?, isDigit c = false :=
  fun _ hc => h.not_digit (List.mem_of_head? hc)

/-! ### Items -/

/-- A number, or two with a dash between them, the first not larger; with blanks around it. And what it lists. -/
inductive Item (maxCpuId : ℤ) : Str → List ℤ → Prop
  | one {pre ds post : Str} : Blanks pre → Digits ds → Blanks post → number ds ≤ maxCpuId →
      Item maxCpuId (pre ++ (ds ++ post)) [number ds]
  | range {pre a b post : Str} : Blanks pre → Digits a → Digits b → Blanks post → number a ≤ number b →
      number b ≤ maxCpuId → Item maxCpuId (pre ++ (a ++ 45 :: (b ++ post))) (fromTo (number a) (number b))

theorem fromTo_eq (start stop : ℤ) :
    fromTo start stop = (List.range (stop + 1 - start).toNat).map (fun i : ℕ => start + (i : ℤ)) := by
  rw [fromTo, List.bind_eq_flatMap, List.map_flatMap, List.map_eq_flatMap]
  rfl

theorem mem_fromTo {start stop c : ℤ} : c ∈ fromTo start stop ↔ start ≤ c ∧ c ≤ stop := by
  rw [fromTo_eq, List.mem_map]
  constructor
  · rintro ⟨i, hi, rfl⟩
    have hi := List.mem_range.mp hi
    omega
  · rintro ⟨h1, h2⟩
    exact ⟨(c - start).toNat, List.mem_range.mpr (by omega), by omega⟩

namespace Item
variable {l : List ℤ}

/-- It lists something, and only CPUs there are. -/
theorem bounds (h : Item maxCpuId token l) : l ≠ [] ∧ ∀ c ∈ l, 0 ≤ c ∧ c ≤ maxCpuId := by
  cases h with
  | one hpre hds hpost hmax =>
    refine ⟨List.cons_ne_nil _ _, fun c hc => ?_⟩
    rw [List.mem_singleton.mp hc]
    exact ⟨number_nonneg hds, hmax⟩
  | range hpre ha hb hpost hle hmax =>
    refine ⟨List.ne_nil_of_mem (mem_fromTo.mpr ⟨le_rfl, hle⟩), fun c hc => ?_⟩
    obtain ⟨h1, h2⟩ := mem_fromTo.mp hc
    exact ⟨(number_nonneg ha).trans h1, h2.trans hmax⟩

theorem not_comma (h : Item maxCpuId token l) : 44 ∉ token := by
  cases h with
  | one hpre hds hpost hmax =>
    simp [hpre.ne (d := 44) (by decide) (by decide), hpost.ne (d := 44) (by decide) (by decide), hds.ne (d := 44) rfl]
  | range hpre ha hb hpost hle hmax =>
    simp [hpre.ne (d := 44) (by decide) (by decide), hpost.ne (d := 44) (by decide) (by decide), ha.ne (d := 44) rfl,
      hb.ne (d := 44) rfl]

theorem ne_nil (h : Item maxCpuId token l) : token ≠ [] := by
  cases h with
  | one hpre hds hpost hmax => simp [hds.1]
  | range hpre ha hb hpost hle hmax => simp

theorem rangeChar (h : Item maxCpuId token l) : ∀ c ∈ token, rangeChar c = true := by
  have hblank : ∀ {s}, Blanks s → ∀ c ∈ s, RealTimeTune.rangeChar c = true := by
    intro s hs c hc
    rcases hs c hc with rfl | rfl <;> decide
  have hdigit : ∀ {s}, Digits s → ∀ c ∈ s, RealTimeTune.rangeChar c = true := by
    intro s hs c hc
    simp [RealTimeTune.rangeChar, hs.2 c hc]
  intro c hc
  cases h with
  | one hpre hds hpost hmax =>
    simp only [List.mem_append] at hc
    rcases hc with hc | hc | hc
    · exact hblank hpre c hc
    · exact hdigit hds c hc
    · exact hblank hpost c hc
  | range hpre ha hb hpost hle hmax =>
    simp only [List.mem_append, List.mem_cons] at hc
    rcases hc with hc | hc | rfl | hc | hc
    · exact hblank hpre c hc
    · exact hdigit ha c hc
    · decide
    · exact hdigit hb c hc
    · exact hblank hpost c hc

end Item

/-- What is before the first dash, and what is behind it. -/
theorem cut_dash (h : 45 ∉ a) : (a ++ 45 :: b).takeWhile (· ≠ 45) = a ∧
    ((a ++ 45 :: b).dropWhile (· ≠ 45)).drop 1 = b := by
  have hne : ∀ c ∈ a, decide (c ≠ 45) = true := by
    intro c hc
    rw [decide_eq_true_eq]
    rintro rfl
    exact h hc
  rw [List.takeWhile_append_of_pos hne, List.dropWhile_append_of_pos hne]
  simp

/-- The parser reads what an item lists. -/
theorem parseToken_item {l : List ℤ} (hmax : maxCpuId < 2 ^ 31 - 1) (h : Item maxCpuId token l) :
    parseToken token = some l := by
  cases h with
  | @one pre ds post hpre hds hpost hle =>
    have h45 : 45 ∉ pre ++ (ds ++ post) := by
      simp [hpre.ne (d := 45) (by decide) (by decide), hpost.ne (d := 45) (by decide) (by decide),
        hds.ne (d := 45) rfl]
    rw [parseToken, if_neg h45, stoi_number hpre hds hpost.head (by omega)]
    rfl
  | @range pre a b post hpre ha hb hpost hle hlast =>
    have h45 : 45 ∉ pre ++ a := by
      simp [hpre.ne (d := 45) (by decide) (by decide), ha.ne (d := 45) rfl]
    have hstart : stoi (pre ++ a) = some (number a) := by
      have hhead : ∀ c ∈ ([] : Str).head?, isDigit c = false := fun _ hc => by cases hc
      have h := stoi_number hpre ha hhead (by omega)
      rwa [List.append_nil] at h
    have hstop : stoi ([] ++ (b ++ post)) = some (number b) :=
      stoi_number (fun _ hc => by cases hc) hb hpost.head (by omega)
    rw [List.nil_append] at hstop
    obtain ⟨htake, hdrop⟩ := cut_dash (b := b ++ post) h45
    rw [← List.append_assoc pre a, parseToken, if_pos (by simp), htake, hdrop, hstart, hstop]
    rfl

/-! ### The validator -/

/-- What the two `erase` calls remove. -/
theorem trim_split (token : Str) : ∃ pre post, Blanks pre ∧ Blanks post ∧ token = pre ++ (trim token ++ post) := by
  refine ⟨token.takeWhile (fun c => c = 32 ∨ c = 9),
    (token.dropWhile (fun c => c = 32 ∨ c = 9)).rtakeWhile (fun c => c = 32 ∨ c = 9), ?_, ?_, ?_⟩
  · intro c hc
    simpa using List.mem_takeWhile_imp hc
  · intro c hc
    simpa using List.mem_rtakeWhile_imp hc
  · rw [trim, List.rdropWhile_append_rtakeWhile, List.takeWhile_append_dropWhile]

theorem trim_eq {w : Str} (hpre : Blanks pre) (hpost : Blanks post) (hhead : ∀ c ∈ w.head?, isDigit c = true)
    (hlast : ∀ c ∈ w.getLast?, isDigit c = true) (hne : w ≠ []) : trim (pre ++ (w ++ post)) = w := by
  have hblank : ∀ {s}, Blanks s → ∀ c ∈ s, decide (c = 32 ∨ c = 9) = true := fun hs c hc => by simpa using hs c hc
  have hdigit : ∀ {c}, isDigit c = true → ¬decide (c = 32 ∨ c = 9) = true := by
    intro c hc h
    rcases of_decide_eq_true h with rfl | rfl <;> cases hc
  have hfront : (w ++ post).dropWhile (fun c => c = 32 ∨ c = 9) = w ++ post := by
    obtain ⟨c, l, rfl⟩ := List.exists_cons_of_ne_nil hne
    exact List.dropWhile_cons_of_neg (hdigit (hhead c rfl))
  rw [trim, List.dropWhile_append_of_pos (hblank hpre), hfront, List.rdropWhile, List.reverse_append,
    List.dropWhile_append_of_pos fun c hc => hblank hpost c (List.mem_reverse.mp hc)]
  refine (List.rdropWhile_eq_self_iff (p := fun c => decide (c = 32 ∨ c = 9)) (l := w)).mpr fun hl => ?_
  exact hdigit (hlast _ (List.getLast?_eq_some_getLast hl))

/-- What passes the validator is an item. -/
theorem item_of_validate (hne : trim token ≠ []) (h : validateCpuToken maxCpuId (trim token) = true) :
    ∃ l, Item maxCpuId token l := by
  obtain ⟨pre, post, hpre, hpost, htoken⟩ := trim_split token
  generalize trim token = w at hne h htoken
  subst htoken
  unfold validateCpuToken at h
  split at h
  · rename_i hdash
    have hcut : w = w.takeWhile (· ≠ 45) ++ 45 :: (w.dropWhile (· ≠ 45)).drop 1 := by
      obtain ⟨a, b, rfl, ha⟩ := List.eq_append_cons_of_mem hdash
      obtain ⟨htake, hdrop⟩ := cut_dash (b := b) ha
      rw [htake, hdrop]
    dsimp only at h
    generalize w.takeWhile (· ≠ 45) = a at h hcut
    generalize (w.dropWhile (· ≠ 45)).drop 1 = b at h hcut
    subst hcut
    simp only [Bool.and_eq_true, decide_eq_true_eq, List.all_eq_true] at h
    obtain ⟨⟨⟨⟨hane, hbne⟩, ha⟩, hb⟩, h⟩ := h
    have hda : Digits a := ⟨hane, ha⟩
    have hdb : Digits b := ⟨hbne, hb⟩
    rw [stoi_pure hda, stoi_pure hdb] at h
    split at h
    · rename_i hstart hstop
      split at hstart
      · cases hstart
      · split at hstop
        · cases hstop
        · cases hstart
          cases hstop
          obtain ⟨-, hmax, hle⟩ := of_decide_eq_true h
          rw [List.append_assoc, List.cons_append]
          exact ⟨_, .range hpre hda hdb hpost hle hmax⟩
    · cases h
  · rw [Bool.and_eq_true, List.all_eq_true] at h
    obtain ⟨hall, h⟩ := h
    have hds : Digits w := ⟨hne, hall⟩
    rw [stoi_pure hds] at h
    split at h
    · cases h
    · obtain ⟨-, hmax⟩ := of_decide_eq_true h
      exact ⟨_, .one hpre hds hpost hmax⟩

/-- And every item passes. -/
theorem validate_item {l : List ℤ} (hmax : maxCpuId < 2 ^ 31 - 1) (h : Item maxCpuId token l) :
    trim token ≠ [] ∧ validateCpuToken maxCpuId (trim token) = true := by
  have hstoi : ∀ {ds}, Digits ds → number ds ≤ maxCpuId → stoi ds = some (number ds) := by
    intro ds hds hle
    rw [stoi_pure hds, if_neg (by omega)]
  cases h with
  | @one pre ds post hpre hds hpost hle =>
    rw [trim_eq hpre hpost (fun c hc => hds.2 c (List.mem_of_head? hc))
      (fun c hc => hds.2 c (List.mem_of_getLast? hc)) hds.1]
    refine ⟨hds.1, ?_⟩
    rw [validateCpuToken, if_neg (hds.ne rfl), hstoi hds hle, Bool.and_eq_true, List.all_eq_true]
    exact ⟨hds.2, decide_eq_true ⟨number_nonneg hds, hle⟩⟩
  | @range pre a b post hpre ha hb hpost hle hlast =>
    have hne : a ++ 45 :: b ≠ [] := by simp
    have htrim : trim (pre ++ (a ++ 45 :: (b ++ post))) = a ++ 45 :: b := by
      rw [← List.cons_append, ← List.append_assoc a]
      refine trim_eq hpre hpost (fun c hc => ?_) (fun c hc => ?_) hne
      · rw [List.head?_append_of_ne_nil _ ha.1] at hc
        exact ha.2 c (List.mem_of_head? hc)
      · rw [List.getLast?_append_of_ne_nil _ (List.cons_ne_nil 45 b), List.getLast?_cons_of_ne_nil hb.1] at hc
        exact hb.2 c (List.mem_of_getLast? hc)
    obtain ⟨htake, hdrop⟩ := cut_dash (b := b) (ha.ne (d := 45) rfl)
    rw [htrim]
    refine ⟨hne, ?_⟩
    rw [validateCpuToken, if_pos (by simp)]
    dsimp only
    rw [htake, hdrop, hstoi ha (hle.trans hlast), hstoi hb hlast]
    simp only [Bool.and_eq_true, decide_eq_true_eq, List.all_eq_true]
    exact ⟨⟨⟨⟨ha.1, hb.1⟩, ha.2⟩, hb.2⟩, number_nonneg ha, hlast, hle⟩

/-! ### Lists of items -/

theorem mapM_items (hmax : maxCpuId < 2 ^ 31 - 1) : ∀ {tokens : List Str} {ls : List (List ℤ)},
    List.Forall₂ (Item maxCpuId) tokens ls → tokens.mapM parseToken = some ls
  | _, _, .nil => rfl
  | _, _, .cons h hs => by
    rw [List.mapM_cons, parseToken_item hmax h, mapM_items hmax hs]
    rfl

theorem items_forall₂ : ∀ {tokens : List Str}, (∀ token ∈ tokens, ∃ l, Item maxCpuId token l) →
    ∃ ls, List.Forall₂ (Item maxCpuId) tokens ls
  | [], _ => ⟨[], .nil⟩
  | _ :: _, h => by
    obtain ⟨⟨l, hl⟩, hrest⟩ := List.forall_mem_cons.mp h
    obtain ⟨ls, hls⟩ := items_forall₂ hrest
    exact ⟨l :: ls, .cons hl hls⟩

/-- All that is listed are CPUs there are. -/
theorem bounds_items : ∀ {tokens : List Str} {ls : List (List ℤ)}, List.Forall₂ (Item maxCpuId) tokens ls →
    (tokens ≠ [] → ls.flatten ≠ []) ∧ ∀ c ∈ ls.flatten, 0 ≤ c ∧ c ≤ maxCpuId
  | _, _, .nil => ⟨fun h => absurd rfl h, fun _ hc => by cases hc⟩
  | _, _, .cons h hs => by
    obtain ⟨hne, hbounds⟩ := h.bounds
    refine ⟨fun _ hnil => hne (List.append_eq_nil_iff.mp hnil).1, fun c hc => ?_⟩
    rcases List.mem_append.mp hc with hc | hc
    · exact hbounds c hc
    · exact (bounds_items hs).2 c hc

theorem getlines_ne_nil {s : Str} (h : s ≠ []) : getlines 44 s ≠ [] := by
  intro hnil
  rw [getlines] at hnil
  have hjoin : [44].intercalate (s.splitOn 44) = s := List.intercalate_splitOn 44
  split at hnil
  · rename_i hlast
    obtain ⟨front, hfront⟩ := List.getLast?_eq_some_iff.mp hlast
    rw [hfront, List.dropLast_concat] at hnil
    rw [hfront, hnil] at hjoin
    exact h hjoin.symm
  · exact List.splitOn_ne_nil 44 s hnil

theorem getlines_intercalate {items : List Str} (hne : items ≠ []) (h : ∀ item ∈ items, 44 ∉ item ∧ item ≠ []) :
    getlines 44 ([44].intercalate items) = items := by
  rw [getlines]
  rw [List.splitOn_intercalate 44 (fun item hitem => (h item hitem).1) hne, if_neg]
  intro hlast
  exact (h [] (List.mem_of_getLast? hlast)).2 rfl

/-- What the validator accepts is cut into items. -/
theorem items_of_validate {s : Str} (h : validateCpuRange maxCpuId s = true) :
    s ≠ [] ∧ ∀ token ∈ getlines 44 s, ∃ l, Item maxCpuId token l := by
  rw [validateCpuRange, Bool.and_eq_true, Bool.and_eq_true, decide_eq_true_eq, List.all_eq_true,
    List.all_eq_true] at h
  obtain ⟨⟨⟨-, hne⟩, -⟩, htokens⟩ := h
  refine ⟨hne, fun token htoken => ?_⟩
  obtain ⟨htrim, hvalid⟩ := Bool.and_eq_true_iff.mp (htokens token htoken)
  exact item_of_validate (of_decide_eq_true htrim) hvalid

/-- WHAT IS VALID IS READ: the parser does not throw on a string that is accepted, untrimmed as it is, and finds some
    CPUs, all of which there are. And a list of items is accepted. No machine has `INT_MAX` CPUs. -/
theorem validateCpuRange_sound_complete (hmax : maxCpuId < 2 ^ 31 - 1) (s : Str) :
    (validateCpuRange maxCpuId s = true →
      ∃ cpus, parseRange s = some cpus ∧ cpus ≠ [] ∧ ∀ c ∈ cpus, 0 ≤ c ∧ c ≤ maxCpuId) ∧
    (s.length ≤ 256 →
      (∃ items, items ≠ [] ∧ (∀ item ∈ items, ∃ l, Item maxCpuId item l) ∧ s = [44].intercalate items) →
      validateCpuRange maxCpuId s = true) := by
  refine ⟨fun h => ?_, ?_⟩
  · obtain ⟨hne, hitems⟩ := items_of_validate h
    obtain ⟨ls, hls⟩ := items_forall₂ hitems
    obtain ⟨hflat, hbounds⟩ := bounds_items hls
    refine ⟨ls.flatten, ?_, hflat (getlines_ne_nil hne), hbounds⟩
    rw [parseRange, mapM_items hmax hls]
    rfl
  · rintro hlen ⟨items, hne, hitems, rfl⟩
    have hcut := getlines_intercalate hne fun item hitem => by
      obtain ⟨l, hl⟩ := hitems item hitem
      exact ⟨hl.not_comma, hl.ne_nil⟩
    have hsne : [44].intercalate items ≠ [] := by
      intro hnil
      rw [hnil] at hcut
      exact hne hcut.symm
    rw [validateCpuRange, hcut, Bool.and_eq_true, Bool.and_eq_true, decide_eq_true_eq, List.all_eq_true,
      List.all_eq_true]
    refine ⟨⟨⟨hlen, hsne⟩, fun c hc => ?_⟩, fun item hitem => ?_⟩
    · rcases mem_intercalate hc with rfl | ⟨item, hitem, hc⟩
      · decide
      · obtain ⟨l, hl⟩ := hitems item hitem
        exact hl.rangeChar c hc
    · obtain ⟨l, hl⟩ := hitems item hitem
      obtain ⟨htrim, hvalid⟩ := validate_item hmax hl
      rw [hvalid, decide_eq_true htrim]
      rfl

end

/-- On four CPUs, with a blank. -/
theorem validateCpuRange_sound_complete_four : validateCpuRange 3 (str "0-1, 3") = true ∧
    ∃ cpus, parseRange (str "0-1, 3") = some cpus ∧ cpus ≠ [] ∧ ∀ c ∈ cpus, 0 ≤ c ∧ c ≤ 3 := by
  have hvalid : validateCpuRange 3 (str "0-1, 3") = true := by decide +kernel
  exact ⟨hvalid, (validateCpuRange_sound_complete (by decide) _).1 hvalid⟩

/-! ### Runs -/

section
variable {start stop : ℕ} {ns : List ℕ} {p : ℕ × ℕ}

theorem expandRange_succ (h : start ≤ stop) : expandRange (start, stop + 1) = expandRange (start, stop) ++ [stop + 1] := by
  have hlen : stop + 1 + 1 - start = stop + 1 - start + 1 := by omega
  have hlast : start + 1 * (stop + 1 - start) = stop + 1 := by omega
  rw [expandRange, expandRange, hlen, List.range'_concat, hlast]

/-- The runs list what has been read, and the rest. -/
theorem flatten_runsFrom : ∀ {start stop : ℕ} {ns : List ℕ}, start ≤ stop →
    ((runsFrom start stop ns).map expandRange).flatten = expandRange (start, stop) ++ ns
  | start, stop, [], _ => by simp [runsFrom]
  | start, stop, n :: ns, h => by
    rw [runsFrom]
    split
    · rename_i hn
      subst hn
      rw [flatten_runsFrom (h.trans (Nat.le_succ stop)), expandRange_succ h, List.append_assoc]
      rfl
    · rw [List.map_cons, List.flatten_cons, flatten_runsFrom le_rfl]
      simp [expandRange]

theorem mem_runsFrom : ∀ {start stop : ℕ} {ns : List ℕ} {p : ℕ × ℕ}, start ≤ stop → p ∈ runsFrom start stop ns →
    p.1 ≤ p.2 ∧ (p.1 = start ∨ p.1 ∈ ns) ∧ (p.2 = stop ∨ p.2 ∈ ns)
  | start, stop, [], p, h, hp => by
    rw [List.mem_singleton.mp hp]
    exact ⟨h, .inl rfl, .inl rfl⟩
  | start, stop, n :: ns, p, h, hp => by
    rw [runsFrom] at hp
    split at hp
    · rename_i hn
      obtain ⟨hle, h1, h2⟩ := mem_runsFrom (by omega) hp
      refine ⟨hle, h1.imp_right (List.mem_cons_of_mem n), .inr ?_⟩
      rcases h2 with h2 | h2
      · exact h2 ▸ List.mem_cons_self
      · exact List.mem_cons_of_mem n h2
    · rcases List.mem_cons.mp hp with rfl | hp
      · exact ⟨h, .inl rfl, .inl rfl⟩
      · obtain ⟨hle, h1, h2⟩ := mem_runsFrom le_rfl hp
        refine ⟨hle, .inr ?_, .inr ?_⟩
        · rcases h1 with h1 | h1
          · exact h1 ▸ List.mem_cons_self
          · exact List.mem_cons_of_mem n h1
        · rcases h2 with h2 | h2
          · exact h2 ▸ List.mem_cons_self
          · exact List.mem_cons_of_mem n h2

/-- Between two runs there is a gap. -/
theorem pairwise_runsFrom : ∀ {start stop : ℕ} {ns : List ℕ}, (stop :: ns).Pairwise (· < ·) →
    (runsFrom start stop ns).Pairwise (fun p q => p.2 + 1 < q.1)
  | _, _, [], _ => List.pairwise_singleton _ _
  | start, stop, n :: ns, h => by
    obtain ⟨hstop, hns⟩ := List.pairwise_cons.mp h
    rw [runsFrom]
    split
    · exact pairwise_runsFrom hns
    · rename_i hn
      refine List.pairwise_cons.mpr ⟨fun q hq => ?_, pairwise_runsFrom hns⟩
      obtain ⟨-, hq, -⟩ := mem_runsFrom le_rfl hq
      have hnq : n ≤ q.1 := by
        rcases hq with hq | hq
        · exact hq.ge
        · exact ((List.pairwise_cons.mp hns).1 _ hq).le
      have hlt := hstop n List.mem_cons_self
      dsimp only
      omega

theorem flatten_runs : ((runs ns).map expandRange).flatten = ns := by
  cases ns with
  | nil => rfl
  | cons n ns =>
    rw [runs, flatten_runsFrom le_rfl]
    simp [expandRange]

theorem mem_runs (hp : p ∈ runs ns) : p.1 ≤ p.2 ∧ p.2 ∈ ns := by
  cases ns with
  | nil => cases hp
  | cons n ns =>
    obtain ⟨hle, -, h2⟩ := mem_runsFrom le_rfl hp
    exact ⟨hle, h2.elim (fun h => h ▸ List.mem_cons_self) (List.mem_cons_of_mem n)⟩

theorem pairwise_runs (h : ns.Pairwise (· < ·)) : (runs ns).Pairwise (fun p q => p.2 + 1 < q.1) := by
  cases ns with
  | nil => exact .nil
  | cons n ns => exact pairwise_runsFrom h

end

/-! ### What is left -/

section
variable {maxCpuId maxCpu : ℤ}

theorem digits_toStr (n : ℕ) : Digits (toStr n) :=
  ⟨toStr_ne_nil n, fun _ hc => isDigit_iff.mpr (mem_toStr hc)⟩

/-- A range that is written is an item. -/
theorem item_showRange {r : ℕ × ℕ} (hle : r.1 ≤ r.2) (hmax : (r.2 : ℤ) ≤ maxCpu) :
    Item maxCpu (showRange r) ((expandRange r).map Int.ofNat) := by
  obtain ⟨a, b⟩ := r
  have hnone : Blanks [] := fun _ hc => by cases hc
  have hnumber : ∀ n, number (toStr n) = n := foldl_digits_toStr
  dsimp only at hle hmax
  rw [showRange]
  split
  · rename_i hab
    dsimp only at hab
    subst hab
    have h := @Item.one maxCpu _ _ _ hnone (digits_toStr a) hnone (by rw [hnumber]; exact hmax)
    rw [List.nil_append, List.append_nil, hnumber] at h
    simpa [expandRange] using h
  · have h := @Item.range maxCpu _ _ _ _ hnone (digits_toStr a) (digits_toStr b) hnone
      (by rw [hnumber, hnumber]; exact_mod_cast hle) (by rw [hnumber]; exact hmax)
    rw [List.nil_append, List.append_nil, hnumber, hnumber] at h
    have hlist : fromTo (a : ℤ) b = (expandRange (a, b)).map Int.ofNat := by
      have hlen : ((b : ℤ) + 1 - a).toNat = b + 1 - a := by omega
      rw [fromTo_eq, expandRange, hlen, List.range'_eq_map_range, List.map_map]
      rfl
    rwa [hlist] at h

theorem mem_notInRange {cpus : List ℤ} {i : ℕ} : i ∈ notInRange cpus maxCpu ↔ (i : ℤ) ≤ maxCpu ∧ (i : ℤ) ∉ cpus := by
  rw [notInRange, List.mem_filter, List.mem_range, decide_eq_true_eq]
  refine and_congr_left fun _ => ?_
  omega

theorem pairwise_notInRange (cpus : List ℤ) : (notInRange cpus maxCpu).Pairwise (· < ·) :=
  List.pairwise_lt_range.filter _

/-- WHAT IS LEFT IS WRITTEN: the parser reads the string back as the CPUs up to `maxCpu` that the range does not
    list, each once and in order; between two of its runs one is missing; and where none is left it is empty. -/
theorem parseRange_getNotRangeCpus (hmaxId : maxCpuId < 2 ^ 31 - 1) (hmax : maxCpu < 2 ^ 31 - 1) {range : Str}
    (h : validateCpuRange maxCpuId range = true) :
    ∃ cpus s rest, parseRange range = some cpus ∧ getNotRangeCpus range maxCpu = some s ∧
      parseRange s = some rest ∧ rest.Pairwise (· < ·) ∧
      (∀ c, c ∈ rest ↔ (0 ≤ c ∧ c ≤ maxCpu) ∧ c ∉ cpus) ∧
      (∃ rs : List (ℕ × ℕ), s = [44].intercalate (rs.map showRange) ∧ (∀ r ∈ rs, r.1 ≤ r.2) ∧
        rs.Pairwise (fun p q => p.2 + 1 < q.1)) ∧
      (rest = [] → s = []) := by
  obtain ⟨cpus, hcpus, -, -⟩ := (validateCpuRange_sound_complete hmaxId range).1 h
  have hrs : ∀ r ∈ runs (notInRange cpus maxCpu), r.1 ≤ r.2 ∧ (r.2 : ℤ) ≤ maxCpu := by
    intro r hr
    obtain ⟨hle, hmem⟩ := mem_runs hr
    exact ⟨hle, (mem_notInRange.mp hmem).1⟩
  refine ⟨cpus, [44].intercalate ((runs (notInRange cpus maxCpu)).map showRange), (notInRange cpus maxCpu).map Int.ofNat,
    hcpus, by rw [getNotRangeCpus, hcpus]; rfl, ?_, ?_, fun c => ?_,
    ⟨_, rfl, fun r hr => (hrs r hr).1, pairwise_runs (pairwise_notInRange cpus)⟩, fun hnil => ?_⟩
  · have hitems : List.Forall₂ (Item maxCpu) ((runs (notInRange cpus maxCpu)).map showRange)
        ((runs (notInRange cpus maxCpu)).map (fun r => (expandRange r).map Int.ofNat)) := by
      rw [List.forall₂_map_left_iff, List.forall₂_map_right_iff, List.forall₂_same]
      exact fun r hr => item_showRange (hrs r hr).1 (hrs r hr).2
    have hcut : getlines 44 ([44].intercalate ((runs (notInRange cpus maxCpu)).map showRange)) =
        (runs (notInRange cpus maxCpu)).map showRange := by
      cases hruns : runs (notInRange cpus maxCpu) with
      | nil => rfl
      | cons r rs =>
        refine getlines_intercalate (by simp) fun item hitem => ?_
        obtain ⟨r, -, rfl⟩ := List.mem_map.mp hitem
        exact ⟨not_mem_showRange r, showRange_ne_nil r⟩
    have hflat := congrArg (List.map Int.ofNat) (@flatten_runs (notInRange cpus maxCpu))
    rw [List.map_flatten, List.map_map] at hflat
    rw [parseRange, hcut, mapM_items hmax hitems, ← hflat]
    rfl
  · exact List.pairwise_map.mpr ((pairwise_notInRange cpus).imp fun hlt => Int.ofNat_lt.mpr hlt)
  · rw [List.mem_map]
    constructor
    · rintro ⟨i, hi, rfl⟩
      obtain ⟨hle, hnot⟩ := mem_notInRange.mp hi
      exact ⟨⟨Int.natCast_nonneg i, hle⟩, hnot⟩
    · rintro ⟨⟨h0, hle⟩, hnot⟩
      obtain ⟨i, rfl⟩ := Int.eq_ofNat_of_zero_le h0
      exact ⟨i, mem_notInRange.mpr ⟨hle, hnot⟩, rfl⟩
  · rw [List.map_eq_nil_iff.mp hnil]
    rfl

end

/-- Of eight CPUs. -/
theorem parseRange_getNotRangeCpus_eight : ∃ s rest, getNotRangeCpus (str "1-3, 5") 7 = some s ∧
    parseRange s = some rest ∧ rest.Pairwise (· < ·) := by
  have hvalid : validateCpuRange 7 (str "1-3, 5") = true := by decide +kernel
  obtain ⟨cpus, s, rest, -, hs, hrest, hsorted, -⟩ := @parseRange_getNotRangeCpus 7 7 (by decide) (by decide) _ hvalid
  exact ⟨s, rest, hs, hrest, hsorted⟩

example : getNotRangeCpus (str "1-3, 5") 7 = some (str "0,4,6-7") := by decide +kernel

end RealTimeTune
end OeAware

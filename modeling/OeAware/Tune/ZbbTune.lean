import OeAware.Common.Serialize
import OeAware.Schemes.ByteMarks

/-! @src src/plugin/tune/hwprobe/ext/hwprobe_ext_zbb_tune/src/zbb_tune.c | name:strlen |
    scheme:byte-marks

    The `strlen` that is preloaded where the processor has `orc.b`. It reads whole aligned words, the first of which
    may begin before the string and the last of which may end after it.

        ──┬────────┬────────┬────────┬──
          │  str···│········│··0     │
          └─ word ─┴─ word ─┴─ word ─┘   found in the first word whose mask is not zero -/

namespace OeAware.ZbbTune
open Schemes

/-- What is at each address. -/
abbrev Bytes := ℕ → UInt8

abbrev op_t := BitVec 64

/-- `sizeof (op_t)`. -/
def opSize : ℕ := 8

def CHAR_BIT : ℕ := 8

/-- `PTR_ALIGN_DOWN(base, size)`, for a power of two. -/
def ptrAlignDown (base size : ℕ) : ℕ := base - base % size

/-- `*word_ptr`: the bytes of a word, the first the lowest. -/
def load (mem : Bytes) (word_ptr : ℕ) : op_t :=
  BitVec.ofNat 64 (leVal ((List.range opSize).map (fun i => mem (word_ptr + i))))

/-- What becomes of a byte in `orc.b`. -/
def orcByte (b : UInt8) : UInt8 := if b = 0 then 0 else 0xff

/-- The instruction `orc.b`. -/
def orcB (x : op_t) : op_t := BitVec.ofNat 64 (leVal ((leBytes opSize x.toNat).map orcByte))

/-- `find_zero_all`, which is also `find_zero_low`. -/
def findZeroAll (x : op_t) : op_t := ~~~orcB x

def shiftFind (word : op_t) (s : ℕ) : op_t := word >>> (CHAR_BIT * (s % opSize))

/-- `index_first`; `ctz` is asked for words other than zero only. -/
def indexFirst (c : op_t) : ℕ := c.ctz.toNat / CHAR_BIT

def hasZero (x : op_t) : Bool := findZeroAll x != 0#64

def indexFirstZero (x : op_t) : ℕ := indexFirst (findZeroAll x)

/-- The loop of `strlen`, with the words read so far; none if it is not left within so many rounds. -/
def strlenLoop (mem : Bytes) (str : ℕ) : ℕ → ℕ → List ℕ → Option (ℕ × List ℕ)
  | 0, _, _ => none
  | fuel + 1, word_ptr, reads =>
    let word_ptr := word_ptr + opSize
    let word := load mem word_ptr
    let reads := reads ++ [word_ptr]
    if hasZero word then some (word_ptr + indexFirstZero word - str, reads)
    else strlenLoop mem str fuel word_ptr reads

/-- `strlen`: the length, and the addresses of the words that have been read. -/
def strlen (fuel : ℕ) (mem : Bytes) (str : ℕ) : Option (ℕ × List ℕ) :=
  let word_ptr := ptrAlignDown str opSize
  let word := load mem word_ptr
  let mask := shiftFind (findZeroAll word) str
  if mask ≠ 0#64 then some (indexFirst mask, [word_ptr])
  else strlenLoop mem str fuel word_ptr [word_ptr]

/-! ### Words and their bytes -/

theorem leVal_lt : ∀ l : Str, leVal l < 256 ^ l.length
  | [] => by simp [leVal]
  | b :: l => by
    have hb := b.toNat_lt
    have ih := leVal_lt l
    rw [leVal, List.length_cons, Nat.pow_succ]
    omega

theorem leBytes_leVal : ∀ l : Str, leBytes l.length (leVal l) = l
  | [] => rfl
  | b :: l => by
    have hb := b.toNat_lt
    have hlow : (b.toNat + 256 * leVal l) % 256 = b.toNat := by omega
    have hhigh : (b.toNat + 256 * leVal l) / 256 = leVal l := by omega
    rw [List.length_cons, leBytes, leVal, hlow, hhigh, leBytes_leVal l, UInt8.ofNat_toNat]

/-- A bit of a number is a bit of one of its bytes. -/
theorem testBit_leVal : ∀ (l : Str) (i : ℕ),
    (leVal l).testBit i = (l.getD (i / 8) 0).toNat.testBit (i % 8)
  | [], i => by simp [leVal]
  | b :: l, i => by
    have hval : leVal (b :: l) = 2 ^ 8 * leVal l + b.toNat := by
      rw [leVal]
      omega
    rw [hval, Nat.testBit_two_pow_mul_add _ b.toNat_lt]
    split
    · rename_i hi
      rw [Nat.div_eq_of_lt hi, Nat.mod_eq_of_lt hi]
      rfl
    · rename_i hi
      have hdiv : i / 8 = (i - 8) / 8 + 1 := by omega
      have hmod : i % 8 = (i - 8) % 8 := by omega
      rw [testBit_leVal l, hdiv, hmod]
      rfl

theorem testBit_orcByte (b : UInt8) {i : ℕ} (hi : i < 8) :
    (orcByte b).toNat.testBit i = !decide (b = 0) := by
  rw [orcByte]
  split
  · rename_i hb
    simp [hb]
  · rename_i hb
    have hff : (0xff : UInt8).toNat = 2 ^ 8 - 1 := rfl
    rw [hff, Nat.testBit_two_pow_sub_one, decide_eq_true hi, decide_eq_false hb]
    rfl

/-- The mask of a word marks its bytes that are zero. -/
theorem marks_findZeroAll (mem : Bytes) (a : ℕ) :
    Marks (findZeroAll (load mem a)) (fun j => mem (a + j) = 0) := by
  intro i hi
  set bytes := (List.range opSize).map (fun i => mem (a + i)) with hbytes
  have hlen : bytes.length = opSize := by simp [hbytes]
  have hword : (load mem a).toNat = leVal bytes := by
    have := leVal_lt bytes
    rw [hlen] at this
    rw [load, BitVec.toNat_ofNat, ← hbytes]
    exact Nat.mod_eq_of_lt this
  have hget : bytes.getD (i / 8) 0 = mem (a + i / 8) := by
    have hlt : i / 8 < opSize := Nat.div_lt_of_lt_mul hi
    simp [hbytes, List.getD_eq_getElem?_getD, hlt]
  have hbit : (orcB (load mem a)).getLsbD i = !decide (mem (a + i / 8) = 0) := by
    have hmap : (bytes.map orcByte).getD (i / 8) 0 = orcByte (bytes.getD (i / 8) 0) := by
      rw [List.getD_eq_getElem?_getD, List.getD_eq_getElem?_getD, List.getElem?_map]
      cases bytes[i / 8]? <;> rfl
    rw [orcB, hword, ← hlen, leBytes_leVal, BitVec.getLsbD_ofNat, testBit_leVal, hmap, hget,
      testBit_orcByte _ (Nat.mod_lt i (by decide)), decide_eq_true hi, Bool.true_and]
  rw [findZeroAll, BitVec.getLsbD_not, hbit, decide_eq_true hi]
  simp

/-! ### The search -/

/-- The string at `str` ends after `n` bytes. -/
structure Ends (mem : Bytes) (str n : ℕ) : Prop where
  nul : mem (str + n) = 0
  before : ∀ m < n, mem (str + m) ≠ 0

/-- The `k`-th word from that in which the string begins. -/
def wordAt (str k : ℕ) : ℕ := opSize * (str / opSize + k)

/-- The words that the string touches after the first. -/
def lastWord (str n : ℕ) : ℕ := (str + n) / opSize - str / opSize

section
variable {mem : Bytes} {str n : ℕ}

theorem ptrAlignDown_eq (str : ℕ) : ptrAlignDown str opSize = wordAt str 0 := by
  rw [ptrAlignDown, wordAt, opSize]
  omega

/-- The first word that holds the end of the string, and where. -/
theorem Ends.indexFirstZero (h : Ends mem str n) (hpos : 0 < lastWord str n) :
    hasZero (load mem (wordAt str (lastWord str n))) = true ∧
      wordAt str (lastWord str n) + indexFirstZero (load mem (wordAt str (lastWord str n))) - str = n := by
  have hm := marks_findZeroAll mem (wordAt str (lastWord str n))
  have haddr : wordAt str (lastWord str n) + (str + n) % 8 = str + n := by
    simp only [lastWord, wordAt, opSize] at hpos ⊢
    omega
  have hne : findZeroAll (load mem (wordAt str (lastWord str n))) ≠ 0#64 := fun h0 => by
    refine hm.eq_zero h0 (i := (str + n) % 8) (by omega) ?_
    rw [haddr]
    exact h.nul
  obtain ⟨hzero, hfirst, hlt⟩ := hm.first hne
  refine ⟨by simpa [hasZero] using hne, ?_⟩
  rw [ZbbTune.indexFirstZero, indexFirst, CHAR_BIT]
  set j := (findZeroAll (load mem (wordAt str (lastWord str n)))).ctz.toNat / 8
  -- the word begins inside the string, so that a zero before would end it earlier
  have hstart : str ≤ wordAt str (lastWord str n) := by
    simp only [lastWord, wordAt, opSize] at hpos ⊢
    omega
  have hle : j ≤ (str + n) % 8 := by
    by_contra hgt
    refine hfirst _ (Nat.lt_of_not_le hgt) ?_
    rw [haddr]
    exact h.nul
  by_contra hj
  refine h.before (wordAt str (lastWord str n) + j - str) (by omega) ?_
  rw [Nat.add_sub_cancel' (by omega)]
  exact hzero

/-- The words between the first and the last have no zero byte. -/
theorem Ends.not_hasZero (h : Ends mem str n) {k : ℕ} (hk : 0 < k) (hlt : k < lastWord str n) :
    hasZero (load mem (wordAt str k)) = false := by
  have hm := marks_findZeroAll mem (wordAt str k)
  rw [hasZero, bne_eq_false_iff_eq]
  by_contra hne
  obtain ⟨hzero, -, hbit⟩ := hm.first hne
  set j := (findZeroAll (load mem (wordAt str k))).ctz.toNat / 8 with hj
  have hinside : str ≤ wordAt str k + j ∧ wordAt str k + j < str + n := by
    simp only [lastWord, wordAt, opSize] at hlt ⊢
    omega
  refine h.before (wordAt str k + j - str) (by omega) ?_
  rw [Nat.add_sub_cancel' hinside.1]
  exact hzero

/-- From any word before the last on the loop goes to the last, and finds the end there. -/
theorem Ends.strlenLoop (h : Ends mem str n) : ∀ {d k fuel : ℕ} {reads : List ℕ},
    lastWord str n = k + d + 1 → d < fuel →
    strlenLoop mem str fuel (wordAt str k) reads =
      some (n, reads ++ (List.range' (k + 1) (d + 1)).map (wordAt str))
  | _, _, 0, _, _, hf => absurd hf (Nat.not_lt_zero _)
  | 0, k, fuel + 1, reads, hk, _ => by
    have hnext : wordAt str k + opSize = wordAt str (k + 1) := rfl
    obtain ⟨hz, hn⟩ := h.indexFirstZero (by omega)
    rw [hk] at hz hn
    simp only [ZbbTune.strlenLoop, hnext]
    rw [if_pos hz, hn]
    rfl
  | d + 1, k, fuel + 1, reads, hk, hf => by
    have hnext : wordAt str k + opSize = wordAt str (k + 1) := rfl
    have hz := h.not_hasZero (Nat.succ_pos k) (by omega)
    simp only [ZbbTune.strlenLoop, hnext]
    rw [if_neg (by simp [hz]), h.strlenLoop (d := d) (by omega) (by omega)]
    simp [List.range'_succ]

/-- The first word is asked about the bytes of the string only. -/
theorem Ends.firstMask (h : Ends mem str n) :
    if lastWord str n = 0 then
      shiftFind (findZeroAll (load mem (wordAt str 0))) str ≠ 0#64 ∧
        indexFirst (shiftFind (findZeroAll (load mem (wordAt str 0))) str) = n
    else shiftFind (findZeroAll (load mem (wordAt str 0))) str = 0#64 := by
  have hm := (marks_findZeroAll mem (wordAt str 0)).shift (by decide) (str % opSize)
  have haddr : ∀ i, wordAt str 0 + (str % opSize + i) = str + i := fun i => by
    simp only [wordAt, opSize]
    omega
  simp only [haddr] at hm
  split
  · rename_i hlast
    have hin : 8 * (str % opSize + n) < 64 := by
      simp only [lastWord, opSize] at hlast ⊢
      omega
    have hne : shiftFind (findZeroAll (load mem (wordAt str 0))) str ≠ 0#64 := fun h0 =>
      hm.eq_zero h0 (by omega) ⟨hin, h.nul⟩
    obtain ⟨hzero, hfirst, -⟩ := hm.first hne
    refine ⟨hne, Nat.le_antisymm ?_ ?_⟩
    · by_contra hlt
      exact hfirst n (Nat.lt_of_not_le hlt) ⟨hin, h.nul⟩
    · by_contra hlt
      exact h.before _ (Nat.lt_of_not_le hlt) hzero.2
  · rename_i hlast
    by_contra hne
    obtain ⟨j, hin, hzero⟩ : ∃ j, 8 * (str % opSize + j) < 64 ∧ mem (str + j) = 0 :=
      ⟨_, (hm.first hne).1⟩
    refine h.before j ?_ hzero
    simp only [lastWord, opSize] at hlast hin
    omega

end

/-- THE LENGTH: for every string at every address `strlen` returns the number of bytes before the first zero, once
    it may take a round for each word, and it reads the words that hold bytes of the string and no others, so that
    it never reads past the page in which the string ends. -/
theorem strlen_eq {mem : Bytes} {str n fuel : ℕ} (h : Ends mem str n) (hfuel : n ≤ fuel) :
    ∃ reads, strlen fuel mem str = some (n, reads) ∧
      reads = (List.range (lastWord str n + 1)).map (wordAt str) ∧
      ∀ a ∈ reads, a % opSize = 0 ∧ ∃ m ≤ n, a ≤ str + m ∧ str + m < a + opSize := by
  have hlast : lastWord str n ≤ n := by
    rw [lastWord, opSize]
    omega
  refine ⟨_, ?_, rfl, fun a ha => ?_⟩
  · have hmask := h.firstMask
    simp only [strlen, ptrAlignDown_eq]
    cases hk : lastWord str n with
    | zero =>
      rw [if_pos hk] at hmask
      rw [if_pos hmask.1, hmask.2]
      rfl
    | succ k =>
      rw [if_neg (by omega)] at hmask
      rw [if_neg (not_not.mpr hmask), h.strlenLoop (d := k) (by omega) (by omega)]
      simp [List.range_eq_range', List.range'_succ]
  · obtain ⟨k, hk, rfl⟩ := List.mem_map.mp ha
    have hle : k ≤ lastWord str n := Nat.le_of_lt_succ (List.mem_range.mp hk)
    refine ⟨Nat.mul_mod_right _ _, ?_⟩
    -- the first word holds the first byte, and every later one begins inside the string
    rcases Nat.eq_zero_or_pos k with rfl | hpos
    · refine ⟨0, Nat.zero_le n, ?_⟩
      simp only [wordAt, opSize]
      omega
    · refine ⟨wordAt str k - str, ?_⟩
      simp only [lastWord, wordAt, opSize] at hle ⊢
      omega

/-- A string that begins inside a word and ends in the next but one. -/
theorem strlen_eq_next_but_one :
    ∃ reads, strlen 20 (fun a => if a = 22 then 0 else 97) 5 = some (17, reads) ∧
      reads = [0, 8, 16] := by
  have h : Ends (fun a => if a = 22 then 0 else 97) 5 17 :=
    ⟨rfl, fun m hm => by
      have hne : 5 + m ≠ 22 := by omega
      simp [hne]⟩
  obtain ⟨reads, hlen, hreads, -⟩ := strlen_eq h (show 17 ≤ 20 by decide)
  exact ⟨reads, hlen, hreads⟩

end OeAware.ZbbTune

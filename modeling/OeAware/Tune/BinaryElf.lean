import OeAware.Common.Decoding
import OeAware.Schemes.Container
import OeAware.Schemes.Loops

/-! @src src/plugin/tune/system/binary/binary_tune.cpp | name:ParseBinaryElf | scheme:parser

    The policy of an executable is the content of a section with one of two names. Its header says where the section
    headers are, one of these where the table of their names is, and each of them where in the table its name begins.

        header ──e_shoff──▶ section headers ──sh_name──▶ table
                                │ sh_offset                  … . G C C 4 O E … \0 …
                                ▼
                             4 bytes

    Nothing of this is checked against the file: the reads are, by their results. A name is compared byte for byte,
    and the comparison may leave the table. -/

namespace OeAware
open Schemes

namespace BinaryTune

/-! ### Reading -/

/-- What `ParseBinaryElf` finds outside. -/
structure Sys where
  malloc : UInt64 → Bool
  /-- Nothing of more than `PTRDIFF_MAX` bytes. -/
  malloc_lt : ∀ size, malloc size = true → size.toNat < 2 ^ 63
  /-- The largest offset that `lseek` takes, a `long`. -/
  seekMax : ℕ
  seekMax_lt : seekMax < 2 ^ 63
  /-- What one `read` gives at most. -/
  readMax : ℕ

/-- A read that leaves the buffer. -/
inductive BadRead where
  | header
  | table
  deriving DecidableEq

/-- What `readFromElf` finds for the buffer; `none` where `lseek` fails. -/
def readFromElf (sys : Sys) (file : Str) (offset : UInt64) (buffLen : ℕ) : Option Str :=
  if offset.toNat ≤ sys.seekMax then some ((file.drop offset.toNat).take (min buffLen sys.readMax)) else none

/-- It returns true. -/
def fill (sys : Sys) (file : Str) (offset : UInt64) (buffLen : ℕ) : Option Str :=
  (readFromElf sys file offset buffLen).filter (fun buff => buff.length = buffLen)

/-- A field of a header. -/
def field (buff : Str) (offset width : ℕ) : Except BadRead ℕ :=
  if offset + width ≤ buff.length then .ok (leVal ((buff.drop offset).take width)) else .error .header

/-- `Elf64_Ehdr`. -/
structure Ehdr where
  e_shoff : UInt64
  e_shentsize : UInt16
  e_shnum : UInt16
  e_shstrndx : UInt16

def Ehdr.read (buff : Str) : Except BadRead Ehdr := do
  let e_shoff ← field buff 40 8
  let e_shentsize ← field buff 58 2
  let e_shnum ← field buff 60 2
  let e_shstrndx ← field buff 62 2
  return ⟨.ofNat e_shoff, .ofNat e_shentsize, .ofNat e_shnum, .ofNat e_shstrndx⟩

/-- `Elf64_Shdr`. -/
structure Shdr where
  sh_name : UInt32
  sh_offset : UInt64
  sh_size : UInt64

def Shdr.read (buff : Str) : Except BadRead Shdr := do
  let sh_name ← field buff 0 4
  let sh_offset ← field buff 24 8
  let sh_size ← field buff 32 8
  return ⟨.ofNat sh_name, .ofNat sh_offset, .ofNat sh_size⟩

/-- `shoff + i * shentsize`. -/
def Ehdr.offset (ehdr : Ehdr) (i : ℕ) : UInt64 := ehdr.e_shoff + .ofNat (i * ehdr.e_shentsize.toNat)

/-! ### `ParseBinaryElf` -/

def ELFMAG : Str := [0x7f, 0x45, 0x4c, 0x46]

def GCC4OE : Str := str ".GCC4OE_oeAware"

def LLVM4OE : Str := str ".LLVM4OE_oeAware"

/-- `strcmp(name, literal) == 0`, where `name` is what is left of the table. -/
def strcmp : Str → Str → Except BadRead Bool
  | [], _ => .error .table
  | c :: _, [] => .ok (c = 0)
  | c :: name, d :: literal => if c = d then strcmp name literal else .ok false

/-- The condition on the name. -/
def isSpecial (name : Str) : Except BadRead Bool := do
  if ← strcmp name GCC4OE then return true else strcmp name LLVM4OE

/-- `policy`, which was -1, after a `read` that gave these bytes. -/
def policyOf (got : Str) : Int32 :=
  (UInt32.ofNat (leVal (got ++ (List.replicate 4 255).drop got.length))).toInt32

/-- The loop over the sections, from `i` on. -/
def sections (sys : Sys) (file : Str) (ehdr : Ehdr) (shstrtab : Str) : ℕ → ℕ → Except BadRead Int32
  | 0, _ => .ok (-1)
  | n + 1, i =>
    match fill sys file (ehdr.offset i) 64 with
    | none => .ok (-1)
    | some buff => do
      let shdr ← Shdr.read buff
      if ← isSpecial (shstrtab.drop shdr.sh_name.toNat) then
        if shdr.sh_size = 4 then
          -- a `read` that fails may have written a part
          return ((readFromElf sys file shdr.sh_offset 4).map policyOf).getD (-1)
        else return -1
      else sections sys file ehdr shstrtab n (i + 1)

/-- The part that reads the file. -/
def parseFile (sys : Sys) (file : Str) : Except BadRead Int32 :=
  match fill sys file 0 64 with
  | none => .ok (-1)
  | some buff =>
    if buff.take 4 ≠ ELFMAG then .ok (-1)
    else do
      let ehdr ← Ehdr.read buff
      match fill sys file (ehdr.offset ehdr.e_shstrndx.toNat) 64 with
      | none => return -1
      | some buff => do
        let shstrtabShdr ← Shdr.read buff
        if !sys.malloc shstrtabShdr.sh_size then return -1
        else
          match fill sys file shstrtabShdr.sh_offset shstrtabShdr.sh_size.toNat with
          | none => return -1
          | some shstrtab => sections sys file ehdr shstrtab ehdr.e_shnum.toNat 0

/-- What is behind the last separator. -/
def binaryName (filePath : Str) : Option Str :=
  if 47 ∈ filePath ∨ 92 ∈ filePath then some (filePath.reverse.takeWhile (fun c => c ≠ 47 ∧ c ≠ 92)).reverse
  else none

/-- `ParseBinaryElf`; there is no file where `open` fails. -/
def parseBinaryElf (sys : Sys) (configBinary : UMap Str Int32) (file : Option Str) (filePath : Str) :
    Except BadRead Int32 :=
  match (binaryName filePath).bind configBinary.find with
  | some policy => .ok policy
  | none =>
    match file with
    | none => .ok (-1)
    | some file => parseFile sys file

/-! ### What is in the file -/

/-- The number at the offset. -/
def number (file : Str) (offset width : ℕ) : ℕ := leVal ((file.drop offset).take width)

def Ehdr.of (file : Str) : Ehdr :=
  ⟨.ofNat (number file 40 8), .ofNat (number file 58 2), .ofNat (number file 60 2), .ofNat (number file 62 2)⟩

def Shdr.of (file : Str) (offset : ℕ) : Shdr :=
  ⟨.ofNat (number file offset 4), .ofNat (number file (offset + 24) 8), .ofNat (number file (offset + 32) 8)⟩

/-- Where the section header is that has the number, without overflow. -/
def entry (file : Str) (i : ℕ) : ℕ := (Ehdr.of file).e_shoff.toNat + i * (Ehdr.of file).e_shentsize.toNat

/-- The table of the names, of which the section header has the offset. -/
def tableAt (file : Str) (offset : ℕ) : Str :=
  (file.drop (Shdr.of file offset).sh_offset.toNat).take (Shdr.of file offset).sh_size.toNat

/-- The name that begins at the index is one of the two. -/
def Named (table : Str) (sh_name : UInt32) : Prop :=
  ∃ name ∈ [GCC4OE, LLVM4OE], name ++ [0] <+: table.drop sh_name.toNat

/-- The file has a section of one of the two names and of four bytes; all that says so is inside. -/
def Contains (file : Str) : Prop :=
  ∃ i < (Ehdr.of file).e_shnum.toNat, entry file i + 64 ≤ file.length ∧
    entry file (Ehdr.of file).e_shstrndx.toNat + 64 ≤ file.length ∧
    Named (tableAt file (entry file (Ehdr.of file).e_shstrndx.toNat)) (Shdr.of file (entry file i)).sh_name ∧
    (Shdr.of file (entry file i)).sh_size = 4 ∧ (Shdr.of file (entry file i)).sh_offset.toNat + 4 ≤ file.length

/-! ### Reads -/

/-- The buffer can be filled. -/
def Holds (sys : Sys) (file : Str) (offset : UInt64) (len : ℕ) : Prop :=
  offset.toNat ≤ sys.seekMax ∧ len ≤ sys.readMax ∧ len ≤ file.length - offset.toNat

theorem fill_eq_some {sys : Sys} {file buff : Str} {offset : UInt64} {len : ℕ} :
    fill sys file offset len = some buff ↔ Holds sys file offset len ∧ buff = (file.drop offset.toNat).take len := by
  rw [fill, Option.filter_eq_some_iff, readFromElf]
  constructor
  · rintro ⟨hread, hlen⟩
    split at hread
    · rename_i hseek
      cases hread
      rw [decide_eq_true_eq, List.length_take, List.length_drop] at hlen
      have hmax : len ≤ sys.readMax := by omega
      exact ⟨⟨hseek, hmax, by omega⟩, by rw [Nat.min_eq_left hmax]⟩
    · cases hread
  · rintro ⟨⟨hseek, hmax, hlen⟩, rfl⟩
    rw [if_pos hseek, Nat.min_eq_left hmax, decide_eq_true_eq, List.length_take, List.length_drop]
    exact ⟨rfl, Nat.min_eq_left hlen⟩

theorem fill_eq_none {sys : Sys} {file : Str} {offset : UInt64} {len : ℕ} (h : ¬Holds sys file offset len) :
    fill sys file offset len = none := by
  cases hfill : fill sys file offset len with
  | none => rfl
  | some buff => exact absurd (fill_eq_some.mp hfill).1 h

/-- A field of what has been read is a number of the file. -/
theorem field_eq {file : Str} {base len offset width : ℕ} (hlen : len ≤ file.length - base) (h : offset + width ≤ len) :
    field ((file.drop base).take len) offset width = .ok (number file (base + offset) width) := by
  have hbuff : ((file.drop base).take len).length = len := by
    rw [List.length_take, List.length_drop, Nat.min_eq_left hlen]
  rw [field, hbuff, if_pos h, number, List.drop_take, List.take_take, List.drop_drop,
    Nat.min_eq_left (by omega)]

theorem ehdr_read {file : Str} (h : 64 ≤ file.length) : Ehdr.read ((file.drop 0).take 64) = .ok (Ehdr.of file) := by
  rw [Ehdr.read, field_eq (by omega) (by omega), field_eq (by omega) (by omega), field_eq (by omega) (by omega),
    field_eq (by omega) (by omega)]
  simp only [Nat.zero_add]
  rfl

theorem shdr_read {file : Str} {offset : ℕ} (h : 64 ≤ file.length - offset) :
    Shdr.read ((file.drop offset).take 64) = .ok (Shdr.of file offset) := by
  rw [Shdr.read, field_eq h (by omega), field_eq h (by omega), field_eq h (by omega)]
  rfl

/-! ### Names -/

/-- A comparison leaves the table where all that is left of it agrees. -/
theorem strcmp_error : ∀ {name literal : Str}, (∃ e, strcmp name literal = .error e) ↔ name <+: literal
  | [], literal => ⟨fun _ => List.nil_prefix, fun _ => ⟨.table, rfl⟩⟩
  | c :: name, [] => by
    constructor
    · rintro ⟨_, h⟩
      cases h
    · intro h
      cases List.prefix_nil.mp h
  | c :: name, d :: literal => by
    rw [strcmp, List.cons_prefix_cons]
    split
    · rename_i h
      rw [strcmp_error]
      exact ⟨fun hp => ⟨h, hp⟩, fun hp => hp.2⟩
    · rename_i h
      refine ⟨?_, fun hp => absurd hp.1 h⟩
      rintro ⟨_, he⟩
      cases he

theorem strcmp_true : ∀ {name literal : Str}, strcmp name literal = .ok true ↔ literal ++ [0] <+: name
  | [], literal => by
    constructor
    · intro h
      cases h
    · intro h
      simp at h
  | c :: name, [] => by
    rw [strcmp, List.nil_append, List.cons_prefix_cons, Except.ok.injEq, decide_eq_true_eq]
    exact ⟨fun h => ⟨h.symm, List.nil_prefix⟩, fun h => h.1.symm⟩
  | c :: name, d :: literal => by
    rw [strcmp, List.cons_append, List.cons_prefix_cons]
    split
    · rename_i h
      rw [strcmp_true]
      exact ⟨fun hp => ⟨h.symm, hp⟩, fun hp => hp.2⟩
    · rename_i h
      refine ⟨?_, fun hp => absurd hp.1.symm h⟩
      intro hp
      cases hp

/-- Both comparisons stop. -/
def Ends (table : Str) (sh_name : UInt32) : Prop := ∀ name ∈ [GCC4OE, LLVM4OE], ¬ table.drop sh_name.toNat <+: name

/-- Neither of the names goes on as the other. -/
theorem not_prefix_of_names {name : Str} (h : name ∈ [GCC4OE, LLVM4OE]) {name' : Str} (h' : name' ∈ [GCC4OE, LLVM4OE]) :
    ¬ name ++ [0] <+: name' := by
  revert h h'
  simp only [List.mem_cons, List.not_mem_nil, or_false]
  rintro (rfl | rfl) (rfl | rfl) <;> decide +kernel

theorem isSpecial_error {table : Str} {sh_name : UInt32} :
    (∃ e, isSpecial (table.drop sh_name.toNat) = .error e) ↔ ¬ Ends table sh_name := by
  have hiff : ¬ Ends table sh_name ↔ table.drop sh_name.toNat <+: GCC4OE ∨ table.drop sh_name.toNat <+: LLVM4OE := by
    simp [Ends, imp_iff_not_or]
  rw [hiff]
  generalize table.drop sh_name.toNat = rest
  cases hgcc : strcmp rest GCC4OE with
  | error e =>
    refine ⟨fun _ => .inl (strcmp_error.mp ⟨e, hgcc⟩), fun _ => ⟨e, ?_⟩⟩
    simp only [isSpecial, hgcc, bind, Except.bind]
  | ok b =>
    have hnot : ¬ rest <+: GCC4OE := fun hp => by
      obtain ⟨e, he⟩ := strcmp_error.mpr hp
      rw [he] at hgcc
      cases hgcc
    cases b with
    | true =>
      have hpre := strcmp_true.mp hgcc
      refine ⟨?_, ?_⟩
      · rintro ⟨e, he⟩
        simp only [isSpecial, hgcc, bind, Except.bind, if_true] at he
        cases he
      · rintro (hp | hp)
        · exact absurd hp hnot
        · exact absurd (hpre.trans hp) (not_prefix_of_names (by simp) (by simp))
    | false =>
      have hnext : isSpecial rest = strcmp rest LLVM4OE := by
        simp only [isSpecial, hgcc, bind, Except.bind, Bool.false_eq_true, if_false]
      rw [hnext, strcmp_error]
      exact ⟨.inr, fun h => h.resolve_left hnot⟩

theorem isSpecial_true {table : Str} {sh_name : UInt32} :
    isSpecial (table.drop sh_name.toNat) = .ok true ↔ Named table sh_name := by
  have hiff : Named table sh_name ↔
      GCC4OE ++ [0] <+: table.drop sh_name.toNat ∨ LLVM4OE ++ [0] <+: table.drop sh_name.toNat := by
    simp [Named]
  rw [hiff]
  generalize table.drop sh_name.toNat = rest
  cases hgcc : strcmp rest GCC4OE with
  | error e =>
    have hpre := strcmp_error.mp ⟨e, hgcc⟩
    refine ⟨fun h => ?_, ?_⟩
    · simp only [isSpecial, hgcc, bind, Except.bind] at h
      cases h
    · rintro (hp | hp)
      · exact absurd (hp.trans hpre) (not_prefix_of_names (by simp) (by simp))
      · exact absurd (hp.trans hpre) (not_prefix_of_names (by simp) (by simp))
  | ok b =>
    cases b with
    | true =>
      refine ⟨fun _ => .inl (strcmp_true.mp hgcc), fun _ => ?_⟩
      simp only [isSpecial, hgcc, bind, Except.bind, if_true]
      rfl
    | false =>
      have hnext : isSpecial rest = strcmp rest LLVM4OE := by
        simp only [isSpecial, hgcc, bind, Except.bind, Bool.false_eq_true, if_false]
      rw [hnext, strcmp_true]
      refine ⟨.inr, fun h => h.resolve_left fun hp => ?_⟩
      rw [strcmp_true.mpr hp] at hgcc
      cases hgcc

/-! ### The policy -/

theorem leVal_replicate : ∀ {bs : Str}, leVal bs + 1 = 256 ^ bs.length ↔ ∀ b ∈ bs, b = 255
  | [] => by simp [leVal]
  | b :: bs => by
    have hlt := leVal_lt bs
    have hb := b.toNat_lt
    have hbyte : b = 255 ↔ b.toNat = 255 := UInt8.toNat_inj.symm
    rw [leVal, List.length_cons, pow_succ, List.forall_mem_cons, ← leVal_replicate, hbyte]
    omega

/-- A part that is read leaves -1 where it is made of ones. -/
theorem policyOf_eq_neg_one {got : Str} (h : got.length ≤ 4) : policyOf got = -1 ↔ ∀ b ∈ got, b = 255 := by
  have hlen : (got ++ (List.replicate 4 (255 : UInt8)).drop got.length).length = 4 := by
    rw [List.length_append, List.length_drop, List.length_replicate]
    omega
  have hlt := leVal_lt (got ++ (List.replicate 4 (255 : UInt8)).drop got.length)
  have hones := @leVal_replicate (got ++ (List.replicate 4 (255 : UInt8)).drop got.length)
  rw [hlen] at hlt hones
  have hall : (∀ b ∈ got ++ (List.replicate 4 (255 : UInt8)).drop got.length, b = 255) ↔ ∀ b ∈ got, b = 255 := by
    refine ⟨fun h b hb => h b (List.mem_append_left _ hb), fun h b hb => ?_⟩
    rcases List.mem_append.mp hb with hb | hb
    · exact h b hb
    · exact List.eq_of_mem_replicate (List.mem_of_mem_drop hb)
  rw [← hall, ← hones, policyOf]
  generalize leVal (got ++ (List.replicate 4 (255 : UInt8)).drop got.length) = v at hlt
  have hneg : (UInt32.ofNat v).toInt32 = -1 ↔ UInt32.ofNat v = 4294967295 := by
    constructor
    · intro hv
      exact (UInt32.toUInt32_toInt32 _).symm.trans (congrArg Int32.toUInt32 hv)
    · intro hv
      rw [hv]
      decide
  rw [hneg, ← UInt32.toNat_inj, UInt32.toNat_ofNat', Nat.mod_eq_of_lt (show v < 2 ^ 32 by omega),
    show (4294967295 : UInt32).toNat = 4294967295 from rfl]
  omega

/-! ### The sections -/

/-- The section that has the number, as the loop reads it. -/
def shdrAt (file : Str) (i : ℕ) : Shdr := Shdr.of file ((Ehdr.of file).offset i).toNat

/-- The loop gets past the read of this section's header. -/
def Readable (sys : Sys) (file : Str) (i : ℕ) : Prop := Holds sys file ((Ehdr.of file).offset i) 64

theorem shdr_read_of {sys : Sys} {file : Str} {i : ℕ} (h : Readable sys file i) :
    Shdr.read ((file.drop ((Ehdr.of file).offset i).toNat).take 64) = .ok (shdrAt file i) := shdr_read h.2.2

/-- The content of the section is read as a whole, or what is read of it leaves -1. -/
def Whole (sys : Sys) (file : Str) (shdr : Shdr) : Prop :=
  ∀ got, readFromElf sys file shdr.sh_offset 4 = some got → got.length = 4 ∨ ∀ b ∈ got, b = 255

/-- The section with the number does no harm, where the loop comes to it. -/
def Harmless (sys : Sys) (file table : Str) (i : ℕ) : Prop :=
  Ends table (shdrAt file i).sh_name ∧
    (Named table (shdrAt file i).sh_name → (shdrAt file i).sh_size = 4 → Whole sys file (shdrAt file i) ∨ Contains file)

/-- What becomes of `policy` when a section with a right name and size is read. -/
theorem read_policy_iff {sys : Sys} {file : Str} {shdr : Shdr}
    (hinside : shdr.sh_offset.toNat + 4 ≤ file.length → Contains file) :
    (((readFromElf sys file shdr.sh_offset 4).map policyOf).getD (-1) ≠ -1 → Contains file) ↔
      Whole sys file shdr ∨ Contains file := by
  cases hread : readFromElf sys file shdr.sh_offset 4 with
  | none =>
    refine ⟨fun _ => .inl fun got hgot => ?_, fun _ h => absurd rfl h⟩
    rw [hread] at hgot
    cases hgot
  | some got =>
    have hgot : got = (file.drop shdr.sh_offset.toNat).take (min 4 sys.readMax) := by
      rw [readFromElf] at hread
      split at hread
      · exact (Option.some.inj hread).symm
      · cases hread
    have hlen : got.length ≤ 4 ∧ (got.length = 4 → shdr.sh_offset.toNat + 4 ≤ file.length) := by
      rw [hgot, List.length_take, List.length_drop]
      omega
    rw [Option.map_some, Option.getD_some, Ne, policyOf_eq_neg_one hlen.1]
    constructor
    · intro h
      rcases em (∀ b ∈ got, b = 255) with hall | hall
      · refine .inl fun got' hgot' => ?_
        rw [hread] at hgot'
        exact .inr (Option.some.inj hgot' ▸ hall)
      · exact .inr (h hall)
    · rintro (hwhole | hcontains) hall
      · exact hinside (hlen.2 ((hwhole got hread).resolve_right hall))
      · exact hcontains

/-- One round, where the header can be read. -/
theorem sections_succ {sys : Sys} {file table : Str} {n i : ℕ} (h : Readable sys file i) :
    sections sys file (Ehdr.of file) table (n + 1) i =
      (isSpecial (table.drop (shdrAt file i).sh_name.toNat)).bind (fun special =>
        if special then
          if (shdrAt file i).sh_size = 4 then
            .ok (((readFromElf sys file (shdrAt file i).sh_offset 4).map policyOf).getD (-1))
          else .ok (-1)
        else sections sys file (Ehdr.of file) table n (i + 1)) := by
  rw [sections, fill_eq_some.mpr ⟨h, rfl⟩]
  dsimp only
  rw [shdr_read_of h]
  rfl

/-- The loop from `i` on. -/
theorem sections_ok_iff {sys : Sys} {file table : Str}
    (hfound : ∀ j < (Ehdr.of file).e_shnum.toNat, (∀ k ≤ j, Readable sys file k) → Named table (shdrAt file j).sh_name →
      (shdrAt file j).sh_size = 4 → (shdrAt file j).sh_offset.toNat + 4 ≤ file.length → Contains file) : ∀ {n i : ℕ},
    (∀ k < i, Readable sys file k) → i + n ≤ (Ehdr.of file).e_shnum.toNat →
    ((∃ policy, sections sys file (Ehdr.of file) table n i = .ok policy ∧ (policy ≠ -1 → Contains file)) ↔
      ∀ j, i ≤ j → j < i + n → (∀ k ≤ j, Readable sys file k) →
        (∀ k, i ≤ k → k < j → ¬ Named table (shdrAt file k).sh_name) → Harmless sys file table j)
  | 0, i, _, _ => ⟨fun _ j hj hlt => by omega, fun _ => ⟨-1, rfl, fun h => absurd rfl h⟩⟩
  | n + 1, i, hbefore, hn => by
    rcases em (Readable sys file i) with hread | hread
    · have hupto : ∀ k < i + 1, Readable sys file k := fun k hk =>
        (Nat.lt_succ_iff_lt_or_eq.mp hk).elim (hbefore k) (fun heq => heq ▸ hread)
      -- the condition on `i` itself
      have hself : (∀ j, i ≤ j → j < i + (n + 1) → (∀ k ≤ j, Readable sys file k) →
          (∀ k, i ≤ k → k < j → ¬ Named table (shdrAt file k).sh_name) → Harmless sys file table j) →
          Harmless sys file table i := fun h =>
        h i le_rfl (by omega) (fun k hk => hupto k (Nat.lt_succ_of_le hk)) (fun k hk hk' => by omega)
      rw [sections_succ hread]
      cases hspecial : isSpecial (table.drop (shdrAt file i).sh_name.toNat) with
      | error e =>
        refine ⟨?_, fun h => absurd (hself h).1 (isSpecial_error.mp ⟨e, hspecial⟩)⟩
        rintro ⟨policy, hpolicy, -⟩
        cases hpolicy
      | ok special =>
        have hends : Ends table (shdrAt file i).sh_name := by
          by_contra hnot
          obtain ⟨e, he⟩ := isSpecial_error.mpr hnot
          rw [hspecial] at he
          cases he
        cases special with
        | true =>
          have hnamed := isSpecial_true.mp hspecial
          have honly : (∀ j, i ≤ j → j < i + (n + 1) → (∀ k ≤ j, Readable sys file k) →
              (∀ k, i ≤ k → k < j → ¬ Named table (shdrAt file k).sh_name) → Harmless sys file table j) ↔
              Harmless sys file table i := by
            refine ⟨hself, fun h j hj hlt _ hnot => ?_⟩
            rcases hj.eq_or_lt with rfl | hlt'
            · exact h
            · exact absurd hnamed (hnot i le_rfl hlt')
          rw [honly]
          simp only [Except.bind, if_true]
          split
          · rename_i hsize
            have hiff := @read_policy_iff sys file (shdrAt file i)
              (hfound i (by omega) (fun k hk => hupto k (Nat.lt_succ_of_le hk)) hnamed hsize)
            refine ⟨?_, fun h => ⟨_, rfl, hiff.mpr (h.2 hnamed hsize)⟩⟩
            rintro ⟨policy, hpolicy, h⟩
            cases hpolicy
            exact ⟨hends, fun _ _ => hiff.mp h⟩
          · rename_i hsize
            exact ⟨fun _ => ⟨hends, fun _ h => absurd h hsize⟩, fun _ => ⟨-1, rfl, fun h => absurd rfl h⟩⟩
        | false =>
          have hnot : ¬ Named table (shdrAt file i).sh_name := fun hnamed => by
            rw [isSpecial_true.mpr hnamed] at hspecial
            cases hspecial
          simp only [Except.bind, Bool.false_eq_true, if_false]
          rw [sections_ok_iff hfound hupto (by omega)]
          constructor
          · intro h j hj hlt hall hbetween
            rcases hj.eq_or_lt with rfl | hlt'
            · exact ⟨hends, fun hnamed => absurd hnamed hnot⟩
            · exact h j hlt' (by omega) hall fun k hk => hbetween k (by omega)
          · intro h j hj hlt hall hbetween
            refine h j (by omega) (by omega) hall fun k hk hk' => ?_
            rcases hk.eq_or_lt with rfl | hlt'
            · exact hnot
            · exact hbetween k hlt' hk'
    · rw [sections, fill_eq_none hread]
      exact ⟨fun _ j hj _ hall => absurd (hall i hj) hread, fun _ => ⟨-1, rfl, fun h => absurd rfl h⟩⟩

/-! ### The file -/

/-- The table that `ParseBinaryElf` fills, where it comes so far. -/
def HasTable (sys : Sys) (file : Str) : Prop :=
  Holds sys file 0 64 ∧ file.take 4 = ELFMAG ∧ Readable sys file (Ehdr.of file).e_shstrndx.toNat ∧
    sys.malloc (shdrAt file (Ehdr.of file).e_shstrndx.toNat).sh_size = true ∧
    Holds sys file (shdrAt file (Ehdr.of file).e_shstrndx.toNat).sh_offset
      (shdrAt file (Ehdr.of file).e_shstrndx.toNat).sh_size.toNat

/-- It. -/
def table (file : Str) : Str := tableAt file ((Ehdr.of file).offset (Ehdr.of file).e_shstrndx.toNat).toNat

/-- Where there is a table, no section does harm to which the loop comes: all headers up to its own can be read and
    none before it has one of the names. -/
def Regular (sys : Sys) (file : Str) : Prop :=
  HasTable sys file → ∀ i < (Ehdr.of file).e_shnum.toNat, (∀ k ≤ i, Readable sys file k) →
    (∀ k < i, ¬ Named (table file) (shdrAt file k).sh_name) → Harmless sys file (table file) i

/-- The file name is configured. -/
def Configured (configBinary : UMap Str Int32) (filePath : Str) : Prop :=
  ∃ name, binaryName filePath = some name ∧ configBinary.count name = true

theorem parseFile_of_table {sys : Sys} {file : Str} (h : HasTable sys file) :
    parseFile sys file = sections sys file (Ehdr.of file) (table file) (Ehdr.of file).e_shnum.toNat 0 := by
  obtain ⟨hhead, hmagic, hread, hmalloc, htable⟩ := h
  have h64 : 64 ≤ file.length := by
    have := hhead.2.2
    omega
  rw [parseFile, fill_eq_some.mpr ⟨hhead, rfl⟩]
  dsimp only
  rw [List.take_take, show (0 : UInt64).toNat = 0 from rfl, List.drop_zero, if_neg (by simpa using hmagic)]
  rw [show Ehdr.read (file.take 64) = .ok (Ehdr.of file) from ehdr_read h64]
  simp only [bind, Except.bind]
  rw [fill_eq_some.mpr ⟨hread, rfl⟩]
  dsimp only
  rw [shdr_read_of hread]
  dsimp only
  rw [if_neg (by simpa using hmalloc), fill_eq_some.mpr ⟨htable, rfl⟩]
  rfl

theorem parseFile_of_not {sys : Sys} {file : Str} (h : ¬ HasTable sys file) : parseFile sys file = .ok (-1) := by
  rw [parseFile]
  rcases em (Holds sys file 0 64) with hhead | hhead
  · have h64 : 64 ≤ file.length := by
      have := hhead.2.2
      omega
    rw [fill_eq_some.mpr ⟨hhead, rfl⟩]
    dsimp only
    rw [List.take_take, show (0 : UInt64).toNat = 0 from rfl, List.drop_zero]
    split
    · rfl
    · rename_i hmagic
      rw [show Ehdr.read (file.take 64) = .ok (Ehdr.of file) from ehdr_read h64]
      simp only [bind, Except.bind]
      rcases em (Readable sys file (Ehdr.of file).e_shstrndx.toNat) with hread | hread
      · rw [fill_eq_some.mpr ⟨hread, rfl⟩]
        dsimp only
        rw [shdr_read_of hread]
        dsimp only
        split
        · rfl
        · rename_i hmalloc
          rw [fill_eq_none (fun htable => h ⟨hhead, by simpa using hmagic, hread, by simpa using hmalloc, htable⟩)]
          rfl
      · rw [fill_eq_none hread]
        rfl
  · rw [fill_eq_none hhead]

/-- Where the first header can be read, no offset overflows. -/
theorem offset_toNat {sys : Sys} {file : Str} (h : Readable sys file 0) {i : ℕ} (hi : i < 65536) :
    ((Ehdr.of file).offset i).toNat = entry file i := by
  have hoff : (Ehdr.of file).e_shoff.toNat < 2 ^ 63 := by
    have hseek : ((Ehdr.of file).offset 0).toNat ≤ sys.seekMax := h.1
    have hmax := sys.seekMax_lt
    rw [Ehdr.offset, Nat.zero_mul] at hseek
    have hzero : (Ehdr.of file).e_shoff + UInt64.ofNat 0 = (Ehdr.of file).e_shoff := UInt64.add_zero _
    rw [hzero] at hseek
    omega
  have hsize := (Ehdr.of file).e_shentsize.toNat_lt
  have hmul : i * (Ehdr.of file).e_shentsize.toNat < 65536 * 65536 := Nat.mul_lt_mul'' hi hsize
  rw [entry, Ehdr.offset, UInt64.toNat_add, UInt64.toNat_ofNat']
  generalize i * (Ehdr.of file).e_shentsize.toNat = m at hmul ⊢
  omega

/-- A section that gives the policy is really there. -/
theorem contains_of_found {sys : Sys} {file : Str} (htable : HasTable sys file) {j : ℕ}
    (hj : j < (Ehdr.of file).e_shnum.toNat) (hread : ∀ k ≤ j, Readable sys file k)
    (hnamed : Named (table file) (shdrAt file j).sh_name) (hsize : (shdrAt file j).sh_size = 4)
    (hinside : (shdrAt file j).sh_offset.toNat + 4 ≤ file.length) : Contains file := by
  have hfirst := hread 0 (Nat.zero_le j)
  have hnum := (Ehdr.of file).e_shnum.toNat_lt
  have hndx := (Ehdr.of file).e_shstrndx.toNat_lt
  have hentry : ((Ehdr.of file).offset j).toNat = entry file j := offset_toNat hfirst (by omega)
  have hentry' : ((Ehdr.of file).offset (Ehdr.of file).e_shstrndx.toNat).toNat =
      entry file (Ehdr.of file).e_shstrndx.toNat := offset_toNat hfirst hndx
  have hend : ∀ {k : ℕ}, Readable sys file k → ((Ehdr.of file).offset k).toNat + 64 ≤ file.length := fun h => by
    have := h.2.2
    omega
  rw [shdrAt, hentry] at hnamed hsize hinside
  rw [table, hentry'] at hnamed
  exact ⟨j, hj, hentry ▸ hend (hread j le_rfl), hentry' ▸ hend htable.2.2.1, hnamed, hsize, hinside⟩

/-- SAFE AND HONEST: `ParseBinaryElf` reads only what it has filled, and gives another policy than -1 only where the
    file name is configured or the file really has such a section, if and only if the file is regular. -/
theorem parseBinaryElf_iff (sys : Sys) (configBinary : UMap Str Int32) (file filePath : Str) :
    (∃ policy, parseBinaryElf sys configBinary (some file) filePath = .ok policy ∧
      (policy ≠ -1 → Configured configBinary filePath ∨ Contains file)) ↔
    Configured configBinary filePath ∨ Regular sys file := by
  rw [parseBinaryElf]
  cases hconf : (binaryName filePath).bind configBinary.find with
  | some policy =>
    obtain ⟨name, hname, hfind⟩ := Option.bind_eq_some_iff.mp hconf
    have hconfigured : Configured configBinary filePath := ⟨name, hname, by rw [UMap.count, hfind]; rfl⟩
    exact ⟨fun _ => .inl hconfigured, fun _ => ⟨policy, rfl, fun _ => .inl hconfigured⟩⟩
  | none =>
    have hnot : ¬ Configured configBinary filePath := by
      rintro ⟨name, hname, hcount⟩
      rw [hname, Option.bind_some] at hconf
      rw [UMap.count, hconf] at hcount
      cases hcount
    simp only [hnot, false_or]
    rcases em (HasTable sys file) with htable | htable
    · rw [parseFile_of_table htable]
      have hiff := @sections_ok_iff sys file (table file)
        (fun j hj hread hnamed hsize hinside => contains_of_found htable hj hread hnamed hsize hinside)
        (Ehdr.of file).e_shnum.toNat 0 (fun k hk => by omega) (by omega)
      rw [hiff]
      constructor
      · intro h _ i hi hread hbefore
        exact h i (Nat.zero_le i) (by omega) hread fun k _ hk => hbefore k hk
      · intro h i _ hi hread hbefore
        exact h htable i (by omega) hread fun k hk => hbefore k (Nat.zero_le k) hk
    · rw [parseFile_of_not htable]
      exact ⟨fun _ h => absurd h htable, fun _ => ⟨-1, rfl, fun h => absurd rfl h⟩⟩

/-! ### Two files -/

namespace Example

def sys : Sys where
  malloc := fun size => size.toNat < 2 ^ 30
  malloc_lt := fun size h => by
    have hlt := of_decide_eq_true h
    omega
  seekMax := 2 ^ 40
  seekMax_lt := by decide
  readMax := 2 ^ 30

/-- An ELF header with its section headers right behind it; the first of these is the table's. -/
def header (e_shnum : ℕ) : Str :=
  ELFMAG ++ List.replicate 36 0 ++ leBytes 8 64 ++ List.replicate 10 0 ++ leBytes 2 64 ++ leBytes 2 e_shnum ++ leBytes 2 0

def sectionHeader (sh_name sh_offset sh_size : ℕ) : Str :=
  leBytes 4 sh_name ++ List.replicate 20 0 ++ leBytes 8 sh_offset ++ leBytes 8 sh_size ++ List.replicate 24 0

/-- The name of the only section would begin far behind its table. -/
def farName : Str := header 1 ++ sectionHeader 1000 0 4

/-- The content of the second section ends with the file, after two of its four bytes. -/
def cutContent : Str :=
  header 2 ++ sectionHeader 15 192 16 ++ sectionHeader 0 208 4 ++ (GCC4OE ++ [0]) ++ [2, 0]

end Example

/-- The index of a name takes the comparison out of the table; and a policy is read of a section that is not there as a
    whole. -/
theorem parseBinaryElf_not :
    parseBinaryElf Example.sys .empty (some Example.farName) (str "/bin/a") = .error .table ∧
    parseBinaryElf Example.sys .empty (some Example.cutContent) (str "/bin/a") = .ok (-65534) ∧
    ¬ Configured .empty (str "/bin/a") ∧ ¬ Contains Example.cutContent := by
  refine ⟨by decide +kernel, by decide +kernel, ?_, ?_⟩
  · rintro ⟨name, -, hcount⟩
    cases hcount
  · unfold Contains Named
    decide +kernel

end BinaryTune
end OeAware

import Mathlib.Data.List.TakeWhile
import OeAware.Common.Register
import OeAware.Schemes.Wire

/-! @src include/oeaware/serialize.h, src/common/data_register.cpp | name:Serialize, Deserialize, strcpy_s

    What the codecs are made of: numbers as their bytes in memory, strings with their length in front,
    and the copy of a string into a `char` array with `strcpy_s` of the secure C library. That library is
    not part of the program; `Securec` is what is known of it. -/

namespace OeAware
open Schemes

/-- Why a decoder does not give its data. -/
inductive DecodeError where
  /-- It returns this instead of `0`. -/
  | ret (code : ℤ)
  /-- An exception leaves it. -/
  | throws
  /-- A null codec is called. -/
  | nullCodec
  deriving DecidableEq

abbrev Decoder := Reader InStream DecodeError

/-- The secure C library: `strcpy_s(dest, destMax, src)` copies a string that has room in `dest`, if it
    is one of those it takes at all (`SECUREC_STRING_MAX_LEN`). -/
structure Securec where
  strcpy_s : (destMax : ℕ) → (src : Str) → Except ℤ Str
  stringMaxLen : ℕ
  max_le : stringMaxLen ≤ stringMaxSize
  copies : ∀ src : Str, 0 ∉ src → src.length < stringMaxLen →
    strcpy_s (src.length + 1) src = .ok src

/-- What uninitialised memory holds. -/
structure Memory where
  int : UInt32
  long : UInt64
  str : Str

/-- A string that can be held as a `char *` and copied. -/
def CStr (lib : Securec) (s : Str) : Prop := 0 ∉ s ∧ s.length < lib.stringMaxLen

/-! ### Writing -/

/-- `Serialize` of an `unsigned long` or a `uint64_t`. -/
def serLong (n : UInt64) : Str := leBytes 8 n.toNat

/-- The bound of a loop `for (int i = 0; i < n; ++i)`. -/
def loops (n : UInt32) : ℕ := n.toInt32.toInt.toNat

/-- Such a loop over an array, each element written by `ser`. -/
def serLoop {α : Type} (ser : α → Str) (n : UInt32) (l : List α) : Str :=
  ((l.take (loops n)).map ser).flatten

/-! ### Reading -/

namespace Decoder

/-- `in >> x` for an `int` that holds `old`. -/
def int (old : UInt32) : Decoder UInt32 := fun s =>
  let (n, s) := s.readInt old
  .ok (n, s)

/-- `in >> x` for an `unsigned long` that holds `old`. -/
def long (old : UInt64) : Decoder UInt64 := fun s =>
  let (bytes, s) := s.read (serLong old)
  .ok (UInt64.ofNat (leVal bytes), s)

/-- `in >> x` for an empty `std::string`. -/
def string : Decoder Str := fun s =>
  match s.readStr with
  | some (x, s) => .ok (x, s)
  | none => .error .throws

/-- `new T[n]`. -/
def alloc (n : UInt32) : Decoder Unit := fun s =>
  if n.toInt32.toInt < 0 then .error .throws else .ok ((), s)

/-- `strcpy_s` into `new char[src.size() + 1]`, its result returned when it fails. -/
def copy (lib : Securec) (src : Str) (fail : ℤ → ℤ) : Decoder Str := fun s =>
  match lib.strcpy_s (src.length + 1) src with
  | .ok x => .ok (x, s)
  | .error code => .error (.ret (fail code))

end Decoder

/-- `strcpy_s` into `new char[src.size() + 1]`, its result not looked at. -/
def Securec.copied (lib : Securec) (mem : Memory) (src : Str) : Str :=
  match lib.strcpy_s (src.length + 1) src with
  | .ok x => x
  | .error _ => mem.str

/-! ### What was written is read back -/

/-- On a stream of the codecs. -/
abbrev ReadsAs {α : Type} (r : Decoder α) (bytes : Str) (a : α) : Prop :=
  Reads (fun rest => (⟨rest, true⟩ : InStream)) r bytes a

theorem reads_int (old n : UInt32) : ReadsAs (Decoder.int old) (serInt n) n := by
  intro rest
  rw [Decoder.int, readInt_ser]

theorem reads_long (old n : UInt64) : ReadsAs (Decoder.long old) (serLong n) n := by
  intro rest
  rw [Decoder.long, read_append _ _ _ (by simp [serLong])]
  simp only [serLong, leVal_leBytes]
  rw [Nat.mod_eq_of_lt (by simpa using n.toNat_lt), UInt64.ofNat_toNat]

theorem reads_string {s : Str} (h : s.length ≤ stringMaxSize) :
    ReadsAs Decoder.string (serStr s) s := by
  intro rest
  rw [Decoder.string, readStr_ser s rest h]

/-- Without a `NUL` in it, a string is passed on whole. -/
theorem cStr_self {s : Str} (h : 0 ∉ s) : cStr s = s := by
  rw [cStr, List.takeWhile_eq_self_iff]
  intro c hc
  have hne : c ≠ 0 := by
    rintro rfl
    exact h hc
  simpa using hne

theorem CStr.le {lib : Securec} {s : Str} (h : CStr lib s) : s.length ≤ stringMaxSize :=
  h.2.le.trans lib.max_le

theorem CStr.reads {lib : Securec} {s : Str} (h : CStr lib s) :
    ReadsAs Decoder.string (serStr s) s := reads_string h.le

theorem CStr.copied {lib : Securec} {s : Str} (h : CStr lib s) (mem : Memory) :
    lib.copied mem s = s := by
  rw [Securec.copied, lib.copies s h.1 h.2]

theorem CStr.copy {lib : Securec} {s : Str} (h : CStr lib s) (fail : ℤ → ℤ) :
    ReadsAs (Decoder.copy lib s fail) [] s := by
  intro rest
  rw [Decoder.copy, lib.copies s h.1 h.2]
  rfl

/-- `n` is the length of an array. -/
def Counts {α : Type} (n : UInt32) (l : List α) : Prop := n.toInt32.toInt = l.length

theorem Counts.loops {α : Type} {n : UInt32} {l : List α} (h : Counts n l) :
    loops n = l.length := by
  rw [OeAware.loops, h, Int.toNat_natCast]

theorem Counts.alloc {α : Type} {n : UInt32} {l : List α} (h : Counts n l) :
    ReadsAs (Decoder.alloc n) [] () := by
  intro rest
  rw [Decoder.alloc, if_neg (by rw [h]; omega)]
  rfl

/-- An array is read back by the loop that its length bounds. -/
theorem Counts.reads {α : Type} {n : UInt32} {l : List α} (h : Counts n l) {r : Decoder α}
    {ser : α → Str} (hr : ∀ x ∈ l, ReadsAs r (ser x) x) :
    ReadsAs (times r (OeAware.loops n)) (serLoop ser n l) l := by
  rw [serLoop, h.loops, List.take_length]
  exact Reads.times l hr

/-! ### A library for concrete data -/

/-- `strcpy_s` with `SECUREC_STRING_MAX_LEN` of 2³¹ - 1 and `ERANGE` of 34. -/
def sampleSecurec : Securec where
  strcpy_s destMax src :=
    if destMax = 0 ∨ 2 ^ 31 - 1 < destMax then .error 34
    else if (cStr src).length < destMax then .ok (cStr src) else .error 34
  stringMaxLen := 2 ^ 31 - 1
  max_le := by decide
  copies src h0 hlen := by
    rw [cStr_self h0, if_neg (by omega), if_pos (by omega)]

def sampleMemory : Memory := ⟨7, 7, [7]⟩

end OeAware

import Mathlib.Data.Nat.ModEq
import OeAware.Common.Topic

/-! @src include/oeaware/serialize.h | name:OutStream, InStream

    Integers go to the wire as their bytes in memory order (little-endian), strings and vectors as a
    `size_t` length followed by their elements. An `InStream` is a `stringstream`: a read past the
    end copies what there is, leaves the rest of the target as it was, and puts the stream in a
    failed state in which later reads do nothing. Reading a string first resizes it, which throws
    for an absurd length — `none` below. -/

namespace OeAware

/-- The `w` low bytes of `n`, least significant first. -/
def leBytes : ℕ → ℕ → Str
  | 0, _ => []
  | w + 1, n => UInt8.ofNat (n % 256) :: leBytes w (n / 256)

/-- The number whose bytes, least significant first, are given. -/
def leVal : Str → ℕ
  | [] => 0
  | b :: bs => b.toNat + 256 * leVal bs

@[simp] theorem length_leBytes : ∀ w n, (leBytes w n).length = w
  | 0, _ => rfl
  | w + 1, n => by rw [leBytes, List.length_cons, length_leBytes w]

theorem leVal_leBytes : ∀ w n, leVal (leBytes w n) = n % 256 ^ w
  | 0, n => by simp [leBytes, leVal, Nat.mod_one]
  | w + 1, n => by
    have hb : (UInt8.ofNat (n % 256)).toNat = n % 256 := by
      rw [UInt8.toNat_ofNat']; omega
    rw [leBytes, leVal, leVal_leBytes w, hb, Nat.pow_succ', Nat.mod_mul]

theorem leVal_append_zeros (k : ℕ) : ∀ l : Str, leVal (l ++ List.replicate k 0) = leVal l
  | [] => by
    induction k with
    | zero => rfl
    | succ k ih => simpa [leVal, List.replicate_succ] using ih
  | b :: l => by
    rw [List.cons_append, leVal, leVal, leVal_append_zeros k l]

/-! ### Writing -/

/-- `Serialize` of a `size_t`. -/
def serSize (n : ℕ) : Str := leBytes 8 n

/-- `Serialize` of an `int`, given as its 32 bits. -/
def serInt (n : UInt32) : Str := leBytes 4 n.toNat

/-- `Serialize` of a `std::string`. -/
def serStr (s : Str) : Str := serSize s.length ++ s

/-- `operator<<` of a `std::vector<std::string>`. -/
def serVec (v : List Str) : Str := serSize v.length ++ (v.map serStr).flatten

/-! ### Reading -/

structure InStream where
  rest : Str
  good : Bool := true
  deriving DecidableEq

/-- `InStream::Deserialize(data, len)` into memory that holds `old`: the bytes it then holds. -/
def InStream.read (s : InStream) (old : Str) : Str × InStream :=
  if s.good then
    let got := s.rest.take old.length
    (got ++ old.drop got.length, ⟨s.rest.drop old.length, decide (old.length ≤ s.rest.length)⟩)
  else (old, s)

/-- A `size_t` read into a variable that is `0`. -/
def InStream.readSize (s : InStream) : ℕ × InStream :=
  let (bytes, s) := s.read (List.replicate 8 0)
  (leVal bytes, s)

/-- An `int` read into a variable that holds `old`. -/
def InStream.readInt (s : InStream) (old : UInt32) : UInt32 × InStream :=
  let (bytes, s) := s.read (serInt old)
  (UInt32.ofNat (leVal bytes), s)

/-- `std::string::max_size()`: `resize` beyond it throws `std::length_error`. -/
def stringMaxSize : ℕ := 2 ^ 62 - 1

/-- `Deserialize` into an empty `std::string`. -/
def InStream.readStr (s : InStream) : Option (Str × InStream) :=
  let (len, s) := s.readSize
  if stringMaxSize < len then none else some (s.read (List.replicate len 0))

/-- The element loop of `operator>>` on a vector of strings. -/
def InStream.readStrs : ℕ → InStream → Option (List Str × InStream)
  | 0, s => some ([], s)
  | len + 1, s => do
    let (x, s) ← s.readStr
    let (xs, s) ← readStrs len s
    pure (x :: xs, s)

/-- `operator>>` on an empty `std::vector<std::string>`. -/
def InStream.readVec (s : InStream) : Option (List Str × InStream) :=
  let (len, s) := s.readSize
  s.readStrs len

/-! ### What was written is read back -/

theorem read_append (a rest old : Str) (h : a.length = old.length) :
    InStream.read ⟨a ++ rest, true⟩ old = (a, ⟨rest, true⟩) := by
  simp [InStream.read, ← h]

theorem readSize_ser (n : ℕ) (rest : Str) (h : n < 2 ^ 64) :
    InStream.readSize ⟨serSize n ++ rest, true⟩ = (n, ⟨rest, true⟩) := by
  rw [InStream.readSize, read_append _ _ _ (by simp [serSize])]
  simp only [serSize, leVal_leBytes]
  rw [Nat.mod_eq_of_lt (by simpa using h)]

theorem readInt_ser (n old : UInt32) (rest : Str) :
    InStream.readInt ⟨serInt n ++ rest, true⟩ old = (n, ⟨rest, true⟩) := by
  rw [InStream.readInt, read_append _ _ _ (by simp [serInt])]
  simp only [serInt, leVal_leBytes]
  rw [Nat.mod_eq_of_lt (by simpa using n.toNat_lt), UInt32.ofNat_toNat]

theorem readStr_ser (s rest : Str) (h : s.length ≤ stringMaxSize) :
    InStream.readStr ⟨serStr s ++ rest, true⟩ = some (s, ⟨rest, true⟩) := by
  have hlt : s.length < 2 ^ 64 := lt_of_le_of_lt h (by decide)
  rw [InStream.readStr, serStr, List.append_assoc, readSize_ser _ _ hlt]
  simp only [Nat.not_lt.mpr h, if_false]
  rw [read_append _ _ _ (by simp)]

theorem readStrs_ser : ∀ (v : List Str) (rest : Str), (∀ s ∈ v, s.length ≤ stringMaxSize) →
    InStream.readStrs v.length ⟨(v.map serStr).flatten ++ rest, true⟩ = some (v, ⟨rest, true⟩)
  | [], rest, _ => by simp [InStream.readStrs]
  | s :: v, rest, h => by
    have hs := readStr_ser s ((v.map serStr).flatten ++ rest) (h s (List.mem_cons_self ..))
    have hv := readStrs_ser v rest (fun x hx => h x (List.mem_cons_of_mem _ hx))
    simp [InStream.readStrs, hs, hv]

theorem readVec_ser (v : List Str) (rest : Str) (hl : v.length < 2 ^ 64)
    (h : ∀ s ∈ v, s.length ≤ stringMaxSize) :
    InStream.readVec ⟨serVec v ++ rest, true⟩ = some (v, ⟨rest, true⟩) := by
  rw [InStream.readVec, serVec, List.append_assoc, readSize_ser _ _ hl]
  exact readStrs_ser v rest h

end OeAware

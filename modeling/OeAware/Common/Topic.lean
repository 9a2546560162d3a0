import Mathlib.Algebra.Ring.Int.Defs
import Mathlib.Algebra.Ring.Nat
import Mathlib.Data.Int.Notation
import Mathlib.Data.List.Basic

/-! @src include/oeaware/topic.h, src/common/utils.cpp | name:Topic, Result, Concat, SplitString

    A topic is identified on the wire and in the subscriber table by its *type string*
    `instance::topic::params`. `getType` joins the three parts, `getTopicFromType` splits such a
    string again. The split is the leftmost one, so the two are inverse only as long as no part
    brings a `:` of its own — which is what `NoColon` says.

        Topic ──getType──▶ "i::t::p" ──getTopicFromType──▶ Topic -/

namespace OeAware

/-- `std::string`: a sequence of bytes. -/
abbrev Str := List UInt8

instance : LawfulBEq Str := inferInstance

/-- A string literal of the source, as bytes. -/
def str (s : String) : Str := s.toList.map (fun c => UInt8.ofNat c.toNat)

/-- `Concat(strings, split)`. -/
def concat (strings : List Str) (split : Str) : Str := List.intercalate split strings

/-- The pieces of `s` between the leftmost non-overlapping occurrences of `sep`; `skip` counts the
    bytes of a separator still to be passed over, `acc` is the piece being read, reversed. -/
def splitAux (sep : Str) : Str → ℕ → Str → List Str
  | [], _, acc => [acc.reverse]
  | _ :: cs, skip + 1, acc => splitAux sep cs skip acc
  | c :: cs, 0, acc =>
    if sep.isPrefixOf (c :: cs) then acc.reverse :: splitAux sep cs (sep.length - 1) []
    else splitAux sep cs 0 (c :: acc)

/-- `SplitString(str, split)` for a separator without regex operators. As with
    `sregex_token_iterator`, an empty piece after the last separator is not reported. -/
def splitString (s split : Str) : List Str :=
  let tokens := splitAux split s 0 []
  if tokens.length ≠ 1 ∧ tokens.getLast? = some [] then tokens.dropLast else tokens

/-- `atoi`: digits behind blanks and a sign, clamped to a `long` and cut to an `int`. -/
def atoi (s : Str) : ℤ :=
  let s := s.dropWhile (fun c => c = 32 ∨ (9 ≤ c ∧ c ≤ 13))
  let (neg, s) := match s with
    | 45 :: rest => (true, rest)
    | 43 :: rest => (false, rest)
    | s => (false, s)
  let n : ℤ := (s.takeWhile (fun c => 48 ≤ c ∧ c ≤ 57)).foldl (fun n c => 10 * n + (c.toNat - 48)) 0
  Int.bmod (max (-2 ^ 63) (min (2 ^ 63 - 1) (if neg then -n else n))) (2 ^ 32)

structure Topic where
  instanceName : Str
  topicName : Str
  params : Str
  deriving DecidableEq

/-- `Topic::GetType`. -/
def Topic.getType (t : Topic) : Str := concat [t.instanceName, t.topicName, t.params] (str "::")

/-- `Topic::GetTopicFromType`. -/
def getTopicFromType (type : Str) : Topic :=
  let values := splitString type (str "::")
  ⟨values.getD 0 [], values.getD 1 [], if 2 < values.length then values.getD 2 [] else []⟩

/-- No part of the topic contains a `:`. -/
def Topic.NoColon (t : Topic) : Prop :=
  58 ∉ t.instanceName ∧ 58 ∉ t.topicName ∧ 58 ∉ t.params

instance (t : Topic) : Decidable t.NoColon :=
  inferInstanceAs (Decidable (_ ∧ _ ∧ _))

/-- `Result`; `code = none` is the indeterminate member that `Result()` leaves. -/
structure Result where
  code : Option ℤ
  payload : Str
  deriving DecidableEq

def OK : ℤ := 0
def FAILED : ℤ := -1

/-- `Result()`. -/
def Result.unset : Result := ⟨none, []⟩

/-- `result.code < 0`. -/
def Result.failed (r : Result) : Bool := r.code.any (· < 0)

/-! ### Splitting what was joined -/

theorem str_colons : str "::" = [58, 58] := by decide

theorem getType_eq (t : Topic) :
    t.getType = t.instanceName ++ 58 :: 58 :: (t.topicName ++ 58 :: 58 :: t.params) := by
  simp [Topic.getType, concat, str_colons, List.intercalate, List.intersperse]

/-- Reading a piece without `:` up to the next separator. -/
theorem splitAux_piece (rest : Str) : ∀ (a acc : Str), 58 ∉ a →
    splitAux [58, 58] (a ++ 58 :: 58 :: rest) 0 acc =
      (acc.reverse ++ a) :: splitAux [58, 58] rest 0 []
  | [], acc, _ => by simp [splitAux, List.isPrefixOf]
  | c :: a, acc, h => by
    have hc : (58 : UInt8) ≠ c := fun he => h (he ▸ List.mem_cons_self ..)
    have ha : 58 ∉ a := fun hm => h (List.mem_cons_of_mem _ hm)
    simp [splitAux, List.isPrefixOf, hc, splitAux_piece rest a (c :: acc) ha]

/-- Reading the last piece. -/
theorem splitAux_last : ∀ (a acc : Str), 58 ∉ a →
    splitAux [58, 58] a 0 acc = [acc.reverse ++ a]
  | [], acc, _ => by simp [splitAux]
  | c :: a, acc, h => by
    have hc : (58 : UInt8) ≠ c := fun he => h (he ▸ List.mem_cons_self ..)
    have ha : 58 ∉ a := fun hm => h (List.mem_cons_of_mem _ hm)
    simp [splitAux, List.isPrefixOf, hc, splitAux_last a (c :: acc) ha]

/-- ROUND TRIP: a topic without `:` is recovered from its type string, empty parts included. -/
theorem getTopicFromType_getType (t : Topic) (h : t.NoColon) : getTopicFromType t.getType = t := by
  obtain ⟨hi, ht, hp⟩ := h
  have hs : splitAux [58, 58] t.getType 0 [] = [t.instanceName, t.topicName, t.params] := by
    rw [getType_eq, splitAux_piece _ _ _ hi, splitAux_piece _ _ _ ht, splitAux_last _ _ hp]
    rfl
  unfold getTopicFromType splitString
  rw [str_colons, hs]
  -- an empty `params` is the trailing piece that the token iterator drops
  by_cases he : t.params = []
  · simp [he]; rw [← he]
  · simp [he]

/-- A `::` inside `params` is taken for a separator, and the rest of the parameter is lost. -/
example : getTopicFromType (Topic.getType ⟨str "i", str "t", str "a::b"⟩) =
    ⟨str "i", str "t", str "a"⟩ := by decide

end OeAware

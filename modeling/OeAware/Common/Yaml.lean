import OeAware.Common.Numbers

/-! @src the documents `YAML::LoadFile` gives and `operator<<` writes | name:Node

    A document without anchors is a tree. A lookup with `[]` reads the first pair under the key; on a scalar
    it throws. An assignment through `[]` replaces that pair or adds one behind the others, and turns a root
    that is empty or a sequence into a map.

        n["k"]      no such pair: undefined      n a scalar: throws -/

namespace OeAware

/-- `YAML::Node`. -/
inductive Node where
  | null
  | scalar (value : Str)
  | seq (items : List Node)
  | map (pairs : List (Str × Node))

namespace Node

/-- `n[key]` for reading: `none` when it throws, `some none` when it is not defined. -/
def get (key : Str) : Node → Option (Option Node)
  | .scalar _ => none
  | .map pairs => some (pairs.lookup key)
  | .null | .seq _ => some none

/-- `n.as<std::string>()`, which throws on all but scalars. -/
def asString : Node → Option Str
  | .scalar value => some value
  | _ => none

/-- The pairs of a node that `[]` is used on for writing. -/
def asMap : Node → Option (List (Str × Node))
  | .null => some []
  | .scalar _ => none
  | .seq items => some (items.zipIdx.map (fun item => (toStr item.2, item.1)))
  | .map pairs => some pairs

/-- `n[key] = value`, on the pairs. -/
def setPair (key : Str) (value : Node) : List (Str × Node) → List (Str × Node)
  | [] => [(key, value)]
  | pair :: pairs => if pair.1 = key then (key, value) :: pairs else pair :: setPair key value pairs

/-- `n[key] = value` on a map. -/
def set : Node → Str → Node → Node
  | .map pairs, key, value => .map (setPair key value pairs)
  | n, _, _ => n

theorem lookup_setPair (key : Str) (value : Node) : ∀ pairs,
    (setPair key value pairs).lookup key = some value
  | [] => by simp [setPair]
  | (k, v) :: pairs => by
    rw [setPair]
    rcases eq_or_ne k key with rfl | h
    · simp
    · rw [if_neg h, List.lookup_cons, beq_false_of_ne (Ne.symm h)]
      exact lookup_setPair key value pairs

theorem lookup_setPair_of_ne {key other : Str} (h : other ≠ key) (value : Node) : ∀ pairs,
    (setPair key value pairs).lookup other = pairs.lookup other
  | [] => by simp [setPair, h]
  | (k, v) :: pairs => by
    rw [setPair]
    rcases eq_or_ne k key with rfl | hk
    · simp [List.lookup_cons, beq_false_of_ne h]
    · rw [if_neg hk, List.lookup_cons, List.lookup_cons, lookup_setPair_of_ne h value pairs]

theorem setPair_self {key : Str} {value : Node} : ∀ {pairs : List (Str × Node)},
    pairs.lookup key = some value → setPair key value pairs = pairs
  | (k, v) :: pairs, h => by
    rw [List.lookup_cons] at h
    rw [setPair]
    rcases eq_or_ne k key with rfl | hk
    · simp only [BEq.rfl, Option.some.injEq] at h
      rw [if_pos rfl, h]
    · rw [beq_false_of_ne (Ne.symm hk)] at h
      rw [if_neg hk, setPair_self h]

end Node
end OeAware

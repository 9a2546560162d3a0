import Mathlib.Data.List.Nodup
import Mathlib.Data.List.Perm.Lattice

/-! @scheme container | name:hash map and hash set | models:std::unordered_map, std::unordered_set

    A hash container is a partial function together with a list of its keys *in iteration order*.
    The standard leaves that order open and lets it change, so nothing but `reorder` looks at the
    order, and `reorder` may pick any permutation. The two fields are tied by the structure itself:
    a map whose key list disagrees with its lookup cannot be built. -/

namespace Schemes

/-- A map: the keys in iteration order and the value under each key. -/
structure UMap (κ α : Type) [DecidableEq κ] where
  keys : List κ
  find : κ → Option α
  nodup : keys.Nodup
  mem_keys : ∀ k, k ∈ keys ↔ (find k).isSome = true

namespace UMap
variable {κ α : Type} [DecidableEq κ]

def empty : UMap κ α := ⟨[], fun _ => none, List.nodup_nil, by simp⟩

/-- `m.count(k)`. -/
def count (m : UMap κ α) (k : κ) : Bool := (m.find k).isSome

/-- `m[k]` where the values are numbers: a missing entry reads as zero. -/
def value [Zero α] (m : UMap κ α) (k : κ) : α := (m.find k).getD 0

/-- `m[k] = v`. -/
def insert (m : UMap κ α) (k : κ) (v : α) : UMap κ α where
  keys := m.keys.insert k
  find := fun k' => if k' = k then some v else m.find k'
  nodup := m.nodup.insert
  mem_keys := by
    intro k'
    rw [List.mem_insert_iff, m.mem_keys]
    by_cases h : k' = k <;> simp [h]

/-- `m.insert({k, v})`: an existing entry is kept. -/
def insertNew (m : UMap κ α) (k : κ) (v : α) : UMap κ α := if m.count k then m else m.insert k v

/-- `m.erase(k)`. -/
def erase (m : UMap κ α) (k : κ) : UMap κ α where
  keys := m.keys.erase k
  find := fun k' => if k' = k then none else m.find k'
  nodup := m.nodup.erase k
  mem_keys := by
    intro k'
    rw [m.nodup.mem_erase_iff, m.mem_keys]
    by_cases h : k' = k <;> simp [h]

/-- The same map, iterated in the order `ks` (when `ks` is a permutation of the keys). -/
def reorder (m : UMap κ α) (ks : List κ) : UMap κ α :=
  if h : ks.Perm m.keys then
    ⟨ks, m.find, h.nodup_iff.mpr m.nodup, fun k => by rw [h.mem_iff, m.mem_keys]⟩
  else m

/-- Rewrite every value in place. -/
def mapVal {β : Type} (m : UMap κ α) (f : κ → α → β) : UMap κ β where
  keys := m.keys
  find := fun k => (m.find k).map (f k)
  nodup := m.nodup
  mem_keys := by intro k; rw [m.mem_keys, Option.isSome_map]

@[simp] theorem find_empty (k : κ) : (empty : UMap κ α).find k = none := rfl

theorem find_insert (m : UMap κ α) (k k' : κ) (v : α) :
    (m.insert k v).find k' = if k' = k then some v else m.find k' := rfl

@[simp] theorem find_insert_self (m : UMap κ α) (k : κ) (v : α) :
    (m.insert k v).find k = some v := by simp [find_insert]

@[simp] theorem value_empty [Zero α] (k : κ) : (empty : UMap κ α).value k = 0 := rfl

theorem value_insert [Zero α] (m : UMap κ α) (k : κ) (v : α) :
    (m.insert k v).value = Function.update m.value k v := by
  funext k'
  by_cases hk : k' = k <;> simp [value, find_insert, hk]

theorem find_insertNew (m : UMap κ α) (k k' : κ) (v : α) :
    (m.insertNew k v).find k' = if k' = k ∧ m.count k = false then some v else m.find k' := by
  unfold insertNew
  by_cases hc : m.count k = true
  · simp [hc]
  · simp [hc, find_insert]

theorem find_erase (m : UMap κ α) (k k' : κ) :
    (m.erase k).find k' = if k' = k then none else m.find k' := rfl

/-- Nothing is erased that is not there. -/
theorem erase_of_none {m : UMap κ α} {k : κ} (h : m.find k = none) : m.erase k = m := by
  have hkeys : m.keys.erase k = m.keys := by
    refine List.erase_of_not_mem (fun hmem => ?_)
    rw [m.mem_keys, h] at hmem
    cases hmem
  have hfind : (fun k' => if k' = k then none else m.find k') = m.find := by
    funext k'
    split
    · rename_i hk
      rw [hk, h]
    · rfl
  obtain ⟨keys, find, nodup, mem⟩ := m
  simp only [erase, mk.injEq]
  exact ⟨hkeys, hfind⟩

@[simp] theorem find_reorder (m : UMap κ α) (ks : List κ) : (m.reorder ks).find = m.find := by
  unfold reorder; split <;> rfl

@[simp] theorem mem_keys_insert (m : UMap κ α) (k k' : κ) (v : α) :
    k' ∈ (m.insert k v).keys ↔ k' = k ∨ k' ∈ m.keys := List.mem_insert_iff

/-- The keys but one. -/
theorem filter_keys_insert (m : UMap κ α) (k k' : κ) (v : α) :
    (m.insert k v).keys.filter (fun t => t ≠ k') =
      if k = k' then m.keys.filter (fun t => t ≠ k') else (m.keys.filter (fun t => t ≠ k')).insert k := by
  rw [show (m.insert k v).keys = m.keys.insert k from rfl]
  rcases em (k ∈ m.keys) with hmem | hmem
  · rw [List.insert_of_mem hmem]
    split
    · rfl
    · rename_i hne
      rw [List.insert_of_mem (List.mem_filter.mpr ⟨hmem, by simpa using hne⟩)]
  · rw [List.insert_of_not_mem hmem, List.filter_cons]
    split
    · rename_i hne
      rw [if_neg (by simpa using hne), List.insert_of_not_mem (fun h => hmem (List.mem_filter.mp h).1)]
    · rename_i heq
      rw [if_pos (by simpa using heq)]

theorem mem_keys_erase (m : UMap κ α) (k k' : κ) : k' ∈ (m.erase k).keys ↔ k' ≠ k ∧ k' ∈ m.keys :=
  m.nodup.mem_erase_iff

@[simp] theorem mem_keys_reorder (m : UMap κ α) (ks : List κ) (k : κ) :
    k ∈ (m.reorder ks).keys ↔ k ∈ m.keys := by rw [mem_keys, mem_keys, find_reorder]

@[simp] theorem find_mapVal {β : Type} (m : UMap κ α) (f : κ → α → β) (k : κ) :
    (m.mapVal f).find k = (m.find k).map (f k) := rfl

/-- The values in iteration order. -/
def values (m : UMap κ α) : List α := m.keys.filterMap m.find

/-- Maps with the same entries have the same values. -/
theorem values_perm {m m' : UMap κ α} (h : ∀ k, m.find k = m'.find k) : m.values.Perm m'.values := by
  have hkeys : m.keys.Perm m'.keys := by
    rw [List.perm_ext_iff_of_nodup m.nodup m'.nodup]
    intro k
    rw [m.mem_keys, m'.mem_keys, h]
  have hfind : m.find = m'.find := funext h
  unfold values
  rw [hfind]
  exact hkeys.filterMap _

theorem find_eq_none {m : UMap κ α} {k : κ} (h : k ∉ m.keys) : m.find k = none :=
  Option.not_isSome_iff_eq_none.mp fun hs => h ((m.mem_keys k).mpr hs)

theorem mem_keys_of_find {m : UMap κ α} {k : κ} {v : α} (h : m.find k = some v) : k ∈ m.keys := by
  rw [mem_keys, h]; rfl

theorem mem_values {m : UMap κ α} {v : α} : v ∈ m.values ↔ ∃ k, m.find k = some v := by
  unfold values
  rw [List.mem_filterMap]
  exact ⟨fun ⟨k, _, h⟩ => ⟨k, h⟩, fun ⟨k, h⟩ => ⟨k, mem_keys_of_find h, h⟩⟩

/-- The loop that erases what is not to be kept. -/
def keep (m : UMap κ α) (p : κ → α → Bool) : UMap κ α where
  keys := m.keys.filter (fun k => (m.find k).any (p k))
  find := fun k => (m.find k).filter (p k)
  nodup := m.nodup.filter _
  mem_keys := by
    intro k
    rw [List.mem_filter, m.mem_keys]
    cases m.find k <;> simp [Option.filter, apply_ite]

@[simp] theorem find_keep (m : UMap κ α) (p : κ → α → Bool) (k : κ) : (m.keep p).find k = (m.find k).filter (p k) := rfl

/-! ### Maps of vectors -/

/-- `m[k].emplace_back(x)`. -/
def push (m : UMap κ (List α)) (k : κ) (x : α) : UMap κ (List α) := m.insert k ((m.find k).getD [] ++ [x])

def pushAll (m : UMap κ (List α)) (k : κ) (xs : List α) : UMap κ (List α) := xs.foldl (fun m x => m.push k x) m

theorem find_push (m : UMap κ (List α)) (k k' : κ) (x : α) :
    (m.push k x).find k' = if k' = k then some ((m.find k).getD [] ++ [x]) else m.find k' := rfl

@[simp] theorem pushAll_nil (m : UMap κ (List α)) (k : κ) : m.pushAll k [] = m := rfl

theorem find_pushAll {k : κ} : ∀ {xs : List α} (m : UMap κ (List α)), xs ≠ [] → ∀ k',
    (m.pushAll k xs).find k' = if k' = k then some ((m.find k).getD [] ++ xs) else m.find k'
  | [], _, h, _ => absurd rfl h
  | [x], m, _, k' => find_push m k k' x
  | x :: y :: xs, m, _, k' => by
    have h := find_pushAll (k := k) (m.push k x) (List.cons_ne_nil y xs) k'
    rw [find_push, find_push, if_pos rfl] at h
    rw [pushAll, List.foldl_cons]
    refine h.trans ?_
    split
    · simp
    · rfl

end UMap

/-! ### What is given out key by key -/

/-- What is given out for one key, where each key's is its own. -/
theorem filter_flatMap_key {κ α : Type} [DecidableEq κ] (f : κ → List (κ × α)) (hf : ∀ k, ∀ x ∈ f k, x.1 = k) (k : κ) :
    ∀ {keys : List κ}, keys.Nodup → (keys.flatMap f).filter (fun x => x.1 = k) = if k ∈ keys then f k else []
  | [], _ => rfl
  | k' :: keys, h => by
    obtain ⟨hnot, hnodup⟩ := List.nodup_cons.mp h
    rw [List.flatMap_cons, List.filter_append, filter_flatMap_key f hf k hnodup]
    rcases eq_or_ne k k' with rfl | hne
    · rw [if_neg hnot, if_pos List.mem_cons_self, List.append_nil, List.filter_eq_self]
      exact fun x hx => by simpa using hf k x hx
    · have hnil : (f k').filter (fun x => x.1 = k) = [] := by
        rw [List.filter_eq_nil_iff]
        intro x hx hk
        exact hne ((by simpa using hk : x.1 = k).symm.trans (hf k' x hx))
      rw [hnil, List.nil_append]
      simp [hne]

/-- A set: its elements in iteration order, none of them twice. -/
structure USet (κ : Type) [DecidableEq κ] where
  elems : List κ
  nodup : elems.Nodup

namespace USet
variable {κ : Type} [DecidableEq κ]

def empty : USet κ := ⟨[], List.nodup_nil⟩

def insert (s : USet κ) (k : κ) : USet κ := ⟨s.elems.insert k, s.nodup.insert⟩

def erase (s : USet κ) (k : κ) : USet κ := ⟨s.elems.erase k, s.nodup.erase k⟩

/-- The same set, iterated in the order `ks` (when `ks` is a permutation of the elements). -/
def reorder (s : USet κ) (ks : List κ) : USet κ :=
  if h : ks.Perm s.elems then ⟨ks, h.nodup_iff.mpr s.nodup⟩ else s

@[simp] theorem elems_empty : (empty : USet κ).elems = [] := rfl

theorem eq_empty {s : USet κ} (h : s.elems = []) : s = empty := by
  cases s
  cases h
  rfl

@[simp] theorem mem_insert {s : USet κ} {k k' : κ} :
    k' ∈ (s.insert k).elems ↔ k' = k ∨ k' ∈ s.elems := List.mem_insert_iff

@[simp] theorem mem_erase {s : USet κ} {k k' : κ} :
    k' ∈ (s.erase k).elems ↔ k' ≠ k ∧ k' ∈ s.elems := s.nodup.mem_erase_iff

@[simp] theorem mem_reorder {s : USet κ} {ks : List κ} {k : κ} :
    k ∈ (s.reorder ks).elems ↔ k ∈ s.elems := by
  unfold reorder
  split
  · rename_i h; exact h.mem_iff
  · exact Iff.rfl

end USet

end Schemes

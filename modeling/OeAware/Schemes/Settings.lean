import Mathlib.Data.List.TakeWhile
import Mathlib.Logic.Function.Basic

/-! @scheme settings | name:settings that a source fills in one after another

    Looking a setting up throws, finds nothing, or finds a value, which is stored unless the setting has been given
    otherwise. What throws ends it, and what has been stored until then stays stored.

        i ──▶ j ──▶ k ✗
        v     ─         the rest is not reached -/

namespace Schemes

/-- What comes of looking something up. -/
inductive Lookup (α : Type)
  | thrown
  | absent
  | value (v : α)

namespace Lookup
variable {α β : Type}

def isThrown : Lookup α → Bool
  | .thrown => true
  | _ => false

def toOption : Lookup α → Option α
  | .value v => some v
  | _ => none

def map (f : α → β) : Lookup α → Lookup β
  | .thrown => .thrown
  | .absent => .absent
  | .value v => .value (f v)

@[simp] theorem toOption_map (f : α → β) (l : Lookup α) : (l.map f).toOption = l.toOption.map f := by
  cases l <;> rfl

theorem map_id (l : Lookup α) : l.map id = l := by
  cases l <;> rfl

end Lookup

variable {ι : Type} {β : ι → Type} [DecidableEq ι]

/-- The settings are looked up in order. -/
def load (given : ι → Bool) (lookup : ∀ i, Lookup (β i)) : List ι → (∀ i, β i) → (∀ i, β i) × Bool
  | [], c => (c, true)
  | i :: is, c =>
    match lookup i with
    | .thrown => (c, false)
    | .absent => load given lookup is c
    | .value v => load given lookup is (if given i then c else Function.update c i v)

/-- The settings before the first that throws. -/
def untilThrown (lookup : ∀ i, Lookup (β i)) (order : List ι) : List ι :=
  order.takeWhile (fun i => !(lookup i).isThrown)

variable {given : ι → Bool} {lookup : ∀ i, Lookup (β i)}

omit [DecidableEq ι] in
theorem untilThrown_eq_self {order : List ι} (h : ∀ i ∈ order, (lookup i).isThrown = false) :
    untilThrown lookup order = order := by
  refine List.takeWhile_eq_self_iff.mpr fun i hi => ?_
  rw [h i hi]
  rfl

omit [DecidableEq ι] in
theorem mem_of_untilThrown {order : List ι} {i : ι} (h : i ∈ untilThrown lookup order) : i ∈ order :=
  (List.takeWhile_prefix _).subset h

theorem load_append : ∀ (is js : List ι) (c : ∀ i, β i), load given lookup (is ++ js) c =
    if (load given lookup is c).2 then load given lookup js (load given lookup is c).1 else load given lookup is c
  | [], js, c => rfl
  | i :: is, js, c => by
    rw [List.cons_append, load, load]
    cases lookup i with
    | thrown => rfl
    | absent => exact load_append is js c
    | value v => exact load_append is js _

theorem load_absent : ∀ {order : List ι}, (∀ i ∈ order, lookup i = .absent) → ∀ c : (∀ i, β i),
    load given lookup order c = (c, true)
  | [], _, c => rfl
  | i :: is, h, c => by
    obtain ⟨hi, his⟩ := List.forall_mem_cons.mp h
    rw [load, hi]
    exact load_absent his c

/-- It succeeds where nothing throws. -/
theorem load_snd : ∀ (order : List ι) (c : ∀ i, β i),
    (load given lookup order c).2 = true ↔ ∀ i ∈ order, (lookup i).isThrown = false
  | [], c => by simp [load]
  | i :: is, c => by
    rw [load, List.forall_mem_cons]
    cases lookup i with
    | thrown => simp [Lookup.isThrown]
    | absent => simp [Lookup.isThrown, load_snd is c]
    | value v => simp [Lookup.isThrown, load_snd is _]

/-- EACH SETTING: it has the value that was found for it before anything threw. -/
theorem load_apply : ∀ (order : List ι) (c : ∀ i, β i) (i : ι), (load given lookup order c).1 i =
    if i ∈ untilThrown lookup order ∧ given i = false then (lookup i).toOption.getD (c i) else c i
  | [], c, i => by simp [load, untilThrown]
  | j :: js, c, i => by
    have hcons : (lookup j).isThrown = false → untilThrown lookup (j :: js) = j :: untilThrown lookup js := by
      intro h
      rw [untilThrown, List.takeWhile_cons_of_pos (by rw [h]; rfl)]
      rfl
    rw [load]
    cases hj : lookup j with
    | thrown =>
      have hnil : untilThrown lookup (j :: js) = [] := by
        rw [untilThrown, List.takeWhile_cons_of_neg (by rw [hj]; simp [Lookup.isThrown])]
      rw [hnil, if_neg fun h => List.not_mem_nil h.1]
    | absent =>
      rw [load_apply js c i, hcons (by rw [hj]; rfl)]
      simp only [List.mem_cons]
      rcases eq_or_ne i j with rfl | hne
      · simp [hj, Lookup.toOption]
      · simp [hne]
    | value v =>
      rw [load_apply js _ i, hcons (by rw [hj]; rfl)]
      simp only [List.mem_cons]
      rcases eq_or_ne i j with rfl | hne
      · cases hg : given i with
        | false => simp [hj, Lookup.toOption]
        | true => simp
      · have hkeep : (if given j then c else Function.update c j v) i = c i := by
          split
          · rfl
          · exact Function.update_of_ne hne _ _
        simp [hne, hkeep]

/-- Nothing is changed exactly if what has been stored was there already. -/
theorem load_eq_iff (order : List ι) (c : ∀ i, β i) : (load given lookup order c).1 = c ↔
    ∀ i ∈ untilThrown lookup order, given i = false → ∀ v, lookup i = .value v → v = c i := by
  constructor
  · intro h i hi hg v hv
    have hiv := congrFun h i
    rwa [load_apply, if_pos ⟨hi, hg⟩, hv] at hiv
  · intro h
    funext i
    rw [load_apply]
    split
    · rename_i hi
      cases hl : lookup i with
      | value v => exact h i hi.1 hi.2 v hl
      | _ => rfl
    · rfl

end Schemes

import Mathlib.Algebra.BigOperators.Group.List.Basic
import Mathlib.Algebra.Ring.Nat
import OeAware.Schemes.Container

/-! @scheme ledger | name:amounts that are posted and added up

    Amounts are posted to accounts, each under an item. Accounts are put together in groups; what has been posted to
    the groups of a list adds up to all that has been posted, if each of them is there once.

        thread 7 ── 30 ──┐
        thread 8 ── 12 ──┴─▶ process 5 ── 42 ──┐
        thread 9 ──  8 ────▶ process 6 ──  8 ──┴─▶ 50

    A book has an amount for each key, and a key that has not been there starts from zero. -/

namespace Schemes
variable {α ι κ : Type}

structure Posting (α ι : Type) where
  account : α
  item : ι
  amount : ℕ

section

/-- What is posted to the accounts and under the items that are wanted. -/
def posted (wanted : α → Bool) (what : ι → Bool) (ps : List (Posting α ι)) : ℕ :=
  (ps.map (fun p => if wanted p.account && what p.item then p.amount else 0)).sum

variable {wanted : α → Bool} {what : ι → Bool} {ps qs : List (Posting α ι)}

@[simp] theorem posted_nil : posted wanted what ([] : List (Posting α ι)) = 0 := rfl

theorem posted_cons (p : Posting α ι) : posted wanted what (p :: ps) =
    (if wanted p.account && what p.item then p.amount else 0) + posted wanted what ps := by
  rw [posted, List.map_cons, List.sum_cons]
  rfl

theorem posted_append : posted wanted what (ps ++ qs) = posted wanted what ps + posted wanted what qs := by
  rw [posted, List.map_append, List.sum_append]
  rfl

theorem posted_concat (p : Posting α ι) : posted wanted what (ps ++ [p]) =
    posted wanted what ps + if wanted p.account && what p.item then p.amount else 0 := by
  rw [posted_append, posted_cons, posted_nil, Nat.add_zero]

theorem posted_eq_zero (h : ∀ p ∈ ps, wanted p.account = true → what p.item = false) : posted wanted what ps = 0 := by
  refine List.sum_eq_zero fun n hn => ?_
  obtain ⟨p, hp, rfl⟩ := List.mem_map.mp hn
  refine if_neg fun hwant => ?_
  obtain ⟨hw, hi⟩ := Bool.and_eq_true_iff.mp hwant
  exact Bool.false_ne_true ((h p hp hw).symm.trans hi)

theorem posted_congr {wanted' : α → Bool} {what' : ι → Bool}
    (h : ∀ p ∈ ps, (wanted p.account && what p.item) = (wanted' p.account && what' p.item)) :
    posted wanted what ps = posted wanted' what' ps := by
  refine congrArg List.sum (List.map_congr_left fun p hp => ?_)
  rw [h p hp]

/-- What is posted to some accounts and to the others. -/
theorem posted_split (wanted : α → Bool) :
    posted (fun _ => true) what ps = posted wanted what ps + posted (fun a => !wanted a) what ps := by
  unfold posted
  rw [← List.sum_map_add]
  refine congrArg List.sum (List.map_congr_left fun p _ => ?_)
  cases hw : wanted p.account <;> simp [hw]

theorem posted_perm (h : ps.Perm qs) : posted wanted what ps = posted wanted what qs := (h.map _).sum_eq

/-- A list taken group by group, where each of the groups is there once. -/
theorem flatMap_groups_perm [DecidableEq κ] {β : Type} {group : β → κ} : ∀ {keys : List κ} {l : List β}, keys.Nodup →
    (∀ x ∈ l, group x ∈ keys) → (keys.flatMap (fun k => l.filter (fun x => group x = k))).Perm l
  | [], l, _, h => by
    cases l with
    | nil => exact .nil
    | cons x l => exact absurd (h x List.mem_cons_self) List.not_mem_nil
  | k :: keys, l, hkeys, h => by
    obtain ⟨hnot, hnodup⟩ := List.nodup_cons.mp hkeys
    rw [List.flatMap_cons]
    have hrest : keys.flatMap (fun k' => l.filter (fun x => group x = k')) =
        keys.flatMap (fun k' => (l.filter (fun x => !decide (group x = k))).filter (fun x => group x = k')) := by
      refine List.flatMap_congr fun k' hk' => ?_
      rw [List.filter_filter]
      refine List.filter_congr fun x _ => ?_
      rcases eq_or_ne (group x) k' with heq | hne
      · have hne : k' ≠ k := fun he => hnot (he ▸ hk')
        simp [heq, hne]
      · simp [hne]
    have ih := flatMap_groups_perm (l := l.filter (fun x => !decide (group x = k))) hnodup fun x hx => by
      obtain ⟨hmem, hne⟩ := List.mem_filter.mp hx
      exact (List.mem_cons.mp (h x hmem)).resolve_left (by simpa using hne)
    rw [hrest]
    exact (ih.append_left _).trans (List.filter_append_perm _ l)

/-- One key of a list has the amount, the others have nothing. -/
theorem sum_map_single [DecidableEq κ] {k : κ} (n : ℕ) : ∀ {keys : List κ}, keys.Nodup →
    (keys.map (fun k' => if k = k' then n else 0)).sum = if k ∈ keys then n else 0
  | [], _ => rfl
  | k' :: keys, h => by
    obtain ⟨hnot, hnodup⟩ := List.nodup_cons.mp h
    rw [List.map_cons, List.sum_cons, sum_map_single n hnodup]
    rcases eq_or_ne k k' with rfl | hne
    · rw [if_pos rfl, if_neg hnot, if_pos List.mem_cons_self, Nat.add_zero]
    · simp [hne]

/-- ADDED UP: what is posted to each group, over all groups that have accounts. -/
theorem sum_posted_groups [DecidableEq κ] {group : α → κ} {keys : List κ} (hkeys : keys.Nodup) :
    ∀ {ps : List (Posting α ι)}, (∀ p ∈ ps, wanted p.account = true → group p.account ∈ keys) →
    (keys.map (fun k => posted (fun a => wanted a && decide (group a = k)) what ps)).sum = posted wanted what ps
  | [], _ => by
    refine List.sum_eq_zero fun n hn => ?_
    obtain ⟨k, -, rfl⟩ := List.mem_map.mp hn
    rfl
  | p :: ps, h => by
    obtain ⟨hp, hps⟩ := List.forall_mem_cons.mp h
    have hsplit : ∀ k, posted (fun a => wanted a && decide (group a = k)) what (p :: ps) =
        (if group p.account = k then if wanted p.account && what p.item then p.amount else 0 else 0) +
          posted (fun a => wanted a && decide (group a = k)) what ps := by
      intro k
      rw [posted_cons]
      by_cases hk : group p.account = k <;> simp [hk]
    simp only [hsplit]
    rw [List.sum_map_add, sum_map_single _ hkeys, sum_posted_groups hkeys hps, posted_cons]
    by_cases hw : wanted p.account = true
    · rw [if_pos (hp hw)]
    · simp [hw]

end

/-! ### Books -/

namespace UMap
variable [DecidableEq κ]

/-- `m[k] += n`. -/
def credit (m : UMap κ ℕ) (k : κ) (n : ℕ) : UMap κ ℕ := m.insert k (m.value k + n)

/-- What all keys have together. -/
def total (m : UMap κ ℕ) : ℕ := (m.keys.map m.value).sum

/-- Each entry of another book is added. -/
def creditAll (m m' : UMap κ ℕ) : UMap κ ℕ := m'.keys.foldl (fun m k => m.credit k (m'.value k)) m

theorem value_credit (m : UMap κ ℕ) (k k' : κ) (n : ℕ) :
    (m.credit k n).value k' = m.value k' + if k' = k then n else 0 := by
  rw [credit, value_insert]
  rcases eq_or_ne k' k with rfl | hne
  · rw [Function.update_self, if_pos rfl]
  · rw [Function.update_of_ne hne, if_neg hne, Nat.add_zero]

/-- A sum over the values, by their keys. -/
theorem sum_map_values {β : Type} (m : UMap κ β) (f : β → ℕ) :
    (m.values.map f).sum = (m.keys.map (fun k => ((m.find k).map f).getD 0)).sum := by
  unfold values
  induction m.keys with
  | nil => rfl
  | cons k keys ih =>
    rw [List.map_cons, List.sum_cons, ← ih, List.filterMap_cons]
    cases m.find k with
    | none => exact (Nat.zero_add _).symm
    | some v => rfl

theorem value_of_not_mem {m : UMap κ ℕ} {k : κ} (h : k ∉ m.keys) : m.value k = 0 := by
  rw [value, find_eq_none h]
  rfl

theorem sum_credits {f : κ → ℕ} : ∀ {keys : List κ} {m : UMap κ ℕ}, keys.Nodup → ∀ k,
    (keys.foldl (fun m k => m.credit k (f k)) m).value k = m.value k + if k ∈ keys then f k else 0
  | [], m, _, k => by simp
  | k' :: keys, m, h, k => by
    obtain ⟨hnot, hnodup⟩ := List.nodup_cons.mp h
    rw [List.foldl_cons, sum_credits hnodup, value_credit, Nat.add_assoc]
    rcases eq_or_ne k k' with rfl | hne
    · simp [hnot]
    · simp [hne]

theorem value_creditAll (m m' : UMap κ ℕ) (k : κ) : (m.creditAll m').value k = m.value k + m'.value k := by
  rw [creditAll, sum_credits m'.nodup]
  split
  · rfl
  · rename_i hk
    rw [value_of_not_mem hk]

/-- A key has what it has, however many others have been there. -/
theorem total_eq {m : UMap κ ℕ} {keys : List κ} (hkeys : keys.Nodup) (h : ∀ k ∈ m.keys, k ∈ keys) :
    m.total = (keys.map m.value).sum := by
  have hout : keys.Perm (m.keys ++ keys.filter (· ∉ m.keys)) := by
    refine (List.perm_ext_iff_of_nodup hkeys ?_).mpr fun k => ?_
    · refine List.Nodup.append m.nodup (hkeys.filter _) fun k hk hk' => ?_
      exact absurd hk (by simpa using (List.mem_filter.mp hk').2)
    · rw [List.mem_append, List.mem_filter, decide_eq_true_eq]
      exact ⟨fun hk => (em (k ∈ m.keys)).imp_right fun hn => ⟨hk, hn⟩, fun hk => hk.elim (h k) (·.1)⟩
  have hzero : ((keys.filter (· ∉ m.keys)).map m.value).sum = 0 := by
    refine List.sum_eq_zero fun n hn => ?_
    obtain ⟨k, hk, rfl⟩ := List.mem_map.mp hn
    exact value_of_not_mem (by simpa using (List.mem_filter.mp hk).2)
  rw [(hout.map m.value).sum_eq, List.map_append, List.sum_append, hzero, Nat.add_zero]
  rfl

theorem total_credit (m : UMap κ ℕ) (k : κ) (n : ℕ) : (m.credit k n).total = m.total + n := by
  have hmem : k ∈ (m.credit k n).keys := (mem_keys_insert _ _ _ _).mpr (.inl rfl)
  have hsum : (m.credit k n).total =
      ((m.credit k n).keys.map (fun k' => m.value k' + if k = k' then n else 0)).sum := by
    refine congrArg List.sum (List.map_congr_left fun k' _ => ?_)
    rw [value_credit]
    simp only [eq_comm]
  rw [hsum, List.sum_map_add, sum_map_single n (m.credit k n).nodup, if_pos hmem,
    total_eq (m.credit k n).nodup fun k' hk' => (mem_keys_insert _ _ _ _).mpr (.inr hk')]

theorem total_creditAll (m m' : UMap κ ℕ) : (m.creditAll m').total = m.total + m'.total := by
  have hfold : ∀ (keys : List κ) (m : UMap κ ℕ),
      (keys.foldl (fun m k => m.credit k (m'.value k)) m).total = m.total + (keys.map m'.value).sum := by
    intro keys
    induction keys with
    | nil => exact fun m => rfl
    | cons k keys ih =>
      intro m
      rw [List.foldl_cons, ih, total_credit, List.map_cons, List.sum_cons, Nat.add_assoc]
  exact hfold m'.keys m

end UMap

end Schemes

import Mathlib.Data.List.Basic
import Mathlib.Data.List.Nodup
import Mathlib.Data.List.TakeDrop

/-! @scheme shares | name:equal parts of a list, one behind the other

    A list is given out in blocks of one size, from the front. Where `n` is shared among `k`, each gets the quotient,
    and all the blocks lie inside.

        ┌──size──┬──size──┬──size──┬─ rest ─┐
           j = 0    j = 1    j = 2           -/

namespace Schemes

variable {α : Type}

/-- The block with the number `j`. -/
def block (l : List α) (size j : ℕ) : List α := (l.drop (size * j)).take size

variable {l : List α} {size j k : ℕ}

theorem block_subset : block l size j ⊆ l := fun _ hx => List.mem_of_mem_drop (List.mem_of_mem_take hx)

theorem block_nodup (h : l.Nodup) : (block l size j).Nodup :=
  h.sublist ((List.take_sublist _ _).trans (List.drop_sublist _ _))

theorem length_block (h : size * j + size ≤ l.length) : (block l size j).length = size := by
  rw [block, List.length_take, List.length_drop]
  omega

/-- What is in a block stands between its ends. -/
theorem mem_block {x : α} : x ∈ block l size j ↔ ∃ i < size, l[size * j + i]? = some x := by
  simp only [block, List.mem_iff_getElem?, List.getElem?_take, List.getElem?_drop]
  constructor
  · rintro ⟨i, hi⟩
    split at hi
    · exact ⟨i, ‹_›, hi⟩
    · cases hi
  · rintro ⟨i, hi, hx⟩
    exact ⟨i, by rw [if_pos hi, hx]⟩

/-- Blocks with different numbers have nothing in common. -/
theorem disjoint_block (h : l.Nodup) {j' : ℕ} (hj : j ≠ j') : (block l size j).Disjoint (block l size j') := by
  intro x hx hx'
  obtain ⟨i, hi, hget⟩ := mem_block.mp hx
  obtain ⟨i', hi', hget'⟩ := mem_block.mp hx'
  obtain ⟨hlt, hval⟩ := List.getElem?_eq_some_iff.mp hget
  obtain ⟨hlt', hval'⟩ := List.getElem?_eq_some_iff.mp hget'
  have hsame : size * j + i = size * j' + i' := (h.getElem_inj_iff).mp (hval.trans hval'.symm)
  have hdiv : ∀ {j i : ℕ}, i < size → (size * j + i) / size = j := by
    intro j i hi
    rw [Nat.mul_add_div (Nat.zero_lt_of_lt hi), Nat.div_eq_of_lt hi, Nat.add_zero]
  exact hj ((hdiv hi).symm.trans ((congrArg (· / size) hsame).trans (hdiv hi')))

/-- Where `n` is shared among `k`, the `j`-th share lies inside. -/
theorem share_le {n : ℕ} (h : j < k) : n / k * j + n / k ≤ n :=
  calc n / k * j + n / k = n / k * (j + 1) := (Nat.mul_succ _ _).symm
    _ ≤ n / k * k := Nat.mul_le_mul_left _ h
    _ ≤ n := Nat.div_mul_le_self n k

end Schemes

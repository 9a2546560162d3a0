import Mathlib.Algebra.BigOperators.Field
import Mathlib.Algebra.Order.BigOperators.Group.Finset
import Mathlib.Algebra.Order.Field.Rat
import Mathlib.Tactic.Linarith
import Mathlib.Tactic.Ring

/-! @scheme loans | name:members that lend and borrow | invariant:balance

    Each member has an amount of its own. Some lend a part of it, which others share; who has it owes it by
    the lender. A ledger is balanced if everyone has what is its own, less what it has lent, and what it owes,
    and nobody is owed more than it has lent: then all together have no more than what is their own.

        current = initial - lent + owed          Σ current ≤ Σ initial -/

namespace Schemes
open scoped BigOperators

variable {κ : Type}

/-- What each member has of its own, has lent, owes to each other, and has now. -/
structure Ledger (κ : Type) where
  initial : κ → ℚ
  lent : κ → ℚ
  owed : κ → κ → ℚ
  current : κ → ℚ

namespace Ledger

/-- What is owed is lent, and lenders are members. -/
structure Balanced (b : Ledger κ) (members : Finset κ) : Prop where
  limit : ∀ d ∈ members, b.current d = b.initial d - b.lent d + ∑ l ∈ members, b.owed d l
  nonneg : ∀ d ∈ members, ∀ l, 0 ≤ b.owed d l
  covered : ∀ l ∈ members, ∑ d ∈ members, b.owed d l ≤ b.lent l

variable {b b' : Ledger κ} {members members' : Finset κ}

/-- Nobody has more from the loans but what others have less. -/
theorem Balanced.total_le (h : b.Balanced members) :
    ∑ d ∈ members, b.current d ≤ ∑ d ∈ members, b.initial d := by
  have howed : ∑ d ∈ members, ∑ l ∈ members, b.owed d l ≤ ∑ l ∈ members, b.lent l := by
    rw [Finset.sum_comm]
    exact Finset.sum_le_sum h.covered
  calc ∑ d ∈ members, b.current d
      = ∑ d ∈ members, (b.initial d - b.lent d + ∑ l ∈ members, b.owed d l) :=
        Finset.sum_congr rfl h.limit
    _ = ∑ d ∈ members, b.initial d - ∑ d ∈ members, b.lent d +
          ∑ d ∈ members, ∑ l ∈ members, b.owed d l := by
        rw [Finset.sum_add_distrib, Finset.sum_sub_distrib]
    _ ≤ ∑ d ∈ members, b.initial d := by linarith

/-- Members leave who are not owed anything by those who stay. -/
theorem Balanced.leave (h : b.Balanced members) (hsub : members' ⊆ members)
    (hfree : ∀ d ∈ members', ∀ l ∈ members, l ∉ members' → b.owed d l = 0) : b.Balanced members' where
  limit d hd := by
    rw [h.limit d (hsub hd), Finset.sum_subset hsub (hfree d hd)]
  nonneg d hd := h.nonneg d (hsub hd)
  covered l hl := (Finset.sum_le_sum_of_subset_of_nonneg hsub (fun d hd _ => h.nonneg d hd l)).trans
    (h.covered l (hsub hl))

/-- Nothing of it changes for the members. -/
theorem Balanced.congr (h : b.Balanced members) (hinit : ∀ d ∈ members, b'.initial d = b.initial d)
    (hlent : ∀ d ∈ members, b'.lent d = b.lent d) (howed : ∀ d ∈ members, ∀ l, b'.owed d l = b.owed d l)
    (hcur : ∀ d ∈ members, b'.current d = b.current d) : b'.Balanced members where
  limit d hd := by
    rw [hcur d hd, hinit d hd, hlent d hd, h.limit d hd, Finset.sum_congr rfl (fun l _ => howed d hd l)]
  nonneg d hd l := by
    rw [howed d hd]
    exact h.nonneg d hd l
  covered l hl := by
    rw [hlent l hl, Finset.sum_congr rfl (fun d hd => howed d hd l)]
    exact h.covered l hl

section
variable [DecidableEq κ]

/-- One joins whom nobody owes anything, and who has what is its own. -/
theorem Balanced.join (h : b.Balanced members) {x : κ} (hx : x ∉ members)
    (hcur : b.current x = b.initial x) (hlent : b.lent x = 0) (howes : ∀ l, b.owed x l = 0)
    (howed : ∀ d, b.owed d x = 0) : b.Balanced (insert x members) where
  limit d hd := by
    rw [Finset.sum_insert hx, howed, zero_add]
    rcases Finset.mem_insert.mp hd with rfl | hd
    · rw [hcur, hlent, sub_zero, Finset.sum_eq_zero (fun l _ => howes l), add_zero]
    · exact h.limit d hd
  nonneg d hd l := by
    rcases Finset.mem_insert.mp hd with rfl | hd
    · rw [howes]
    · exact h.nonneg d hd l
  covered l hl := by
    rw [Finset.sum_insert hx, howes, zero_add]
    rcases Finset.mem_insert.mp hl with rfl | hl
    · rw [hlent, Finset.sum_eq_zero (fun d _ => howed d)]
    · exact h.covered l hl

/-- Some lend so much each, and the borrowers have an equal share of it. -/
def lend (b : Ledger κ) (lenders borrowers : Finset κ) (offer : κ → ℚ) : Ledger κ where
  initial := b.initial
  lent l := b.lent l + if l ∈ lenders then offer l else 0
  owed d l := b.owed d l + if d ∈ borrowers ∧ l ∈ lenders then offer l / borrowers.card else 0
  current d := b.current d + (if d ∈ borrowers then (∑ l ∈ lenders, offer l) / borrowers.card else 0) -
    if d ∈ lenders then offer d else 0

theorem Balanced.lend (h : b.Balanced members) {lenders borrowers : Finset κ} {offer : κ → ℚ}
    (hl : lenders ⊆ members) (hb : borrowers ⊆ members) (hne : borrowers.Nonempty)
    (hoffer : ∀ l ∈ lenders, 0 ≤ offer l) : (b.lend lenders borrowers offer).Balanced members where
  limit d hd := by
    have hsum : ∑ l ∈ members, (if d ∈ borrowers ∧ l ∈ lenders then offer l / borrowers.card else 0) =
        if d ∈ borrowers then (∑ l ∈ lenders, offer l) / borrowers.card else 0 := by
      split
      · rename_i hd
        simp only [hd, true_and]
        rw [Finset.sum_ite_mem, Finset.inter_eq_right.mpr hl, Finset.sum_div]
      · rename_i hd
        simp only [hd, false_and, if_false, Finset.sum_const_zero]
    simp only [Ledger.lend]
    rw [h.limit d hd, Finset.sum_add_distrib, hsum]
    ring
  nonneg d hd l := by
    have hshare : 0 ≤ if d ∈ borrowers ∧ l ∈ lenders then offer l / borrowers.card else 0 := by
      split
      · rename_i hdl
        exact div_nonneg (hoffer l hdl.2) (Nat.cast_nonneg _)
      · exact le_refl _
    exact add_nonneg (h.nonneg d hd l) hshare
  covered l hl := by
    have hcard : (borrowers.card : ℚ) ≠ 0 := by exact_mod_cast hne.card_pos.ne'
    have hsum : ∑ d ∈ members, (if d ∈ borrowers ∧ l ∈ lenders then offer l / borrowers.card else 0) =
        if l ∈ lenders then offer l else 0 := by
      split
      · rename_i hl
        simp only [hl, and_true]
        rw [Finset.sum_ite_mem, Finset.inter_eq_right.mpr hb, Finset.sum_const, nsmul_eq_mul,
          mul_div_cancel₀ _ hcard]
      · rename_i hl
        simp only [hl, and_false, if_false, Finset.sum_const_zero]
    simp only [Ledger.lend]
    rw [Finset.sum_add_distrib, hsum]
    exact add_le_add (h.covered l hl) (le_refl _)

/-- Some have back what they have lent. -/
def repay (b : Ledger κ) (lenders : Finset κ) : Ledger κ where
  initial := b.initial
  lent l := if l ∈ lenders then 0 else b.lent l
  owed d l := if l ∈ lenders then 0 else b.owed d l
  current d := b.current d + (if d ∈ lenders then b.lent d else 0) - ∑ l ∈ lenders, b.owed d l

theorem Balanced.repay (h : b.Balanced members) {lenders : Finset κ} (hl : lenders ⊆ members) :
    (b.repay lenders).Balanced members where
  limit d hd := by
    have hsum : ∑ l ∈ members, (if l ∈ lenders then 0 else b.owed d l) =
        ∑ l ∈ members, b.owed d l - ∑ l ∈ lenders, b.owed d l := by
      have hsplit : ∀ l ∈ members, (if l ∈ lenders then 0 else b.owed d l) =
          b.owed d l - if l ∈ lenders then b.owed d l else 0 := by
        intro l _
        split <;> ring
      rw [Finset.sum_congr rfl hsplit, Finset.sum_sub_distrib, Finset.sum_ite_mem,
        Finset.inter_eq_right.mpr hl]
    simp only [Ledger.repay]
    rw [h.limit d hd, hsum]
    split <;> ring
  nonneg d hd l := by
    simp only [Ledger.repay]
    split
    · exact le_refl _
    · exact h.nonneg d hd l
  covered l hl := by
    simp only [Ledger.repay]
    split
    · rw [Finset.sum_const_zero]
    · exact h.covered l hl

end

end Ledger
end Schemes

import Mathlib.Data.List.Sort
import Mathlib.Data.List.Count

/-! @scheme timed-queue | name:priority queue keyed by a due time | models:std::priority_queue

    A priority queue is the list of its entries in the order in which they are popped. Whatever else
    breaks ties, entries leave by due time; `Pushed` is all that a later proof may use of a push. -/

namespace Schemes
variable {α : Type} (due : α → ℕ)

/-- Entries leave in the order of their due times. -/
def InTime (l : List α) : Prop := l.Pairwise (fun a b => due a ≤ due b)

/-- `l'` is `l` with `e` pushed. -/
structure Pushed (e : α) (l l' : List α) : Prop where
  perm : l'.Perm (e :: l)
  inTime : InTime due l → InTime due l'

variable {due}

theorem inTime_nil : InTime due [] := List.Pairwise.nil

theorem InTime.tail {e : α} {l : List α} (h : InTime due (e :: l)) : InTime due l :=
  (List.pairwise_cons.mp h).2

/-- Nothing is due before the head. -/
theorem InTime.head_le {e a : α} {l : List α} (h : InTime due (e :: l)) (ha : a ∈ e :: l) :
    due e ≤ due a := by
  rcases List.mem_cons.mp ha with rfl | ha
  · exact Nat.le_refl _
  · exact (List.pairwise_cons.mp h).1 a ha

theorem Pushed.mem {e a : α} {l l' : List α} (h : Pushed due e l l') :
    a ∈ l' ↔ a = e ∨ a ∈ l := by rw [h.perm.mem_iff, List.mem_cons]

/-- Insertion in any order that refines due times is a push. -/
theorem pushed_orderedInsert (r : α → α → Prop) [DecidableRel r]
    (hr : ∀ a b, r a b → due a ≤ due b) (hn : ∀ a b, ¬ r a b → due b ≤ due a) (e : α) :
    ∀ l : List α, Pushed due e l (l.orderedInsert r e)
  | [] => ⟨by simp, fun _ => by simp [InTime]⟩
  | b :: l => by
    refine ⟨List.perm_orderedInsert r e (b :: l), fun h => ?_⟩
    rw [List.orderedInsert]
    split
    · rename_i hb
      refine List.pairwise_cons.mpr ⟨fun a ha => ?_, h⟩
      exact Nat.le_trans (hr e b hb) (h.head_le ha)
    · rename_i hb
      have ih := pushed_orderedInsert r hr hn e l
      refine List.pairwise_cons.mpr ⟨fun a ha => ?_, ih.inTime h.tail⟩
      rcases ih.mem.mp ha with rfl | ha
      · exact hn a b hb
      · exact h.head_le (List.mem_cons_of_mem _ ha)

end Schemes

import Mathlib.Data.List.DropRight
import Mathlib.Data.List.Nodup

/-! @scheme pool | name:a pool of resources | invariant:partition

    A pool is a list of free resources and a list of those in use. It is `Parts` of a whole if the two
    together are the whole, each resource once. Taking some that are free and giving back some that
    are in use keeps it so.

        free ── take ──▶ occupied ── give back ──▶ free -/

namespace Schemes
open scoped List

variable {α : Type} {all free occupied : List α}

/-- The free resources and the occupied ones are together the whole. -/
def Parts (all free occupied : List α) : Prop := (free ++ occupied).Perm all

/-- What is left out of a list, and what is left of it. -/
theorem perm_filter_append {l xs : List α} (p : α → Bool) (hl : l.Nodup) (hxs : xs.Nodup) (hsub : xs ⊆ l)
    (hp : ∀ x ∈ l, p x = true ↔ x ∉ xs) : l.Perm (l.filter p ++ xs) := by
  have hout : xs.Perm (l.filter (fun x => !p x)) := by
    refine (List.perm_ext_iff_of_nodup hxs (hl.filter _)).mpr (fun x => ?_)
    rw [List.mem_filter, Bool.not_eq_true']
    constructor
    · intro hx
      exact ⟨hsub hx, Bool.eq_false_iff.mpr (fun h => (hp x (hsub hx)).mp h hx)⟩
    · rintro ⟨hx, h⟩
      by_contra hnot
      rw [(hp x hx).mpr hnot] at h
      cases h
  calc l
      _ ~ l.filter p ++ l.filter (fun x => !p x) := (List.filter_append_perm p l).symm
      _ ~ l.filter p ++ xs := hout.symm.append_left _

namespace Parts

theorem nodup (h : Parts all free occupied) (hall : all.Nodup) : (free ++ occupied).Nodup :=
  h.nodup_iff.mpr hall

theorem mem_all (h : Parts all free occupied) {x : α} : x ∈ all ↔ x ∈ free ∨ x ∈ occupied := by
  rw [← h.mem_iff, List.mem_append]

theorem disjoint (h : Parts all free occupied) (hall : all.Nodup) {x : α} (hx : x ∈ free) :
    x ∉ occupied :=
  fun hx' => List.disjoint_of_nodup_append (h.nodup hall) hx hx'

theorem takeAll (h : Parts all free occupied) : Parts all [] (occupied ++ free) := by
  rw [Parts, List.nil_append]
  exact List.perm_append_comm.trans h

/-- Some that are free are taken; the others are found by what they are not among. -/
theorem take [DecidableEq α] (h : Parts all free occupied) (hall : all.Nodup) {xs ys : List α}
    (hxs : xs.Nodup) (hfree : ∀ x ∈ xs, x ∈ free) (hys : ∀ x ∈ free, x ∈ ys ↔ x ∈ xs) :
    Parts all (free.filter (· ∉ ys)) (occupied ++ xs) := by
  have hsplit := perm_filter_append (fun x => decide (x ∉ ys)) (h.nodup hall).of_append_left hxs hfree
    (fun x hx => by simpa using not_congr (hys x hx))
  calc free.filter (· ∉ ys) ++ (occupied ++ xs)
      _ ~ free.filter (· ∉ ys) ++ (xs ++ occupied) := List.perm_append_comm.append_left _
      _ ~ free ++ occupied := by
        rw [← List.append_assoc]
        exact hsplit.symm.append_right _
      _ ~ all := h

/-- The last ones that were taken are given back. -/
theorem giveBack (h : Parts all free occupied) (n : ℕ) :
    Parts all (free ++ (occupied.rtake n).reverse) (occupied.rdrop n) := by
  have hsplit : occupied = occupied.rdrop n ++ occupied.rtake n := by
    rw [List.rdrop, List.rtake, List.take_append_drop]
  calc free ++ (occupied.rtake n).reverse ++ occupied.rdrop n
      _ ~ free ++ ((occupied.rtake n).reverse ++ occupied.rdrop n) := by rw [List.append_assoc]
      _ ~ free ++ (occupied.rdrop n ++ (occupied.rtake n).reverse) :=
        List.perm_append_comm.append_left _
      _ ~ free ++ (occupied.rdrop n ++ occupied.rtake n) :=
        ((List.reverse_perm _).append_left _).append_left _
      _ ~ free ++ occupied := by rw [← hsplit]
      _ ~ all := h

/-- One of those in use is given back. -/
theorem release [DecidableEq α] (h : Parts all free occupied) (hall : all.Nodup) {x : α}
    (hx : x ∈ occupied) : Parts all (free ++ [x]) (occupied.filter (· ≠ x)) := by
  have hsplit := perm_filter_append (fun y => decide (y ≠ x)) (h.nodup hall).of_append_right
    (List.nodup_singleton x) (by simpa using hx) (fun y _ => by simp)
  calc free ++ [x] ++ occupied.filter (· ≠ x)
      _ ~ free ++ (occupied.filter (· ≠ x) ++ [x]) := by
        rw [List.append_assoc]
        exact List.perm_append_comm.append_left _
      _ ~ free ++ occupied := hsplit.symm.append_left _
      _ ~ all := h

end Parts

/-! ### Several pools -/

/-- Resources go from one side of some pools to the other, `xs i` in pool `i`. -/
structure Moves {ι : Type*} (src src' dst dst' xs : ι → List α) : Prop where
  src : ∀ i, (src i).Perm (src' i ++ xs i)
  dst : ∀ i, (dst' i).Perm (dst i ++ xs i)

namespace Moves
variable {ι : Type*} {src src' src'' dst dst' dst'' xs ys : ι → List α}

theorem refl (src dst : ι → List α) : Moves src src dst dst (fun _ => []) where
  src i := by rw [List.append_nil]
  dst i := by rw [List.append_nil]

theorem trans (h : Moves src src' dst dst' xs) (h' : Moves src' src'' dst' dst'' ys) :
    Moves src src'' dst dst'' (fun i => xs i ++ ys i) where
  src i := by
    calc src i
        _ ~ src' i ++ xs i := h.src i
        _ ~ src'' i ++ ys i ++ xs i := (h'.src i).append_right _
        _ ~ src'' i ++ (xs i ++ ys i) := by
          rw [List.append_assoc]
          exact List.perm_append_comm.append_left _
  dst i := by
    calc dst'' i
        _ ~ dst' i ++ ys i := h'.dst i
        _ ~ dst i ++ xs i ++ ys i := (h.dst i).append_right _
        _ ~ dst i ++ (xs i ++ ys i) := by rw [List.append_assoc]

theorem symm (h : Moves src src' dst dst' xs) : Moves dst' dst src' src xs := ⟨h.dst, h.src⟩

/-- A whole is kept. -/
theorem parts (h : Moves src src' dst dst' xs) {i : ι} {all : List α} (hp : Parts all (src i) (dst i)) :
    Parts all (src' i) (dst' i) := by
  calc src' i ++ dst' i
      _ ~ src' i ++ (dst i ++ xs i) := (h.dst i).append_left _
      _ ~ src' i ++ (xs i ++ dst i) := List.perm_append_comm.append_left _
      _ ~ src i ++ dst i := by
        rw [← List.append_assoc]
        exact (h.src i).symm.append_right _
      _ ~ all := hp

theorem mem_src (h : Moves src src' dst dst' xs) {i : ι} {x : α} :
    x ∈ src i ↔ x ∈ src' i ∨ x ∈ xs i := by
  rw [(h.src i).mem_iff, List.mem_append]

theorem mem_dst (h : Moves src src' dst dst' xs) {i : ι} {x : α} :
    x ∈ dst' i ↔ x ∈ dst i ∨ x ∈ xs i := by
  rw [(h.dst i).mem_iff, List.mem_append]

theorem nodup (h : Moves src src' dst dst' xs) {i : ι} (hnd : (src i).Nodup) : (xs i).Nodup :=
  ((h.src i).nodup_iff.mp hnd).of_append_right

theorem not_mem (h : Moves src src' dst dst' xs) {i : ι} (hnd : (src i).Nodup) {x : α}
    (hx : x ∈ xs i) : x ∉ src' i :=
  fun hx' => List.disjoint_of_nodup_append ((h.src i).nodup_iff.mp hnd) hx' hx

end Moves

theorem Parts.symm (h : Parts all free occupied) : Parts all occupied free :=
  List.perm_append_comm.trans h

end Schemes

import Mathlib.Data.List.Forall2
import Mathlib.Order.Basic
import Mathlib.Order.Lattice

/-! @scheme two-pointers | name:a windowed join of two traces

    For each event of one trace, the first entry of the other one that is not before it is sought, and of
    the next `win` entries the first with its key. As both are in the order of time, the search goes on where
    it ended for the event before; if it finds nothing it stays there.

        events    ───●──────────●─────────●──▶
        entries   ──────[● ● ●]────[● ● ●]   ?            [ ] the window of an event -/

namespace Schemes

namespace Windows
variable {α β τ κ : Type*} [LinearOrder τ] [DecidableEq κ] (time : α → τ) (time' : β → τ) (key : α → κ)
  (key' : β → κ) (win : ℕ)

/-- The first entry from `i` on that is not before the event. -/
def firstFrom (entries : List β) (i : ℕ) (q : α) : Option ℕ :=
  ((entries.drop i).findIdx? (fun t => decide (time q ≤ time' t))).map (i + ·)

/-- The first entry of the window at `i` that has the key of the event. -/
def search (entries : List β) (i : ℕ) (q : α) : Option β :=
  ((entries.drop i).take win).find? (fun t => decide (key q = key' t))

/-- The scan: what each event is joined with. -/
def scan (entries : List β) : List α → ℕ → ℕ → List (Option β)
  | [], _, _ => []
  | q :: qs, i, next =>
    let next := (firstFrom time time' entries i q).getD next
    let i := next
    search key key' win entries i q :: scan entries qs i next

/-- Where the window of an event is; after the last entry if all are before it. -/
def start (entries : List β) (q : α) : ℕ := entries.findIdx (fun t => decide (time q ≤ time' t))

/-- What an event is to be joined with. -/
def first (entries : List β) (q : α) : Option β := search key key' win entries (start time time' entries q) q

/-- All entries are before the event. -/
def Late (entries : List β) (q : α) : Prop := ∀ t ∈ entries, time' t < time q

instance (entries : List β) (q : α) : Decidable (Late time time' entries q) :=
  inferInstanceAs (Decidable (∀ t ∈ entries, time' t < time q))

/-- Where the last event was found that is not late; `i` if all are. -/
def lastStart (entries : List β) (events : List α) (i : ℕ) : ℕ :=
  (((events.filter (fun q => decide (¬ Late time time' entries q))).getLast?).map
    (start time time' entries)).getD i

variable {time time' key key' win} {entries : List β}

theorem firstFrom_of_late {q : α} (h : Late time time' entries q) (i : ℕ) :
    firstFrom time time' entries i q = none := by
  unfold firstFrom
  rw [Option.map_eq_none_iff, List.findIdx?_eq_none_iff]
  intro t ht
  exact decide_eq_false (not_le.mpr (h t (List.mem_of_mem_drop ht)))

theorem start_lt_of_not_late {q : α} (h : ¬ Late time time' entries q) :
    start time time' entries q < entries.length := by
  unfold Late at h
  push Not at h
  obtain ⟨t, ht, hle⟩ := h
  exact List.findIdx_lt_length_of_exists ⟨t, ht, decide_eq_true hle⟩

/-- From any place that is not too far, the search finds the window. -/
theorem firstFrom_of_le {q : α} (h : ¬ Late time time' entries q) {i : ℕ}
    (hi : i ≤ start time time' entries q) :
    firstFrom time time' entries i q = some (start time time' entries q) := by
  have hlt := start_lt_of_not_late h
  have hsome : (entries.drop i).findIdx? (fun t => decide (time q ≤ time' t)) =
      some (start time time' entries q - i) := by
    rw [List.findIdx?_eq_some_iff_getElem]
    refine ⟨by rw [List.length_drop]; omega, ?_, fun j hj => ?_⟩
    · have hget := @List.findIdx_getElem _ (fun t => decide (time q ≤ time' t)) entries hlt
      simp only [List.getElem_drop, Nat.add_sub_cancel' hi]
      exact hget
    · simp only [List.getElem_drop]
      have hnot := @List.not_of_lt_findIdx _ (fun t => decide (time q ≤ time' t)) entries (i + j)
        (by unfold start at hj; omega)
      simpa using hnot
  rw [firstFrom, hsome, Option.map_some, Nat.add_sub_cancel' hi]

theorem start_mono {q q' : α} (h : time q ≤ time q') :
    start time time' entries q ≤ start time time' entries q' := by
  refine List.findIdx_le_findIdx (fun t _ ht => ?_)
  exact decide_eq_true (h.trans (of_decide_eq_true ht))

theorem late_mono {q q' : α} (h : time q ≤ time q') (hl : Late time time' entries q) :
    Late time time' entries q' :=
  fun t ht => (hl t ht).trans_le h

theorem first_of_late {q : α} (h : Late time time' entries q) :
    first time time' key key' win entries q = none := by
  have hstart : start time time' entries q = entries.length := by
    refine List.findIdx_eq_length.mpr (fun t ht => ?_)
    exact decide_eq_false (not_le.mpr (h t ht))
  rw [first, search, hstart, List.drop_length, List.take_nil, List.find?_nil]

/-- What an event is to be joined with is not before it. -/
theorem time_le_of_first (ht : entries.Pairwise (fun t t' => time' t ≤ time' t')) {q : α} {t : β}
    (h : first time time' key key' win entries q = some t) : time q ≤ time' t := by
  have hmem := List.mem_of_mem_take (List.mem_of_find?_eq_some h)
  obtain ⟨j, hj, rfl⟩ := List.mem_iff_getElem.mp hmem
  rw [List.length_drop] at hj
  have hlt : start time time' entries q < entries.length := by omega
  have hstart : time q ≤ time' entries[start time time' entries q] :=
    of_decide_eq_true (@List.findIdx_getElem _ (fun t => decide (time q ≤ time' t)) entries hlt)
  rw [List.getElem_drop]
  rcases Nat.eq_zero_or_pos j with rfl | hj0
  · exact hstart
  · exact hstart.trans (List.pairwise_iff_getElem.mp ht _ _ hlt (by omega) (by omega))

/-- The scan joins each event with what it is to be joined with if and only if, of the late events, none has
    its key in the window at which the search has come to a stop. -/
theorem scan_eq_iff : ∀ {events : List α} {i : ℕ}, events.Pairwise (fun q q' => time q ≤ time q') →
    (∀ q ∈ events, ¬ Late time time' entries q → i ≤ start time time' entries q) →
    (scan time time' key key' win entries events i i = events.map (first time time' key key' win entries) ↔
      ∀ q ∈ events, Late time time' entries q →
        search key key' win entries (lastStart time time' entries events i) q = none)
  | [], i, _, _ => by simp [scan]
  | q :: qs, i, hq, hi => by
    obtain ⟨hle, hqs⟩ := List.pairwise_cons.mp hq
    obtain ⟨hi1, hi⟩ := List.forall_mem_cons.mp hi
    rw [scan, List.map_cons, List.cons.injEq, List.forall_mem_cons]
    by_cases hl : Late time time' entries q
    · have hall : ∀ q' ∈ qs, Late time time' entries q' := fun q' hq' => late_mono (hle q' hq') hl
      have hlast : lastStart time time' entries (q :: qs) i = i := by
        unfold lastStart
        rw [List.filter_eq_nil_iff.mpr]
        · rfl
        · intro x hx
          rcases List.mem_cons.mp hx with rfl | hx
          · simpa using hl
          · simpa using hall x hx
      have hlast' : lastStart time time' entries qs i = i := by
        unfold lastStart
        rw [List.filter_eq_nil_iff.mpr]
        · rfl
        · intro x hx
          simpa using hall x hx
      rw [firstFrom_of_late hl, Option.getD_none, first_of_late hl, scan_eq_iff hqs hi, hlast, hlast']
      exact and_congr_left (fun _ => ⟨fun h _ => h, fun h => h hl⟩)
    · have hnext : ∀ q' ∈ qs, ¬ Late time time' entries q' →
          start time time' entries q ≤ start time time' entries q' :=
        fun q' hq' _ => start_mono (hle q' hq')
      have hlast : lastStart time time' entries (q :: qs) i =
          lastStart time time' entries qs (start time time' entries q) := by
        unfold lastStart
        rw [List.filter_cons_of_pos (by simpa using hl)]
        cases hf : qs.filter (fun q => decide (¬ Late time time' entries q)) with
        | nil => rfl
        | cons x xs => rw [List.getLast?_cons_cons, List.getLast?_cons]; rfl
      rw [firstFrom_of_le hl (hi1 hl), Option.getD_some, scan_eq_iff hqs hnext, hlast]
      exact ⟨fun h => ⟨fun h' => absurd h' hl, h.2⟩, fun h => ⟨rfl, h.2⟩⟩

/-- Each event is joined with the first entry of its key in its window, which is not before it. -/
structure Joined (time : α → τ) (time' : β → τ) (key : α → κ) (key' : β → κ) (win : ℕ) (events : List α)
    (entries : List β) (joined : List (Option β)) : Prop where
  eq : joined = events.map (first time time' key key' win entries)
  not_before : List.Forall₂ (fun q r => ∀ t ∈ r, time q ≤ time' t) events joined

theorem joined_iff {events : List α} (ht : entries.Pairwise (fun t t' => time' t ≤ time' t'))
    (hq : events.Pairwise (fun q q' => time q ≤ time q')) :
    Joined time time' key key' win events entries (scan time time' key key' win entries events 0 0) ↔
      ∀ q ∈ events, Late time time' entries q →
        search key key' win entries (lastStart time time' entries events 0) q = none := by
  rw [← scan_eq_iff hq (fun _ _ _ => Nat.zero_le _)]
  refine ⟨fun h => h.eq, fun h => ⟨h, ?_⟩⟩
  rw [h, List.forall₂_map_right_iff, List.forall₂_same]
  exact fun q _ t hfirst => time_le_of_first ht hfirst

end Windows
end Schemes

import Mathlib.Data.List.Range
import Mathlib.Data.Nat.Basic

/-! @scheme cadence | name:a task that comes round every period

    The times `first, first + period, first + 2 * period, ...` as far as they lie before the clock. A task that
    was due at `first` and is given a new entry a period after each run has run at exactly these, as long as the
    clock stops at its entry. -/

namespace Schemes

/-- `t` is one of `first, first + period, ...`. -/
def OnBeat (first period t : ℕ) : Prop := first ≤ t ∧ period ∣ t - first

instance (first period t : ℕ) : Decidable (OnBeat first period t) :=
  inferInstanceAs (Decidable (_ ∧ _))

/-- The beats before `t`, the latest first. -/
def beats (first period t : ℕ) : List ℕ :=
  ((List.range t).filter (fun x => OnBeat first period x)).reverse

variable {first period t t' d : ℕ}

theorem onBeat_first : OnBeat first period first :=
  ⟨Nat.le_refl first, by rw [Nat.sub_self]; exact Nat.dvd_zero period⟩

theorem OnBeat.next (h : OnBeat first period d) : OnBeat first period (d + period) := by
  obtain ⟨hle, hdvd⟩ := h
  refine ⟨Nat.le_add_right_of_le hle, ?_⟩
  rw [Nat.sub_add_comm hle]
  exact Nat.dvd_add hdvd (Nat.dvd_refl period)

/-- Between two beats lies a period at least. -/
theorem OnBeat.add_le (h : OnBeat first period t) (hd : OnBeat first period d) (hlt : t < d) :
    t + period ≤ d := by
  have hsub : d - first - (t - first) = d - t := by
    have := h.1
    omega
  have hdvd : period ∣ d - t := hsub ▸ Nat.dvd_sub hd.2 h.2
  have := Nat.le_of_dvd (by omega) hdvd
  omega

theorem beats_succ : beats first period (t + 1) =
    if OnBeat first period t then t :: beats first period t else beats first period t := by
  rw [beats, List.range_succ, List.filter_append, List.reverse_append]
  by_cases h : OnBeat first period t
  · simp [h, beats]
  · simp [h, beats]

theorem beats_first : beats first period first = [] := by
  rw [beats, List.reverse_eq_nil_iff, List.filter_eq_nil_iff]
  intro x hx hbeat
  have hlt := List.mem_range.mp hx
  have hle := (of_decide_eq_true hbeat).1
  omega

/-- Time in which there is no beat adds none. -/
theorem beats_eq_of_gap (hle : t ≤ t') (h : ∀ x, t ≤ x → x < t' → ¬ OnBeat first period x) :
    beats first period t' = beats first period t := by
  induction t', hle using Nat.le_induction with
  | base => rfl
  | succ n hn ih =>
    rw [beats_succ, if_neg (h n hn (Nat.lt_succ_self n))]
    exact ih (fun x hx hxn => h x hx (Nat.lt_succ_of_lt hxn))

/-- Up to the next beat there is only the one at `d`. -/
theorem beats_next (hd : OnBeat first period d) (hpos : 0 < period) :
    beats first period (d + period) = d :: beats first period d := by
  have hgap : beats first period (d + period) = beats first period (d + 1) := by
    refine beats_eq_of_gap (Nat.add_le_add_left hpos d) (fun x hx hlt hbeat => ?_)
    have := hd.add_le hbeat hx
    omega
  rw [hgap, beats_succ, if_pos hd]

/-- If the clock has passed every beat before `d`, those are the beats before the clock. -/
theorem beats_eq_of_next (hd : OnBeat first period d) (hle : t ≤ d)
    (hlast : d = first ∨ d < t + period) : beats first period d = beats first period t := by
  refine beats_eq_of_gap hle (fun x hx hlt hbeat => ?_)
  rcases hlast with rfl | hlast
  · exact absurd hbeat.1 (Nat.not_le_of_lt hlt)
  · have := hbeat.add_le hd hlt
    omega

end Schemes

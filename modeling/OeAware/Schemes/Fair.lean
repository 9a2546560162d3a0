import Mathlib.Order.WellFounded
import OeAware.Schemes.Run

/-! @scheme fair | name:what must happen in an unending run

    A trace is a run that never ends. It is fair to the given turns when each of them comes up again and
    again; a thread that has nothing to do lets its turn pass. `leadsTo` is the one rule: while the goal
    is not reached, no step raises the rank, and the turn of the thread whose move it is lowers it.

        P ──▶ P ──▶ P ──▶ … ──▶ Q
        r  ≥  r  ≥  r      >  the turn of `whose s` comes up -/

namespace Schemes
variable {σ α ε κ : Type}

/-- A run without end. -/
structure Trace (step : σ → α → Except ε σ) (init : σ) (ok : σ → α → Prop) where
  state : ℕ → σ
  act : ℕ → α
  start : state 0 = init
  admitted : ∀ i, ok (state i) (act i)
  next : ∀ i, step (state i) (act i) = .ok (state (i + 1))

namespace Trace
variable {step : σ → α → Except ε σ} {init : σ} {ok : σ → α → Prop} (tr : Trace step init ok)

/-- Every turn comes up again and again. -/
def Fair (turn : α → Option κ) : Prop := ∀ k i, ∃ j, i ≤ j ∧ turn (tr.act j) = some k

/-- Every state of a trace is reached by a run. -/
theorem runs (i : ℕ) : Runs step init ok (tr.state i) := by
  induction i with
  | zero => rw [tr.start]; exact .start
  | succ i ih => exact .next ih (tr.admitted i) (tr.next i)

variable {W : Type} [PartialOrder W] {turn : α → Option κ} {whose : σ → κ} {rank : σ → W}
  {P Q : σ → Prop}

/-- As long as the goal is not reached, either the rank has dropped or it is still the same one's
    move. -/
theorem walk (hstep : ∀ s a s', Runs step init ok s → P s → ok s a → step s a = .ok s' →
      Q s' ∨ (P s' ∧ (rank s' < rank s ∨ (rank s' = rank s ∧ whose s' = whose s)))) {i : ℕ}
    (h : P (tr.state i)) (n : ℕ) : (∃ j, i ≤ j ∧ Q (tr.state j)) ∨
      (∃ j, i ≤ j ∧ P (tr.state j) ∧ rank (tr.state j) < rank (tr.state i)) ∨
      (P (tr.state (i + n)) ∧ rank (tr.state (i + n)) = rank (tr.state i) ∧
        whose (tr.state (i + n)) = whose (tr.state i)) := by
  induction n with
  | zero => exact Or.inr (Or.inr ⟨h, rfl, rfl⟩)
  | succ n ih =>
    rcases ih with hq | hlt | ⟨hp, hr, hw⟩
    · exact Or.inl hq
    · exact Or.inr (Or.inl hlt)
    · rcases hstep _ _ _ (tr.runs _) hp (tr.admitted _) (tr.next _) with hq | ⟨hp', hlt | ⟨hr', hw'⟩⟩
      · exact Or.inl ⟨i + n + 1, by omega, hq⟩
      · exact Or.inr (Or.inl ⟨i + n + 1, by omega, hp', hr ▸ hlt⟩)
      · exact Or.inr (Or.inr ⟨hp', hr'.trans hr, hw'.trans hw⟩)

/-- RULE: in a fair trace the goal is reached, when no step raises the rank and the turn of the one
    whose move it is lowers it. -/
theorem leadsTo [WellFoundedLT W] (hfair : tr.Fair turn)
    (hstep : ∀ s a s', Runs step init ok s → P s → ok s a → step s a = .ok s' →
      Q s' ∨ (P s' ∧ (rank s' < rank s ∨ (rank s' = rank s ∧ whose s' = whose s))))
    (hturn : ∀ s a s', Runs step init ok s → P s → ok s a → step s a = .ok s' →
      turn a = some (whose s) → Q s' ∨ (P s' ∧ rank s' < rank s)) {i : ℕ} (h : P (tr.state i)) :
    ∃ j, i ≤ j ∧ Q (tr.state j) := by
  induction hr : rank (tr.state i) using WellFoundedLT.induction generalizing i with
  | ind r ih =>
    subst hr
    have hlower : ∀ j, i ≤ j → P (tr.state j) → rank (tr.state j) < rank (tr.state i) →
        ∃ k, i ≤ k ∧ Q (tr.state k) := by
      intro j hj hp hlt
      obtain ⟨k, hk, hq⟩ := ih _ hlt hp rfl
      exact ⟨k, hj.trans hk, hq⟩
    obtain ⟨j, hj, hmove⟩ := hfair (whose (tr.state i)) i
    obtain ⟨n, rfl⟩ := Nat.exists_eq_add_of_le hj
    rcases tr.walk hstep h n with hq | ⟨k, hk, hp, hlt⟩ | ⟨hp, hr, hw⟩
    · exact hq
    · exact hlower k hk hp hlt
    · rw [← hw] at hmove
      rcases hturn _ _ _ (tr.runs _) hp (tr.admitted _) (tr.next _) hmove with hq | ⟨hp', hlt⟩
      · exact ⟨i + n + 1, by omega, hq⟩
      · exact hlower (i + n + 1) (by omega) hp' (hr ▸ hlt)

end Trace

end Schemes

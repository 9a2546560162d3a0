import Mathlib.Logic.Basic

/-! @scheme responses | name:what is observed of a machine

    A machine answers each call and goes to a state. Two states are told apart by what is answered to the calls that
    come; where a relation keeps the answers equal and is kept by all calls, they are not.

        s  ──call──▶ s₁ ──call──▶ s₂        answers of s
        R            R            R
        s' ──call──▶ s₁' ─call──▶ s₂'       the same                                                    -/

namespace Schemes
variable {σ α ρ : Type}

/-- What is answered to calls. -/
def responses (respond : α → σ → σ × ρ) : σ → List α → List ρ
  | _, [] => []
  | s, call :: calls => (respond call s).2 :: responses respond (respond call s).1 calls

/-- Where calls lead. -/
def reached (respond : α → σ → σ × ρ) (s : σ) (calls : List α) : σ := calls.foldl (fun s call => (respond call s).1) s

variable {respond : α → σ → σ × ρ}

/-- Related states are not told apart. -/
theorem responses_eq {R : σ → σ → Prop}
    (h : ∀ call s s', R s s' → (respond call s').2 = (respond call s).2 ∧ R (respond call s).1 (respond call s').1) :
    ∀ (calls : List α) {s s' : σ}, R s s' → responses respond s' calls = responses respond s calls
  | [], _, _, _ => rfl
  | call :: calls, s, s', hR => by
    obtain ⟨heq, hnext⟩ := h call s s' hR
    rw [responses, responses, heq, responses_eq h calls hnext]

/-- What every call keeps holds wherever calls lead. -/
theorem invariant_reached {I : σ → Prop} (h : ∀ call s, I s → I (respond call s).1) :
    ∀ (calls : List α) {s : σ}, I s → I (reached respond s calls)
  | [], _, hs => hs
  | call :: calls, s, hs => invariant_reached h calls (h call s hs)

end Schemes

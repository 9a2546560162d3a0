import Mathlib.Logic.Basic

/-! @scheme run | name:runs of a fallible step function

    A machine is a step function that may fault. `Runs step init ok s` says that `s` is reached from
    `init` by steps that do not fault and that all meet `ok`; with `ok` always true this is plain
    reachability. One rule carries an invariant along a run, one turns a concrete list of actions
    into a run. -/

namespace Schemes
variable {σ α ε : Type}

/-- States reached from `init` by non-faulting steps, each taken where `ok` holds. -/
inductive Runs (step : σ → α → Except ε σ) (init : σ) (ok : σ → α → Prop) : σ → Prop
  | start : Runs step init ok init
  | next {s s' : σ} {a : α} : Runs step init ok s → ok s a → step s a = .ok s' →
      Runs step init ok s'

/-- Take a list of actions; `none` when one faults or is not admitted where it is taken. -/
def runAll (step : σ → α → Except ε σ) (ok : σ → α → Prop) [∀ s a, Decidable (ok s a)] :
    σ → List α → Option σ
  | s, [] => some s
  | s, a :: as =>
    if ok s a then
      match step s a with
      | .ok s' => runAll step ok s' as
      | .error _ => none
    else none

namespace Runs
variable {step : σ → α → Except ε σ} {init : σ} {ok : σ → α → Prop}

/-- What holds initially and is kept by every admitted step holds along the whole run. -/
theorem invariant {I : σ → Prop} (h0 : I init)
    (hstep : ∀ s a s', I s → ok s a → step s a = .ok s' → I s') {s : σ}
    (h : Runs step init ok s) : I s := by
  induction h with
  | start => exact h0
  | next _ hok hs ih => exact hstep _ _ _ ih hok hs

/-- A run under a stronger condition is a run. -/
theorem mono {ok' : σ → α → Prop} (himp : ∀ s a, ok' s a → ok s a) {s : σ}
    (h : Runs step init ok' s) : Runs step init ok s := by
  induction h with
  | start => exact .start
  | next _ hok hs ih => exact .next ih (himp _ _ hok) hs

/-- A list of actions that runs through from a reached state leads to a reached state. -/
theorem of_runAll (ok : σ → α → Prop) [∀ s a, Decidable (ok s a)] : ∀ (as : List α) {s s' : σ},
    Runs step init ok s → runAll step ok s as = some s' → Runs step init ok s'
  | [], s, s', h, he => by
    simp only [runAll, Option.some.injEq] at he
    exact he ▸ h
  | a :: as, s, s', h, he => by
    rw [runAll] at he
    split at he
    · rename_i hok
      cases hs : step s a with
      | error e => rw [hs] at he; simp at he
      | ok t =>
        rw [hs] at he
        exact of_runAll ok as (.next h hok hs) he
    · cases he

/-- A list of actions that are admitted wherever they are taken and do not fault. -/
theorem of_foldlM : ∀ {as : List α} {s s' : σ}, (∀ a ∈ as, ∀ s, ok s a) → Runs step init ok s →
    as.foldlM step s = .ok s' → Runs step init ok s'
  | [], s, s', _, h, he => by
    cases he
    exact h
  | a :: as, s, s', hok, h, he => by
    rw [List.foldlM_cons] at he
    cases hs : step s a with
    | error e => rw [hs] at he; cases he
    | ok t =>
      rw [hs] at he
      obtain ⟨ha, has⟩ := List.forall_mem_cons.mp hok
      exact of_foldlM has (.next h (ha s) hs) he

end Runs

end Schemes

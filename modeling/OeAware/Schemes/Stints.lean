import Mathlib.Algebra.Order.Group.Int
import Mathlib.Algebra.Ring.Int.Defs
import Mathlib.Data.List.Basic

/-! @scheme stints | name:stints of a key and laps of a clock, by their history | models:sources that are opened and read

    A key is opened, worked on with the rest of its group, and closed. What it went through is the list of its stints.
    Opening what is open and closing what is not changes nothing. In a stint the clock is read again and again, and
    each reading is taken together with the one before it.

        opened t₀ ──▶ t₁ ──▶ t₂ ──▶ t₃ ──▶ closed       (t₀, t₁) (t₁, t₂) (t₂, t₃)

    Laps that are cut down to whole units add up to less than the stint took, and lose less than one unit each. -/

namespace Schemes
variable {γ κ β δ : Type}

inductive StintEvent (γ κ β δ : Type) where
  | opened (group : γ) (key : κ) (start : β)
  | closed (group : γ) (key : κ)
  | worked (group : γ) (work : δ)

/-- How a stint began, and what was done in it, the first first. -/
structure Stint (β δ : Type) where
  start : β
  works : List δ

/-- The stints that have been closed, the first first, and the one that has not. -/
structure Stints (β δ : Type) where
  past : List (Stint β δ)
  current : Option (Stint β δ)

def Stints.all (s : Stints β δ) : List (Stint β δ) := s.past ++ s.current.toList

def Stints.openAt (s : Stints β δ) (start : β) : Stints β δ :=
  if s.current.isSome then s else ⟨s.past, some ⟨start, []⟩⟩

def Stints.close (s : Stints β δ) : Stints β δ := ⟨s.all, none⟩

def Stints.work (s : Stints β δ) (d : δ) : Stints β δ :=
  ⟨s.past, s.current.map (fun t => ⟨t.start, t.works ++ [d]⟩)⟩

/-- The stints of a key after a history, which lists the latest event first. -/
def stints [DecidableEq γ] [DecidableEq κ] (group : γ) (key : κ) : List (StintEvent γ κ β δ) → Stints β δ
  | [] => ⟨[], none⟩
  | .opened g k start :: log =>
    if g = group ∧ k = key then (stints group key log).openAt start else stints group key log
  | .closed g k :: log => if g = group ∧ k = key then (stints group key log).close else stints group key log
  | .worked g d :: log => if g = group then (stints group key log).work d else stints group key log

namespace Stints
variable {s : Stints β δ} {start : β} {d : δ}

@[simp] theorem all_close : s.close.all = s.all := by simp [close, all]

@[simp] theorem current_close : s.close.current = none := rfl

theorem openAt_none (h : s.current = none) : s.openAt start = ⟨s.past, some ⟨start, []⟩⟩ := by simp [Stints.openAt, h]

theorem openAt_some {t : Stint β δ} (h : s.current = some t) : s.openAt start = s := by simp [Stints.openAt, h]

@[simp] theorem current_work : (s.work d).current = s.current.map (fun t => ⟨t.start, t.works ++ [d]⟩) := rfl

@[simp] theorem past_work : (s.work d).past = s.past := rfl

end Stints

/-! ### Laps -/

/-- Each reading of the clock with the one before it. -/
def laps {τ : Type} (start : τ) : List (τ × δ) → List (τ × τ × δ)
  | [] => []
  | v :: vs => (start, v) :: laps v.1 vs

def lastLap {τ : Type} (start : τ) (vs : List (τ × δ)) : τ := (vs.map Prod.fst).getLastD start

section
variable {τ : Type}

@[simp] theorem laps_nil {start : τ} : laps start ([] : List (τ × δ)) = [] := rfl

@[simp] theorem lastLap_nil {start : τ} : lastLap start ([] : List (τ × δ)) = start := rfl

@[simp] theorem lastLap_cons {start : τ} {v : τ × δ} {vs : List (τ × δ)} : lastLap start (v :: vs) = lastLap v.1 vs := by
  rw [lastLap, List.map_cons, List.getLastD_cons]
  rfl

theorem lastLap_append {start : τ} {us vs : List (τ × δ)} : lastLap start (us ++ vs) = lastLap (lastLap start us) vs := by
  induction us generalizing start with
  | nil => rfl
  | cons u us ih => simp [ih]

theorem length_laps {start : τ} {vs : List (τ × δ)} : (laps start vs).length = vs.length := by
  induction vs generalizing start with
  | nil => rfl
  | cons v vs ih => simp [laps, ih]

/-- RULE: the laps go on from where they were. -/
theorem laps_append {start : τ} {us vs : List (τ × δ)} :
    laps start (us ++ vs) = laps start us ++ laps (lastLap start us) vs := by
  induction us generalizing start with
  | nil => rfl
  | cons u us ih => simp [laps, ih]

end

/-- How long the laps were, in whole units of `q`. -/
def wholeLaps (q : ℤ) (start : ℤ) (vs : List (ℤ × δ)) : ℤ :=
  ((laps start vs).map (fun lap => (lap.2.1 - lap.1) / q)).sum

/-- RULE: what the laps lose is not negative, and less than one unit each. -/
theorem wholeLaps_bounds {q : ℤ} (hq : 0 < q) (start : ℤ) (vs : List (ℤ × δ)) :
    wholeLaps q start vs * q ≤ lastLap start vs - start ∧
      lastLap start vs - start ≤ wholeLaps q start vs * q + vs.length * (q - 1) := by
  induction vs generalizing start with
  | nil => simp [wholeLaps]
  | cons v vs ih =>
    have hone : wholeLaps q start (v :: vs) = (v.1 - start) / q + wholeLaps q v.1 vs := by simp [wholeLaps, laps]
    have hdiv := Int.emod_add_mul_ediv (v.1 - start) q
    have hnonneg := Int.emod_nonneg (v.1 - start) hq.ne'
    have hless := Int.emod_lt_of_pos (v.1 - start) hq
    obtain ⟨hlow, hhigh⟩ := ih v.1
    rw [hone, lastLap_cons, add_mul, List.length_cons, Nat.cast_succ, add_mul, one_mul]
    have hcomm := mul_comm q ((v.1 - start) / q)
    constructor <;> omega

end Schemes

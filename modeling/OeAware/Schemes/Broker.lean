import Mathlib.Data.List.Basic
import OeAware.Schemes.Run

/-! @scheme broker | name:publish and subscribe, by its history | models:a topic broker

    What a broker owes its subscribers depends on nothing but the requests it has taken: a name is subscribed to a
    topic if it has joined since it last left, and it is sent what is published there meanwhile. A history lists
    the requests, the latest first; a recorded run carries the history of its steps along. -/

namespace Schemes

/-- What a broker is asked for: `τ` are topics, `ν` names, `δ` data. -/
inductive TopicRequest (τ ν δ : Type) where
  | join (topic : τ) (name : ν)
  | leave (topic : τ) (name : ν)
  | forget (name : ν)
  | publish (topic : τ) (data : δ)

section
variable {τ ν δ : Type}

/-- After the history `name` is subscribed to `topic`. -/
def Subscribed : List (TopicRequest τ ν δ) → τ → ν → Prop
  | [], _, _ => False
  | .join t x :: log, topic, name => (topic = t ∧ name = x) ∨ Subscribed log topic name
  | .leave t x :: log, topic, name => Subscribed log topic name ∧ ¬ (topic = t ∧ name = x)
  | .forget x :: log, topic, name => Subscribed log topic name ∧ name ≠ x
  | .publish _ _ :: log, topic, name => Subscribed log topic name

instance decidableSubscribed [DecidableEq τ] [DecidableEq ν] :
    ∀ (log : List (TopicRequest τ ν δ)) (topic : τ) (name : ν), Decidable (Subscribed log topic name)
  | [], _, _ => isFalse id
  | .join t x :: log, topic, name =>
    have := decidableSubscribed log topic name
    inferInstanceAs (Decidable ((topic = t ∧ name = x) ∨ Subscribed log topic name))
  | .leave t x :: log, topic, name =>
    have := decidableSubscribed log topic name
    inferInstanceAs (Decidable (Subscribed log topic name ∧ ¬ (topic = t ∧ name = x)))
  | .forget x :: log, topic, name =>
    have := decidableSubscribed log topic name
    inferInstanceAs (Decidable (Subscribed log topic name ∧ ¬ name = x))
  | .publish _ _ :: log, topic, name => decidableSubscribed log topic name

/-- What `name` is sent, the first first. -/
def deliveries [DecidableEq τ] [DecidableEq ν] (name : ν) : List (TopicRequest τ ν δ) → List δ
  | [] => []
  | .publish t d :: log =>
    if Subscribed log t name then deliveries name log ++ [d] else deliveries name log
  | .join _ _ :: log => deliveries name log
  | .leave _ _ :: log => deliveries name log
  | .forget _ :: log => deliveries name log

variable {topic : τ} {name : ν}

theorem subscribed_cons {r : TopicRequest τ ν δ} {log : List (TopicRequest τ ν δ)} :
    Subscribed (r :: log) topic name ↔ r = .join topic name ∨
      (Subscribed log topic name ∧ r ≠ .leave topic name ∧ r ≠ .forget name) := by
  cases r with
  | join t x => simp [Subscribed, eq_comm]
  | leave t x => simp [Subscribed, eq_comm]
  | forget x => simp [Subscribed, eq_comm]
  | publish t d => simp [Subscribed]

/-- RULE: who is subscribed has joined, and neither left nor been forgotten since. -/
theorem subscribed_iff : ∀ {log : List (TopicRequest τ ν δ)}, Subscribed log topic name ↔
    ∃ later earlier, log = later ++ .join topic name :: earlier ∧
      .leave topic name ∉ later ∧ .forget name ∉ later
  | [] => by simp [Subscribed]
  | r :: log => by
    rw [subscribed_cons, subscribed_iff]
    constructor
    · rintro (rfl | ⟨⟨later, earlier, rfl, hleave, hforget⟩, hl, hf⟩)
      · exact ⟨[], log, rfl, by simp, by simp⟩
      · exact ⟨r :: later, earlier, rfl, by simp [hleave, hl.symm], by simp [hforget, hf.symm]⟩
    · rintro ⟨later, earlier, heq, hleave, hforget⟩
      cases later with
      | nil => exact Or.inl (List.cons_eq_cons.mp heq).1
      | cons q later =>
        obtain ⟨rfl, rfl⟩ := List.cons_eq_cons.mp heq
        rw [List.mem_cons, not_or] at hleave hforget
        exact Or.inr ⟨⟨later, earlier, rfl, hleave.2, hforget.2⟩, Ne.symm hleave.1, Ne.symm hforget.1⟩

end

/-! ### Recorded runs -/

section
variable {σ α ε ρ : Type} (step : σ → α → Except ε σ) (init : σ) (asked : σ → α → List ρ)

/-- States reached by steps that do not fault, with what the steps have asked for, the latest first. -/
inductive Recorded : List ρ → σ → Prop
  | start : Recorded [] init
  | next {log : List ρ} {s s' : σ} {a : α} : Recorded log s → step s a = .ok s' →
      Recorded (asked s a ++ log) s'

/-- Take a list of actions and keep the record. -/
def recordAll : List ρ × σ → List α → Option (List ρ × σ)
  | x, [] => some x
  | (log, s), a :: as =>
    match step s a with
    | .ok s' => recordAll (asked s a ++ log, s') as
    | .error _ => none

variable {step init asked}

theorem Recorded.runs {log : List ρ} {s : σ} (h : Recorded step init asked log s) :
    Runs step init (fun _ _ => True) s := by
  induction h with
  | start => exact .start
  | next _ hs ih => exact .next ih trivial hs

theorem Recorded.of_recordAll : ∀ (as : List α) {x y : List ρ × σ},
    Recorded step init asked x.1 x.2 → recordAll step asked x as = some y →
    Recorded step init asked y.1 y.2
  | [], x, y, h, he => by
    cases he
    exact h
  | a :: as, (log, s), y, h, he => by
    rw [recordAll] at he
    cases hs : step s a with
    | error e => rw [hs] at he; cases he
    | ok s' =>
      rw [hs] at he
      exact Recorded.of_recordAll as (.next h hs) he

/-- A list of actions that runs through is a recorded run. -/
theorem Recorded.of_any {as : List α} {p : List ρ × σ → Bool}
    (h : (recordAll step asked ([], init) as).any p = true) :
    ∃ log s, Recorded step init asked log s ∧ p (log, s) = true := by
  cases hrun : recordAll step asked ([], init) as with
  | none =>
    rw [hrun] at h
    cases h
  | some y =>
    rw [hrun] at h
    exact ⟨y.1, y.2, .of_recordAll as .start hrun, h⟩

end

end Schemes

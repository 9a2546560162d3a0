import Mathlib.Data.List.Basic

/-! @scheme loop | name:loops of steps that may fault

    A loop over a list is a fold of its body. What holds before the first round and is kept by each
    round that does not fault holds after the last one; the second rule also says which elements are
    still to come. -/

namespace Schemes
variable {α β σ ε : Type}

theorem bind_ok {x : Except ε α} {f : α → Except ε β} {b : β} (h : x >>= f = .ok b) :
    ∃ a, x = .ok a ∧ f a = .ok b := by
  cases x with
  | error e => cases h
  | ok a => exact ⟨a, rfl, h⟩

theorem bind_ok_iff {x : Except ε α} {f : α → Except ε β} :
    (∃ b, x >>= f = .ok b) ↔ ∃ a, x = .ok a ∧ ∃ b, f a = .ok b := by
  refine ⟨fun ⟨b, h⟩ => ?_, fun ⟨a, ha, b, hb⟩ => ⟨b, ?_⟩⟩
  · obtain ⟨a, ha, hb⟩ := bind_ok h
    exact ⟨a, ha, b, hb⟩
  · rw [ha]
    exact hb

theorem map_ok {x : Except ε α} {f : α → β} {b : β} (h : x.map f = .ok b) : ∃ a, x = .ok a ∧ b = f a := by
  cases x with
  | error e => cases h
  | ok a =>
    cases h
    exact ⟨a, rfl, rfl⟩

/-- What is kept by every round holds after the loop. -/
theorem foldlM_invariant {f : σ → α → Except ε σ} {P : σ → Prop} : ∀ {l : List α} {s s' : σ},
    (∀ s a s', a ∈ l → P s → f s a = .ok s' → P s') → P s → l.foldlM f s = .ok s' → P s'
  | [], s, s', _, hs, h => by
    cases h
    exact hs
  | a :: l, s, s', hstep, hs, h => by
    rw [List.foldlM_cons] at h
    obtain ⟨s1, h1, h2⟩ := bind_ok h
    exact foldlM_invariant (fun s b s' hb => hstep s b s' (List.mem_cons_of_mem a hb))
      (hstep s a s1 List.mem_cons_self hs h1) h2

/-- And what is said of the elements that are still to come is in the end said of none. -/
theorem foldlM_induct {f : σ → α → Except ε σ} {P : List α → σ → Prop} : ∀ {l : List α} {s s' : σ},
    (∀ a l s s', P (a :: l) s → f s a = .ok s' → P l s') → P l s → l.foldlM f s = .ok s' → P [] s'
  | [], s, s', _, hs, h => by
    cases h
    exact hs
  | a :: l, s, s', hstep, hs, h => by
    rw [List.foldlM_cons] at h
    obtain ⟨s1, h1, h2⟩ := bind_ok h
    exact foldlM_induct hstep (hstep a l s s1 hs h1) h2

/-- A loop does not fault if none of its rounds does where it is taken. -/
theorem foldlM_succeeds {f : σ → α → Except ε σ} {P : List α → σ → Prop} : ∀ {l : List α} {s : σ},
    (∀ a l s, P (a :: l) s → ∃ s', f s a = .ok s' ∧ P l s') → P l s → ∃ s', l.foldlM f s = .ok s' ∧ P [] s'
  | [], s, _, hs => ⟨s, rfl, hs⟩
  | a :: l, s, hstep, hs => by
    obtain ⟨s1, h1, hs1⟩ := hstep a l s hs
    obtain ⟨s', h2, hs'⟩ := foldlM_succeeds hstep hs1
    exact ⟨s', by rw [List.foldlM_cons, h1]; exact h2, hs'⟩

/-- In a loop that does not fault no round does. -/
theorem foldlM_ok_of_mem {f : σ → α → Except ε σ} {a : α} : ∀ {l : List α} {s s' : σ}, l.foldlM f s = .ok s' → a ∈ l →
    ∃ s1 s2, f s1 a = .ok s2
  | [], _, _, _, ha => by cases ha
  | b :: l, s, s', h, ha => by
    rw [List.foldlM_cons] at h
    obtain ⟨s1, h1, h2⟩ := bind_ok h
    rcases List.mem_cons.mp ha with rfl | ha
    · exact ⟨s, s1, h1⟩
    · exact foldlM_ok_of_mem h2 ha

/-- The round that is about `a` begins in `s'`. -/
def Begins (f : σ → α → Except ε σ) (l : List α) (s : σ) (a : α) (s' : σ) : Prop :=
  ∃ before after, l = before ++ a :: after ∧ before.foldlM f s = .ok s'

/-- What is kept by every round holds where one begins. -/
theorem Begins.invariant {f : σ → α → Except ε σ} {P : σ → Prop} {l : List α} {s s' : σ} {a : α}
    (h : Begins f l s a s') (hstep : ∀ s a s', a ∈ l → P s → f s a = .ok s' → P s') (hs : P s) :
    a ∈ l ∧ P s' := by
  obtain ⟨before, after, rfl, h⟩ := h
  exact ⟨by simp, foldlM_invariant (fun s b s' hb => hstep s b s' (List.mem_append_left _ hb)) hs h⟩

/-- A map none of whose rounds fails. -/
theorem mapM_ok {f : α → Except ε β} {g : α → β} : ∀ {l : List α}, (∀ a ∈ l, f a = .ok (g a)) →
    l.mapM f = .ok (l.map g)
  | [], _ => rfl
  | a :: l, h => by
    obtain ⟨ha, hl⟩ := List.forall_mem_cons.mp h
    rw [List.mapM_cons, ha, mapM_ok hl]
    rfl

/-- A map that may fail has a result where each of its rounds has. -/
theorem mapM_eq_some_iff {f : α → Option β} {g : α → β} {p : α → Prop}
    (h : ∀ a b, f a = some b ↔ p a ∧ b = g a) : ∀ {l : List α} {l' : List β},
    l.mapM f = some l' ↔ (∀ a ∈ l, p a) ∧ l' = l.map g
  | [], l' => by simp [eq_comm]
  | a :: l, l' => by
    rw [List.mapM_cons]
    cases hfa : f a with
    | none =>
      refine iff_of_false (by simp) (fun hr => ?_)
      have := (h a (g a)).mpr ⟨hr.1 a List.mem_cons_self, rfl⟩
      rw [hfa] at this
      cases this
    | some b =>
      obtain ⟨hp, rfl⟩ := (h a b).mp hfa
      cases hl : l.mapM f with
      | none =>
        refine iff_of_false (by simp) (fun hr => ?_)
        have := (mapM_eq_some_iff h (l := l)).mpr ⟨fun x hx => hr.1 x (List.mem_cons_of_mem a hx), rfl⟩
        rw [hl] at this
        cases this
      | some rest =>
        obtain ⟨hall, rfl⟩ := (mapM_eq_some_iff h).mp hl
        simp only [Option.pure_def, Option.bind_eq_bind, Option.bind_some, Option.some.injEq,
          List.forall_mem_cons, List.map_cons]
        exact ⟨fun h => ⟨⟨hp, hall⟩, h.symm⟩, fun h => h.2.symm⟩

/-! ### Loops that give out as they go -/

/-- A loop whose rounds give something out, until one of them stops it. -/
def gather (f : α → List β × Option ε) : List α → List β × Option ε
  | [] => ([], none)
  | a :: l =>
    match f a with
    | (out, some e) => (out, some e)
    | (out, none) => (out ++ (gather f l).1, (gather f l).2)

section
variable {f : α → List β × Option ε}

/-- It runs through where no round stops it. -/
theorem gather_none_iff : ∀ {l : List α}, (gather f l).2 = none ↔ ∀ a ∈ l, (f a).2 = none
  | [] => by simp [gather]
  | a :: l => by
    rw [gather, List.forall_mem_cons, ← gather_none_iff]
    rcases hf : f a with ⟨out, _ | e⟩
    · simp
    · simp

/-- Then all that the rounds give out is there. -/
theorem mem_gather {b : β} : ∀ {l : List α}, (gather f l).2 = none →
    (b ∈ (gather f l).1 ↔ ∃ a ∈ l, b ∈ (f a).1)
  | [], _ => by simp [gather]
  | a :: l, h => by
    rw [gather] at h ⊢
    rcases hf : f a with ⟨out, _ | e⟩
    · rw [hf] at h
      dsimp only at h ⊢
      rw [List.mem_append, mem_gather h, List.exists_mem_cons_iff, hf]
    · rw [hf] at h
      cases h

end

end Schemes

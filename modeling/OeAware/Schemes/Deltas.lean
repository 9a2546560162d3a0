import Mathlib.Algebra.BigOperators.Group.Finset.Basic
import Mathlib.Algebra.BigOperators.Group.Finset.Piecewise
import Mathlib.Algebra.Group.Basic
import Mathlib.Data.List.Chain
import Mathlib.Data.Finset.Dedup

/-! @scheme deltas | name:increments of counters | models:collectors that read cumulative counters

    Counters that only grow are read again and again. Of each the last value is remembered, a rule
    `delta` makes an increment of it and the new one, and the increments are added up by the group that
    the counter belongs to. If the rule gives the difference at every reading, the sums telescope: what a
    group was credited is what its counters show in the end.

        last k ──▶ x₁ ──▶ x₂ ──▶ x₃        (x₁ - last k) + (x₂ - x₁) + (x₃ - x₂) = x₃ - last k -/

namespace Schemes
variable {κ γ A : Type}

/-- What the counter `key`, one of those of `group`, shows. -/
structure Reading (κ γ A : Type) where
  key : κ
  group : γ
  value : A

section
variable [DecidableEq κ]

/-- What is remembered after the readings. -/
def remembered (last : κ → A) : List (Reading κ γ A) → κ → A
  | [] => last
  | r :: rs => remembered (Function.update last r.key r.value) rs

/-- The readings, each with the value that was remembered before it. -/
def visits (last : κ → A) : List (Reading κ γ A) → List (A × Reading κ γ A)
  | [] => []
  | r :: rs => (last r.key, r) :: visits (Function.update last r.key r.value) rs

/-- What one counter shows, reading after reading. -/
def valuesOf (k : κ) : List (Reading κ γ A) → List A
  | [] => []
  | r :: rs => if r.key = k then r.value :: valuesOf k rs else valuesOf k rs

theorem remembered_append : ∀ (rs rs' : List (Reading κ γ A)) (last : κ → A),
    remembered last (rs ++ rs') = remembered (remembered last rs) rs'
  | [], _, _ => rfl
  | _ :: rs, rs', _ => remembered_append rs rs' _

theorem visits_append : ∀ (rs rs' : List (Reading κ γ A)) (last : κ → A),
    visits last (rs ++ rs') = visits last rs ++ visits (remembered last rs) rs'
  | [], _, _ => rfl
  | _ :: rs, rs', _ => congrArg (_ :: ·) (visits_append rs rs' _)

/-- A counter is remembered by its last value. -/
theorem remembered_eq (k : κ) : ∀ (rs : List (Reading κ γ A)) (last : κ → A),
    remembered last rs k = (valuesOf k rs).getLastD (last k)
  | [], _ => rfl
  | r :: rs, last => by
    rw [remembered, remembered_eq k rs, valuesOf]
    by_cases hk : r.key = k
    · rw [if_pos hk, ← hk, Function.update_self, List.getLastD_cons]
    · rw [if_neg hk, Function.update_of_ne (Ne.symm hk)]

/-- What holds between the values of a visit holds from each value of a counter to its next. -/
theorem forall_visits_iff (R : A → A → Prop) : ∀ (rs : List (Reading κ γ A)) (last : κ → A),
    (∀ v ∈ visits last rs, R v.1 v.2.value) ↔ ∀ k, (last k :: valuesOf k rs).IsChain R
  | [], last => by simp [visits, valuesOf]
  | r :: rs, last => by
    rw [visits, List.forall_mem_cons, forall_visits_iff R rs]
    constructor
    · rintro ⟨hr, hrs⟩ k
      have hk := hrs k
      rw [valuesOf]
      split
      · rename_i he
        subst he
        rw [Function.update_self] at hk
        exact List.isChain_cons_cons.mpr ⟨hr, hk⟩
      · rename_i hne
        rwa [Function.update_of_ne (Ne.symm hne)] at hk
    · intro h
      have hr := h r.key
      rw [valuesOf, if_pos rfl, List.isChain_cons_cons] at hr
      refine ⟨hr.1, fun k => ?_⟩
      by_cases hk : r.key = k
      · subst hk
        rw [Function.update_self]
        exact hr.2
      · have := h k
        rw [valuesOf, if_neg hk] at this
        rwa [Function.update_of_ne (Ne.symm hk)]

end

section
variable [AddCommGroup A] [DecidableEq γ] (delta : A → A → A) (g : γ)

/-- What the visits add up to for a group. -/
def credited (vs : List (A × Reading κ γ A)) : A :=
  (vs.map (fun v => if v.2.group = g then delta v.1 v.2.value else 0)).sum

@[simp] theorem credited_nil : credited delta g ([] : List (A × Reading κ γ A)) = 0 := rfl

@[simp] theorem credited_cons (v : A × Reading κ γ A) (vs : List (A × Reading κ γ A)) :
    credited delta g (v :: vs) =
      (if v.2.group = g then delta v.1 v.2.value else 0) + credited delta g vs := rfl

theorem credited_append (vs vs' : List (A × Reading κ γ A)) :
    credited delta g (vs ++ vs') = credited delta g vs + credited delta g vs' := by
  simp [credited]

/-- TELESCOPE: with the difference at every visit, and counters that keep to their group, a group is
    credited what its counters have grown by. -/
theorem credited_visits [DecidableEq κ] (groupOf : κ → Option γ) {S : Finset κ} : ∀ (rs : List (Reading κ γ A))
    (last : κ → A), (∀ r ∈ rs, r.key ∈ S ∧ groupOf r.key = some r.group) →
    (∀ v ∈ visits last rs, delta v.1 v.2.value = v.2.value - v.1) →
    credited delta g (visits last rs) =
      ∑ k ∈ S, if groupOf k = some g then remembered last rs k - last k else 0
  | [], last, _, _ => by simp [visits, remembered]
  | r :: rs, last, hrs, hv => by
    obtain ⟨⟨hS, hgroup⟩, hrs⟩ := List.forall_mem_cons.mp hrs
    rw [visits, List.forall_mem_cons] at hv
    rw [visits, credited_cons, credited_visits groupOf rs _ hrs hv.2, remembered, hv.1]
    -- from `last` to the updated memory only the counter that was read changes
    have hself : (if r.group = g then r.value - last r.key else 0) =
        ∑ k ∈ S, if k = r.key then (if groupOf k = some g then r.value - last k else 0) else 0 := by
      rw [Finset.sum_ite_eq' S r.key, if_pos hS, hgroup]
      simp only [Option.some.injEq]
    rw [hself, ← Finset.sum_add_distrib]
    refine Finset.sum_congr rfl (fun k _ => ?_)
    by_cases hk : k = r.key
    · subst hk
      rw [if_pos rfl, Function.update_self]
      split
      · exact add_comm _ _ |>.trans (sub_add_sub_cancel _ _ _)
      · exact add_zero _
    · rw [if_neg hk, Function.update_of_ne hk, zero_add]

end

theorem isChain_and {R S : A → A → Prop} : ∀ {l : List A}, l.IsChain R → l.IsChain S →
    l.IsChain (fun a b => R a b ∧ S a b)
  | [], _, _ => .nil
  | [_], _, _ => .singleton _
  | _ :: _ :: _, h, h' => by
    rw [List.isChain_cons_cons] at h h' ⊢
    exact ⟨⟨h.1, h'.1⟩, isChain_and h.2 h'.2⟩

/-! ### Records of counters

    What is read is a record; some say nothing yet and are passed over. -/

section
variable {α : Type} (read : α → Option (γ × A))

/-- The readings that a list of records gives. -/
def readings (l : List (κ × α)) : List (Reading κ γ A) :=
  l.filterMap (fun e => (read e.2).map (fun x => ⟨e.1, x.1, x.2⟩))

/-- Once a counter says something it does to the end, and of one group. -/
def Keeps (l : List (κ × α)) : Prop :=
  l.Pairwise (fun e e' => e.1 = e'.1 → ∀ g a, read e.2 = some (g, a) → ∃ a', read e'.2 = some (g, a'))

theorem readings_cons (e : κ × α) (l : List (κ × α)) : readings read (e :: l) =
    (match read e.2 with
      | some x => ⟨e.1, x.1, x.2⟩ :: readings read l
      | none => readings read l) := by
  rw [readings, List.filterMap_cons]
  cases read e.2 <;> rfl

variable {read} in
theorem mem_keys_of_readings {l : List (κ × α)} : ∀ r ∈ readings read l, r.key ∈ l.map Prod.fst := by
  intro r hr
  obtain ⟨e, he, hr⟩ := List.mem_filterMap.mp hr
  cases hx : read e.2 with
  | none => simp [hx] at hr
  | some x =>
    rw [hx] at hr
    cases hr
    exact List.mem_map_of_mem he

variable [DecidableEq κ]

/-- The last record under a key. -/
def lastOf (k : κ) : List (κ × α) → Option α
  | [] => none
  | e :: l => (lastOf k l).or (if e.1 = k then some e.2 else none)

/-- The last reading under a key. -/
def finalOf (k : κ) (l : List (κ × α)) : Option (γ × A) := (lastOf k l).bind read

theorem mem_of_lastOf {k : κ} {x : α} : ∀ {l : List (κ × α)}, lastOf k l = some x → (k, x) ∈ l
  | [], h => by cases h
  | e :: l, h => by
    rw [lastOf, Option.or_eq_some_iff] at h
    rcases h with h | ⟨_, h⟩
    · exact List.mem_cons_of_mem _ (mem_of_lastOf h)
    · split at h
      · rename_i hk
        obtain rfl : e = (k, x) := Prod.ext hk (Option.some.inj h)
        exact List.mem_cons_self ..
      · cases h

theorem valuesOf_readings (k : κ) : ∀ (l : List (κ × α)), valuesOf k (readings read l) =
    l.filterMap (fun e => if e.1 = k then (read e.2).map Prod.snd else none)
  | [] => rfl
  | e :: l => by
    rw [readings_cons, List.filterMap_cons, ← valuesOf_readings k l]
    cases read e.2 with
    | none => simp
    | some x =>
      simp only [valuesOf, Option.map_some]
      split <;> rfl

/-- What holds between the values of each counter holds between its records. -/
theorem forall_pairwise_valuesOf {R : A → A → Prop} {l : List (κ × α)} :
    (∀ k, (valuesOf k (readings read l)).Pairwise R) ↔ l.Pairwise (fun e e' => e.1 = e'.1 →
      ∀ x, read e.2 = some x → ∀ y, read e'.2 = some y → R x.2 y.2) := by
  simp only [valuesOf_readings, List.pairwise_filterMap]
  simp only [List.pairwise_iff_forall_sublist]
  constructor
  · intro h e e' he hk x hx y hy
    exact h e'.1 he x.2 (by simp [hk, hx]) y.2 (by simp [hy])
  · intro h k e e' he x hx y hy
    split at hx
    · rename_i hk
      split at hy
      · rename_i hk'
        obtain ⟨x', hx', rfl⟩ := Option.map_eq_some_iff.mp hx
        obtain ⟨y', hy', rfl⟩ := Option.map_eq_some_iff.mp hy
        exact h he (hk.trans hk'.symm) x' hx' y' hy'
      · cases hy
    · cases hx

variable {read}

/-- What is remembered in the end is the last reading. -/
theorem remembered_readings (k : κ) : ∀ {l : List (κ × α)} (last : κ → A), Keeps read l →
    remembered last (readings read l) k = (finalOf read k l).elim (last k) Prod.snd
  | [], _, _ => rfl
  | e :: l, last, h => by
    obtain ⟨he, hl⟩ := List.pairwise_cons.mp h
    rw [readings_cons, finalOf, lastOf]
    cases hr : read e.2 with
    | none =>
      simp only [remembered_readings k last hl, finalOf]
      cases lastOf k l with
      | some x => rfl
      | none =>
        simp only [Option.none_or]
        split <;> simp [hr]
    | some x =>
      simp only [remembered, remembered_readings k _ hl, finalOf]
      cases hlast : lastOf k l with
      | none =>
        by_cases hk : e.1 = k
        · simp [hk, hr]
        · simp [hk, Function.update_of_ne (Ne.symm hk)]
      | some y =>
        simp only [Option.some_or, Option.bind_some]
        cases hy : read y with
        | some _ => rfl
        | none =>
          -- a later record says nothing, so it is not of the counter that was read here
          have hk : e.1 ≠ k := by
            rintro rfl
            obtain ⟨a', ha'⟩ := he _ (mem_of_lastOf hlast) rfl x.1 x.2 hr
            rw [hy] at ha'
            cases ha'
          simp [Function.update_of_ne (Ne.symm hk)]

/-- A counter ends in the group that its readings were of. -/
theorem finalOf_group : ∀ {l : List (κ × α)}, Keeps read l →
    ∀ r ∈ readings read l, (finalOf read r.key l).map Prod.fst = some r.group
  | e :: l, h, r, hr => by
    obtain ⟨he, hl⟩ := List.pairwise_cons.mp h
    rw [finalOf, lastOf]
    rw [readings_cons] at hr
    cases hx : read e.2 with
    | none =>
      rw [hx] at hr
      have ih := finalOf_group hl r hr
      rw [finalOf] at ih
      cases hlast : lastOf r.key l with
      | none => simp [hlast] at ih
      | some y => simpa [hlast] using ih
    | some x =>
      rw [hx] at hr
      rcases List.mem_cons.mp hr with rfl | hr
      · cases hlast : lastOf e.1 l with
        | none => simp [hx]
        | some y =>
          obtain ⟨a', ha'⟩ := he _ (mem_of_lastOf hlast) rfl x.1 x.2 hx
          simp [ha']
      · have ih := finalOf_group hl r hr
        rw [finalOf] at ih
        cases hlast : lastOf r.key l with
        | none => simp [hlast] at ih
        | some y => simpa [hlast] using ih

variable [AddCommGroup A] [DecidableEq γ]

/-- What the counters of a group show in the end. -/
def finalSum (read : α → Option (γ × A)) (g : γ) (l : List (κ × α)) : A :=
  ∑ k ∈ (l.map Prod.fst).toFinset,
    (finalOf read k l).elim 0 (fun x => if x.1 = g then x.2 else 0)

/-- Between steady values that are credited nothing where they do not change, all have grown. -/
theorem grows_of_idle {delta : A → A → A} {steady idle grows : A → A → Prop}
    [Trans grows grows grows] {l : List A}
    (hidle : ∀ a b, steady a b → (idle a b → delta a b = 0) → grows a b) (hsteady : l.Pairwise steady)
    (hzero : l.IsChain (fun a b => idle a b → delta a b = 0)) : l.Pairwise grows := by
  rw [← List.isChain_iff_pairwise]
  exact (isChain_and hsteady.isChain hzero).imp (fun a b h => hidle a b h.1 h.2)

/-- EXACT: where the rule gives the difference from each value of a counter to its next, a group is
    credited what its counters show in the end. -/
theorem credited_eq_finalSum {delta : A → A → A} {l : List (κ × α)} (h0 : ∀ a, delta 0 a = a)
    (hl : Keeps read l)
    (hdelta : ∀ k, (valuesOf k (readings read l)).IsChain (fun a b => delta a b = b - a)) (g : γ) :
    credited delta g (visits (fun _ => 0) (readings read l)) = finalSum read g l := by
  have hexact : ∀ v ∈ visits (fun _ => 0) (readings read l),
      delta v.1 v.2.value = v.2.value - v.1 := by
    refine (forall_visits_iff (fun a b => delta a b = b - a) _ _).mpr (fun k => ?_)
    refine List.isChain_cons.mpr ⟨fun a _ => ?_, hdelta k⟩
    rw [h0, sub_zero]
  rw [credited_visits delta g (fun k => (finalOf read k l).map Prod.fst) (readings read l) _
    (fun r hr => ⟨List.mem_toFinset.mpr (mem_keys_of_readings r hr), finalOf_group hl r hr⟩) hexact]
  refine Finset.sum_congr rfl (fun k _ => ?_)
  rw [remembered_readings k _ hl]
  cases finalOf read k l with
  | none => rfl
  | some x => simp

end

end Schemes

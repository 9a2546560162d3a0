import Mathlib.Data.List.Flatten
import Mathlib.Data.List.Infix
import Mathlib.Data.List.Perm.Basic
import OeAware.Common.Numbers
import OeAware.Schemes.Container

/-! @src src/plugin/tune/system/network/hardirq_tune/irq_frontend.cpp | name:EthQueInfo | scheme:erase-while-iterating

    The regular expressions of a network interface are searched for in the descriptions of all interrupts; the
    ones that cannot be used are erased. `erase` returns the place of what comes next, and the loop goes on to
    what comes after that.

        regex   r0   r1   bad   r3   r4
                it ─▶ it ─▶ ✗   it ─▶ it            r3 is left as it is
        regex   r0   bad                            past the end

    The engine behind `std::regex` is a parameter. -/

namespace OeAware
open Schemes

namespace IrqFrontEnd

/-- What is used of `std::regex`; no result where it throws. A match is the list of its groups. -/
structure Engine where
  Pattern : Type
  compile : Str → Option Pattern
  search : Pattern → Str → Option (Option (List Str))

structure EthQueInfo where
  dev : Str
  busInfo : Str
  driver : Str
  regex : List Str
  que2Irq : UMap ℤ ℤ

variable (E : Engine)

/-- What the body of the loop over the descriptions has done: where it has searched, what it has found, and whether
    it has been left by an exception. -/
structure Applied where
  searched : List (Str × ℤ)
  que2Irq : UMap ℤ ℤ
  threw : Bool

/-- The loop over `irqWithDesc`. -/
def searchAll (re : Str) (pattern : E.Pattern) : List (ℤ × Str) → UMap ℤ ℤ → Applied
  | [], que2Irq => ⟨[], que2Irq, false⟩
  | (irqId, desc) :: irqs, que2Irq =>
    match E.search pattern desc with
    | none => ⟨[(re, irqId)], que2Irq, true⟩
    | some found =>
      let que2Irq := match (found.bind (·[1]?)).bind stoi with
        | some que => que2Irq.insert que irqId
        | none => que2Irq
      let r := searchAll re pattern irqs que2Irq
      ⟨(re, irqId) :: r.searched, r.que2Irq, r.threw⟩

/-- The block that is tried for one expression. -/
def tryRegex (irqWithDesc : List (ℤ × Str)) (re : Str) (que2Irq : UMap ℤ ℤ) : Applied :=
  match E.compile re with
  | none => ⟨[], que2Irq, true⟩
  | some pattern => searchAll E re pattern irqWithDesc que2Irq

structure Updated where
  regex : List Str
  que2Irq : UMap ℤ ℤ
  searched : List (Str × ℤ)

/-- The loop of `UpdateQue2Irq` from where the iterator is; there is no result where it is advanced past the end. -/
def updateFrom (irqWithDesc : List (ℤ × Str)) : List Str → UMap ℤ ℤ → Option Updated
  | [], que2Irq => some ⟨[], que2Irq, []⟩
  | re :: rest, que2Irq =>
    let r := tryRegex E irqWithDesc re que2Irq
    if r.threw then
      match rest with
      | [] => none
      | next :: rest => (updateFrom irqWithDesc rest r.que2Irq).map
          (fun u => ⟨next :: u.regex, u.que2Irq, r.searched ++ u.searched⟩)
    else (updateFrom irqWithDesc rest r.que2Irq).map
      (fun u => ⟨re :: u.regex, u.que2Irq, r.searched ++ u.searched⟩)

/-- `UpdateQue2Irq`, and what has been searched for where. -/
def updateQue2Irq (eth : EthQueInfo) (irqWithDesc : List (ℤ × Str)) : Option (EthQueInfo × List (Str × ℤ)) :=
  (updateFrom E irqWithDesc eth.regex eth.que2Irq).map
    (fun u => ({ eth with regex := u.regex, que2Irq := u.que2Irq }, u.searched))

/-- The expression is one. -/
def valid (re : Str) : Bool := (E.compile re).isSome

/-- What is to be left of the expressions, and where each of them is to be searched for. -/
structure Kept (irqWithDesc : List (ℤ × Str)) (regex : List Str) (left : List Str) (searched : List (Str × ℤ)) :
    Prop where
  kept : left = regex.filter (valid E)
  once : searched.Perm ((regex.filter (valid E)).flatMap (fun re => irqWithDesc.map (fun d => (re, d.1))))

/-- No search throws. An expression that is none needs one that is directly after it, and there is nothing to
    search in. -/
structure Passable (irqWithDesc : List (ℤ × Str)) (regex : List Str) : Prop where
  search : ∀ re ∈ regex, ∀ pattern, E.compile re = some pattern → ∀ d ∈ irqWithDesc, E.search pattern d.2 ≠ none
  next : ∀ pre re post, regex = pre ++ re :: post → valid E re = false →
    irqWithDesc = [] ∧ ∃ next post', post = next :: post' ∧ valid E next = true

variable {E} {irqs : List (ℤ × Str)}

/-! ### One expression -/

theorem searchAll_ok {re : Str} {pattern : E.Pattern} : ∀ {irqs : List (ℤ × Str)} {que2Irq : UMap ℤ ℤ},
    (∀ d ∈ irqs, E.search pattern d.2 ≠ none) →
    (searchAll E re pattern irqs que2Irq).threw = false ∧
      (searchAll E re pattern irqs que2Irq).searched = irqs.map (fun d => (re, d.1))
  | [], _, _ => ⟨rfl, rfl⟩
  | (irqId, desc) :: irqs, que2Irq, h => by
    obtain ⟨h1, h⟩ := List.forall_mem_cons.mp h
    obtain ⟨found, hfound⟩ := Option.ne_none_iff_exists'.mp h1
    rw [searchAll, hfound]
    obtain ⟨hthrew, hsearched⟩ := searchAll_ok h
    exact ⟨hthrew, by rw [List.map_cons]; exact congrArg _ hsearched⟩

theorem searchAll_threw {re : Str} {pattern : E.Pattern} : ∀ {irqs : List (ℤ × Str)} {que2Irq : UMap ℤ ℤ},
    (¬ ∀ d ∈ irqs, E.search pattern d.2 ≠ none) → (searchAll E re pattern irqs que2Irq).threw = true
  | [], _, h => absurd (fun d hd => by simp at hd) h
  | (irqId, desc) :: irqs, que2Irq, h => by
    rw [searchAll]
    cases hfound : E.search pattern desc with
    | none => rfl
    | some found =>
      refine searchAll_threw (fun hall => h (List.forall_mem_cons.mpr ⟨?_, hall⟩))
      rw [hfound]
      exact Option.some_ne_none found

theorem length_searchAll {re : Str} {pattern : E.Pattern} : ∀ {irqs : List (ℤ × Str)} {que2Irq : UMap ℤ ℤ},
    (searchAll E re pattern irqs que2Irq).searched.length ≤ irqs.length
  | [], _ => le_refl _
  | (irqId, desc) :: irqs, que2Irq => by
    rw [searchAll]
    cases E.search pattern desc with
    | none => simp
    | some found => exact Nat.succ_le_succ length_searchAll

theorem tryRegex_invalid {re : Str} (h : valid E re = false) (que2Irq : UMap ℤ ℤ) :
    tryRegex E irqs re que2Irq = ⟨[], que2Irq, true⟩ := by
  rw [valid, Option.isSome_eq_false_iff, Option.isNone_iff_eq_none] at h
  rw [tryRegex, h]

theorem length_tryRegex (re : Str) (que2Irq : UMap ℤ ℤ) :
    (tryRegex E irqs re que2Irq).searched.length ≤ if valid E re then irqs.length else 0 := by
  cases hvalid : valid E re with
  | false =>
    rw [tryRegex_invalid hvalid]
    exact le_refl 0
  | true =>
    obtain ⟨pattern, hpattern⟩ := Option.isSome_iff_exists.mp hvalid
    rw [tryRegex, hpattern, if_pos rfl]
    exact length_searchAll

/-! ### The loop -/

theorem updateFrom_cons (re : Str) (rest : List Str) (que2Irq : UMap ℤ ℤ) :
    updateFrom E irqs (re :: rest) que2Irq =
      if (tryRegex E irqs re que2Irq).threw then
        match rest with
        | [] => none
        | next :: rest => (updateFrom E irqs rest (tryRegex E irqs re que2Irq).que2Irq).map (fun u =>
            ⟨next :: u.regex, u.que2Irq, (tryRegex E irqs re que2Irq).searched ++ u.searched⟩)
      else (updateFrom E irqs rest (tryRegex E irqs re que2Irq).que2Irq).map (fun u =>
        ⟨re :: u.regex, u.que2Irq, (tryRegex E irqs re que2Irq).searched ++ u.searched⟩) := by
  cases rest <;> rfl

theorem length_valid_cons (re : Str) (rest : List Str) (n : ℕ) :
    ((re :: rest).filter (valid E)).length * n =
      (if valid E re then n else 0) + (rest.filter (valid E)).length * n := by
  cases hre : valid E re with
  | false => rw [List.filter_cons_of_neg (by simp [hre]), if_neg Bool.false_ne_true, Nat.zero_add]
  | true => rw [List.filter_cons_of_pos hre, List.length_cons, Nat.succ_mul, if_pos rfl, Nat.add_comm]

/-- Nothing is there that was not, and nothing is searched for more than once. -/
theorem updateFrom_bounds : ∀ {regex : List Str} {que2Irq : UMap ℤ ℤ} {u : Updated},
    updateFrom E irqs regex que2Irq = some u →
    u.regex.Sublist regex ∧ u.searched.length ≤ (regex.filter (valid E)).length * irqs.length
  | [], que2Irq, u, h => by
    cases h
    exact ⟨.refl _, Nat.zero_le _⟩
  | re :: rest, que2Irq, u, h => by
    have hlen : (tryRegex E irqs re que2Irq).searched.length ≤ _ := length_tryRegex re que2Irq
    rw [updateFrom_cons] at h
    split at h
    · cases rest with
      | nil => cases h
      | cons next rest =>
        obtain ⟨u', hu', rfl⟩ := Option.map_eq_some_iff.mp h
        obtain ⟨hsub, hbound⟩ := updateFrom_bounds hu'
        refine ⟨(hsub.cons_cons next).cons re, ?_⟩
        rw [List.length_append, length_valid_cons, length_valid_cons]
        omega
    · obtain ⟨u', hu', rfl⟩ := Option.map_eq_some_iff.mp h
      obtain ⟨hsub, hbound⟩ := updateFrom_bounds hu'
      refine ⟨hsub.cons_cons re, ?_⟩
      rw [List.length_append, length_valid_cons]
      omega

theorem Kept.valid_of_mem {regex left : List Str} {searched : List (Str × ℤ)} (h : Kept E irqs regex left searched)
    {re : Str} (hre : re ∈ left) : valid E re = true := by
  rw [h.kept] at hre
  exact (List.mem_filter.mp hre).2

theorem length_once {regex left : List Str} {searched : List (Str × ℤ)} (h : Kept E irqs regex left searched) :
    searched.length = (regex.filter (valid E)).length * irqs.length := by
  rw [h.once.length_eq, List.length_flatMap]
  simp

/-! ### What one step is to do -/

/-- An expression that is used is no obstacle. -/
theorem Passable.cons_iff {re : Str} {rest : List Str} (hre : valid E re = true)
    (hsearch : ∀ pattern, E.compile re = some pattern → ∀ d ∈ irqs, E.search pattern d.2 ≠ none) :
    Passable E irqs (re :: rest) ↔ Passable E irqs rest := by
  constructor
  · intro h
    refine ⟨fun x hx => h.search x (List.mem_cons_of_mem _ hx), fun pre x post hl => ?_⟩
    exact h.next (re :: pre) x post (by rw [hl]; rfl)
  · intro h
    refine ⟨List.forall_mem_cons.mpr ⟨hsearch, h.search⟩, fun pre x post hl hx => ?_⟩
    cases pre with
    | nil =>
      cases hl
      rw [hre] at hx
      cases hx
    | cons y pre =>
      cases hl
      exact h.next pre x post rfl hx

theorem kept_cons_iff {re : Str} {rest left : List Str} {searched : List (Str × ℤ)} (hre : valid E re = true) :
    Kept E irqs (re :: rest) (re :: left) (irqs.map (fun d => (re, d.1)) ++ searched) ↔
      Kept E irqs rest left searched := by
  have hfilter : (re :: rest).filter (valid E) = re :: rest.filter (valid E) := List.filter_cons_of_pos hre
  constructor
  · rintro ⟨hkept, honce⟩
    rw [hfilter] at hkept honce
    rw [List.flatMap_cons, List.perm_append_left_iff] at honce
    exact ⟨(List.cons.inj hkept).2, honce⟩
  · rintro ⟨hkept, honce⟩
    refine ⟨by rw [hfilter, hkept], ?_⟩
    rw [hfilter, List.flatMap_cons, List.perm_append_left_iff]
    exact honce

/-- Where there is nothing to search in, one that is none and the one after it come and go together. -/
theorem Passable.skip_iff {re next : Str} {rest : List Str} (hirqs : irqs = []) (hnext : valid E next = true) :
    Passable E irqs (re :: next :: rest) ↔ Passable E irqs rest := by
  subst hirqs
  constructor
  · intro h
    refine ⟨fun _ _ _ _ d hd => by simp at hd, fun pre x post hl => ?_⟩
    exact h.next (re :: next :: pre) x post (by rw [hl]; rfl)
  · intro h
    refine ⟨fun _ _ _ _ d hd => by simp at hd, fun pre x post hl hx => ?_⟩
    match pre, hl with
    | [], hl =>
      cases hl
      exact ⟨rfl, next, rest, rfl, hnext⟩
    | [y], hl =>
      cases hl
      rw [hnext] at hx
      cases hx
    | y :: z :: pre, hl =>
      cases hl
      exact h.next pre x post rfl hx

theorem kept_skip_iff {re next : Str} {rest left : List Str} {searched : List (Str × ℤ)} (hirqs : irqs = [])
    (hre : valid E re = false) (hnext : valid E next = true) :
    Kept E irqs (re :: next :: rest) (next :: left) searched ↔ Kept E irqs rest left searched := by
  subst hirqs
  have hfilter : (re :: next :: rest).filter (valid E) = next :: rest.filter (valid E) := by
    rw [List.filter_cons_of_neg (by simp [hre]), List.filter_cons_of_pos hnext]
  constructor
  · rintro ⟨hkept, honce⟩
    rw [hfilter] at hkept honce
    exact ⟨(List.cons.inj hkept).2, honce⟩
  · rintro ⟨hkept, honce⟩
    refine ⟨by rw [hfilter, hkept], ?_⟩
    rw [hfilter]
    exact honce

/-- One that is erased in the middle of its searches is missed. -/
theorem not_kept_of_erased {re : Str} {rest left : List Str} {searched : List (Str × ℤ)} (hre : valid E re = true)
    (hsub : left.Sublist rest) : ¬ Kept E irqs (re :: rest) left searched := by
  intro h
  have hall : left.filter (valid E) = left := List.filter_eq_self.mpr (fun x hx => h.valid_of_mem hx)
  have hle : left.length ≤ (rest.filter (valid E)).length := by
    rw [← hall]
    exact (hsub.filter _).length_le
  have hlen : left.length = (rest.filter (valid E)).length + 1 := by
    rw [h.kept, List.filter_cons_of_pos hre, List.length_cons]
  omega

theorem updateFrom_iff : ∀ (regex : List Str) (que2Irq : UMap ℤ ℤ),
    (∃ u, updateFrom E irqs regex que2Irq = some u ∧ Kept E irqs regex u.regex u.searched) ↔ Passable E irqs regex
  | [], que2Irq => by
    refine iff_of_true ⟨_, rfl, rfl, .refl _⟩ ⟨fun re hre => by simp at hre, fun pre re post hl => by simp at hl⟩
  | re :: rest, que2Irq => by
    rw [updateFrom_cons]
    cases hre : valid E re with
    | true =>
      obtain ⟨pattern, hpattern⟩ := Option.isSome_iff_exists.mp hre
      have htry : tryRegex E irqs re que2Irq = searchAll E re pattern irqs que2Irq := by rw [tryRegex, hpattern]
      by_cases hok : ∀ d ∈ irqs, E.search pattern d.2 ≠ none
      · have htried : (searchAll E re pattern irqs que2Irq).threw = false ∧ _ := searchAll_ok hok
        obtain ⟨hthrew, hsearched⟩ := htried
        have hsearch : ∀ p, E.compile re = some p → ∀ d ∈ irqs, E.search p d.2 ≠ none := by
          intro p hp
          rw [hpattern] at hp
          cases hp
          exact hok
        rw [htry, hthrew, if_neg Bool.false_ne_true, hsearched, Passable.cons_iff hre hsearch,
          ← updateFrom_iff rest (searchAll E re pattern irqs que2Irq).que2Irq]
        constructor
        · rintro ⟨u, hu, hkept⟩
          obtain ⟨u', hu', rfl⟩ := Option.map_eq_some_iff.mp hu
          exact ⟨u', hu', (kept_cons_iff hre).mp hkept⟩
        · rintro ⟨u', hu', hkept⟩
          exact ⟨_, Option.map_eq_some_iff.mpr ⟨u', hu', rfl⟩, (kept_cons_iff hre).mpr hkept⟩
      · refine iff_of_false ?_ (fun h => hok (h.search re List.mem_cons_self pattern hpattern))
        rintro ⟨u, hu, hkept⟩
        rw [htry, searchAll_threw hok, if_pos rfl] at hu
        cases rest with
        | nil => cases hu
        | cons next rest =>
          obtain ⟨u', hu', rfl⟩ := Option.map_eq_some_iff.mp hu
          exact not_kept_of_erased hre ((updateFrom_bounds hu').1.cons_cons next) hkept
    | false =>
      rw [tryRegex_invalid hre, if_pos rfl]
      cases rest with
      | nil =>
        refine iff_of_false (by rintro ⟨u, hu, -⟩; cases hu) (fun h => ?_)
        obtain ⟨-, next, post, hpost, -⟩ := h.next [] re [] rfl hre
        cases hpost
      | cons next rest =>
        cases hnext : valid E next with
        | false =>
          refine iff_of_false ?_ (fun h => ?_)
          · rintro ⟨u, hu, hkept⟩
            obtain ⟨u', -, rfl⟩ := Option.map_eq_some_iff.mp hu
            have := hkept.valid_of_mem List.mem_cons_self
            rw [hnext] at this
            cases this
          · obtain ⟨-, x, post, hpost, hx⟩ := h.next [] re (next :: rest) rfl hre
            cases hpost
            rw [hnext] at hx
            cases hx
        | true =>
          by_cases hirqs : irqs = []
          · rw [Passable.skip_iff hirqs hnext, ← updateFrom_iff rest que2Irq]
            constructor
            · rintro ⟨u, hu, hkept⟩
              obtain ⟨u', hu', rfl⟩ := Option.map_eq_some_iff.mp hu
              exact ⟨u', hu', (kept_skip_iff hirqs hre hnext).mp hkept⟩
            · rintro ⟨u', hu', hkept⟩
              exact ⟨_, Option.map_eq_some_iff.mpr ⟨u', hu', rfl⟩, (kept_skip_iff hirqs hre hnext).mpr hkept⟩
          · refine iff_of_false ?_ (fun h => hirqs (h.next [] re (next :: rest) rfl hre).1)
            -- the one after it is never searched for
            rintro ⟨u, hu, hkept⟩
            obtain ⟨u', hu', rfl⟩ := Option.map_eq_some_iff.mp hu
            have hbound := (updateFrom_bounds hu').2
            have hlen : u'.searched.length = _ := length_once hkept
            rw [length_valid_cons, length_valid_cons, hnext, if_pos rfl] at hlen
            have hpos := List.length_pos_iff.mpr hirqs
            omega

/-- **ONLY WHAT CANNOT BE USED IS ERASED, OR NOTHING IS.** The iterator stays in the list, what is left is what is
    valid, and that is searched for everywhere, exactly where no search throws and there is either no expression to
    erase or nothing to search in and one to keep directly after each. -/
theorem updateQue2Irq_iff (E : Engine) (eth : EthQueInfo) (irqWithDesc : List (ℤ × Str)) :
    (∃ eth' searched, updateQue2Irq E eth irqWithDesc = some (eth', searched) ∧
      Kept E irqWithDesc eth.regex eth'.regex searched) ↔ Passable E irqWithDesc eth.regex := by
  rw [← updateFrom_iff eth.regex eth.que2Irq]
  unfold updateQue2Irq
  constructor
  · rintro ⟨eth', searched, h, hkept⟩
    obtain ⟨u, hu, heq⟩ := Option.map_eq_some_iff.mp h
    cases heq
    exact ⟨u, hu, hkept⟩
  · rintro ⟨u, hu, hkept⟩
    exact ⟨_, _, Option.map_eq_some_iff.mpr ⟨u, hu, rfl⟩, hkept⟩

/-- An engine that knows plain text, and that parentheses are to be closed. -/
def sampleEngine : Engine where
  Pattern := Str
  compile re := if re.count 40 = re.count 41 then some re else none
  search pattern desc := some (if pattern <:+: desc then some [pattern] else none)

/-- The name of an interface has gone into one of its two expressions. -/
def sampleEth : EthQueInfo := ⟨str "eth(0", [], [], [str "mlx5", str "eth(0-TxRx"], .empty⟩

/-- The last one is none, and the iterator is advanced past the end. -/
theorem not_kept_last : ¬ ∃ eth' searched, updateQue2Irq sampleEngine sampleEth [(7, str "mlx5_comp0")] =
    some (eth', searched) ∧ Kept sampleEngine [(7, str "mlx5_comp0")] sampleEth.regex eth'.regex searched := by
  rintro ⟨eth', searched, h, -⟩
  have hnone : updateQue2Irq sampleEngine sampleEth [(7, str "mlx5_comp0")] = none := by decide +kernel
  rw [hnone] at h
  cases h

end IrqFrontEnd
end OeAware

import OeAware.Analysis.Instance
import OeAware.Common.Numbers
import OeAware.Schemes.Words

/-! @src src/client/arg_parse.cpp, src/client/cmd_handler.cpp, src/client/analysis/analysis_report.cpp,
    src/common/utils.cpp | name:ArgParse, EnabledHandler, AnalysisReport, GetKeyValueFromString | scheme:round-trip

    Parameters go from a client to an instance as one string, and are told apart there. What the client puts
    between them may be in them.

        -k v -l w  ──▶  k:v,l:w  ──▶  k ↦ v, l ↦ w
        -k v,w     ──▶  k:v,w    ──▶  k ↦ v -/

namespace OeAware
open Schemes

/-! ### The client -/

namespace Client

/-- `InitCmd`, from the arguments after the instance; `ArgError` does not return. -/
def initEnable : List Str → UMap Str Str → Option (UMap Str Str)
  | [], enableParams => some enableParams
  | [_], _ => none
  | key :: value :: args, enableParams =>
    if key.head? = some 45 then initEnable args (enableParams.insert (key.drop 1) value) else none

/-- The entries of a map in the order in which it is iterated. -/
def entries (m : UMap Str Str) : List (Str × Str) := m.keys.filterMap (fun k => (m.find k).map (fun v => (k, v)))

/-- The loop of `EnabledHandler`; `first` goes along. -/
def enabledParam (enableParams : UMap Str Str) : Str :=
  ((entries enableParams).foldl (fun (r : Str × Bool) p =>
    ((if r.2 then r.1 else r.1 ++ str ",") ++ p.1 ++ str ":" ++ p.2, false)) ([], true)).1

/-- `AddAnalysisTopic`: the params of the topic. -/
def addAnalysisTopic (params : List Str) : Str := concat params (str ",")

def streamKey : Str := str "micro_arch_tidnocmp_config_stream"

/-- The params of the topic `microarch_tidnocmp`. -/
def microarchParams (analysisTime : ℤ) (stream : Str) : Str :=
  addAnalysisTopic [str "t:" ++ showInt analysisTime, streamKey ++ str ":" ++ stream]

end Client

open Client

/-- Parameters that can be told apart. -/
def Separable (m : UMap Str Str) : Prop := ∀ k v, m.find k = some v → 44 ∉ k ∧ 58 ∉ k ∧ 44 ∉ v

/-! ### Pairs -/

/-- A round of the loop of `GetKeyValueFromString`. -/
def addPair (result : UMap Str Str) (pair : Str) : UMap Str Str :=
  if 58 ∈ pair then result.insert (pair.takeWhile (· ≠ 58)) ((pair.dropWhile (· ≠ 58)).drop 1) else result

theorem getKeyValueFromString_eq (params : Str) :
    getKeyValueFromString params = (params.splitOn 44).foldl addPair .empty := rfl

theorem addPair_pair (result : UMap Str Str) {k : Str} (hk : 58 ∉ k) (v : Str) :
    addPair result (k ++ 58 :: v) = result.insert k v := by
  have hall : ∀ c ∈ k, (decide (c ≠ 58)) = true := fun c hc => decide_eq_true (fun h => hk (h ▸ hc))
  unfold addPair
  rw [if_pos (by simp), List.takeWhile_append_of_pos hall, List.dropWhile_append_of_pos hall]
  simp

/-- What comes out has no separators in it. -/
theorem separable_foldl : ∀ {pairs : List Str} {m : UMap Str Str}, (∀ p ∈ pairs, 44 ∉ p) → Separable m →
    Separable (pairs.foldl addPair m)
  | [], _, _, hm => hm
  | p :: pairs, m, h, hm => by
    obtain ⟨hp, hpairs⟩ := List.forall_mem_cons.mp h
    have hnext : Separable (addPair m p) → Separable ((p :: pairs).foldl addPair m) := separable_foldl hpairs
    refine hnext (fun k v hfind => ?_)
    unfold addPair at hfind
    split at hfind
    · rw [UMap.find_insert] at hfind
      split at hfind
      · rename_i hk
        cases hfind
        rw [hk]
        refine ⟨fun hc => hp ((List.takeWhile_prefix _).subset hc), fun hc => ?_, fun hc => ?_⟩
        · have := List.mem_takeWhile_imp hc
          simp at this
        · exact hp ((List.dropWhile_suffix _).subset (List.mem_of_mem_drop hc))
      · exact hm k v hfind
    · exact hm k v hfind

theorem separable_getKeyValueFromString (params : Str) : Separable (getKeyValueFromString params) :=
  separable_foldl (fun _ hp => not_mem_of_mem_splitOn hp) (fun _ _ h => by cases h)

/-- Pairs that can be told apart are. -/
theorem getKeyValueFromString_pairs {pairs : List (Str × Str)} (h : ∀ p ∈ pairs, 44 ∉ p.1 ∧ 58 ∉ p.1 ∧ 44 ∉ p.2) :
    getKeyValueFromString ([44].intercalate (pairs.map (fun p => p.1 ++ 58 :: p.2))) =
      pairs.foldl (fun m p => m.insert p.1 p.2) .empty := by
  cases hpairs : pairs with
  | nil => rfl
  | cons p ps =>
    rw [← hpairs, getKeyValueFromString_eq, List.splitOn_intercalate 44 (fun s hs => ?_) (by simp [hpairs])]
    · generalize (UMap.empty : UMap Str Str) = m
      clear hpairs
      induction pairs generalizing m with
      | nil => rfl
      | cons q qs ih =>
        obtain ⟨hq, hqs⟩ := List.forall_mem_cons.mp h
        rw [List.map_cons, List.foldl_cons, List.foldl_cons, addPair_pair m hq.2.1, ih hqs]
    · obtain ⟨q, hq, rfl⟩ := List.mem_map.mp hs
      obtain ⟨h1, -, h2⟩ := h q hq
      simp [h1, h2]

/-! ### A map of parameters -/

theorem enabledParam_eq (m : UMap Str Str) :
    enabledParam m = [44].intercalate ((entries m).map (fun p => p.1 ++ 58 :: p.2)) := by
  have hfold : ∀ (pairs : List (Str × Str)) (acc : Str), (pairs.foldl (fun (r : Str × Bool) p =>
      ((if r.2 then r.1 else r.1 ++ str ",") ++ p.1 ++ str ":" ++ p.2, false)) (acc, false)).1 =
        [44].intercalate (acc :: pairs.map (fun p => p.1 ++ 58 :: p.2)) := by
    intro pairs
    induction pairs with
    | nil => exact fun acc => by simp
    | cons p ps ih =>
      intro acc
      rw [List.foldl_cons, if_neg Bool.false_ne_true, ih, List.map_cons]
      cases ps with
      | nil => simp [str]
      | cons q qs => simp [str]
  unfold enabledParam
  cases entries m with
  | nil => rfl
  | cons p ps =>
    rw [List.foldl_cons, if_pos rfl, hfold, List.map_cons]
    simp [str]

theorem find_foldl_insert (m : UMap Str Str) (k : Str) : ∀ (ks : List Str) (r : UMap Str Str),
    ((ks.filterMap (fun k => (m.find k).map (fun v => (k, v)))).foldl (fun m p => m.insert p.1 p.2) r).find k =
      if k ∈ ks then (m.find k).or (r.find k) else r.find k
  | [], r => by simp
  | x :: ks, r => by
    rw [List.filterMap_cons]
    cases hx : m.find x with
    | none =>
      rw [Option.map_none, find_foldl_insert m k ks r]
      by_cases hkx : k = x
      · subst hkx
        rw [hx, if_pos List.mem_cons_self, Option.none_or, ite_self]
      · simp [hkx]
    | some v =>
      rw [Option.map_some, List.foldl_cons, find_foldl_insert m k ks, UMap.find_insert]
      by_cases hkx : k = x
      · subst hkx
        rw [if_pos rfl, if_pos List.mem_cons_self, hx, Option.some_or, Option.some_or, ite_self]
      · simp [hkx]

theorem find_entries (m : UMap Str Str) :
    ((entries m).foldl (fun r p => r.insert p.1 p.2) (.empty : UMap Str Str)).find = m.find := by
  funext k
  rw [entries, find_foldl_insert, UMap.find_empty, Option.or_none]
  by_cases hk : k ∈ m.keys
  · rw [if_pos hk]
  · rw [if_neg hk]
    rw [UMap.mem_keys, Option.not_isSome_iff_eq_none] at hk
    exact hk.symm

theorem mem_entries {m : UMap Str Str} {p : Str × Str} (h : p ∈ entries m) : m.find p.1 = some p.2 := by
  obtain ⟨k, -, hp⟩ := List.mem_filterMap.mp h
  obtain ⟨v, hv, rfl⟩ := Option.map_eq_some_iff.mp hp
  exact hv

/-- A map comes out as it went in exactly if its parameters can be told apart. -/
theorem find_enabledParam (m : UMap Str Str) :
    (getKeyValueFromString (enabledParam m)).find = m.find ↔ Separable m := by
  constructor
  · intro h k v hfind
    rw [← h] at hfind
    exact separable_getKeyValueFromString _ k v hfind
  · intro h
    rw [enabledParam_eq, getKeyValueFromString_pairs (fun p hp => h p.1 p.2 (mem_entries hp)), find_entries]

/-! ### A stream -/

theorem not_mem_showInt {c : UInt8} (h : c < 45 ∨ 57 < c) (n : ℤ) : c ∉ showInt n := by
  have hdigits : c ∉ toStr n.natAbs := by
    intro hc
    have := mem_toStr hc
    rcases h with h | h
    · have h45 : (45 : UInt8) < 48 := by decide
      exact absurd this.1 (UInt8.not_le.mpr (UInt8.lt_trans h h45))
    · exact absurd this.2 (UInt8.not_le.mpr h)
  unfold showInt
  split
  · rw [List.mem_cons, not_or]
    refine ⟨?_, hdigits⟩
    rintro rfl
    exact absurd h (by decide)
  · exact hdigits

/-- A stream comes out as it went in exactly if it has neither a separator nor the end of a string in it. -/
theorem param_microarch (analysisTime : ℤ) (stream : Str) :
    param (microarchParams analysisTime stream) streamKey = some stream ↔ 44 ∉ stream ∧ 0 ∉ stream := by
  constructor
  · intro h
    obtain ⟨v, hv, rfl⟩ := Option.map_eq_some_iff.mp h
    obtain ⟨-, -, hcomma⟩ := separable_getKeyValueFromString _ streamKey v hv
    refine ⟨fun hc => hcomma ((List.takeWhile_prefix _).subset hc), fun hc => ?_⟩
    have := List.mem_takeWhile_imp hc
    simp at this
  · rintro ⟨hcomma, hnul⟩
    have hpairs : microarchParams analysisTime stream =
        [44].intercalate ([(str "t", showInt analysisTime), (streamKey, stream)].map (fun p => p.1 ++ 58 :: p.2)) := by
      simp [microarchParams, addAnalysisTopic, concat, str]
    have hkey : 44 ∉ streamKey ∧ 58 ∉ streamKey := by decide
    have htime : 44 ∉ showInt analysisTime := not_mem_showInt (by decide) _
    have hstream : cStr stream = stream :=
      List.takeWhile_eq_self_iff.mpr (fun c hc => decide_eq_true (fun h => hnul (h ▸ hc)))
    rw [param, hpairs, getKeyValueFromString_pairs]
    · simp [hstream]
    · simp [hkey, htime, hcomma]
      decide

/-- **TOLD APART UNLESS A SEPARATOR IS IN THEM.** Whatever parameters a client accepts, in whatever order they are
    passed on, an instance has what was typed exactly if no key has a `,` or a `:` and no value a `,`; a
    configuration arrives exactly if it has no `,` and no `NUL`. -/
theorem parameters_iff (args order : List Str) (m : UMap Str Str) (analysisTime : ℤ) (stream : Str) :
    (initEnable args .empty = some m →
      ((getKeyValueFromString (enabledParam (m.reorder order))).find = m.find ↔ Separable m)) ∧
    (param (microarchParams analysisTime stream) streamKey = some stream ↔ 44 ∉ stream ∧ 0 ∉ stream) := by
  refine ⟨fun _ => ?_, param_microarch analysisTime stream⟩
  have h := find_enabledParam (m.reorder order)
  rw [UMap.find_reorder] at h
  rw [h]
  unfold Separable
  rw [UMap.find_reorder]

/-- A list of names, separated as the guide says. -/
theorem not_parameters_list : ¬ ((∀ (args : List Str) (order : List Str) (m : UMap Str Str),
      initEnable args .empty = some m → (getKeyValueFromString (enabledParam (m.reorder order))).find = m.find) ∧
    ∀ (analysisTime : ℤ) (stream : Str), param (microarchParams analysisTime stream) streamKey = some stream) := by
  rintro ⟨h, -⟩
  have hfind := congrFun (h [str "-cmd", str "-W a,b"] [str "cmd"] _ rfl) (str "cmd")
  revert hfind
  decide +kernel

end OeAware

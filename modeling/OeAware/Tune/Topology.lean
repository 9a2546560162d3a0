import Mathlib.Data.List.GetD
import Mathlib.Data.List.Sort
import OeAware.Tune.CpuLists
import OeAware.Tune.Effects

/-! @src src/plugin/tune/docker/cluster_affinity/topology.cpp, cluster_selector.cpp,
    cluster_affinity_adapt.cpp | name:ProcessCpuTopology, SelectIdleCluster, InitSystemClusters |
    scheme:two-numberings

    The `cpulist` of one node after another is read into the same string, which a file without a word
    leaves as it was. The clusters of a node are those its CPUs are in where they are registered, and an
    equal share of all of them where one is chosen.

        registered   v[0] / k, v[k] / k, v[2k] / k, ..
        scanned      q * i, q * i + 1, q * i + 2, ..        q = clusterNum / numaNodeNum -/

namespace OeAware
open Schemes

namespace ClusterAffinity

/-! ### Reading the files -/

/-- What is between the commas. -/
def pieces (cpuListStr : Str) : List Str :=
  let ranges := cpuListStr.splitOn 44
  if ranges.getLast? = some [] then ranges.dropLast else ranges

/-- What a range adds to `cpuNum`. -/
def rangeSize (range : Str) : Except Fault ℤ :=
  if 45 ∈ range then do
    let start ← toNumber (range.takeWhile (· ≠ 45))
    let last ← toNumber ((range.dropWhile (· ≠ 45)).drop 1)
    return last - start + 1
  else return 1

/-- The loop over the nodes, which a missing file ends; `none` is that it returns `-1`. -/
def processNodes : List (Option Str) → Str → Except Fault (Option ℤ × List (List ℕ))
  | [], _ => .ok (some 0, [])
  | none :: files, _ => .ok (none, [] :: files.map (fun _ => []))
  | some file :: files, cpuListStr => do
    let cpuListStr := readWord file cpuListStr
    let cpus ← transformStrToVec cpuListStr
    let sizes ← (pieces cpuListStr).mapM rangeSize
    let (cpuNum, nodes) ← processNodes files cpuListStr
    return (cpuNum.map (sizes.sum + ·), cpus :: nodes)

/-- The CPUs of a cluster, by the first range of `cluster_cpus_list`. -/
def readClusterSize : Option Str → Except Fault ℤ
  | none => .ok 0
  | some file => do
    let clusterCpuList := readWord file []
    let start ← toNumber (clusterCpuList.takeWhile (· ≠ 45))
    let last ← toNumber
      (if 45 ∈ clusterCpuList then (clusterCpuList.dropWhile (· ≠ 45)).drop 1 else clusterCpuList)
    return last - start + 1

/-- `Topology()`, where there is a file or not for each of the configured nodes. The kernel lists no range
    that ends before it starts, so no number is negative. -/
def processCpuTopology (clusterCpuList offlineCpu : Option Str) (cpulists : List (Option Str))
    (isSmtEnable : Bool) : Except Fault Topology := do
  let oneClusterCpuNum ← readClusterSize clusterCpuList
  let (cpuNum, cpuTopology) ← processNodes cpulists []
  return {
    numaNodeNum := cpulists.length
    clusterNum := (cpuNum.getD 0).toNat / oneClusterCpuNum.toNat
    oneClusterCpuNum := oneClusterCpuNum.toNat
    cpuTopology
    isSystemOfflineCpu := readWord (offlineCpu.getD []) [] ≠ []
    isSmtEnable }

/-! ### What the kernel shows -/

/-- A node without a file, or one with its CPUs in ascending order in the kernel's format. -/
inductive Shows : Option Str → Option (List ℕ) → Prop
  | missing : Shows none none
  | file {s : Str} {cpus : List ℕ} : Lists s cpus → cpus.Pairwise (· < ·) → Shows (some (s ++ [10])) (some cpus)

/-- The CPUs of a node. -/
def cpusOf (node : Option (List ℕ)) : List ℕ := node.getD []

theorem isSpace_of_le {c : UInt8} (h : 44 ≤ c) : isSpace c = false := by
  unfold isSpace
  grind

theorem le_of_mem_showRange {r : ℕ × ℕ} {c : UInt8} (h : c ∈ showRange r) : 44 ≤ c := by
  have hdigit : ∀ n, c ∈ toStr n → 44 ≤ c := fun n hc =>
    UInt8.le_trans (by decide) (mem_toStr hc).1
  unfold showRange at h
  split at h
  · exact hdigit _ h
  · rcases List.mem_append.mp h with h | h
    · exact hdigit _ h
    · rcases List.mem_cons.mp h with rfl | h
      · decide
      · exact hdigit _ h

theorem le_of_mem_showRanges : ∀ {rs : List (ℕ × ℕ)} {c : UInt8},
    c ∈ [44].intercalate (rs.map showRange) → 44 ≤ c
  | [], _, h => by cases h
  | [r], _, h => by
    rw [List.map_singleton, List.intercalate_singleton] at h
    exact le_of_mem_showRange h
  | r :: r' :: rs, c, h => by
    rw [List.map_cons, List.map_cons, List.intercalate_cons_cons, ← List.map_cons, List.append_assoc,
      List.mem_append, List.singleton_append, List.mem_cons] at h
    rcases h with h | rfl | h
    · exact le_of_mem_showRange h
    · decide
    · exact le_of_mem_showRanges h

/-- A line with a list in it is read, and one without leaves the string alone. -/
theorem readWord_of_lists {s : Str} {v : List ℕ} (h : Lists s v) (old : Str) :
    readWord (s ++ [10]) old = if s = [] then old else s := by
  have hspace : ∀ c ∈ s, isSpace c = false := by
    obtain ⟨rs, -, rfl, -⟩ := h
    exact fun c hc => isSpace_of_le (le_of_mem_showRanges hc)
  cases s with
  | nil => rfl
  | cons c s =>
    have hpos : ∀ d ∈ c :: s, (!isSpace d) = true := fun d hd => by rw [hspace d hd]; rfl
    have hdrop : ((c :: s) ++ [10]).dropWhile isSpace = (c :: s) ++ [10] :=
      List.dropWhile_cons_of_neg (by rw [hspace c List.mem_cons_self]; decide)
    have htake : ([10] : Str).takeWhile (fun c => !isSpace c) = [] := by decide
    unfold readWord
    dsimp only
    rw [hdrop, List.takeWhile_append_of_pos hpos, htake, List.append_nil]

theorem rangeSize_show {r : ℕ × ℕ} (h : r.1 ≤ r.2 ∧ r.2 < 2 ^ 31 - 1) :
    rangeSize (showRange r) = .ok ((expandRange r).length : ℤ) := by
  obtain ⟨a, b⟩ := r
  dsimp only at h
  unfold showRange expandRange
  by_cases hab : a = b
  · subst hab
    have h45 : 45 ∉ toStr a := not_mem_toStr (by decide) a
    rw [if_pos rfl, rangeSize, if_neg h45]
    simp [pure, Except.pure]
  · obtain ⟨htake, hdrop⟩ := split_dash a b
    have hlen : ((b + 1 - a : ℕ) : ℤ) = b - a + 1 := by omega
    rw [if_neg hab, rangeSize, if_pos (by simp), htake, hdrop, toNumber_toStr (by omega),
      toNumber_toStr (by omega), List.length_range', hlen]
    rfl

theorem pieces_showRanges (rs : List (ℕ × ℕ)) :
    pieces ([44].intercalate (rs.map showRange)) = rs.map showRange := by
  cases rs with
  | nil => rfl
  | cons r rs =>
    have hlast : ((r :: rs).map showRange).getLast? ≠ some [] := by
      intro h
      obtain ⟨x, -, hx⟩ := List.mem_map.mp (List.mem_of_getLast? h)
      exact showRange_ne_nil x hx
    rw [pieces, splitOn_showRanges (List.cons_ne_nil r rs)]
    exact if_neg hlast

theorem mapM_rangeSize : ∀ {rs : List (ℕ × ℕ)}, (∀ r ∈ rs, r.1 ≤ r.2 ∧ r.2 < 2 ^ 31 - 1) →
    (rs.map showRange).mapM rangeSize = .ok (rs.map (fun r => ((expandRange r).length : ℤ)))
  | [], _ => rfl
  | r :: rs, h => by
    obtain ⟨hr, hrs⟩ := List.forall_mem_cons.mp h
    rw [List.map_cons, List.mapM_cons, rangeSize_show hr, mapM_rangeSize hrs]
    rfl

/-- A list counts what it lists. -/
theorem sizes_of_lists {s : Str} {v : List ℕ} (h : Lists s v) :
    ∃ sizes, (pieces s).mapM rangeSize = .ok sizes ∧ sizes.sum = v.length := by
  obtain ⟨rs, hrs, rfl, rfl⟩ := h
  refine ⟨_, by rw [pieces_showRanges, mapM_rangeSize hrs], ?_⟩
  rw [List.length_flatten, List.map_map]
  induction rs with
  | nil => rfl
  | cons r rs ih =>
    rw [List.map_cons, List.sum_cons, List.map_cons, List.sum_cons,
      ih (fun x hx => hrs x (List.mem_cons_of_mem r hx))]
    push_cast
    rfl

/-- What is read of the nodes, where `v` has been read before. -/
def built (v : List ℕ) : List (Option (List ℕ)) → List (List ℕ)
  | [] => []
  | none :: nodes => [] :: nodes.map (fun _ => [])
  | some cpus :: nodes =>
    let cpus := if cpus = [] then v else cpus
    cpus :: built cpus nodes

/-- How many CPUs are counted, if no file is missing. -/
def counted (v : List ℕ) (nodes : List (Option (List ℕ))) : Option ℤ :=
  if nodes.all Option.isSome then some ((built v nodes).map List.length).sum else none

theorem processNodes_shows : ∀ {files : List (Option Str)} {nodes : List (Option (List ℕ))} {s : Str}
    {v : List ℕ}, Lists s v → List.Forall₂ Shows files nodes →
    processNodes files s = .ok (counted v nodes, built v nodes)
  | [], [], _, _, _, _ => rfl
  | _ :: files, _ :: nodes, s, v, hs, .cons .missing hrest => by
    have hlen := hrest.length_eq
    simp [processNodes, counted, built, List.map_const', hlen]
  | _ :: files, _ :: nodes, s, v, hs, .cons (@Shows.file s' cpus hs' hasc) hrest => by
    have hnext : Lists (if s' = [] then s else s') (if cpus = [] then v else cpus) := by
      by_cases h : s' = []
      · rw [if_pos h, if_pos (hs'.eq_nil_iff.mp h)]
        exact hs
      · rw [if_neg h, if_neg (fun hc => h (hs'.eq_nil_iff.mpr hc))]
        exact hs'
    obtain ⟨sizes, hsizes, hsum⟩ := sizes_of_lists hnext
    rw [processNodes, readWord_of_lists hs', transformStrToVec_of_lists hnext, hsizes]
    simp only [bind, Except.bind, pure, Except.pure, processNodes_shows hnext hrest, hsum]
    by_cases hall : nodes.all Option.isSome = true
    · simp [counted, built, hall]
    · simp [counted, built, hall]

/-- A node without CPUs has the CPUs of no node before it. -/
def After (v w : Option (List ℕ)) : Prop := cpusOf w = [] → cpusOf v = []

/-- The lists are those of the nodes if the nodes without CPUs come first, and those after a missing file have
    none. -/
theorem built_eq_iff : ∀ {nodes : List (Option (List ℕ))} {v : List ℕ},
    built v nodes = nodes.map cpusOf ↔
      (∀ w ∈ nodes.dropWhile Option.isSome, cpusOf w = []) ∧
        (some v :: nodes.takeWhile Option.isSome).Pairwise After
  | [], v => by simp [built]
  | none :: nodes, v => by
    simp only [built, List.map_cons, cpusOf, Option.getD_none, Option.isSome_none, Bool.false_eq_true,
      not_false_eq_true, List.dropWhile_cons_of_neg, List.takeWhile_cons_of_neg, List.mem_cons,
      forall_eq_or_imp, true_and, List.cons.injEq, List.pairwise_singleton, and_true]
    rw [eq_comm, List.map_inj_left]
    rfl
  | some cpus :: nodes, v => by
    rw [built, List.map_cons, List.cons.injEq, built_eq_iff, List.takeWhile_cons_of_pos rfl,
      List.dropWhile_cons_of_pos rfl, List.pairwise_cons (a := some v), List.forall_mem_cons]
    by_cases hc : cpus = []
    · subst hc
      have hsome : cpusOf (some v) = v := rfl
      rw [if_pos rfl]
      constructor
      · rintro ⟨hv, hrest, hord⟩
        have hv : v = [] := hv
        subst hv
        exact ⟨hrest, ⟨fun _ => rfl, fun w _ _ => rfl⟩, hord⟩
      · rintro ⟨hrest, ⟨hv, -⟩, hord⟩
        have hv : v = [] := hv rfl
        subst hv
        exact ⟨rfl, hrest, hord⟩
    · rw [if_neg hc]
      constructor
      · rintro ⟨-, hrest, hord⟩
        refine ⟨hrest, ⟨fun h => absurd h hc, fun w hw hnil => ?_⟩, hord⟩
        exact absurd (List.rel_of_pairwise_cons hord hw hnil) hc
      · rintro ⟨hrest, -, hord⟩
        exact ⟨rfl, hrest, hord⟩

/-! ### What is registered -/

/-- The clusters of a node's CPUs, one for each whole block. -/
def clusterIds (k : ℕ) (cpus : List ℕ) : List ℕ :=
  (List.range (cpus.length / k)).map (fun j => cpus.getD (j * k) 0 / k)

theorem ids_blocks (T : Topology) (cpus : List ℕ) :
    (blocks T cpus).map (fun block => block.headD 0 / T.oneClusterCpuNum) =
      clusterIds T.oneClusterCpuNum cpus := by
  rw [blocks, clusterIds, List.map_map]
  refine List.map_congr_left (fun j hj => ?_)
  have hj := List.mem_range.mp hj
  have hk : 0 < T.oneClusterCpuNum := by
    refine Nat.pos_of_ne_zero (fun h0 => ?_)
    rw [h0, Nat.div_zero] at hj
    exact absurd hj (Nat.not_lt_zero j)
  obtain ⟨k, hk⟩ := Nat.exists_eq_succ_of_ne_zero hk.ne'
  rw [Function.comp_apply, List.headD_eq_head?_getD, hk, List.head?_take, if_neg (Nat.succ_ne_zero k),
    List.head?_drop, List.getD_eq_getElem?_getD]

theorem numa_initCluster (T : Topology) (i : ℕ) : ∀ (bs : List (List ℕ)) (s : State) (nid : ℕ),
    (bs.foldl (initCluster T i) s).numa nid =
      if nid = i then
        ⟨(s.numa i).freeInfoVec ++ bs.map (fun b => b.headD 0 / T.oneClusterCpuNum),
          (s.numa i).occupiedInfoVec⟩
      else s.numa nid
  | [], s, nid => by
    split
    · rename_i h
      subst h
      simp
    · rfl
  | b :: bs, s, nid => by
    have hstep : ∀ x, (initCluster T i s b).numa x =
        if x = i then ⟨(s.numa i).freeInfoVec ++ [b.headD 0 / T.oneClusterCpuNum],
          (s.numa i).occupiedInfoVec⟩ else s.numa x := by
      intro x
      unfold initCluster State.setCluster State.setNuma State.numa
      dsimp only
      rw [UMap.find_insert]
      split <;> rfl
    rw [List.foldl_cons, numa_initCluster T i bs, hstep, hstep, if_pos rfl, List.map_cons]
    split
    · simp
    · rfl

theorem numa_initSystemClusters (T : Topology) {s : State} (hs : ∀ nid, s.numa nid = ⟨[], []⟩) (nid : ℕ) :
    (initSystemClusters T s).numa nid =
      ⟨clusterIds T.oneClusterCpuNum ((T.cpuTopology[nid]?).getD []), []⟩ := by
  have hfold : ∀ (nodes : List (List ℕ)) (i : ℕ) (s : State), (∀ n, i ≤ n → s.numa n = ⟨[], []⟩) →
      ((nodes.zipIdx i).foldl (fun s p => (blocks T p.1).foldl (initCluster T p.2) s) s).numa nid =
        if nid < i then s.numa nid
        else ⟨clusterIds T.oneClusterCpuNum ((nodes[nid - i]?).getD []), []⟩ := by
    intro nodes
    induction nodes with
    | nil =>
      intro i s hs
      split
      · rfl
      · rename_i hi
        rw [List.zipIdx_nil, List.foldl_nil, hs nid (not_lt.mp hi)]
        simp [clusterIds]
    | cons cpus nodes ih =>
      intro i s hs
      rw [List.zipIdx_cons, List.foldl_cons, ih (i + 1)]
      · rw [numa_initCluster, hs i (le_refl i), List.nil_append, ids_blocks]
        rcases Nat.lt_trichotomy nid i with hlt | rfl | hgt
        · rw [if_pos (by omega), if_neg (by omega), if_pos hlt]
        · simp
        · have hsub : nid - i = nid - (i + 1) + 1 := by omega
          rw [if_neg (by omega), if_neg (by omega), hsub, List.getElem?_cons_succ]
      · intro n hn
        rw [numa_initCluster, if_neg (by omega), hs n (by omega)]
  have h := hfold T.cpuTopology 0 s (fun n _ => hs n)
  rw [if_neg (Nat.not_lt_zero nid), Nat.sub_zero] at h
  exact h

/-! ### What is scanned -/

/-- The clusters that `SelectIdleCluster` looks at where `used` has `n` elements. -/
def scanned (T : Topology) (node n : ℕ) : List ℕ :=
  List.range' (T.clusterNum / T.numaNodeNum * node) (ClusterSelector.clustersSeen T (List.replicate n false))

theorem clustersSeen_replicate (T : Topology) (used : List Bool) :
    ClusterSelector.clustersSeen T (List.replicate used.length false) =
      ClusterSelector.clustersSeen T used := by
  unfold ClusterSelector.clustersSeen
  rw [List.length_replicate]

theorem clustersSeen_le (T : Topology) (used : List Bool) :
    ClusterSelector.clustersSeen T used ≤ used.length := by
  unfold ClusterSelector.clustersSeen
  dsimp only
  split
  · exact le_refl _
  · exact Nat.min_le_right _ _

/-- It goes through them in their order, and what it chooses is one of them. -/
theorem mem_scanned_of_selected {D : Type} {sel : ClusterSelector D} {T : Topology} {node clusterId : ℕ}
    {used : List Bool} (h : sel.selectIdleCluster T node used = some clusterId) :
    clusterId ∈ scanned T node used.length := by
  unfold ClusterSelector.selectIdleCluster at h
  split at h
  · cases h
  · have hfold : ∀ (l : List (Bool × ℕ)) (best : UInt64 × Option ℕ),
        (∀ id, best.2 = some id → id ∈ scanned T node used.length) →
        (∀ p ∈ l, p.2 < ClusterSelector.clustersSeen T used) →
        ∀ id, (l.foldl (fun (best : UInt64 × Option ℕ) p =>
          let sum := sel.scclL3cSum (T.clusterNum / T.numaNodeNum * node + p.2)
          if best.1 > sum && !p.1 then (sum, some (T.clusterNum / T.numaNodeNum * node + p.2)) else best)
          best).2 = some id → id ∈ scanned T node used.length := by
      intro l
      induction l with
      | nil => exact fun best hbest _ id hid => hbest id hid
      | cons p l ih =>
        intro best hbest hl
        obtain ⟨hp, hl⟩ := List.forall_mem_cons.mp hl
        refine ih _ (fun id hid => ?_) hl
        dsimp only at hid
        split at hid
        · cases hid
          refine List.mem_range'_1.mpr ⟨Nat.le_add_right _ _, ?_⟩
          rw [clustersSeen_replicate]
          omega
        · exact hbest id hid
    refine hfold _ _ (fun id hid => by cases hid) (fun p hp => ?_) clusterId h
    obtain ⟨-, hlt, -⟩ := List.mem_zipIdx hp
    rw [List.length_take] at hlt
    omega

/-! ### The two numberings -/

/-- An ascending list grows by at least one from each element to the next. -/
theorem getD_add_le {v : List ℕ} (h : v.Pairwise (· < ·)) (i : ℕ) :
    ∀ n, i + n < v.length → v.getD i 0 + n ≤ v.getD (i + n) 0
  | 0, _ => le_refl _
  | n + 1, hn => by
    have hprev := getD_add_le h i n (by omega)
    have hlt : v.getD (i + n) 0 < v.getD (i + (n + 1)) 0 := by
      rw [List.getD_eq_getElem _ _ (by omega), List.getD_eq_getElem _ _ hn]
      exact List.pairwise_iff_getElem.mp h _ _ _ _ (by omega)
    omega

/-- Each whole block of a node begins in a later cluster. -/
theorem clusterIds_ascending {v : List ℕ} (h : v.Pairwise (· < ·)) (k : ℕ) :
    (clusterIds k v).Pairwise (· < ·) := by
  unfold clusterIds
  rw [List.pairwise_map]
  refine List.pairwise_lt_range.imp_of_mem (fun {i j} hi hj hij => ?_)
  have hj := List.mem_range.mp hj
  have hk : 0 < k := by
    refine Nat.pos_of_ne_zero (fun h0 => ?_)
    rw [h0, Nat.div_zero] at hj
    exact absurd hj (Nat.not_lt_zero j)
  have hlast : (j + 1) * k ≤ v.length := (Nat.le_div_iff_mul_le hk).mp hj
  have hle : i * k + k ≤ j * k := by
    rw [← Nat.succ_mul]
    exact Nat.mul_le_mul_right k hij
  rw [Nat.succ_mul] at hlast
  have hgrow := getD_add_le h (i * k) (j * k - i * k) (by omega)
  rw [Nat.add_sub_cancel' (by omega)] at hgrow
  calc v.getD (i * k) 0 / k < (v.getD (i * k) 0 + k) / k := by
        rw [Nat.add_div_right _ hk]
        exact Nat.lt_succ_self _
    _ ≤ v.getD (j * k) 0 / k := Nat.div_le_div_right (by omega)

/-- Two ascending lists with the same elements are the same. -/
theorem eq_of_ascending {l l' : List ℕ} (h : l.Pairwise (· < ·)) (h' : l'.Pairwise (· < ·)) :
    (∀ x, x ∈ l ↔ x ∈ l') ↔ l = l' := by
  constructor
  · intro hmem
    have hnd : ∀ {l : List ℕ}, l.Pairwise (· < ·) → l.Nodup := fun h => h.imp (fun hlt => Nat.ne_of_lt hlt)
    exact ((List.perm_ext_iff_of_nodup (hnd h) (hnd h')).mpr hmem).eq_of_pairwise
      (fun a b _ _ hab hba => absurd hab (Nat.lt_asymm hba)) h h'
  · rintro rfl
    exact fun _ => Iff.rfl

/-- The two numberings of a node's clusters are the same. -/
theorem scanned_eq_iff (T : Topology) (i : ℕ) (v : List ℕ) :
    scanned T i (v.length / T.oneClusterCpuNum) = clusterIds T.oneClusterCpuNum v ↔
      (∀ j < v.length / T.oneClusterCpuNum,
        v.getD (j * T.oneClusterCpuNum) 0 / T.oneClusterCpuNum = T.clusterNum / T.numaNodeNum * i + j) ∧
      (T.clusterNum / T.numaNodeNum = 0 ∨
        v.length / T.oneClusterCpuNum ≤ T.clusterNum / T.numaNodeNum) := by
  have hseen : ClusterSelector.clustersSeen T (List.replicate (v.length / T.oneClusterCpuNum) false) =
      v.length / T.oneClusterCpuNum ↔ (T.clusterNum / T.numaNodeNum = 0 ∨
        v.length / T.oneClusterCpuNum ≤ T.clusterNum / T.numaNodeNum) := by
    unfold ClusterSelector.clustersSeen
    dsimp only
    rw [List.length_replicate]
    split
    · simp [*]
    · omega
  rw [← hseen, scanned, clusterIds, List.range'_eq_map_range]
  constructor
  · intro h
    have hlen := congrArg List.length h
    rw [List.length_map, List.length_map, List.length_range, List.length_range] at hlen
    rw [hlen, List.map_inj_left] at h
    exact ⟨fun j hj => (h j (List.mem_range.mpr hj)).symm, hlen⟩
  · rintro ⟨hids, hlen⟩
    rw [hlen]
    exact List.map_congr_left (fun j hj => (hids j (List.mem_range.mp hj)).symm)

/-- The clusters that `InitSystemClusters` gives a node. -/
def registered (T : Topology) (nid : ℕ) : List ℕ :=
  ((initSystemClusters T ⟨false, true, .empty, .empty, .empty, .empty⟩).numa nid).freeInfoVec

/-- The topology is that of the nodes, and both sides number the clusters of each alike. -/
structure Agrees (T : Topology) (nodes : List (Option (List ℕ))) : Prop where
  lists : T.cpuTopology = nodes.map cpusOf
  once : ∀ cpu, (∃ v ∈ nodes, cpu ∈ cpusOf v) → ∃! i : ℕ, ∃ v : List ℕ, T.cpuTopology[i]? = some v ∧ cpu ∈ v
  clusters : ∀ i v, T.cpuTopology[i]? = some v → ∀ clusterId,
    clusterId ∈ scanned T i (v.length / T.oneClusterCpuNum) ↔ clusterId ∈ registered T i
  index : ∀ i v, T.cpuTopology[i]? = some v → v.length / T.oneClusterCpuNum ≠ 0 →
    T.clusterNum / T.numaNodeNum * i = v.headD 0 / T.oneClusterCpuNum

/-- The share of each node in the clusters of all; without a file nothing is counted. -/
def share (k : ℕ) (nodes : List (Option (List ℕ))) : ℕ :=
  (if nodes.all Option.isSome then (nodes.map (fun v => (cpusOf v).length)).sum else 0) / k / nodes.length

/-- Nodes without CPUs come first and none with CPUs after a missing file; the whole clusters are numbered
    through the nodes, and no node has more than its share of them, if there is one. -/
structure Regular (k : ℕ) (nodes : List (Option (List ℕ))) : Prop where
  read : ∀ v ∈ nodes.dropWhile Option.isSome, cpusOf v = []
  order : (nodes.takeWhile Option.isSome).Pairwise After
  numbered : ∀ i v, nodes[i]? = some v → ∀ j < (cpusOf v).length / k,
    (cpusOf v).getD (j * k) 0 / k = share k nodes * i + j
  shared : ∀ v ∈ nodes, share k nodes = 0 ∨ (cpusOf v).length / k ≤ share k nodes

theorem registered_eq {T : Topology} {nid : ℕ} {v : List ℕ} (h : T.cpuTopology[nid]? = some v) :
    registered T nid = clusterIds T.oneClusterCpuNum v := by
  rw [registered, numa_initSystemClusters T (fun _ => rfl), h, Option.getD_some]

/-- Disjoint nodes have a CPU only once. -/
theorem existsUnique_node {nodes : List (Option (List ℕ))}
    (hdisj : nodes.Pairwise (fun v w => List.Disjoint (cpusOf v) (cpusOf w))) {cpu : ℕ}
    (h : ∃ v ∈ nodes, cpu ∈ cpusOf v) :
    ∃! i : ℕ, ∃ v : List ℕ, (nodes.map cpusOf)[i]? = some v ∧ cpu ∈ v := by
  obtain ⟨v, hv, hcpu⟩ := h
  obtain ⟨i, hi, rfl⟩ := List.mem_iff_getElem.mp hv
  refine ⟨i, ⟨cpusOf nodes[i], by simp [hi], hcpu⟩, fun j ⟨w, hw, hcpu'⟩ => ?_⟩
  rw [List.getElem?_map, Option.map_eq_some_iff] at hw
  obtain ⟨x, hx, rfl⟩ := hw
  obtain ⟨hj, rfl⟩ := List.getElem?_eq_some_iff.mp hx
  rcases Nat.lt_trichotomy j i with hlt | heq | hgt
  · exact absurd hcpu (List.pairwise_iff_getElem.mp hdisj j i hj hi hlt hcpu')
  · exact heq
  · exact absurd hcpu' (List.pairwise_iff_getElem.mp hdisj i j hi hj hgt hcpu)

/-- What is read is what the kernel shows. -/
theorem processCpuTopology_eq {clusterCpuList offlineCpu : Option Str} {cpulists : List (Option Str)}
    {isSmtEnable : Bool} {nodes : List (Option (List ℕ))} {T : Topology}
    (hshow : List.Forall₂ Shows cpulists nodes)
    (h : processCpuTopology clusterCpuList offlineCpu cpulists isSmtEnable = .ok T) :
    T.numaNodeNum = nodes.length ∧ T.cpuTopology = built [] nodes ∧
      T.clusterNum = ((counted [] nodes).getD 0).toNat / T.oneClusterCpuNum := by
  obtain ⟨k, -, h⟩ := bind_ok h
  obtain ⟨⟨cpuNum, lists⟩, hnodes, h⟩ := bind_ok h
  have hnil : Lists [] [] := ⟨[], by simp, rfl, rfl⟩
  rw [processNodes_shows hnil hshow] at hnodes
  cases hnodes
  cases h
  exact ⟨hshow.length_eq, rfl, rfl⟩

/-- The CPUs of a node are shown in ascending order. -/
theorem ascending_of_shows : ∀ {files : List (Option Str)} {nodes : List (Option (List ℕ))},
    List.Forall₂ Shows files nodes → ∀ v ∈ nodes, (cpusOf v).Pairwise (· < ·)
  | [], [], _, _, hv => by cases hv
  | _ :: _, _ :: _, .cons hfile hrest, v, hv => by
    rcases List.mem_cons.mp hv with rfl | hv
    · cases hfile with
      | missing => exact List.Pairwise.nil
      | file _ hasc => exact hasc
    · exact ascending_of_shows hrest v hv

/-- With the right lists it is the numbers of the clusters that matter. -/
theorem agrees_iff {T : Topology} {nodes : List (Option (List ℕ))}
    (hdisj : nodes.Pairwise (fun v w => List.Disjoint (cpusOf v) (cpusOf w)))
    (hasc : ∀ v ∈ nodes, (cpusOf v).Pairwise (· < ·)) :
    Agrees T nodes ↔ T.cpuTopology = nodes.map cpusOf ∧ ∀ i v, nodes[i]? = some v →
      scanned T i ((cpusOf v).length / T.oneClusterCpuNum) = clusterIds T.oneClusterCpuNum (cpusOf v) := by
  have hscan : ∀ {i : ℕ} {v : List ℕ}, T.cpuTopology[i]? = some v → v.Pairwise (· < ·) →
      ((∀ id, id ∈ scanned T i (v.length / T.oneClusterCpuNum) ↔ id ∈ registered T i) ↔
        scanned T i (v.length / T.oneClusterCpuNum) = clusterIds T.oneClusterCpuNum v) := by
    intro i v hv hasc
    rw [registered_eq hv]
    exact eq_of_ascending List.pairwise_lt_range' (clusterIds_ascending hasc _)
  constructor
  · intro ha
    refine ⟨ha.lists, fun i v hv => ?_⟩
    have hv' : T.cpuTopology[i]? = some (cpusOf v) := by rw [ha.lists, List.getElem?_map, hv]; rfl
    exact (hscan hv' (hasc v (List.mem_of_getElem? hv))).mp (ha.clusters i _ hv')
  · rintro ⟨hlists, hids⟩
    have hnode : ∀ {i : ℕ} {v : List ℕ}, T.cpuTopology[i]? = some v →
        v.Pairwise (· < ·) ∧
          scanned T i (v.length / T.oneClusterCpuNum) = clusterIds T.oneClusterCpuNum v := by
      intro i v hv
      rw [hlists, List.getElem?_map, Option.map_eq_some_iff] at hv
      obtain ⟨w, hw, rfl⟩ := hv
      exact ⟨hasc w (List.mem_of_getElem? hw), hids i w hw⟩
    refine ⟨hlists, fun cpu hcpu => ?_, fun i v hv => (hscan hv (hnode hv).1).mpr (hnode hv).2,
      fun i v hv hne => ?_⟩
    · rw [hlists]
      exact existsUnique_node hdisj hcpu
    · have hnum := ((scanned_eq_iff T i v).mp (hnode hv).2).1 0 (Nat.pos_of_ne_zero hne)
      rw [Nat.zero_mul, Nat.add_zero] at hnum
      rw [← hnum, List.getD_eq_getElem?_getD, ← List.head?_eq_getElem?, List.headD_eq_head?_getD]

/-- WHERE THE TWO NUMBERINGS AGREE: on the topologies read from the files of the nodes that are in order,
    numbered through and of no more than equal shares, and on no others. -/
theorem processCpuTopology_agrees_iff {clusterCpuList offlineCpu : Option Str}
    {cpulists : List (Option Str)} {isSmtEnable : Bool} {nodes : List (Option (List ℕ))} {T : Topology}
    (hshow : List.Forall₂ Shows cpulists nodes)
    (hdisj : nodes.Pairwise (fun v w => List.Disjoint (cpusOf v) (cpusOf w)))
    (h : processCpuTopology clusterCpuList offlineCpu cpulists isSmtEnable = .ok T) :
    Agrees T nodes ↔ Regular T.oneClusterCpuNum nodes := by
  obtain ⟨hnum, hbuilt, hclusters⟩ := processCpuTopology_eq hshow h
  have hlists : T.cpuTopology = nodes.map cpusOf ↔
      (∀ w ∈ nodes.dropWhile Option.isSome, cpusOf w = []) ∧
        (nodes.takeWhile Option.isSome).Pairwise After := by
    rw [hbuilt, built_eq_iff, List.pairwise_cons]
    exact and_congr_right (fun _ => ⟨fun h => h.2, fun h => ⟨fun _ _ _ => rfl, h⟩⟩)
  -- once the lists are right, so is the number of clusters
  have hshare : T.cpuTopology = nodes.map cpusOf →
      T.clusterNum / T.numaNodeNum = share T.oneClusterCpuNum nodes := by
    intro hlists
    rw [hclusters, hnum, share, counted, ← hbuilt, hlists, List.map_map]
    split <;> rfl
  rw [agrees_iff hdisj (ascending_of_shows hshow)]
  constructor
  · rintro ⟨hl, hids⟩
    obtain ⟨hread, horder⟩ := hlists.mp hl
    refine ⟨hread, horder, fun i v hv => ?_, fun v hv => ?_⟩
    · rw [← hshare hl]
      exact ((scanned_eq_iff T i _).mp (hids i v hv)).1
    · obtain ⟨i, hi⟩ := List.mem_iff_getElem?.mp hv
      rw [← hshare hl]
      exact ((scanned_eq_iff T i _).mp (hids i v hi)).2
  · intro hr
    have hl := hlists.mpr ⟨hr.read, hr.order⟩
    refine ⟨hl, fun i v hv => (scanned_eq_iff T i _).mpr ?_⟩
    rw [hshare hl]
    exact ⟨hr.numbered i v hv, hr.shared v (List.mem_of_getElem? hv)⟩

/-! ### Two nodes -/

/-- What is read where `cluster_cpus_list` is `0-1` and no CPU is offline. -/
def sampleRead (cpulists : List (Option Str)) : Except Fault Topology :=
  processCpuTopology (some (str "0-1\n")) (some (str "\n")) cpulists false

theorem shows_sample {s : String} {r : ℕ × ℕ} (hr : r.1 ≤ r.2 ∧ r.2 < 2 ^ 31 - 1)
    (hs : str s = showRange r ++ [10]) : Shows (some (str s)) (some (expandRange r)) := by
  rw [hs]
  refine .file ⟨[r], List.forall_mem_singleton.mpr hr, by simp, by simp⟩ List.pairwise_lt_range'

/-- Two nodes of four CPUs, in clusters of two. -/
theorem agrees_two_nodes : ∃ T, sampleRead [some (str "0-3\n"), some (str "4-7\n")] = .ok T ∧
    Agrees T [some [0, 1, 2, 3], some [4, 5, 6, 7]] := by
  have hread : sampleRead [some (str "0-3\n"), some (str "4-7\n")] =
      .ok ⟨2, 4, 2, [[0, 1, 2, 3], [4, 5, 6, 7]], false, false⟩ := by
    with_unfolding_all rfl
  have hshow : List.Forall₂ Shows [some (str "0-3\n"), some (str "4-7\n")]
      [some [0, 1, 2, 3], some [4, 5, 6, 7]] :=
    .cons (shows_sample (r := (0, 3)) (by decide) (by decide))
      (.cons (shows_sample (r := (4, 7)) (by decide) (by decide)) .nil)
  have hdisj : [some [0, 1, 2, 3], some [4, 5, 6, 7]].Pairwise
      (fun v w => List.Disjoint (cpusOf v) (cpusOf w)) := by
    rw [List.pairwise_pair]
    intro cpu h h'
    simp only [cpusOf, Option.getD_some, List.mem_cons, List.not_mem_nil, or_false] at h h'
    omega
  refine ⟨_, hread, (processCpuTopology_agrees_iff hshow hdisj hread).mpr ⟨?_, ?_, ?_, ?_⟩⟩
  · exact fun v hv => by cases hv
  · exact List.pairwise_pair.mpr (fun h => absurd h (by decide))
  · intro i v hv
    match i, hv with
    | 0, hv => cases hv; decide
    | 1, hv => cases hv; decide
  · decide

/-- A node without CPUs after one that has some is given them as well. -/
theorem agrees_not_memory_node : ∃ T, sampleRead [some (str "0-3\n"), some (str "\n")] = .ok T ∧
    List.Forall₂ Shows [some (str "0-3\n"), some (str "\n")] [some [0, 1, 2, 3], some []] ∧
    ¬ Agrees T [some [0, 1, 2, 3], some []] := by
  have hread : sampleRead [some (str "0-3\n"), some (str "\n")] =
      .ok ⟨2, 4, 2, [[0, 1, 2, 3], [0, 1, 2, 3]], false, false⟩ := by
    with_unfolding_all rfl
  have hnil : Shows (some (str "\n")) (some []) := .file (s := []) ⟨[], by simp, rfl, rfl⟩ .nil
  refine ⟨_, hread, .cons (shows_sample (r := (0, 3)) (by decide) (by decide)) (.cons hnil .nil),
    fun h => ?_⟩
  exact absurd h.lists (by decide)

end ClusterAffinity
end OeAware

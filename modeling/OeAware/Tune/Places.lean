import OeAware.Schemes.Pools
import OeAware.Tune.Picking
import OeAware.Tune.Topology

/-! @src src/plugin/tune/docker/cluster_affinity/cluster_affinity_adapt.cpp |
    name:InitSystemClusters, DockerBindClusters, DockerAddCpuLimitComm, DockerMinusCpuLimitComm |
    scheme:pools

    The cores of a cluster are a pool, and so are the clusters of a node. What is taken of them goes to one
    container: it has some clusters of one node, and of these as many cores as it needs. A cluster that no
    container has is free as a whole.

        node       free ──▶ occupied  =  the bindClusters of its containers
        cluster    free ──▶ occupied  =  cores of the container that has it -/

namespace OeAware
open Schemes
open scoped List

namespace ClusterAffinity

/-! ### The numbering -/

/-- The clusters of a node are whole, and numbered through the nodes, of which each has its share. -/
structure Numbered (T : Topology) : Prop where
  pos : 0 < T.oneClusterCpuNum
  nodes : T.cpuTopology.length = T.numaNodeNum
  shared : ∀ (i : ℕ) (v : List ℕ), T.cpuTopology[i]? = some v → v.length / T.oneClusterCpuNum ≤ T.clusterNum / T.numaNodeNum
  whole : ∀ (i : ℕ) (v : List ℕ), T.cpuTopology[i]? = some v → ∀ j < v.length / T.oneClusterCpuNum,
    (v.drop (j * T.oneClusterCpuNum)).take T.oneClusterCpuNum =
      List.range' ((T.clusterNum / T.numaNodeNum * i + j) * T.oneClusterCpuNum) T.oneClusterCpuNum

/-- The clusters that there are: the cores of each, and those of each node. -/
structure Layout (T : Topology) where
  cores : ℕ → List ℕ
  clusters : ℕ → List ℕ
  cores_nodup : ∀ c, (cores c).Nodup
  cores_home : ∀ c, ∀ x ∈ cores c, x / T.oneClusterCpuNum = c
  enough : ∀ i, ∀ c ∈ clusters i, T.oneClusterCpuNum / T.sep ≤ (cores c).length
  numbered : ∀ i, clusters i ≠ [] → ∃ cpus cpu, T.cpuTopology[i]? = some cpus ∧ cpus.head? = some cpu ∧
    cpu / T.oneClusterCpuNum = T.clusterNum / T.numaNodeNum * i ∧
    clusters i = List.range' (T.clusterNum / T.numaNodeNum * i) (cpus.length / T.oneClusterCpuNum)
  one_node : ∀ i j c, c ∈ clusters i → c ∈ clusters j → i = j

/-- Without a cluster. -/
def Layout.none (T : Topology) : Layout T where
  cores _ := []
  clusters _ := []
  cores_nodup _ := List.nodup_nil
  cores_home _ _ hx := by cases hx
  enough _ _ hc := by cases hc
  numbered _ h := absurd rfl h
  one_node _ _ _ hc := by cases hc

theorem Layout.clusters_nodup {T : Topology} (L : Layout T) (i : ℕ) : (L.clusters i).Nodup := by
  by_cases h : L.clusters i = []
  · rw [h]
    exact List.nodup_nil
  · obtain ⟨cpus, cpu, -, -, -, heq⟩ := L.numbered i h
    rw [heq]
    exact List.nodup_range'

/-! ### `InitSystemClusters` -/

theorem stride_sublist (sep : ℕ) (cpus : List ℕ) : (stride sep cpus).Sublist cpus := by
  have h := (List.filter_sublist (p := fun p : ℕ × ℕ => decide (p.2 % sep = 0)) (l := cpus.zipIdx)).map (·.1)
  rwa [List.zipIdx_map_fst] at h

theorem length_stride (sep : ℕ) (cpus : List ℕ) :
    (stride sep cpus).length = ((List.range cpus.length).filter (· % sep = 0)).length := by
  have hsnd : (cpus.zipIdx.filter (fun p => p.2 % sep = 0)).map (·.2) =
      (List.range cpus.length).filter (· % sep = 0) := by
    have hmap : (fun p : ℕ × ℕ => decide (p.2 % sep = 0)) = (fun n => decide (n % sep = 0)) ∘ Prod.snd := rfl
    rw [hmap, ← List.filter_map, List.zipIdx_map_snd, List.range_eq_range']
  rw [← hsnd, stride, List.length_map, List.length_map]

/-- A block has at least one core for each `sep` of its CPUs. -/
theorem le_length_stride {sep : ℕ} (hsep : 0 < sep) (cpus : List ℕ) :
    cpus.length / sep ≤ (stride sep cpus).length := by
  rw [length_stride, ← List.length_range (n := cpus.length / sep), ← List.length_map (· * sep)]
  refine (List.subperm_of_subset ?_ (fun x hx => ?_)).length_le
  · exact List.nodup_range.map (fun a b h => Nat.eq_of_mul_eq_mul_right hsep h)
  · obtain ⟨j, hj, rfl⟩ := List.mem_map.mp hx
    have hj := List.mem_range.mp hj
    have hlt : j * sep < cpus.length :=
      Nat.lt_of_lt_of_le (Nat.mul_lt_mul_of_pos_right hj hsep) (Nat.div_mul_le_self _ _)
    exact List.mem_filter.mpr ⟨List.mem_range.mpr hlt, by simp⟩

/-- And just one for each, where they can be so divided. -/
theorem length_stride_of_dvd {sep : ℕ} (hsep : 0 < sep) {cpus : List ℕ} (hdvd : sep ∣ cpus.length) :
    (stride sep cpus).length = cpus.length / sep := by
  refine Nat.le_antisymm ?_ (le_length_stride hsep cpus)
  have hlen : ((List.range (cpus.length / sep)).map (· * sep)).length = cpus.length / sep := by simp
  rw [length_stride, ← hlen]
  refine (List.subperm_of_subset (List.nodup_range.filter _) (fun x hx => ?_)).length_le
  obtain ⟨hx, hmod⟩ := List.mem_filter.mp hx
  have hmul : x / sep * sep = x := Nat.div_mul_cancel (Nat.dvd_of_mod_eq_zero (of_decide_eq_true hmod))
  refine List.mem_map.mpr ⟨x / sep, List.mem_range.mpr ?_, hmul⟩
  exact Nat.div_lt_div_of_lt_of_dvd hdvd (List.mem_range.mp hx)

theorem cluster_initCluster {T : Topology} (i : ℕ) : ∀ (bs : List (List ℕ)) (s : State) (c : ℕ),
    (∀ b ∈ bs, b = List.range' (b.headD 0 / T.oneClusterCpuNum * T.oneClusterCpuNum) T.oneClusterCpuNum) →
    (bs.foldl (initCluster T i) s).cluster c =
      if c ∈ bs.map (fun b => b.headD 0 / T.oneClusterCpuNum) then
        ⟨stride T.sep (List.range' (c * T.oneClusterCpuNum) T.oneClusterCpuNum), []⟩
      else s.cluster c
  | [], _, _, _ => rfl
  | b :: bs, s, c, h => by
    obtain ⟨hb, hbs⟩ := List.forall_mem_cons.mp h
    have hstep : (initCluster T i s b).cluster c =
        if c = b.headD 0 / T.oneClusterCpuNum then ⟨stride T.sep b, []⟩ else s.cluster c := by
      unfold initCluster State.setCluster State.setNuma State.cluster
      dsimp only
      rw [UMap.find_insert]
      split <;> rfl
    rw [List.foldl_cons, cluster_initCluster i bs _ c hbs, hstep, List.map_cons]
    by_cases hc : c = b.headD 0 / T.oneClusterCpuNum
    · have hmem : c ∈ b.headD 0 / T.oneClusterCpuNum :: bs.map (fun b => b.headD 0 / T.oneClusterCpuNum) := by
        rw [hc]
        exact List.mem_cons_self
      rw [if_pos hc, if_pos hmem, hc, ← hb]
      exact ite_self _
    · rw [if_neg hc]
      simp only [List.mem_cons, hc, false_or]

theorem cluster_initSystemClusters {T : Topology}
    (hT : ∀ v ∈ T.cpuTopology, ∀ b ∈ blocks T v,
      b = List.range' (b.headD 0 / T.oneClusterCpuNum * T.oneClusterCpuNum) T.oneClusterCpuNum)
    (s : State) (c : ℕ) :
    (initSystemClusters T s).cluster c =
      if ∃ v ∈ T.cpuTopology, c ∈ clusterIds T.oneClusterCpuNum v then
        ⟨stride T.sep (List.range' (c * T.oneClusterCpuNum) T.oneClusterCpuNum), []⟩
      else s.cluster c := by
  have hfold : ∀ (nodes : List (List ℕ)) (i : ℕ) (s : State), (∀ v ∈ nodes, v ∈ T.cpuTopology) →
      ((nodes.zipIdx i).foldl (fun s p => (blocks T p.1).foldl (initCluster T p.2) s) s).cluster c =
        if ∃ v ∈ nodes, c ∈ clusterIds T.oneClusterCpuNum v then
          ⟨stride T.sep (List.range' (c * T.oneClusterCpuNum) T.oneClusterCpuNum), []⟩
        else s.cluster c := by
    intro nodes
    induction nodes with
    | nil => exact fun i s _ => by simp
    | cons v nodes ih =>
      intro i s h
      obtain ⟨hv, hnodes⟩ := List.forall_mem_cons.mp h
      rw [List.zipIdx_cons, List.foldl_cons, ih (i + 1) _ hnodes,
        cluster_initCluster i (blocks T v) s c (hT v hv), ids_blocks]
      simp only [List.mem_cons, exists_eq_or_imp]
      by_cases hc : c ∈ clusterIds T.oneClusterCpuNum v
      · simp [hc]
      · simp [hc]
  exact hfold T.cpuTopology 0 s (fun v hv => hv)

namespace Numbered
variable {T : Topology}

theorem block_eq (hT : Numbered T) {i : ℕ} {v : List ℕ} (hv : T.cpuTopology[i]? = some v) {j : ℕ}
    (hj : j < v.length / T.oneClusterCpuNum) :
    v.getD (j * T.oneClusterCpuNum) 0 / T.oneClusterCpuNum = T.clusterNum / T.numaNodeNum * i + j := by
  have hhead := congrArg (fun l : List ℕ => l.headD 0) (hT.whole i v hv j hj)
  obtain ⟨k, hk⟩ := Nat.exists_eq_succ_of_ne_zero hT.pos.ne'
  simp only [List.headD_eq_head?_getD, List.head?_take, List.head?_drop, List.head?_range', hT.pos.ne',
    if_false, Option.getD_some] at hhead
  rw [List.getD_eq_getElem?_getD, hhead, Nat.mul_div_cancel _ hT.pos]

/-- What `InitSystemClusters` gives a node. -/
theorem clusterIds_eq (hT : Numbered T) {i : ℕ} {v : List ℕ} (hv : T.cpuTopology[i]? = some v) :
    clusterIds T.oneClusterCpuNum v =
      List.range' (T.clusterNum / T.numaNodeNum * i) (v.length / T.oneClusterCpuNum) := by
  rw [clusterIds, List.range'_eq_map_range]
  exact List.map_congr_left (fun j hj => hT.block_eq hv (List.mem_range.mp hj))

theorem blocks_eq (hT : Numbered T) {v : List ℕ} (hv : v ∈ T.cpuTopology) {b : List ℕ} (hb : b ∈ blocks T v) :
    b = List.range' (b.headD 0 / T.oneClusterCpuNum * T.oneClusterCpuNum) T.oneClusterCpuNum := by
  obtain ⟨i, hi⟩ := List.mem_iff_getElem?.mp hv
  obtain ⟨j, hj, rfl⟩ := List.mem_map.mp hb
  rw [hT.whole i v hi j (List.mem_range.mp hj), List.headD_eq_head?_getD, List.head?_range',
    if_neg hT.pos.ne', Option.getD_some, Nat.mul_div_cancel _ hT.pos]

theorem nodup_init (hT : Numbered T) (c : ℕ) : ((initSystemClusters T ⟨false, true, .empty, .empty, .empty, .empty⟩).cluster c).freeCpuCores.Nodup := by
  rw [cluster_initSystemClusters (fun v hv b hb => hT.blocks_eq hv hb)]
  split
  · exact (stride_sublist _ _).nodup List.nodup_range'
  · exact List.nodup_nil

theorem home_init (hT : Numbered T) (c : ℕ) : ∀ x ∈ ((initSystemClusters T ⟨false, true, .empty, .empty, .empty, .empty⟩).cluster c).freeCpuCores, x / T.oneClusterCpuNum = c := by
  intro x hx
  rw [cluster_initSystemClusters (fun v hv b hb => hT.blocks_eq hv hb)] at hx
  split at hx
  · obtain ⟨hle, hlt⟩ := List.mem_range'_1.mp ((stride_sublist _ _).subset hx)
    exact Nat.div_eq_of_lt_le hle (by rw [Nat.succ_mul]; exact hlt)
  · cases hx

theorem enough_init (hT : Numbered T) (i : ℕ) : ∀ c ∈ ((initSystemClusters T ⟨false, true, .empty, .empty, .empty, .empty⟩).numa i).freeInfoVec,
    T.oneClusterCpuNum / T.sep ≤ ((initSystemClusters T ⟨false, true, .empty, .empty, .empty, .empty⟩).cluster c).freeCpuCores.length := by
  intro c hc
  rw [numa_initSystemClusters T (fun _ => rfl)] at hc
  cases hv : T.cpuTopology[i]? with
  | none =>
    rw [hv] at hc
    simp [clusterIds] at hc
  | some v =>
    rw [hv, Option.getD_some] at hc
    rw [cluster_initSystemClusters (fun v hv b hb => hT.blocks_eq hv hb),
      if_pos ⟨v, List.mem_of_getElem? hv, hc⟩]
    have hsep : 0 < T.sep := by
      unfold Topology.sep
      split <;> decide
    have hlen := le_length_stride hsep (List.range' (c * T.oneClusterCpuNum) T.oneClusterCpuNum)
    rwa [List.length_range'] at hlen

theorem numbered_init (hT : Numbered T) (i : ℕ) : ((initSystemClusters T ⟨false, true, .empty, .empty, .empty, .empty⟩).numa i).freeInfoVec ≠ [] →
    ∃ cpus cpu, T.cpuTopology[i]? = some cpus ∧ cpus.head? = some cpu ∧
    cpu / T.oneClusterCpuNum = T.clusterNum / T.numaNodeNum * i ∧
    ((initSystemClusters T ⟨false, true, .empty, .empty, .empty, .empty⟩).numa i).freeInfoVec =
      List.range' (T.clusterNum / T.numaNodeNum * i) (cpus.length / T.oneClusterCpuNum) := by
  intro h
  rw [numa_initSystemClusters T (fun _ => rfl)] at h ⊢
  cases hv : T.cpuTopology[i]? with
  | none =>
    rw [hv] at h
    simp [clusterIds] at h
  | some v =>
    rw [hv, Option.getD_some] at h
    rw [Option.getD_some, hT.clusterIds_eq hv]
    rw [hT.clusterIds_eq hv, Ne, List.range'_eq_nil_iff] at h
    have hblock := hT.block_eq hv (Nat.pos_of_ne_zero h)
    rw [Nat.zero_mul, Nat.add_zero] at hblock
    cases v with
    | nil => exact absurd (Nat.zero_div _) h
    | cons cpu v => exact ⟨cpu :: v, cpu, rfl, rfl, hblock, rfl⟩

theorem one_node_init (hT : Numbered T) (i j c : ℕ) : c ∈ ((initSystemClusters T ⟨false, true, .empty, .empty, .empty, .empty⟩).numa i).freeInfoVec →
    c ∈ ((initSystemClusters T ⟨false, true, .empty, .empty, .empty, .empty⟩).numa j).freeInfoVec → i = j := by
  intro hi hj
  have hshare : ∀ {n : ℕ}, c ∈ ((initSystemClusters T ⟨false, true, .empty, .empty, .empty, .empty⟩).numa
      n).freeInfoVec → c / (T.clusterNum / T.numaNodeNum) = n := by
    intro n hn
    rw [numa_initSystemClusters T (fun _ => rfl)] at hn
    cases hv : T.cpuTopology[n]? with
    | none =>
      rw [hv] at hn
      simp [clusterIds] at hn
    | some v =>
      rw [hv, Option.getD_some, hT.clusterIds_eq hv] at hn
      obtain ⟨hle, hlt⟩ := List.mem_range'_1.mp hn
      have hshared := hT.shared n v hv
      refine Nat.div_eq_of_lt_le ?_ ?_
      · rw [Nat.mul_comm]
        exact hle
      · rw [Nat.succ_mul, Nat.mul_comm n]
        omega
  rw [← hshare hi, hshare hj]

/-- The clusters with which `Init` ends. -/
def layout (hT : Numbered T) : Layout T where
  cores c := ((initSystemClusters T ⟨false, true, .empty, .empty, .empty, .empty⟩).cluster c).freeCpuCores
  clusters i := ((initSystemClusters T ⟨false, true, .empty, .empty, .empty, .empty⟩).numa i).freeInfoVec
  cores_nodup := hT.nodup_init
  cores_home := hT.home_init
  enough := hT.enough_init
  numbered := hT.numbered_init
  one_node := hT.one_node_init

end Numbered

/-! ### Everything in its place -/

/-- What matters of a container for the clusters. -/
structure Place where
  inited : Bool
  optimizeBinded : Bool
  currentCpuSet : List ℕ
  currentMemSet : List ℕ
  currentCpuLimit : ℚ
  bindClusters : List ℕ

def State.place (s : State) (d : Str) : Place :=
  let info := s.docker d
  ⟨info.inited, info.optimizeBinded, info.currentCpuSet, info.currentMemSet, info.currentCpuLimit,
    info.bindClusters⟩

/-- The container has these clusters, all of the first of its memory nodes. -/
structure Placed (s : State) (p : Place) (nid : ℕ) : Prop where
  node : p.currentMemSet.head? = some nid
  some : p.bindClusters ≠ []
  once : p.bindClusters.Nodup
  occupied : p.bindClusters ⊆ (s.numa nid).occupiedInfoVec

/-- Each core and each cluster is in its pool once, and each cluster that is occupied has a container. -/
structure Placement {T : Topology} (L : Layout T) (s : State) : Prop where
  cores : ∀ c, Parts (L.cores c) (s.cluster c).freeCpuCores (s.cluster c).occupiedCpuCores
  nodes : ∀ i, Parts (L.clusters i) (s.numa i).freeInfoVec (s.numa i).occupiedInfoVec
  idle : ∀ i, ∀ c ∈ (s.numa i).freeInfoVec, (s.cluster c).occupiedCpuCores = []
  known : ∀ d ∈ s.dockerInfos.keys, (s.place d).inited = true
  unbound : ∀ d, (s.place d).optimizeBinded = false → (s.place d).bindClusters = []
  bound : ∀ d, (s.place d).optimizeBinded = true → ∃ nid, Placed s (s.place d) nid
  owned : ∀ i, ∀ c ∈ (s.numa i).occupiedInfoVec, ∃ d ∈ s.dockerInfos.keys, c ∈ (s.place d).bindClusters
  apart : ∀ d d' c, c ∈ (s.place d).bindClusters → c ∈ (s.place d').bindClusters → d = d'

/-- The cores `cpus` are taken. -/
def Takes (T : Topology) (s s' : State) (cpus : List ℕ) : Prop :=
  Moves (fun c => (s.cluster c).freeCpuCores) (fun c => (s'.cluster c).freeCpuCores)
    (fun c => (s.cluster c).occupiedCpuCores) (fun c => (s'.cluster c).occupiedCpuCores)
    (fun c => cpus.filter (· / T.oneClusterCpuNum = c))

/-- The clusters `ids` of a node are occupied. -/
def Occupies (s s' : State) (nid : ℕ) (ids : List ℕ) : Prop :=
  Moves (fun i => (s.numa i).freeInfoVec) (fun i => (s'.numa i).freeInfoVec)
    (fun i => (s.numa i).occupiedInfoVec) (fun i => (s'.numa i).occupiedInfoVec)
    (fun i => if i = nid then ids else [])

section
variable {T : Topology} {L : Layout T} {s s' s'' : State}

theorem place_of_not_mem {d : Str} (h : d ∉ s.dockerInfos.keys) : s.docker d = .new := by
  rw [UMap.mem_keys, Bool.not_eq_true, Option.isSome_eq_false_iff, Option.isNone_iff_eq_none] at h
  rw [State.docker, h, Option.getD_none]

namespace Takes
variable {cpus cpus' : List ℕ}

theorem refl (T : Topology) (s : State) : Takes T s s [] := Moves.refl _ _

theorem trans (h : Takes T s s' cpus) (h' : Takes T s' s'' cpus') : Takes T s s'' (cpus ++ cpus') := by
  have := Moves.trans h h'
  simpa only [Takes, List.filter_append] using this

theorem mem_free (h : Takes T s s' cpus) {c x : ℕ} : x ∈ (s.cluster c).freeCpuCores ↔
    x ∈ (s'.cluster c).freeCpuCores ∨ (x ∈ cpus ∧ x / T.oneClusterCpuNum = c) := by
  rw [Moves.mem_src h, List.mem_filter, decide_eq_true_eq]

theorem mem_occupied (h : Takes T s s' cpus) {c x : ℕ} : x ∈ (s'.cluster c).occupiedCpuCores ↔
    x ∈ (s.cluster c).occupiedCpuCores ∨ (x ∈ cpus ∧ x / T.oneClusterCpuNum = c) := by
  rw [Moves.mem_dst h, List.mem_filter, decide_eq_true_eq]

/-- Of other clusters than those of the cores nothing is taken. -/
theorem occupied_eq_nil (h : Takes T s s' cpus) {c : ℕ} (hc : ∀ x ∈ cpus, x / T.oneClusterCpuNum ≠ c)
    (hs : (s.cluster c).occupiedCpuCores = []) : (s'.cluster c).occupiedCpuCores = [] := by
  refine List.eq_nil_iff_forall_not_mem.mpr (fun x hx => ?_)
  rcases h.mem_occupied.mp hx with hx | ⟨hx, hxc⟩
  · rw [hs] at hx
    cases hx
  · exact hc x hx hxc

end Takes

namespace Occupies
variable {nid i c : ℕ} {ids : List ℕ}

theorem mem_free (h : Occupies s s' nid ids) : c ∈ (s.numa i).freeInfoVec ↔
    c ∈ (s'.numa i).freeInfoVec ∨ (i = nid ∧ c ∈ ids) := by
  rw [Moves.mem_src h]
  by_cases hi : i = nid
  · simp [hi]
  · simp [hi]

theorem mem_occupied (h : Occupies s s' nid ids) : c ∈ (s'.numa i).occupiedInfoVec ↔
    c ∈ (s.numa i).occupiedInfoVec ∨ (i = nid ∧ c ∈ ids) := by
  rw [Moves.mem_dst h]
  by_cases hi : i = nid
  · simp [hi]
  · simp [hi]

theorem nodup_ids (h : Occupies s s' nid ids) (hnd : (s.numa nid).freeInfoVec.Nodup) : ids.Nodup := by
  have := Moves.nodup h hnd
  rwa [if_pos rfl] at this

end Occupies

namespace Placement

theorem mem_clusters (h : Placement L s) {i c : ℕ} :
    c ∈ L.clusters i ↔ c ∈ (s.numa i).freeInfoVec ∨ c ∈ (s.numa i).occupiedInfoVec :=
  (h.nodes i).mem_all

/-- A cluster that is occupied is in one node, and not free. -/
theorem not_free (h : Placement L s) {i j c : ℕ} (hc : c ∈ (s.numa i).occupiedInfoVec) :
    c ∉ (s.numa j).freeInfoVec := by
  intro hfree
  have hij := L.one_node i j c (h.mem_clusters.mpr (.inr hc)) (h.mem_clusters.mpr (.inl hfree))
  subst hij
  exact (h.nodes i).disjoint (L.clusters_nodup i) hfree hc

theorem bind_occupied (h : Placement L s) {d : Str} {c : ℕ} (hc : c ∈ (s.place d).bindClusters) :
    ∃ i, c ∈ (s.numa i).occupiedInfoVec := by
  cases hb : (s.place d).optimizeBinded with
  | false =>
    rw [h.unbound d hb] at hc
    cases hc
  | true =>
    obtain ⟨nid, hp⟩ := h.bound d hb
    exact ⟨nid, hp.occupied hc⟩

theorem free_nodup (h : Placement L s) (i : ℕ) : (s.numa i).freeInfoVec.Nodup :=
  ((h.nodes i).nodup (L.clusters_nodup i)).of_append_left

/-- A container gets more clusters of its node, and cores of those that it then has. -/
theorem grow {d : Str} {nid : ℕ} {cpus ids : List ℕ} (h : Placement L s) (htakes : Takes T s s' cpus)
    (hids : Occupies s s' nid ids)
    (hcpus : ∀ x ∈ cpus, x / T.oneClusterCpuNum ∈ (s'.place d).bindClusters)
    (hkeys : ∀ x, x ∈ s'.dockerInfos.keys ↔ x ∈ s.dockerInfos.keys) (hd : d ∈ s.dockerInfos.keys)
    (hother : ∀ x, x ≠ d → s'.place x = s.place x) (hinited : (s'.place d).inited = true)
    (hbinded : (s'.place d).optimizeBinded = true)
    (hbind : (s'.place d).bindClusters = (s.place d).bindClusters ++ ids)
    (hnode : (s'.place d).currentMemSet.head? = some nid) (hne : (s'.place d).bindClusters ≠ [])
    (hsub : (s.place d).bindClusters ⊆ (s.numa nid).occupiedInfoVec) : Placement L s' := by
  have hnew : ∀ c ∈ ids, c ∈ (s.numa nid).freeInfoVec := fun c hc => hids.mem_free.mpr (.inr ⟨rfl, hc⟩)
  have hnew' : ∀ c ∈ ids, ∀ x, c ∉ (s.place x).bindClusters := by
    intro c hc x hx
    obtain ⟨i, hi⟩ := h.bind_occupied hx
    exact h.not_free hi (hnew c hc)
  have hmem : ∀ x c, c ∈ (s'.place x).bindClusters ↔ c ∈ (s.place x).bindClusters ∨ (x = d ∧ c ∈ ids) := by
    intro x c
    by_cases hx : x = d
    · subst hx
      rw [hbind, List.mem_append]
      simp
    · rw [hother x hx]
      simp [hx]
  refine ⟨fun c => htakes.parts (h.cores c), fun i => hids.parts (h.nodes i), ?_, ?_, ?_, ?_, ?_, ?_⟩
  · intro i c hc
    have hfree := hids.mem_free.mpr (.inl hc)
    refine htakes.occupied_eq_nil (fun x hx hxc => ?_) (h.idle i c hfree)
    rcases (hmem d c).mp (hxc ▸ hcpus x hx) with hold | ⟨-, hnewc⟩
    · exact h.not_free (hsub hold) hfree
    · -- it is occupied now
      have hi := L.one_node i nid c (h.mem_clusters.mpr (.inl hfree)) (h.mem_clusters.mpr (.inl (hnew c hnewc)))
      refine Moves.not_mem hids (i := i) (h.free_nodup i) (x := c) ?_ hc
      rw [if_pos hi]
      exact hnewc
  · intro x hx
    by_cases hxd : x = d
    · rw [hxd, hinited]
    · rw [hother x hxd]
      exact h.known x ((hkeys x).mp hx)
  · intro x hx
    by_cases hxd : x = d
    · rw [hxd, hbinded] at hx
      cases hx
    · rw [hother x hxd] at hx ⊢
      exact h.unbound x hx
  · intro x hx
    by_cases hxd : x = d
    · subst hxd
      refine ⟨nid, hnode, hne, ?_, fun c hc => ?_⟩
      · rw [hbind]
        refine List.Nodup.append ?_ (hids.nodup_ids (h.free_nodup nid))
          (fun c hc hc' => hnew' c hc' x hc)
        cases hb : (s.place x).optimizeBinded with
        | false =>
          rw [h.unbound x hb]
          exact List.nodup_nil
        | true =>
          obtain ⟨i, hp⟩ := h.bound x hb
          exact hp.once
      · rcases (hmem x c).mp hc with hc | ⟨-, hc⟩
        · exact hids.mem_occupied.mpr (.inl (hsub hc))
        · exact hids.mem_occupied.mpr (.inr ⟨rfl, hc⟩)
    · rw [hother x hxd] at hx ⊢
      obtain ⟨i, hp⟩ := h.bound x hx
      exact ⟨i, hp.node, hp.some, hp.once, fun c hc => hids.mem_occupied.mpr (.inl (hp.occupied hc))⟩
  · intro i c hc
    rcases hids.mem_occupied.mp hc with hc | ⟨-, hc⟩
    · obtain ⟨x, hx, hxc⟩ := h.owned i c hc
      exact ⟨x, (hkeys x).mpr hx, (hmem x c).mpr (.inl hxc)⟩
    · exact ⟨d, (hkeys d).mpr hd, (hmem d c).mpr (.inr ⟨rfl, hc⟩)⟩
  · intro x y c hx hy
    rcases (hmem x c).mp hx with hx | ⟨rfl, hx⟩
    · rcases (hmem y c).mp hy with hy | ⟨rfl, hy⟩
      · exact h.apart x y c hx hy
      · exact absurd hx (hnew' c hy x)
    · rcases (hmem y c).mp hy with hy | ⟨rfl, -⟩
      · exact absurd hy (hnew' c hx y)
      · rfl

/-- A container gives cores back, and the clusters of which it has none left. -/
theorem shrink {d : Str} {nid : ℕ} {cpus ids : List ℕ} (h : Placement L s) (hback : Takes T s' s cpus)
    (hids : Occupies s' s nid ids) (hgone : ∀ c ∈ ids, (s'.cluster c).occupiedCpuCores = [])
    (hkeys : ∀ x, x ∈ s'.dockerInfos.keys ↔ x ∈ s.dockerInfos.keys)
    (hother : ∀ x, x ≠ d → s'.place x = s.place x)
    (hinited : (s'.place d).inited = (s.place d).inited) (hbinded : (s.place d).optimizeBinded = true)
    (hbinded' : (s'.place d).optimizeBinded = true)
    (hbind : (s.place d).bindClusters = (s'.place d).bindClusters ++ ids)
    (hnode : (s'.place d).currentMemSet = (s.place d).currentMemSet)
    (hne : (s'.place d).bindClusters ≠ []) : Placement L s' := by
  obtain ⟨i0, hp0⟩ := h.bound d hbinded
  have hsub : ∀ x c, c ∈ (s'.place x).bindClusters → c ∈ (s.place x).bindClusters := by
    intro x c hc
    by_cases hx : x = d
    · subst hx
      rw [hbind]
      exact List.mem_append_left _ hc
    · rwa [hother x hx] at hc
  have hold : ∀ c ∈ ids, c ∈ (s.place d).bindClusters := by
    intro c hc
    rw [hbind]
    exact List.mem_append_right _ hc
  -- what is given back is not in the place of any container
  have hnot : ∀ c ∈ ids, ∀ x, c ∉ (s'.place x).bindClusters := by
    intro c hc x hx
    have hxd := h.apart x d c (hsub x c hx) (hold c hc)
    subst hxd
    have hnd := hp0.once
    rw [hbind] at hnd
    exact List.disjoint_of_nodup_append hnd hx hc
  have hocc : ∀ x i, (s'.place x).bindClusters ⊆ (s.numa i).occupiedInfoVec →
      (s'.place x).bindClusters ⊆ (s'.numa i).occupiedInfoVec := by
    intro x i hx c hc
    exact (hids.mem_occupied.mp (hx hc)).resolve_right (fun hcids => hnot c hcids.2 x hc)
  refine ⟨fun c => (Moves.parts hback.symm (h.cores c).symm).symm,
    fun i => (Moves.parts hids.symm (h.nodes i).symm).symm, ?_, ?_, ?_, ?_, ?_, ?_⟩
  · intro i c hc
    by_cases hcids : c ∈ ids
    · exact hgone c hcids
    · have hfree := (hids.mem_free.mp hc).resolve_right (fun hc => hcids hc.2)
      refine List.eq_nil_iff_forall_not_mem.mpr (fun x hx => ?_)
      have := hback.mem_occupied.mpr (.inl hx)
      rw [h.idle i c hfree] at this
      cases this
  · intro x hx
    have hx' := h.known x ((hkeys x).mp hx)
    by_cases hxd : x = d
    · subst hxd
      rwa [hinited]
    · rwa [hother x hxd]
  · intro x hx
    by_cases hxd : x = d
    · rw [hxd, hbinded'] at hx
      cases hx
    · rw [hother x hxd] at hx ⊢
      exact h.unbound x hx
  · intro x hx
    by_cases hxd : x = d
    · subst hxd
      have hnd := hp0.once
      rw [hbind] at hnd
      refine ⟨i0, hnode ▸ hp0.node, hne, hnd.of_append_left, hocc x i0 (fun c hc => ?_)⟩
      exact hp0.occupied (hsub x c hc)
    · rw [hother x hxd] at hx
      obtain ⟨i, hp⟩ := h.bound x hx
      have hocc' := hocc x i (by rw [hother x hxd]; exact hp.occupied)
      rw [hother x hxd] at hocc' ⊢
      exact ⟨i, hp.node, hp.some, hp.once, hocc'⟩
  · intro i c hc
    obtain ⟨x, hx, hxc⟩ := h.owned i c (hids.mem_occupied.mpr (.inl hc))
    refine ⟨x, (hkeys x).mpr hx, ?_⟩
    by_cases hxd : x = d
    · subst hxd
      rw [hbind, List.mem_append] at hxc
      refine hxc.resolve_right (fun hcids => ?_)
      have hi := L.one_node i nid c (h.mem_clusters.mpr (.inr (hids.mem_occupied.mpr (.inl hc))))
        (h.mem_clusters.mpr (.inr (hids.mem_occupied.mpr (.inr ⟨rfl, hcids⟩))))
      refine Moves.not_mem hids.symm (i := i) ((h.nodes i).nodup (L.clusters_nodup i)).of_append_right ?_ hc
      rwa [if_pos hi]
    · rwa [hother x hxd]
  · exact fun x y c hx hy => h.apart x y c (hsub x c hx) (hsub y c hy)

end Placement

/-- What is bound stays where it is, and nothing else is bound. -/
structure Still (s s' : State) : Prop where
  cluster : ∀ c, s'.cluster c = s.cluster c
  numa : ∀ i, s'.numa i = s.numa i
  known : (∀ d ∈ s.dockerInfos.keys, (s.place d).inited = true) →
    ∀ d ∈ s'.dockerInfos.keys, (s'.place d).inited = true
  bound : ∀ d, (s.place d).optimizeBinded = true →
    s'.place d = s.place d ∧ (d ∈ s.dockerInfos.keys → d ∈ s'.dockerInfos.keys)
  unbound : ∀ d, (s.place d).optimizeBinded = false ∧ (s.place d).bindClusters = [] →
    (s'.place d).optimizeBinded = false ∧ (s'.place d).bindClusters = []

namespace Still

theorem refl (s : State) : Still s s :=
  ⟨fun _ => rfl, fun _ => rfl, fun h => h, fun _ _ => ⟨rfl, fun h => h⟩, fun _ h => h⟩

theorem trans (h : Still s s') (h' : Still s' s'') : Still s s'' where
  cluster c := (h'.cluster c).trans (h.cluster c)
  numa i := (h'.numa i).trans (h.numa i)
  known hk := h'.known (h.known hk)
  bound d hd := by
    obtain ⟨hp, hkeys⟩ := h.bound d hd
    obtain ⟨hp', hkeys'⟩ := h'.bound d (by rw [hp]; exact hd)
    exact ⟨hp'.trans hp, fun hmem => hkeys' (hkeys hmem)⟩
  unbound d hd := h'.unbound d (h.unbound d hd)

/-- The containers and their places are the same. -/
theorem of_place (hcluster : ∀ c, s'.cluster c = s.cluster c) (hnuma : ∀ i, s'.numa i = s.numa i)
    (hkeys : ∀ d, d ∈ s'.dockerInfos.keys ↔ d ∈ s.dockerInfos.keys) (hplace : ∀ d, s'.place d = s.place d) :
    Still s s' where
  cluster := hcluster
  numa := hnuma
  known hk d hd := by
    rw [hplace]
    exact hk d ((hkeys d).mp hd)
  bound d _ := ⟨hplace d, (hkeys d).mpr⟩
  unbound d hd := by rwa [hplace]

end Still

theorem Placement.bind_still (h : Placement L s) (hs : Still s s') (d : Str) :
    (s'.place d).bindClusters = (s.place d).bindClusters := by
  cases hd : (s.place d).optimizeBinded with
  | false => rw [(hs.unbound d ⟨hd, h.unbound d hd⟩).2, h.unbound d hd]
  | true => rw [(hs.bound d hd).1]

theorem Placement.still (h : Placement L s) (hs : Still s s') : Placement L s' := by
  have hunbound : ∀ d, (s.place d).optimizeBinded = false →
      (s'.place d).optimizeBinded = false ∧ (s'.place d).bindClusters = [] :=
    fun d hd => hs.unbound d ⟨hd, h.unbound d hd⟩
  have hbind := h.bind_still hs
  refine ⟨fun c => ?_, fun i => ?_, fun i c hc => ?_, hs.known h.known, fun d hd => ?_, fun d hd => ?_,
    fun i c hc => ?_, fun d d' c hc hc' => ?_⟩
  · rw [hs.cluster]
    exact h.cores c
  · rw [hs.numa]
    exact h.nodes i
  · rw [hs.numa] at hc
    rw [hs.cluster]
    exact h.idle i c hc
  · cases hold : (s.place d).optimizeBinded with
    | false => exact (hunbound d hold).2
    | true =>
      rw [(hs.bound d hold).1, hold] at hd
      cases hd
  · cases hold : (s.place d).optimizeBinded with
    | false =>
      rw [(hunbound d hold).1] at hd
      cases hd
    | true =>
      obtain ⟨nid, hp⟩ := h.bound d hold
      rw [(hs.bound d hold).1]
      exact ⟨nid, hp.node, hp.some, hp.once, by rw [hs.numa]; exact hp.occupied⟩
  · rw [hs.numa] at hc
    obtain ⟨d, hd, hcd⟩ := h.owned i c hc
    refine ⟨d, ?_, by rw [hbind]; exact hcd⟩
    cases hold : (s.place d).optimizeBinded with
    | false =>
      rw [h.unbound d hold] at hcd
      cases hcd
    | true => exact (hs.bound d hold).2 hd
  · rw [hbind] at hc hc'
    exact h.apart d d' c hc hc'

end
end ClusterAffinity
end OeAware

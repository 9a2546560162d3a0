import OeAware.Schemes.Loops
import OeAware.Tune.ClusterAffinity

/-! @src src/plugin/tune/docker/cluster_affinity/cluster_affinity_adapt.cpp |
    name:DockerAddCpuLimitComm, DockerMinusCpuLimitComm, RecoverInitialBindStatus | scheme:state-machine

    What the steps leave alone. Taking cores and clusters touches the pools only; a higher or lower limit
    also the cores, the clusters and the limit of one container; binding its node as well. What a container
    was seen with at first stays. -/

namespace OeAware
open Schemes

namespace ClusterAffinity

/-! ### The pools -/

/-- Only the pools of cores and of clusters differ. -/
def OnlyPools (s s' : State) : Prop :=
  s' = { s with systemClusterInfo := s'.systemClusterInfo, numaClusterInfo := s'.numaClusterInfo }

theorem OnlyPools.refl (s : State) : OnlyPools s s := rfl

theorem OnlyPools.trans {s s' s'' : State} (h : OnlyPools s s') (h' : OnlyPools s' s'') :
    OnlyPools s s'' := by
  rw [OnlyPools, h] at h'
  exact h'

theorem OnlyPools.dockerInfos {s s' : State} (h : OnlyPools s s') : s'.dockerInfos = s.dockerInfos := by
  rw [h]

theorem OnlyPools.docker {s s' : State} (h : OnlyPools s s') (d : Str) : s'.docker d = s.docker d := by
  rw [State.docker, h.dockerInfos]
  rfl

theorem onlyPools_setCluster (s : State) (clusterId : ℕ) (c : Cluster) :
    OnlyPools s (s.setCluster clusterId c) := rfl

theorem onlyPools_setNuma (s : State) (nid : ℕ) (n : NumaClusterInfo) :
    OnlyPools s (s.setNuma nid n) := rfl

theorem onlyPools_foldl {α : Type} {f : State → α → State} (h : ∀ s a, OnlyPools s (f s a)) :
    ∀ (l : List α) (s : State), OnlyPools s (l.foldl f s)
  | [], s => .refl s
  | a :: l, s => (h s a).trans (onlyPools_foldl h l (f s a))

/-- `Init` fills the pools. -/
theorem initSystemClusters_onlyPools (T : Topology) (s : State) : OnlyPools s (initSystemClusters T s) := by
  refine onlyPools_foldl (fun s p => ?_) _ s
  refine onlyPools_foldl (fun s block => ?_) _ s
  exact (onlyPools_setCluster s _ _).trans (onlyPools_setNuma _ p.2 _)

section
variable {D : Type} [Double D] {sel : ClusterSelector D} {T : Topology} {s s' : State}

theorem onlyPools_takeCpus {clusterId n : ℕ} {cpuSet cpus : List ℕ}
    (h : takeCpus sel T clusterId n cpuSet s = .ok (cpus, s')) : OnlyPools s s' := by
  obtain ⟨used, -, h⟩ := bind_ok h
  obtain ⟨picked, -, h⟩ := bind_ok h
  cases h
  exact onlyPools_setCluster s clusterId _

theorem onlyPools_takeWhole : ∀ {ids cpuSet cpus : List ℕ} {need left : ℕ} {s s' : State},
    takeWhole ids need cpuSet s = .ok (left, cpus, s') → OnlyPools s s'
  | [], _, _, _, _, _, _, h => by
    cases h
    exact .refl _
  | clusterId :: ids, _, _, _, _, s, _, h => by
    rw [takeWhole] at h
    split at h
    · cases h
    · exact (onlyPools_setCluster s clusterId _).trans (onlyPools_takeWhole h)

theorem onlyPools_fillClusters {ids cpuSet cpus : List ℕ} {need : ℕ}
    (h : fillClusters sel T ids need cpuSet s = .ok (cpus, s')) : OnlyPools s s' := by
  obtain ⟨clusterId, -, h⟩ := bind_ok h
  obtain ⟨⟨left, taken, s1⟩, h1, h⟩ := bind_ok h
  exact (onlyPools_takeWhole h1).trans (onlyPools_takeCpus h)

omit [Double D] in
theorem onlyPools_takeClusters {nid n : ℕ} {ids : List ℕ}
    (h : takeClusters sel T nid n s = .ok (ids, s')) : OnlyPools s s' := by
  obtain ⟨cpus, -, h⟩ := bind_ok h
  obtain ⟨cpu, -, h⟩ := bind_ok h
  obtain ⟨used, -, h⟩ := bind_ok h
  obtain ⟨picked, -, h⟩ := bind_ok h
  cases h
  exact onlyPools_setNuma s nid _

theorem onlyPools_addCpus {nid clusterId need : ℕ} {cpus ids : List ℕ}
    (h : addCpus sel T nid clusterId need s = .ok (cpus, ids, s')) : OnlyPools s s' := by
  rw [addCpus] at h
  dsimp only at h
  split at h
  · obtain ⟨⟨picked, s1⟩, h1, h⟩ := bind_ok h
    cases h
    exact onlyPools_takeCpus h1
  · obtain ⟨n, -, h⟩ := bind_ok h
    obtain ⟨⟨new, s1⟩, h1, h⟩ := bind_ok h
    obtain ⟨⟨picked, s2⟩, h2, h⟩ := bind_ok h
    cases h
    exact (onlyPools_setCluster s clusterId _).trans
      ((onlyPools_takeClusters h1).trans (onlyPools_fillClusters h2))

theorem onlyPools_returnCpus {nid : ℕ} : ∀ {ids cpus taken ids' : List ℕ} {need : ℕ} {s s' : State},
    returnCpus nid ids need cpus s = .ok (taken, ids', s') → OnlyPools s s'
  | _, _, _, _, 0, s, s', h => by
    rw [returnCpus] at h
    cases h
    exact .refl _
  | [], _, _, _, _ + 1, _, _, h => by cases h
  | clusterId :: ids, cpus, _, _, need + 1, s, s', h => by
    rw [returnCpus] at h
    dsimp only at h
    split at h
    · cases h
      exact onlyPools_setCluster s clusterId _
    · refine OnlyPools.trans ?_ (onlyPools_returnCpus h)
      exact (onlyPools_setCluster s clusterId _).trans (onlyPools_setNuma _ nid _)

/-! ### A limit that changes -/

/-- A container with other cores and clusters and so much added to its limit. -/
def DockerResourceInfo.charge (info : DockerResourceInfo) (cpus ids : List ℕ) (limit : ℚ) :
    DockerResourceInfo :=
  { info with
    currentCpuSet := cpus, bindClusters := ids, currentCpuLimit := info.currentCpuLimit + limit }

/-- The limit of a container has been changed: of the containers only it has other cores and clusters, and
    nothing else is touched but the pools. -/
structure Charged (s s' : State) (dockerId : Str) (limit : ℚ) : Prop where
  docker : ∃ cpus ids, ∀ d, s'.docker d =
    if d = dockerId then (s.docker dockerId).charge cpus ids limit else s.docker d
  keys : s'.dockerInfos.keys = (s.setDocker dockerId .new).dockerInfos.keys
  rest : s' = { s with
    dockerInfos := s'.dockerInfos
    systemClusterInfo := s'.systemClusterInfo
    numaClusterInfo := s'.numaClusterInfo }

@[simp] theorem docker_setDocker (dockerId d : Str) (info : DockerResourceInfo) :
    (s.setDocker dockerId info).docker d = if d = dockerId then info else s.docker d := by
  unfold State.docker State.setDocker
  rw [UMap.find_insert]
  split <;> rfl

theorem keys_setDocker {s1 : State} (h : s1.dockerInfos = s.dockerInfos) (dockerId : Str)
    (info info' : DockerResourceInfo) :
    (s1.setDocker dockerId info).dockerInfos.keys = (s.setDocker dockerId info').dockerInfos.keys := by
  unfold State.setDocker UMap.insert
  rw [h]

theorem charged_add {dockerId : Str} {limit : ℚ} {updated b : Bool} (h0 : T.oneClusterCpuNum ≠ 0)
    (h : dockerAddCpuLimitComm sel T dockerId limit updated s = .ok (s', b)) :
    Charged s s' dockerId limit := by
  obtain ⟨nid, -, h⟩ := bind_ok h
  obtain ⟨need, -, h⟩ := bind_ok h
  obtain ⟨clusterId, -, h⟩ := bind_ok h
  rw [if_neg h0] at h
  obtain ⟨⟨cpus, ids, s1⟩, h1, h⟩ := bind_ok h
  have hpools := onlyPools_addCpus h1
  cases h
  refine ⟨⟨(s.docker dockerId).currentCpuSet ++ cpus, (s.docker dockerId).bindClusters ++ ids,
    fun d => ?_⟩, keys_setDocker hpools.dockerInfos dockerId _ _, ?_⟩
  · rw [docker_setDocker, hpools.docker]
    rfl
  · rw [hpools]
    rfl

theorem charged_minus {dockerId : Str} {limit : ℚ} {updated b : Bool}
    (h : dockerMinusCpuLimitComm dockerId limit updated s = .ok (s', b)) :
    Charged s s' dockerId (-limit) := by
  obtain ⟨nid, -, h⟩ := bind_ok h
  obtain ⟨need, -, h⟩ := bind_ok h
  obtain ⟨clusterId, -, h⟩ := bind_ok h
  obtain ⟨⟨cpus, ids, s1⟩, h1, h⟩ := bind_ok h
  have hpools := onlyPools_returnCpus h1
  cases h
  refine ⟨⟨(s.docker dockerId).currentCpuSet.filter (· ∉ cpus), ids.reverse, fun d => ?_⟩,
    keys_setDocker hpools.dockerInfos dockerId _ _, ?_⟩
  · rw [docker_setDocker, hpools.docker, DockerResourceInfo.charge, ← sub_eq_add_neg]
  · rw [hpools]
    rfl

end

/-! ### A small machine -/

/-- One node with two clusters of four cores. -/
def sampleTopology : Topology := ⟨1, 2, 4, [[0, 1, 2, 3, 4, 5, 6, 7]], false, false⟩

/-- A container on it with a period of 100 ms: its quota, what it has used and when it reports. -/
def sampleContainer (id : String) (quota used now : ℕ) : DockerAdapt.Entry :=
  { id := str id
    cfs_period_us := 100000
    cfs_quota_us := Int64.ofNat quota
    cpu_usage := Int64.ofNat used
    sampling_timestamp := 0
    soft_quota := -1
    cfs_burst_us := 0
    cpus := str "0-7"
    mems := str "0"
    system_cpu_usage := UInt64.ofNat now
    tasks := [] }

/-- An `Update` all of whose commands succeed. -/
def sampleUpdate {D : Type} (data : List DockerAdapt.Entry) : Act D := .update data (fun _ => true) []

/-- A `Tune` without load all of whose commands succeed. -/
def sampleTune {D : Type} [Double D] : Act D :=
  .tune ⟨⟨fun _ => Double.ofInt 0, fun _ => 0⟩, fun _ => true, fun _ => true, []⟩

end ClusterAffinity
end OeAware

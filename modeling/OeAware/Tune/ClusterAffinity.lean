import Mathlib.Data.List.DropRight
import Mathlib.Data.Rat.Floor
import OeAware.Analysis.Instance
import OeAware.Common.Numbers
import OeAware.Collect.DockerAdapt

/-! @src src/plugin/tune/docker/cluster_affinity/cluster_affinity_adapt.cpp, cluster_selector.cpp,
    topology.cpp | name:ClusterAffinityAdapt | scheme:state-machine

    The tuning binds each container to clusters of one NUMA node, and to as many of their cores as its
    CPU limit says. An idle container lends half of its limit to busy ones, and cores change hands with
    it. Cores and clusters move between lists of free and of occupied ones, clusters also to the
    containers' `bindClusters`.

        Update ──▶ dockerInfos        Tune ──▶ bind · borrow · return        Exit ──▶ recover all

    CPU limits and usage are exact rationals, the loads by which cores are chosen are not. Where C++
    leaves open what happens, the step faults. -/

namespace OeAware
open Schemes

namespace ClusterAffinity

/-- What has no defined outcome. -/
inductive Fault where
  /-- `front()` or `back()` of an empty vector. -/
  | emptyVector
  /-- An index beyond the end. -/
  | badIndex
  /-- A number that its new type has no room for. -/
  | badCast
  /-- `std::stoi` throws. -/
  | badNumber
  deriving DecidableEq

def front {α : Type} (l : List α) : Except Fault α :=
  match l.head? with
  | some a => .ok a
  | none => .error .emptyVector

def back {α : Type} (l : List α) : Except Fault α :=
  match l.getLast? with
  | some a => .ok a
  | none => .error .emptyVector

def at' {α : Type} (l : List α) (i : ℕ) : Except Fault α :=
  match l[i]? with
  | some a => .ok a
  | none => .error .badIndex

/-- `static_cast<size_t>`. -/
def toSize (n : ℤ) : Except Fault ℕ :=
  if 0 ≤ n ∧ n < 2 ^ 64 then .ok n.toNat else .error .badCast

/-- `a / b`, rounded up: `static_cast<size_t>(std::ceil(..))`. -/
def ceilDiv (a : ℚ) (b : ℕ) : Except Fault ℕ := if b = 0 then .error .badCast else .ok ⌈a / b⌉₊

/-! ### Topology -/

/-- `Topology`, with `IsSmtEnable()`. -/
structure Topology where
  numaNodeNum : ℕ
  clusterNum : ℕ
  oneClusterCpuNum : ℕ
  cpuTopology : List (List ℕ)
  isSystemOfflineCpu : Bool
  isSmtEnable : Bool

def Topology.sep (T : Topology) : ℕ := if T.isSmtEnable then 2 else 1

def Topology.systemCpuCount (T : Topology) : ℕ := (T.cpuTopology.map List.length).sum

/-! ### Selection -/

/-- What `ClusterSelector` knows when it is asked: the load of each CPU, and for each cluster the sum of
    its L3 counts. -/
structure ClusterSelector (D : Type) where
  cpuLoadMap : ℕ → D
  scclL3cSum : ℕ → UInt64

namespace ClusterSelector
variable {D : Type} [Double D] (sel : ClusterSelector D) (T : Topology)

def DBL_MAX : D := Double.ofInt (2 ^ 1024 - 2 ^ 971)

/-- `SelectIdleNode`; `none` is `-1`. -/
def selectIdleNode (used : List Bool) : Option ℕ :=
  let dataVec : List D := used.zipIdx.map (fun p =>
    if p.1 then Double.ofInt 0
    else ((T.cpuTopology[p.2]?).getD []).foldl (fun sum cpu => Double.add sum (sel.cpuLoadMap cpu))
      (Double.ofInt 0))
  ((used.zip dataVec).zipIdx.foldl (fun (best : D × Option ℕ) p =>
    if Double.lt p.1.2 best.1 && !p.1.1 then (p.1.2, some p.2) else best) (DBL_MAX, none)).2

/-- How many clusters `SelectIdleCluster` looks at; with none to a node its bound wraps around. -/
def clustersSeen (used : List Bool) : ℕ :=
  let numaClusterNum := T.clusterNum / T.numaNodeNum
  if numaClusterNum = 0 then used.length else min numaClusterNum used.length

/-- `SelectIdleCluster`; `none` is `-1`. -/
def selectIdleCluster (node : ℕ) (used : List Bool) : Option ℕ :=
  if T.numaNodeNum ≤ node then none
  else
    let clusterIndexBegin := T.clusterNum / T.numaNodeNum * node
    ((used.take (clustersSeen T used)).zipIdx.foldl (fun (best : UInt64 × Option ℕ) p =>
      let sum := sel.scclL3cSum (clusterIndexBegin + p.2)
      if best.1 > sum && !p.1 then (sum, some (clusterIndexBegin + p.2)) else best)
      (UInt64.ofNat (2 ^ 64 - 1), none)).2

/-- `SelectIdleCpuFromCluster`; with no idle CPU it is the first one, used or not. -/
def selectIdleCpuFromCluster (clusterId : ℕ) (used : List Bool) : ℕ :=
  let clusterCpuStart := clusterId * T.oneClusterCpuNum
  (used.zipIdx.foldl (fun (best : D × ℕ) p =>
    let load := sel.cpuLoadMap (clusterCpuStart + p.2)
    if !p.1 && Double.lt load best.1 then (load, clusterCpuStart + p.2) else best)
    (Double.ofInt 100, clusterCpuStart)).2

end ClusterSelector

/-! ### State -/

def CPU_USAGE_QUEUE_LENGTH : ℕ := 30

structure DockerResourceInfo where
  inited : Bool
  optimizeBinded : Bool
  dockerLended : Bool
  cpuUsageQueue : List ℚ
  cpuUsageSum : ℚ
  initialCpuSet : List ℕ
  initialMemSet : List ℕ
  currentCpuSet : List ℕ
  currentMemSet : List ℕ
  borrowDockerMap : UMap Str ℚ
  initialCpuLimit : ℚ
  lendCpuLimit : ℚ
  currentCpuLimit : ℚ
  bindClusters : List ℕ

/-- What `dockerInfos[dockerId]` makes. -/
def DockerResourceInfo.new : DockerResourceInfo :=
  ⟨false, false, false, [], 0, [], [], [], [], .empty, 0, 0, 0, []⟩

structure Cluster where
  freeCpuCores : List ℕ
  occupiedCpuCores : List ℕ
  deriving DecidableEq

structure NumaClusterInfo where
  freeInfoVec : List ℕ
  occupiedInfoVec : List ℕ
  deriving DecidableEq

structure State where
  dockerBorrowSwitch : Bool
  isFirstUpdate : Bool
  collectorPre : UMap Str DockerAdapt.Entry
  dockerInfos : UMap Str DockerResourceInfo
  systemClusterInfo : UMap ℕ Cluster
  numaClusterInfo : UMap ℕ NumaClusterInfo

namespace State
variable (s : State)

/-- `systemClusterInfo[clusterId]`. -/
def cluster (clusterId : ℕ) : Cluster := (s.systemClusterInfo.find clusterId).getD ⟨[], []⟩

def setCluster (clusterId : ℕ) (c : Cluster) : State :=
  { s with systemClusterInfo := s.systemClusterInfo.insert clusterId c }

/-- `numaClusterInfo[nid]`. -/
def numa (nid : ℕ) : NumaClusterInfo := (s.numaClusterInfo.find nid).getD ⟨[], []⟩

def setNuma (nid : ℕ) (n : NumaClusterInfo) : State :=
  { s with numaClusterInfo := s.numaClusterInfo.insert nid n }

/-- `dockerInfos[dockerId]`. -/
def docker (dockerId : Str) : DockerResourceInfo := (s.dockerInfos.find dockerId).getD .new

def setDocker (dockerId : Str) (info : DockerResourceInfo) : State :=
  { s with dockerInfos := s.dockerInfos.insert dockerId info }

end State

/-! ### `Init` -/

/-- The cores of a block of CPUs, the first of every `sep`. -/
def stride (sep : ℕ) (cpus : List ℕ) : List ℕ :=
  (cpus.zipIdx.filter (fun p => p.2 % sep = 0)).map (·.1)

/-- The inner loop of `InitSystemClusters`. -/
def initCluster (T : Topology) (i : ℕ) (s : State) (block : List ℕ) : State :=
  let clusterId := block.headD 0 / T.oneClusterCpuNum
  let n := s.numa i
  (s.setCluster clusterId ⟨stride T.sep block, []⟩).setNuma i
    { n with freeInfoVec := n.freeInfoVec ++ [clusterId] }

/-- The whole clusters of a node. -/
def blocks (T : Topology) (cpus : List ℕ) : List (List ℕ) :=
  (List.range (cpus.length / T.oneClusterCpuNum)).map
    (fun j => (cpus.drop (j * T.oneClusterCpuNum)).take T.oneClusterCpuNum)

def initSystemClusters (T : Topology) (s : State) : State :=
  T.cpuTopology.zipIdx.foldl (fun s p => (blocks T p.1).foldl (initCluster T p.2) s) s

/-- `Init`, where the selector can be initialised; `dockerBorrowSwitch` is what the file says. -/
def init (T : Topology) (dockerBorrowSwitch : Bool) : Option State :=
  if T.oneClusterCpuNum = 0 ∨ T.isSystemOfflineCpu then none
  else some (initSystemClusters T ⟨dockerBorrowSwitch, true, .empty, .empty, .empty, .empty⟩)

/-! ### Taking cores and clusters -/

section
variable {D : Type} [Double D] (sel : ClusterSelector D) (T : Topology)

/-- `used[x - first] = value`, for each of them. -/
def mark (first : ℕ) (value : Bool) : List ℕ → List Bool → Except Fault (List Bool)
  | [], used => .ok used
  | x :: xs, used =>
    if first ≤ x ∧ x - first < used.length then mark first value xs (used.set (x - first) value)
    else .error .badIndex

/-- The cores that are chosen one after another. -/
def pickCpus (clusterId : ℕ) : ℕ → List Bool → Except Fault (List ℕ)
  | 0, _ => .ok []
  | n + 1, used => do
    let cpu := sel.selectIdleCpuFromCluster T clusterId used
    let used ← mark (clusterId * T.oneClusterCpuNum) true [cpu] used
    let cpus ← pickCpus clusterId n used
    return cpu :: cpus

/-- Some cores of a cluster are taken, after those in `cpuSet`. -/
def takeCpus (clusterId n : ℕ) (cpuSet : List ℕ) (s : State) : Except Fault (List ℕ × State) := do
  let c := s.cluster clusterId
  let used ← mark (clusterId * T.oneClusterCpuNum) false c.freeCpuCores
    (List.replicate T.oneClusterCpuNum true)
  let cpus ← pickCpus sel T clusterId n used
  let cpuSet := cpuSet ++ cpus
  return (cpuSet, s.setCluster clusterId
    ⟨c.freeCpuCores.filter (· ∉ cpuSet), c.occupiedCpuCores ++ cpus⟩)

/-- All the cores of a cluster that are free are taken. -/
def takeAll (clusterId : ℕ) (s : State) : State :=
  let c := s.cluster clusterId
  s.setCluster clusterId ⟨[], c.occupiedCpuCores ++ c.freeCpuCores⟩

/-- Whole clusters are taken; the count that is left may not wrap around. -/
def takeWhole : List ℕ → ℕ → List ℕ → State → Except Fault (ℕ × List ℕ × State)
  | [], need, cpuSet, s => .ok (need, cpuSet, s)
  | clusterId :: ids, need, cpuSet, s =>
    let free := (s.cluster clusterId).freeCpuCores
    if need < free.length then .error .badCast
    else takeWhole ids (need - free.length) (cpuSet ++ free) (takeAll clusterId s)

/-- So many cores of some clusters, of which only the last need not be taken as a whole. -/
def fillClusters (ids : List ℕ) (need : ℕ) (cpuSet : List ℕ) (s : State) :
    Except Fault (List ℕ × State) := do
  let clusterId ← back ids
  let (need, cpuSet, s) ← takeWhole ids.dropLast need cpuSet s
  takeCpus sel T clusterId need cpuSet s

/-- The clusters that are chosen one after another. -/
def pickClusters (nid first : ℕ) : ℕ → List Bool → Except Fault (List ℕ)
  | 0, _ => .ok []
  | n + 1, used =>
    match sel.selectIdleCluster T nid used with
    | none => .error .badIndex
    | some clusterId => do
      let used ← mark first true [clusterId] used
      let ids ← pickClusters nid first n used
      return clusterId :: ids

/-- So many clusters of a node are occupied. -/
def takeClusters (nid n : ℕ) (s : State) : Except Fault (List ℕ × State) := do
  let cpus ← at' T.cpuTopology nid
  let cpu ← front cpus
  let clusterBeginIndex := cpu / T.oneClusterCpuNum
  let info := s.numa nid
  let used ← mark clusterBeginIndex true info.occupiedInfoVec
    (List.replicate (cpus.length / T.oneClusterCpuNum) false)
  let ids ← pickClusters sel T nid clusterBeginIndex n used
  let occupied := info.occupiedInfoVec ++ ids
  return (ids, s.setNuma nid ⟨info.freeInfoVec.filter (· ∉ occupied), occupied⟩)

/-! ### Limits -/

/-- The first part of `DockerAddCpuLimitComm`: cores for a higher limit, first of the last cluster that is
    bound, then of new ones. -/
def addCpus (nid clusterId need : ℕ) (s : State) : Except Fault (List ℕ × List ℕ × State) := do
  let free := (s.cluster clusterId).freeCpuCores
  if need ≤ free.length then
    let (cpus, s) ← takeCpus sel T clusterId need [] s
    return (cpus, [], s)
  else
    let n ← ceilDiv (need - free.length : ℕ) (T.oneClusterCpuNum / T.sep)
    let (ids, s) ← takeClusters sel T nid n (takeAll clusterId s)
    let (cpus, s) ← fillClusters sel T ids (need - free.length) free s
    return (cpus, ids, s)

/-- `DockerAddCpuLimitComm`; `updated` is what becomes of the commands. -/
def dockerAddCpuLimitComm (dockerId : Str) (limit : ℚ) (updated : Bool) (s : State) :
    Except Fault (State × Bool) := do
  let info := s.docker dockerId
  let nid ← front info.currentMemSet
  let need ← toSize (⌈info.currentCpuLimit + limit⌉ - ⌈info.currentCpuLimit⌉)
  let clusterId ← back info.bindClusters
  if T.oneClusterCpuNum = 0 then return (s, false)
  else
    let (cpus, ids, s) ← addCpus sel T nid clusterId need s
    return (s.setDocker dockerId { info with
      currentCpuSet := info.currentCpuSet ++ cpus
      bindClusters := info.bindClusters ++ ids
      currentCpuLimit := info.currentCpuLimit + limit }, updated)

/-- The last cores of a cluster that were occupied are free again. -/
def giveBack (clusterId n : ℕ) (s : State) : List ℕ × State :=
  let c := s.cluster clusterId
  let cpus := (c.occupiedCpuCores.rtake n).reverse
  (cpus, s.setCluster clusterId ⟨c.freeCpuCores ++ cpus, c.occupiedCpuCores.rdrop n⟩)

/-- A cluster is free again. -/
def freeCluster (nid clusterId : ℕ) (s : State) : State :=
  let n := s.numa nid
  s.setNuma nid ⟨n.freeInfoVec ++ [clusterId], n.occupiedInfoVec.filter (· ≠ clusterId)⟩

/-- The loop of `DockerMinusCpuLimitComm`, over the bound clusters from the last one on: cores are given
    back till there are enough, and a cluster when it has none left. -/
def returnCpus (nid : ℕ) : List ℕ → ℕ → List ℕ → State → Except Fault (List ℕ × List ℕ × State)
  | ids, 0, cpus, s => .ok (cpus, ids, s)
  | [], _ + 1, _, _ => .error .emptyVector
  | clusterId :: ids, need + 1, cpus, s =>
    let occupied := (s.cluster clusterId).occupiedCpuCores.length
    if need + 1 ≤ occupied then
      let r := giveBack clusterId (need + 1) s
      .ok (cpus ++ r.1, clusterId :: ids, r.2)
    else
      let r := giveBack clusterId occupied s
      returnCpus nid ids (need + 1 - occupied) (cpus ++ r.1) (freeCluster nid clusterId r.2)

/-- `DockerMinusCpuLimitComm`; `updated` is what becomes of the commands. -/
def dockerMinusCpuLimitComm (dockerId : Str) (limit : ℚ) (updated : Bool) (s : State) :
    Except Fault (State × Bool) := do
  let info := s.docker dockerId
  let nid ← front info.currentMemSet
  let need ← toSize (⌈info.currentCpuLimit⌉ - ⌈info.currentCpuLimit - limit⌉)
  let _ ← back info.bindClusters
  let (cpus, ids, s) ← returnCpus nid info.bindClusters.reverse need [] s
  return (s.setDocker dockerId { info with
    currentCpuSet := info.currentCpuSet.filter (· ∉ cpus)
    bindClusters := ids.reverse
    currentCpuLimit := info.currentCpuLimit - limit }, updated)

/-! ### `RecoverInitialBindStatus` -/

/-- A vanished container's clusters of a node. -/
def releaseClusters (ids : List ℕ) (s : State) (nid : ℕ) : State :=
  let n := s.numa nid
  s.setNuma nid ⟨n.freeInfoVec ++ n.occupiedInfoVec.filter (· ∈ ids),
    n.occupiedInfoVec.filter (· ∉ ids)⟩

/-- A core of it. -/
def releaseCpu (s : State) (cpu : ℕ) : State :=
  let clusterId := cpu / T.oneClusterCpuNum
  let c := s.cluster clusterId
  s.setCluster clusterId { c with freeCpuCores := c.freeCpuCores ++ [cpu] }

/-- What stays occupied of a cluster of which `cpus` have been released: those, and not the others. -/
def filterOccupied (cpus : List ℕ) (s : State) (clusterId : ℕ) : State :=
  let c := s.cluster clusterId
  s.setCluster clusterId { c with occupiedCpuCores := c.occupiedCpuCores.filter (· ∈ cpus) }

/-- What the others have borrowed of it they return; it stays in their books. -/
def returnTo (dockerId : Str) (s : State) (p : Str) : Except Fault State :=
  match (s.docker p).borrowDockerMap.find dockerId with
  | none => .ok s
  | some limit => (dockerMinusCpuLimitComm p limit true s).map (·.1)

/-- `RecoverInitialBindStatus`; `updated` is what becomes of the commands. -/
def recoverInitialBindStatus (dockerId : Str) (updated : Bool) (s : State) : Except Fault State :=
  let info := s.docker dockerId
  if ¬ info.optimizeBinded ∨ ¬ updated then .ok s
  else
    let s := info.currentMemSet.foldl (releaseClusters info.bindClusters) s
    if T.oneClusterCpuNum = 0 then .ok s
    else
      let s := info.currentCpuSet.foldl (releaseCpu T) s
      let ids := (info.currentCpuSet.map (· / T.oneClusterCpuNum)).dedup
      let s := ids.foldl (filterOccupied info.currentCpuSet) s
      s.dockerInfos.keys.foldlM (returnTo dockerId) s

/-! ### `Update` -/

/-- `std::stoi`. -/
def toNumber (s : Str) : Except Fault ℤ :=
  match stoi s with
  | some n => .ok n
  | none => .error .badNumber

/-- A range `a` or `a-b` of a list; the loop over it runs past the largest `int` if it ends there. -/
def parseRange (range : Str) : Except Fault (List ℕ) :=
  if 45 ∈ range then do
    let first ← toNumber (range.takeWhile (· ≠ 45))
    let last ← toNumber ((range.dropWhile (· ≠ 45)).drop 1)
    if last = 2 ^ 31 - 1 then .error .badCast
    else return List.range' first.toNat (last + 1 - first).toNat
  else do
    let cpu ← toNumber range
    return [cpu.toNat]

/-- `TransformStrToVec`. -/
def transformStrToVec (resourceListStr : Str) : Except Fault (List ℕ) := do
  let ranges := resourceListStr.splitOn 44
  let ranges := if ranges.getLast? = some [] then ranges.dropLast else ranges
  let cpus ← ranges.mapM parseRange
  return cpus.flatten

/-- `static_cast<double>` of an integer: of the multiples of a power of two that 53 bits have room for, the
    nearest, and of two the even one. -/
def toDouble (n : ℤ) : ℚ :=
  let unit := 2 ^ (n.natAbs.log2 - 52)
  let k := n.natAbs / unit
  let r := n.natAbs % unit
  let k := if 2 * r < unit ∨ (2 * r = unit ∧ k % 2 = 0) then k else k + 1
  n.sign * (k * unit : ℕ)

/-- A container that is seen for the second time. -/
def initInfo (c : DockerAdapt.Entry) (info : DockerResourceInfo) : Except Fault DockerResourceInfo := do
  let cpus ← transformStrToVec c.cpus
  let mems ← transformStrToVec c.mems
  let limit := if c.cfs_period_us > 0 then toDouble (c.cfs_quota_us / c.cfs_period_us).toInt else 0
  return { info with
    initialCpuLimit := limit, currentCpuLimit := limit, lendCpuLimit := 0
    initialCpuSet := cpus, initialMemSet := mems, currentCpuSet := cpus, currentMemSet := mems
    cpuUsageSum := 0, inited := true, optimizeBinded := false, dockerLended := false }

/-- `cpuUtilization`, which is undefined as an `int` where no time has passed. -/
def cpuUtilization (T : Topology) (pre c : DockerAdapt.Entry) : Except Fault ℚ :=
  let dockerCpuUsedNs := (c.cpu_usage - pre.cpu_usage).toUInt64
  let systemCpuUsedNs := (c.system_cpu_usage - pre.system_cpu_usage) * 10000000
  let cpuUtilization : ℚ := dockerCpuUsedNs.toNat / systemCpuUsedNs.toNat * T.systemCpuCount * 100
  if systemCpuUsedNs = 0 ∨ ⌈cpuUtilization / 100⌉ ≥ 2 ^ 31 then .error .badCast else .ok cpuUtilization

/-- The last usages. -/
def DockerResourceInfo.push (info : DockerResourceInfo) (usage : ℚ) : DockerResourceInfo :=
  let queue := info.cpuUsageQueue ++ [usage]
  let sum := info.cpuUsageSum + usage
  if queue.length > CPU_USAGE_QUEUE_LENGTH then
    { info with cpuUsageQueue := queue.drop 1, cpuUsageSum := sum - queue.headD 0 }
  else { info with cpuUsageQueue := queue, cpuUsageSum := sum }

/-- The body of the loop over the containers in `Update`. -/
def updateDocker (collector : UMap Str DockerAdapt.Entry) (s : State) (id : Str) :
    Except Fault State :=
  match s.collectorPre.find id, collector.find id with
  | some pre, some c => do
    let info := s.docker id
    let info ← if info.inited then .ok info else initInfo c info
    let usage ← cpuUtilization T pre c
    return s.setDocker id (info.push usage)
  | _, _ => .ok s

/-- A container that has gone. -/
def removeGone (collector : UMap Str DockerAdapt.Entry) (updated : Str → Bool) (s : State) (id : Str) :
    Except Fault State :=
  if collector.count id then .ok s
  else do
    let s ← recoverInitialBindStatus T id (updated id) s
    return { s with dockerInfos := s.dockerInfos.erase id }

/-- The containers of a `DataList`. -/
def collect (data : List DockerAdapt.Entry) : UMap Str DockerAdapt.Entry :=
  data.foldl (fun collector c => collector.insert c.id c) .empty

/-- `Update`; `updated` is what becomes of the commands for a container that has gone, and `order` that in
    which `dockerInfos` has its entries afterwards. -/
def update (data : List DockerAdapt.Entry) (updated : Str → Bool) (order : List Str) (s : State) :
    Except Fault State :=
  let collector := collect data
  if s.isFirstUpdate then .ok { s with collectorPre := collector, isFirstUpdate := false }
  else do
    let s ← s.dockerInfos.keys.foldlM (removeGone T collector updated) s
    let s ← collector.keys.foldlM (updateDocker T collector) s
    return { s with collectorPre := collector, dockerInfos := s.dockerInfos.reorder order }

/-! ### `Tune` -/

/-- What a `Tune` depends on: what the selector knows, what becomes of the commands that bind a container
    or lower the limit of one that lends, and the order in which limits are returned. -/
structure TuneEnv (D : Type) where
  sel : ClusterSelector D
  bound : Str → Bool
  lent : Str → Bool
  order : List Str

variable (env : TuneEnv D)

/-- The node whose CPUs include those of the container. -/
def findNode (cpuSet : List ℕ) : List (List ℕ) → Except Fault (Option ℕ)
  | [] => .ok none
  | cpus :: nodes => do
    let first ← front cpuSet
    let last ← back cpuSet
    let cpu ← front cpus
    let cpu' ← back cpus
    if first ≥ cpu ∧ last ≤ cpu' then return some 0
    else
      let r ← findNode cpuSet nodes
      return r.map (· + 1)

/-- `SelectBindingNuma`; `none` is `-1`. -/
def selectBindingNuma (info : DockerResourceInfo) : Except Fault (Option ℕ) :=
  match info.currentMemSet with
  | [nid] => .ok (some nid)
  | _ => do
    match ← findNode info.currentCpuSet T.cpuTopology with
    | some nid => return some nid
    | none => return env.sel.selectIdleNode T (T.cpuTopology.map (fun _ => false))

/-- `DockerBindClusters`, with `BindCpusAndMems` at its end. -/
def dockerBindClusters (dockerId : Str) (nid clusterNum : ℕ) (s : State) : Except Fault State := do
  let info := s.docker dockerId
  let (ids, s) ← takeClusters env.sel T nid clusterNum s
  let (cpus, s) ← fillClusters env.sel T ids ⌈info.initialCpuLimit⌉₊ [] s
  let info := { info with bindClusters := info.bindClusters ++ ids }
  return s.setDocker dockerId
    (if env.bound dockerId then { info with currentCpuSet := cpus, currentMemSet := [nid] } else info)

/-- `DockerOptimizeBindSchedule`, which ends when a node has not enough clusters left. -/
def dockerOptimizeBindSchedule : List Str → State → Except Fault State
  | [], s => .ok s
  | dockerId :: ids, s =>
    let info := s.docker dockerId
    if info.optimizeBinded ∨ info.initialCpuLimit ≤ 0 then dockerOptimizeBindSchedule ids s
    else if T.oneClusterCpuNum = 0 then .ok s
    else do
      let needClusterNum ← ceilDiv info.initialCpuLimit (T.oneClusterCpuNum / T.sep)
      match ← selectBindingNuma T env info with
      | none => return s
      | some nid =>
        if (s.numa nid).freeInfoVec.length < needClusterNum then return s
        else
          let s ← dockerBindClusters T env dockerId nid needClusterNum s
          dockerOptimizeBindSchedule ids
            (s.setDocker dockerId { s.docker dockerId with optimizeBinded := true })

/-- A container that has neither lent nor borrowed, and used no more than half of its limit. -/
def DockerResourceInfo.couldLend (info : DockerResourceInfo) : Bool :=
  !info.dockerLended && info.borrowDockerMap.keys.isEmpty &&
    info.cpuUsageQueue.length == CPU_USAGE_QUEUE_LENGTH &&
    decide (info.cpuUsageSum / CPU_USAGE_QUEUE_LENGTH ≤ info.initialCpuLimit * 100 * (1 / 2))

/-- What it could lend. -/
def DockerResourceInfo.offer (info : DockerResourceInfo) : ℚ :=
  min (info.initialCpuLimit - info.cpuUsageSum / CPU_USAGE_QUEUE_LENGTH / 100)
    (info.initialCpuLimit * (1 / 2))

/-- The usage of a container, in percent of a CPU. -/
def DockerResourceInfo.usage (info : DockerResourceInfo) : ℚ :=
  info.cpuUsageSum / info.cpuUsageQueue.length

/-- The first loop of `TryBorrowCpuFromIdleDocker`. -/
def offers (s : State) : State :=
  { s with dockerInfos := s.dockerInfos.mapVal (fun _ info =>
      if info.couldLend then { info with lendCpuLimit := info.offer } else info) }

def couldLendDockers (s : State) : List Str :=
  s.dockerInfos.keys.filter (fun d => (s.docker d).couldLend)

def needBorrowDockers (s : State) : List Str :=
  s.dockerInfos.keys.filter (fun d => !(s.docker d).couldLend &&
    decide ((s.docker d).usage ≥ (s.docker d).initialCpuLimit * 100 * (9 / 10)))

/-- One that borrows. -/
def borrow (lenders : List Str) (n : ℕ) (limit : ℚ) (s : State) (dockerId : Str) :
    Except Fault State := do
  let (s, _) ← dockerAddCpuLimitComm env.sel T dockerId limit true s
  let info := s.docker dockerId
  let borrowDockerMap := lenders.foldl
    (fun m lender => m.insert lender ((s.docker lender).lendCpuLimit / n)) info.borrowDockerMap
  return s.setDocker dockerId { info with borrowDockerMap }

/-- One that lends. -/
def lend (s : State) (dockerId : Str) : Except Fault State := do
  let (s, updated) ← dockerMinusCpuLimitComm dockerId (s.docker dockerId).lendCpuLimit
    (env.lent dockerId) s
  if updated then return s.setDocker dockerId { s.docker dockerId with dockerLended := true }
  else return s

def tryBorrowCpuFromIdleDocker (s : State) : Except Fault State :=
  let lenders := couldLendDockers s
  let borrowers := needBorrowDockers s
  let s := offers s
  let couldBorrowLimit := (lenders.map (fun d => (s.docker d).lendCpuLimit)).sum
  if couldBorrowLimit < 1 / 100 ∨ borrowers = [] then .ok s
  else do
    let s ← borrowers.foldlM
      (borrow T env lenders borrowers.length (couldBorrowLimit / borrowers.length)) s
    lenders.foldlM (lend env) s

def needReturnDockers (s : State) : List Str :=
  s.dockerInfos.keys.filter (fun d => (s.docker d).dockerLended &&
    decide ((s.docker d).usage ≥ (s.docker d).currentCpuLimit * 100 * (95 / 100)))

/-- What `p` has borrowed of a container is to be returned, and goes from its books. -/
def settleLoan (lender : Str) (r : State × UMap Str ℚ) (p : Str) : State × UMap Str ℚ :=
  let info := r.1.docker p
  match info.borrowDockerMap.find lender with
  | none => r
  | some limit =>
    (r.1.setDocker p { info with borrowDockerMap := info.borrowDockerMap.erase lender },
      r.2.insert p (r.2.value p + limit))

/-- `returnDockerCpus`. -/
def settleLoans (lenders : List Str) (s : State) : State × UMap Str ℚ :=
  lenders.foldl (fun r lender => r.1.dockerInfos.keys.foldl (settleLoan lender) r) (s, .empty)

/-- One that has its own back. -/
def takeBack (s : State) (dockerId : Str) : Except Fault State := do
  let (s, _) ← dockerAddCpuLimitComm env.sel T dockerId (s.docker dockerId).lendCpuLimit true s
  return s.setDocker dockerId { s.docker dockerId with dockerLended := false }

def tryReturnCpuToIdleDocker (s : State) : Except Fault State :=
  let lenders := needReturnDockers s
  if lenders = [] then .ok s
  else do
    let r := settleLoans lenders s
    let s ← lenders.foldlM (takeBack T env) r.1
    (r.2.reorder env.order).keys.foldlM
      (fun s p => (dockerMinusCpuLimitComm p (r.2.value p) true s).map (·.1)) s

def tune (s : State) : Except Fault State := do
  let s ← dockerOptimizeBindSchedule T env s.dockerInfos.keys s
  if s.dockerBorrowSwitch then
    let s ← tryBorrowCpuFromIdleDocker T env s
    tryReturnCpuToIdleDocker T env s
  else return s

/-- `Exit`; `updated` is what becomes of the commands for each container. -/
def exit (updated : Str → Bool) (s : State) : Except Fault State := do
  let s ← s.dockerInfos.keys.foldlM (fun s d => recoverInitialBindStatus T d (updated d) s) s
  return { s with
    isFirstUpdate := true, collectorPre := .empty, dockerInfos := .empty
    systemClusterInfo := .empty, numaClusterInfo := .empty }

/-! ### Runs -/

inductive Act (D : Type) where
  | update (data : List DockerAdapt.Entry) (updated : Str → Bool) (order : List Str)
  | tune (env : TuneEnv D)
  | exit (updated : Str → Bool)

def step (s : State) : Act D → Except Fault State
  | .update data updated order => update T data updated order s
  | .tune env => tune T env s
  | .exit updated => exit T updated s

end
end ClusterAffinity
end OeAware

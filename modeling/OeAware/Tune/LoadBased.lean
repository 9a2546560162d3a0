import Mathlib.Algebra.Ring.Int.Defs
import OeAware.Collect.DockerAdapt
import OeAware.Data.Plain
import OeAware.Schemes.Loops
import OeAware.Tune.CpuRanges

/-! @src src/plugin/tune/docker/load_based_scheduling/load_based_scheduling.cpp | name:LoadBasedScheduling |
    scheme:state-machine

    `Run` prefers CPUs for the containers with a high load: those of one node share its CPUs in equal parts. A first
    pass counts the containers of each node, a second one hands out the parts, one behind the other; a part whose
    write fails is handed out again.

        cpus of a node    0 1 2 │ 3 4 5 │ 6 7       two containers:  0 1 2 3 │ 4 5 6 7
                          used ─▶ used + num ─▶ … -/

namespace OeAware
open Schemes

namespace LoadBasedScheduling

/-! ### State -/

/-- `ContainerInfo`, of a node. -/
structure ContainerInfo where
  containerNum : ℕ
  cpus : List ℤ
  usedIndex : ℕ

/-- Value-initialised. -/
instance : Zero ContainerInfo := ⟨⟨0, [], 0⟩⟩

structure ContainerCpuInfo (D : Type) where
  id : Str
  cycles : Int64
  totLoad : Int64
  cpuLoad : D
  cpus : Str
  originPreferredCpu : Str
  /-- Held as `uint64_t`. -/
  tasks : USet Int32

/-- What goes wrong: an index beyond the end, a division by zero, or `std::stoi` throws. -/
inductive Fault where
  | badIndex
  | divZero
  | badNumber
  deriving DecidableEq

structure State (D : Type) where
  maxCycles : List Int64
  pids : UMap Int32 Str
  usedCpus : USet ℤ
  containers : UMap Str (ContainerCpuInfo D)
  containerNuma : UMap Str ℤ
  cpuNuma : UMap ℤ ℤ
  numaContainers : UMap ℤ ContainerInfo
  highLoadThreshold : D

def at' {α : Type} (l : List α) (i : ℕ) : Except Fault α :=
  match l[i]? with
  | some a => .ok a
  | none => .error .badIndex

theorem at'_ok {α : Type} {l : List α} {i : ℕ} {a : α} (h : at' l i = .ok a) : l[i]? = some a := by
  rw [at'] at h
  split at h
  · cases h
    assumption
  · cases h

def unlimit : Int64 := -1

section
variable {D : Type} [Double D]

def ContainerCpuInfo.new : ContainerCpuInfo D := ⟨[], 0, 0, Double.ofInt 0, [], [], .empty⟩

/-- `containers[id]`. -/
def State.container (s : State D) (id : Str) : ContainerCpuInfo D := (s.containers.find id).getD .new

/-! ### `UpdateData` -/

/-- `tot`: an `int`. -/
def totLoad (container : DockerAdapt.Entry) : Except Fault Int64 :=
  if container.cfs_quota_us = unlimit then .ok unlimit
  else if container.cfs_period_us = 0 then .error .divZero
  else .ok (container.cfs_quota_us / container.cfs_period_us).toInt32.toInt64

/-- One round of the first loop of `UpdateDockerData`; `preferred` is what `cpuset.preferred_cpus` reads. -/
def updateContainer (preferred : Str → Str) (s : State D) (container : DockerAdapt.Entry) :
    Except Fault (State D) := do
  let tot ← totLoad container
  let origin := match s.containers.find container.id with
    | some info => info.originPreferredCpu
    | none => preferred container.id
  let info := s.container container.id
  return { s with
    containers := s.containers.insert container.id { info with
      id := container.id
      cpus := container.cpus
      totLoad := tot
      originPreferredCpu := origin
      tasks := container.tasks.foldl (fun tasks pid => tasks.insert pid) info.tasks }
    pids := container.tasks.foldl (fun pids pid => pids.insert pid container.id) s.pids }

/-- One round of the second: a container that is not in the list goes, and its tasks with it. -/
def removeGone (containerIds : List Str) (s : State D) (id : Str) : State D :=
  if id ∈ containerIds then s
  else { s with
    pids := (s.container id).tasks.elems.foldl (fun pids pid => pids.erase pid) s.pids
    containers := s.containers.erase id }

/-- `UpdateDockerData`. -/
def updateDockerData (preferred : Str → Str) (data : List DockerAdapt.Entry) (s : State D) :
    Except Fault (State D) := do
  let s ← data.foldlM (updateContainer preferred) s
  return s.containers.keys.foldl (removeGone (data.map (fun container => container.id))) s

/-- A CPU and its node. -/
def addCpu (envStaticInfo : EnvStaticInfo) (s : State D) (cpu : ℕ) : Except Fault (State D) := do
  let node ← at' envStaticInfo.cpu2Node cpu
  let node := node.toInt32.toInt
  let info := s.numaContainers.value node
  return { s with
    cpuNuma := s.cpuNuma.insert cpu node
    numaContainers := s.numaContainers.insert node { info with cpus := info.cpus ++ [(cpu : ℤ)] } }

/-- `UpdateNumaInfo`. -/
def updateNumaInfo (data : List EnvStaticInfo) (s : State D) : Except Fault (State D) :=
  if s.cpuNuma.keys ≠ [] then .ok s
  else data.foldlM (fun s envStaticInfo => (List.range (loops envStaticInfo.cpuNumConfig)).foldlM
    (addCpu envStaticInfo) s) s

/-- A sample of `PmuSamplingData`. -/
structure Sample where
  pid : Int32
  period : UInt64

/-- `PmuSamplingData`. -/
structure PmuSamplingData where
  pmuData : List Sample
  interval : UInt64

/-- The cycles of one sample. -/
def charge (s : State D) (data : Sample) : State D :=
  match s.pids.find data.pid with
  | none => s
  | some id =>
    let info := s.container id
    { s with containers := s.containers.insert id { info with cycles := info.cycles + data.period.toInt64 } }

/-- `container.cpuLoad`. -/
def cpuLoad (cycles : Int64) (interval : UInt64) (maxCycles : Int64) : D :=
  Double.mul (Double.div (Double.div (Double.mul (Double.ofInt cycles.toInt) (Double.ofInt 1))
    (Double.ofInt interval.toNat)) (Double.ofInt maxCycles.toInt)) (Double.ofInt 1000)

/-- `UpdatePmuData`. -/
def updatePmuData (data : List PmuSamplingData) (s : State D) : Except Fault (State D) := do
  let pmuData ← at' data 0
  let s := pmuData.pmuData.foldl charge s
  if s.containers.keys = [] then return s
  else
    let maxCycles ← at' s.maxCycles 0
    return { s with containers := s.containers.mapVal (fun _ container =>
      { container with cpuLoad := cpuLoad container.cycles pmuData.interval maxCycles, cycles := 0 }) }

/-! ### `Run` -/

def isHighLoad (s : State D) (container : ContainerCpuInfo D) (cpuNum : ℕ) : Bool :=
  if container.totLoad = unlimit then
    Double.lt (Double.mul s.highLoadThreshold (Double.ofInt cpuNum)) container.cpuLoad
  else Double.lt (Double.mul s.highLoadThreshold (Double.ofInt container.totLoad.toInt)) container.cpuLoad

def parseRange (rangeStr : Str) : Except Fault (List ℤ) :=
  match RealTimeTune.parseRange rangeStr with
  | some cpus => .ok cpus
  | none => .error .badNumber

/-- One round of the first pass: the containers to tune go along. -/
def countContainer (r : State D × List Str) (id : Str) : Except Fault (State D × List Str) := do
  let (s, tuneContainerIds) := r
  let container := s.container id
  let cpus ← parseRange container.cpus
  if isHighLoad s container cpus.length then
    let cpu ← at' cpus 0
    -- `cpuNuma[cpus[0]]` makes an entry where there is none
    let node := s.cpuNuma.value cpu
    let cpuNuma := s.cpuNuma.insertNew cpu 0
    let info := s.numaContainers.value node
    return ({ s with
      cpuNuma
      numaContainers := s.numaContainers.insert node { info with containerNum := info.containerNum + 1 }
      containerNuma := s.containerNuma.insert container.id node }, tuneContainerIds ++ [container.id])
  else return (s, tuneContainerIds)

/-- What is written to the `cpuset.preferred_cpus` of a container, and whether that succeeds. -/
structure Write where
  containerId : Str
  cpus : List ℤ
  success : Bool

/-- `cpusStr`. -/
def Write.cpusStr (w : Write) : Str := (w.cpus.map (fun cpu => showInt cpu ++ [44])).flatten

/-- One round of the second pass; `single` says that it is the only one. -/
def shareCpus (written : Str → Bool) (single : Bool) (r : State D × List Write) (containerId : Str) :
    Except Fault (State D × List Write) := do
  let (s, writes) := r
  let node := s.containerNuma.value containerId
  let info := s.numaContainers.value node
  if info.containerNum = 0 then throw .divZero
  let num := info.cpus.length / info.containerNum
  let cpus ← (List.range num).mapM (fun i => at' info.cpus (info.usedIndex + i))
  let cpus := cpus.filter (fun cpu => !(single && decide (cpu ∈ s.usedCpus.elems)))
  let writes := writes ++ [⟨containerId, cpus, written containerId⟩]
  if written containerId then
    return ({ s with numaContainers := s.numaContainers.insert node { info with usedIndex := info.usedIndex + num } },
      writes)
  else return (s, writes)

/-- `Run`, which meets the containers in some order. -/
def run (order : List Str) (written : Str → Bool) (s : State D) : Except Fault (State D × List Write) := do
  let s := { s with
    numaContainers := s.numaContainers.mapVal (fun _ info => { info with containerNum := 0, usedIndex := 0 }) }
  let (s, tuneContainerIds) ← (s.containers.reorder order).keys.foldlM countContainer (s, [])
  tuneContainerIds.foldlM (shareCpus written (tuneContainerIds.length = 1)) (s, [])

end
end LoadBasedScheduling
end OeAware

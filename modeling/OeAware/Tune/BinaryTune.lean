import Mathlib.Data.Finset.Card
import Mathlib.Data.List.Sort
import OeAware.Collect.DockerAdapt
import OeAware.Data.Plain
import OeAware.Tune.BinaryElf
import OeAware.Tune.CpuRanges

/-! @src src/plugin/tune/system/binary/binary_tune.cpp | name:BinaryTune | scheme:state-machine

    `Run` looks for the containers that have all CPUs of one node, and in these for the threads whose executable has a
    policy: with 1 a thread is bound to all physical cores of the node, with 2 to as many as its container has. What a
    thread had before is saved in `tuneThreads`, for all nodes in one map, and given back where a node has too little
    left, or by `Disable`.

        containers ──FindSpecialBin──▶ node 0: load, threads   ──▶ bind, save the old masks
                                       node 1: load too high   ──▶ give back all masks
                                       …                                                    -/

namespace OeAware
open Schemes

namespace BinaryTune

/-! ### State -/

/-- `cpu_set_t`. -/
abbrev CpuSet := Finset ℕ

/-- `CPU_SET`, which leaves out what is no CPU of the set's 1024. -/
def CPU_SET (cpu : ℤ) (mask : CpuSet) : CpuSet := if 0 ≤ cpu ∧ cpu < 1024 then insert cpu.toNat mask else mask

/-- An index beyond the end, a division by zero, `std::stoi` throws, or `ParseBinaryElf` leaves its buffers. -/
inductive Fault where
  | badIndex
  | divZero
  | badNumber
  | badRead
  deriving DecidableEq

structure InternalContainer where
  id : Str
  cfsPeriodUs : Int64
  cfsQuotaUs : Int64
  cpus : Str
  tasks : List Int32
  deriving DecidableEq

/-- The members; `tuneThreads` is in `Affinities`. -/
structure State where
  envInit : Bool
  cpu2Numa : List ℤ
  numaNum : ℤ
  cpuCoreNum : ℤ
  cpuNumOnline : ℤ
  containers : List InternalContainer
  threads : UMap Int32 Str
  configBinary : UMap Str Int32
  phyNumaMask : List CpuSet

def init (configBinary : UMap Str Int32) : State where
  envInit := false
  cpu2Numa := []
  numaNum := 1
  cpuCoreNum := 1
  cpuNumOnline := 1
  containers := []
  threads := .empty
  configBinary
  phyNumaMask := []

def vecAt {α : Type} (l : List α) (i : ℤ) : Except Fault α :=
  if 0 ≤ i then
    match l[i.toNat]? with
    | some a => .ok a
    | none => .error .badIndex
  else .error .badIndex

/-! ### `UpdateData` -/

/-- One CPU of the loop. -/
def addCpu (data : EnvStaticInfo) (s : State) (i : ℕ) : Except Fault State := do
  let node ← vecAt data.cpu2Node i
  let node := node.toInt32.toInt
  let s := { s with cpu2Numa := s.cpu2Numa.set i node }
  if i % 2 = 0 then
    let mask ← vecAt s.phyNumaMask node
    return { s with phyNumaMask := s.phyNumaMask.set node.toNat (CPU_SET i mask) }
  else return s

/-- The topic `static`. -/
def updateStatic (data : EnvStaticInfo) (s : State) : Except Fault State :=
  if s.envInit then .ok s
  else do
    let s := { s with
      numaNum := data.numaNum.toInt32.toInt
      cpuCoreNum := data.cpuNumConfig.toInt32.toInt
      cpu2Numa := s.cpu2Numa.takeD (loops data.cpuNumConfig) 0
      phyNumaMask := List.replicate (loops data.numaNum) ∅ }
    let s ← (List.range (loops data.cpuNumConfig)).foldlM (addCpu data) s
    return { s with envInit := true }

def ENV_DATA_READY : UInt32 := 1

/-- The topic `realtime`. -/
def updateRealtime (data : EnvRealTimeInfo) (s : State) : State :=
  if s.envInit then
    { s with cpuNumOnline := if data.dataReady = ENV_DATA_READY then data.cpuNumOnline.toInt32.toInt else s.cpuCoreNum }
  else s

/-- The topic of the docker collector. -/
def updateDocker (data : List DockerAdapt.Entry) (s : State) : State :=
  if s.envInit then
    { s with containers := data.map (fun container =>
      ⟨container.id, container.cfs_period_us, container.cfs_quota_us, container.cpus, container.tasks⟩) }
  else s

/-- The topic of the thread collector. -/
def updateThreads (data : List ThreadInfo) (s : State) : State :=
  if s.envInit then
    { s with threads := data.foldl (fun threads thread => threads.insert thread.tid.toInt32 thread.name) .empty }
  else s

/-! ### Affinities -/

/-- What `sched_setaffinity` makes of a mask, in its `n`-th call for a thread; nothing where it fails. -/
abbrev Outcome := Int32 → ℕ → CpuSet → Option CpuSet

structure Kernel where
  /-- The masks of the threads that are alive. -/
  affinity : Int32 → Option CpuSet
  /-- How often it has been asked to set a thread's mask. -/
  calls : Int32 → ℕ
  /-- What a thread had before its mask was first set. -/
  first : Int32 → Option CpuSet

/-- `sched_setaffinity`, and whether it succeeds. -/
def Kernel.set (outcome : Outcome) (k : Kernel) (tid : Int32) (mask : CpuSet) : Kernel × Bool :=
  match k.affinity tid with
  | none => (k, false)
  | some currentMask =>
    let k := { k with calls := Function.update k.calls tid (k.calls tid + 1) }
    match outcome tid (k.calls tid) mask with
    | none => (k, false)
    | some newMask =>
      ({ k with
        affinity := Function.update k.affinity tid (some newMask)
        first := Function.update k.first tid (some ((k.first tid).getD currentMask)) }, true)

structure Affinities where
  tuneThreads : UMap Int32 CpuSet
  kernel : Kernel

/-- `SetAffinity`. -/
def setAffinity (outcome : Outcome) (newMask : CpuSet) (a : Affinities) (tid : Int32) : Affinities :=
  match a.kernel.affinity tid with
  -- the thread is gone, and both system calls fail
  | none => a
  | some currentMask =>
    if newMask = currentMask then a
    else
      let (kernel, success) := a.kernel.set outcome tid newMask
      ⟨if success then a.tuneThreads.insertNew tid currentMask else a.tuneThreads, kernel⟩

/-- The saved masks are given back. -/
def restore (outcome : Outcome) (a : Affinities) : Affinities where
  tuneThreads := .empty
  kernel := a.tuneThreads.keys.foldl (fun k tid =>
    match a.tuneThreads.find tid with
    | some oldMask => (k.set outcome tid oldMask).1
    | none => k) a.kernel

/-! ### `FindSpecialBin` -/

/-- What a `Run` finds outside. -/
structure Env where
  sys : Sys
  /-- Where `/proc/<tid>/exe` leads. -/
  exe : Int32 → Option Str
  file : Str → Option Str

/-- `cpuCoreNum / numaNum`. -/
def coresPerNuma (s : State) : Except Fault ℤ :=
  if s.numaNum = 0 then .error .divZero else .ok (s.cpuCoreNum.tdiv s.numaNum)

/-- The loop over the CPUs of a container. -/
def allOn (s : State) (initNuma : ℤ) : List ℤ → Except Fault Bool
  | [] => .ok true
  | cpu :: cpus => do
    let node ← vecAt s.cpu2Numa cpu
    if node ≠ initNuma then return false else allOn s initNuma cpus

/-- The node whose CPUs the container has, all of them; `isFullNuma` where there is one. -/
def fullNuma (s : State) (container : InternalContainer) : Except Fault (Option ℤ) := do
  let cpus ← match RealTimeTune.parseRange container.cpus with
    | some cpus => .ok cpus
    | none => .error .badNumber
  let cpu ← vecAt cpus 0
  let initNuma ← vecAt s.cpu2Numa cpu
  let isFullNuma ← allOn s initNuma cpus
  let cores ← coresPerNuma s
  return if isFullNuma ∧ (cpus.length : ℤ) = cores then some initNuma else none

/-- The policy of an executable. -/
def exePolicy (env : Env) (s : State) (filePath : Str) : Except Fault Int32 :=
  match parseBinaryElf env.sys s.configBinary (env.file filePath) filePath with
  | .ok policy => .ok policy
  | .error _ => .error .badRead

/-- The tasks that the loop does not pass over, with the policy of their name. -/
def policies (env : Env) (s : State) : UMap Str Int32 → List Int32 → Except Fault (List (Int32 × Int32))
  | _, [] => .ok []
  | threadPolicy, j :: tasks =>
    match s.threads.find j with
    | none => policies env s threadPolicy tasks
    | some name =>
      match threadPolicy.find name with
      | some policy => do
        let found ← policies env s threadPolicy tasks
        return (j, policy) :: found
      | none =>
        match env.exe j with
        | none => policies env s threadPolicy tasks
        | some filePath => do
          let policy ← exePolicy env s filePath
          let found ← policies env s (threadPolicy.insert name policy) tasks
          return (j, policy) :: found

/-- Those with one of the policies. -/
def withPolicy (ps : List Int32) (found : List (Int32 × Int32)) : List Int32 :=
  (found.filter (fun task => task.2 ∈ ps)).map (fun task => task.1)

/-- The maps that `FindSpecialBin` fills. -/
structure Waiting where
  dockerCpuOnNuma : UMap ℤ Int64
  threadWaitTuneByNuma : UMap ℤ (List Int32)
  threadWaitTuneByCore : UMap ℤ (List (Int32 × List Int32))

/-- `BindAllCores`. -/
def bindAllCores (outcome : Outcome) (s : State) (a : Affinities) (threads : List Int32) : Affinities :=
  threads.foldl (setAffinity outcome ((List.range s.cpuCoreNum.toNat).foldl (fun mask i => CPU_SET i mask) ∅)) a

/-- One container. -/
def addContainer (env : Env) (outcome : Outcome) (s : State) (r : Waiting × Affinities) (container : InternalContainer) :
    Except Fault (Waiting × Affinities) := do
  let (w, a) := r
  let full ← fullNuma s container
  let found ← policies env s .empty container.tasks
  match full with
  | some node =>
    if container.cfsPeriodUs = 0 then throw .divZero
    let cores := container.cfsQuotaUs / container.cfsPeriodUs
    let threadBindCore := withPolicy [2] found
    return ({
      dockerCpuOnNuma := w.dockerCpuOnNuma.insert node ((w.dockerCpuOnNuma.find node).getD 0 + cores)
      threadWaitTuneByNuma := w.threadWaitTuneByNuma.pushAll node (withPolicy [1] found)
      threadWaitTuneByCore :=
        if threadBindCore = [] then w.threadWaitTuneByCore
        else w.threadWaitTuneByCore.push node (cores.toInt32, threadBindCore) }, a)
  | none => return (w, bindAllCores outcome s a (withPolicy [1, 2] found))

/-- `FindSpecialBin`. -/
def findSpecialBin (env : Env) (outcome : Outcome) (s : State) (a : Affinities) : Except Fault (Waiting × Affinities) := do
  let (w, a) ← s.containers.foldlM (addContainer env outcome s) (⟨.empty, .empty, .empty⟩, a)
  let containerThreads := s.containers.flatMap (fun container => container.tasks)
  -- clear dead thread
  let tuneThreads := (a.tuneThreads.keys.filter (fun tid => tid ∉ containerThreads)).foldl
    (fun tuneThreads tid => tuneThreads.erase tid) a.tuneThreads
  return (w, { a with tuneThreads })

/-! ### `Run` -/

/-- The loop over the cores of a node: where it stops, how many are missing, and the mask. -/
def takeCores (endIndex : ℤ) : ℕ → ℤ → CpuSet → ℤ × ℕ × CpuSet
  | 0, coreIndex, newMask => (coreIndex, 0, newMask)
  | bindCoreNum + 1, coreIndex, newMask =>
    if coreIndex < endIndex then takeCores endIndex bindCoreNum (coreIndex + 2) (CPU_SET coreIndex newMask)
    else (coreIndex, bindCoreNum + 1, newMask)

/-- The masks that the loop over the containers of a node gives to their threads. -/
def coreMasks {α : Type} (endIndex : ℤ) : ℤ → List (Int32 × α) → List (α × CpuSet)
  | _, [] => []
  | coreIndex, item :: items =>
    let (coreIndex, missing, newMask) := takeCores endIndex item.1.toInt.toNat coreIndex ∅
    if 0 < missing then coreMasks endIndex coreIndex items else (item.2, newMask) :: coreMasks endIndex coreIndex items

/-- `BindCpuCore`. -/
def bindCpuCore (outcome : Outcome) (s : State) (numaNode : ℤ) (items : List (Int32 × List Int32)) (a : Affinities) :
    Except Fault Affinities := do
  let cores ← coresPerNuma s
  return (coreMasks ((numaNode + 1) * cores) (numaNode * cores) items).foldl
    (fun a bound => bound.1.foldl (setAffinity outcome bound.2) a) a

/-- `BindNuma`. -/
def bindNuma (outcome : Outcome) (s : State) (numaNode : ℤ) (threads : List Int32) (a : Affinities) :
    Except Fault Affinities :=
  if threads = [] then .ok a
  else do
    let mask ← vecAt s.phyNumaMask numaNode
    return threads.foldl (setAffinity outcome mask) a

/-- One node. -/
def tuneNode (outcome : Outcome) (s : State) (w : Waiting) (a : Affinities) (node : ℤ) : Except Fault Affinities := do
  let cores ← coresPerNuma s
  if cores.tdiv 2 < ((w.dockerCpuOnNuma.find node).getD 0).toInt then return restore outcome a
  else
    let a ← bindCpuCore outcome s node ((w.threadWaitTuneByCore.find node).getD []) a
    bindNuma outcome s node ((w.threadWaitTuneByNuma.find node).getD []) a

/-- `Run`; the nodes come in ascending order. -/
def run (env : Env) (outcome : Outcome) (s : State) (a : Affinities) : Except Fault Affinities :=
  if s.cpuNumOnline ≠ s.cpuCoreNum then .ok a
  else do
    let (w, a) ← findSpecialBin env outcome s a
    (w.dockerCpuOnNuma.keys.insertionSort (· ≤ ·)).foldlM (tuneNode outcome s w) a

/-- `Disable`. -/
def disable (outcome : Outcome) (a : Affinities) : Affinities := restore outcome a

end BinaryTune
end OeAware

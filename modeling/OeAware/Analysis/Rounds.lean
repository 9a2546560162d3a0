import Mathlib.Algebra.Order.Field.Rat
import OeAware.Schemes.Ledger
import OeAware.Tune.Matching

/-! @src src/plugin/scenario/analysis/analysis/analysis.cpp, common.cpp, env.cpp | name:Analysis, SystemInfo |
    scheme:ledger

    What the counters and traces show is booked on threads, or on the system as a whole. In each round the threads are
    summed up in their processes and these in the system, what comes of it is traced, and all is cleared. A summary
    adds up the traces.

        cycles, spe ──▶ thread ──┐                        ┌──▶ traceInfo ──▶ summaryInfo
        napi + skb ───▶ thread ──┴──▶ process ──▶ system ─┤
        netif_rx ───────────────────────────────▶ system ─┴──▶ report, cleared

    Cores beyond the table of their nodes, and nodes beyond the matrices, have no result, and neither has a division by
    zero. The shares of cycles and of far accesses are exact. Texts of the reports are left out. -/

namespace OeAware
open Schemes

namespace Analysis

def TUNE_PID_LOW_BOUND : ℤ := 1000
def ACCESS_THRESHOLD : ℕ := 200
def NUMA_SCORE_THRESHOLD : ℚ := 95 / 100
def NET_RX_THRESHOLD : ℕ := 100
def NET_RX_RECEIVE_SAMPLE_PERIOD : ℕ := 10
def NET_REMOTE_RX_THRESHOLD : ℕ := 100
def STEAL_TASK_CYCLES_THRESHOLD : ℚ := 8 / 10
def MS_PER_SEC : ℕ := 1000

/-! ### State -/

structure Env where
  numaNum : ℕ
  cpu2Node : List ℤ
  distance : ℕ → ℕ → ℕ
  sysMaxCycles : ℕ

/-- What is read of a `PmuData`. -/
structure Sample where
  pid : ℤ
  tid : ℤ
  cpu : ℕ
  period : ℕ
  count : ℕ
  event : ℕ
  va : ℕ

/-- Interface, queue, node of the thread and node of the interrupt. -/
abbrev RxKey := Str × ℤ × ℕ × ℕ

/-- The vectors have an entry for each node. -/
structure NetworkInfo where
  netRxSum : ℕ
  remoteRxSum : ℕ
  netRxTimes : ℕ → ℕ
  rxTimes : UMap RxKey ℕ

structure TaskInfo where
  loopCnt : ℕ
  numaScore : ℚ
  cycles : ℕ
  accessSum : ℕ
  accessCost : ℕ
  access : ℕ → ℕ → ℕ
  netInfo : NetworkInfo

def TaskInfo.new : TaskInfo := ⟨0, 0, 0, 0, 0, fun _ _ => 0, ⟨0, 0, fun _ => 0, .empty⟩⟩

/-- Its traces are only appended to a copy. -/
structure Thread where
  cpu : ℕ
  realtimeInfo : TaskInfo

def Thread.new : Thread := ⟨0, .new⟩

/-- The addresses in `pageVa` are those of the samples in `speBuff`. -/
structure Proc where
  threads : UMap ℤ Thread
  speBuff : List Sample
  realtimeInfo : TaskInfo
  summaryInfo : TaskInfo
  traceInfo : List TaskInfo

def Proc.new : Proc := ⟨.empty, [], .new, .new, []⟩

structure SystemInfo where
  procs : UMap ℤ Proc
  realtimeInfo : TaskInfo
  summaryInfo : TaskInfo
  traceInfo : List TaskInfo

/-- Which tunings are suggested; those of interrupts, `gazelle` and `smc_tune` always together. -/
structure Suggested where
  numa : Bool
  net : Bool
  steal : Bool
  deriving DecidableEq

structure Report where
  realtime : Option Suggested
  summary : Option Suggested

structure State where
  sysInfo : SystemInfo
  recNetQueue : List RecNetQueue
  recNetThreads : List RecNetThreads
  loopCnt : ℕ
  cyclsInterval : UMap ℕ ℕ
  report : Report

def init : State := ⟨⟨.empty, .new, .new, []⟩, [], [], 0, .empty, ⟨none, none⟩⟩

variable (env : Env)

/-! ### Samples -/

def isValidPmu (data : Sample) : Bool := TUNE_PID_LOW_BOUND < data.pid && TUNE_PID_LOW_BOUND < data.tid

def isValidSpe (data : Sample) : Bool := isValidPmu data && decide (data.event &&& 512 ≠ 0)

/-- `cpu2Node[cpu]`, where it is the index of a node. -/
def nodeOf (cpu : ℕ) : Option ℕ :=
  (env.cpu2Node[cpu]?).bind (fun node => if 0 ≤ node ∧ node < env.numaNum then some node.toNat else none)

/-- `procs[pid]` is made different. -/
def SystemInfo.modify (s : SystemInfo) (pid : ℤ) (f : Proc → Proc) : SystemInfo :=
  { s with procs := s.procs.insert pid (f ((s.procs.find pid).getD .new)) }

/-- `procs[pid].threads[tid].realtimeInfo` is made different. -/
def SystemInfo.modifyThread (s : SystemInfo) (pid tid : ℤ) (f : TaskInfo → TaskInfo) : SystemInfo :=
  s.modify pid (fun proc =>
    let thread := (proc.threads.find tid).getD .new
    { proc with threads := proc.threads.insert tid { thread with realtimeInfo := f thread.realtimeInfo } })

def TaskInfo.addCycles (n : ℕ) (t : TaskInfo) : TaskInfo := { t with cycles := t.cycles + n }

def TaskInfo.addOneAccess (i j : ℕ) (t : TaskInfo) : TaskInfo :=
  { t with access := fun i' j' => t.access i' j' + if i' = i ∧ j' = j then 1 else 0 }

def TaskInfo.addOneRx (key : RxKey) (t : TaskInfo) : TaskInfo :=
  { t with netInfo := { t.netInfo with rxTimes := t.netInfo.rxTimes.credit key 1 } }

/-- One round of `UpdateSpe`. -/
def bufferSpe (s : SystemInfo) (data : Sample) : SystemInfo :=
  s.modify data.pid (fun proc =>
    let thread := (proc.threads.find data.tid).getD .new
    { proc with
      speBuff := proc.speBuff ++ [data]
      threads := proc.threads.insert data.tid { thread with cpu := data.cpu } })

def updateSpe (data : List Sample) (s : SystemInfo) : SystemInfo := (data.filter isValidSpe).foldl bufferSpe s

/-- What `move_pages` says: whether it succeeds for a process, and on which node a page of it is; a negative number where
    it is on none. -/
structure Pages where
  moved : ℤ → Bool
  node : ℤ → ℕ → ℤ

/-- One round of the inner loop of `UpdateAccess`. -/
def countAccess (pages : Pages) (pid : ℤ) (s : SystemInfo) (data : Sample) : Option SystemInfo :=
  let node := pages.node pid data.va
  if node < 0 then some s
  else do
    let cpuNode ← nodeOf env data.cpu
    if env.numaNum ≤ node then none
    else some (s.modifyThread pid data.tid (.addOneAccess cpuNode node.toNat))

def clearBuffers (s : SystemInfo) : SystemInfo :=
  { s with procs := s.procs.mapVal (fun _ proc => { proc with speBuff := [] }) }

/-- `UpdateAccess`; the buffers are cleared at the end of it all, which makes no difference. -/
def updateAccess (pages : Pages) (s : SystemInfo) : Option SystemInfo :=
  (s.procs.keys.foldlM (fun s' pid =>
    if pages.moved pid then (((s.procs.find pid).getD .new).speBuff).foldlM (countAccess env pages pid) s'
    else some s') s).map clearBuffers

def updateCyclesSample (data : List Sample) (interval : ℕ) (s : State) : State :=
  { s with
    cyclsInterval := s.cyclsInterval.credit s.loopCnt interval
    sysInfo := (data.filter isValidPmu).foldl
      (fun sys d => sys.modifyThread d.pid d.tid (.addCycles d.period)) s.sysInfo }

def NetworkInfo.addRx (node n : ℕ) (info : NetworkInfo) : NetworkInfo :=
  { info with
    netRxTimes := fun node' => info.netRxTimes node' + if node' = node then n else 0
    netRxSum := info.netRxSum + n }

def updateNetRx (data : List Sample) (s : SystemInfo) : Option SystemInfo :=
  data.foldlM (fun s d => do
    let node ← nodeOf env d.cpu
    return { s with realtimeInfo := { s.realtimeInfo with netInfo := s.realtimeInfo.netInfo.addRx node d.count } }) s

/-- `uint8_t node = cpu2Node[core]`. -/
def byteNode (core : UInt32) : Option ℕ := (env.cpu2Node[core.toNat]?).map (fun node => (node % 256).toNat)

/-- The entry of `rxTimes` that `UpdateRemoteNetInfo` counts up. -/
def rxKey (queData : RecNetQueue) (threadData : RecNetThreads) : Option RxKey := do
  let threadsNode ← byteNode env threadData.core
  let irqNode ← byteNode env queData.core
  return (queData.dev, Int.bmod queData.queueMapping.toNat (2 ^ 32), threadsNode, irqNode)

def updateRemoteNetInfo (s : SystemInfo) (p : RecNetQueue × RecNetThreads) : Option SystemInfo :=
  (rxKey env p.1 p.2).map (fun key => s.modifyThread p.2.pid.toInt p.2.tid.toInt (.addOneRx key))

/-- The matched pairs of the events. -/
def matchedPairs (recNetQueue : List RecNetQueue) (recNetThreads : List RecNetThreads) :
    List (RecNetQueue × RecNetThreads) :=
  (recNetQueue.zip (updateRecNetQueue recNetQueue recNetThreads)).filterMap (fun p => p.2.map (fun thr => (p.1, thr)))

/-! ### Sums -/

def maxDistance : ℕ :=
  ((List.range env.numaNum).flatMap (fun i => (List.range env.numaNum).map (env.distance i))).foldl max 0

def diffDistance : ℤ := maxDistance env - env.distance 0 0

/-- The sum over a matrix. -/
def overNodes (f : ℕ → ℕ → ℕ) : ℕ :=
  ((List.range env.numaNum).flatMap (fun i => (List.range env.numaNum).map (f i))).sum

def scoreOf (accessSum accessCost : ℕ) : ℚ :=
  if accessSum = 0 then 0
  else ((accessSum * maxDistance env : ℕ) - (accessCost : ℚ)) / (accessSum * diffDistance env)

def TaskInfo.calculateNumaScore (t : TaskInfo) : TaskInfo :=
  let accessCost := overNodes env (fun i j => t.access i j * env.distance i j)
  let accessSum := overNodes env t.access
  { t with accessCost, accessSum, numaScore := scoreOf env accessSum accessCost }

/-- What `SummaryThreads` adds to a process, and `SummaryProcs` to the system. -/
def TaskInfo.addTask (t other : TaskInfo) : TaskInfo :=
  { t with
    access := fun i j => t.access i j + other.access i j
    cycles := t.cycles + other.cycles }

def Proc.summaryThreads (proc : Proc) : Proc :=
  { proc with
    realtimeInfo := proc.threads.values.foldl (fun t thread => t.addTask thread.realtimeInfo) proc.realtimeInfo }

def SystemInfo.summaryProcs (s : SystemInfo) : SystemInfo :=
  let procs := s.procs.mapVal (fun _ proc => proc.summaryThreads)
  { s with
    procs
    realtimeInfo := procs.values.foldl (fun t proc => t.addTask proc.realtimeInfo) s.realtimeInfo }

def SystemInfo.calculateNumaScore (s : SystemInfo) : SystemInfo :=
  { s with
    procs := s.procs.mapVal (fun _ proc =>
      { proc with
        threads := proc.threads.mapVal (fun _ thread =>
          { thread with realtimeInfo := thread.realtimeInfo.calculateNumaScore env })
        realtimeInfo := proc.realtimeInfo.calculateNumaScore env })
    realtimeInfo := s.realtimeInfo.calculateNumaScore env }

def TaskInfo.addRxTimes (t : TaskInfo) (value : UMap RxKey ℕ) : TaskInfo :=
  { t with netInfo := { t.netInfo with rxTimes := t.netInfo.rxTimes.creditAll value } }

def TaskInfo.sumRemoteRxTimes (t : TaskInfo) : TaskInfo :=
  { t with netInfo := { t.netInfo with remoteRxSum := t.netInfo.rxTimes.total } }

/-- One round of `SummaryProcsNetInfo`. -/
def Proc.summaryNetInfo (proc : Proc) : Proc :=
  { proc with
    threads := proc.threads.mapVal (fun _ thread =>
      { thread with realtimeInfo := thread.realtimeInfo.sumRemoteRxTimes })
    realtimeInfo := (proc.threads.values.foldl
      (fun t thread => t.addRxTimes thread.realtimeInfo.netInfo.rxTimes) proc.realtimeInfo).sumRemoteRxTimes }

def SystemInfo.summaryProcsNetInfo (s : SystemInfo) : SystemInfo :=
  let procs := s.procs.mapVal (fun _ proc => proc.summaryNetInfo)
  { s with
    procs
    realtimeInfo := (procs.values.foldl
      (fun t proc => t.addRxTimes proc.realtimeInfo.netInfo.rxTimes) s.realtimeInfo).sumRemoteRxTimes }

def TaskInfo.setLoopCnt (loopCnt : ℕ) (t : TaskInfo) : TaskInfo := { t with loopCnt }

def SystemInfo.setLoopCnt (loopCnt : ℕ) (s : SystemInfo) : SystemInfo :=
  { s with
    procs := s.procs.mapVal (fun _ proc =>
      { proc with
        threads := proc.threads.mapVal (fun _ thread =>
          { thread with realtimeInfo := thread.realtimeInfo.setLoopCnt loopCnt })
        realtimeInfo := proc.realtimeInfo.setLoopCnt loopCnt })
    realtimeInfo := s.realtimeInfo.setLoopCnt loopCnt }

def SystemInfo.appendTraceInfo (s : SystemInfo) : SystemInfo :=
  { s with
    procs := s.procs.mapVal (fun _ proc => { proc with traceInfo := proc.traceInfo ++ [proc.realtimeInfo] })
    traceInfo := s.traceInfo ++ [s.realtimeInfo] }

/-- What the loop of `TraceInfoSummary` adds. -/
def TaskInfo.addTrace (summary info : TaskInfo) : TaskInfo :=
  { summary with
    access := fun i j => summary.access i j + info.access i j
    cycles := summary.cycles + info.cycles
    netInfo :=
      { summary.netInfo with
        netRxTimes := fun i => summary.netInfo.netRxTimes i + info.netInfo.netRxTimes i
        netRxSum := summary.netInfo.netRxSum + info.netInfo.netRxSum
        rxTimes := summary.netInfo.rxTimes.creditAll info.netInfo.rxTimes } }

def traceInfoSummary (infos : List TaskInfo) (summary : TaskInfo) (first last : ℕ) : TaskInfo :=
  let added := (infos.filter (fun info => first ≤ info.loopCnt ∧ info.loopCnt ≤ last)).foldl .addTrace summary
  ((added.setLoopCnt (if first ≤ last then last - first + 1 else 0)).calculateNumaScore env).sumRemoteRxTimes

def SystemInfo.traceInfoSummary (s : SystemInfo) (first last : ℕ) : SystemInfo :=
  { s with
    procs := s.procs.mapVal (fun _ proc =>
      { proc with summaryInfo := Analysis.traceInfoSummary env proc.traceInfo proc.summaryInfo first last })
    summaryInfo := Analysis.traceInfoSummary env s.traceInfo s.summaryInfo first last }

def TaskInfo.clearData (t : TaskInfo) : TaskInfo := { TaskInfo.new with loopCnt := t.loopCnt }

def SystemInfo.clearRealtimeInfo (s : SystemInfo) : SystemInfo :=
  { s with
    procs := s.procs.mapVal (fun _ proc =>
      { proc with
        threads := proc.threads.mapVal (fun _ thread => { thread with realtimeInfo := thread.realtimeInfo.clearData })
        realtimeInfo := proc.realtimeInfo.clearData })
    realtimeInfo := s.realtimeInfo.clearData }

/-! ### Suggestions -/

def numaTuneSuggest (t : TaskInfo) (isSummary : Bool) : Bool :=
  if env.numaNum ≤ 1 then false
  else if isSummary ∧ t.loopCnt = 0 then false
  else
    let accessSum := if isSummary then (t.accessSum + t.loopCnt - 1) / t.loopCnt else t.accessSum
    if accessSum < ACCESS_THRESHOLD then false
    else if NUMA_SCORE_THRESHOLD < t.numaScore then false
    else true

/-- `ceil(n * 1.0 / loopCnt)`. -/
def perLoop (n loopCnt : ℕ) : Option ℕ := if loopCnt = 0 then none else some ((n + loopCnt - 1) / loopCnt)

def netTuneSuggest (loopCnt : ℕ) (t : TaskInfo) (isSummary : Bool) : Option Bool :=
  if isSummary ∧ t.loopCnt = 0 then some false
  else do
    let times ← if isSummary then perLoop t.netInfo.netRxSum loopCnt else some t.netInfo.netRxSum
    let remoteRxtimes ← if isSummary then perLoop (t.netInfo.remoteRxSum * NET_RX_RECEIVE_SAMPLE_PERIOD) loopCnt
      else some t.netInfo.remoteRxSum
    return decide (NET_RX_THRESHOLD < times) || decide (NET_REMOTE_RX_THRESHOLD < remoteRxtimes)

def stealTaskTuneSuggest (loopCnt : ℕ) (cyclsInterval : UMap ℕ ℕ) (t : TaskInfo) (isSummary : Bool) : Option Bool :=
  if isSummary ∧ t.loopCnt = 0 then some false
  else
    -- the interval of this round is there twice in a summary
    let interval := cyclsInterval.value loopCnt + if isSummary then cyclsInterval.total else 0
    if interval = 0 then none
    else
      let sysCyclesPerLoop := t.cycles / interval * MS_PER_SEC
      let cpuRatio : ℚ := if env.sysMaxCycles = 0 then 0 else (sysCyclesPerLoop : ℚ) / env.sysMaxCycles
      some (decide (STEAL_TASK_CYCLES_THRESHOLD < cpuRatio))

def suggest (loopCnt : ℕ) (cyclsInterval : UMap ℕ ℕ) (t : TaskInfo) (isSummary : Bool) : Option Suggested := do
  let net ← netTuneSuggest loopCnt t isSummary
  let steal ← stealTaskTuneSuggest env loopCnt cyclsInterval t isSummary
  return ⟨numaTuneSuggest env t isSummary, net, steal⟩

/-! ### Rounds -/

/-- What `Analyze` does before it traces. -/
def SystemInfo.sumUp (loopCnt : ℕ) (s : SystemInfo) : SystemInfo :=
  ((s.summaryProcs.calculateNumaScore env).summaryProcsNetInfo).setLoopCnt loopCnt

def analyze (isSummary : Bool) (s : State) : Option State := do
  let sysInfo ← (matchedPairs s.recNetQueue s.recNetThreads).foldlM (updateRemoteNetInfo env) s.sysInfo
  let sysInfo := (sysInfo.sumUp env s.loopCnt).appendTraceInfo
  let realtime ← suggest env s.loopCnt s.cyclsInterval sysInfo.realtimeInfo false
  let sysInfo := if isSummary then sysInfo.traceInfoSummary env 0 s.loopCnt else sysInfo
  let summary ← if isSummary then (suggest env s.loopCnt s.cyclsInterval sysInfo.summaryInfo true).map some
    else some none
  return { s with
    sysInfo := sysInfo.clearRealtimeInfo
    recNetQueue := []
    recNetThreads := []
    loopCnt := s.loopCnt + 1
    report := ⟨some realtime, summary⟩ }

/-- The topics of `UpdatePmu`, and `Analyze`. -/
inductive Act where
  | spe (data : List Sample) (pages : Pages)
  | netRx (data : List Sample)
  | napi (queues : List RecNetQueue)
  | skb (threads : List RecNetThreads)
  | cycles (data : List Sample) (interval : ℕ)
  | analyze (isSummary : Bool)

def step (s : State) : Act → Option State
  | .spe data pages =>
    if data = [] then some s
    else (updateAccess env pages (updateSpe data s.sysInfo)).map (fun sysInfo => { s with sysInfo })
  | .netRx data => (updateNetRx env data s.sysInfo).map (fun sysInfo => { s with sysInfo })
  | .napi queues => some { s with recNetQueue := s.recNetQueue ++ queues }
  | .skb threads => some { s with recNetThreads := s.recNetThreads ++ threads }
  | .cycles data interval => if data = [] then some s else some (updateCyclesSample data interval s)
  | .analyze isSummary => analyze env isSummary s

def run (acts : List Act) : Option State := acts.foldlM (step env) init

end Analysis
end OeAware

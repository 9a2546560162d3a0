import Mathlib.Data.UInt
import OeAware.Analysis.Tables

/-! @src src/plugin/scenario/analysis/numa_analysis/numa_analysis.cpp, xcall/xcall_analysis.cpp,
    net_hirq/net_hirq_analysis.cpp, smc_d_scenario/smc_d_analysis.cpp |
    name:NumaAnalysis, XcallAnalysis, NetHirqAnalysis, SmcDAnalysis | scheme:isolation

    The instances that keep some of what they know in members of their own: the analysis time and the
    counters of `numa`, the threshold of `xcall`, the traces of `net_hirq`, and everything of `smc_d`.
    These members are shared by all topics and by all sessions of a topic. -/

namespace OeAware
open Schemes

variable {D : Type} [Double D]

/-! ### NUMA -/

structure NumaStatus where
  isOpen : Bool
  isPublish : Bool

/-- What `UpdateData` gets, by its topic. -/
inductive NumaData where
  | counting (topicName : Str) (counts : List UInt64) (interval : UInt64)
  | uncore (counts : List UInt64)
  | other

namespace NumaAnalysis

def DEFAULT_TIME_WINDOW_MS : Int32 := 100
def MAX_THREAD_THRESHOLD : ℤ := 10000
def NUMA_OPS_THRESHOLD_PER_SEC : D := Double.ofInt 2000000
def NUMA_REMOTE_ACCESS_RATIO_THRESHOLD : D := Double.ofInt 5

structure State (D : Type) where
  subTopics : List Topic
  topicStatus : UMap Str NumaStatus
  schedFeatues : List Str
  time : Int32
  beginTime : ℤ
  threadCreatedCount : Int32
  threadDestroyedCount : Int32
  timeWindowMs : Int32
  threadThreshold : Int32
  isNumaBottleneck : Bool
  totalOpsNum : UInt64
  totalRxOuter : UInt64
  totalRxSccl : UInt64
  remoteAccessRatio : D

def init : State D := ⟨[], .empty, [], 10, 0, 0, 0, 100, 200, false, 0, 0, 0, Double.ofInt 0⟩

def status (s : State D) (type : Str) : NumaStatus := (s.topicStatus.find type).getD ⟨false, false⟩

/-- What is read when a topic is opened: the clock, and the kernel's scheduling features. -/
structure Env where
  now : ℤ
  features : List Str

/-- `paramsMap["t"]`, or what the member holds. -/
def timeParam (params : Str) (old : Int32) : Int32 :=
  ((param params (str "t")).map (fun t => Int32.ofInt (atoi t))).getD old

/-- `paramsMap["threshold"]`, or what the member holds; `none` where it is out of range. -/
def thresholdParam (params : Str) (old : Int32) : Option Int32 :=
  match param params (str "threshold") with
  | none => some old
  | some t => if 1 ≤ atoi t ∧ atoi t ≤ MAX_THREAD_THRESHOLD then some (Int32.ofInt (atoi t)) else none

def collectors : List Topic :=
  [⟨str "pmu_counting_collector", str "sched:sched_process_fork", []⟩,
    ⟨str "pmu_counting_collector", str "sched:sched_process_exit", []⟩,
    ⟨str "pmu_uncore_collector", str "uncore", []⟩]

def openTopic (topic : Topic) (env : Env) (s : State D) :
    State D × Result × List (Effect AnalysisResultItem) :=
  if topic.topicName ≠ str "numa_analysis" then (s, notSupport topic, [])
  else
    let s := { s with time := timeParam topic.params s.time }
    match thresholdParam topic.params s.threadThreshold with
    | none =>
      (s, failure (str "topic" ++ topic.getType ++ str " open failed! Invalid threshold value!"), [])
    | some threadThreshold =>
      let status := { status s topic.getType with isOpen := true }
      let subTopics := s.subTopics ++ collectors
      ({ s with
          threadThreshold
          topicStatus := s.topicStatus.insert topic.getType status
          beginTime := env.now
          subTopics
          schedFeatues := s.schedFeatues ++ env.features },
        resultOk, subTopics.map .subscribe)

def closeTopic (topic : Topic) (s : State D) : State D × List (Effect AnalysisResultItem) :=
  ({ s with
      topicStatus := s.topicStatus.insert topic.getType ⟨false, false⟩
      subTopics := [] },
    s.subTopics.map .unsubscribe)

def disable (s : State D) : State D × List (Effect AnalysisResultItem) := (s, [.free])

/-- `static_cast<double>(count) * MS_PER_SEC / timeWindowMs`. -/
def perSecond (count : D) (timeWindowMs : Int32) : D :=
  if timeWindowMs ≤ 0 then Double.ofInt 0
  else Double.div (Double.mul count (Double.ofInt 1000)) (Double.ofInt timeWindowMs.toInt)

/-- `CheckNumaBottleneck`, and the remote access ratio that it leaves. -/
def checkNumaBottleneck (s : State D) : Bool × D :=
  let ratio : D := percent (Double.div (Double.ofInt (s.totalRxOuter + s.totalRxSccl).toNat)
    (Double.ofInt s.totalOpsNum.toNat))
  if Double.le (perSecond (Double.ofInt s.totalOpsNum.toNat) s.timeWindowMs)
      (NUMA_OPS_THRESHOLD_PER_SEC : D) then (false, s.remoteAccessRatio)
  else if s.totalOpsNum > 0 then (Double.lt NUMA_REMOTE_ACCESS_RATIO_THRESHOLD ratio, ratio)
  else (false, s.remoteAccessRatio)

/-- `count += pmuData[i].count`, an `int`. -/
def countInt (count : Int32) (counts : List UInt64) : Int32 :=
  counts.foldl (fun n c => n + c.toUInt32.toInt32) count

def updateData (data : NumaData) (s : State D) : State D :=
  match data with
  | .counting topicName counts interval =>
    if topicName = str "sched:sched_process_fork" ∧ counts ≠ [] then
      { s with
        threadCreatedCount := countInt s.threadCreatedCount counts
        timeWindowMs := interval.toUInt32.toInt32 }
    else if topicName = str "sched:sched_process_exit" ∧ counts ≠ [] then
      { s with
        threadDestroyedCount := countInt s.threadDestroyedCount counts
        timeWindowMs := interval.toUInt32.toInt32 }
    else s
  | .uncore counts =>
    -- a third each is `rx_outer`, `rx_sccl` and `rx_ops_num`
    let hhaNum := counts.length / 3
    let s := { s with
      totalRxOuter := (counts.take hhaNum).sum
      totalRxSccl := ((counts.drop hhaNum).take hhaNum).sum
      totalOpsNum := ((counts.drop (2 * hhaNum)).take hhaNum).sum }
    if hhaNum = 0 then s
    else { s with
      isNumaBottleneck := (checkNumaBottleneck s).1
      remoteAccessRatio := (checkNumaBottleneck s).2 }
  | .other => s

def isSupportNumaSchedParal (features : List Str) : Bool :=
  features.any (fun feature => feature = str "PARAL" ∨ feature = str "NO_PARAL")

/-- What a report is made of. -/
structure Shown (D : Type) where
  opsNumPerSecond : D
  threadCreatedPerSecond : D
  threadThreshold : Int32
  /-- The remote access ratio, if there is a bottleneck. -/
  bottleneck : Option D
  paral : Bool

def shown (s : State D) : Shown D where
  opsNumPerSecond := perSecond (Double.ofInt s.totalOpsNum.toNat) s.timeWindowMs
  threadCreatedPerSecond := perSecond (Double.ofInt s.threadCreatedCount.toInt) s.timeWindowMs
  threadThreshold := s.threadThreshold
  bottleneck := if s.isNumaBottleneck then some s.remoteAccessRatio else none
  paral := isSupportNumaSchedParal s.schedFeatues

/-- `Analysis`: `CalculateAndAddMetrics` and `GenerateConclusion`. -/
def analysis (d : Shown D) : AnalysisResultItem :=
  let manyThreads := Double.lt (Double.ofInt d.threadThreshold.toInt) d.threadCreatedPerSecond
  let metrics : List Metric :=
    [⟨DATA_TYPE_CPU, str "uncore_ops_num_per_second", Double.toStr d.opsNumPerSecond,
      if Double.lt (NUMA_OPS_THRESHOLD_PER_SEC : D) d.opsNumPerSecond then str "high mem access"
      else str "low mem access"⟩] ++
    d.bottleneck.toList.map (fun ratio => ⟨DATA_TYPE_CPU, str "remote_access_ratio", percentStr ratio,
      if Double.lt (NUMA_REMOTE_ACCESS_RATIO_THRESHOLD : D) ratio then str "high remote mem access"
      else str "low remote mem access"⟩) ++
    [⟨DATA_TYPE_CPU, str "thread_created_per_second", Double.toStr d.threadCreatedPerSecond,
      if manyThreads then str "high thread creation" else str "low thread creation"⟩]
  if d.bottleneck.isSome then
    if manyThreads then
      if d.paral then
        createAnalysisResultItem metrics
          (str ("NUMA access bottleneck with high thread creation detected. Enable NUMA native " ++
            "scheduling recommended."))
          (some ⟨str "Enable NUMA native scheduling", str "oeawarectl -e numa_sched",
            str "Reduces cross-NUMA access for applications with frequent thread creation"⟩)
      else
        createAnalysisResultItem metrics
          (str ("NUMA access bottleneck with high thread creation detected, but numa parallel " ++
            "schedule not support.")) none
    else
      createAnalysisResultItem metrics
        (str "NUMA access bottleneck detected. Enable NUMA Fast scheduling recommended.")
        (some ⟨str "Use numafast",
          str ("step 1: if  `oeawarectl -q | grep tune_numa_mem_access` not exist, install " ++
            "numafast\ninstall : `oeawarectl -i numafast`\nload :    `oeawarectl -l " ++
            "libtune_numa.so`\nstep 2: enable instance `oeaware -e tune_numa_mem_access`\n"),
          str "Optimizes memory access locality with low scheduling overhead"⟩)
  else
    createAnalysisResultItem metrics
      (str "NUMA is not a performance bottleneck. No NUMA-related optimization needed.") none

def reset (s : State D) : State D :=
  { s with
    threadCreatedCount := 0
    threadDestroyedCount := 0
    timeWindowMs := DEFAULT_TIME_WINDOW_MS
    totalOpsNum := 0
    totalRxOuter := 0
    totalRxSccl := 0
    remoteAccessRatio := Double.ofInt 0
    isNumaBottleneck := false }

/-- The topic is to be reported now. -/
def due (now : ℤ) (s : State D) (status : NumaStatus) : Bool :=
  status.isOpen ∧ ¬ status.isPublish ∧ elapsed now s.beginTime ≥ s.time

/-- The body of the loop in `Run`. -/
def runTopic (now : ℤ) (type : Str) (s : State D) : State D × List (Effect AnalysisResultItem) :=
  if due now s (status s type) then
    ({ reset s with topicStatus := s.topicStatus.insert type { status s type with isPublish := true } },
      [.write (analysis (shown s)), .publish (publishTopic type)])
  else (s, [])

def runTopics (now : ℤ) : List Str → State D → State D × List (Effect AnalysisResultItem)
  | [], s => (s, [])
  | type :: types, s =>
    let r := runTopic now type s
    let r' := runTopics now types r.1
    (r'.1, r.2 ++ r'.2)

def run (env : Env) (s : State D) : State D × List (Effect AnalysisResultItem) :=
  runTopics env.now s.topicStatus.keys s

end NumaAnalysis

/-- `NumaAnalysis`. -/
@[reducible] def numaAnalysis (D : Type) [Double D] : AnalysisInstance where
  State := NumaAnalysis.State D
  Env := NumaAnalysis.Env
  Data := NumaData
  name := str "numa_analysis"
  init := NumaAnalysis.init
  openTopic := NumaAnalysis.openTopic
  closeTopic := NumaAnalysis.closeTopic
  updateData := NumaAnalysis.updateData
  disable := NumaAnalysis.disable
  run := NumaAnalysis.run

/-! ### xcall -/

structure XcallUsage (D : Type) where
  cnt : Int32
  cpuSys : D

/-- What `UpdateData` gets, by its instance. -/
inductive XcallData where
  | envInfo (data : EnvCpuUtilParam)
  | other

namespace XcallAnalysis

structure State (D : Type) where
  topicStatus : UMap Str (TopicStatus (XcallUsage D))
  threshold : D

/-- A new `XcallTopic`. -/
def fresh : TopicStatus (XcallUsage D) := .new ⟨0, Double.ofInt 0⟩

def THRESHOLD : D := Double.ofInt 5

def init : State D := ⟨.empty, THRESHOLD⟩

def openTopic (topic : Topic) (now : ℤ) (s : State D) :
    State D × Result × List (Effect AnalysisResultItem) :=
  if topic.topicName ≠ str "xcall" then (s, notSupport topic, [])
  else
    let time := ((param topic.params (str "t")).map (fun t => Int32.ofInt (atoi t))).getD 0
    let status := { (s.topicStatus.find topic.getType).getD fresh with
      isOpen := true, time, beginTime := now, isPublish := false }
    ({ s with
        threshold := doubleParam topic.params (str "threshold") s.threshold
        topicStatus := s.topicStatus.insert topic.getType status },
      resultOk, [])

def closeTopic (topic : Topic) (s : State D) : State D × List (Effect AnalysisResultItem) :=
  ({ s with topicStatus := s.topicStatus.erase topic.getType }, [])

/-- The collectors that `Enable` subscribes to. -/
def subscribeTopics : List Topic :=
  [⟨str "env_info_collector", str "cpu_util", []⟩, ⟨str "thread_collector", str "thread_collector", []⟩]

def disable (s : State D) : State D × List (Effect AnalysisResultItem) :=
  (s, .free :: subscribeTopics.map .unsubscribe)

/-- What `UpdateData` makes of an open topic. -/
def update (data : XcallData) (own : XcallUsage D) : XcallUsage D :=
  match data with
  | .envInfo data =>
    let cpuSystemUsage := Double.div (Double.ofInt (data.total CPU_SYSTEM).toNat)
      (Double.ofInt (data.total CPU_TIME_SUM).toNat)
    ⟨own.cnt + 1, Double.add own.cpuSys cpuSystemUsage⟩
  | .other => own

def updateData (data : XcallData) (s : State D) : State D :=
  { s with topicStatus := s.topicStatus.mapVal (fun _ status =>
      if status.isOpen then { status with own := update data status.own } else status) }

def analysis (threshold : D) (own : XcallUsage D) : AnalysisResultItem :=
  let cpu : D := percent (Double.div own.cpuSys (Double.ofInt own.cnt.toInt))
  let metrics : List Metric := [⟨DATA_TYPE_CPU, str "kernel_cpu_usage", percentStr cpu,
    if Double.lt threshold cpu then str "high for xcall tune" else str "low for dynamic xcall tune"⟩]
  if Double.lt threshold cpu then
    createAnalysisResultItem metrics
      (str "For xcall_tune, the cpu_sys_usage is high. Please enable xcall_tune")
      (some ⟨str "use xcall", str "oeawarectl -e xcall_tune",
        str "activate idle physical cores during low system loads to improveperformance"⟩)
  else createAnalysisResultItem metrics [] none

/-- `t.count() >= xcallTopic.time * milliseconds`. -/
def due (now : ℤ) (status : TopicStatus (XcallUsage D)) : Bool :=
  ¬ status.isPublish ∧ (now - status.beginTime).tdiv 1000000 ≥ (status.time * 1000).toInt

def report (threshold : D) (now : ℤ) (type : Str) (status : TopicStatus (XcallUsage D)) :
    List (Effect AnalysisResultItem) :=
  if due now status then [.write (analysis threshold status.own), .publish (publishTopic type)] else []

def run (now : ℤ) (s : State D) : State D × List (Effect AnalysisResultItem) :=
  ({ s with topicStatus := s.topicStatus.mapVal (fun _ status =>
      if due now status then status.reported else status) },
    s.topicStatus.keys.flatMap
      (fun type => (s.topicStatus.find type).elim [] (report s.threshold now type)))

end XcallAnalysis

/-- `XcallAnalysis`. -/
@[reducible] def xcallAnalysis (D : Type) [Double D] : AnalysisInstance where
  State := XcallAnalysis.State D
  Env := ℤ
  Data := XcallData
  name := str "xcall_analysis"
  init := XcallAnalysis.init
  openTopic := XcallAnalysis.openTopic
  closeTopic := XcallAnalysis.closeTopic
  updateData := XcallAnalysis.updateData
  disable := XcallAnalysis.disable
  run := XcallAnalysis.run

/-! ### Hard interrupts -/

/-- `F` is `float`. -/
structure NetRx (F : Type) where
  interval : UInt64
  rxSum : UInt64
  rxAvg : F

structure AnalysisRst (F : Type) where
  dev : Str
  shouldTune : Bool
  peak : F
  average : F
  isSupportMultiPath : Bool

/-- The constructor's one entry of `topicCtl`. -/
structure TopicCtl where
  openParams : Str
  isOpen : Bool
  analysisTime : Int32
  hasPublished : Bool
  beginTime : ℤ

/-- Samples of `net:napi_gro_receive_entry`, each with the name of its device if it resolves. -/
structure NapiData where
  devices : List (Option Str)
  interval : UInt64

namespace NetHirqAnalysis
variable {F : Type} [Double F]

def SHOW_DEV_MAX_NUM : ℕ := 3
def HIRQ_TUNE_PEAK_THRESHOLD : F := Double.ofInt 1000
def OE_NET_HIRQ_ANALYSIS : Str := str "net_hirq_analysis"

structure State (F : Type) where
  topicCtl : TopicCtl
  netRxSum : UMap Str (NetRx F)
  netRxSumTrace : UMap Str (List (NetRx F))
  result : UMap Str (AnalysisRst F)

def init : State F := ⟨⟨[], false, 0, false, 0⟩, .empty, .empty, .empty⟩

/-- The clock, and what `DevIsSupportMultiPath` finds out. -/
structure Env where
  now : ℤ
  devIsSupportMultiPath : Str → Bool

def openTopic (topic : Topic) (env : Env) (s : State F) :
    State F × Result × List (Effect AnalysisResultItem) :=
  if topic.topicName ≠ OE_NET_HIRQ_ANALYSIS then (s, failure (str "topic not register"), [])
  else if s.topicCtl.isOpen then (s, failure (str "topic already opened"), [])
  else
    let analysisTime := ((param topic.params (str "t")).map (fun t => Int32.ofInt (atoi t))).getD
      s.topicCtl.analysisTime
    ({ s with topicCtl := { s.topicCtl with
        analysisTime, beginTime := env.now, isOpen := true, openParams := topic.params } }, resultOk, [])

def closeTopic (topic : Topic) (s : State F) : State F × List (Effect AnalysisResultItem) :=
  if topic.topicName ≠ OE_NET_HIRQ_ANALYSIS ∨ ¬ s.topicCtl.isOpen then (s, [])
  else
    ({ s with topicCtl := { s.topicCtl with
        isOpen := false, analysisTime := 0, openParams := [], hasPublished := false } }, [])

/-- The collectors that `Enable` subscribes to. -/
def subscribeTopics : List Topic :=
  [⟨str "pmu_sampling_collector", str "net:napi_gro_receive_entry", []⟩]

def disable (s : State F) : State F × List (Effect AnalysisResultItem) :=
  (s, .free :: subscribeTopics.map .unsubscribe)

/-- `netRxSum[dev].rxSum += 10`. -/
def count (netRxSum : UMap Str (NetRx F)) (dev : Str) : UMap Str (NetRx F) :=
  let old := (netRxSum.find dev).getD ⟨0, 0, Double.ofInt 0⟩
  netRxSum.insert dev { old with rxSum := old.rxSum + 10 }

/-- For data of another topic there is nothing to do (`none`). -/
def updateData (data : Option NapiData) (s : State F) : State F :=
  match data with
  | none => s
  | some data =>
    let netRxSum := (data.devices.filterMap id).foldl count s.netRxSum
    let add := fun (dev : NetRx F) => { dev with interval := dev.interval + data.interval }
    { s with netRxSum := netRxSum.mapVal (fun _ => add) }

/-- `dev.rxAvg = dev.rxSum * MS_PER_SEC / dev.interval`. -/
def average (dev : NetRx F) : NetRx F :=
  { dev with rxAvg := Double.ofInt (dev.rxSum * 1000 / dev.interval).toNat }

/-- `netRxSumTrace[dev].emplace_back`, for each device. -/
def trace (s : State F) : UMap Str (List (NetRx F)) :=
  s.netRxSum.keys.foldl (fun netRxSumTrace dev =>
    netRxSumTrace.insert dev ((netRxSumTrace.find dev).getD [] ++
      ((s.netRxSum.find dev).map average).toList)) s.netRxSumTrace

def getAnalysisResult (env : Env) (dev : Str) (netRxVec : List (NetRx F)) : AnalysisRst F where
  dev := dev
  peak := netRxVec.foldl (fun peak r => if Double.lt peak r.rxAvg then r.rxAvg else peak) (Double.ofInt 0)
  average := Double.div (Double.ofInt (netRxVec.map NetRx.rxSum).sum.toNat)
    (Double.ofInt (netRxVec.map NetRx.interval).sum.toNat)
  shouldTune := Double.lt HIRQ_TUNE_PEAK_THRESHOLD
    (netRxVec.foldl (fun peak r => if Double.lt peak r.rxAvg then r.rxAvg else peak)
      (Double.ofInt 0 : F))
  isSupportMultiPath := env.devIsSupportMultiPath dev

/-- `result[dev] = GetAnalysisResult(dev, ..)`, for each device that has a trace. -/
def results (env : Env) (s : State F) : UMap Str (AnalysisRst F) :=
  (trace s).keys.foldl (fun result dev =>
    result.insert dev (getAnalysisResult env dev (((trace s).find dev).getD []))) s.result

/-- `FloatToString` is `fixed`. -/
def genPublishData (fixed : F → Str) (result : UMap Str (AnalysisRst F)) : AnalysisResultItem :=
  let devs := result.keys.filterMap result.find
  let shouldTune := devs.filter (·.shouldTune)
  let multiPath := shouldTune.filter (·.isSupportMultiPath)
  let ifnameParam := List.intercalate (str "#") (multiPath.map (·.dev))
  let top := (devs.mergeSort (fun a b => ¬ Double.lt a.peak b.peak)).take SHOW_DEV_MAX_NUM
  let peakDesc := fun (r : AnalysisRst F) => str "peak:" ++ fixed r.peak ++ str " (hirq/s)"
  let avgDesc := fun (r : AnalysisRst F) => str "avg:" ++ fixed r.average ++ str " (hirq/s)"
  let line := fun (r : AnalysisRst F) => str "   " ++ r.dev ++ str " " ++ peakDesc r ++ str ", " ++
    avgDesc r ++ (if r.isSupportMultiPath then str "(support multi_net_path_tune and net_hard_irq_tune)"
      else str "(support net_hard_irq_tune)") ++ str "\n"
  let conclusion := if top = [] then str "net analysis: no high hirq net device needs tuning"
    else str "net analysis, show top " ++ str (toString top.length) ++ str " high peak devices:\n"
  let metrics := top.map (fun r => ⟨DATA_TYPE_NETWORK, r.dev, peakDesc r,
    (if r.shouldTune then str "high hirq freq(>" else str "low hirq freq(<") ++ str "1000)"⟩)
  createAnalysisResultItem metrics (conclusion ++ (top.map line).flatten)
    (if shouldTune = [] then none
    else some ⟨str "use net hard irq tune",
      if multiPath = [] then str "oeawarectl -e net_hard_irq_tune"
      else str "oeawarectl -e multi_net_path_tune -ifname " ++ ifnameParam ++
        str (" -appname all_app ." ++ "\n You can replace the all_app with a specific app name"),
      str "affinity network threads and interrupts"⟩)

/-- The topic is to be reported now. -/
def due (now : ℤ) (s : State F) : Bool :=
  ¬ elapsed now s.topicCtl.beginTime < s.topicCtl.analysisTime ∧ ¬ s.topicCtl.hasPublished

def run (fixed : F → Str) (env : Env) (s : State F) : State F × List (Effect AnalysisResultItem) :=
  if due env.now s then
    ({ s with
        netRxSum := .empty
        netRxSumTrace := trace s
        result := results env s
        topicCtl := { s.topicCtl with hasPublished := true } },
      [.write (genPublishData fixed (results env s)),
        .publish (setDataListTopic ⟨OE_NET_HIRQ_ANALYSIS, OE_NET_HIRQ_ANALYSIS, s.topicCtl.openParams⟩)])
  else ({ s with netRxSum := .empty, netRxSumTrace := trace s }, [])

end NetHirqAnalysis

/-- `NetHirqAnalysis`. -/
@[reducible] def netHirqAnalysis (F : Type) [Double F] (fixed : F → Str) : AnalysisInstance where
  State := NetHirqAnalysis.State F
  Env := NetHirqAnalysis.Env
  Data := Option NapiData
  name := NetHirqAnalysis.OE_NET_HIRQ_ANALYSIS
  init := NetHirqAnalysis.init
  openTopic := NetHirqAnalysis.openTopic
  closeTopic := NetHirqAnalysis.closeTopic
  updateData := NetHirqAnalysis.updateData
  disable := NetHirqAnalysis.disable
  run := NetHirqAnalysis.run fixed

/-! ### SMC-D -/

namespace SmcDAnalysis

structure State (D : Type) where
  analysisTime : Int32
  curTime : Int32
  netFlow : Int32
  changeRateThreshold : D
  netFlowThreshold : Int32
  isPublished : Bool
  beginTime : ℤ
  saveTopic : Topic
  prevEstablishedCount : Int32
  prevCloseWaitCount : Int32
  totalEstablishedDelta : Int32
  totalCloseWaitDelta : Int32

/-- `0.1`. -/
def CHANGE_RATE_THRESHOLD : D := Double.div (Double.ofInt 1) (Double.ofInt 10)

def init : State D := ⟨10, 0, 0, CHANGE_RATE_THRESHOLD, 100, false, 0, ⟨[], [], []⟩, 0, 0, 0, 0⟩

/-- The clock, and what the commands that are run find out: connections in the states ESTABLISHED and
    CLOSE_WAIT, the flow on `lo` if it is shown, and whether netlink knows SMC. -/
structure Env where
  now : ℤ
  currentEstablishedCount : Int32
  currentCloseWaitCount : Int32
  loNetworkFlow : Option Int32
  genNlOpen : Bool

def intParam (params key : Str) (old : Int32) : Int32 :=
  ((param params key).map (fun v => Int32.ofInt (atoi v))).getD old

def openTopic (topic : Topic) (env : Env) (s : State D) :
    State D × Result × List (Effect AnalysisResultItem) :=
  if topic.topicName ≠ str "smc_d" then (s, notSupport topic, [])
  else
    ({ s with
        analysisTime := intParam topic.params (str "t") s.analysisTime
        changeRateThreshold := doubleParam topic.params (str "threshold1") s.changeRateThreshold
        netFlowThreshold := intParam topic.params (str "threshold2") s.netFlowThreshold
        beginTime := env.now
        isPublished := false
        saveTopic := topic }, resultOk, [])

def closeTopic (_topic : Topic) (s : State D) : State D × List (Effect AnalysisResultItem) := (s, [])

def disable (s : State D) : State D × List (Effect AnalysisResultItem) :=
  ({ s with
      prevEstablishedCount := 0
      prevCloseWaitCount := 0
      totalEstablishedDelta := 0
      totalCloseWaitDelta := 0
      curTime := 0
      netFlow := 0 }, [])

/-- `std::abs`. -/
def abs (n : Int32) : Int32 := if n < 0 then -n else n

def detectTcpConnectionMode (env : Env) (s : State D) : State D :=
  let establishedDelta := abs (env.currentEstablishedCount - s.prevEstablishedCount)
  let closeWaitDelta := abs (env.currentCloseWaitCount - s.prevCloseWaitCount)
  let s := { s with
    prevEstablishedCount := env.currentEstablishedCount
    prevCloseWaitCount := env.currentCloseWaitCount }
  if s.curTime = 0 then { s with netFlow := env.loNetworkFlow.getD s.netFlow }
  else { s with
    totalEstablishedDelta := s.totalEstablishedDelta + establishedDelta
    totalCloseWaitDelta := s.totalCloseWaitDelta + closeWaitDelta }

/-- `total / static_cast<double>(prevEstablishedCount)`. -/
def rate (total : Int32) (s : State D) : D :=
  if s.prevEstablishedCount = 0 then Double.ofInt 0
  else Double.div (Double.ofInt total.toInt) (Double.ofInt s.prevEstablishedCount.toInt)

def getResult (genNlOpen : Bool) (s : State D) : AnalysisResultItem :=
  let totalEstablishedRate := rate s.totalEstablishedDelta s
  let totalCloseWaitRate := rate s.totalCloseWaitDelta s
  let isSilence := s.prevEstablishedCount = 0
  let isHighFlow := s.netFlow ≥ s.netFlowThreshold
  let isSmcDUsable := Double.lt totalEstablishedRate s.changeRateThreshold ∧
    Double.lt totalCloseWaitRate s.changeRateThreshold
  let metrics := fun (rate : Str) => [
    ⟨DATA_TYPE_NETWORK, str "SmcDTcpChangeRate", rate, if isSmcDUsable then str "low" else str "high"⟩,
    ⟨DATA_TYPE_NETWORK, str "LocalNetFlow", str (toString s.netFlow.toInt) ++ str "(MB/s)",
      if isHighFlow then str "high" else str "low"⟩]
  let rateStr := percentStr (percent totalEstablishedRate)
  if ¬ genNlOpen then
    createAnalysisResultItem [] (str "The current environment does not support SMC-D.") none
  else if isSilence then
    createAnalysisResultItem (metrics (str "0%"))
      (str "Current scenario detects fewer or no connections.Don't use smc-d.") none
  else if ¬ isHighFlow then
    createAnalysisResultItem (metrics rateStr)
      (str "Current scenario detects low local Flow.Don't use smc-d.") none
  else if isSmcDUsable then
    createAnalysisResultItem (metrics rateStr) (str "Current scenario detects long-lived connections.")
      (some ⟨str "use smc-d", str "oeawarectl -e smc_tune",
        str "Reduce latency and increase throughput."⟩)
  else
    createAnalysisResultItem (metrics rateStr)
      (str "Current scenario detects short-lived connections.Don't use smc-d.") (some ⟨[], [], []⟩)

/-- The topic is to be reported now. -/
def due (now : ℤ) (s : State D) : Bool := ¬ s.isPublished ∧ elapsed now s.beginTime ≥ s.analysisTime

def run (env : Env) (s : State D) : State D × List (Effect AnalysisResultItem) :=
  let s := detectTcpConnectionMode env s
  if due env.now s then
    ({ s with isPublished := true, curTime := 0 },
      [.publishNew (setDataListTopic s.saveTopic) (getResult env.genNlOpen s)])
  else ({ s with curTime := s.curTime + 1 }, [])

end SmcDAnalysis

/-- `SmcDAnalysis`; data is nothing to it. -/
@[reducible] def smcDAnalysis (D : Type) [Double D] : AnalysisInstance where
  State := SmcDAnalysis.State D
  Env := SmcDAnalysis.Env
  Data := Unit
  name := str "smc_d_analysis"
  init := SmcDAnalysis.init
  openTopic := SmcDAnalysis.openTopic
  closeTopic := SmcDAnalysis.closeTopic
  updateData _ := id
  disable := SmcDAnalysis.disable
  run := SmcDAnalysis.run

end OeAware

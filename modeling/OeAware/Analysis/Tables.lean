import Mathlib.Data.List.Sort
import OeAware.Analysis.Instance
import OeAware.Common.Yaml

/-! @src src/plugin/scenario/analysis/hugepage/hugepage_analysis.cpp, dynamic_smt/dynamic_smt_analysis.cpp,
    docker_coordination_burst/docker_coordination_burst_analysis.cpp,
    microarch_tidnocmp/microarch_tidnocmp_analysis.cpp |
    name:HugePageAnalysis, DynamicSmtAnalysis, DockerCoordinationBurstAnalysis,
    MicroarchTidNoCmpAnalysis | scheme:isolation

    The instances that keep all they know in the table of topics. They differ in what they subscribe to
    and when, in what they make of their data, and in what closing a topic resets. -/

namespace OeAware
open Schemes

variable {D : Type} [Double D]

/-- A `double` of the parameters, or what the member holds. -/
def doubleParam (params key : Str) (old : D) : D := ((param params key).map Double.atof).getD old

/-- What is left of `value * PERCENTAGE_FACTOR`. -/
def percent (value : D) : D := Double.mul value (Double.ofInt 100)

/-- `std::to_string(value) + "%"`. -/
def percentStr (value : D) : Str := Double.toStr value ++ str "%"

def CPU_SYSTEM : ℕ := 2
def CPU_IDLE : ℕ := 3
def CPU_TIME_SUM : ℕ := 10

def ENV_DATA_READY : UInt32 := 1

/-- `times[cpuNumConfig][type]`, that of the system. -/
def EnvCpuUtilParam.total (d : EnvCpuUtilParam) (type : ℕ) : UInt64 :=
  (d.times.getD d.cpuNumConfig.toNat []).getD type 0

/-- What the instance reads of counts of the PMU. -/
structure CountingData where
  topicName : Str
  counts : List UInt64

/-! ### Huge pages -/

/-- What a build of the instance counts. -/
structure TlbKind (D : Type) where
  TlbInfo : Type
  zero : TlbInfo
  topics : List Str
  add : Str → UInt64 → TlbInfo → TlbInfo
  /-- Name and value of each rate, and whether the first threshold is for it. -/
  rates : TlbInfo → List (Str × D × Bool)

structure HugePageStatus (T D : Type) where
  threshold1 : D
  threshold2 : D
  tlbInfo : T

namespace HugePageAnalysis

def THP_THRESHOLD1 : D := Double.ofInt 5
def THP_THRESHOLD2 : D := Double.ofInt 10

variable (K : TlbKind D)

def fresh : HugePageStatus K.TlbInfo D := ⟨THP_THRESHOLD1, THP_THRESHOLD2, K.zero⟩

/-- What `OpenTopic` makes of the entry of a topic. -/
def openStatus (params : Str) (now : ℤ) (status : TopicStatus (HugePageStatus K.TlbInfo D)) :
    TopicStatus (HugePageStatus K.TlbInfo D) :=
  let status := { status with isOpen := true, beginTime := now }.setTime params
  { status with own := { status.own with
      threshold1 := doubleParam params (str "threshold1") status.own.threshold1
      threshold2 := doubleParam params (str "threshold2") status.own.threshold2 } }

/-- And `CloseTopic`. -/
def closeStatus (status : TopicStatus (HugePageStatus K.TlbInfo D)) :
    TopicStatus (HugePageStatus K.TlbInfo D) :=
  { status with isOpen := false, isPublish := false, own := fresh K }

def openTopic (topic : Topic) (now : ℤ) (s : Table (HugePageStatus K.TlbInfo D)) :
    Table (HugePageStatus K.TlbInfo D) × Result × List (Effect AnalysisResultItem) :=
  if topic.topicName ≠ str "hugepage" then (s, notSupport topic, [])
  else
    (s.set topic.getType (openStatus K topic.params now (s.status (fresh K) topic.getType)), resultOk,
      s.subscribeTopics.map .subscribe)

def closeTopic (topic : Topic) (s : Table (HugePageStatus K.TlbInfo D)) :
    Table (HugePageStatus K.TlbInfo D) × List (Effect AnalysisResultItem) :=
  (s.set topic.getType (closeStatus K (s.status (fresh K) topic.getType)),
    s.subscribeTopics.map .unsubscribe)

/-- What `UpdateData` adds to an open topic. -/
def update (data : CountingData) (own : HugePageStatus K.TlbInfo D) :
    HugePageStatus K.TlbInfo D :=
  { own with tlbInfo := data.counts.foldl (fun t c => K.add data.topicName c t) own.tlbInfo }

/-- The threshold for a rate. -/
def threshold (own : HugePageStatus K.TlbInfo D) (first : Bool) : D :=
  if first then own.threshold1 else own.threshold2

/-- `IsHighMiss`. -/
def isHighMiss (own : HugePageStatus K.TlbInfo D) : Bool :=
  (K.rates own.tlbInfo).any (fun r => Double.le (threshold K own r.2.2) (percent r.2.1))

def analysis (own : HugePageStatus K.TlbInfo D) : AnalysisResultItem :=
  let metrics := (K.rates own.tlbInfo).map (fun r => ⟨DATA_TYPE_MEMORY, r.1, percentStr (percent r.2.1),
    if Double.lt (threshold K own r.2.2) (percent r.2.1) then str "high" else str "low"⟩)
  if isHighMiss K own then
    createAnalysisResultItem metrics (str "The tlbmiss is too high.")
      (some ⟨str "use huge page", str "oeawarectl -e transparent_hugepage_tune",
        str "reduce the number of tlb items and reduce the missing rate"⟩)
  else
    createAnalysisResultItem metrics
      (str "The tlbmiss is low, donot need to enable transparent_hugepage_tune.") none

end HugePageAnalysis

/-- `HugePageAnalysis`. -/
@[reducible] def hugePageAnalysis (K : TlbKind D) : TableKind where
  Own := HugePageStatus K.TlbInfo D
  Env := Unit
  Data := CountingData
  name := str "hugepage_analysis"
  own := HugePageAnalysis.fresh K
  subscribeTopics := K.topics.map (fun topic => ⟨str "pmu_counting_collector", topic, []⟩)
  openTopic := HugePageAnalysis.openTopic K
  closeTopic := HugePageAnalysis.closeTopic K
  update := HugePageAnalysis.update K
  analysis _ := HugePageAnalysis.analysis K

structure TlbInfo where
  l1dTlb : UInt64
  l1dTlbRefill : UInt64
  l1iTlb : UInt64
  l1iTlbRefill : UInt64
  l2dTlb : UInt64
  l2dTlbRefill : UInt64
  l2iTlb : UInt64
  l2iTlbRefill : UInt64

/-- `total == 0 ? 0 : 1.0 * misses / total`. -/
def missRate (misses total : UInt64) : D :=
  if total = 0 then Double.ofInt 0
  else Double.div (Double.mul (Double.ofInt 1) (Double.ofInt misses.toNat)) (Double.ofInt total.toNat)

def TlbInfo.add (topicName : Str) (count : UInt64) (t : TlbInfo) : TlbInfo :=
  if topicName = str "l1d_tlb" then { t with l1dTlb := t.l1dTlb + count }
  else if topicName = str "l1d_tlb_refill" then { t with l1dTlbRefill := t.l1dTlbRefill + count }
  else if topicName = str "l1i_tlb" then { t with l1iTlb := t.l1iTlb + count }
  else if topicName = str "l1i_tlb_refill" then { t with l1iTlbRefill := t.l1iTlbRefill + count }
  else if topicName = str "l2d_tlb" then { t with l2dTlb := t.l2dTlb + count }
  else if topicName = str "l2d_tlb_refill" then { t with l2dTlbRefill := t.l2dTlbRefill + count }
  else if topicName = str "l2i_tlb" then { t with l2iTlb := t.l2iTlb + count }
  else if topicName = str "l2i_tlb_refill" then { t with l2iTlbRefill := t.l2iTlbRefill + count }
  else t

/-- The build for the other processors. -/
def tlbKind : TlbKind D where
  TlbInfo := TlbInfo
  zero := ⟨0, 0, 0, 0, 0, 0, 0, 0⟩
  topics := ["l1d_tlb", "l1d_tlb_refill", "l1i_tlb", "l1i_tlb_refill", "l2d_tlb", "l2d_tlb_refill",
    "l2i_tlb", "l2i_tlb_refill"].map str
  add := TlbInfo.add
  rates t := [(str "l1dtlb_miss", missRate t.l1dTlbRefill t.l1dTlb, true),
    (str "l1itlb_miss", missRate t.l1iTlbRefill t.l1iTlb, true),
    (str "l2dtlb_miss", missRate t.l2dTlbRefill t.l2dTlb, false),
    (str "l2itlb_miss", missRate t.l2iTlbRefill t.l2iTlb, false)]

structure RiscvTlbInfo where
  dTlbLoads : UInt64
  dTlbMisses : UInt64
  iTlbLoads : UInt64
  iTlbMisses : UInt64

def RiscvTlbInfo.add (topicName : Str) (count : UInt64) (t : RiscvTlbInfo) : RiscvTlbInfo :=
  if topicName = str "dTLB-loads" then { t with dTlbLoads := t.dTlbLoads + count }
  else if topicName = str "dTLB-load-misses" then { t with dTlbMisses := t.dTlbMisses + count }
  else if topicName = str "iTLB-loads" then { t with iTlbLoads := t.iTlbLoads + count }
  else if topicName = str "iTLB-load-misses" then { t with iTlbMisses := t.iTlbMisses + count }
  else t

/-- The build for RISC-V. -/
def riscvTlbKind : TlbKind D where
  TlbInfo := RiscvTlbInfo
  zero := ⟨0, 0, 0, 0⟩
  topics := ["dTLB-loads", "dTLB-load-misses", "iTLB-loads", "iTLB-load-misses"].map str
  add := RiscvTlbInfo.add
  rates t := [(str "dtlb_miss", missRate t.dTlbMisses t.dTlbLoads, true),
    (str "itlb_miss", missRate t.iTlbMisses t.iTlbLoads, true)]

/-! ### Dynamic SMT -/

structure DynamicSmtStatus (D : Type) where
  threshold : D
  cpuSum : D
  cpuIdle : D

namespace DynamicSmtAnalysis

def DYNAMIC_SMT_THRESHOLD : D := Double.ofInt 40

def fresh : DynamicSmtStatus D := ⟨DYNAMIC_SMT_THRESHOLD, Double.ofInt 0, Double.ofInt 0⟩

/-- What `OpenTopic` makes of the entry of a topic. -/
def openStatus (params : Str) (now : ℤ) (status : TopicStatus (DynamicSmtStatus D)) :
    TopicStatus (DynamicSmtStatus D) :=
  let status := { status with isOpen := true, beginTime := now }.setTime params
  { status with own := { status.own with
      threshold := doubleParam params (str "threshold") status.own.threshold } }

/-- And `CloseTopic`. -/
def closeStatus (status : TopicStatus (DynamicSmtStatus D)) : TopicStatus (DynamicSmtStatus D) :=
  { status with isOpen := false, isPublish := false, own := fresh }

def openTopic (topic : Topic) (now : ℤ) (s : Table (DynamicSmtStatus D)) :
    Table (DynamicSmtStatus D) × Result × List (Effect AnalysisResultItem) :=
  if topic.topicName ≠ str "dynamic_smt" then (s, notSupport topic, [])
  else
    (s.set topic.getType (openStatus topic.params now (s.status fresh topic.getType)), resultOk,
      s.subscribeTopics.map .subscribe)

def closeTopic (topic : Topic) (s : Table (DynamicSmtStatus D)) :
    Table (DynamicSmtStatus D) × List (Effect AnalysisResultItem) :=
  (s.set topic.getType (closeStatus (s.status fresh topic.getType)), s.subscribeTopics.map .unsubscribe)

/-- What `UpdateData` makes of an open topic. -/
def update (data : EnvCpuUtilParam) (own : DynamicSmtStatus D) : DynamicSmtStatus D :=
  if data.dataReady ≠ ENV_DATA_READY then own
  else { own with
    cpuIdle := Double.ofInt (data.total CPU_IDLE).toNat
    cpuSum := Double.ofInt (data.total CPU_TIME_SUM).toNat }

/-- `isTuneSupport` is what the system's files say. -/
def analysis (isTuneSupport : Bool) (own : DynamicSmtStatus D) : AnalysisResultItem :=
  let cpuUsage := percent (Double.div (Double.sub own.cpuSum own.cpuIdle) own.cpuSum)
  let metrics := [⟨DATA_TYPE_CPU, str "cpu_usage", percentStr cpuUsage,
    if Double.le own.threshold cpuUsage then str "high for dynamic smt tune"
    else str "low for dynamic smt tune"⟩]
  if Double.lt cpuUsage own.threshold then
    if isTuneSupport then
      createAnalysisResultItem metrics
        (str "For dynamic_smt_tune, the system loads is low. Please enable dynamic_smt_tune")
        (some ⟨str "use dynamic smt", str "oeawarectl -e dynamic_smt_tune",
          str "activate idle physical cores during low system loads to improve performance"⟩)
    else createAnalysisResultItem metrics (str "Dynamic_smt_tune is not supported.") none
  else
    createAnalysisResultItem metrics
      (str "For dynamic_smt_tune, donot need to enable dynamic smt.") none

end DynamicSmtAnalysis

/-- `DynamicSmtAnalysis`. -/
@[reducible] def dynamicSmtAnalysis (D : Type) [Double D] : TableKind where
  Own := DynamicSmtStatus D
  Env := Bool
  Data := EnvCpuUtilParam
  name := str "dynamic_smt_analysis"
  own := DynamicSmtAnalysis.fresh
  subscribeTopics := [⟨str "env_info_collector", str "cpu_util", []⟩]
  openTopic := DynamicSmtAnalysis.openTopic
  closeTopic := DynamicSmtAnalysis.closeTopic
  update := DynamicSmtAnalysis.update
  analysis := DynamicSmtAnalysis.analysis

/-! ### Docker coordination burst -/

/-- What the instance reads of a `Container`. -/
structure Container where
  id : Str
  cfs_period_us : Int64
  cfs_quota_us : Int64
  cpu_usage : Int64
  sampling_timestamp : Int64
  soft_quota : Int64

structure DockerInfo where
  id : Str
  cfsPeriodUs : Int64
  cfsQuotaUs : Int64
  softQuota : Int64
  hostCpuNum : Int32
  startTimestamp : UInt64
  endTimeStamp : UInt64
  startCpuUsage : UInt64
  endCpuUsage : UInt64

namespace DockerInfo

/-- `DockerInfo(id, cfsPeriod, cfsQuota, hostCpuNum)`. -/
def new (id : Str) (cfsPeriodUs cfsQuotaUs : Int64) (hostCpuNum : Int32) : DockerInfo :=
  ⟨id, cfsPeriodUs, cfsQuotaUs, -1, hostCpuNum, 0, 0, 0, 0⟩

def updateCpuUtil (cpuUsage samplingTimeStamp : UInt64) (i : DockerInfo) : DockerInfo :=
  if i.startTimestamp = 0 then
    { i with startTimestamp := samplingTimeStamp, startCpuUsage := cpuUsage }
  else { i with endTimeStamp := samplingTimeStamp, endCpuUsage := cpuUsage }

def getCpuUtil (i : DockerInfo) : D :=
  if i.startTimestamp = i.endTimeStamp ∨ i.startTimestamp = 0 ∨ i.endTimeStamp = 0 then Double.ofInt 0
  else
    let cpuLimit : Int32 := if i.cfsQuotaUs > 0 ∧ i.cfsPeriodUs > 0 then
      (i.cfsQuotaUs / i.cfsPeriodUs).toInt32 else i.hostCpuNum
    let cpuUsageDelta := i.endCpuUsage - i.startCpuUsage
    let interval := i.endTimeStamp - i.startTimestamp
    let ns : D := Double.ofInt 1000000000
    percent (Double.div (Double.div (Double.ofInt cpuUsageDelta.toNat) ns)
      (Double.mul (Double.ofInt cpuLimit.toInt) (Double.div (Double.ofInt interval.toNat) ns)))

end DockerInfo

structure DockerBurstStatus (D : Type) where
  dockerList : UMap Str DockerInfo
  hostCpuUsageThreshold : D
  dockerCpuUsagethreshold : D
  hostCpuUtil : D
  hostCpuUtilSum : D
  sampleCount : UInt64

/-- What `UpdateData` gets, by its topic. -/
inductive DockerBurstData where
  | cpuUtil (data : EnvCpuUtilParam)
  | dockers (data : List Container)
  | other

namespace DockerCoordinationBurstAnalysis

def HOST_CPU_USAGE_THRESHOLD_DEFAULT : D := Double.ofInt 45
def DOCKER_CPU_USAGE_THRESHOLD_DEFAULT : D := Double.ofInt 95

/-- What `Reset` makes of the entry of a topic. -/
def fresh : DockerBurstStatus D :=
  ⟨.empty, HOST_CPU_USAGE_THRESHOLD_DEFAULT, DOCKER_CPU_USAGE_THRESHOLD_DEFAULT, Double.ofInt 0,
    Double.ofInt 0, 0⟩

/-- `tmp < MIN_PERCENT || tmp > MAX_PERCENT`. -/
def outOfRange (tmp : D) : Bool :=
  Double.lt tmp (Double.ofInt 0) || Double.lt (Double.ofInt 100) tmp

/-- A threshold that there has to be. -/
def percentParam (params key : Str) : Option D :=
  match param params key with
  | none => none
  | some v => if outOfRange (Double.atof v : D) then none else some (Double.atof v)

/-- `ParseConfig`; it may stop halfway. -/
def parseConfig (params : Str) (status : TopicStatus (DockerBurstStatus D)) :
    TopicStatus (DockerBurstStatus D) × Bool :=
  let status := status.setTime params
  match percentParam params (str "hostCpuUsageThreshold") with
  | none => (status, false)
  | some host =>
    let status := { status with own := { status.own with hostCpuUsageThreshold := host } }
    match percentParam params (str "dockerCpuUsageThreshold") with
    | none => (status, false)
    | some docker => ({ status with own := { status.own with dockerCpuUsagethreshold := docker } }, true)

/-- What `OpenTopic` makes of the entry of a topic, and whether the topic is opened. -/
def openStatus (params : Str) (now : ℤ) (status : TopicStatus (DockerBurstStatus D)) :
    TopicStatus (DockerBurstStatus D) × Bool :=
  let r := parseConfig params { status with own := fresh }
  if r.2 then ({ r.1 with isOpen := true, beginTime := now }, true) else r

/-- And `CloseTopic`. -/
def closeStatus (status : TopicStatus (DockerBurstStatus D)) : TopicStatus (DockerBurstStatus D) :=
  { status with isOpen := false, isPublish := false, own := fresh }

/-- What each `OpenTopic` puts at the end of `subscribeTopics`. -/
def collectors : List Topic :=
  [⟨str "env_info_collector", str "cpu_util", []⟩, ⟨str "pmu_sampling_collector", str "cycles", []⟩,
    ⟨str "docker_collector", str "docker_collector", []⟩]

def openTopic (topic : Topic) (now : ℤ) (s : Table (DockerBurstStatus D)) :
    Table (DockerBurstStatus D) × Result × List (Effect AnalysisResultItem) :=
  if topic.topicName ≠ str "docker_coordination_burst" then (s, notSupport topic, [])
  else
    let r := openStatus topic.params now (s.status fresh topic.getType)
    let s := s.set topic.getType r.1
    if r.2 then
      let subscribeTopics := s.subscribeTopics ++ collectors
      ({ s with subscribeTopics }, resultOk, subscribeTopics.map .subscribe)
    else (s, failure (str "topic " ++ topic.getType ++ str " open failed! Invalid config!"), [])

def closeTopic (topic : Topic) (s : Table (DockerBurstStatus D)) :
    Table (DockerBurstStatus D) × List (Effect AnalysisResultItem) :=
  (s.set topic.getType (closeStatus (s.status fresh topic.getType)), s.subscribeTopics.map .unsubscribe)

def updateDockerInfo (hostCpuNum : Int32) (dockerList : UMap Str DockerInfo) (container : Container) :
    UMap Str DockerInfo :=
  let info := (dockerList.find container.id).getD
    (.new container.id container.cfs_period_us container.cfs_quota_us hostCpuNum)
  let info := info.updateCpuUtil container.cpu_usage.toUInt64 container.sampling_timestamp.toUInt64
  dockerList.insert container.id { info with softQuota := container.soft_quota }

def updateCpuUtil (data : EnvCpuUtilParam) (own : DockerBurstStatus D) : DockerBurstStatus D :=
  if data.dataReady ≠ ENV_DATA_READY then own
  else
    let cpuIdle := data.total CPU_IDLE
    let cpuSum := data.total CPU_TIME_SUM
    let curCpuUtil := Double.div (Double.ofInt (cpuSum - cpuIdle).toNat) (Double.ofInt cpuSum.toNat)
    let hostCpuUtilSum := Double.add own.hostCpuUtilSum curCpuUtil
    let sampleCount := own.sampleCount + 1
    { own with
      hostCpuUtilSum
      sampleCount
      hostCpuUtil := Double.div hostCpuUtilSum (Double.ofInt sampleCount.toNat) }

/-- What `UpdateData` makes of an open topic. -/
def update (hostCpuNum : Int32) (data : DockerBurstData) (own : DockerBurstStatus D) :
    DockerBurstStatus D :=
  match data with
  | .cpuUtil data => updateCpuUtil data own
  | .dockers data => { own with dockerList := data.foldl (updateDockerInfo hostCpuNum) own.dockerList }
  | .other => own

/-- The names of some dockers, between commas (`CheckTail`). -/
def names (dockers : List DockerInfo) : Str :=
  List.intercalate (str ",") (dockers.map (fun i => i.id.take 12))

/-- `AnalysisResult`; `isTuneSupport` is whether the kernel has the file for it. -/
def analysis (isTuneSupport : Bool) (own : DockerBurstStatus D) : AnalysisResultItem :=
  let hostCpuUtil := percent own.hostCpuUtil
  let level := fun (b : Bool) => if b then str "high for docker coordination burst"
    else str "low for docker coordination burst"
  let dockers := own.dockerList.keys.filterMap own.dockerList.find
  let metrics : List Metric :=
    ⟨DATA_TYPE_CPU, str "host_cpu_usage", percentStr hostCpuUtil,
      level (Double.lt own.hostCpuUsageThreshold hostCpuUtil)⟩ ::
    dockers.map (fun i => ⟨DATA_TYPE_CPU, str "docker_cpu_usage[" ++ i.id.take 12 ++ str "]",
      percentStr (i.getCpuUtil : D), level (Double.lt own.dockerCpuUsagethreshold (i.getCpuUtil : D))⟩)
  let highCpuUsage := dockers.filter (fun i => ¬ Double.lt (i.getCpuUtil : D) own.dockerCpuUsagethreshold)
  let suggestionDockers := names (highCpuUsage.filter (fun i => i.softQuota = 0))
  let enabledDockers := names (highCpuUsage.filter (fun i => i.softQuota = 1))
  if ¬ isTuneSupport then
    createAnalysisResultItem metrics
      (str "The environment is not support docker coordination burst tune.") none
  else if dockers = [] then
    createAnalysisResultItem metrics
      (str "No docker found in this environment. So no need to use docker coordination burst.") none
  else if Double.le hostCpuUtil own.hostCpuUsageThreshold then
    if suggestionDockers = [] then
      if names highCpuUsage = [] then
        createAnalysisResultItem metrics (str ("The system loads is low, and the docker load is low." ++
          " Do not need to enable docker coordination burst.")) none
      else
        createAnalysisResultItem metrics (str "The system loads is low, and the docker [" ++
          enabledDockers ++ str (" ] coordination burst is already open," ++
            " do not need to enable docker coordination burst.")) none
    else
      createAnalysisResultItem metrics
        (str ("The system loads is low. Found some dockers which cpu loads are high and not enable " ++
          "docker coordination burst yet. Please enable docker coordination burst for them."))
        (some ⟨str "use docker coordination burst",
          str "oeawarectl -e docker_burst -docker_id [" ++ suggestionDockers ++ str "] -ratio 20",
          str ("The idle cpu of the scheduling physical machine is scheduled to " ++
            "heavy load containers to improve performance.")⟩)
  else
    createAnalysisResultItem metrics
      (str ("The system loads is high, and fewer idle cpus available for scheduling. " ++
        "So do not need enable docker coordination burst.")) none

end DockerCoordinationBurstAnalysis

/-- `DockerCoordinationBurstAnalysis`, on a host with `hostCpuNum` CPUs. -/
@[reducible] def dockerCoordinationBurstAnalysis (D : Type) [Double D] (hostCpuNum : Int32) : TableKind where
  Own := DockerBurstStatus D
  Env := Bool
  Data := DockerBurstData
  name := str "docker_coordination_burst_analysis"
  own := DockerCoordinationBurstAnalysis.fresh
  subscribeTopics := []
  openTopic := DockerCoordinationBurstAnalysis.openTopic
  closeTopic := DockerCoordinationBurstAnalysis.closeTopic
  update := DockerCoordinationBurstAnalysis.update hostCpuNum
  analysis := DockerCoordinationBurstAnalysis.analysis

/-! ### Micro-architecture -/

structure MicroarchStatus where
  supportCpuPartId : List Str
  supportServiceList : List Str
  catchedThreadList : List Str

namespace MicroarchTidNoCmpAnalysis

/-- What `Reset` makes of the entry of a topic. -/
def fresh : MicroarchStatus := ⟨[], [], []⟩

/-- The names in a `std::set`, in its order. -/
def insertName (name : Str) (names : List Str) : List Str :=
  if name ∈ names then names else names.orderedInsert (fun a b => a ≤ b) name

/-- `YAML::Load`, where it does not throw. -/
abbrev Yaml := Str → Option Node

/-- A sequence under the key. -/
def sequence (key : Str) (parsedConfig : Node) : Option (List Node) :=
  match parsedConfig.get key with
  | some (some (.seq items)) => some items
  | _ => none

/-- The loop over a sequence, and whether it comes to the end: `as<std::string>()` may throw. -/
def insertNames : List Node → List Str → List Str × Bool
  | [], names => (names, true)
  | item :: items, names =>
    match item.asString with
    | some name => insertNames items (insertName name names)
    | none => (names, false)

/-- `ParseConfig`; it may stop halfway. -/
def parseConfig (yaml : Yaml) (params : Str) (status : TopicStatus MicroarchStatus) :
    TopicStatus MicroarchStatus × Bool :=
  let status := status.setTime params
  match (param params (str "micro_arch_tidnocmp_config_stream")).bind yaml with
  | none => (status, false)
  | some parsedConfig =>
    match sequence (str "service_list") parsedConfig, sequence (str "cpu_part") parsedConfig with
    | some service_list, some cpu_part =>
      let services := insertNames service_list status.own.supportServiceList
      let status := { status with own := { status.own with supportServiceList := services.1 } }
      if services.2 then
        let cpus := insertNames cpu_part status.own.supportCpuPartId
        ({ status with own := { status.own with supportCpuPartId := cpus.1 } }, cpus.2)
      else (status, false)
    | _, _ => (status, false)

/-- The configuration of the topic is one. -/
def valid (yaml : Yaml) (params : Str) : Bool :=
  match (param params (str "micro_arch_tidnocmp_config_stream")).bind yaml with
  | none => false
  | some parsedConfig =>
    match sequence (str "service_list") parsedConfig, sequence (str "cpu_part") parsedConfig with
    | some service_list, some cpu_part => (service_list ++ cpu_part).all (fun item => item.asString.isSome)
    | _, _ => false

theorem insertNames_snd : ∀ {items : List Node} {names : List Str},
    (insertNames items names).2 = items.all (fun item => item.asString.isSome)
  | [], _ => rfl
  | item :: items, names => by
    rw [insertNames, List.all_cons]
    cases item.asString with
    | none => rfl
    | some name => exact insertNames_snd

/-- Whether `ParseConfig` comes to the end is a matter of the params alone. -/
theorem parseConfig_snd (yaml : Yaml) (params : Str) (status : TopicStatus MicroarchStatus) :
    (parseConfig yaml params status).2 = valid yaml params := by
  rw [parseConfig, valid]
  cases (param params (str "micro_arch_tidnocmp_config_stream")).bind yaml with
  | none => rfl
  | some parsedConfig =>
    dsimp only
    split
    · rw [List.all_append, ← insertNames_snd, ← insertNames_snd]
      split
      · rename_i hservices
        rw [hservices, Bool.true_and]
      · rename_i hservices
        rw [Bool.eq_false_iff.mpr hservices, Bool.false_and]
    · rfl

def openTopic (yaml : Yaml) (topic : Topic) (now : ℤ) (s : Table MicroarchStatus) :
    Table MicroarchStatus × Result × List (Effect AnalysisResultItem) :=
  if topic.topicName ≠ str "microarch_tidnocmp" then (s, notSupport topic, [])
  else
    let status := s.status fresh topic.getType
    let r := parseConfig yaml topic.params { status with isOpen := true, beginTime := now }
    let subscribeTopics := s.subscribeTopics ++ [⟨str "thread_collector", str "thread_collector", []⟩]
    let s := { s.set topic.getType r.1 with subscribeTopics }
    (s, if r.2 then resultOk else failure (str "MicroarchTidNoCmp analysis config is Invalid."),
      subscribeTopics.map .subscribe)

def closeTopic (topic : Topic) (s : Table MicroarchStatus) :
    Table MicroarchStatus × List (Effect AnalysisResultItem) :=
  let status := s.status fresh topic.getType
  (s.set topic.getType { status with isOpen := false, isPublish := false, own := fresh },
    s.subscribeTopics.map .unsubscribe)

/-- What `UpdateData` makes of an open topic, from the names of the threads there are. -/
def update (threads : List Str) (own : MicroarchStatus) : MicroarchStatus :=
  let catched := threads.filter (fun name => name ∈ own.supportServiceList)
  { own with catchedThreadList := catched.foldr insertName own.catchedThreadList }

def joinThreadList (names : List Str) : Str := List.intercalate (str ",") names

/-- `cpuPartId` is that of the environment. -/
def analysis (cpuPartId : Str) (own : MicroarchStatus) : AnalysisResultItem :=
  if cpuPartId ∈ own.supportCpuPartId then
    if own.catchedThreadList = [] then
      createAnalysisResultItem [] (str "Can not find service in [" ++
        joinThreadList own.supportServiceList ++
        str "] running in the current environment. So do not need to disable TidCmp.") none
    else
      createAnalysisResultItem [] (str "The TidNoCmp applicable service [" ++
        joinThreadList own.catchedThreadList ++
        str "] is running in the current environment. So disable TidCmp.")
        (some ⟨str "use micro-arch TidNoCmp",
          str ("Please set bios config [Advanced -> Power And Performance " ++
            "Configuration -> CPU PM Control -> TidCMP] to [Disabled]."),
          str ("Disable the isolation of thread branch prediction records to " ++
            "improve the performance of the supported service.")⟩)
  else
    createAnalysisResultItem [] (str "The cpu model of this environment is " ++ cpuPartId ++
      str ", not in support CPU model config list .") none

end MicroarchTidNoCmpAnalysis

/-- `MicroarchTidNoCmpAnalysis`. -/
@[reducible] def microarchTidNoCmpAnalysis (yaml : MicroarchTidNoCmpAnalysis.Yaml) : TableKind where
  Own := MicroarchStatus
  Env := Str
  Data := List Str
  name := str "microarch_tidnocmp_analysis"
  own := MicroarchTidNoCmpAnalysis.fresh
  subscribeTopics := []
  openTopic := MicroarchTidNoCmpAnalysis.openTopic yaml
  closeTopic := MicroarchTidNoCmpAnalysis.closeTopic
  update := MicroarchTidNoCmpAnalysis.update
  analysis := MicroarchTidNoCmpAnalysis.analysis

end OeAware

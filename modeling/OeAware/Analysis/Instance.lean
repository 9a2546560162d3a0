import OeAware.Data.Plain
import OeAware.Schemes.Container
import OeAware.Schemes.Isolation

/-! @src include/oeaware/interface.h, src/plugin/scenario/analysis/common/analysis_utils.cpp,
    src/common/utils.cpp | name:Interface, CreateAnalysisResultItem, GetKeyValueFromString |
    scheme:isolation

    What the analysis instances have in common. Each is called by the scheduler and calls back into it;
    the calls back are recorded as effects, in their order. A report is made in the instance's one
    `analysisResultItem` and published as a pointer to it. Most of the instances keep a table of the
    topics they have been asked for, and run through it in the same way.

        OpenTopic ──▶ topicStatus[type] { isOpen, beginTime, time, .. }
        Run ──▶ open, not yet published, time is up ──▶ Analysis · Publish · isPublish -/

namespace OeAware
open Schemes

/-- Arithmetic on `double`, with `std::to_string` and `atof`. -/
class Double (D : Type) where
  ofInt : ℤ → D
  add : D → D → D
  sub : D → D → D
  mul : D → D → D
  div : D → D → D
  lt : D → D → Bool
  le : D → D → Bool
  toStr : D → Str
  atof : Str → D

/-! ### Parameters of a topic -/

/-- `GetKeyValueFromString`: pairs `key:value` between commas. -/
def getKeyValueFromString (params : Str) : UMap Str Str :=
  (params.splitOn 44).foldl (fun result pair =>
    if 58 ∈ pair then
      result.insert (pair.takeWhile (· ≠ 58)) ((pair.dropWhile (· ≠ 58)).drop 1)
    else result) .empty

/-- `paramsMap[key].data()`, if `paramsMap.count(key)`. -/
def param (params key : Str) : Option Str := ((getKeyValueFromString params).find key).map cStr

/-! ### Reports -/

def DATA_TYPE_CPU : UInt32 := 0
def DATA_TYPE_MEMORY : UInt32 := 1
def DATA_TYPE_NETWORK : UInt32 := 3

def MAX_ANALYSIS_ITEMS : ℕ := 10000

/-- A metric, its value, and what is to be said of it. -/
structure Metric where
  type : UInt32
  metric : Str
  value : Str
  extra : Str

/-- `CreateAnalysisResultItem`; the copies are what `char *` keeps of the strings. -/
def createAnalysisResultItem (metrics : List Metric) (conclusion : Str)
    (suggestionItem : Option SuggestionItem) : AnalysisResultItem :=
  let dataItem := (metrics.take MAX_ANALYSIS_ITEMS).map
    (fun m => DataItem.mk m.type (cStr m.metric) (cStr m.value) (cStr m.extra))
  ⟨UInt32.ofNat dataItem.length, dataItem, cStr conclusion,
    match suggestionItem with
    | some i => ⟨cStr i.suggestion, cStr i.opt, cStr i.extra⟩
    | none => ⟨[], [], []⟩⟩

/-! ### Instances -/

/-- What an instance does while it is called; `ρ` is what it has to publish. -/
inductive Effect (ρ : Type) where
  /-- `Interface::Subscribe`. -/
  | subscribe (topic : Topic)
  /-- `Interface::Unsubscribe`. -/
  | unsubscribe (topic : Topic)
  /-- The instance's buffer is written. -/
  | write (item : ρ)
  /-- It is freed. -/
  | free
  /-- `Publish(dataList, false)` of a pointer to it. -/
  | publish (topic : Topic)
  /-- `Publish(dataList)` of an item made for the purpose. -/
  | publishNew (topic : Topic) (item : ρ)

/-- What is published, and what the buffer holds at that time. -/
def publications {ρ : Type} (buffer : Option ρ) : List (Effect ρ) → List (Topic × Option ρ)
  | [] => []
  | .write item :: es => publications (some item) es
  | .free :: es => publications none es
  | .publish topic :: es => (topic, buffer) :: publications buffer es
  | .publishNew topic item :: es => (topic, some item) :: publications buffer es
  | .subscribe _ :: es => publications buffer es
  | .unsubscribe _ :: es => publications buffer es

/-- `SetDataListTopic`: the strings of a `DataList` are what `char *` keeps of them. -/
def setDataListTopic (topic : Topic) : Topic :=
  ⟨cStr topic.instanceName, cStr topic.topicName, cStr topic.params⟩

/-- The topic that `PublishData(Topic::GetTopicFromType(type))` publishes under. -/
def publishTopic (type : Str) : Topic := setDataListTopic (getTopicFromType type)

/-- What is published for the topic goes out under it: the type splits back, and no string ends early. -/
def Topic.Named (topic : Topic) : Prop := publishTopic topic.getType = topic

instance (topic : Topic) : Decidable topic.Named := inferInstanceAs (Decidable (_ = _))

/-- An instance. `Env` is what it reads from outside when it opens a topic or runs. -/
structure AnalysisInstance where
  State : Type
  Env : Type
  Data : Type
  name : Str
  init : State
  openTopic : Topic → Env → State → State × Result × List (Effect AnalysisResultItem)
  closeTopic : Topic → State → State × List (Effect AnalysisResultItem)
  updateData : Data → State → State
  disable : State → State × List (Effect AnalysisResultItem)
  run : Env → State → State × List (Effect AnalysisResultItem)

namespace AnalysisInstance
variable (I : AnalysisInstance)

/-- A topic of the instance: what it is called with are topics of its own name. -/
def topic (x : Str × Str) : Topic := ⟨I.name, x.1, x.2⟩

/-- The instance as a service of its topics, each under its type; a report is what a subscriber finds
    when it is published. -/
@[reducible] def service : Service (Str × Str) Str where
  State := I.State
  Env := I.Env
  Feed := I.Data
  Report := Topic × Option AnalysisResultItem
  init := I.init
  key x := (I.topic x).getType
  about r := r.1.getType
  openTopic x env s :=
    let r := I.openTopic (I.topic x) env s
    (r.1, !r.2.1.failed)
  closeTopic x s := (I.closeTopic (I.topic x) s).1
  reset s := (I.disable s).1
  feed := I.updateData
  run env s := ((I.run env s).1, publications none (I.run env s).2)

end AnalysisInstance

/-- `Result(OK)`. -/
def resultOk : Result := ⟨some OK, []⟩

/-- `Result(FAILED, payload)`. -/
def failure (payload : Str) : Result := ⟨some FAILED, payload⟩

/-- `Result(FAILED, "topic " + topic.topicName + " not support!")`. -/
def notSupport (topic : Topic) : Result :=
  failure (str "topic " ++ topic.topicName ++ str " not support!")

/-! ### Tables of topics -/

/-- `TopicStatus`, with `own` for what an instance keeps of a topic besides. -/
@[ext] structure TopicStatus (α : Type) where
  isOpen : Bool
  isPublish : Bool
  time : Int32
  beginTime : ℤ
  own : α

/-- What `TopicStatus()` makes. -/
def TopicStatus.new {α : Type} (own : α) : TopicStatus α := ⟨false, false, 0, 0, own⟩

/-- `curTimeMs / MS_PER_SEC`, clocks in nanoseconds. -/
def elapsed (now beginTime : ℤ) : Int32 := Int32.ofInt ((now - beginTime).tdiv 1000000) / 1000

/-- The topic is to be reported now. -/
def TopicStatus.due {α : Type} (status : TopicStatus α) (now : ℤ) : Bool :=
  status.isOpen ∧ ¬ status.isPublish ∧ elapsed now status.beginTime ≥ status.time

/-- `status.isPublish = true`. -/
def TopicStatus.reported {α : Type} (status : TopicStatus α) : TopicStatus α :=
  { status with isPublish := true }

/-- `topicStatus[type].time = atoi(paramsMap["t"].data())`, if there is a `t`. -/
def TopicStatus.setTime {α : Type} (status : TopicStatus α) (params : Str) : TopicStatus α :=
  match param params (str "t") with
  | some t => { status with time := Int32.ofInt (atoi t) }
  | none => status

/-- The members of an instance with such a table. -/
structure Table (α : Type) where
  topicStatus : UMap Str (TopicStatus α)
  subscribeTopics : List Topic

namespace Table
variable {α : Type}

/-- `topicStatus[type]`, where a new entry has `own`. -/
def status (s : Table α) (own : α) (type : Str) : TopicStatus α :=
  (s.topicStatus.find type).getD (.new own)

def set (s : Table α) (type : Str) (status : TopicStatus α) : Table α :=
  { s with topicStatus := s.topicStatus.insert type status }

/-- What is done with each entry of the table. -/
def map (f : TopicStatus α → TopicStatus α) (s : Table α) : Table α :=
  { s with topicStatus := s.topicStatus.mapVal (fun _ => f) }

/-- `UpdateData`, where data is for every topic that is open. -/
def updateData (update : α → α) : Table α → Table α :=
  map (fun status => if status.isOpen then { status with own := update status.own } else status)

/-- `Disable`. -/
def disable (s : Table α) : Table α × List (Effect AnalysisResultItem) :=
  ({ s with topicStatus := .empty }, [.free])

/-- What `Run` does for one topic: `Analysis` and `PublishData`. -/
def report (analysis : α → AnalysisResultItem) (now : ℤ) (type : Str) (status : TopicStatus α) :
    List (Effect AnalysisResultItem) :=
  if status.due now then [.write (analysis status.own), .publish (publishTopic type)] else []

/-- `Run`. -/
def run (analysis : α → AnalysisResultItem) (now : ℤ) (s : Table α) :
    Table α × List (Effect AnalysisResultItem) :=
  (s.map (fun status => if status.due now then status.reported else status),
    s.topicStatus.keys.flatMap
      (fun type => (s.topicStatus.find type).elim [] (report analysis now type)))

end Table

/-- An instance that keeps all it knows in such a table. `Env` is what its analysis reads from outside. -/
structure TableKind where
  Own : Type
  Env : Type
  Data : Type
  name : Str
  /-- What a new entry has. -/
  own : Own
  /-- What the constructor puts there. -/
  subscribeTopics : List Topic
  openTopic : Topic → ℤ → Table Own → Table Own × Result × List (Effect AnalysisResultItem)
  closeTopic : Topic → Table Own → Table Own × List (Effect AnalysisResultItem)
  update : Data → Own → Own
  analysis : Env → Own → AnalysisResultItem

/-- The instance; `UpdateData`, `Disable` and `Run` are the same for all of them. -/
@[reducible] def TableKind.toInstance (K : TableKind) : AnalysisInstance where
  State := Table K.Own
  Env := ℤ × K.Env
  Data := K.Data
  name := K.name
  init := ⟨.empty, K.subscribeTopics⟩
  openTopic topic env := K.openTopic topic env.1
  closeTopic := K.closeTopic
  updateData data := Table.updateData (K.update data)
  disable := Table.disable
  run env := Table.run (K.analysis env.2) env.1

end OeAware

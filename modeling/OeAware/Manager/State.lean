import Mathlib.Data.List.Sort
import OeAware.Common.Message
import OeAware.Schemes.Container

/-! @src src/plugin_mgr/plugin.h, memory_store.h, instance_run_handler.h | name:Instance,
    MemoryStore, ScheduleInstance, InstanceRunHandler | scheme:state-machine

    The state the scheduler thread and the plugin manager work on. Instances are shared objects: the
    store, the plugins and the schedule queue hold pointers to them, so an `Instance` lives in a
    heap and outlives its entry in the store. A plugin's own code is not part of the program; what
    the program does to it is the list of calls it makes on its `Interface`, and every answer a
    plugin gives is an argument of the step that asks for it. -/

namespace OeAware
open Schemes

/-- What a plugin's `Interface` object fixes for good when it is built. -/
structure Interface where
  name : Str
  supportTopics : List Topic
  priority : ℤ
  type : ℕ
  period : ℕ

def TUNE : ℕ := 0b10000
def SCENARIO : ℕ := 0b01000
def INSTANCE_RUN_ONCE : ℕ := 2

/-- `GetType() & bit`. -/
def Interface.is (i : Interface) (bit : ℕ) : Bool := i.type &&& bit != 0

/-- `std::shared_ptr<Instance>`. -/
abbrev InstancePtr := ℕ

structure Instance where
  name : Str
  pluginName : Str
  state : Bool
  enabled : Bool
  enableCnt : ℕ
  supportTopics : List Topic
  interface : Interface
  openTopics : USet Str

/-- A call the manager makes on an `Interface`, with the plugin's answer where there is one. -/
inductive IfaceCall where
  | enable (param : Str) (ret : Result)
  | disable
  | openTopic (topic : Topic) (ret : Result)
  | closeTopic (topic : Topic)
  | updateData (dataList : DataList)
  | run
  deriving DecidableEq

/-- A call on the interface of the instance at `ptr`, made when the clock showed `time`. -/
structure CallRecord where
  time : ℕ
  ptr : InstancePtr
  call : IfaceCall
  deriving DecidableEq

/-- `ScheduleInstance`: an instance and the time at which it is due. -/
structure ScheduleInstance where
  ptr : InstancePtr
  time : ℕ
  deriving DecidableEq

structure Plugin where
  name : Str
  instances : List InstancePtr

structure MemoryStore where
  instances : UMap Str InstancePtr
  plugins : UMap Str Plugin

/-- `topicState[i][t][p]` as one map on topics: the three levels are only ever extended together. -/
abbrev TopicState := UMap Topic Bool

structure State where
  /-- Every `Instance` object made so far; `next` is the first address not yet used. -/
  heap : InstancePtr → Instance
  next : ℕ
  memoryStore : MemoryStore
  /-- `std::priority_queue`, listed in the order in which it is popped. -/
  scheduleQueue : List ScheduleInstance
  topicState : TopicState
  subscibers : UMap Str (USet Str)
  topicRunOnce : List (Topic × Str)
  recvData : List Event
  time : ℕ
  cycle : ℕ
  /-- All calls made on interfaces so far, the latest first. -/
  calls : List CallRecord

/-- The calls of a history after which `topic` is open at the interface of `p`: the latest
    `OpenTopic`/`CloseTopic` call for it is an `OpenTopic` that did not fail. -/
def openIn (p : InstancePtr) (topic : Topic) : List CallRecord → Bool
  | [] => false
  | c :: cs =>
    match c.call with
    | .openTopic t ret => if c.ptr = p ∧ t = topic then !ret.failed else openIn p topic cs
    | .closeTopic t => if c.ptr = p ∧ t = topic then false else openIn p topic cs
    | _ => openIn p topic cs

/-- When `Run` was called on the interface of `p`, the latest time first. -/
def runsIn (p : InstancePtr) (cs : List CallRecord) : List ℕ :=
  (cs.filter (fun c => c.ptr = p ∧ c.call = .run)).map (·.time)

namespace State

/-- The handler before its first message, over an empty store. -/
def init : State where
  heap := fun _ => ⟨[], [], true, false, 0, [], ⟨[], [], 0, 0, 0⟩, .empty⟩
  next := 0
  memoryStore := ⟨.empty, .empty⟩
  scheduleQueue := []
  topicState := .empty
  subscibers := .empty
  topicRunOnce := []
  recvData := []
  time := 0
  cycle := 10
  calls := []

/-! ### Reading the state -/

/-- `memoryStore->GetInstance(name)`. -/
def getInstance (s : State) (name : Str) : Option InstancePtr := s.memoryStore.instances.find name

/-- `memoryStore->IsInstanceExist(name)`. -/
def isInstanceExist (s : State) (name : Str) : Bool := s.memoryStore.instances.count name

/-- `instance->enabled`. -/
def enabled (s : State) (p : InstancePtr) : Bool := (s.heap p).enabled

/-- `topicState[i][t][p]`, an absent entry reading as `false`. -/
def flag (s : State) (topic : Topic) : Bool := (s.topicState.find topic).getD false

/-- The subscribers of a type string, none when it has no entry. -/
def subs (s : State) (type : Str) : List Str :=
  match s.subscibers.find type with
  | some set => set.elems
  | none => []

/-- `topic` is open at the interface of `p`. -/
def openAt (s : State) (p : InstancePtr) (topic : Topic) : Bool := openIn p topic s.calls

/-- When `p` was run, the latest time first. -/
def runs (s : State) (p : InstancePtr) : List ℕ := runsIn p s.calls

def runOnce (s : State) (p : InstancePtr) : Bool := (s.heap p).interface.is INSTANCE_RUN_ONCE

def period (s : State) (p : InstancePtr) : ℕ := (s.heap p).interface.period

/-! ### Elementary updates -/

/-- Record a call on the interface of `p`. -/
def call (s : State) (p : InstancePtr) (c : IfaceCall) : State :=
  { s with calls := ⟨s.time, p, c⟩ :: s.calls }

/-- Update the `Instance` object at `p`. -/
def modify (s : State) (p : InstancePtr) (f : Instance → Instance) : State :=
  { s with heap := fun q => if q = p then f (s.heap q) else s.heap q }

/-- The entry that `operator[]` leaves when it is read. -/
def touch (s : State) (topic : Topic) : State :=
  { s with topicState := s.topicState.insertNew topic false }

/-- `topicState[i][t][p] = b`. -/
def setFlag (s : State) (topic : Topic) (b : Bool) : State :=
  { s with topicState := s.topicState.insert topic b }

/-- `ScheduleInstance::operator<`. -/
def lt (s : State) (a b : ScheduleInstance) : Prop :=
  a.time > b.time ∨ (a.time = b.time ∧
    (s.heap a.ptr).interface.priority > (s.heap b.ptr).interface.priority)

instance (s : State) (a b : ScheduleInstance) : Decidable (s.lt a b) :=
  inferInstanceAs (Decidable (_ ∨ _))

/-- `scheduleQueue.push(e)`: `e` goes in front of everything that is not popped before it. -/
def push (s : State) (e : ScheduleInstance) : State :=
  { s with scheduleQueue := s.scheduleQueue.orderedInsert (fun a b => ¬ s.lt a b) e }

/-- `subscibers[type].insert(subscriber)`. -/
def addSub (s : State) (type subscriber : Str) : State :=
  { s with subscibers :=
      s.subscibers.insert type (((s.subscibers.find type).getD .empty).insert subscriber) }

/-- The entry that reading `subscibers[type]` leaves. -/
def touchSubs (s : State) (type : Str) : State :=
  { s with subscibers := s.subscibers.insertNew type .empty }

/-- `subscibers[type].erase(subscriber)`, and the entry goes with its last subscriber. -/
def eraseSub (s : State) (type subscriber : Str) : State :=
  let set := ((s.subscibers.find type).getD .empty).erase subscriber
  { s with subscibers :=
      if set.elems.isEmpty then s.subscibers.erase type else s.subscibers.insert type set }

/-! ### `Instance` -/

/-- `Instance::OpenTopic`. -/
def openTopic (s : State) (p : InstancePtr) (topic : Topic) (ret : Result) : State :=
  let s := s.call p (.openTopic topic ret)
  if ret.code = some OK then
    s.modify p (fun i => { i with openTopics := i.openTopics.insert topic.getType })
  else s

/-- `Instance::CloseTopic`. -/
def closeTopic (s : State) (p : InstancePtr) (topic : Topic) : State :=
  (s.call p (.closeTopic topic)).modify p
    (fun i => { i with openTopics := i.openTopics.erase topic.getType })

/-- `Instance::Disable`: it leaves `openTopics` as it is. -/
def disable (s : State) (p : InstancePtr) : State :=
  ((s.heap p).openTopics.elems.foldl
    (fun s type => s.call p (.closeTopic (getTopicFromType type))) s).call p .disable

end State

end OeAware

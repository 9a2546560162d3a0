import Mathlib.Data.List.Dedup
import OeAware.Manager.State

/-! @src src/plugin_mgr/instance_run_handler.cpp | name:InstanceRunHandler | scheme:state-machine

    The scheduler thread: what it does for each message, and the tick that runs the instances that
    are due. A message that makes it follow a null `GetInstance` result has no next state, only the
    fault `nullInstance`; a `Schedule` that never leaves its loop has the fault `diverges`.

        recvQueue ──▶ HandleMessage ──▶ Schedule ──▶ AddTime ──▶ (again)
                      │ one message      │ due entries
                      ▼                  ▼
                 enable / disable /   Run, then requeue, drop or close
                 subscribe / publish  -/

namespace OeAware
open Schemes

/-- Why there is no next state. -/
inductive Fault where
  /-- A null `shared_ptr` is dereferenced. -/
  | nullInstance
  /-- The loop is never left. -/
  | diverges
  deriving DecidableEq

/-- What the plugins answer to the calls that one message may cause. -/
structure Answers where
  enable : Result
  openTopic : Result

/-- `InstanceRunMessage`. Subscriptions and published data name their topic by `GetType()` of a
    `Topic`; a `PUBLISH` carries what `DataListDeserialize` made of its payload. -/
inductive InstanceRunMessage where
  | ENABLED (name params : Str)
  | DISABLED (name : Str)
  | DISABLED_FORCE (name : Str)
  | SUBSCRIBE (topic : Topic) (subscriber : Str)
  | UNSUBSCRIBE (topic : Topic) (subscriber : Str)
  | UNSUBSCRIBE_SDK (sdkFd : Str)
  | PUBLISH_DATA (dataList : DataList)
  | PUBLISH (dataList : DataList)
  | SHUTDOWN

namespace State

/-! ### Enabling and disabling -/

/-- How long after it is enabled an instance is first due. -/
def firstDelay (i : Interface) : ℕ :=
  if i.is SCENARIO then i.period else if i.is TUNE then 2 * i.period else 0

/-- The part of `EnableInstance` after the plugin's `Enable` has succeeded. -/
def enableOk (s : State) (p : InstancePtr) : State :=
  (s.modify p (fun i => { i with enabled := true, enableCnt := i.enableCnt + 1 })).push
    ⟨p, s.time + firstDelay (s.heap p).interface⟩

/-- `EnableInstance`. -/
def enableInstance (s : State) (name params : Str) (ret : Result) : State × Result :=
  match s.getInstance name with
  | none => (s, ⟨some FAILED, str "instance \x7b" ++ name ++ str "\x7d does not exist."⟩)
  | some p =>
    let s := s.call p (.enable params ret)
    if ret.failed then (s, ret) else (s.enableOk p, ret)

/-- `CloseInstance`. -/
def closeInstance (s : State) (p : InstancePtr) : State :=
  (s.modify p (fun i => { i with enabled := false })).disable p

/-- `DisableInstance`. -/
def disableInstance (s : State) (name : Str) : State :=
  match s.getInstance name with
  | none => s
  | some p => (s.modify p (fun i => { i with enabled := false })).disable p

/-! ### Subscribing -/

/-- The end of `Subscribe`, once the topic is known to be open. -/
def subscribed (s : State) (p : InstancePtr) (topic : Topic) (type subscriber : Str) : State :=
  let s := s.addSub type subscriber
  if s.runOnce p then { s with topicRunOnce := s.topicRunOnce ++ [(topic, subscriber)] } else s

/-- The part of `Subscribe` after the instance has been found enabled or been enabled; `result` is
    what enabling it has left. -/
def subscribeTo (s : State) (p : InstancePtr) (type subscriber : Str) (ans : Answers)
    (result : Result) : State × Result :=
  let topic := getTopicFromType type
  let s := s.touch topic
  if s.flag topic then (s.subscribed p topic type subscriber, result)
  else
    let s := s.openTopic p topic ans.openTopic
    if ans.openTopic.failed then (s.disableInstance (s.heap p).name, ans.openTopic)
    else ((s.setFlag topic true).subscribed p topic type subscriber, ans.openTopic)

/-- `Subscribe`. -/
def subscribe (s : State) (type subscriber : Str) (ans : Answers) : State × Result :=
  let topic := getTopicFromType type
  match s.getInstance topic.instanceName with
  | none =>
    (s, ⟨some FAILED, str "instance \x7b" ++ topic.instanceName ++ str "\x7d does not exist."⟩)
  | some p =>
    if s.enabled p then s.subscribeTo p type subscriber ans .unset
    else
      let enabling := s.enableInstance (s.heap p).name topic.params ans.enable
      if enabling.2.failed then enabling
      else enabling.1.subscribeTo p type subscriber ans enabling.2

/-- The two inner loops of `UpdateInstance` over the topics of one instance; `cntTopic` counts the
    topics that are kept open. -/
def sweepTopics (s : State) : List Topic → ℕ → Except Fault (State × ℕ)
  | [], cntTopic => .ok (s, cntTopic)
  | topic :: topics, cntTopic =>
    if s.flag topic then
      if s.subscibers.count topic.getType then sweepTopics s topics (cntTopic + 1)
      else
        match s.getInstance topic.instanceName with
        | none => .error .nullInstance
        | some p => sweepTopics ((s.closeTopic p topic).setFlag topic false) topics cntTopic
    else sweepTopics s topics cntTopic

/-- One round of the outer loop of `UpdateInstance`. -/
def sweepInstance (s : State) (name : Str) : Except Fault State :=
  match s.sweepTopics (s.topicState.keys.filter (fun t => t.instanceName = name)) 0 with
  | .error e => .error e
  | .ok (s, cntTopic) =>
    if cntTopic = 0 then
      match s.getInstance name with
      | none => .error .nullInstance
      | some p => if s.enabled p then .ok (s.disableInstance name) else .ok s
    else .ok s

/-- The outer loop of `UpdateInstance` over the given instance names. -/
def sweep (s : State) : List Str → Except Fault State
  | [] => .ok s
  | name :: names =>
    match s.sweepInstance name with
    | .error e => .error e
    | .ok s => sweep s names

/-- `UpdateInstance`: every instance that has a key in `topicState` is looked at. -/
def updateInstance (s : State) : Except Fault State :=
  s.sweep (s.topicState.keys.map (·.instanceName)).dedup

/-- `Unsubscribe`. -/
def unsubscribe (s : State) (type subscriber : Str) : Except Fault State :=
  (s.eraseSub type subscriber).updateInstance

/-- The loop of `UnsubscribeSdk` over the types not yet visited. An erased entry is the current one,
    so the order of the others stands; a type that keeps other subscribers is looked at once more
    and passed over. -/
def unsubscribeLoop (s : State) (sdkFd : Str) : List Str → Except Fault State
  | [] => .ok s
  | type :: types =>
    if sdkFd ∈ s.subs type then
      match (s.eraseSub type sdkFd).updateInstance with
      | .error e => .error e
      | .ok s => unsubscribeLoop s sdkFd types
    else unsubscribeLoop s sdkFd types

/-- `UnsubscribeSdk`. -/
def unsubscribeSdk (s : State) (sdkFd : Str) : Except Fault State :=
  s.unsubscribeLoop sdkFd s.subscibers.keys

/-! ### Publishing -/

/-- The part of `Publish` after the instance has been found enabled or been enabled. -/
def publishTo (s : State) (p : InstancePtr) (topic : Topic) (ans : Answers) : State × Result :=
  if topic.topicName ≠ [] then
    let s := s.openTopic p topic ans.openTopic
    if ans.openTopic.failed then (s, ans.openTopic) else (s, ⟨some OK, []⟩)
  else (s, ⟨some OK, []⟩)

/-- The topic is named and is none of those the instance supports. -/
def unsupported (s : State) (p : InstancePtr) (topic : Topic) : Bool :=
  topic.topicName ≠ [] ∧ ¬ ∃ t ∈ (s.heap p).supportTopics, t.topicName = topic.topicName

/-- `Publish`, on the decoded `DataList`. -/
def publish (s : State) (dataList : DataList) (ans : Answers) : State × Result :=
  let topic := dataList.topic
  match s.getInstance topic.instanceName with
  | none => (s, ⟨some FAILED, str "instance " ++ topic.instanceName ++ str " is not exist."⟩)
  | some p =>
    if s.unsupported p topic then
      (s, ⟨some FAILED, str "topic " ++ topic.topicName ++ str " is not exist."⟩)
    else
      let s := s.call p (.updateData dataList)
      if s.enabled p then s.publishTo p topic ans
      else
        let enabling := s.enableInstance topic.instanceName [] ans.enable
        if enabling.2.failed then enabling else enabling.1.publishTo p topic ans

/-- `std::any_of(subscriber.begin(), subscriber.end(), ::isdigit)`. -/
def isSdk (subscriber : Str) : Bool := subscriber.any (fun c => 48 ≤ c ∧ c ≤ 57)

/-- The loop of `PublishData`. -/
def deliver (s : State) (dataList : DataList) : List Str → Except Fault State
  | [] => .ok s
  | subscriber :: rest =>
    if isSdk subscriber then
      deliver { s with recvData := s.recvData ++
        [⟨Opt.DATA.toInt, .EXTERNAL, [subscriber, dataList.serialize]⟩] } dataList rest
    else
      match s.getInstance subscriber with
      | none => .error .nullInstance
      | some p => deliver (s.call p (.updateData dataList)) dataList rest

/-- `PublishData`: reading `subscibers[type]` leaves an empty entry where there was none. -/
def publishData (s : State) (dataList : DataList) : Except Fault State :=
  (s.touchSubs dataList.topic.getType).deliver dataList
    ((s.touchSubs dataList.topic.getType).subs dataList.topic.getType)

/-! ### Messages and ticks -/

/-- The switch of `HandleMessage`: the state afterwards and `msg->result`. -/
def handle (s : State) (msg : InstanceRunMessage) (ans : Answers) : Except Fault (State × Result) :=
  match msg with
  | .ENABLED name params => .ok (s.enableInstance name params ans.enable)
  | .DISABLED name => .ok (s.disableInstance name, .unset)
  | .DISABLED_FORCE name => .ok (s.disableInstance name, .unset)
  | .SUBSCRIBE topic subscriber => .ok (s.subscribe topic.getType subscriber ans)
  | .UNSUBSCRIBE topic subscriber => (s.unsubscribe topic.getType subscriber).map (·, .unset)
  | .UNSUBSCRIBE_SDK sdkFd => (s.unsubscribeSdk sdkFd).map (·, .unset)
  | .PUBLISH_DATA dataList => (s.publishData dataList).map (·, .unset)
  | .PUBLISH dataList => .ok (s.publish dataList ans)
  | .SHUTDOWN => .ok (s, .unset)

/-- `HandleMessage` on the messages that are waiting; `false` tells `Start` to stop. -/
def handleMessage (s : State) : List (InstanceRunMessage × Answers) → Except Fault (State × Bool)
  | [] => .ok (s, true)
  | (.SHUTDOWN, _) :: _ => .ok (s, false)
  | (msg, ans) :: rest =>
    match s.handle msg ans with
    | .error e => .error e
    | .ok (s, _) => handleMessage s rest

/-- One round of the loop of `Schedule`; `none` is `break`. -/
def scheduleOne (s : State) : Option State :=
  match s.scheduleQueue with
  | [] => none
  | e :: rest =>
    if e.time ≠ s.time then none
    else
      let s := { s with scheduleQueue := rest }
      if s.enabled e.ptr then
        let s := s.call e.ptr .run
        if s.runOnce e.ptr then some (s.closeInstance e.ptr)
        else some (s.push ⟨e.ptr, e.time + s.period e.ptr⟩)
      else some s

def scheduleLoop : ℕ → State → Except Fault State
  | 0, _ => .error .diverges
  | fuel + 1, s =>
    match s.scheduleOne with
    | none => .ok s
    | some s => scheduleLoop fuel s

/-- `Schedule`. A round pops one due entry and, the period being positive, pushes none that is due,
    so a loop that ends has ended after as many rounds as there are entries. -/
def schedule (s : State) : Except Fault State := scheduleLoop (s.scheduleQueue.length + 1) s

/-- `AddTime(GetCycle())`. -/
def addTime (s : State) : State := { s with time := s.time + s.cycle }

/-- One round of the loop of `Start` with the messages then waiting; `false` ends the thread. -/
def start (s : State) (msgs : List (InstanceRunMessage × Answers)) : Except Fault (State × Bool) :=
  match s.handleMessage msgs with
  | .error e => .error e
  | .ok (s, false) => .ok (s, false)
  | .ok (s, true) => (s.schedule).map (fun s => (s.addTime, true))

end State

end OeAware

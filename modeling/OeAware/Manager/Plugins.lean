import OeAware.Manager.Handler
import OeAware.Schemes.Run

/-! @src src/plugin_mgr/event/load_handler.cpp, remove_handler.cpp, plugin.cpp |
    name:LoadHandler, RemoveHandler | scheme:state-machine

    The plugin manager's side of the store, and the whole machine: its actions are the messages and
    ticks of the scheduler thread, the `LOAD` and `REMOVE` events of the manager thread, and
    `reorder`, by which the hash containers and the ties of the priority queue take any order they
    like. `Reach` is what the machine can reach from the empty handler. -/

namespace OeAware
open Schemes

inductive ErrorCode where
  | ENABLE_INSTANCE_NOT_LOAD
  | ENABLE_INSTANCE_UNAVAILABLE
  | ENABLE_INSTANCE_ALREADY_ENABLED
  | ENABLE_INSTANCE_ENV
  | DISABLE_INSTANCE_NOT_LOAD
  | DISABLE_INSTANCE_UNAVAILABLE
  | DISABLE_INSTANCE_ALREADY_DISABLED
  | REMOVE_PLUGIN_NOT_EXIST
  | REMOVE_INSTANCE_IS_RUNNING
  | REMOVE_INSTANCE_HAVE_DEP
  | LOAD_PLUGIN_FILE_NOT_EXIST
  | LOAD_PLUGIN_FILE_PERMISSION_DEFINED
  | LOAD_PLUGIN_FILE_IS_NOT_SO
  | LOAD_PLUGIN_EXIST
  | LOAD_PLUGIN_DLOPEN_FAILED
  | LOAD_PLUGIN_DLSYM_FAILED
  | QUERY_PLUGIN_NOT_EXIST
  | QUERY_DEP_NOT_EXIST
  | DOWNLOAD_NOT_FOUND
  | OK
  deriving DecidableEq

/-- What the file system and the dynamic linker say about a plugin file; `interfaceList` is what its
    `GetInstance` reports, or `none` when `dlopen` or `dlsym` fails. -/
structure PluginFile where
  fileExist : Bool
  checkPermission : Bool
  interfaceList : Option (List Interface)

/-- `EndWith`. -/
def endWith (s ending : Str) : Bool := ending.isSuffixOf s

namespace State

/-- `SaveInstance`: the object made for one interface. -/
def newInstance (pluginName : Str) (i : Interface) : Instance where
  name := i.name
  pluginName := pluginName
  state := true
  enabled := false
  enableCnt := 0
  supportTopics := i.supportTopics
  interface := i
  openTopics := .empty

/-- `Plugin::Load`: fresh objects for the interfaces of a plugin, from address `next` on. -/
def allocate (s : State) (pluginName : Str) (interfaces : List Interface) : State :=
  { s with
    heap := fun q =>
      match interfaces[q - s.next]? with
      | some i => if s.next ≤ q then newInstance pluginName i else s.heap q
      | none => s.heap q
    next := s.next + interfaces.length }

/-- `AddInstance`. -/
def addInstance (s : State) (p : InstancePtr) : State :=
  { s with memoryStore :=
    { s.memoryStore with instances := s.memoryStore.instances.insertNew (s.heap p).name p } }

/-- `AddPlugin`. -/
def addPlugin (s : State) (name : Str) (plugin : Plugin) : State :=
  { s with memoryStore :=
    { s.memoryStore with plugins := s.memoryStore.plugins.insertNew name plugin } }

/-- `LoadHandler::LoadPlugin`. -/
def loadPlugin (s : State) (name : Str) (file : PluginFile) : State × ErrorCode :=
  if !file.fileExist then (s, .LOAD_PLUGIN_FILE_NOT_EXIST)
  else if !endWith name (str ".so") then (s, .LOAD_PLUGIN_FILE_IS_NOT_SO)
  else if !file.checkPermission then (s, .LOAD_PLUGIN_FILE_PERMISSION_DEFINED)
  else if s.memoryStore.plugins.count name then (s, .LOAD_PLUGIN_EXIST)
  else
    match file.interfaceList with
    | none => (s, .LOAD_PLUGIN_DLOPEN_FAILED)
    | some interfaces =>
      let ptrs := List.range' s.next interfaces.length
      (ptrs.foldl addInstance ((s.allocate name interfaces).addPlugin name ⟨name, ptrs⟩), .OK)

/-- `DeleteInstance`. -/
def deleteInstance (s : State) (name : Str) : State :=
  { s with memoryStore :=
    { s.memoryStore with instances := s.memoryStore.instances.erase name } }

/-- `DeletePlugin`. -/
def deletePlugin (s : State) (name : Str) : State :=
  { s with memoryStore := { s.memoryStore with plugins := s.memoryStore.plugins.erase name } }

/-- The names of a plugin's instances. -/
def instanceNames (s : State) (plugin : Plugin) : List Str :=
  plugin.instances.map (fun p => (s.heap p).name)

/-- `RemoveHandler::Remove`. -/
def remove (s : State) (name : Str) : State × ErrorCode :=
  match s.memoryStore.plugins.find name with
  | none => (s, .REMOVE_PLUGIN_NOT_EXIST)
  | some plugin =>
    if plugin.instances.any s.enabled then (s, .REMOVE_INSTANCE_IS_RUNNING)
    else (((s.instanceNames plugin).foldl deleteInstance s).deletePlugin name, .OK)

end State

/-- An order for every container whose order the library leaves open. -/
structure Order where
  scheduleQueue : List ScheduleInstance
  topicState : List Topic
  subscibers : List Str
  subscribersOf : Str → List Str
  openTopics : InstancePtr → List Str

/-- The same state with its containers in another order: hash containers in any, the priority queue
    in any that `operator<` allows. -/
def State.reorder (s : State) (o : Order) : State :=
  { s with
    heap := fun q =>
      { s.heap q with openTopics := (s.heap q).openTopics.reorder (o.openTopics q) }
    scheduleQueue :=
      if o.scheduleQueue.Perm s.scheduleQueue ∧
          o.scheduleQueue.Pairwise (fun a b => ¬ s.lt a b) then o.scheduleQueue
      else s.scheduleQueue
    topicState := s.topicState.reorder o.topicState
    subscibers := (s.subscibers.mapVal
      (fun type set => set.reorder (o.subscribersOf type))).reorder o.subscibers }

/-- What can happen next. -/
inductive Action where
  | message (msg : InstanceRunMessage) (ans : Answers)
  /-- The end of one round of `Start`: `Schedule`, then `AddTime`. -/
  | tick
  | load (name : Str) (file : PluginFile)
  | remove (name : Str)
  | reorder (o : Order)

def step (s : State) : Action → Except Fault State
  | .message msg ans => (s.handle msg ans).map (·.1)
  | .tick => s.schedule.map State.addTime
  | .load name file => .ok (s.loadPlugin name file).1
  | .remove name => .ok (s.remove name).1
  | .reorder o => .ok (s.reorder o)

/-- Reached from the empty handler by steps that all meet `ok`. -/
abbrev RunsOf (ok : State → Action → Prop) : State → Prop := Runs step State.init ok

/-- Reached from the empty handler. -/
abbrev Reach : State → Prop := RunsOf (fun _ _ => True)

end OeAware

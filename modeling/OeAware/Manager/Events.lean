import OeAware.Common.Register
import OeAware.Manager.Plugins
import OeAware.Protocol.Server

/-! @src src/plugin_mgr/event/*_handler.cpp, plugin_manager.cpp | name:PluginManager::Run, Handler

    The manager thread. `Run` takes an event, looks up its handler and calls it. A handler answers at
    once, or sends the scheduler thread a message, waits until that is handled and answers with what
    became of it.

        recvMessage ──▶ eventHandler[opt] ──▶ reply ───────────────────▶ sendMessage
                                   ╰────────▶ send ──▶ recvQueue ──▶ msg->result ──╯ -/

namespace OeAware
open Schemes

/-- `ErrorText::GetErrorText`. -/
def getErrorText : ErrorCode → Str
  | .ENABLE_INSTANCE_NOT_LOAD => str "instance is not loaded"
  | .ENABLE_INSTANCE_UNAVAILABLE => str "instance is unavailable"
  | .ENABLE_INSTANCE_ALREADY_ENABLED => str "instance is already enabled"
  | .ENABLE_INSTANCE_ENV => str "instance init environment failed"
  | .DISABLE_INSTANCE_NOT_LOAD => str "instance is not loaded"
  | .DISABLE_INSTANCE_UNAVAILABLE => str "instance is unavailable"
  | .DISABLE_INSTANCE_ALREADY_DISABLED => str "instance is already disabled"
  | .REMOVE_PLUGIN_NOT_EXIST => str "plugin does not exist"
  | .REMOVE_INSTANCE_IS_RUNNING => str "instance is running"
  | .REMOVE_INSTANCE_HAVE_DEP => str "instance with pre-dependency"
  | .LOAD_PLUGIN_FILE_NOT_EXIST => str "plugin file does not exist"
  | .LOAD_PLUGIN_FILE_IS_NOT_SO => str "file is not a plugin file"
  | .LOAD_PLUGIN_FILE_PERMISSION_DEFINED =>
    str "plugin file permission is not the specified permission"
  | .LOAD_PLUGIN_EXIST => str "plugin already loaded"
  | .LOAD_PLUGIN_DLOPEN_FAILED => str "plugin dlopen failed"
  | .LOAD_PLUGIN_DLSYM_FAILED => str "plugin dlsym failed"
  | .QUERY_PLUGIN_NOT_EXIST => str "plugin does not exist"
  | .QUERY_DEP_NOT_EXIST => str "instance does not exist"
  | .DOWNLOAD_NOT_FOUND => str "unable to find a match"
  | .OK => str "unknown error."

/-- What the manager thread is given from outside: the file system, the configuration and the
    contents of members that no constructor initialises. -/
structure Outside where
  file : PluginFile
  /-- The text of `ListHandler::AddList`. -/
  pluginList : Str
  /-- The text of `InfoCmdHandler::AddList`, when its file can be read. -/
  infoCmd : Option Str
  /-- `config->GetPluginInfo(name).GetUrl()`, when there is such a plugin. -/
  pluginUrl : Str → Option Str
  /-- The text with which `ReloadConfHandler` succeeds or fails. -/
  reload : Except Str Str
  /-- `EventResult::opt` after `EventResult()`. -/
  opt : UInt32
  /-- `Result::code` after `Result()`. -/
  code : UInt32

/-- A message as it lies in `recvQueue`; `PublishHandler` passes its payload on undecoded. -/
inductive RunMessage where
  | run (msg : InstanceRunMessage)
  | publish (payload : List Str)

/-- What a handler makes of `msg->result`. -/
inductive Reply where
  /-- `EnableHandler`: `RESPONSE_OK`, or `RESPONSE_ERROR` with a text. -/
  | enabled
  /-- `DisableHandler`: `RESPONSE_OK`. -/
  | disabled
  /-- The result itself, encoded. -/
  | encoded (opt : Opt)
  /-- Nothing: the `EventResult` goes back as it was built. -/
  | blank
  deriving DecidableEq

/-- What a handler does with an event. -/
inductive Handling where
  | reply (s : State) (res : EventResult)
  | send (msg : RunMessage) (reply : Reply)
  /-- An exception leaves the handler. -/
  | throws

/-- `Encode(result)`. -/
def Result.encode (junk : UInt32) (r : Result) : Str :=
  serInt (match r.code with
    | some code => UInt32.ofInt code
    | none => junk) ++ serStr r.payload

def errorResult (code : ErrorCode) : EventResult := ⟨Opt.RESPONSE_ERROR.toInt, [getErrorText code]⟩

def eventError (text : String) : EventResult := ⟨Opt.RESPONSE_ERROR.toInt, [str text]⟩

/-- The answer to an event whose handler ends with a code. -/
def codeResult : ErrorCode → EventResult
  | .OK => ⟨Opt.RESPONSE_OK.toInt, []⟩
  | code => errorResult code

/-- The end of a handler that waited for its message. -/
def Reply.finish (out : Outside) (r : Result) : Reply → EventResult
  | .enabled =>
    if r.failed then
      ⟨Opt.RESPONSE_ERROR.toInt,
        [if r.payload.isEmpty then getErrorText .ENABLE_INSTANCE_ENV else r.payload]⟩
    else ⟨Opt.RESPONSE_OK.toInt, []⟩
  | .disabled => ⟨Opt.RESPONSE_OK.toInt, []⟩
  | .encoded opt => ⟨opt.toInt, [r.encode out.code]⟩
  | .blank => ⟨out.opt, []⟩

namespace State
variable (s : State)

/-! ### The handlers -/

/-- `LoadHandler::Handle`. -/
def loadHandler (out : Outside) : List Str → Handling
  | [] => .reply s (eventError "load event error")
  | name :: _ => .reply (s.loadPlugin name out.file).1 (codeResult (s.loadPlugin name out.file).2)

/-- `RemoveHandler::Handle`. -/
def removeHandler : List Str → Handling
  | [] => .reply s (eventError "remove event error")
  | name :: _ => .reply (s.remove name).1 (codeResult (s.remove name).2)

/-- `Instance::GetInfo`. -/
def getInfo (p : InstancePtr) : Str :=
  let i := s.heap p
  i.name ++ str "(" ++ str (if i.state then "available" else "unavailable") ++ str ", " ++
    str (if i.enabled then "running" else "close") ++ str ", count: " ++ toStr i.enableCnt ++ str ")"

/-- The lines that `QueryHandler` writes for a plugin. -/
def queryText (plugin : Plugin) : Str :=
  plugin.name ++ str "\n" ++
    (plugin.instances.map (fun p => str "\t" ++ s.getInfo p ++ str "\n")).flatten

/-- `GetAllPlugins`. -/
def getAllPlugins : List Plugin :=
  s.memoryStore.plugins.keys.filterMap s.memoryStore.plugins.find

/-- `QueryHandler::Handle` for `QUERY_ALL`. -/
def queryAllHandler : Handling :=
  .reply s ⟨Opt.RESPONSE_OK.toInt, [(s.getAllPlugins.map s.queryText).flatten]⟩

/-- `QueryHandler::Handle` for `QUERY`. -/
def queryHandler : List Str → Handling
  | [] => .reply s (eventError "query event error")
  | name :: _ =>
    match s.memoryStore.plugins.find name with
    | none => .reply s (errorResult .QUERY_PLUGIN_NOT_EXIST)
    | some plugin => .reply s ⟨Opt.RESPONSE_OK.toInt, [s.queryText plugin]⟩

/-- `QuerySubGraph`: the types that `name` subscribes to. -/
def querySubGraph (name : Str) : List (Str × Str) :=
  if s.isInstanceExist name then
    (s.subscibers.keys.filter (fun type => name ∈ s.subs type)).map (fun type => (name, type))
  else []

/-- `GenerateDot`. -/
def generateDot (graph : List (Str × Str)) : Str :=
  str "digraph G \x7b\n    rankdir = TB\n    ranksep = 1\n" ++
    (graph.map (fun e => str "    " ++ e.1 ++ str "->\"" ++ e.2 ++ str "\";\n")).flatten ++
    str "\x7d"

/-- `QuerySubscribeGraphHandler::Handle` for `QUERY_ALL_SUB_GRAPH`. -/
def queryAllSubGraphHandler : Handling :=
  .reply s ⟨Opt.RESPONSE_OK.toInt, [generateDot
    ((s.getAllPlugins.map (fun plugin =>
      ((s.instanceNames plugin).map s.querySubGraph).flatten)).flatten)]⟩

/-- `QuerySubscribeGraphHandler::Handle` for `QUERY_SUB_GRAPH`. -/
def querySubGraphHandler : List Str → Handling
  | [] => .reply s (eventError "query subscribe graph event error")
  | name :: _ =>
    if s.isInstanceExist name then
      .reply s ⟨Opt.RESPONSE_OK.toInt, [generateDot (s.querySubGraph name)]⟩
    else .reply s (errorResult .QUERY_DEP_NOT_EXIST)

/-- `EnableHandler::Handle`, up to the message it waits for. -/
def enableHandler : List Str → Handling
  | [] => .reply s (eventError "enable event error")
  | name :: rest =>
    match s.getInstance name with
    | none => .reply s (errorResult .ENABLE_INSTANCE_NOT_LOAD)
    | some p =>
      if !(s.heap p).state then .reply s (errorResult .ENABLE_INSTANCE_UNAVAILABLE)
      else if s.enabled p then .reply s (errorResult .ENABLE_INSTANCE_ALREADY_ENABLED)
      else .send (.run (.ENABLED (s.heap p).name (rest.headD []))) .enabled

/-- `DisableHandler::Handle`, up to the message it waits for. -/
def disableHandler : List Str → Handling
  | [] => .reply s (eventError "disable event error")
  | name :: _ =>
    match s.getInstance name with
    | none => .reply s (errorResult .DISABLE_INSTANCE_NOT_LOAD)
    | some p =>
      if !(s.heap p).state then .reply s (errorResult .DISABLE_INSTANCE_UNAVAILABLE)
      else if !s.enabled p then .reply s (errorResult .DISABLE_INSTANCE_ALREADY_DISABLED)
      else .send (.run (.DISABLED (s.heap p).name)) .disabled

/-- The `Result` with which `SubscribeHandler::Subscribe` rejects a topic; `none` when it does not. -/
def subscribeRejects (topic : Topic) : Option Result :=
  match s.getInstance topic.instanceName with
  | none => some ⟨some FAILED, str "instance does not exist."⟩
  | some p =>
    if (s.heap p).supportTopics.any (fun t => t.topicName = topic.topicName) then none
    else some ⟨some FAILED, str "topic does not exist."⟩

/-- `SubscribeHandler::Handle`, up to the message it waits for. -/
def subscribeHandler (out : Outside) : List Str → Handling
  | [bytes, name] =>
    match Topic.deserialize ⟨bytes, true⟩ with
    | none => .throws
    | some (topic, _) =>
      match s.subscribeRejects topic with
      | some r => .reply s ⟨Opt.SUBSCRIBE.toInt, [r.encode out.code]⟩
      | none => .send (.run (.SUBSCRIBE topic name)) (.encoded .SUBSCRIBE)
  | _ => .reply s (eventError "subscribe event error")

/-- `UnsubscribeHandler::Handle`, up to the message it waits for. -/
def unsubscribeHandler : List Str → Handling
  | [sdkFd] => .send (.run (.UNSUBSCRIBE_SDK sdkFd)) .blank
  | [bytes, name] =>
    match Topic.deserialize ⟨bytes, true⟩ with
    | none => .throws
    | some (topic, _) => .send (.run (.UNSUBSCRIBE topic name)) (.encoded .UNSUBSCRIBE)
  | _ => .reply s (eventError "unsubscribe event error")

/-- `PublishHandler::Handle`, up to the message it waits for. -/
def publishHandler (payload : List Str) : Handling :=
  .send (.publish payload) (.encoded .PUBLISH)

/-- `DownloadHandler::Handle`. -/
def downloadHandler (out : Outside) : List Str → Handling
  | [] => .reply s (eventError "download event error")
  | name :: _ =>
    match out.pluginUrl name with
    | none => .reply s (errorResult .DOWNLOAD_NOT_FOUND)
    | some url => .reply s ⟨Opt.RESPONSE_OK.toInt, [url]⟩

/-- `InfoCmdHandler::Handle`. -/
def infoHandler (out : Outside) : Handling :=
  match out.infoCmd with
  | none => .reply s (errorResult .LOAD_PLUGIN_FILE_NOT_EXIST)
  | some text => .reply s ⟨Opt.RESPONSE_OK.toInt, [text]⟩

/-- `ReloadConfHandler::Handle`. -/
def reloadConfHandler (out : Outside) : Handling :=
  match out.reload with
  | .error text => .reply s ⟨Opt.RESPONSE_ERROR.toInt, [text]⟩
  | .ok text => .reply s ⟨Opt.RESPONSE_OK.toInt, [text]⟩

end State

/-! ### Dispatch -/

/-- The enumerator with a given value, if there is one. -/
def Opt.ofInt (n : UInt32) : Option Opt :=
  [Opt.LOAD, .ENABLED, .DISABLED, .REMOVE, .QUERY, .QUERY_ALL, .QUERY_SUB_GRAPH,
    .QUERY_ALL_SUB_GRAPH, .LIST, .INFO, .DOWNLOAD, .SUBSCRIBE, .UNSUBSCRIBE, .PUBLISH, .DATA,
    .RESPONSE_OK, .RESPONSE_ERROR, .SHUTDOWN, .RELOAD_CONF].find? (fun o => o.toInt = n)

/-- `eventHandler[opt]->Handle(event)`, as `InitEventHandler` fills the table; `none` where the table
    has no entry and `operator[]` makes a null one. -/
def State.eventHandler (s : State) (out : Outside) (payload : List Str) : Opt → Option Handling
  | .LOAD => some (s.loadHandler out payload)
  | .REMOVE => some (s.removeHandler payload)
  | .QUERY_ALL => some s.queryAllHandler
  | .QUERY => some (s.queryHandler payload)
  | .QUERY_SUB_GRAPH => some (s.querySubGraphHandler payload)
  | .QUERY_ALL_SUB_GRAPH => some s.queryAllSubGraphHandler
  | .ENABLED => some (s.enableHandler payload)
  | .DISABLED => some (s.disableHandler payload)
  | .LIST => some (.reply s ⟨Opt.RESPONSE_OK.toInt, [out.pluginList]⟩)
  | .INFO => some (s.infoHandler out)
  | .DOWNLOAD => some (s.downloadHandler out payload)
  | .SUBSCRIBE => some (s.subscribeHandler out payload)
  | .UNSUBSCRIBE => some (s.unsubscribeHandler payload)
  | .PUBLISH => some (State.publishHandler payload)
  | .RELOAD_CONF => some (s.reloadConfHandler out)
  | .DATA | .RESPONSE_OK | .RESPONSE_ERROR | .SHUTDOWN => none

/-- The handler of an event's opt, whatever integer that is. -/
def State.dispatch (s : State) (out : Outside) (event : Event) : Option Handling :=
  (Opt.ofInt event.opt).bind (s.eventHandler out event.payload)

/-- The opts with an entry in `eventHandler`. -/
def Opt.handled : Opt → Bool
  | .DATA | .RESPONSE_OK | .RESPONSE_ERROR | .SHUTDOWN => false
  | _ => true

theorem eventHandler_isSome (s : State) (out : Outside) (payload : List Str) (o : Opt) :
    (s.eventHandler out payload o).isSome = o.handled := by
  cases o <;> rfl

theorem ofInt_toInt (o : Opt) : Opt.ofInt o.toInt = some o := by cases o <;> decide

theorem ofInt_eq {n : UInt32} {o : Opt} (h : Opt.ofInt n = some o) : o.toInt = n := by
  have := List.find?_some h
  simpa using this

/-! ### What a handler leaves alone -/

/-- A handler that answers at once has left the state alone. -/
def Handling.Keeps (s : State) : Handling → Prop
  | .reply s' _ => s' = s
  | _ => True

theorem keeps_queryHandler (s : State) (payload : List Str) : (s.queryHandler payload).Keeps s := by
  unfold State.queryHandler
  split
  · rfl
  · split <;> rfl

theorem keeps_querySubGraphHandler (s : State) (payload : List Str) :
    (s.querySubGraphHandler payload).Keeps s := by
  unfold State.querySubGraphHandler
  split
  · rfl
  · split <;> rfl

theorem keeps_enableHandler (s : State) (payload : List Str) :
    (s.enableHandler payload).Keeps s := by
  unfold State.enableHandler
  split
  · rfl
  · split
    · rfl
    · split
      · rfl
      · split
        · rfl
        · trivial

theorem keeps_disableHandler (s : State) (payload : List Str) :
    (s.disableHandler payload).Keeps s := by
  unfold State.disableHandler
  split
  · rfl
  · split
    · rfl
    · split
      · rfl
      · split
        · rfl
        · trivial

theorem keeps_subscribeHandler (s : State) (out : Outside) (payload : List Str) :
    (s.subscribeHandler out payload).Keeps s := by
  unfold State.subscribeHandler
  split
  · split
    · trivial
    · split
      · rfl
      · trivial
  · rfl

theorem keeps_unsubscribeHandler (s : State) (payload : List Str) :
    (s.unsubscribeHandler payload).Keeps s := by
  unfold State.unsubscribeHandler
  split
  · trivial
  · split <;> trivial
  · rfl

theorem keeps_downloadHandler (s : State) (out : Outside) (payload : List Str) :
    (s.downloadHandler out payload).Keeps s := by
  unfold State.downloadHandler
  split
  · rfl
  · split <;> rfl

theorem keeps_infoHandler (s : State) (out : Outside) : (s.infoHandler out).Keeps s := by
  unfold State.infoHandler
  split <;> rfl

theorem keeps_reloadConfHandler (s : State) (out : Outside) :
    (s.reloadConfHandler out).Keeps s := by
  unfold State.reloadConfHandler
  split <;> rfl

/-- Only `LOAD` and `REMOVE` with a name to work on touch the store. -/
theorem keeps_eventHandler {s : State} {out : Outside} {payload : List Str} {o : Opt} {h : Handling}
    (hh : s.eventHandler out payload o = some h)
    (hl : ∀ name rest, payload = name :: rest → o ≠ .LOAD ∧ o ≠ .REMOVE) : h.Keeps s := by
  cases o with
  | LOAD =>
    cases hh
    cases payload with
    | nil => rfl
    | cons name rest => exact absurd rfl (hl name rest rfl).1
  | REMOVE =>
    cases hh
    cases payload with
    | nil => rfl
    | cons name rest => exact absurd rfl (hl name rest rfl).2
  | QUERY_ALL => cases hh; rfl
  | QUERY => cases hh; exact keeps_queryHandler s payload
  | QUERY_SUB_GRAPH => cases hh; exact keeps_querySubGraphHandler s payload
  | QUERY_ALL_SUB_GRAPH => cases hh; rfl
  | ENABLED => cases hh; exact keeps_enableHandler s payload
  | DISABLED => cases hh; exact keeps_disableHandler s payload
  | LIST => cases hh; rfl
  | INFO => cases hh; exact keeps_infoHandler s out
  | DOWNLOAD => cases hh; exact keeps_downloadHandler s out payload
  | SUBSCRIBE => cases hh; exact keeps_subscribeHandler s out payload
  | UNSUBSCRIBE => cases hh; exact keeps_unsubscribeHandler s payload
  | PUBLISH => cases hh; trivial
  | RELOAD_CONF => cases hh; exact keeps_reloadConfHandler s out
  | DATA | RESPONSE_OK | RESPONSE_ERROR | SHUTDOWN => cases hh

/-! ### What a handler sends -/

/-- Every message that a handler can send for a payload, with what it makes of the result. -/
inductive Sends (s : State) : List Str → Opt → RunMessage → Reply → Prop
  | enabled (name : Str) (rest : List Str) (p : InstancePtr) : s.getInstance name = some p →
      s.enabled p = false →
      Sends s (name :: rest) .ENABLED (.run (.ENABLED (s.heap p).name (rest.headD []))) .enabled
  | disabled (name : Str) (rest : List Str) (p : InstancePtr) : s.getInstance name = some p →
      s.enabled p = true →
      Sends s (name :: rest) .DISABLED (.run (.DISABLED (s.heap p).name)) .disabled
  | subscribe (bytes x : Str) (topic : Topic) (rest : InStream) :
      Topic.deserialize ⟨bytes, true⟩ = some (topic, rest) → s.subscribeRejects topic = none →
      Sends s [bytes, x] .SUBSCRIBE (.run (.SUBSCRIBE topic x)) (.encoded .SUBSCRIBE)
  | unsubscribeSdk (x : Str) : Sends s [x] .UNSUBSCRIBE (.run (.UNSUBSCRIBE_SDK x)) .blank
  | unsubscribe (bytes x : Str) (topic : Topic) (rest : InStream) :
      Topic.deserialize ⟨bytes, true⟩ = some (topic, rest) →
      Sends s [bytes, x] .UNSUBSCRIBE (.run (.UNSUBSCRIBE topic x)) (.encoded .UNSUBSCRIBE)
  | publish (payload : List Str) :
      Sends s payload .PUBLISH (.publish payload) (.encoded .PUBLISH)

/-- Everything a handler can do: answer, send one of these messages, or fail to read its topic. -/
inductive Ends (s : State) (payload : List Str) (o : Opt) : Handling → Prop
  | reply (s' : State) (res : EventResult) : Ends s payload o (.reply s' res)
  | send (msg : RunMessage) (reply : Reply) : Sends s payload o msg reply →
      Ends s payload o (.send msg reply)
  | throws (bytes name : Str) : o = .SUBSCRIBE ∨ o = .UNSUBSCRIBE → payload = [bytes, name] →
      Topic.deserialize ⟨bytes, true⟩ = none → Ends s payload o .throws

theorem ends_enableHandler (s : State) (payload : List Str) :
    Ends s payload .ENABLED (s.enableHandler payload) := by
  unfold State.enableHandler
  split
  · exact .reply _ _
  · split
    · exact .reply _ _
    · rename_i p hp
      split
      · exact .reply _ _
      · split
        · exact .reply _ _
        · rename_i he
          exact .send _ _ (.enabled _ _ p hp (Bool.eq_false_iff.mpr he))

theorem ends_disableHandler (s : State) (payload : List Str) :
    Ends s payload .DISABLED (s.disableHandler payload) := by
  unfold State.disableHandler
  split
  · exact .reply _ _
  · split
    · exact .reply _ _
    · rename_i p hp
      split
      · exact .reply _ _
      · split
        · exact .reply _ _
        · rename_i he
          exact .send _ _ (.disabled _ _ p hp (by simpa using he))

theorem ends_subscribeHandler (s : State) (out : Outside) (payload : List Str) :
    Ends s payload .SUBSCRIBE (s.subscribeHandler out payload) := by
  unfold State.subscribeHandler
  split
  · split
    · rename_i ht
      exact .throws _ _ (Or.inl rfl) rfl ht
    · rename_i topic rest ht
      split
      · exact .reply _ _
      · rename_i hr
        exact .send _ _ (.subscribe _ _ topic rest ht hr)
  · exact .reply _ _

theorem ends_unsubscribeHandler (s : State) (payload : List Str) :
    Ends s payload .UNSUBSCRIBE (s.unsubscribeHandler payload) := by
  unfold State.unsubscribeHandler
  split
  · exact .send _ _ (.unsubscribeSdk _)
  · split
    · rename_i ht
      exact .throws _ _ (Or.inr rfl) rfl ht
    · rename_i topic rest ht
      exact .send _ _ (.unsubscribe _ _ topic rest ht)
  · exact .reply _ _

theorem eventHandler_ends {s : State} {out : Outside} {payload : List Str} {o : Opt} {h : Handling}
    (hh : s.eventHandler out payload o = some h) : Ends s payload o h := by
  cases o with
  | ENABLED => cases hh; exact ends_enableHandler s payload
  | DISABLED => cases hh; exact ends_disableHandler s payload
  | SUBSCRIBE => cases hh; exact ends_subscribeHandler s out payload
  | UNSUBSCRIBE => cases hh; exact ends_unsubscribeHandler s payload
  | PUBLISH => cases hh; exact .send _ _ (.publish payload)
  | LOAD | REMOVE => cases payload <;> cases hh <;> exact .reply _ _
  | QUERY =>
    cases hh
    unfold State.queryHandler
    split
    · exact .reply _ _
    · split <;> exact .reply _ _
  | QUERY_SUB_GRAPH =>
    cases hh
    unfold State.querySubGraphHandler
    split
    · exact .reply _ _
    · split <;> exact .reply _ _
  | DOWNLOAD =>
    cases hh
    unfold State.downloadHandler
    split
    · exact .reply _ _
    · split <;> exact .reply _ _
  | INFO =>
    cases hh
    unfold State.infoHandler
    split <;> exact .reply _ _
  | RELOAD_CONF =>
    cases hh
    unfold State.reloadConfHandler
    split <;> exact .reply _ _
  | QUERY_ALL | QUERY_ALL_SUB_GRAPH | LIST => cases hh; exact .reply _ _
  | DATA | RESPONSE_OK | RESPONSE_ERROR | SHUTDOWN => cases hh

theorem dispatch_sends {s : State} {out : Outside} {event : Event} {msg : RunMessage} {reply : Reply}
    (h : s.dispatch out event = some (.send msg reply)) :
    ∃ o, Opt.ofInt event.opt = some o ∧ Sends s event.payload o msg reply := by
  obtain ⟨o, hopt, ho⟩ := Option.bind_eq_some_iff.mp h
  cases eventHandler_ends ho with
  | send _ _ hs => exact ⟨o, hopt, hs⟩

end OeAware

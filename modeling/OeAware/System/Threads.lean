import OeAware.Manager.Events
import OeAware.Manager.Machine

/-! @src src/plugin_mgr/plugin_manager.cpp, message_manager.cpp, instance_run_handler.cpp |
    name:the threads of the server | scheme:state-machine

    The server as a whole: the TCP thread that takes requests and waits for their results, the manager
    thread that dispatches events, the scheduler thread, the threads of the plugins, and the data
    thread that sends published data to SDK clients. They meet in four queues and in the table of
    connections; any of them may take the next step.

        TCP ──recvMessage──▶ manager ──recvQueue──▶ scheduler ──recvData──▶ data thread ──▶ client
         ◀───sendMessage─────╯   ◀──── msg->result ───╯  ◀── recvQueue ── plugins

    A client is known to all but the TCP thread by its descriptor's number alone. The connections that
    have had that number, the request behind an event and the subscriptions of a connection are
    written down beside the state; no thread looks at them. -/

namespace OeAware
open Schemes

/-- The connection behind an event, and the request if one waits for the result. -/
structure Origin where
  fd : ℕ
  conn : ℕ
  request : Option ℕ
  deriving DecidableEq

/-- An event with its origin; `none` for the server's own. -/
structure Job where
  event : Event
  origin : Option Origin
  deriving DecidableEq

inductive ManagerThread where
  | idle
  /-- The handler has made its message and not pushed it yet. -/
  | sending (job : Job) (msg : RunMessage) (reply : Reply)
  /-- `msg->Wait()`. -/
  | waiting (job : Job) (reply : Reply)
  /-- The message has been handled. -/
  | woken (job : Job) (reply : Reply) (result : Result)
  /-- `Run` has returned. -/
  | stopped

/-- Why the server has no next state. -/
inductive SystemFault where
  /-- A null entry of `eventHandler` is called. -/
  | nullHandler
  /-- `payload[0]` of an empty payload. -/
  | emptyPayload
  /-- A null codec is called. -/
  | nullCodec
  /-- An exception leaves the thread. -/
  | throws
  | handler (fault : Fault)
  deriving DecidableEq

structure System where
  handler : TcpMessageHandler
  /-- The open descriptors. -/
  socks : List ℕ
  /-- The descriptor and the request for which `GetEventResult` waits. -/
  tcp : Option (ℕ × ℕ)
  recvMessage : List Job
  sendMessage : List (EventResult × Option Origin)
  manager : ManagerThread
  /-- The messages waiting for the scheduler thread, and whether the manager waits for them. -/
  recvQueue : List (RunMessage × Bool)
  state : State
  /-- How many events of `recvData` the data thread has taken. -/
  popped : ℕ
  requests : ℕ
  accepted : ℕ
  /-- The connection that has, or last had, a descriptor; `0` before the first. -/
  owner : ℕ → ℕ
  /-- The types that a connection is subscribed to, under its own descriptor. -/
  subscriptions : List (ℕ × Str)
  /-- For each event of `recvData` the connections subscribed when it was published. -/
  audience : List (List ℕ)
  /-- The requests answered so far, each with the origin of the result it was given. -/
  answered : List (ℕ × Option Origin)
  /-- The connections that data was sent to, each with the event's audience. -/
  sent : List (ℕ × List ℕ)

/-- The events that the server makes for itself. -/
inductive InternalEvent where
  | load (name : Str)
  | enable (name : Str)
  | shutdown

def InternalEvent.toEvent : InternalEvent → Event
  | .load name => ⟨Opt.LOAD.toInt, .INTERNAL, [name]⟩
  | .enable name => ⟨Opt.ENABLED.toInt, .INTERNAL, [name]⟩
  | .shutdown => ⟨Opt.SHUTDOWN.toInt, .INTERNAL, []⟩

/-- What an instance may ask of the scheduler: `Interface::Subscribe`, `Unsubscribe`, `Publish`. -/
inductive PluginCall where
  | subscribe (topic : Topic)
  | unsubscribe (topic : Topic)
  | publish (dataList : DataList)

def PluginCall.toMessage (name : Str) : PluginCall → InstanceRunMessage
  | .subscribe topic => .SUBSCRIBE topic name
  | .unsubscribe topic => .UNSUBSCRIBE topic name
  | .publish dataList => .PUBLISH_DATA dataList

/-- The next step, and what it is given from outside. -/
inductive Act where
  /-- `SaveConnection`. -/
  | accept (fd : ℕ) (isSdk permitted added : Bool)
  /-- `HandleMessage`, up to `GetEventResult`. -/
  | request (fd : ℕ) (msg : Message)
  /-- The rest of `HandleMessage`; `sent` is whether the answer went out. -/
  | respond (sent : Bool)
  /-- `HandleMessage` finds nothing to read any more. -/
  | hangUp (fd : ℕ)
  | internal (event : InternalEvent)
  /-- The manager takes an event and calls its handler. -/
  | manage (out : Outside)
  /-- The handler pushes its message. -/
  | push
  /-- The handler returns. -/
  | finish (out : Outside)
  /-- A call of the instance at `ptr`. -/
  | plugin (ptr : InstancePtr) (call : PluginCall)
  /-- The scheduler handles a message; `junk` is an uninitialised length. -/
  | handle (ans : Answers) (junk : ℕ)
  | tick
  | reorder (o : Order)
  /-- The data thread takes an event. -/
  | data

/-! ### The scheduler's side -/

namespace State

/-- The loop of `PublishData` with the codec it looks up for every SDK subscriber. -/
def deliverWith (reg : Register) (s : State) (dataList : DataList) :
    List Str → Except SystemFault State
  | [] => .ok s
  | subscriber :: rest =>
    if isSdk subscriber then
      if dataList.encodesNull reg then .error .nullCodec
      else
        deliverWith reg { s with recvData := s.recvData ++
          [⟨Opt.DATA.toInt, .EXTERNAL, [subscriber, dataList.serialize]⟩] } dataList rest
    else
      match s.getInstance subscriber with
      | none => .error (.handler .nullInstance)
      | some p => deliverWith reg (s.call p (.updateData dataList)) dataList rest

/-- `PublishData`. -/
def publishDataWith (reg : Register) (s : State) (dataList : DataList) : Except SystemFault State :=
  deliverWith reg (s.touchSubs dataList.topic.getType) dataList
    ((s.touchSubs dataList.topic.getType).subs dataList.topic.getType)

/-- The switch of `HandleMessage` on a message as it was queued. -/
def handleQueued (reg : Register) (s : State) (msg : RunMessage) (ans : Answers) (junk : ℕ) :
    Except SystemFault (State × Result) :=
  match msg with
  | .publish [] => .error .emptyPayload
  | .publish (bytes :: _) =>
    match dataListDeserialize reg junk bytes with
    | .throws => .error .throws
    | .nullCodec => .error .nullCodec
    | .ok dataList => (s.handle (.PUBLISH dataList) ans).mapError .handler
  | .run (.PUBLISH_DATA dataList) => (s.publishDataWith reg dataList).map (·, .unset)
  | .run msg => (s.handle msg ans).mapError .handler

end State

/-- The message that the scheduler handles, decoded. -/
def RunMessage.decoded (reg : Register) (junk : ℕ) : RunMessage → Option InstanceRunMessage
  | .run msg => some msg
  | .publish [] => none
  | .publish (bytes :: _) =>
    match dataListDeserialize reg junk bytes with
    | .ok dataList => some (.PUBLISH dataList)
    | _ => none

namespace System

/-- The server before its first event. -/
def init : System where
  handler := ⟨.empty, [], [], [], false⟩
  socks := []
  tcp := none
  recvMessage := []
  sendMessage := []
  manager := .idle
  recvQueue := []
  state := State.init
  popped := 0
  requests := 0
  accepted := 1
  owner := fun _ => 0
  subscriptions := []
  audience := []
  answered := []
  sent := []

variable (reg : Register) (s : System)

/-- `CloseConn`, then `close`. -/
def closeConn (fd : ℕ) : System :=
  let event : Event := ⟨Opt.UNSUBSCRIBE.toInt, .INTERNAL, [toStr fd]⟩
  { s with
    handler := s.handler.closeConn fd
    recvMessage := if s.handler.isSdk fd then
        s.recvMessage ++ [⟨event, some ⟨fd, s.owner fd, none⟩⟩]
      else s.recvMessage
    socks := s.socks.erase fd }

/-- `SaveConnection`; a connection that is turned away stays open. -/
def accept (fd : ℕ) (isSdk permitted added : Bool) : System :=
  let s := { s with
    socks := fd :: s.socks
    owner := Function.update s.owner fd s.accepted
    accepted := s.accepted + 1 }
  if (isSdk && !permitted) || !added then s
  else { s with handler := s.handler.addConn fd (if isSdk then SDK_CONN else CMD_CONN) }

/-- `HandleMessage`, up to `GetEventResult`. -/
def requested (fd : ℕ) (msg : Message) : System :=
  { s with
    handler := s.handler.pushEvent fd msg
    recvMessage := s.recvMessage ++
      [⟨s.handler.event fd msg, some ⟨fd, s.owner fd, some s.requests⟩⟩]
    tcp := some (fd, s.requests)
    requests := s.requests + 1 }

/-- The rest of `HandleMessage`, with the result that `GetEventResult` has popped. -/
def responded (fd n : ℕ) (res : EventResult) (origin : Option Origin)
    (rest : List (EventResult × Option Origin)) : System :=
  { s with
    handler := s.handler.respond fd res
    sendMessage := rest
    tcp := none
    answered := s.answered ++ [(n, origin)] }

/-- A result goes back to the TCP thread only for an event from outside. -/
def answer (job : Job) (res : EventResult) : System :=
  if job.event.type = .EXTERNAL then
    { s with sendMessage := s.sendMessage ++ [(res, job.origin)] }
  else s

/-- The manager thread at its next event. -/
def manage (out : Outside) (job : Job) (rest : List Job) : Except SystemFault System :=
  let s := { s with recvMessage := rest }
  if job.event.opt = Opt.SHUTDOWN.toInt then .ok { s with manager := .stopped }
  else
    match s.state.dispatch out job.event with
    | none => .error .nullHandler
    | some .throws => .error .throws
    | some (.reply state res) => .ok (({ s with state := state } : System).answer job res)
    | some (.send msg reply) => .ok { s with manager := .sending job msg reply }

/-- The origin of the message that the manager waits for. -/
def origin : Option Origin :=
  match s.manager with
  | .waiting job _ => job.origin
  | _ => none

/-- What a handled message does to the subscriptions of connections. -/
def tracked (msg : RunMessage) (r : Result) : List (ℕ × Str) :=
  match s.origin, msg with
  | some o, .run (.SUBSCRIBE topic x) =>
    if r.failed ∨ x ≠ toStr o.fd then s.subscriptions
    else (o.conn, topic.getType) :: s.subscriptions
  | some o, .run (.UNSUBSCRIBE topic x) =>
    if x = toStr o.fd then s.subscriptions.filter (fun e => e ≠ (o.conn, topic.getType))
    else s.subscriptions
  | some o, .run (.UNSUBSCRIBE_SDK x) =>
    if x = toStr o.fd then s.subscriptions.filter (fun e => e.1 ≠ o.conn) else s.subscriptions
  | _, _ => s.subscriptions

/-- The connections subscribed to a type. -/
def audienceOf (type : Str) : List ℕ :=
  (s.subscriptions.filter (fun e => e.2 = type)).map (·.1)

/-- The audience of the events that handling a message has added to `recvData`. -/
def newAudience (msg : RunMessage) (state : State) : List (List ℕ) :=
  match msg with
  | .run (.PUBLISH_DATA dataList) =>
    List.replicate (state.recvData.length - s.state.recvData.length)
      (s.audienceOf dataList.topic.getType)
  | _ => []

/-- `NotifyOne`: the manager, if it waits for the message, goes on. -/
def wake (mine : Bool) (r : Result) : ManagerThread :=
  match mine, s.manager with
  | true, .waiting job reply => .woken job reply r
  | _, m => m

/-- The scheduler thread at its next message. -/
def handle (ans : Answers) (junk : ℕ) (msg : RunMessage) (mine : Bool)
    (rest : List (RunMessage × Bool)) : Except SystemFault System :=
  match s.state.handleQueued reg msg ans junk with
  | .error e => .error e
  | .ok (state, r) => .ok { s with
      recvQueue := rest
      state := state
      manager := s.wake mine r
      subscriptions := if mine then s.tracked msg r else s.subscriptions
      audience := s.audience ++ s.newAudience msg state }

/-- One round of `TcpMessageHandler::Start`. -/
def sendData (event : Event) (audience : List ℕ) : System :=
  let s := { s with popped := s.popped + 1 }
  if event.opt ≠ Opt.DATA.toInt then s
  else
    match event.payload with
    | [subscriber, _] =>
      let fd := (atoi subscriber).toNat
      if 0 ≤ atoi subscriber ∧ s.handler.conns.count fd ∧ s.handler.conn fd ≠ DISCONNECTED then
        { s with sent := s.sent ++ [(s.owner fd, audience)] }
      else s
    | _ => s

/-- One step of one thread; a thread that cannot go on leaves everything as it is. -/
def step : Act → Except SystemFault System
  | .accept fd isSdk permitted added =>
    .ok (if s.tcp = none ∧ fd ∉ s.socks then s.accept fd isSdk permitted added else s)
  | .request fd msg =>
    .ok (if s.tcp = none ∧ fd ∈ s.socks ∧ 0 < s.handler.conn fd then s.requested fd msg else s)
  | .respond sent =>
    match s.tcp, s.sendMessage with
    | some (fd, n), (res, origin) :: rest =>
      .ok (if sent then s.responded fd n res origin rest
        else (s.responded fd n res origin rest).closeConn fd)
    | _, _ => .ok s
  | .hangUp fd =>
    .ok (if s.tcp = none ∧ fd ∈ s.socks ∧ 0 < s.handler.conn fd then s.closeConn fd else s)
  | .internal event => .ok { s with recvMessage := s.recvMessage ++ [⟨event.toEvent, none⟩] }
  | .manage out =>
    match s.manager, s.recvMessage with
    | .idle, job :: rest => s.manage out job rest
    | _, _ => .ok s
  | .push =>
    match s.manager with
    | .sending job msg reply =>
      .ok { s with recvQueue := s.recvQueue ++ [(msg, true)], manager := .waiting job reply }
    | _ => .ok s
  | .finish out =>
    match s.manager with
    | .woken job reply r =>
      .ok (({ s with manager := .idle } : System).answer job (reply.finish out r))
    | _ => .ok s
  | .plugin ptr call =>
    .ok (if ptr < s.state.next then
      { s with recvQueue := s.recvQueue ++
          [(.run (call.toMessage (s.state.heap ptr).interface.name), false)] } else s)
  | .handle ans junk =>
    match s.recvQueue with
    | (msg, mine) :: rest => s.handle reg ans junk msg mine rest
    | [] => .ok s
  | .tick =>
    match s.state.schedule with
    | .error e => .error (.handler e)
    | .ok state => .ok { s with state := state.addTime }
  | .reorder o => .ok { s with state := s.state.reorder o }
  | .data =>
    match s.state.recvData[s.popped]?, s.audience[s.popped]? with
    | some event, some audience => .ok (s.sendData event audience)
    | _, _ => .ok s

end System

/-- Reached from the server's start by steps that all meet `ok`. -/
abbrev SystemRuns (reg : Register) (ok : System → Act → Prop) : System → Prop :=
  Runs (System.step reg) System.init ok

/-! ### The scheduler's state along a run -/

/-- What a step is to the scheduler's state. -/
def System.action (reg : Register) (s : System) : Act → Option Action
  | .manage out =>
    match s.manager, s.recvMessage with
    | .idle, job :: _ =>
      match Opt.ofInt job.event.opt, job.event.payload with
      | some .LOAD, name :: _ => some (.load name out.file)
      | some .REMOVE, name :: _ => some (.remove name)
      | _, _ => none
    | _, _ => none
  | .handle ans junk =>
    match s.recvQueue with
    | (msg, _) :: _ => (msg.decoded reg junk).map (fun m => .message m ans)
    | [] => none
  | .tick => some .tick
  | .reorder o => some (.reorder o)
  | _ => none

/-- With a codec for what there is to encode, `PublishData` is the loop without codecs. -/
theorem deliverWith_ok {reg : Register} (d : DataList) : ∀ (l : List Str) {s s' : State},
    s.deliverWith reg d l = .ok s' → s.deliver d l = .ok s'
  | [], s, s', h => by
    rw [State.deliverWith] at h
    cases h
    rfl
  | x :: l, s, s', h => by
    rw [State.deliverWith] at h
    rw [State.deliver]
    split at h
    · rename_i hx
      rw [if_pos hx]
      split at h
      · cases h
      · exact deliverWith_ok d l h
    · rename_i hx
      rw [if_neg hx]
      cases hp : s.getInstance x with
      | none => rw [hp] at h; cases h
      | some p =>
        rw [hp] at h
        exact deliverWith_ok d l h

theorem mapError_ok {ε ε' α : Type} {x : Except ε α} {f : ε → ε'} {y : α}
    (h : x.mapError f = .ok y) : x = .ok y := by
  cases x with
  | error e => cases h
  | ok a => cases h; rfl

/-- Handling a queued message is handling the message it decodes to. -/
theorem handleQueued_ok {reg : Register} {s s' : State} {msg : RunMessage} {ans : Answers} {junk : ℕ}
    {r : Result} (h : s.handleQueued reg msg ans junk = .ok (s', r)) :
    ∃ m, msg.decoded reg junk = some m ∧ s.handle m ans = .ok (s', r) := by
  unfold State.handleQueued at h
  split at h
  · cases h
  · rename_i bytes rest
    rw [RunMessage.decoded]
    cases hd : dataListDeserialize reg junk bytes with
    | ok d => rw [hd] at h; exact ⟨_, rfl, mapError_ok h⟩
    | nullCodec => rw [hd] at h; cases h
    | throws => rw [hd] at h; cases h
  · rename_i d
    refine ⟨_, rfl, ?_⟩
    obtain ⟨s1, h1, he⟩ := map_ok h
    cases he
    rw [State.handle, State.publishData, deliverWith_ok d _ h1]
    rfl
  · exact ⟨_, rfl, mapError_ok h⟩

/-- What an answer given at once means for the store. -/
theorem dispatch_reply {s s' : State} {out : Outside} {event : Event} {res : EventResult}
    (h : s.dispatch out event = some (.reply s' res)) :
    match Opt.ofInt event.opt, event.payload with
    | some .LOAD, name :: _ => s' = (s.loadPlugin name out.file).1
    | some .REMOVE, name :: _ => s' = (s.remove name).1
    | _, _ => s' = s := by
  obtain ⟨o, ho, hh⟩ := Option.bind_eq_some_iff.mp h
  rw [ho]
  split
  · rename_i name rest heq hp
    cases heq
    rw [hp] at hh
    cases hh
    rfl
  · rename_i name rest heq hp
    cases heq
    rw [hp] at hh
    cases hh
    rfl
  · rename_i hl hr
    refine keeps_eventHandler hh (fun name rest hp => ⟨?_, ?_⟩)
    · rintro rfl
      exact hl name rest rfl hp
    · rintro rfl
      exact hr name rest rfl hp

namespace System
variable {reg : Register} {s s' : System}

theorem answer_eq (job : Job) (res : EventResult) : s.answer job res =
    { s with sendMessage := s.sendMessage ++
        if job.event.type = .EXTERNAL then [(res, job.origin)] else [] } := by
  unfold answer
  split
  · rfl
  · simp

/-- Everything the manager thread can do with an event. -/
theorem manage_inv {out : Outside} {job : Job} {rest : List Job}
    (h : s.manage out job rest = .ok s') :
    (job.event.opt = Opt.SHUTDOWN.toInt ∧
      s' = { s with recvMessage := rest, manager := .stopped }) ∨
    (∃ state res, s.state.dispatch out job.event = some (.reply state res) ∧
      s' = ({ s with recvMessage := rest, state := state } : System).answer job res) ∨
    ∃ msg reply, s.state.dispatch out job.event = some (.send msg reply) ∧
      s' = { s with recvMessage := rest, manager := .sending job msg reply } := by
  unfold manage at h
  dsimp only at h
  split at h
  · rename_i hsd
    cases h
    exact Or.inl ⟨hsd, rfl⟩
  · cases hd : s.state.dispatch out job.event with
    | none => rw [hd] at h; cases h
    | some hh =>
      rw [hd] at h
      cases hh with
      | throws => cases h
      | reply state res => cases h; exact Or.inr (Or.inl ⟨state, res, rfl, rfl⟩)
      | send msg reply => cases h; exact Or.inr (Or.inr ⟨msg, reply, rfl, rfl⟩)

theorem answer_state (job : Job) (res : EventResult) : (s.answer job res).state = s.state := by
  unfold answer
  split <;> rfl

theorem manage_state {out : Outside} {job : Job} {rest : List Job}
    (h : s.manage out job rest = .ok s') :
    match Opt.ofInt job.event.opt, job.event.payload with
    | some .LOAD, name :: _ => s'.state = (s.state.loadPlugin name out.file).1
    | some .REMOVE, name :: _ => s'.state = (s.state.remove name).1
    | _, _ => s'.state = s.state := by
  rcases manage_inv h with ⟨hsd, rfl⟩ | ⟨state, res, hd, rfl⟩ | ⟨msg, reply, hd, rfl⟩
  · rw [hsd, ofInt_toInt]
  · rw [answer_state]
    exact dispatch_reply hd
  · -- neither `LOAD` nor `REMOVE` sends anything
    obtain ⟨o, ho, he⟩ := Option.bind_eq_some_iff.mp hd
    rw [ho]
    split
    · rename_i heq hp
      cases heq
      rw [hp] at he
      cases he
    · rename_i heq hp
      cases heq
      rw [hp] at he
      cases he
    · rfl

theorem handle_inv {ans : Answers} {junk : ℕ} {msg : RunMessage} {mine : Bool}
    {rest : List (RunMessage × Bool)} (h : s.handle reg ans junk msg mine rest = .ok s') :
    ∃ state r m, s.state.handleQueued reg msg ans junk = .ok (state, r) ∧
      msg.decoded reg junk = some m ∧ s.state.handle m ans = .ok (state, r) ∧
      s' = { s with
        recvQueue := rest
        state := state
        manager := s.wake mine r
        subscriptions := if mine then s.tracked msg r else s.subscriptions
        audience := s.audience ++ s.newAudience msg state } := by
  unfold System.handle at h
  cases hq : s.state.handleQueued reg msg ans junk with
  | error e => rw [hq] at h; cases h
  | ok res =>
    obtain ⟨state, r⟩ := res
    rw [hq] at h
    cases h
    obtain ⟨m, hm, hh⟩ := handleQueued_ok hq
    exact ⟨state, r, m, rfl, hm, hh, rfl⟩

theorem accept_eq (fd : ℕ) (isSdk permitted added : Bool) : s.accept fd isSdk permitted added =
    { s with
      socks := fd :: s.socks
      owner := Function.update s.owner fd s.accepted
      accepted := s.accepted + 1
      handler := (s.accept fd isSdk permitted added).handler } := by
  unfold accept
  dsimp only
  split <;> rfl

theorem accept_state (fd : ℕ) (isSdk permitted added : Bool) :
    (s.accept fd isSdk permitted added).state = s.state := by rw [accept_eq]

theorem sendData_eq (event : Event) (audience : List ℕ) :
    s.sendData event audience =
      { s with popped := s.popped + 1, sent := (s.sendData event audience).sent } := by
  unfold sendData
  dsimp only
  split
  · rfl
  · split
    · split <;> rfl
    · rfl

theorem sendData_state (event : Event) (audience : List ℕ) :
    (s.sendData event audience).state = s.state := by rw [sendData_eq]

/-- Everything a step can do. -/
inductive Moved (reg : Register) (s : System) : Act → System → Prop
  /-- The thread cannot go on. -/
  | stays (a : Act) : s.action reg a = none → Moved reg s a s
  | accept (fd : ℕ) (isSdk permitted added : Bool) : s.tcp = none → fd ∉ s.socks →
      Moved reg s (.accept fd isSdk permitted added) (s.accept fd isSdk permitted added)
  | request (fd : ℕ) (msg : Message) : s.tcp = none → fd ∈ s.socks → 0 < s.handler.conn fd →
      Moved reg s (.request fd msg) (s.requested fd msg)
  | respond (fd n : ℕ) (res : EventResult) (origin : Option Origin)
      (rest : List (EventResult × Option Origin)) (sent : Bool) : s.tcp = some (fd, n) →
      s.sendMessage = (res, origin) :: rest →
      Moved reg s (.respond sent) (if sent then s.responded fd n res origin rest
        else (s.responded fd n res origin rest).closeConn fd)
  | hangUp (fd : ℕ) : s.tcp = none → fd ∈ s.socks → 0 < s.handler.conn fd →
      Moved reg s (.hangUp fd) (s.closeConn fd)
  | internal (event : InternalEvent) :
      Moved reg s (.internal event)
        { s with recvMessage := s.recvMessage ++ [⟨event.toEvent, none⟩] }
  | manage (out : Outside) (job : Job) (rest : List Job) (s' : System) : s.manager = .idle →
      s.recvMessage = job :: rest → s.manage out job rest = .ok s' → Moved reg s (.manage out) s'
  | push (job : Job) (msg : RunMessage) (reply : Reply) : s.manager = .sending job msg reply →
      Moved reg s .push
        { s with recvQueue := s.recvQueue ++ [(msg, true)], manager := .waiting job reply }
  | finish (out : Outside) (job : Job) (reply : Reply) (r : Result) :
      s.manager = .woken job reply r →
      Moved reg s (.finish out)
        (({ s with manager := .idle } : System).answer job (reply.finish out r))
  | plugin (ptr : InstancePtr) (call : PluginCall) : ptr < s.state.next →
      Moved reg s (.plugin ptr call)
        { s with recvQueue := s.recvQueue ++
            [(.run (call.toMessage (s.state.heap ptr).interface.name), false)] }
  | handle (ans : Answers) (junk : ℕ) (msg : RunMessage) (mine : Bool)
      (rest : List (RunMessage × Bool)) (s' : System) : s.recvQueue = (msg, mine) :: rest →
      s.handle reg ans junk msg mine rest = .ok s' → Moved reg s (.handle ans junk) s'
  | tick (state : State) : s.state.schedule = .ok state →
      Moved reg s .tick { s with state := state.addTime }
  | reorder (o : Order) : Moved reg s (.reorder o) { s with state := s.state.reorder o }
  | data (event : Event) (audience : List ℕ) : s.state.recvData[s.popped]? = some event →
      s.audience[s.popped]? = some audience → Moved reg s .data (s.sendData event audience)

theorem step_moved {a : Act} (h : s.step reg a = .ok s') : Moved reg s a s' := by
  cases a with
  | accept fd isSdk permitted added =>
    simp only [step, Except.ok.injEq] at h
    split at h <;> subst h
    · rename_i hg; exact .accept fd isSdk permitted added hg.1 hg.2
    · exact .stays _ rfl
  | request fd msg =>
    simp only [step, Except.ok.injEq] at h
    split at h <;> subst h
    · rename_i hg; exact .request fd msg hg.1 hg.2.1 hg.2.2
    · exact .stays _ rfl
  | respond sent =>
    simp only [step] at h
    split at h
    · rename_i fd n res origin rest ht hs
      cases h
      exact .respond fd n res origin rest sent ht hs
    · cases h; exact .stays _ rfl
  | hangUp fd =>
    simp only [step, Except.ok.injEq] at h
    split at h <;> subst h
    · rename_i hg; exact .hangUp fd hg.1 hg.2.1 hg.2.2
    · exact .stays _ rfl
  | internal event => cases h; exact .internal event
  | manage out =>
    simp only [step] at h
    split at h
    · rename_i job rest hm hr
      exact .manage out job rest s' hm hr h
    · rename_i hno
      cases h
      refine .stays _ ?_
      rw [action]
      split
      · rename_i job rest hm hr
        exact absurd hr (hno job rest hm)
      · rfl
  | push =>
    simp only [step] at h
    split at h
    · rename_i job msg reply hm
      cases h; exact .push job msg reply hm
    · cases h; exact .stays _ rfl
  | finish out =>
    simp only [step] at h
    split at h
    · rename_i job reply r hm
      cases h; exact .finish out job reply r hm
    · cases h; exact .stays _ rfl
  | plugin ptr call =>
    simp only [step, Except.ok.injEq] at h
    split at h <;> subst h
    · rename_i hg; exact .plugin ptr call hg
    · exact .stays _ rfl
  | handle ans junk =>
    simp only [step] at h
    split at h
    · rename_i msg mine rest hq
      exact .handle ans junk msg mine rest s' hq h
    · rename_i hq
      cases h
      refine .stays _ ?_
      rw [action, hq]
  | tick =>
    simp only [step] at h
    split at h
    · cases h
    · rename_i state hs
      cases h; exact .tick state hs
  | reorder o => cases h; exact .reorder o
  | data =>
    simp only [step] at h
    split at h
    · rename_i event audience he ha
      cases h; exact .data event audience he ha
    · cases h; exact .stays _ rfl

/-- A step of the server is a step of the scheduler's machine, or leaves its state alone. -/
theorem step_state {a : Act} (h : s.step reg a = .ok s') :
    match s.action reg a with
    | some b => OeAware.step s.state b = .ok s'.state
    | none => s'.state = s.state := by
  cases step_moved h with
  | stays a ha => rw [ha]
  | accept => exact accept_state ..
  | request => rfl
  | respond fd n res origin rest sent =>
    show (ite _ _ _ : System).state = s.state
    split <;> rfl
  | hangUp => rfl
  | internal => rfl
  | manage out job rest _ hm hr he =>
    have := manage_state he
    rw [action, hm, hr]
    dsimp only
    split at this
    · exact congrArg Except.ok this.symm
    · exact congrArg Except.ok this.symm
    · exact this
  | push => rfl
  | finish => exact answer_state ..
  | plugin => rfl
  | handle ans junk msg mine rest _ hq he =>
    obtain ⟨state, r, m, _, hm, hh, rfl⟩ := handle_inv he
    rw [action, hq]
    simp only [hm, Option.map_some, OeAware.step, hh]
    rfl
  | tick state hs =>
    show (s.state.schedule.map State.addTime) = _
    rw [hs]
    rfl
  | reorder o => rfl
  | data event audience => exact sendData_state event audience

theorem decoded_inv {msg : RunMessage} {junk : ℕ} {m : InstanceRunMessage}
    (h : msg.decoded reg junk = some m) : msg = .run m ∨ ∃ d, m = .PUBLISH d := by
  cases msg with
  | run m' => exact Or.inl (congrArg RunMessage.run (Option.some.inj h))
  | publish payload =>
    cases payload with
    | nil => cases h
    | cons bytes rest =>
      simp only [RunMessage.decoded] at h
      split at h <;> cases h
      exact Or.inr ⟨_, rfl⟩

/-- A message is handled by the scheduler's step alone, at the head of its queue. -/
theorem action_message {a : Act} {m : InstanceRunMessage} {ans : Answers}
    (h : s.action reg a = some (.message m ans)) : ∃ junk msg mine rest,
      a = .handle ans junk ∧ s.recvQueue = (msg, mine) :: rest ∧ msg.decoded reg junk = some m := by
  cases a with
  | handle ans' junk =>
    simp only [action] at h
    split at h
    · rename_i msg mine rest hq
      obtain ⟨m', hm, he⟩ := Option.map_eq_some_iff.mp h
      cases he
      exact ⟨junk, msg, mine, rest, rfl, hq, hm⟩
    · cases h
  | manage out =>
    simp only [action] at h
    split at h
    · split at h <;> cases h
    · cases h
  | tick | reorder | accept | request | respond | hangUp | internal | push | finish | plugin
  | data => cases h

theorem storeOk {a : Act} (hs : StoreOk s.state) (h : s.step reg a = .ok s') : StoreOk s'.state := by
  have hst := step_state h
  cases ha : s.action reg a with
  | none => rw [ha] at hst; rw [hst]; exact hs
  | some b => rw [ha] at hst; exact storeOk_step hs hst

/-- A condition on what the scheduler's machine does, as a condition on the server's steps. -/
def Lifted (reg : Register) (ok : State → Action → Prop) (s : System) (a : Act) : Prop :=
  ∀ b ∈ s.action reg a, ok s.state b

/-- A run of the server is, to the scheduler's state, a run of its machine. -/
theorem state_runs {ok : System → Act → Prop} {ok' : State → Action → Prop}
    (himp : ∀ s a, ok s a → Lifted reg ok' s a) (h : SystemRuns reg ok s) : RunsOf ok' s.state := by
  induction h with
  | start => exact .start
  | @next s s' a _ hok hs ih =>
    have hst := step_state hs
    cases ha : s.action reg a with
    | none => rw [ha] at hst; rw [hst]; exact ih
    | some b =>
      rw [ha] at hst
      exact .next ih (himp s a hok b ha) hst

end System

instance (reg : Register) (ok : State → Action → Prop) [∀ s a, Decidable (ok s a)] (s : System)
    (a : Act) : Decidable (System.Lifted reg ok s a) :=
  inferInstanceAs (Decidable (∀ b ∈ s.action reg a, ok s.state b))

/-! ### Surroundings for concrete runs -/

/-- A plugin with the instances `i`, `j` and the run-once instance `k`, and nothing else outside. -/
def sampleOut : Outside :=
  let interface (name : String) (type : ℕ) : Interface :=
    ⟨str name, [sampleTopic name], 0, type, 20⟩
  ⟨⟨true, true, some [interface "i" 1, interface "j" 1, interface "k" 2]⟩, [], none, fun _ => none,
    .error [], 0, 0⟩

/-- No codec at all. -/
def noCodecs : Register := fun _ => none

end OeAware

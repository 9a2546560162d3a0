import OeAware.Common.Register
import OeAware.Schemes.Container
import OeAware.Schemes.Run

/-! @src src/sdk/oe_client.cpp, include/oeaware/safe_queue.h | name:Impl, SafeQueue::WaitTimeAndPop |
    scheme:state-machine

    The client side of the SDK. `Subscribe`, `Unsubscribe` and `Publish` each have a mutex of their
    own, so three calls may be at it at once; all send on one stream and wait at one queue of results.
    The receiving thread fills that queue with whatever comes back and keeps no note of which request
    a result answers.

        Subscribe ───╮                                   ╭─▶ resultQueue ─▶ whoever waits
        Unsubscribe ─┼─▶ stream ─▶ server ─▶ HandleRecv ─┤
        Publish ─────╯                                   ╰─▶ topicHandle[key] callbacks

    The number of a call and the request that a result answers are written down beside the state; no
    thread looks at them. -/

namespace OeAware
open Schemes

/-- A call of the SDK. A callback is known by a number. -/
inductive Request where
  | subscribe (topic : Topic) (callback : ℕ)
  | unsubscribe (topic : Topic)
  | publish (dataList : DataList)
  deriving DecidableEq

inductive Lock where
  | subMutex | unsubMutex | pubMutex
  deriving DecidableEq

/-- The key of `topicHandle`. -/
def topicKey (topic : Topic) : Str :=
  concat [topic.instanceName, topic.topicName, topic.params] (str "::")

namespace Request

def lock : Request → Lock
  | .subscribe _ _ => .subMutex
  | .unsubscribe _ => .unsubMutex
  | .publish _ => .pubMutex

def toMessage : Request → Message
  | .subscribe topic _ => ⟨Opt.SUBSCRIBE.toInt, [topicSerialize topic]⟩
  | .unsubscribe topic => ⟨Opt.UNSUBSCRIBE.toInt, [topicSerialize topic]⟩
  | .publish dataList => ⟨Opt.PUBLISH.toInt, [dataList.serialize]⟩

/-- `DataListSerialize` calls a null codec. -/
def encodesNull (reg : Register) : Request → Bool
  | .publish dataList => dataList.encodesNull reg
  | _ => false

/-- What a call makes of the value of `HandleRequest`. -/
def value (code : ℤ) : Request → ℤ
  | .subscribe _ _ | .unsubscribe _ => if code < 0 then -1 else 0
  | .publish _ => code

end Request

/-- Where the value of `HandleRequest` is from. -/
inductive Source where
  /-- There is no stream. -/
  | noStream
  /-- `WaitTimeAndPop` has given up. -/
  | timeout
  /-- A result, and the call whose request it answers. -/
  | reply (call : Option ℕ)
  deriving DecidableEq

inductive Progress where
  /-- The mutex is taken and nothing sent yet. -/
  | entered
  /-- In `WaitTimeAndPop`. -/
  | waiting
  /-- `HandleRequest` has returned. -/
  | back (code : ℤ) (source : Source)
  deriving DecidableEq

structure Call where
  id : ℕ
  request : Request
  progress : Progress
  deriving DecidableEq

/-- A call that is over. -/
structure Return where
  id : ℕ
  request : Request
  code : ℤ
  source : Source
  ret : ℤ
  deriving DecidableEq

/-- Why the client has no next state. -/
inductive ClientFault where
  /-- `payload[0]` of an empty payload. -/
  | emptyPayload
  /-- An exception leaves the receiving thread. -/
  | throws
  /-- A null codec is called. -/
  | nullCodec
  /-- `pop_back` of an empty vector. -/
  | popEmpty
  deriving DecidableEq

structure Client where
  /-- `socketStream` is not null. -/
  socketStream : Bool
  topicHandle : UMap Str (List ℕ)
  /-- The codes, each with the call whose request it answers. -/
  resultQueue : List (ℤ × Option ℕ)
  /-- Who holds a mutex. -/
  calls : Lock → Option Call
  /-- How many calls have been made. -/
  made : ℕ
  /-- The requests that the server has not answered yet. -/
  requests : List (ℕ × Message)
  /-- What the server has sent and the client not received, with the request it answers. -/
  stream : List (Message × Option ℕ)
  /-- All answers of the server, with the request. -/
  answers : List (ℕ × Message)
  /-- The callbacks that have been called. -/
  handled : List (ℕ × DataList)
  returned : List Return

/-- The next step, and what it is given from outside. -/
inductive ClientAct where
  /-- A thread calls and gets the mutex. -/
  | call (request : Request)
  /-- `SendMessage`; its result is not looked at. -/
  | send (lock : Lock) (sent : Bool)
  /-- `WaitTimeAndPop` finds a result. -/
  | pop (lock : Lock)
  /-- 15 s are over. -/
  | timeout (lock : Lock)
  /-- The call returns and the mutex is free. -/
  | finish (lock : Lock)
  /-- The server answers its oldest request. -/
  | answer (msg : Message)
  /-- The server sends data. -/
  | data (payload : List Str)
  /-- `HandleRecv` receives a message. `code` and `size` are what uninitialised variables hold, `failed`
      is whether `DataListDeserialize` returns a negative number. -/
  | recv (code : UInt32) (size : ℕ) (failed : Bool)

/-- `ResultDeserialize` into a `Result` whose code is `junk`: the code it then has. -/
def resultDeserialize (junk : UInt32) (bytes : Str) : Option ℤ :=
  let (code, s) := InStream.readInt ⟨bytes, true⟩ junk
  s.readStr.map (fun _ => code.toInt32.toInt)

namespace Client

/-- The client after `Init`. -/
def init : Client where
  socketStream := true
  topicHandle := .empty
  resultQueue := []
  calls := fun _ => none
  made := 0
  requests := []
  stream := []
  answers := []
  handled := []
  returned := []

variable (reg : Register) (c : Client)

/-- `topicHandle[key]`. -/
def handles (key : Str) : List ℕ := (c.topicHandle.find key).getD []

/-- The call that holds `lock` goes on with `progress`. -/
def proceed (lock : Lock) (call : Call) (progress : Progress) : Client :=
  { c with calls := Function.update c.calls lock (some { call with progress := progress }) }

/-- A call up to `HandleRequest`. -/
def enter (request : Request) : Client :=
  let c := { c with
    calls := Function.update c.calls request.lock (some ⟨c.made, request, .entered⟩)
    made := c.made + 1 }
  match request with
  | .subscribe topic callback =>
    { c with topicHandle :=
        c.topicHandle.insert (topicKey topic) (c.handles (topicKey topic) ++ [callback]) }
  | _ => c

/-- `HandleRequest` up to `WaitTimeAndPop`. -/
def sendRequest (lock : Lock) (call : Call) (sent : Bool) : Client :=
  if !c.socketStream then c.proceed lock call (.back (-1) .noStream)
  else
    let c := c.proceed lock call .waiting
    if sent then { c with requests := c.requests ++ [(call.id, call.request.toMessage)] } else c

/-- The end of a call, after `HandleRequest`. -/
def leave (lock : Lock) (call : Call) (code : ℤ) (source : Source) : Except ClientFault Client :=
  let c := { c with
    calls := Function.update c.calls lock none
    returned := c.returned ++ [⟨call.id, call.request, code, source, call.request.value code⟩] }
  match call.request with
  | .subscribe topic _ =>
    if code < 0 then
      if c.handles (topicKey topic) = [] then .error .popEmpty
      else .ok { c with topicHandle :=
        c.topicHandle.insert (topicKey topic) (c.handles (topicKey topic)).dropLast }
    else .ok c
  | .unsubscribe topic =>
    if code < 0 then .ok c else .ok { c with topicHandle := c.topicHandle.erase (topicKey topic) }
  | .publish _ => .ok c

/-- The opts whose messages `HandleRecv` takes for a result. -/
def isResult (opt : UInt32) : Bool :=
  opt = Opt.SUBSCRIBE.toInt ∨ opt = Opt.UNSUBSCRIBE.toInt ∨ opt = Opt.PUBLISH.toInt

/-- One round of `HandleRecv`. -/
def handleRecv (msg : Message) (of : Option ℕ) (rest : List (Message × Option ℕ)) (code : UInt32)
    (size : ℕ) (failed : Bool) : Except ClientFault Client :=
  let c := { c with stream := rest }
  if isResult msg.opt then
    match msg.payload with
    | [] => .error .emptyPayload
    | bytes :: _ =>
      match resultDeserialize code bytes with
      | none => .error .throws
      | some code => .ok { c with resultQueue := c.resultQueue ++ [(code, of)] }
  else if msg.opt = Opt.DATA.toInt then
    match msg.payload with
    | [] => .error .emptyPayload
    | bytes :: _ =>
      match dataListDeserialize reg size bytes with
      | .throws => .error .throws
      | .nullCodec => .error .nullCodec
      | .ok dataList =>
        if failed then .ok c
        else .ok { c with
          topicHandle := c.topicHandle.insertNew (topicKey dataList.topic) []
          handled := c.handled ++ (c.handles (topicKey dataList.topic)).map (·, dataList) }
  else .ok c

/-- One step of one thread; a thread that cannot go on leaves everything as it is. -/
def step : ClientAct → Except ClientFault Client
  | .call request =>
    if request.encodesNull reg then .error .nullCodec
    else .ok (if c.calls request.lock = none then c.enter request else c)
  | .send lock sent =>
    match c.calls lock with
    | some call => .ok (if call.progress = .entered then c.sendRequest lock call sent else c)
    | none => .ok c
  | .pop lock =>
    match c.calls lock, c.resultQueue with
    | some call, (code, of) :: rest =>
      .ok (if call.progress = .waiting then
        ({ c with resultQueue := rest } : Client).proceed lock call (.back code (.reply of)) else c)
    | _, _ => .ok c
  | .timeout lock =>
    match c.calls lock with
    | some call =>
      .ok (if call.progress = .waiting ∧ c.resultQueue = [] then
        c.proceed lock call (.back (-1) .timeout) else c)
    | none => .ok c
  | .finish lock =>
    match c.calls lock with
    | some call =>
      match call.progress with
      | .back code source => c.leave lock call code source
      | _ => .ok c
    | none => .ok c
  | .answer msg =>
    match c.requests with
    | (id, _) :: rest => .ok { c with
        requests := rest
        stream := c.stream ++ [(msg, some id)]
        answers := c.answers ++ [(id, msg)] }
    | [] => .ok c
  | .data payload =>
    .ok { c with stream := c.stream ++ [(⟨Opt.DATA.toInt, payload⟩, none)] }
  | .recv code size failed =>
    match c.stream with
    | (msg, of) :: rest => c.handleRecv reg msg of rest code size failed
    | [] => .ok c

end Client

/-- Reached from `Init` by steps that all meet `ok`. -/
abbrev ClientRuns (reg : Register) (ok : Client → ClientAct → Prop) : Client → Prop :=
  Runs (Client.step reg) Client.init ok

/-! ### What a step can do -/

namespace Client
variable {reg : Register} {c c' : Client}

theorem enter_eq (request : Request) : c.enter request =
    { c with
      calls := Function.update c.calls request.lock (some ⟨c.made, request, .entered⟩)
      made := c.made + 1
      topicHandle := (c.enter request).topicHandle } := by
  cases request <;> rfl

theorem leave_eq {lock : Lock} {call : Call} {code : ℤ} {source : Source}
    (h : c.leave lock call code source = .ok c') : c' =
      { c with
        calls := Function.update c.calls lock none
        returned := c.returned ++ [⟨call.id, call.request, code, source, call.request.value code⟩]
        topicHandle := c'.topicHandle } := by
  unfold leave at h
  dsimp only at h
  split at h
  · split at h
    · split at h <;> cases h
      rfl
    · cases h
      rfl
  · split at h <;> cases h <;> rfl
  · cases h
    rfl

/-- What `HandleRecv` makes of a message: a result, or nothing that a call looks at. -/
theorem handleRecv_inv {msg : Message} {of : Option ℕ} {rest : List (Message × Option ℕ)}
    {code : UInt32} {size : ℕ} {failed : Bool}
    (h : c.handleRecv reg msg of rest code size failed = .ok c') :
    (∃ bytes l n, isResult msg.opt = true ∧ msg.payload = bytes :: l ∧
      resultDeserialize code bytes = some n ∧
      c' = { c with stream := rest, resultQueue := c.resultQueue ++ [(n, of)] }) ∨
    isResult msg.opt = false ∧
      c' = { c with stream := rest, topicHandle := c'.topicHandle, handled := c'.handled } := by
  unfold handleRecv at h
  dsimp only at h
  split at h
  · rename_i hres
    split at h
    · cases h
    · rename_i bytes l hp
      split at h <;> cases h
      rename_i n hn
      exact Or.inl ⟨bytes, l, n, hres, hp, hn, rfl⟩
  · rename_i hres
    refine Or.inr ⟨Bool.eq_false_iff.mpr hres, ?_⟩
    split at h
    · split at h
      · cases h
      · split at h
        · cases h
        · cases h
        · split at h <;> cases h <;> rfl
    · cases h
      rfl

/-- Everything a step can do. -/
inductive Moved (reg : Register) (c : Client) : ClientAct → Client → Prop
  /-- The thread cannot go on. -/
  | stays (a : ClientAct) : Moved reg c a c
  | call (request : Request) : c.calls request.lock = none →
      Moved reg c (.call request) (c.enter request)
  | send (lock : Lock) (call : Call) (sent : Bool) : c.calls lock = some call →
      call.progress = .entered → Moved reg c (.send lock sent) (c.sendRequest lock call sent)
  | pop (lock : Lock) (call : Call) (code : ℤ) (of : Option ℕ) (rest : List (ℤ × Option ℕ)) :
      c.calls lock = some call → call.progress = .waiting → c.resultQueue = (code, of) :: rest →
      Moved reg c (.pop lock)
        (({ c with resultQueue := rest } : Client).proceed lock call (.back code (.reply of)))
  | timeout (lock : Lock) (call : Call) : c.calls lock = some call → call.progress = .waiting →
      c.resultQueue = [] → Moved reg c (.timeout lock) (c.proceed lock call (.back (-1) .timeout))
  | finish (lock : Lock) (call : Call) (code : ℤ) (source : Source) (c' : Client) :
      c.calls lock = some call → call.progress = .back code source →
      c.leave lock call code source = .ok c' → Moved reg c (.finish lock) c'
  | answer (msg : Message) (id : ℕ) (request : Message) (rest : List (ℕ × Message)) :
      c.requests = (id, request) :: rest →
      Moved reg c (.answer msg)
        { c with
          requests := rest
          stream := c.stream ++ [(msg, some id)]
          answers := c.answers ++ [(id, msg)] }
  | data (payload : List Str) :
      Moved reg c (.data payload)
        { c with stream := c.stream ++ [(⟨Opt.DATA.toInt, payload⟩, none)] }
  | recv (msg : Message) (of : Option ℕ) (rest : List (Message × Option ℕ)) (code : UInt32)
      (size : ℕ) (failed : Bool) (c' : Client) : c.stream = (msg, of) :: rest →
      c.handleRecv reg msg of rest code size failed = .ok c' →
      Moved reg c (.recv code size failed) c'

theorem step_moved {a : ClientAct} (h : c.step reg a = .ok c') : Moved reg c a c' := by
  cases a with
  | call request =>
    simp only [step] at h
    split at h
    · cases h
    · split at h <;> cases h
      · rename_i hfree; exact .call request hfree
      · exact .stays _
  | send lock sent =>
    simp only [step] at h
    split at h
    · rename_i call hc
      split at h <;> cases h
      · rename_i hp; exact .send lock call sent hc hp
      · exact .stays _
    · cases h; exact .stays _
  | pop lock =>
    simp only [step] at h
    split at h
    · rename_i call code of rest hc hq
      split at h <;> cases h
      · rename_i hp; exact .pop lock call code of rest hc hp hq
      · exact .stays _
    · cases h; exact .stays _
  | timeout lock =>
    simp only [step] at h
    split at h
    · rename_i call hc
      split at h <;> cases h
      · rename_i hp; exact .timeout lock call hc hp.1 hp.2
      · exact .stays _
    · cases h; exact .stays _
  | finish lock =>
    simp only [step] at h
    split at h
    · rename_i call hc
      split at h
      · rename_i code source hp
        exact .finish lock call code source c' hc hp h
      · cases h; exact .stays _
    · cases h; exact .stays _
  | answer msg =>
    simp only [step] at h
    split at h
    · rename_i id request rest hr
      cases h; exact .answer msg id request rest hr
    · cases h; exact .stays _
  | data payload => cases h; exact .data payload
  | recv code size failed =>
    simp only [step] at h
    split at h
    · rename_i msg of rest hs
      exact .recv msg of rest code size failed c' hs h
    · cases h; exact .stays _

end Client

end OeAware

import OeAware.Sdk.Replies
import OeAware.System.Names

/-! @src src/sdk/oe_client.cpp, plugin_mgr/instance_run_handler.cpp |
    name:Impl::Subscribe, Impl::Unsubscribe, InstanceRunHandler::Subscribe, Unsubscribe |
    scheme:state-machine

    A client and the server it is connected to. `Subscribe` registers its callback, asks, and takes the
    callback off again if that fails; `Unsubscribe` asks and then erases the whole entry, under another
    mutex. The server answers requests in their order and may do anything else in between.

        Subscribe    topicHandle[k] += cb ── SUBSCRIBE ──▶ subscibers[k] ∋ fd ── < 0: pop_back
        Unsubscribe                       ── UNSUBSCRIBE ─▶ subscibers[k] ∌ fd ── ≥ 0: erase(k)

    The two sides agree as long as the calls on one topic take turns, a result is that of the call
    that takes it, and its sign tells what the server has done. -/

namespace OeAware
open Schemes

/-- The key in `topicHandle` of the topic that a call is about. -/
def Request.key : Request → Option Str
  | .subscribe topic _ | .unsubscribe topic => some (topicKey topic)
  | .publish _ => none

/-- The client on descriptor `fd`, and the server's scheduler. -/
structure Session where
  client : Client
  server : State

inductive SessionFault where
  | client (fault : ClientFault)
  | server (fault : SystemFault)
  deriving DecidableEq

/-- The next step. -/
inductive SessionAct where
  /-- A step of one of the client's threads. -/
  | client (a : ClientAct)
  /-- The server handles the client's oldest request and answers; `before` is its state when the
      manager thread called the handler. -/
  | serve (before : State) (out : Outside) (ans : Answers) (junk : ℕ)
  /-- Anything the server does for others. -/
  | other (a : Action)

namespace Session
variable (reg : Register) (fd : ℕ) (s : Session)

/-- The manager calls the handler for a request, the scheduler handles its message, the handler
    returns. -/
def serve (msg : Message) (before : State) (out : Outside) (ans : Answers) (junk : ℕ) :
    Except SystemFault (State × EventResult) :=
  match before.dispatch out ⟨msg.opt, .EXTERNAL, msg.payload ++ [toStr fd]⟩ with
  | none => .error .nullHandler
  | some .throws => .error .throws
  | some (.reply _ res) => .ok (s.server, res)
  | some (.send m reply) =>
    (s.server.handleQueued reg m ans junk).map (fun r => (r.1, reply.finish out r.2))

/-- One step; the server's answers are those that it gives. -/
def step : SessionAct → Except SessionFault Session
  | .client (.answer _) => .ok s
  | .client a =>
    match s.client.step reg a with
    | .error e => .error (.client e)
    | .ok client => .ok { s with client := client }
  | .serve before out ans junk =>
    match s.client.requests with
    | [] => .ok s
    | (_, msg) :: _ =>
      match s.serve reg fd msg before out ans junk with
      | .error e => .error (.server e)
      | .ok (server, res) =>
        match s.client.step reg (.answer ⟨res.opt, res.payload⟩) with
        | .error e => .error (.client e)
        | .ok client => .ok ⟨client, server⟩
  | .other a =>
    if a.names (toStr fd) then .ok s
    else
      match OeAware.step s.server a with
      | .error e => .error (.server (.handler e))
      | .ok server => .ok { s with server := server }

end Session

/-- Reached from a new client of a server by steps that all meet `ok`. -/
abbrev SessionRuns (reg : Register) (fd : ℕ) (server : State) (ok : Session → SessionAct → Prop) :
    Session → Prop :=
  Runs (Session.step reg fd) ⟨Client.init, server⟩ ok

/-- How many callbacks a finished call leaves. -/
def Return.counted (key : Str) (n : ℕ) (e : Return) : ℕ :=
  if e.request.key = some key ∧ e.ret = 0 then
    match e.request with
    | .subscribe _ _ => n + 1
    | _ => 0
  else n

/-- The `Subscribe` calls on a key that returned `0` since its last `Unsubscribe` that did. -/
def registered (key : Str) (l : List Return) : ℕ := l.foldl (Return.counted key) 0

/-- A code that an `int` can hold. -/
def Result.Fits (r : Result) : Prop := ∀ code ∈ r.code, -2 ^ 31 ≤ code ∧ code < 2 ^ 31

instance (r : Result) : Decidable r.Fits :=
  inferInstanceAs (Decidable (∀ code ∈ r.code, -2 ^ 31 ≤ code ∧ code < 2 ^ 31))

namespace Session

/-- No call of the mutex is about the topic of `request`. -/
def Clear (s : Session) (lock : Lock) (request : Request) : Prop :=
  ∀ call ∈ s.client.calls lock, call.request.key ≠ request.key

instance (s : Session) (lock : Lock) (request : Request) : Decidable (s.Clear lock request) :=
  inferInstanceAs (Decidable (∀ call ∈ s.client.calls lock, call.request.key ≠ request.key))

/-- `Subscribe` and `Unsubscribe` on one topic take turns, a request is sent while nothing else is under
    way, neither gives up a request that the server may still answer, and a code that the server has
    left uninitialised is not negative. -/
def Orderly (s : Session) : SessionAct → Prop
  | .client (.call (.subscribe topic cb)) =>
    topic.Fits ∧ s.Clear .unsubMutex (.subscribe topic cb)
  | .client (.call (.unsubscribe topic)) => topic.Fits ∧ s.Clear .subMutex (.unsubscribe topic)
  | .client (.timeout lock) => lock = .pubMutex ∨ s.client.outstanding = []
  | .client a => s.client.Alone a
  | .serve _ out ans _ => 0 ≤ out.code.toInt32.toInt ∧ ans.enable.Fits ∧ ans.openTopic.Fits
  | .other _ => True

instance (s : Session) : ∀ a, Decidable (s.Orderly a)
  | .client (.call (.subscribe topic cb)) =>
    inferInstanceAs (Decidable (topic.Fits ∧ s.Clear .unsubMutex (.subscribe topic cb)))
  | .client (.call (.unsubscribe topic)) =>
    inferInstanceAs (Decidable (topic.Fits ∧ s.Clear .subMutex (.unsubscribe topic)))
  | .client (.timeout lock) =>
    inferInstanceAs (Decidable (lock = .pubMutex ∨ s.client.outstanding = []))
  | .serve _ out ans _ => inferInstanceAs (Decidable
      (0 ≤ out.code.toInt32.toInt ∧ ans.enable.Fits ∧ ans.openTopic.Fits))
  | .client (.call (.publish d)) =>
    inferInstanceAs (Decidable (s.client.Alone (.call (.publish d))))
  | .client (.send lock sent) => inferInstanceAs (Decidable (s.client.Alone (.send lock sent)))
  | .client (.pop _) | .client (.finish _) | .client (.answer _) | .client (.data _)
  | .client (.recv _ _ _) | .other _ => isTrue trivial

end Session

/-! ### What the server does for a request -/

theorem toInt_ofInt {code : ℤ} (h : -2 ^ 31 ≤ code) (h' : code < 2 ^ 31) :
    (UInt32.ofInt code).toInt32.toInt = code := by
  show (UInt32.ofNat (code % 2 ^ 32).toNat).toBitVec.toInt = code
  rw [UInt32.toBitVec_ofNat', BitVec.toInt_ofNat',
    Int.toNat_of_nonneg (Int.emod_nonneg _ (by decide)),
    show (2 : ℤ) ^ 32 = ((2 ^ 32 : ℕ) : ℤ) from rfl, Int.emod_bmod]
  apply Int.bmod_eq_of_le <;> omega

/-- The sign of the code that a client reads is that of the result, if what was never assigned is not
    negative. -/
theorem encode_sign {r : Result} (hr : r.Fits) {junk : UInt32} (hj : 0 ≤ junk.toInt32.toInt)
    {opt : UInt32} {code : ℤ} (h : Message.Says ⟨opt, [r.encode junk]⟩ code) :
    code < 0 ↔ r.failed = true := by
  obtain ⟨old, bytes, rest, hp, hd⟩ := h
  cases hp
  simp only [resultDeserialize, Result.encode, readInt_ser] at hd
  obtain ⟨_, _, rfl⟩ := Option.map_eq_some_iff.mp hd
  cases hc : r.code with
  | none => simpa [Result.failed, hc] using hj
  | some code =>
    obtain ⟨hlo, hhi⟩ := hr code hc
    simp [Result.failed, hc, toInt_ofInt hlo hhi]

/-- Where the code of `Subscribe` is from. -/
theorem subscribe_fits {s : State} {type x : Str} {ans : Answers} (he : ans.enable.Fits)
    (ho : ans.openTopic.Fits) : (s.subscribe type x ans).2.Fits := by
  have hfailed : ∀ text, Result.Fits ⟨some FAILED, text⟩ := by
    rintro text code ⟨⟩
    decide
  have hunset : Result.unset.Fits := nofun
  have hto : ∀ (s : State) p r, r.Fits → (s.subscribeTo p type x ans r).2.Fits := by
    intro s p r hr
    unfold State.subscribeTo
    dsimp only
    split
    · exact hr
    · split
      · exact ho
      · exact ho
  have hen : ∀ name params, (s.enableInstance name params ans.enable).2.Fits := by
    intro name params
    have := enable_outcome s name params ans.enable
    generalize s.enableInstance name params ans.enable = res at this
    cases this with
    | missing text => exact hfailed text
    | failed => exact he
    | enabled => exact he
  unfold State.subscribe
  dsimp only
  split
  · exact hfailed _
  · split
    · exact hto s _ _ hunset
    · split
      · exact hen _ _
      · exact hto _ _ _ (hen _ _)

/-- `Subscribe` touches one name in one set; it is there if the result does not say it failed. -/
theorem subscribe_held {s : State} (hs : StoreOk s) (type x : Str) (ans : Answers) :
    (∀ type', type' ≠ type → (x ∈ (s.subscribe type x ans).1.subs type' ↔ x ∈ s.subs type')) ∧
    if (s.subscribe type x ans).2.failed then
      x ∈ (s.subscribe type x ans).1.subs type ↔ x ∈ s.subs type
    else x ∈ (s.subscribe type x ans).1.subs type := by
  split
  · rename_i hf
    simp [subscribe_failed hs hf]
  · rename_i hf
    have hsub : ∀ s1 p t, s1.subscibers = s.subscibers → ∀ type', (x ∈
        (State.subscribed s1 p t type x).subs type' ↔ type' = type ∨ x ∈ s.subs type') := by
      intro s1 p t h1 type'
      rw [State.subscribed_eq]
      refine (s1.mem_subs_addSub type x type' x).trans ?_
      rw [subs_congr h1]
      simp
    have hall : ∀ type', x ∈ (s.subscribe type x ans).1.subs type' ↔
        type' = type ∨ x ∈ s.subs type' := by
      have := subscribe_outcome hs type x ans
      generalize s.subscribe type x ans = res at this hf
      cases this with
      | missing => exact absurd rfl hf
      | notEnabled p _ _ he => exact absurd he hf
      | refused p s1 _ _ _ ho => exact absurd ho hf
      | known p s1 r _ h1 => exact hsub _ p _ h1.same.subscibers
      | opened p s1 _ h1 =>
        refine hsub _ p _ (Eq.trans ?_ h1.same.subscibers)
        exact (topics_openTopic (s1.touch (getTopicFromType type)) p _ ans.openTopic).2
    refine ⟨fun type' hne => ?_, (hall type).mpr (Or.inl rfl)⟩
    rw [hall type']
    exact or_iff_right hne

/-- Its topic's strings are ones that a `std::string` can hold. -/
def Request.Fits : Request → Prop
  | .subscribe topic _ | .unsubscribe topic => topic.Fits
  | .publish _ => True

/-- What the server has done about a request when a client reads `code` off its answer. -/
def Request.Did (x : Str) (old new : State) (code : ℤ) : Request → Prop
  | .subscribe topic _ =>
    if code < 0 then x ∈ new.subs (topicKey topic) ↔ x ∈ old.subs (topicKey topic)
    else x ∈ new.subs (topicKey topic)
  | .unsubscribe topic => 0 ≤ code ∧ x ∉ new.subs (topicKey topic)
  | .publish _ => True

/-- The answer to a request is a result, the request touches the set of its own topic alone, and the
    code tells how. -/
structure Answered (x : Str) (old new : State) (request : Request) (res : EventResult) : Prop where
  isResult : Client.isResult res.opt = true
  others : ∀ k, k ∉ request.key → (x ∈ new.subs k ↔ x ∈ old.subs k)
  did : ∀ code, Message.Says ⟨res.opt, res.payload⟩ code → request.Did x old new code

section
variable {reg : Register} {fd : ℕ} {s s' : Session} {server before : State} {res : EventResult}
  {out : Outside} {ans : Answers} {junk : ℕ}

theorem rejects_failed {s : State} {topic : Topic} {r : Result} (h : s.subscribeRejects topic = some r) :
    r.failed = true ∧ r.Fits := by
  unfold State.subscribeRejects at h
  split at h
  · cases h
    exact ⟨rfl, by rintro code ⟨⟩; decide⟩
  · split at h <;> cases h
    exact ⟨rfl, by rintro code ⟨⟩; decide⟩

theorem answered_subscribe {topic : Topic} {callback : ℕ} (hs : StoreOk s.server) (hfit : topic.Fits)
    (hok : s.Orderly (.serve before out ans junk))
    (h : s.serve reg fd (Request.subscribe topic callback).toMessage before out ans junk =
      .ok (server, res)) :
    Answered (toStr fd) s.server server (.subscribe topic callback) res := by
  obtain ⟨hj, hen, hop⟩ := hok
  have hdes := deserialize_topic hfit []
  rw [List.append_nil] at hdes
  simp only [Session.serve, Request.toMessage, State.dispatch, ofInt_toInt, Option.bind_some,
    State.eventHandler, List.cons_append, List.nil_append, State.subscribeHandler, topicSerialize,
    hdes] at h
  cases hr : before.subscribeRejects topic with
  | some r =>
    rw [hr] at h
    cases h
    obtain ⟨hf, hfits⟩ := rejects_failed hr
    refine ⟨rfl, fun _ _ => Iff.rfl, fun code hshown => ?_⟩
    rw [Request.Did, if_pos ((encode_sign hfits hj hshown).mpr hf)]
  | none =>
    rw [hr] at h
    obtain ⟨⟨state, r⟩, hq, he⟩ := map_ok h
    cases he
    have hq' : (.ok (s.server.subscribe topic.getType (toStr fd) ans) : Except SystemFault _) =
      .ok (state, r) := hq
    have hheld := subscribe_held hs topic.getType (toStr fd) ans
    have hfits : (s.server.subscribe topic.getType (toStr fd) ans).2.Fits := subscribe_fits hen hop
    rw [Except.ok.inj hq'] at hheld hfits
    refine ⟨rfl, fun k hk => hheld.1 k (fun he => hk (congrArg some he.symm)), fun code hshown => ?_⟩
    have hd := hheld.2
    rw [if_congr (encode_sign hfits hj hshown).symm rfl rfl] at hd
    exact hd

theorem answered_unsubscribe {topic : Topic} (hfit : topic.Fits)
    (hok : s.Orderly (.serve before out ans junk))
    (h : s.serve reg fd (Request.unsubscribe topic).toMessage before out ans junk =
      .ok (server, res)) :
    Answered (toStr fd) s.server server (.unsubscribe topic) res := by
  have hdes := deserialize_topic hfit []
  rw [List.append_nil] at hdes
  simp only [Session.serve, Request.toMessage, State.dispatch, ofInt_toInt, Option.bind_some,
    State.eventHandler, List.cons_append, List.nil_append, State.unsubscribeHandler, topicSerialize,
    hdes] at h
  obtain ⟨⟨state, r⟩, hq, he⟩ := map_ok h
  cases he
  obtain ⟨s1, h1, heq⟩ := map_ok (mapError_ok hq)
  cases heq
  refine ⟨rfl, fun k hk => ?_, fun code hshown => ⟨?_, unsubscribe_gone h1⟩⟩
  · rw [subs_congr (updateInstance_swept h1).subscibers, State.mem_subs_eraseSub]
    exact and_iff_left (fun he => hk (congrArg some he.1.symm))
  · have hsign := encode_sign (r := .unset) nofun hok.1 hshown
    exact not_lt.mp (fun hlt => absurd (hsign.mp hlt) nofun)

theorem answered_publish {d : DataList} (hs : StoreOk s.server)
    (h : s.serve reg fd (Request.publish d).toMessage before out ans junk = .ok (server, res)) :
    Answered (toStr fd) s.server server (.publish d) res := by
  simp only [Session.serve, Request.toMessage, State.dispatch, ofInt_toInt, Option.bind_some,
    State.eventHandler, State.publishHandler] at h
  obtain ⟨⟨state, r⟩, hq, he⟩ := map_ok h
  cases he
  obtain ⟨m, hm, hh⟩ := handleQueued_ok hq
  obtain ⟨d', rfl⟩ : ∃ d', m = .PUBLISH d' := (System.decoded_inv hm).resolve_left nofun
  refine ⟨rfl, fun k _ => ?_, fun _ _ => trivial⟩
  exact step_other_name hs (a := .message (.PUBLISH d') ans) (by rintro _ _ ⟨⟩; nofun)
    (by rw [step, hh]; rfl) k

theorem serve_answered {request : Request} (hs : StoreOk s.server) (hfit : request.Fits)
    (hok : s.Orderly (.serve before out ans junk))
    (h : s.serve reg fd request.toMessage before out ans junk = .ok (server, res)) :
    Answered (toStr fd) s.server server request res := by
  cases request with
  | subscribe topic callback => exact answered_subscribe hs hfit hok h
  | unsubscribe topic => exact answered_unsubscribe hfit hok h
  | publish d => exact answered_publish hs h

/-! ### The two sides -/

namespace Session

/-- The server has the client in the set of a key. -/
def Held (fd : ℕ) (s : Session) (key : Str) : Prop := toStr fd ∈ s.server.subs key

/-- The server has the client where its finished calls say so. -/
def Agree (fd : ℕ) (s : Session) (key : Str) : Prop :=
  s.Held fd key ↔ 0 < registered key s.client.returned

/-- Nothing has come of a request yet. -/
def Untouched (fd : ℕ) (s : Session) (request : Request) : Prop :=
  ∀ key ∈ request.key, s.Agree fd key

/-- What the server has done, seen from a call that goes on with `code`. -/
def Done (fd : ℕ) (s : Session) (code : ℤ) : Request → Prop
  | .subscribe topic _ =>
    if code < 0 then s.Agree fd (topicKey topic) else s.Held fd (topicKey topic)
  | .unsubscribe topic =>
    if code < 0 then s.Agree fd (topicKey topic) else ¬ s.Held fd (topicKey topic)
  | .publish _ => True

/-- The results on their way. -/
def results (s : Session) : List (Message × Option ℕ) :=
  s.client.stream.filter (fun e => Client.isResult e.1.opt)

/-- The one request of a call that waits: lost, with the server, answered, or its result queued. -/
inductive Awaits (fd : ℕ) (s : Session) (request : Request) : Prop
  | lost : s.client.outstanding = [] → s.Untouched fd request → Awaits fd s request
  | asked (id : ℕ) : s.client.resultQueue = [] → s.results = [] →
      s.client.requests = [(id, request.toMessage)] → s.Untouched fd request → Awaits fd s request
  | answered (msg : Message) (of : Option ℕ) : s.client.resultQueue = [] →
      s.results = [(msg, of)] → s.client.requests = [] →
      (∀ code, msg.Says code → s.Done fd code request) → Awaits fd s request
  | queued (code : ℤ) (of : Option ℕ) : s.client.resultQueue = [(code, of)] → s.results = [] →
      s.client.requests = [] → s.Done fd code request → Awaits fd s request

/-- How far a call has got, and what that means at the server. -/
def Reflects (fd : ℕ) (s : Session) (call : Call) : Prop :=
  match call.progress with
  | .entered => s.Untouched fd call.request
  | .waiting => s.Awaits fd call.request
  | .back code _ => s.Done fd code call.request

end Session

/-- The client and the server agree on every topic that no call is at, and every call knows how far the
    server has got with its own. -/
structure Synced (fd : ℕ) (s : Session) : Prop where
  store : StoreOk s.server
  connected : s.client.socketStream = true
  locks : ∀ lock, ∀ call ∈ s.client.calls lock, call.request.lock = lock ∧ call.request.Fits
  single : ∀ lock, ∀ call ∈ s.client.calls lock, ∀ lock', ∀ call' ∈ s.client.calls lock',
    call.progress = .waiting → call'.progress = .waiting → lock = lock'
  apart : ∀ lock, ∀ call ∈ s.client.calls lock, ∀ lock', ∀ call' ∈ s.client.calls lock',
    ∀ key ∈ call.request.key, key ∈ call'.request.key → lock = lock'
  agree : ∀ key, (∀ lock, ∀ call ∈ s.client.calls lock, key ∉ call.request.key) → s.Agree fd key
  reflects : ∀ lock, ∀ call ∈ s.client.calls lock, s.Reflects fd call
  stale : (∀ lock, ∀ call ∈ s.client.calls lock, call.progress ≠ .waiting) →
    ∀ e ∈ s.client.requests, ∃ d, e.2 = (Request.publish d).toMessage
  handles : ∀ key, (∀ call ∈ s.client.calls .subMutex, key ∉ call.request.key) →
    (s.client.handles key).length = registered key s.client.returned
  callback : ∀ id topic callback progress,
    s.client.calls .subMutex = some ⟨id, .subscribe topic callback, progress⟩ →
    ∃ l, s.client.handles (topicKey topic) = l ++ [callback] ∧
      l.length = registered (topicKey topic) s.client.returned

theorem synced_start {server : State} (hs : StoreOk server) (hnone : ∀ type, toStr fd ∉ server.subs type) :
    Synced fd ⟨Client.init, server⟩ where
  store := hs
  connected := rfl
  locks := nofun
  single := nofun
  apart := nofun
  agree key _ := iff_of_false (hnone key) (Nat.lt_irrefl 0)
  reflects := nofun
  stale := nofun
  handles _ _ := rfl
  callback := nofun

/-! ### One step of the client -/

theorem outstanding_nil : s.client.outstanding = [] ↔
    s.client.resultQueue = [] ∧ s.results = [] ∧ s.client.requests = [] := by
  simp [Client.outstanding, Session.results]

/-- Neither the set of a key nor the count of its calls has changed. -/
def Session.SameAt (fd : ℕ) (s s' : Session) (key : Str) : Prop :=
  (s'.Held fd key ↔ s.Held fd key) ∧
    registered key s'.client.returned = registered key s.client.returned

theorem agree_congr {key : Str} (h : s.SameAt fd s' key) : s'.Agree fd key ↔ s.Agree fd key := by
  rw [Session.Agree, Session.Agree, h.1, h.2]

theorem untouched_congr {request : Request} (hsame : ∀ key ∈ request.key, s.SameAt fd s' key)
    (h : s.Untouched fd request) : s'.Untouched fd request :=
  fun key hk => (agree_congr (hsame key hk)).mpr (h key hk)

theorem done_congr {code : ℤ} {request : Request}
    (hsame : ∀ key ∈ request.key, s.SameAt fd s' key) (h : s.Done fd code request) :
    s'.Done fd code request := by
  cases request with
  | subscribe topic callback =>
    have hkey := hsame (topicKey topic) rfl
    simpa only [Session.Done, agree_congr hkey, hkey.1] using h
  | unsubscribe topic =>
    have hkey := hsame (topicKey topic) rfl
    simpa only [Session.Done, agree_congr hkey, hkey.1] using h
  | publish d => trivial

/-- Nothing came of it. -/
theorem Session.Untouched.done {request : Request} (h : s.Untouched fd request) {code : ℤ}
    (hc : code < 0) : s.Done fd code request := by
  cases request with
  | subscribe topic callback => rw [Session.Done, if_pos hc]; exact h _ rfl
  | unsubscribe topic => rw [Session.Done, if_pos hc]; exact h _ rfl
  | publish d => trivial

theorem awaits_congr {request : Request} (hsame : ∀ key ∈ request.key, s.SameAt fd s' key)
    (hqueue : s'.client.resultQueue = s.client.resultQueue) (hresults : s'.results = s.results)
    (hreq : s'.client.requests = s.client.requests) (h : s.Awaits fd request) :
    s'.Awaits fd request := by
  cases h with
  | lost hout hu =>
    refine .lost (outstanding_nil.mpr ?_) (untouched_congr hsame hu)
    rw [hqueue, hresults, hreq]
    exact outstanding_nil.mp hout
  | asked id hq hr hreqs hu =>
    exact .asked id (hqueue.trans hq) (hresults.trans hr) (hreq.trans hreqs)
      (untouched_congr hsame hu)
  | answered msg of hq hr hreqs hd =>
    exact .answered msg of (hqueue.trans hq) (hresults.trans hr) (hreq.trans hreqs)
      (fun code hshown => done_congr hsame (hd code hshown))
  | queued code of hq hr hreqs hd =>
    exact .queued code of (hqueue.trans hq) (hresults.trans hr) (hreq.trans hreqs)
      (done_congr hsame hd)

/-- A call that does not wait looks at no queue. -/
theorem reflects_congr {call : Call}
    (hsame : call.progress ≠ .waiting → ∀ key ∈ call.request.key, s.SameAt fd s' key)
    (hw : call.progress = .waiting → s.Awaits fd call.request → s'.Awaits fd call.request)
    (h : s.Reflects fd call) : s'.Reflects fd call := by
  unfold Session.Reflects at h ⊢
  split at h
  · rename_i hp
    exact untouched_congr (hsame (by rw [hp]; nofun)) h
  · rename_i hp
    exact hw hp h
  · rename_i hp
    exact done_congr (hsame (by rw [hp]; nofun)) h

/-- The calls, their results and the callbacks stay as they are, and the sets of all topics but that
    of the call that waits. -/
theorem Synced.congr (h : Synced fd s) (hs : StoreOk s'.server)
    (hheld : ∀ key, (∀ lock, ∀ call ∈ s.client.calls lock, call.progress = .waiting →
      key ∉ call.request.key) → (s'.Held fd key ↔ s.Held fd key))
    (hcalls : s'.client.calls = s.client.calls)
    (hret : s'.client.returned = s.client.returned)
    (hhandles : ∀ key, s'.client.handles key = s.client.handles key)
    (hconn : s'.client.socketStream = s.client.socketStream)
    (hreq : s'.client.requests ⊆ s.client.requests)
    (hw : ∀ lock, ∀ call ∈ s.client.calls lock, call.progress = .waiting →
      s.Awaits fd call.request → s'.Awaits fd call.request) : Synced fd s' where
  store := hs
  connected := hconn.trans h.connected
  locks := by rw [hcalls]; exact h.locks
  single := by rw [hcalls]; exact h.single
  apart := by rw [hcalls]; exact h.apart
  agree key hk := by
    rw [hcalls] at hk
    exact (agree_congr ⟨hheld key (fun l c hm _ => hk l c hm), by rw [hret]⟩).mpr (h.agree key hk)
  reflects lock call hc := by
    rw [hcalls] at hc
    refine reflects_congr (fun hp key hk => ⟨hheld key ?_, by rw [hret]⟩) (hw lock call hc)
      (h.reflects lock call hc)
    intro l c hm hp' hk'
    obtain rfl := h.apart lock call hc l c hm key hk hk'
    cases hc.symm.trans hm
    exact hp hp'
  stale hw e he := by
    rw [hcalls] at hw
    exact h.stale hw e (hreq he)
  handles key hk := by
    rw [hcalls] at hk
    rw [hhandles, hret]
    exact h.handles key hk
  callback := by
    rw [hcalls, hret]
    intro id topic callback progress hc
    rw [hhandles]
    exact h.callback id topic callback progress hc

/-- A call goes on, and no other waits. -/
theorem Synced.proceed (h : Synced fd s) {lock : Lock} {call : Call} {progress : Progress}
    (hc : s.client.calls lock = some call)
    (hcalls : s'.client.calls =
      Function.update s.client.calls lock (some { call with progress := progress }))
    (hret : s'.client.returned = s.client.returned)
    (htopic : s'.client.topicHandle = s.client.topicHandle)
    (hconn : s'.client.socketStream = s.client.socketStream) (hserver : s'.server = s.server)
    (hothers : ∀ l, l ≠ lock → ∀ call ∈ s.client.calls l, call.progress ≠ .waiting)
    (hnew : s'.Reflects fd { call with progress := progress })
    (hstale : progress ≠ .waiting →
      ∀ e ∈ s'.client.requests, ∃ d, e.2 = (Request.publish d).toMessage) : Synced fd s' := by
  have hsame : ∀ key, s.SameAt fd s' key := fun key => by
    rw [Session.SameAt, Session.Held, Session.Held, hserver, hret]
    exact ⟨Iff.rfl, rfl⟩
  have hhandles : ∀ key, s'.client.handles key = s.client.handles key := fun key => by
    rw [Client.handles, Client.handles, htopic]
  -- every call is an old one, or the old one at `lock` with its new progress
  have hold : ∀ l, ∀ c ∈ s'.client.calls l, ∃ c0 ∈ s.client.calls l, c0.request = c.request ∧
      (l ≠ lock → c0 = c) := by
    intro l c hm
    rw [hcalls] at hm
    by_cases hl : l = lock
    · subst hl
      rw [Function.update_self] at hm
      cases hm
      exact ⟨call, hc, rfl, fun hne => absurd rfl hne⟩
    · rw [Function.update_of_ne hl] at hm
      exact ⟨c, hm, rfl, fun _ => rfl⟩
  have hkeep : ∀ l, ∀ c0 ∈ s.client.calls l, ∃ c ∈ s'.client.calls l, c.request = c0.request := by
    intro l c0 hm
    rw [hcalls]
    by_cases hl : l = lock
    · subst hl
      cases hc.symm.trans hm
      exact ⟨{ call with progress := progress }, by rw [Function.update_self]; rfl, rfl⟩
    · exact ⟨c0, by rw [Function.update_of_ne hl]; exact hm, rfl⟩
  refine ⟨hserver ▸ h.store, hconn.trans h.connected, ?_, ?_, ?_, ?_, ?_, ?_, ?_, ?_⟩
  · intro l c hm
    obtain ⟨c0, hm0, hreq, _⟩ := hold l c hm
    exact hreq ▸ h.locks l c0 hm0
  · intro l c hm l' c' hm' hp hp'
    obtain ⟨c0, hm0, _, hsame⟩ := hold l c hm
    obtain ⟨c0', hm0', _, hsame'⟩ := hold l' c' hm'
    by_contra hne
    by_cases hl : l = lock
    · exact hothers l' (fun he => hne (hl.trans he.symm)) c0' hm0' (hsame' (fun he => hne
        (hl.trans he.symm)) ▸ hp')
    · exact hothers l hl c0 hm0 (hsame hl ▸ hp)
  · intro l c hm l' c' hm' key hk hk'
    obtain ⟨c0, hm0, hreq, _⟩ := hold l c hm
    obtain ⟨c0', hm0', hreq', _⟩ := hold l' c' hm'
    exact h.apart l c0 hm0 l' c0' hm0' key (hreq ▸ hk) (hreq' ▸ hk')
  · intro key hk
    refine (agree_congr (hsame key)).mpr (h.agree key (fun l c0 hm0 => ?_))
    obtain ⟨c, hm, hreq⟩ := hkeep l c0 hm0
    exact hreq ▸ hk l c hm
  · intro l c hm
    by_cases hl : l = lock
    · subst hl
      rw [hcalls, Function.update_self] at hm
      cases hm
      exact hnew
    · rw [hcalls, Function.update_of_ne hl] at hm
      exact reflects_congr (fun _ key _ => hsame key) (fun hp => absurd hp (hothers l hl c hm))
        (h.reflects l c hm)
  · intro hw
    refine hstale ?_
    have := hw lock { call with progress := progress } (by rw [hcalls, Function.update_self]; rfl)
    exact this
  · intro key hk
    rw [hhandles, hret]
    refine h.handles key (fun c0 hm0 => ?_)
    obtain ⟨c, hm, hreq⟩ := hkeep _ c0 hm0
    exact hreq ▸ hk c hm
  · intro id topic callback p hm
    obtain ⟨⟨id0, request0, p0⟩, hm0, hreq, _⟩ := hold _ _ hm
    cases hreq
    rw [hhandles, hret]
    exact h.callback id0 topic callback p0 hm0

theorem Synced.others (h : Synced fd s) {lock : Lock} {call : Call}
    (hc : s.client.calls lock = some call) (hp : call.progress = .waiting) :
    ∀ l, l ≠ lock → ∀ c ∈ s.client.calls l, c.progress ≠ .waiting :=
  fun l hl c hm hw => hl (h.single l c hm lock call hc hw hp)

theorem Synced.send (h : Synced fd s) {lock : Lock} {call : Call} {sent : Bool}
    (hc : s.client.calls lock = some call) (hp : call.progress = .entered)
    (hok : s.client.Alone (.send lock sent)) :
    Synced fd { s with client := s.client.sendRequest lock call sent } := by
  have hothers : ∀ l, ∀ c ∈ s.client.calls l, c.progress ≠ .waiting := by
    intro l
    cases l <;> exact hok.2 _ (by simp)
  have huntouched : s.Untouched fd call.request := by
    have := h.reflects lock call hc
    simpa only [Session.Reflects, hp] using this
  obtain ⟨hqueue, hresults, hrequests⟩ := outstanding_nil.mp hok.1
  have heq : s.client.sendRequest lock call sent =
      { s.client.proceed lock call .waiting with
        requests := if sent then [(call.id, call.request.toMessage)] else [] } := by
    cases sent <;> simp [Client.sendRequest, h.connected, hrequests, Client.proceed]
  rw [heq]
  refine h.proceed hc rfl rfl rfl rfl rfl (fun l _ => hothers l) ?_ (fun hne => absurd rfl hne)
  cases sent with
  | false => exact .lost (outstanding_nil.mpr ⟨hqueue, hresults, rfl⟩) huntouched
  | true => exact .asked call.id hqueue hresults rfl huntouched

theorem Synced.pop (h : Synced fd s) {lock : Lock} {call : Call} {code : ℤ} {of : Option ℕ}
    {rest : List (ℤ × Option ℕ)} (hc : s.client.calls lock = some call)
    (hp : call.progress = .waiting) (hq : s.client.resultQueue = (code, of) :: rest) :
    Synced fd { s with client :=
      ({ s.client with resultQueue := rest } : Client).proceed lock call (.back code (.reply of)) } := by
  have hawaits : s.Awaits fd call.request := by
    have := h.reflects lock call hc
    simpa only [Session.Reflects, hp] using this
  cases hawaits with
  | lost hout =>
    rw [(outstanding_nil.mp hout).1] at hq
    cases hq
  | asked id hqueue => rw [hqueue] at hq; cases hq
  | answered msg of' hqueue => rw [hqueue] at hq; cases hq
  | queued code' of' hqueue hresults hrequests hdone =>
    cases hqueue.symm.trans hq
    refine h.proceed hc rfl rfl rfl rfl rfl (h.others hc hp) hdone
      (fun _ e (he : e ∈ s.client.requests) => ?_)
    rw [hrequests] at he
    cases he

theorem Synced.timeout (h : Synced fd s) {lock : Lock} {call : Call}
    (hc : s.client.calls lock = some call) (hp : call.progress = .waiting)
    (hok : lock = .pubMutex ∨ s.client.outstanding = []) :
    Synced fd { s with client := s.client.proceed lock call (.back (-1) .timeout) } := by
  have hawaits : s.Awaits fd call.request := by
    have := h.reflects lock call hc
    simpa only [Session.Reflects, hp] using this
  have hneg : (-1 : ℤ) < 0 := by decide
  rcases hok with rfl | hout
  · -- a publication: whatever its request comes to, no set is touched
    obtain ⟨d, hd⟩ : ∃ d, call.request = .publish d := by
      have := (h.locks _ call hc).1
      cases hr : call.request with
      | publish d => exact ⟨d, rfl⟩
      | subscribe | unsubscribe => rw [hr] at this; cases this
    refine h.proceed hc rfl rfl rfl rfl rfl (h.others hc hp) ?_
      (fun _ e (he : e ∈ s.client.requests) => ?_)
    · show Session.Done _ _ _ call.request
      rw [hd]
      trivial
    · cases hawaits with
      | lost hout => rw [(outstanding_nil.mp hout).2.2] at he; cases he
      | asked id _ _ hrequests =>
        rw [hrequests, hd] at he
        exact ⟨d, by rw [List.mem_singleton.mp he]⟩
      | answered _ _ _ _ hrequests | queued _ _ _ _ hrequests => rw [hrequests] at he; cases he
  · obtain ⟨hqueue, hresults, hrequests⟩ := outstanding_nil.mp hout
    refine h.proceed hc rfl rfl rfl rfl rfl (h.others hc hp) ?_
      (fun _ e (he : e ∈ s.client.requests) => ?_)
    · cases hawaits with
      | lost _ hu => exact hu.done hneg
      | asked _ _ _ hr hu => exact hu.done hneg
      | answered _ _ _ hr => rw [hresults] at hr; cases hr
      | queued _ _ hr => rw [hqueue] at hr; cases hr
    · rw [hrequests] at he
      cases he

/-- The call of another mutex is about another topic. -/
theorem orderly_free (h : Synced fd s) {request : Request}
    (hfree : s.client.calls request.lock = none) (hok : s.Orderly (.client (.call request))) :
    ∀ lock, ∀ call ∈ s.client.calls lock, ∀ key ∈ request.key, key ∉ call.request.key := by
  intro lock call hc key hk hk'
  have hlock := (h.locks lock call hc).1
  have hsame : call.request.key = request.key := hk'.trans hk.symm
  cases request with
  | publish d => cases hk
  | subscribe topic callback =>
    cases hr : call.request with
    | subscribe topic' callback' =>
      rw [hr] at hlock
      subst hlock
      cases hc.symm.trans hfree
    | unsubscribe topic' =>
      rw [hr] at hlock
      subst hlock
      exact hok.2 call hc hsame
    | publish d => rw [hr] at hk'; cases hk'
  | unsubscribe topic =>
    cases hr : call.request with
    | subscribe topic' callback' =>
      rw [hr] at hlock
      subst hlock
      exact hok.2 call hc hsame
    | unsubscribe topic' =>
      rw [hr] at hlock
      subst hlock
      cases hc.symm.trans hfree
    | publish d => rw [hr] at hk'; cases hk'

theorem orderly_fits {request : Request} (hok : s.Orderly (.client (.call request))) :
    request.Fits := by
  cases request with
  | subscribe topic callback => exact hok.1
  | unsubscribe topic => exact hok.1
  | publish d => trivial

/-- A call registers a callback for its own topic alone, and behind all others. -/
theorem handles_enter (c : Client) (request : Request) (key : Str) :
    (c.enter request).handles key = match request with
      | .subscribe topic callback =>
        if key = topicKey topic then c.handles key ++ [callback] else c.handles key
      | _ => c.handles key := by
  cases request with
  | subscribe topic callback =>
    simp only [Client.enter, Client.handles, UMap.find_insert]
    split
    · rename_i hk
      rw [hk]
      rfl
    · rfl
  | unsubscribe | publish => rfl

theorem Synced.enter (h : Synced fd s) {request : Request}
    (hfree : s.client.calls request.lock = none) (hok : s.Orderly (.client (.call request))) :
    Synced fd { s with client := s.client.enter request } := by
  have hapart := orderly_free h hfree hok
  have hcalls : (s.client.enter request).calls =
      Function.update s.client.calls request.lock (some ⟨s.client.made, request, .entered⟩) := by
    rw [Client.enter_eq]
  have hret : (s.client.enter request).returned = s.client.returned := by rw [Client.enter_eq]
  have hold : ∀ l, ∀ c ∈ s.client.calls l, l ≠ request.lock ∧ c ∈ (s.client.enter request).calls l := by
    intro l c hm
    have hl : l ≠ request.lock := by
      rintro rfl
      cases hm.symm.trans hfree
    exact ⟨hl, by rw [hcalls, Function.update_of_ne hl]; exact hm⟩
  have hnew : ∀ {P : Call → Lock → Prop}, P ⟨s.client.made, request, .entered⟩ request.lock →
      (∀ l, ∀ c ∈ s.client.calls l, P c l) → ∀ l, ∀ c ∈ (s.client.enter request).calls l, P c l := by
    intro P h1 h2 l c hm
    rw [hcalls] at hm
    by_cases hl : l = request.lock
    · subst hl
      rw [Function.update_self] at hm
      cases hm
      exact h1
    · rw [Function.update_of_ne hl] at hm
      exact h2 l c hm
  have huntouched : s.Untouched fd request :=
    fun key hk => h.agree key (fun l c hm => hapart l c hm key hk)
  have hagree : ∀ key, s.Agree fd key →
      Session.Agree fd { s with client := s.client.enter request } key := by
    intro key ha
    rw [Session.Agree, hret]
    exact ha
  refine ⟨h.store, ?_, ?_, ?_, ?_, ?_, ?_, ?_, ?_, ?_⟩
  · show (s.client.enter request).socketStream = true
    rw [Client.enter_eq]
    exact h.connected
  · exact hnew (P := fun c l => c.request.lock = l ∧ c.request.Fits) ⟨rfl, orderly_fits hok⟩ h.locks
  · refine hnew (P := fun c l => ∀ l', ∀ c' ∈ (s.client.enter request).calls l',
      c.progress = .waiting → c'.progress = .waiting → l = l') (fun _ _ _ => nofun) ?_
    intro l c hm
    exact hnew (P := fun c' l' => c.progress = .waiting → c'.progress = .waiting → l = l')
      (fun _ => nofun) (h.single l c hm)
  · refine hnew (P := fun c l => ∀ l', ∀ c' ∈ (s.client.enter request).calls l',
      ∀ key ∈ c.request.key, key ∈ c'.request.key → l = l') ?_ ?_
    · exact hnew (P := fun c' l' => ∀ key ∈ request.key, key ∈ c'.request.key → request.lock = l')
        (fun _ _ _ => rfl) (fun l' c' hm' key hk hk' => absurd hk' (hapart l' c' hm' key hk))
    · intro l c hm
      exact hnew (P := fun c' l' => ∀ key ∈ c.request.key, key ∈ c'.request.key → l = l')
        (fun key hk hk' => absurd hk (hapart l c hm key hk')) (h.apart l c hm)
  · intro key hk
    exact hagree key (h.agree key (fun l c hm => hk l c (hold l c hm).2))
  · refine hnew (P := fun c _ => Session.Reflects fd { s with client := s.client.enter request } c)
      (fun key hk => hagree key (huntouched key hk)) ?_
    intro l c hm
    rw [Client.enter_eq]
    exact reflects_congr (s := s) (fun _ _ _ => ⟨Iff.rfl, rfl⟩)
      (fun _ => awaits_congr (fun _ _ => ⟨Iff.rfl, rfl⟩) rfl rfl rfl) (h.reflects l c hm)
  · intro hw e he
    refine h.stale (fun l c hm => hw l c (hold l c hm).2) e ?_
    rw [Client.enter_eq] at he
    exact he
  · intro key hk
    rw [hret, handles_enter]
    cases request with
    | subscribe topic callback =>
      have hne : key ≠ topicKey topic := by
        rintro rfl
        exact hk _ (by rw [hcalls]; exact Function.update_self ..) rfl
      simp only [if_neg hne]
      exact h.handles key (fun c hm => absurd rfl (hold _ c hm).1)
    | unsubscribe | publish => exact h.handles key (fun c hm => hk c (hold _ c hm).2)
  · intro id topic callback p hm
    rw [hret, handles_enter]
    cases request with
    | subscribe topic' callback' =>
      rw [hcalls, Request.lock, Function.update_self] at hm
      cases hm
      simp only [if_true]
      exact ⟨_, rfl, h.handles _ (fun c hm => absurd rfl (hold _ c hm).1)⟩
    | unsubscribe | publish =>
      rw [hcalls, Request.lock, Function.update_of_ne (by decide)] at hm
      exact h.callback id topic callback p hm

/-! ### The end of a call -/

theorem registered_append (key : Str) (l : List Return) (e : Return) :
    registered key (l ++ [e]) = e.counted key (registered key l) := by
  simp [registered]

theorem counted_other {key : Str} {e : Return} (h : key ∉ e.request.key) (n : ℕ) :
    e.counted key n = n := if_neg (fun he => h he.1)

theorem counted_subscribe (id : ℕ) (topic : Topic) (callback : ℕ) (code : ℤ) (source : Source)
    (n : ℕ) : Return.counted (topicKey topic) n ⟨id, .subscribe topic callback, code, source,
      (Request.subscribe topic callback).value code⟩ = if code < 0 then n else n + 1 := by
  by_cases hc : code < 0 <;> simp [Return.counted, Request.key, Request.value, hc]

theorem counted_unsubscribe (id : ℕ) (topic : Topic) (code : ℤ) (source : Source) (n : ℕ) :
    Return.counted (topicKey topic) n ⟨id, .unsubscribe topic, code, source,
      (Request.unsubscribe topic).value code⟩ = if code < 0 then n else 0 := by
  by_cases hc : code < 0 <;> simp [Return.counted, Request.key, Request.value, hc]

/-- A failing `Subscribe` takes the last callback off, a successful `Unsubscribe` all. -/
theorem handles_leave {c c' : Client} {lock : Lock} {call : Call} {code : ℤ} {source : Source}
    (h : c.leave lock call code source = .ok c') (key : Str) :
    c'.handles key = match call.request with
      | .subscribe topic _ =>
        if code < 0 ∧ key = topicKey topic then (c.handles key).dropLast else c.handles key
      | .unsubscribe topic => if 0 ≤ code ∧ key = topicKey topic then [] else c.handles key
      | .publish _ => c.handles key := by
  unfold Client.leave at h
  dsimp only at h
  cases hr : call.request with
  | publish d => rw [hr] at h; cases h; rfl
  | subscribe topic callback =>
    rw [hr] at h
    dsimp only at h ⊢
    split at h
    · rename_i hc
      split at h <;> cases h
      by_cases hk : key = topicKey topic
      · subst hk
        simp [Client.handles, hc]
      · simp [Client.handles, UMap.find_insert, hk]
    · rename_i hc
      cases h
      simp [Client.handles, hc]
  | unsubscribe topic =>
    rw [hr] at h
    dsimp only at h ⊢
    split at h
    · rename_i hc
      cases h
      simp [Client.handles, not_le.mpr hc]
    · rename_i hc
      cases h
      by_cases hk : key = topicKey topic <;>
        simp [Client.handles, UMap.find_erase, hk, not_lt.mp hc]

/-- The call that ends leaves its own topic settled. -/
theorem agree_leave (h : Synced fd s) {lock : Lock} {call : Call} {code : ℤ} {source : Source}
    (hc : s.client.calls lock = some call) (hp : call.progress = .back code source)
    {client : Client} (he : s.client.leave lock call code source = .ok client) {key : Str}
    (hk : key ∈ call.request.key) : Session.Agree fd { s with client := client } key := by
  have hdone : s.Done fd code call.request := by
    have := h.reflects lock call hc
    simpa only [Session.Reflects, hp] using this
  have hret := congrArg Client.returned (Client.leave_eq he)
  rw [Session.Agree, hret, registered_append]
  cases hr : call.request with
  | publish d => rw [hr] at hk; cases hk
  | subscribe topic callback =>
    rw [hr] at hk hdone
    cases hk
    rw [counted_subscribe]
    simp only [Session.Done] at hdone
    split at hdone
    · rename_i hneg
      rw [if_pos hneg]
      exact hdone
    · rename_i hneg
      rw [if_neg hneg]
      exact iff_of_true hdone (Nat.succ_pos _)
  | unsubscribe topic =>
    rw [hr] at hk hdone
    cases hk
    rw [counted_unsubscribe]
    simp only [Session.Done] at hdone
    split at hdone
    · rename_i hneg
      rw [if_pos hneg]
      exact hdone
    · rename_i hneg
      rw [if_neg hneg]
      exact iff_of_false hdone (Nat.lt_irrefl 0)

/-- A topic that no `Subscribe` is at any more has the callbacks of the successful ones. -/
theorem handles_after_leave (h : Synced fd s) {lock : Lock} {call : Call} {code : ℤ} {source : Source}
    (hc : s.client.calls lock = some call) {client : Client}
    (he : s.client.leave lock call code source = .ok client) {key : Str}
    (hk : lock ≠ .subMutex → ∀ c ∈ s.client.calls .subMutex, key ∉ c.request.key) :
    (client.handles key).length = registered key client.returned := by
  have hret := congrArg Client.returned (Client.leave_eq he)
  have hlock := (h.locks lock call hc).1
  rw [handles_leave he key, hret, registered_append]
  obtain ⟨id, request, p⟩ := call
  cases request with
  | publish d =>
    have hnone : key ∉ (Request.publish d).key := nofun
    rw [counted_other hnone]
    exact h.handles key (hk (by rw [← hlock]; nofun))
  | unsubscribe topic =>
    have hold := h.handles key (hk (by rw [← hlock]; nofun))
    by_cases hkey : key = topicKey topic
    · subst hkey
      rw [counted_unsubscribe]
      by_cases hneg : code < 0
      · simp [hneg, not_le.mpr hneg, hold]
      · simp [hneg, not_lt.mp hneg]
    · rw [counted_other (fun hm => hkey (Option.some.inj hm).symm)]
      simp [hkey, hold]
  | subscribe topic callback =>
    cases hlock
    by_cases hkey : key = topicKey topic
    · subst hkey
      obtain ⟨l, hl, hlen⟩ := h.callback id topic callback p hc
      rw [counted_subscribe]
      by_cases hneg : code < 0
      · simp [hneg, hl, hlen]
      · simp [hneg, hl, hlen]
    · have hother : key ∉ (Request.subscribe topic callback).key :=
        fun hm => hkey (Option.some.inj hm).symm
      rw [counted_other hother]
      have hold := h.handles key (by rintro c hm; cases hc.symm.trans hm; exact hother)
      simp [hkey, hold]

theorem Synced.leave (h : Synced fd s) {lock : Lock} {call : Call} {code : ℤ} {source : Source}
    (hc : s.client.calls lock = some call) (hp : call.progress = .back code source)
    {client : Client} (he : s.client.leave lock call code source = .ok client) :
    Synced fd { s with client := client } := by
  have heq := Client.leave_eq he
  have hcalls := congrArg Client.calls heq
  have hret := congrArg Client.returned heq
  dsimp only at hcalls hret
  have hother : ∀ key, key ∉ call.request.key → s.SameAt fd { s with client := client } key := by
    intro key hk
    refine ⟨Iff.rfl, ?_⟩
    rw [hret, registered_append]
    exact counted_other hk _
  -- the calls that are left were there before, about other topics
  have hold : ∀ l, ∀ c ∈ client.calls l, l ≠ lock ∧ c ∈ s.client.calls l ∧
      ∀ key ∈ c.request.key, key ∉ call.request.key := by
    intro l c hm
    rw [hcalls] at hm
    by_cases hl : l = lock
    · rw [hl, Function.update_self] at hm
      cases hm
    · rw [Function.update_of_ne hl] at hm
      exact ⟨hl, hm, fun key hk hk' => hl (h.apart l c hm lock call hc key hk hk')⟩
  have hkeep : ∀ l, ∀ c ∈ s.client.calls l, l = lock ∧ c = call ∨ c ∈ client.calls l := by
    intro l c hm
    by_cases hl : l = lock
    · subst hl
      cases hc.symm.trans hm
      exact Or.inl ⟨rfl, rfl⟩
    · rw [hcalls, Function.update_of_ne hl]
      exact Or.inr hm
  refine ⟨h.store, ?_, ?_, ?_, ?_, ?_, ?_, ?_, ?_, ?_⟩
  · rw [heq]
    exact h.connected
  · intro l c hm
    exact h.locks l c (hold l c hm).2.1
  · intro l c hm l' c' hm'
    exact h.single l c (hold l c hm).2.1 l' c' (hold l' c' hm').2.1
  · intro l c hm l' c' hm'
    exact h.apart l c (hold l c hm).2.1 l' c' (hold l' c' hm').2.1
  · intro key hk
    by_cases hkey : key ∈ call.request.key
    · exact agree_leave h hc hp he hkey
    · refine (agree_congr (hother key hkey)).mpr (h.agree key (fun l c hm => ?_))
      rcases hkeep l c hm with ⟨_, rfl⟩ | hm'
      · exact hkey
      · exact hk l c hm'
  · intro l c hm
    obtain ⟨_, hm0, hkeys⟩ := hold l c hm
    refine reflects_congr (s := s) (fun _ key hk => hother key (hkeys key hk)) (fun _ => ?_)
      (h.reflects l c hm0)
    rw [heq] at hother ⊢
    exact awaits_congr (fun key hk => hother key (hkeys key hk)) rfl rfl rfl
  · intro hw e hm
    rw [heq] at hm
    refine h.stale (fun l c hc' hwait => ?_) e hm
    rcases hkeep l c hc' with ⟨_, rfl⟩ | hm'
    · rw [hp] at hwait
      cases hwait
    · exact hw l c hm' hwait
  · intro key hk
    refine handles_after_leave h hc he (fun hl c hm => hk c ?_)
    exact (hkeep _ c hm).resolve_left (fun he => hl he.1.symm)
  · intro id topic callback p hm
    obtain ⟨hl, hm0, hkeys⟩ := hold _ _ hm
    have hkey : topicKey topic ∉ call.request.key := hkeys _ rfl
    have hlock := (h.locks lock call hc).1
    have hsame : client.handles (topicKey topic) = s.client.handles (topicKey topic) := by
      rw [handles_leave he]
      cases hr : call.request with
      | publish d => rfl
      | subscribe topic' callback' => rw [hr] at hlock; exact absurd hlock hl
      | unsubscribe topic' =>
        rw [hr] at hkey
        exact if_neg (fun hk => hkey (congrArg some hk.2.symm))
    rw [hsame, hret, registered_append, counted_other hkey]
    exact h.callback id topic callback p hm0

/-! ### Messages from the server -/

theorem handles_recv {c c' : Client} {msg : Message} {of : Option ℕ}
    {rest : List (Message × Option ℕ)} {code : UInt32} {size : ℕ} {failed : Bool}
    (h : c.handleRecv reg msg of rest code size failed = .ok c') (key : Str) :
    c'.handles key = c.handles key := by
  unfold Client.handleRecv at h
  dsimp only at h
  split at h
  · split at h
    · cases h
    · split at h <;> cases h
      rfl
  · split at h
    · split at h
      · cases h
      · split at h
        · cases h
        · cases h
        · rename_i d _
          split at h <;> cases h
          · rfl
          · -- `topicHandle[key]` may leave an empty entry
            simp only [Client.handles, UMap.find_insertNew]
            split
            · rename_i hk
              rw [hk.1, Option.not_isSome_iff_eq_none.mp (Bool.eq_false_iff.mp hk.2)]
              rfl
            · rfl
    · cases h
      rfl

theorem Synced.recv (h : Synced fd s) {msg : Message} {of : Option ℕ}
    {rest : List (Message × Option ℕ)} {code : UInt32} {size : ℕ} {failed : Bool} {client : Client}
    (hs : s.client.stream = (msg, of) :: rest)
    (he : s.client.handleRecv reg msg of rest code size failed = .ok client) :
    Synced fd { s with client := client } := by
  have hhandles := handles_recv he
  have hfilter : s.results = if Client.isResult msg.opt then
      (msg, of) :: rest.filter (fun e => Client.isResult e.1.opt)
      else rest.filter (fun e => Client.isResult e.1.opt) := by
    rw [Session.results, hs, List.filter_cons]
  rcases Client.handleRecv_inv he with ⟨bytes, l, n, hres, hp, hn, rfl⟩ | ⟨hres, heq⟩
  · rw [if_pos hres] at hfilter
    refine h.congr h.store (fun _ _ => Iff.rfl) rfl rfl hhandles rfl (List.Subset.refl _) ?_
    rintro lock call hc hp' hawaits
    cases hawaits with
    | lost hout => rw [(outstanding_nil.mp hout).2.1] at hfilter; cases hfilter
    | asked id _ hr => rw [hr] at hfilter; cases hfilter
    | queued _ _ _ hr => rw [hr] at hfilter; cases hfilter
    | answered msg' of' hq hr hreq hdone =>
      rw [hr] at hfilter
      injection hfilter with hhead hrest
      cases hhead
      refine .queued n of ?_ hrest.symm hreq (hdone n ⟨code, bytes, l, hp, hn⟩)
      show s.client.resultQueue ++ [(n, of)] = _
      rw [hq]
      rfl
  · rw [hres] at hfilter
    rw [heq] at hhandles ⊢
    refine h.congr h.store (fun _ _ => Iff.rfl) rfl rfl hhandles rfl (List.Subset.refl _) ?_
    rintro lock call hc hp' hawaits
    exact awaits_congr (s := s) (fun _ _ => ⟨Iff.rfl, rfl⟩) rfl hfilter.symm rfl hawaits

theorem Synced.data (h : Synced fd s) (payload : List Str) :
    Synced fd { s with client :=
      { s.client with stream := s.client.stream ++ [(⟨Opt.DATA.toInt, payload⟩, none)] } } := by
  refine h.congr h.store (fun _ _ => Iff.rfl) rfl rfl (fun _ => rfl) rfl (List.Subset.refl _) ?_
  rintro lock call hc hp hawaits
  refine awaits_congr (s := s) (fun _ _ => ⟨Iff.rfl, rfl⟩) rfl ?_ rfl hawaits
  simp [Session.results, show Client.isResult Opt.DATA.toInt = false from rfl]

/-! ### The server -/

theorem serve_storeOk {msg : Message} (hs : StoreOk s.server)
    (h : s.serve reg fd msg before out ans junk = .ok (server, res)) : StoreOk server := by
  unfold Session.serve at h
  split at h
  · cases h
  · cases h
  · cases h
    exact hs
  · obtain ⟨⟨state, r⟩, hq, he⟩ := map_ok h
    cases he
    obtain ⟨m, _, hh⟩ := handleQueued_ok hq
    exact storeOk_step hs (a := .message m ans) (by rw [step, hh]; rfl)

/-- What the server has done is done to the request that is answered. -/
theorem Answered.done {request : Request} {client : Client}
    (h : Answered (toStr fd) s.server server request res)
    (hret : client.returned = s.client.returned) (hu : s.Untouched fd request) {code : ℤ}
    (hshown : Message.Says ⟨res.opt, res.payload⟩ code) :
    Session.Done fd ⟨client, server⟩ code request := by
  have hdid := h.did code hshown
  cases request with
  | publish d => trivial
  | subscribe topic callback =>
    simp only [Request.Did] at hdid
    simp only [Session.Done]
    split at hdid
    · rename_i hneg
      rw [if_pos hneg, Session.Agree, Session.Held, hret]
      exact hdid.trans (hu _ rfl)
    · rename_i hneg
      rw [if_neg hneg]
      exact hdid
  | unsubscribe topic =>
    rw [Session.Done, if_neg (not_lt.mpr hdid.1)]
    exact hdid.2

theorem Synced.serve (h : Synced fd s) {id : ℕ} {msg : Message} {rest : List (ℕ × Message)}
    (hreq : s.client.requests = (id, msg) :: rest) (hok : s.Orderly (.serve before out ans junk))
    (he : s.serve reg fd msg before out ans junk = .ok (server, res)) :
    Synced fd ⟨{ s.client with
      requests := rest
      stream := s.client.stream ++ [(⟨res.opt, res.payload⟩, some id)]
      answers := s.client.answers ++ [(id, ⟨res.opt, res.payload⟩)] }, server⟩ := by
  have hstore := serve_storeOk h.store he
  by_cases hw : ∃ lock, ∃ call ∈ s.client.calls lock, call.progress = .waiting
  · obtain ⟨lock, call, hc, hp⟩ := hw
    have hawaits : s.Awaits fd call.request := by
      have := h.reflects lock call hc
      simpa only [Session.Reflects, hp] using this
    cases hawaits with
    | lost hout =>
      rw [(outstanding_nil.mp hout).2.2] at hreq
      cases hreq
    | answered _ _ _ _ hnone => rw [hnone] at hreq; cases hreq
    | queued _ _ _ _ hnone => rw [hnone] at hreq; cases hreq
    | asked id' hq hr hone hu =>
      rw [hone] at hreq
      cases hreq
      have hans := serve_answered h.store (h.locks lock call hc).2 hok he
      refine h.congr hstore (fun key hk => hans.others key (hk lock call hc hp)) rfl rfl
        (fun _ => rfl) rfl (List.nil_subset _) ?_
      intro l c hm hp' _
      obtain rfl := h.single lock call hc l c hm hp hp'
      cases hc.symm.trans hm
      refine .answered ⟨res.opt, res.payload⟩ (some id) hq ?_ rfl (fun code => hans.done rfl hu)
      rw [Session.results] at hr
      simp [Session.results, hr, hans.isResult]
  · -- nobody waits: a publication was given up
    have hidle : ∀ lock, ∀ call ∈ s.client.calls lock, call.progress ≠ .waiting :=
      fun lock call hc hp => hw ⟨lock, call, hc, hp⟩
    obtain ⟨d, hd⟩ := h.stale hidle (id, msg) (by rw [hreq]; exact List.mem_cons_self ..)
    obtain rfl : msg = (Request.publish d).toMessage := hd
    have hans := answered_publish h.store he
    refine h.congr hstore (fun key _ => hans.others key nofun) rfl rfl (fun _ => rfl) rfl ?_ ?_
    · rw [hreq]
      exact List.subset_cons_self ..
    · exact fun lock call hc hp => absurd hp (hidle lock call hc)

/-! ### Whole runs -/

/-- Everything a step of the client's threads can do. -/
theorem Synced.client (h : Synced fd s) {a : ClientAct} (hok : s.Orderly (.client a))
    (hne : ∀ msg, a ≠ .answer msg) {client : Client} (he : s.client.step reg a = .ok client) :
    Synced fd { s with client := client } := by
  cases Client.step_moved he with
  | stays => exact h
  | call request hfree => exact h.enter hfree hok
  | send lock call sent hc hp => exact h.send hc hp hok
  | pop lock call code of rest hc hp hq => exact h.pop hc hp hq
  | timeout lock call hc hp => exact h.timeout hc hp hok
  | finish lock call code source _ hc hp hl => exact h.leave hc hp hl
  | answer msg => exact absurd rfl (hne msg)
  | data payload => exact h.data payload
  | recv msg of rest code size failed _ hs hr => exact h.recv hs hr

theorem Synced.step {a : SessionAct} (h : Synced fd s) (hok : s.Orderly a)
    (he : s.step reg fd a = .ok s') : Synced fd s' := by
  cases a with
  | client a =>
    by_cases hans : ∃ msg, a = .answer msg
    · obtain ⟨msg, rfl⟩ := hans
      cases he
      exact h
    · have hne : ∀ msg, a ≠ .answer msg := fun msg heq => hans ⟨msg, heq⟩
      rw [Session.step] at he
      · split at he
        · cases he
        · rename_i client hc
          cases he
          exact h.client hok hne hc
      · exact hne
  | serve before out ans junk =>
    rw [Session.step] at he
    split at he
    · cases he
      exact h
    · rename_i id msg rest hreq
      split at he
      · cases he
      · rename_i server res hserve
        simp only [Client.step, hreq] at he
        cases he
        exact h.serve hreq hok hserve
  | other a =>
    rw [Session.step] at he
    split at he
    · cases he
      exact h
    · rename_i hname
      split at he
      · cases he
      · rename_i server hstep
        cases he
        have hheld : ∀ key, toStr fd ∈ server.subs key ↔ toStr fd ∈ s.server.subs key := by
          refine fun key => step_other_name h.store (fun m ans ha hm => hname ?_) hstep key
          rw [ha]
          exact decide_eq_true hm
        refine h.congr (storeOk_step h.store hstep) (fun key _ => hheld key) rfl rfl (fun _ => rfl) rfl
          (List.Subset.refl _) (fun lock call hc hp => ?_)
        exact awaits_congr (s := s) (fun key _ => ⟨hheld key, rfl⟩) rfl rfl rfl

theorem synced_runs {server : State} (hs : StoreOk server)
    (hnone : ∀ type, toStr fd ∉ server.subs type)
    (h : SessionRuns reg fd server Session.Orderly s) : Synced fd s :=
  Runs.invariant (synced_start hs hnone) (fun _ _ _ hs hok he => hs.step hok he) h

theorem recv_popEmpty {c : Client} {msg : Message} {of : Option ℕ}
    {rest : List (Message × Option ℕ)} {code : UInt32} {size : ℕ} {failed : Bool} :
    c.handleRecv reg msg of rest code size failed ≠ .error .popEmpty := by
  intro h
  unfold Client.handleRecv at h
  dsimp only at h
  split at h
  · split at h
    · cases h
    · split at h <;> cases h
  · split at h
    · split at h
      · cases h
      · split at h
        · cases h
        · cases h
        · split at h <;> cases h
    · cases h

/-- `pop_back` is called at the end of a `Subscribe` alone. -/
theorem popEmpty_inv {c : Client} {a : ClientAct} (h : c.step reg a = .error .popEmpty) :
    ∃ lock id topic callback progress,
      c.calls lock = some ⟨id, .subscribe topic callback, progress⟩ ∧
      c.handles (topicKey topic) = [] := by
  cases a with
  | finish lock =>
    simp only [Client.step] at h
    split at h
    · rename_i call hc
      split at h
      · rename_i code source hp
        unfold Client.leave at h
        dsimp only at h
        split at h
        · rename_i topic callback hr
          split at h
          · split at h
            · rename_i hnil
              exact ⟨lock, call.id, topic, callback, call.progress, by rw [hc, ← hr], hnil⟩
            · cases h
          · cases h
        · split at h <;> cases h
        · cases h
      · cases h
    · cases h
  | call request =>
    simp only [Client.step] at h
    split at h <;> cases h
  | recv code size failed =>
    simp only [Client.step] at h
    split at h
    · exact absurd h recv_popEmpty
    · cases h
  | send | pop | timeout | answer =>
    simp only [Client.step] at h
    split at h <;> cases h
  | data => cases h

/-- No `pop_back` of an empty vector. -/
theorem Synced.pops (h : Synced fd s) (a : SessionAct) :
    s.step reg fd a ≠ .error (.client .popEmpty) := by
  intro he
  have hclient : ∀ a', s.client.step reg a' ≠ .error .popEmpty := by
    intro a' ha
    obtain ⟨lock, id, topic, callback, progress, hc, hnil⟩ := popEmpty_inv ha
    obtain rfl : Lock.subMutex = lock := (h.locks lock _ hc).1
    obtain ⟨l, hl, _⟩ := h.callback id topic callback progress hc
    rw [hnil] at hl
    simp at hl
  unfold Session.step at he
  split at he
  · cases he
  · split at he
    · rename_i e hc
      cases he
      exact hclient _ hc
    · cases he
  · split at he
    · cases he
    · split at he
      · cases he
      · split at he
        · rename_i e hc
          cases he
          exact hclient _ hc
        · cases he
  · split at he
    · cases he
    · split at he <;> cases he

/-- BOTH SIDES AGREE: in every run in which the calls on a topic take turns, requests do not overlap and
    results tell what was done, a topic that no call is at has as many callbacks as `Subscribe` calls
    returned `0` since its last successful `Unsubscribe`, and has any just if the server has the client
    in its set; a `Subscribe` that fails takes its own callback off and nothing else. -/
theorem callbacks_agree {server : State} (hreach : Reach server)
    (hnone : ∀ type, toStr fd ∉ server.subs type)
    (h : SessionRuns reg fd server Session.Orderly s) :
    ((∀ lock, s.client.calls lock = none) → ∀ topic,
      (s.client.handles (topicKey topic)).length =
        registered (topicKey topic) s.client.returned ∧
      (s.client.handles (topicKey topic) ≠ [] ↔ toStr fd ∈ s.server.subs topic.getType)) ∧
    (∀ id topic callback progress,
      s.client.calls .subMutex = some ⟨id, .subscribe topic callback, progress⟩ →
      ∃ l, s.client.handles (topicKey topic) = l ++ [callback]) ∧
    ∀ a, s.step reg fd a ≠ .error (.client .popEmpty) := by
  have hsync := synced_runs (storeOk_runs hreach) hnone h
  refine ⟨fun hidle topic => ?_, fun id topic callback progress hc => ?_, hsync.pops⟩
  · have hno : ∀ lock, ∀ call ∈ s.client.calls lock, topicKey topic ∉ call.request.key := by
      intro lock call hc
      rw [hidle lock] at hc
      cases hc
    have hlen := hsync.handles (topicKey topic) (hno _)
    refine ⟨hlen, ?_⟩
    rw [← List.length_pos_iff, hlen]
    exact (hsync.agree (topicKey topic) hno).symm
  · obtain ⟨l, hl, _⟩ := hsync.callback id topic callback progress hc
    exact ⟨l, hl⟩

end

/-- The server with the plugin of `sampleOut`. -/
def sampleServer : State := (State.init.loadPlugin (str "a.so") sampleOut.file).1

/-- The server answers, its plugins agreeing to everything. -/
def served : SessionAct := .serve sampleServer sampleOut accepting 0

theorem reach_sampleServer : Reach sampleServer :=
  .next .start trivial (a := .load (str "a.so") sampleOut.file) rfl

/-- A subscription, from the call to its return. -/
def sessionSubscribe (callback : ℕ) : List SessionAct :=
  [.client (.call (.subscribe sdkTopic callback)), .client (.send .subMutex true), served,
    .client (.recv 0 0 false), .client (.pop .subMutex), .client (.finish .subMutex)]

/-- Two subscriptions one after the other. -/
theorem callbacks_agree_two : ∃ s, Reach sampleServer ∧ (∀ type, toStr 7 ∉ sampleServer.subs type) ∧
    SessionRuns noCodecs 7 sampleServer Session.Orderly s ∧ (∀ lock, s.client.calls lock = none) ∧
    s.client.handles (topicKey sdkTopic) = [5, 6] ∧
    toStr 7 ∈ s.server.subs sdkTopic.getType := by
  have h : SessionRuns noCodecs 7 sampleServer Session.Orderly _ := Runs.of_runAll Session.Orderly
    (sessionSubscribe 5 ++ sessionSubscribe 6) .start rfl
  have key : ∀ {s : Session}, SessionRuns noCodecs 7 sampleServer Session.Orderly s →
      (∀ lock, s.client.calls lock = none) → s.client.handles (topicKey sdkTopic) = [5, 6] →
      toStr 7 ∈ s.server.subs sdkTopic.getType := by
    intro s h hidle hcb
    refine ((callbacks_agree reach_sampleServer nofun h).1 hidle sdkTopic).2.mp ?_
    rw [hcb]
    exact List.cons_ne_nil _ _
  exact ⟨_, reach_sampleServer, nofun, h, fun lock => by cases lock <;> rfl, rfl,
    key h (fun lock => by cases lock <;> rfl) rfl⟩

/-- A subscription times out and the server then accepts it: nobody is called, and the server has the
    client in the set. And: while a second subscription is under way the topic is unsubscribed, its
    entry goes with both callbacks, and the subscription, failing, takes one off an empty vector. -/
theorem callbacks_disagree :
    (∃ s, SessionRuns noCodecs 7 sampleServer (fun _ _ => True) s ∧
      (∀ lock, s.client.calls lock = none) ∧ s.client.handles (topicKey sdkTopic) = [] ∧
      toStr 7 ∈ s.server.subs sdkTopic.getType) ∧
    ∃ s, SessionRuns noCodecs 7 sampleServer (fun _ _ => True) s ∧
      s.step noCodecs 7 (.client (.finish .subMutex)) = .error (.client .popEmpty) := by
  have h1 : SessionRuns noCodecs 7 sampleServer (fun _ _ => True) _ :=
    Runs.of_runAll (fun _ _ => True)
      [.client (.call (.subscribe sdkTopic 5)), .client (.send .subMutex true),
        .client (.timeout .subMutex), .client (.finish .subMutex), served] .start rfl
  have h2 : SessionRuns noCodecs 7 sampleServer (fun _ _ => True) _ :=
    Runs.of_runAll (fun _ _ => True)
      (sessionSubscribe 5 ++ [.client (.call (.subscribe sdkTopic 6)),
        .client (.call (.unsubscribe sdkTopic)), .client (.send .unsubMutex true), served,
        .client (.recv 0 0 false), .client (.pop .unsubMutex), .client (.finish .unsubMutex),
        .client (.send .subMutex true), .client (.timeout .subMutex)]) .start rfl
  exact ⟨⟨_, h1, fun lock => by cases lock <;> rfl, rfl, List.mem_of_getElem? (i := 0) rfl⟩, _, h2, rfl⟩

end OeAware

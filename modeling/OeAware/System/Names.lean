import OeAware.System.Owners

/-! @src src/plugin_mgr/message_manager.cpp, event/subscribe_handler.cpp, event/unsubscribe_handler.cpp |
    name:HandleMessage, CloseConn, SubscribeHandler, UnsubscribeHandler | scheme:state-machine

    Who a client is, the handlers see by its payload's last string alone: `HandleMessage` appends the
    descriptor's number to what the client has sent. A handler takes a payload of two strings for a
    topic and a name, `UnsubscribeHandler` one of a single string for a name; every other length it
    turns away. So whatever the client puts in front, the name is the one appended.

        client: [a, b, ..]  ──▶  event: [a, b, .., "7"]      [t, "7"]  topic t, name "7"
                                                             ["7"]     name "7" (also: hung up)  -/

namespace OeAware
open Schemes

namespace System
variable (s : System)

/-- The event for a client's message, as `HandleMessage` queues it. -/
def requestJob (fd : ℕ) (msg : Message) : Job :=
  ⟨s.handler.event fd msg, some ⟨fd, s.owner fd, some s.requests⟩⟩

/-- The event for a client that has gone, as `CloseConn` queues it. -/
def closeJob (fd : ℕ) : Job :=
  ⟨⟨Opt.UNSUBSCRIBE.toInt, .INTERNAL, [toStr fd]⟩, some ⟨fd, s.owner fd, none⟩⟩

@[simp] theorem recvMessage_requested (fd : ℕ) (msg : Message) :
    (s.requested fd msg).recvMessage = s.recvMessage ++ [s.requestJob fd msg] := rfl

theorem recvMessage_closeConn {fd : ℕ} (h : s.handler.isSdk fd = true) :
    (s.closeConn fd).recvMessage = s.recvMessage ++ [s.closeJob fd] := by
  simp [closeConn, closeJob, h]

/-- The event that a step works on: the manager takes it, its handler's message is pushed and handled,
    the handler returns. -/
def serving : Act → Option Job
  | .manage _ =>
    match s.manager, s.recvMessage with
    | .idle, job :: _ => some job
    | _, _ => none
  | .push | .finish _ => s.manager.job
  | .handle _ _ =>
    match s.recvQueue, s.manager with
    | (_, true) :: _, .waiting job _ => some job
    | _, _ => none
  | _ => none

end System

/-- Every set has the same names but for `x`. -/
def State.SameBut (x : Str) (s s' : State) : Prop :=
  ∀ type y, y ≠ x → (y ∈ s'.subs type ↔ y ∈ s.subs type)

theorem State.SameBut.of_same {x : Str} {s s' : State}
    (h : ∀ type y, y ∈ s'.subs type ↔ y ∈ s.subs type) : s.SameBut x s' :=
  fun type y _ => h type y

/-- The subscriber that a message names. -/
def InstanceRunMessage.names : InstanceRunMessage → Option Str
  | .SUBSCRIBE _ x | .UNSUBSCRIBE _ x | .UNSUBSCRIBE_SDK x => some x
  | _ => none

/-- A message under the name `x`. -/
def Action.names (x : Str) : Action → Bool
  | .message m _ => m.names = some x
  | _ => false

theorem sameBut_unsubscribe {s s' : State} {type x : Str} (h : s.unsubscribe type x = .ok s') :
    s.SameBut x s' := by
  intro type' y hy
  rw [subs_congr (updateInstance_swept h).subscibers, State.mem_subs_eraseSub]
  exact and_iff_left (fun he => hy he.2)

theorem sameBut_unsubscribeSdk {s s' : State} {x : Str} (h : s.unsubscribeSdk x = .ok s') :
    s.SameBut x s' := by
  refine unsubscribeLoop_induct (P := s.SameBut x) ?_ _ (.of_same fun _ _ => Iff.rfl) h
  intro s1 s2 type h1 _ h2 type' y hy
  exact (sameBut_unsubscribe h2 type' y hy).trans (h1 type' y hy)

/-- A message changes no subscriber but the one it names. -/
theorem handle_sameBut {s s' : State} (hs : StoreOk s) {m : InstanceRunMessage} {ans : Answers}
    {r : Result} {x : Str} (hx : ∀ y ∈ m.names, y = x) (h : s.handle m ans = .ok (s', r)) :
    s.SameBut x s' := by
  have hstep : step s (.message m ans) = .ok s' := by rw [step, h]; rfl
  generalize ha : Action.message m ans = a at hstep
  cases step_topics hs hstep with
  | same a hsame => exact .of_same hsame.subs
  | refused topic y ans p _ _ _ hsb => exact .of_same hsb
  | subscribed topic y ans p _ _ _ hsb =>
    cases ha
    obtain rfl : y = x := hx y rfl
    intro type z hz
    rw [hsb type z]
    exact or_iff_right (fun he => hz he.2)
  | unsubscribed m' ans' r' hm he =>
    cases ha
    rcases hm with ⟨topic, y, rfl⟩ | ⟨y, rfl⟩
    · obtain rfl : y = x := hx y rfl
      obtain ⟨s1, h1, heq⟩ := map_ok he
      cases heq
      exact sameBut_unsubscribe h1
    · obtain rfl : y = x := hx y rfl
      obtain ⟨s1, h1, heq⟩ := map_ok he
      cases heq
      exact sameBut_unsubscribeSdk h1

/-- What somebody else does leaves a name where it is. -/
theorem step_other_name {s s' : State} (hs : StoreOk s) {a : Action} {x : Str}
    (hx : ∀ m ans, a = .message m ans → x ∉ m.names) (h : step s a = .ok s') (type : Str) :
    x ∈ s'.subs type ↔ x ∈ s.subs type := by
  cases step_topics hs h with
  | same a hsame => exact hsame.subs type x
  | refused topic y ans p _ _ _ hsb => exact hsb type x
  | subscribed topic y ans p _ _ _ hsb =>
    rw [hsb type x]
    refine or_iff_right (fun he => hx _ ans rfl ?_)
    rw [he.2]
    rfl
  | unsubscribed m ans r hm he =>
    rcases hm with ⟨topic, y, rfl⟩ | ⟨y, rfl⟩
    · exact handle_sameBut hs (by rintro z ⟨⟩; rfl) he type x
        (fun hxy => hx _ ans rfl (congrArg some hxy.symm))
    · exact handle_sameBut hs (by rintro z ⟨⟩; rfl) he type x
        (fun hxy => hx _ ans rfl (congrArg some hxy.symm))

/-! ### Whose message it is -/

/-- The message under way was made by a handler for the event that the manager is at. -/
def Made (s : System) : Prop :=
  ∀ msg ∈ s.ownMessages, ∀ job ∈ s.manager.job, ∃ (state : State) (o : Opt) (reply : Reply),
    Opt.ofInt job.event.opt = some o ∧ Sends state job.event.payload o msg reply

section
variable {reg : Register} {s s' : System}

/-- Messages go, none comes, and the manager is at its event or at none. -/
theorem Made.of_subset (h : Made s) (hmsg : s'.ownMessages ⊆ s.ownMessages)
    (hjob : ∀ job ∈ s'.manager.job, job ∈ s.manager.job) : Made s' :=
  fun msg hm job hj => h msg (hmsg hm) job (hjob job hj)

theorem Made.step {a : Act} (h : Made s) (hp : Paired s) (he : s.step reg a = .ok s') : Made s' := by
  cases System.step_moved he with
  | stays => exact h
  | accept fd isSdk permitted added => rw [System.accept_eq]; exact h
  | request => exact h
  | respond => split <;> exact h
  | hangUp => exact h
  | internal => exact h
  | manage out job rest _ hman hrecv hm =>
    rcases System.manage_inv hm with ⟨_, rfl⟩ | ⟨state, res, _, rfl⟩ | ⟨msg, reply, hd, rfl⟩
    · rintro _ _ _ ⟨⟩
    · rw [System.answer_eq]; exact h
    · -- an idle manager has no message in the queue
      have hidle : s.recvQueue.filter (·.2) = [] := by
        have := hp.mine
        rw [hman] at this
        exact List.filter_eq_nil_iff.mpr (List.countP_eq_zero.mp this)
      rintro m hm job' ⟨⟩
      obtain rfl : m = msg := by
        simpa [System.ownMessages, ManagerThread.message, hidle] using hm
      obtain ⟨o, ho, hs⟩ := dispatch_sends hd
      exact ⟨s.state, o, reply, ho, hs⟩
  | push job msg reply hman =>
    refine h.of_subset (fun m hm => ?_) (fun job' hj => by rw [hman]; exact hj)
    simp only [System.ownMessages, ManagerThread.message, hman] at hm ⊢
    simpa [or_comm] using hm
  | finish =>
    rw [System.answer_eq]
    rintro _ _ _ ⟨⟩
  | plugin => exact h.of_subset (fun m hm => by simpa [System.ownMessages] using hm) (fun _ hj => hj)
  | handle ans junk msg mine rest _ hq hh =>
    obtain ⟨state, r, m, _, _, _, rfl⟩ := System.handle_inv hh
    refine h.of_subset (fun m' hm' => ?_) (fun job hj => by rwa [wake_job] at hj)
    simp only [System.ownMessages, wake_message, List.mem_append, hq] at hm' ⊢
    exact hm'.imp_right (List.map_subset _ ((List.sublist_cons_self _ _).filter _).subset ·)
  | tick => exact h
  | reorder => exact h
  | data event audience => rw [System.sendData_eq]; exact h

theorem made_runs {ok : System → Act → Prop} (h : SystemRuns reg ok s) : Made s ∧ Paired s := by
  have hinit : Made System.init := fun _ _ _ => nofun
  refine Runs.invariant (I := fun s => Made s ∧ Paired s) ⟨hinit, paired_init⟩ ?_ h
  rintro s s' a ⟨hm, hp⟩ _ he
  exact ⟨hm.step hp he, hp.step he⟩

/-- A handler's message names the last string of its payload, or nobody. -/
theorem Sends.names {state : State} {init : List Str} {x : Str} {o : Opt} {msg : RunMessage}
    {reply : Reply} (h : Sends state (init ++ [x]) o msg reply) {junk : ℕ} {m : InstanceRunMessage}
    (hm : msg.decoded reg junk = some m) : ∀ y ∈ m.names, y = x := by
  generalize hp : init ++ [x] = payload at h
  have hlast : payload.getLast? = some x := by rw [← hp]; simp
  cases h with
  | enabled | disabled => cases hm; nofun
  | subscribe bytes y topic | unsubscribe bytes y topic =>
    cases hm
    rintro z ⟨⟩
    simpa using hlast
  | unsubscribeSdk y =>
    cases hm
    rintro z ⟨⟩
    simpa using hlast
  | publish =>
    rcases System.decoded_inv hm with he | ⟨d, rfl⟩
    · cases he
    · nofun

/-- The manager thread leaves the sets alone. -/
theorem manage_subs {out : Outside} {job : Job} {rest : List Job}
    (h : s.manage out job rest = .ok s') (type y : Str) :
    y ∈ s'.state.subs type ↔ y ∈ s.state.subs type := by
  have hstate := System.manage_state h
  split at hstate
  · rename_i name _ _ _
    rcases loadPlugin_cases s.state name out.file with he | ⟨interfaces, _, hl⟩
    · rw [hstate, he]
    · rw [hstate, hl.eq]
      exact Iff.rfl
  · rename_i name _ _ _
    rcases remove_cases s.state name with he | ⟨plugin, hr⟩
    · rw [hstate, he]
    · rw [hstate, hr.eq]
      exact Iff.rfl
  · rw [hstate]

/-- The scheduler works on an event by handling the message made for it. -/
theorem serving_handle {ok : System → Act → Prop} (h : SystemRuns reg ok s) {ans : Answers}
    {junk : ℕ} {job : Job} (hj : s.serving (.handle ans junk) = some job)
    (he : s.step reg (.handle ans junk) = .ok s') : ∃ (msg : RunMessage) (m : InstanceRunMessage)
      (r : Result) (state : State) (o : Opt) (reply : Reply), msg.decoded reg junk = some m ∧
      s.state.handle m ans = .ok (s'.state, r) ∧ Opt.ofInt job.event.opt = some o ∧
      Sends state job.event.payload o msg reply := by
  simp only [System.serving] at hj
  split at hj
  · rename_i msg rest job' reply hq hman
    cases hj
    simp only [System.step, hq] at he
    obtain ⟨state, r, m, _, hm, hhandle, rfl⟩ := System.handle_inv he
    obtain ⟨before, o, reply', ho, hsend⟩ := (made_runs h).1 msg (by simp [System.ownMessages, hq])
      job (by rw [hman]; rfl)
    exact ⟨msg, m, r, before, o, reply', hm, hhandle, ho, hsend⟩
  · cases hj

/-- What a step does to the sets while it works on an event whose payload ends with a name. -/
theorem serving_sameBut {ok : System → Act → Prop} (h : SystemRuns reg ok s) {a : Act}
    (he : s.step reg a = .ok s') {job : Job} (hj : s.serving a = some job) {init : List Str} {x : Str}
    (hx : job.event.payload = init ++ [x]) : s.state.SameBut x s'.state := by
  have hruns : RunsOf (fun _ _ => True) s.state := System.state_runs (fun _ _ _ _ _ => trivial) h
  have hs : StoreOk s.state := storeOk_runs hruns
  cases System.step_moved he with
  | stays => exact .of_same fun _ _ => Iff.rfl
  | manage out job' rest _ hman hrecv hm => exact .of_same (manage_subs hm)
  | push => exact .of_same fun _ _ => Iff.rfl
  | finish => rw [System.answer_eq]; exact .of_same fun _ _ => Iff.rfl
  | handle ans junk =>
    obtain ⟨msg, m, r, state, o, reply, hm, hhandle, _, hsend⟩ := serving_handle h hj he
    rw [hx] at hsend
    exact handle_sameBut hs (hsend.names hm) hhandle
  | accept | request | respond | hangUp | internal | plugin | tick | reorder | data => cases hj

/-- Handling the event of a client that has gone leaves its name in no set. -/
theorem serving_closed {ok : System → Act → Prop} (h : SystemRuns reg ok s) {ans : Answers}
    {junk : ℕ} (he : s.step reg (.handle ans junk) = .ok s') {job : Job} {x : Str}
    (hj : s.serving (.handle ans junk) = some job) (hopt : job.event.opt = Opt.UNSUBSCRIBE.toInt)
    (hx : job.event.payload = [x]) (type : Str) : x ∉ s'.state.subs type := by
  obtain ⟨msg, m, r, state, o, reply, hm, hhandle, ho, hsend⟩ := serving_handle h hj he
  rw [hopt, ofInt_toInt] at ho
  cases ho
  rw [hx] at hsend
  cases hsend with
  | unsubscribeSdk =>
    cases hm
    obtain ⟨s1, h1, heq⟩ := map_ok hhandle
    cases heq
    exact unsubscribeSdk_gone h1 type

/-- ONLY ITS OWN NAME: whatever a client on descriptor `fd` sends, the steps that work on it leave
    every other name in every set as it is; and when the event of its hanging up has been handled its
    name is in no set, and every other name where it was. -/
theorem sdk_changes_own_name {ok : System → Act → Prop} (h : SystemRuns reg ok s) {a : Act}
    (he : s.step reg a = .ok s') {s0 : System} {fd : ℕ} (hsdk : s0.handler.isSdk fd = true) :
    (∀ msg, (s0.requested fd msg).recvMessage = s0.recvMessage ++ [s0.requestJob fd msg] ∧
      (s.serving a = some (s0.requestJob fd msg) → s.state.SameBut (toStr fd) s'.state)) ∧
    (s0.closeConn fd).recvMessage = s0.recvMessage ++ [s0.closeJob fd] ∧
    (s.serving a = some (s0.closeJob fd) → s.state.SameBut (toStr fd) s'.state ∧
      ∀ ans junk, a = .handle ans junk → ∀ type, toStr fd ∉ s'.state.subs type) := by
  refine ⟨fun msg => ⟨rfl, fun hj => ?_⟩, s0.recvMessage_closeConn hsdk, fun hj => ⟨?_, ?_⟩⟩
  · have hpayload : (s0.requestJob fd msg).event.payload = msg.payload ++ [toStr fd] := by
      simp [System.requestJob, TcpMessageHandler.event, hsdk]
    exact serving_sameBut h he hj hpayload
  · exact serving_sameBut h he hj (List.nil_append _).symm
  · rintro ans junk rfl
    exact serving_closed h he hj rfl rfl

end

/-- The client of `publishedTo` hangs up: the scheduler takes its name out of the one set it is in. -/
theorem sdk_changes_own_name_closed : ∃ s s' s0 : System,
    SystemRuns noCodecs (fun _ _ => True) s ∧ s.step noCodecs (.handle accepting 0) = .ok s' ∧
    s0.handler.isSdk 7 = true ∧ s.serving (.handle accepting 0) = some (s0.closeJob 7) ∧
    toStr 7 ∈ s.state.subs (sampleTopic "i").getType ∧
    s.state.SameBut (toStr 7) s'.state ∧ ∀ type, toStr 7 ∉ s'.state.subs type := by
  have h0 : SystemRuns noCodecs (fun _ _ => True) _ := Runs.of_runAll (fun _ _ => True)
    publishedTo .start rfl
  have h : SystemRuns noCodecs (fun _ _ => True) _ := Runs.of_runAll (fun _ _ => True)
    [.hangUp 7, .manage sampleOut, .push] h0 rfl
  refine (fun {s0 s s' : System} (_ : SystemRuns noCodecs (fun _ _ => True) s0)
    (h : SystemRuns noCodecs (fun _ _ => True) s) he hsdk hj hm => ?_ : ∀ {s0 s s' : System}, _ → _ →
      s.step noCodecs (.handle accepting 0) = .ok s' → s0.handler.isSdk 7 = true →
      s.serving (.handle accepting 0) = some (s0.closeJob 7) →
      toStr 7 ∈ s.state.subs (sampleTopic "i").getType → _) h0 h rfl rfl rfl
    (List.mem_of_getElem? (i := 0) rfl)
  obtain ⟨hsame, hgone⟩ := (sdk_changes_own_name h he hsdk).2.2 hj
  exact ⟨s, s', s0, h, he, hsdk, hj, hm, hsame, hgone _ _ rfl⟩

end OeAware

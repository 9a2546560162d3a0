import OeAware.Manager.Unsubscribing
import OeAware.System.Delivery
import OeAware.System.Pairing

/-! @src src/plugin_mgr/message_manager.cpp, instance_run_handler.cpp |
    name:AddConn, CloseConn, SaveConnection, PublishData, TcpMessageHandler::Start |
    scheme:state-machine

    A client lies in three places under its descriptor's number: in the subscriber sets, in the events
    of `recvData` and in the table of connections. `CloseConn` clears the table at once; the sets wait
    for the manager and the scheduler, the events for the data thread. Meanwhile `accept` may give the
    number to somebody else, and what was left under it is then his.

        accept 7 ── SUBSCRIBE ── PUBLISH_DATA ── hangUp 7 ── accept 7 ── data ──▶ sent to the second
        owner 1                  audience [1]                owner 2              (2, [1]) -/

namespace OeAware
open Schemes

/-- A subscriber with a digit in it is the number of the connection that the message is from. -/
def System.OwnNumber (s : System) : RunMessage × Bool → Prop
  | (.run (.SUBSCRIBE _ x), mine) =>
    State.isSdk x = true → mine = true ∧ ∃ o ∈ s.origin, x = toStr o.fd
  | _ => True

instance (s : System) : ∀ e, Decidable (s.OwnNumber e)
  | (.run (.SUBSCRIBE _ x), mine) => inferInstanceAs (Decidable
      (State.isSdk x = true → mine = true ∧ ∃ o ∈ s.origin, x = toStr o.fd))
  | (.run (.ENABLED _ _), _) | (.run (.DISABLED _), _) | (.run (.DISABLED_FORCE _), _)
  | (.run (.UNSUBSCRIBE _ _), _) | (.run (.UNSUBSCRIBE_SDK _), _) | (.run (.PUBLISH_DATA _), _)
  | (.run (.PUBLISH _), _) | (.run .SHUTDOWN, _) | (.publish _, _) => isTrue trivial

/-- A number goes to a new connection when no subscriber set names it any more and no event queued is
    for it; and who subscribes under a number has it. -/
def OwnersKept (s : System) : Act → Prop
  | .accept fd _ _ _ => fd < 2 ^ 31 ∧
      (∀ type ∈ s.state.subscibers.keys, ∀ x ∈ s.state.subs type, State.isSdk x = true →
        atoi x ≠ (fd : ℤ)) ∧
      ∀ e ∈ s.state.recvData.drop s.popped, e.addressee ≠ some (fd : ℤ)
  | .handle _ _ => ∀ e ∈ s.recvQueue.head?, s.OwnNumber e
  | _ => True

instance (s : System) : ∀ a, Decidable (OwnersKept s a)
  | .accept fd _ _ _ => inferInstanceAs (Decidable (fd < 2 ^ 31 ∧
      (∀ type ∈ s.state.subscibers.keys, ∀ x ∈ s.state.subs type, State.isSdk x = true →
        atoi x ≠ (fd : ℤ)) ∧ ∀ e ∈ s.state.recvData.drop s.popped, e.addressee ≠ some (fd : ℤ)))
  | .handle _ _ => inferInstanceAs (Decidable (∀ e ∈ s.recvQueue.head?, s.OwnNumber e))
  | .request _ _ | .respond _ | .hangUp _ | .internal _ | .manage _ | .push | .finish _
  | .plugin _ _ | .tick | .reorder _ | .data => isTrue trivial

/-- The message that the manager is about to push. -/
def ManagerThread.message : ManagerThread → Option RunMessage
  | .sending _ msg _ => some msg
  | _ => none

namespace System

/-- The events that wait for the manager, and the one it is at. -/
def jobs (s : System) : List Job := s.manager.job.toList ++ s.recvMessage

/-- The messages that the manager has made and the scheduler has not handled. -/
def ownMessages (s : System) : List RunMessage :=
  s.manager.message.toList ++ (s.recvQueue.filter (·.2)).map (·.1)

/-- The origin of an event had its descriptor alone; it has it still if somebody waits for the
    result, and otherwise has only hung up. -/
def Traced (s : System) (job : Job) : Prop :=
  ∀ o ∈ job.origin, o.fd < 2 ^ 31 ∧ o.conn < s.accepted ∧ (∀ fd, s.owner fd = o.conn → fd = o.fd) ∧
    if job.external then s.owner o.fd = o.conn else job.event.opt = Opt.UNSUBSCRIBE.toInt

end System

/-- Who has which descriptor. -/
structure Known (s : System) : Prop where
  socks : ∀ fd, fd ∈ s.socks ∨ (∃ n, s.tcp = some (fd, n)) → 0 < s.owner fd ∧ fd < 2 ^ 31
  below : ∀ fd, s.owner fd < s.accepted
  alone : ∀ fd fd', 0 < s.owner fd → s.owner fd' = s.owner fd → fd' = fd
  traced : ∀ job ∈ s.jobs, s.Traced job
  asked : ∀ topic x, .run (.SUBSCRIBE topic x) ∈ s.ownMessages →
    ∀ job ∈ s.manager.job, job.event.opt = Opt.SUBSCRIBE.toInt

theorem known_init : Known System.init where
  socks := by rintro fd (h | ⟨n, h⟩) <;> cases h
  below _ := Nat.one_pos
  alone _ _ h := absurd h (Nat.lt_irrefl 0)
  traced := nofun
  asked := nofun

/-- What lies under a descriptor's number belongs to the connection that has it. -/
structure Kept (s : System) : Prop where
  subs : ∀ type, ∀ x ∈ s.state.subs type, State.isSdk x = true →
    ∃ fd < 2 ^ 31, x = toStr fd ∧ (s.owner fd, type) ∈ s.subscriptions
  length : s.audience.length = s.state.recvData.length
  queued : ∀ i e audience, s.popped ≤ i → s.state.recvData[i]? = some e →
    s.audience[i]? = some audience → ∀ fd : ℕ, e.addressee = some (fd : ℤ) → s.owner fd ∈ audience
  sent : ∀ e ∈ s.sent, e.1 ∈ e.2

theorem kept_init : Kept System.init where
  subs := nofun
  length := rfl
  queued := nofun
  sent := nofun

/-! ### Who has which descriptor -/

section
variable {reg : Register} {s s' : System}

/-- All but `accept` leave the owners alone. -/
theorem Known.of_owner (h : Known s) (hown : s'.owner = s.owner) (hacc : s'.accepted = s.accepted)
    (hsocks : ∀ fd, fd ∈ s'.socks ∨ (∃ n, s'.tcp = some (fd, n)) →
      fd ∈ s.socks ∨ ∃ n, s.tcp = some (fd, n))
    (hjobs : ∀ job ∈ s'.jobs, job ∈ s.jobs ∨ s.Traced job)
    (hasked : ∀ topic x, .run (.SUBSCRIBE topic x) ∈ s'.ownMessages →
      ∀ job ∈ s'.manager.job, job.event.opt = Opt.SUBSCRIBE.toInt) : Known s' where
  socks fd hfd := by rw [hown]; exact h.socks fd (hsocks fd hfd)
  below fd := by rw [hown, hacc]; exact h.below fd
  alone := by rw [hown]; exact h.alone
  traced job hj := by
    have hold : s.Traced job := (hjobs job hj).elim (h.traced job) id
    unfold System.Traced
    rw [hown, hacc]
    exact hold
  asked := hasked

/-- An event of a connection that has its descriptor. -/
theorem Known.traced_new (h : Known s) {fd : ℕ} (hfd : 0 < s.owner fd ∧ fd < 2 ^ 31) {event : Event}
    {request : Option ℕ}
    (hevent : event.type ≠ .EXTERNAL → event.opt = Opt.UNSUBSCRIBE.toInt) :
    s.Traced ⟨event, some ⟨fd, s.owner fd, request⟩⟩ := by
  rintro o ⟨⟩
  refine ⟨hfd.2, h.below fd, fun fd' he => h.alone fd fd' hfd.1 he, ?_⟩
  split
  · rfl
  · rename_i hext
    exact hevent (by simpa [Job.external] using hext)

theorem Known.closeConn (h : Known s) {fd : ℕ} (hfd : 0 < s.owner fd ∧ fd < 2 ^ 31) :
    Known (s.closeConn fd) := by
  refine h.of_owner rfl rfl (fun fd' => Or.imp_left List.mem_of_mem_erase) (fun job hj => ?_) h.asked
  unfold System.jobs System.closeConn at hj
  dsimp only at hj
  split at hj
  · rw [← List.append_assoc] at hj
    rcases List.mem_append.mp hj with hj | hj
    · exact Or.inl hj
    · rw [List.mem_singleton.mp hj]
      exact Or.inr (h.traced_new hfd (fun _ => rfl))
  · exact Or.inl hj

theorem Known.responded (h : Known s) {fd n : ℕ} {res : EventResult} {origin : Option Origin}
    {rest : List (EventResult × Option Origin)} : Known (s.responded fd n res origin rest) := by
  refine h.of_owner rfl rfl (fun fd' hfd' => ?_) (fun job => Or.inl) h.asked
  rcases hfd' with hfd' | ⟨m, hm⟩
  · exact Or.inl hfd'
  · cases hm

theorem Known.requested (h : Known s) {fd : ℕ} {msg : Message} (hfd : fd ∈ s.socks) :
    Known (s.requested fd msg) := by
  refine h.of_owner rfl rfl (fun fd' hfd' => ?_) (fun job hj => ?_) h.asked
  · rcases hfd' with hfd' | ⟨m, hm⟩
    · exact Or.inl hfd'
    · cases hm
      exact Or.inl hfd
  · unfold System.jobs System.requested at hj
    rw [← List.append_assoc] at hj
    rcases List.mem_append.mp hj with hj | hj
    · exact Or.inl hj
    · rw [List.mem_singleton.mp hj]
      exact Or.inr (h.traced_new (h.socks fd (Or.inl hfd)) (fun hne => absurd rfl hne))

/-- While the TCP thread accepts, nobody waits for a result. -/
theorem Known.accept (h : Known s) (hpair : Paired s) (htcp : s.tcp = none) {fd : ℕ}
    (hint : fd < 2 ^ 31) (isSdk permitted added : Bool) :
    Known (s.accept fd isSdk permitted added) := by
  have hway : s.underWay = [] := by
    rcases hpair.underWay with hw | ⟨_, hw⟩
    · simpa [System.awaited, htcp] using hw
    · exact hw
  have hnone : ∀ job ∈ s.jobs, job.external = false := by
    intro job hj
    have hnil := List.map_eq_nil_iff.mp (List.append_eq_nil_iff.mp hway).2
    exact Bool.eq_false_iff.mpr (List.filter_eq_nil_iff.mp hnil job hj)
  rw [System.accept_eq]
  refine ⟨fun fd' hfd' => ?_, fun fd' => ?_, fun fd1 fd2 hpos heq => ?_, fun job hj o ho => ?_,
    h.asked⟩
  · by_cases hne : fd' = fd
    · subst hne
      simp only [Function.update_self]
      exact ⟨(Nat.zero_le _).trans_lt (h.below fd'), hint⟩
    · simp only [Function.update_of_ne hne]
      rcases hfd' with hfd' | hfd'
      · exact h.socks fd' (Or.inl ((List.mem_cons.mp hfd').resolve_left hne))
      · exact h.socks fd' (Or.inr hfd')
  · have := h.below fd'
    by_cases hne : fd' = fd
    · simp [hne]
    · simp only [Function.update_of_ne hne]
      omega
  · have h1 := h.below fd1
    have h2 := h.below fd2
    by_cases hn1 : fd1 = fd <;> by_cases hn2 : fd2 = fd <;>
      simp only [hn1, hn2, Function.update_self, Function.update_of_ne, ne_eq, not_false_eq_true]
        at heq hpos ⊢
    · omega
    · omega
    · exact h.alone fd1 fd2 hpos heq
  · obtain ⟨hfd, hlt, halone, hext⟩ := h.traced job hj o ho
    refine ⟨hfd, hlt.trans (Nat.lt_succ_self _), fun fd' he => ?_, ?_⟩
    · by_cases hne : fd' = fd
      · rw [hne] at he
        simp only [Function.update_self] at he
        omega
      · simp only [Function.update_of_ne hne] at he
        exact halone fd' he
    · rw [hnone job hj] at hext ⊢
      exact hext

theorem Sends.subscribe_opt {s : State} {payload : List Str} {o : Opt} {topic : Topic} {x : Str}
    {reply : Reply} (h : Sends s payload o (.run (.SUBSCRIBE topic x)) reply) : o = .SUBSCRIBE := by
  cases h
  rfl

theorem Known.manage (h : Known s) (hpair : Paired s) {out : Outside} {job : Job} {rest : List Job}
    (hman : s.manager = .idle) (hrecv : s.recvMessage = job :: rest)
    (he : s.manage out job rest = .ok s') : Known s' := by
  have hjobs : s.jobs = job :: rest := by simp [System.jobs, hman, hrecv, ManagerThread.job]
  have hmine : s.recvQueue.filter (·.2) = [] := by
    have := hpair.mine
    rw [hman] at this
    rw [List.filter_eq_nil_iff]
    exact List.countP_eq_zero.mp this
  rcases System.manage_inv he with ⟨_, rfl⟩ | ⟨state, res, _, rfl⟩ | ⟨msg, reply, hd, rfl⟩
  · refine h.of_owner rfl rfl (fun _ => id) (fun j hj => Or.inl ?_) (by rintro _ _ _ _ ⟨⟩)
    rw [hjobs]
    exact List.mem_cons_of_mem _ hj
  · rw [System.answer_eq]
    refine h.of_owner rfl rfl (fun _ => id) (fun j hj => Or.inl ?_) (by simp [hman, ManagerThread.job])
    rw [hjobs]
    exact List.mem_cons_of_mem _ (by simpa [System.jobs, hman, ManagerThread.job] using hj)
  · refine h.of_owner rfl rfl (fun _ => id) (fun j hj => Or.inl ?_) ?_
    · rw [hjobs]
      simpa [System.jobs, ManagerThread.job] using hj
    · rintro topic x hx _ ⟨⟩
      obtain ⟨o, ho, hs⟩ := dispatch_sends hd
      simp only [System.ownMessages, ManagerThread.message, hmine, Option.toList_some, List.map_nil,
        List.append_nil, List.mem_singleton] at hx
      subst hx
      exact (ofInt_eq (ho.trans (congrArg some hs.subscribe_opt))).symm

theorem wake_message (mine : Bool) (r : Result) : (s.wake mine r).message = s.manager.message := by
  unfold System.wake
  split
  · rename_i hm
    rw [hm]
    rfl
  · rfl

theorem Known.step {a : Act} (h : Known s) (hpair : Paired s) (hok : OwnersKept s a)
    (he : s.step reg a = .ok s') : Known s' := by
  cases System.step_moved he with
  | stays => exact h
  | accept fd isSdk permitted added htcp => exact h.accept hpair htcp hok.1 isSdk permitted added
  | request fd msg _ hfd => exact h.requested hfd
  | respond fd n res origin rest sent htcp =>
    split
    · exact h.responded
    · exact h.responded.closeConn (h.socks fd (Or.inr ⟨n, htcp⟩))
  | hangUp fd _ hfd => exact h.closeConn (h.socks fd (Or.inl hfd))
  | internal event =>
    refine h.of_owner rfl rfl (fun _ => id) (fun job hj => ?_) h.asked
    unfold System.jobs at hj
    rw [← List.append_assoc] at hj
    rcases List.mem_append.mp hj with hj | hj
    · exact Or.inl hj
    · rw [List.mem_singleton.mp hj]
      exact Or.inr (by rintro _ ⟨⟩)
  | manage out job rest _ hman hrecv hm => exact h.manage hpair hman hrecv hm
  | push job msg reply hman =>
    refine h.of_owner rfl rfl (fun _ => id) (fun j hj => Or.inl ?_) ?_
    · simpa [System.jobs, hman, ManagerThread.job] using hj
    · rintro topic x hx _ ⟨⟩
      refine h.asked topic x ?_ job (by rw [hman]; rfl)
      simpa [System.ownMessages, ManagerThread.message, hman, or_comm] using hx
  | finish out job reply r hman =>
    rw [System.answer_eq]
    refine h.of_owner rfl rfl (fun _ => id) (fun j hj => Or.inl ?_) (by rintro _ _ _ _ ⟨⟩)
    simp only [System.jobs, ManagerThread.job, Option.toList_none, List.nil_append] at hj
    exact List.mem_append_right _ hj
  | plugin ptr call =>
    refine h.of_owner rfl rfl (fun _ => id) (fun _ => Or.inl) (fun topic x hx => h.asked topic x ?_)
    simpa [System.ownMessages] using hx
  | handle ans junk msg mine rest _ hq hh =>
    obtain ⟨state, r, m, _, _, _, rfl⟩ := System.handle_inv hh
    refine h.of_owner rfl rfl (fun _ => id) (fun job hj => Or.inl ?_) (fun topic x hx job hj => ?_)
    · simpa [System.jobs, wake_job] using hj
    · rw [wake_job] at hj
      refine h.asked topic x ?_ job hj
      simp only [System.ownMessages, wake_message, List.mem_append, List.mem_map] at hx ⊢
      refine hx.imp_right fun hx => ?_
      obtain ⟨e, hm, hx⟩ := hx
      refine ⟨e, ?_, hx⟩
      rw [hq]
      exact ((List.sublist_cons_self _ _).filter _).subset hm
  | tick => exact h.of_owner rfl rfl (fun _ => id) (fun _ => Or.inl) h.asked
  | reorder => exact h.of_owner rfl rfl (fun _ => id) (fun _ => Or.inl) h.asked
  | data event audience =>
    rw [System.sendData_eq]
    exact h.of_owner rfl rfl (fun _ => id) (fun _ => Or.inl) h.asked

/-! ### What lies under a number -/

/-- A step that publishes nothing, subscribes nobody and accepts nobody. -/
theorem Kept.quiet {a : Act} (h : Kept s) (hs : StoreOk s.state) (he : s.step reg a = .ok s')
    (hno : ∀ m ans, s.action reg a ≠ some (.message m ans)) (hown : s'.owner = s.owner)
    (hsubs : s'.subscriptions = s.subscriptions) (haud : s'.audience = s.audience)
    (hpop : s'.popped = s.popped) (hsent : s'.sent = s.sent) : Kept s' := by
  have hst := System.step_state he
  have hdata : s'.state.recvData = s.state.recvData := by
    cases ha : s.action reg a with
    | none => rw [ha] at hst; rw [hst]
    | some b =>
      rw [ha] at hst
      refine step_recvData hs hst ?_
      rintro d ans rfl
      exact hno _ _ ha
  have hset : ∀ type x, x ∈ s'.state.subs type → x ∈ s.state.subs type := by
    intro type x hx
    cases ha : s.action reg a with
    | none => rw [ha] at hst; rwa [← hst]
    | some b =>
      rw [ha] at hst
      rcases step_subs hs hst hx with hx | ⟨topic, ans, rfl, _⟩
      · exact hx
      · exact absurd ha (hno _ _)
  refine ⟨fun type x hx => ?_, ?_, ?_, ?_⟩
  · rw [hown, hsubs]
    exact h.subs type x (hset type x hx)
  · rw [haud, hdata]
    exact h.length
  · rw [hpop, hdata, haud, hown]
    exact h.queued
  · rw [hsent]
    exact h.sent

/-- Nothing is left under a number that is given away. -/
theorem Kept.accept (h : Kept s) {fd : ℕ} {isSdk permitted added : Bool}
    (hok : OwnersKept s (.accept fd isSdk permitted added)) :
    Kept (s.accept fd isSdk permitted added) := by
  obtain ⟨_, hsets, hevents⟩ := hok
  rw [System.accept_eq]
  refine ⟨fun type x hx hsdk => ?_, h.length, fun i e audience hi hev haud fd' hto => ?_, h.sent⟩
  · obtain ⟨fd', hint, rfl, hm⟩ := h.subs type x hx hsdk
    obtain ⟨set, hset, _⟩ := subs_ne_nil_iff_find.mp (List.ne_nil_of_mem hx)
    have hne := hsets type (UMap.mem_keys_of_find hset) _ hx hsdk
    rw [atoi_toStr hint] at hne
    refine ⟨fd', hint, rfl, ?_⟩
    show (Function.update s.owner fd s.accepted fd', type) ∈ s.subscriptions
    rwa [Function.update_of_ne (fun heq => hne (congrArg _ heq))]
  · have hmem : e ∈ s.state.recvData.drop s.popped := by
      refine List.mem_of_getElem? (i := i - s.popped) ?_
      rw [List.getElem?_drop, Nat.add_sub_cancel' hi]
      exact hev
    have hne : fd' ≠ fd := by
      rintro rfl
      exact hevents e hmem hto
    show Function.update s.owner fd s.accepted fd' ∈ audience
    rw [Function.update_of_ne hne]
    exact h.queued i e audience hi hev haud fd' hto

/-- The data thread sends to the audience of the event it takes. -/
theorem Kept.data (h : Kept s) {event : Event} {audience : List ℕ}
    (hev : s.state.recvData[s.popped]? = some event)
    (haud : s.audience[s.popped]? = some audience) : Kept (s.sendData event audience) := by
  have hsent : ∀ e ∈ (s.sendData event audience).sent, e.1 ∈ e.2 := by
    intro e he
    rcases System.sendData_sent s event audience with hs | ⟨fd, hto, _, hs⟩
    · rw [hs] at he
      exact h.sent e he
    · rw [hs] at he
      rcases List.mem_append.mp he with he | he
      · exact h.sent e he
      · rw [List.mem_singleton.mp he]
        exact h.queued s.popped event audience le_rfl hev haud fd hto
  rw [System.sendData_eq] at hsent ⊢
  exact ⟨h.subs, h.length, fun i e audience hi => h.queued i e audience (Nat.le_of_succ_le hi), hsent⟩

/-- A subscription goes with the string that stands for it. -/
theorem tracked_mem {msg : RunMessage} {r : Result} {c : ℕ} {type : Str}
    (h : (c, type) ∈ s.subscriptions) : (c, type) ∈ s.tracked msg r ∨ ∃ o ∈ s.origin, c = o.conn ∧
      ((∃ topic, msg = .run (.UNSUBSCRIBE topic (toStr o.fd)) ∧ type = topic.getType) ∨
        msg = .run (.UNSUBSCRIBE_SDK (toStr o.fd))) := by
  unfold System.tracked
  split
  · split
    · exact Or.inl h
    · exact Or.inl (List.mem_cons_of_mem _ h)
  · rename_i o topic x ho
    split
    · rename_i hx
      subst hx
      by_cases he : (c, type) = (o.conn, topic.getType)
      · cases he
        exact Or.inr ⟨o, ho, rfl, Or.inl ⟨topic, rfl, rfl⟩⟩
      · exact Or.inl (List.mem_filter.mpr ⟨h, decide_eq_true he⟩)
    · exact Or.inl h
  · rename_i o x ho
    split
    · rename_i hx
      subst hx
      by_cases he : c = o.conn
      · exact Or.inr ⟨o, ho, he, Or.inr rfl⟩
      · exact Or.inl (List.mem_filter.mpr ⟨h, by simpa using he⟩)
    · exact Or.inl h
  · exact Or.inl h

/-- The events that a message queues, with their audience. -/
theorem handleQueued_data (hs : StoreOk s.state) {msg : RunMessage} {ans : Answers} {junk : ℕ}
    {state : State} {r : Result} (h : s.state.handleQueued reg msg ans junk = .ok (state, r)) :
    ∃ new audience, state.recvData = s.state.recvData ++ new ∧
      s.newAudience msg state = List.replicate new.length audience ∧
      ∀ e ∈ new, ∃ d x, x ∈ s.state.subs d.topic.getType ∧ State.isSdk x = true ∧
        e = State.dataEvent d x ∧ audience = s.audienceOf d.topic.getType := by
  by_cases hp : ∃ d, msg = .run (.PUBLISH_DATA d)
  · obtain ⟨d, rfl⟩ := hp
    obtain ⟨state', h1, he⟩ := map_ok h
    cases he
    obtain ⟨-, rfl⟩ := publishDataWith_iff.mp h1
    refine ⟨((s.state.subs d.topic.getType).filter State.isSdk).map (State.dataEvent d),
      s.audienceOf d.topic.getType, rfl, ?_, ?_⟩
    · simp [System.newAudience, State.sentTo, State.touchSubs]
    · intro e he
      obtain ⟨x, hx, rfl⟩ := List.mem_map.mp he
      exact ⟨d, x, (List.mem_filter.mp hx).1, (List.mem_filter.mp hx).2, rfl, rfl⟩
  · obtain ⟨m, hm, hh⟩ := handleQueued_ok h
    refine ⟨[], [], ?_, ?_, by simp⟩
    · rw [List.append_nil]
      refine step_recvData hs (a := .message m ans) (by rw [OeAware.step, hh]; rfl) ?_
      rintro d _ ⟨⟩
      rcases System.decoded_inv hm with rfl | ⟨_, hd⟩
      · exact hp ⟨d, rfl⟩
      · cases hd
    · unfold System.newAudience
      split
      · rename_i d
        exact absurd ⟨d, rfl⟩ hp
      · rfl

/-- A subscription that `handle` takes away leaves no string behind. -/
theorem gone_of_tracked {m : InstanceRunMessage} {ans : Answers} {state : State} {r : Result}
    (h : s.state.handle m ans = .ok (state, r)) {x type : Str}
    (hm : (∃ topic, m = .UNSUBSCRIBE topic x ∧ type = topic.getType) ∨ m = .UNSUBSCRIBE_SDK x) :
    x ∉ state.subs type := by
  rcases hm with ⟨topic, rfl, rfl⟩ | rfl
  · obtain ⟨state', h1, he⟩ := map_ok h
    cases he
    exact unsubscribe_gone h1
  · obtain ⟨state', h1, he⟩ := map_ok h
    cases he
    exact unsubscribeSdk_gone h1 type

theorem mem_origin {o : Origin} (ho : o ∈ s.origin) : ∃ job ∈ s.manager.job, o ∈ job.origin := by
  unfold System.origin at ho
  split at ho
  · rename_i job reply hman
    exact ⟨job, by rw [hman]; rfl, ho⟩
  · cases ho

theorem mem_jobs {job : Job} (h : job ∈ s.manager.job) : job ∈ s.jobs :=
  List.mem_append_left _ (Option.mem_toList.mpr h)

/-- The connection that asked for its own number has it. -/
theorem Known.asker (h : Known s) {topic : Topic} {x : Str} {rest : List (RunMessage × Bool)}
    (hq : s.recvQueue = (.run (.SUBSCRIBE topic x), true) :: rest) {o : Origin} (ho : o ∈ s.origin) :
    o.fd < 2 ^ 31 ∧ s.owner o.fd = o.conn := by
  obtain ⟨job, hj, hjo⟩ := mem_origin ho
  have hopt := h.asked topic x (by simp [System.ownMessages, hq]) job hj
  obtain ⟨hint, -, -, hext⟩ := h.traced job (mem_jobs hj) o hjo
  split at hext
  · exact ⟨hint, hext⟩
  · rw [hopt] at hext
    cases hext

/-- A string that is still there keeps its subscription. -/
theorem Kept.subs_tracked (h : Kept s) (hk : Known s) {msg : RunMessage} {m : InstanceRunMessage}
    {ans : Answers} {junk : ℕ} {state : State} {r : Result} (hm : msg.decoded reg junk = some m)
    (hh : s.state.handle m ans = .ok (state, r)) {type x : Str} (hold : x ∈ s.state.subs type)
    (hx : x ∈ state.subs type) (hsdk : State.isSdk x = true) :
    ∃ fd < 2 ^ 31, x = toStr fd ∧ (s.owner fd, type) ∈ s.tracked msg r := by
  obtain ⟨fd, hint, rfl, hsub⟩ := h.subs type x hold hsdk
  refine ⟨fd, hint, rfl, ?_⟩
  rcases tracked_mem hsub with hin | ⟨o, ho, hc, hmsg⟩
  · exact hin
  · obtain ⟨job, hj, hjo⟩ := mem_origin ho
    obtain ⟨-, -, halone, -⟩ := hk.traced job (mem_jobs hj) o hjo
    rw [halone fd hc] at hx
    refine absurd hx (gone_of_tracked hh ?_)
    rcases hmsg with ⟨topic, rfl, htype⟩ | rfl
    · exact Or.inl ⟨topic, (Option.some.inj hm).symm, htype⟩
    · exact Or.inr (Option.some.inj hm).symm

/-- A string that is new has just been given its subscription. -/
theorem Known.subs_new (hk : Known s) (hs : StoreOk s.state) {topic : Topic} {x : Str} {mine : Bool}
    {ans : Answers} {state : State} {r : Result} {rest : List (RunMessage × Bool)}
    (hq : s.recvQueue = (.run (.SUBSCRIBE topic x), mine) :: rest)
    (hok : s.OwnNumber (.run (.SUBSCRIBE topic x), mine))
    (hh : s.state.handle (.SUBSCRIBE topic x) ans = .ok (state, r)) (hsdk : State.isSdk x = true)
    (hold : x ∉ s.state.subs topic.getType) (hx : x ∈ state.subs topic.getType) :
    mine = true ∧ ∃ fd < 2 ^ 31, x = toStr fd ∧
      (s.owner fd, topic.getType) ∈ s.tracked (.run (.SUBSCRIBE topic x)) r := by
  obtain ⟨rfl, o, ho, rfl⟩ := hok hsdk
  obtain ⟨hint, hown⟩ := hk.asker hq ho
  refine ⟨rfl, o.fd, hint, rfl, ?_⟩
  have hnot : ¬ r.failed = true := by
    intro hf
    simp only [State.handle, Except.ok.injEq] at hh
    have hfail : (s.state.subscribe topic.getType (toStr o.fd) ans).2.failed = true := by
      rw [hh]
      exact hf
    have hsame := subscribe_failed hs hfail topic.getType
    rw [hh] at hsame
    exact hold (hsame ▸ hx)
  have ho' : s.origin = some o := ho
  unfold System.tracked
  simp [ho', hown, hnot]

theorem Kept.handle (h : Kept s) (hk : Known s) (hs : StoreOk s.state) {ans : Answers} {junk : ℕ}
    {msg : RunMessage} {mine : Bool} {rest : List (RunMessage × Bool)}
    (hq : s.recvQueue = (msg, mine) :: rest) (hok : s.OwnNumber (msg, mine))
    (he : s.handle reg ans junk msg mine rest = .ok s') : Kept s' := by
  obtain ⟨state, r, m, hhq, hm, hh, rfl⟩ := System.handle_inv he
  obtain ⟨new, audience, hdata, haud, hnew⟩ := handleQueued_data hs hhq
  have hstep : OeAware.step s.state (.message m ans) = .ok state := by rw [OeAware.step, hh]; rfl
  refine ⟨fun type x hx hsdk => ?_, ?_, fun i e aud hi hev ha fd hto => ?_, h.sent⟩
  · show ∃ fd < 2 ^ 31, x = toStr fd ∧
      (s.owner fd, type) ∈ if mine then s.tracked msg r else s.subscriptions
    by_cases hold : x ∈ s.state.subs type
    · cases mine with
      | false => exact h.subs type x hold hsdk
      | true => exact h.subs_tracked hk hm hh hold hx hsdk
    · obtain ⟨topic, ans', ha, rfl⟩ := (step_subs hs hstep hx).resolve_left hold
      cases ha
      rcases System.decoded_inv hm with rfl | ⟨_, hd⟩
      · obtain ⟨rfl, hnew⟩ := hk.subs_new hs hq hok hh hsdk hold hx
        exact hnew
      · cases hd
  · simp [haud, hdata, h.length]
  · simp only [hdata, haud] at hev ha
    by_cases hlt : i < s.state.recvData.length
    · rw [List.getElem?_append_left hlt] at hev
      rw [List.getElem?_append_left (h.length ▸ hlt)] at ha
      exact h.queued i e aud hi hev ha fd hto
    · rw [List.getElem?_append_right (Nat.le_of_not_lt hlt)] at hev
      rw [List.getElem?_append_right (h.length ▸ Nat.le_of_not_lt hlt)] at ha
      obtain ⟨d, x, hx, hsdk, rfl, rfl⟩ := hnew e (List.mem_of_getElem? hev)
      obtain ⟨fd', hint, rfl, hsub⟩ := h.subs _ x hx hsdk
      rw [List.eq_of_mem_replicate (List.mem_of_getElem? ha)]
      simp only [State.dataEvent, Event.addressee, if_true, Option.some.injEq,
        atoi_toStr hint] at hto
      obtain rfl := Int.natCast_inj.mp hto
      refine List.mem_map.mpr ⟨_, List.mem_filter.mpr ⟨hsub, ?_⟩, rfl⟩
      simp

theorem Kept.step {a : Act} (h : Kept s) (hk : Known s) (hs : StoreOk s.state)
    (hok : OwnersKept s a) (he : s.step reg a = .ok s') : Kept s' := by
  cases System.step_moved he with
  | stays => exact h
  | accept => exact h.accept hok
  | request => exact h.quiet hs he nofun rfl rfl rfl rfl rfl
  | respond fd n res origin rest sent =>
    refine h.quiet hs he nofun ?_ ?_ ?_ ?_ ?_ <;> split <;> rfl
  | hangUp => exact h.quiet hs he nofun rfl rfl rfl rfl rfl
  | internal => exact h.quiet hs he nofun rfl rfl rfl rfl rfl
  | manage out job rest _ hman hrecv hm =>
    have hno : ∀ m ans, s.action reg (.manage out) ≠ some (.message m ans) := by
      intro m ans ha
      obtain ⟨_, _, _, _, hb, _⟩ := System.action_message ha
      cases hb
    rcases System.manage_inv hm with ⟨_, rfl⟩ | ⟨state, res, _, rfl⟩ | ⟨msg, reply, _, rfl⟩
    · exact h.quiet hs he hno rfl rfl rfl rfl rfl
    · rw [System.answer_eq] at he ⊢
      exact h.quiet hs he hno rfl rfl rfl rfl rfl
    · exact h.quiet hs he hno rfl rfl rfl rfl rfl
  | push => exact h.quiet hs he nofun rfl rfl rfl rfl rfl
  | finish =>
    rw [System.answer_eq] at he ⊢
    exact h.quiet hs he nofun rfl rfl rfl rfl rfl
  | plugin => exact h.quiet hs he nofun rfl rfl rfl rfl rfl
  | handle ans junk msg mine rest _ hq hh =>
    exact h.handle hk hs hq (hok _ (by rw [hq]; rfl)) hh
  | tick => exact h.quiet hs he nofun rfl rfl rfl rfl rfl
  | reorder => exact h.quiet hs he nofun rfl rfl rfl rfl rfl
  | data event audience hev haud => exact h.data hev haud

theorem kept_runs (h : SystemRuns reg OwnersKept s) :
    Kept s ∧ Known s ∧ Paired s ∧ StoreOk s.state := by
  refine Runs.invariant (I := fun s => Kept s ∧ Known s ∧ Paired s ∧ StoreOk s.state)
    ⟨kept_init, known_init, paired_init, storeOk_init⟩ ?_ h
  rintro s s' a ⟨hkept, hknown, hpair, hs⟩ hok he
  exact ⟨hkept.step hknown hs hok he, hknown.step hpair hok he, hpair.step he, System.storeOk hs he⟩

/-- NOBODY ELSE'S DATA: in every run in which a descriptor's number is given away only when nothing is
    left under it, data goes only to connections that were subscribed when it was published. -/
theorem data_to_subscribed (h : SystemRuns reg OwnersKept s) {conn : ℕ} {audience : List ℕ}
    (hsent : (conn, audience) ∈ s.sent) : conn ∈ audience :=
  (kept_runs h).1.sent _ hsent

end

/-- A client subscribes under descriptor `7` and the instance `i` publishes. -/
def publishedTo : List Act :=
  [.internal (.load (str "a.so")), .manage sampleOut, .accept 7 true true true,
    .request 7 ⟨Opt.SUBSCRIBE.toInt, [serStr (str "i") ++ serStr (str "t") ++ serStr []]⟩,
    .manage sampleOut, .push, .handle accepting 0, .finish sampleOut, .respond true,
    .plugin 0 (.publish ⟨sampleTopic "i", []⟩), .handle accepting 0]

/-- The data goes out, the client's strings are cleared away, and the number is given to another. -/
theorem data_to_subscribed_first : ∃ s, SystemRuns noCodecs OwnersKept s ∧ s.owner 7 = 2 ∧
    s.sent = [(1, [1])] ∧ 1 ∈ [1] := by
  have h : SystemRuns noCodecs OwnersKept _ := Runs.of_runAll OwnersKept
    (publishedTo ++ [.data, .hangUp 7, .manage sampleOut, .push, .handle accepting 0,
      .finish sampleOut, .accept 7 true true true]) .start rfl
  exact ⟨_, h, rfl, rfl, data_to_subscribed h (List.mem_of_getElem? (i := 0) rfl)⟩

/-- The number is given to another while the data is queued: it goes to the newcomer, who has asked
    for nothing. -/
theorem data_to_stranger : ∃ s, SystemRuns noCodecs (fun _ _ => True) s ∧
    s.subscriptions = [(1, (sampleTopic "i").getType)] ∧ (2, [1]) ∈ s.sent ∧ 2 ∉ [1] := by
  have h : SystemRuns noCodecs (fun _ _ => True) _ := Runs.of_runAll (fun _ _ => True)
    (publishedTo ++ [.hangUp 7, .accept 7 true true true, .data]) .start rfl
  exact ⟨_, h, rfl, List.mem_of_getElem? (i := 0) rfl, by decide⟩

end OeAware

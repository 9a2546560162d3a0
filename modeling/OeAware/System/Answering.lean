import Mathlib.Data.Prod.Lex
import OeAware.Manager.Removing
import OeAware.Schemes.Fair
import OeAware.System.Delivery
import OeAware.System.Pairing

/-! @src src/plugin_mgr/plugin_manager.cpp, message_manager.cpp, src/common/message_protocol.h |
    name:PluginManager::Run, InitEventHandler, GetEventResult | scheme:state-machine

    Every request is answered. The opt of a message is whatever integer the client has sent; `Run` looks
    it up in a table that covers part of the enumeration, and calls what it finds. As long as it finds
    something, and nothing on the way of the events faults, the TCP thread gets the result of its own
    request, after the events that lie before it and after the messages that lie before theirs.

        rank of a state in which a request is under way, the first difference counts:
          events the manager has still to finish │ its phase at this one │ messages before its own -/

namespace OeAware
open Schemes

/-- The handler of an opt can read the topic in a payload, where it has to. -/
def Opt.reads (payload : List Str) : Opt → Bool
  | .SUBSCRIBE | .UNSUBSCRIBE =>
    match payload with
    | [bytes, _] => (Topic.deserialize ⟨bytes, true⟩).isSome
    | _ => true
  | _ => true

/-- `Run` finds a handler for the event (or stops), and the handler can read the topic in it. -/
def Event.dispatches (e : Event) : Bool :=
  e.opt = Opt.SHUTDOWN.toInt || (Opt.ofInt e.opt).any (fun o => o.handled && o.reads e.payload)

/-- A payload that has to be decoded decodes, and data that has to be encoded has a codec. -/
def RunMessage.handles (reg : Register) (s : State) (junk : ℕ) : RunMessage → Bool
  | .run (.PUBLISH_DATA d) => d.encodesNull reg → ∀ x ∈ s.subs d.topic.getType, !State.isSdk x
  | msg => (msg.decoded reg junk).isSome

/-- The next event has a handler, the next message can be handled, and only names are removed that
    nothing mentions. -/
def Answerable (reg : Register) (s : System) (a : Act) : Prop :=
  System.Lifted reg RemovesUnmentioned s a ∧
  match a with
  | .manage _ => ∀ job ∈ s.recvMessage.head?, job.event.dispatches = true
  | .handle _ junk => ∀ e ∈ s.recvQueue.head?, e.1.handles reg s.state junk = true
  | _ => True

instance (reg : Register) (s : System) : ∀ a, Decidable (Answerable reg s a)
  | .manage out => inferInstanceAs (Decidable (System.Lifted reg RemovesUnmentioned s (.manage out) ∧
      ∀ job ∈ s.recvMessage.head?, job.event.dispatches = true))
  | .handle ans junk =>
    inferInstanceAs (Decidable (System.Lifted reg RemovesUnmentioned s (.handle ans junk) ∧
      ∀ e ∈ s.recvQueue.head?, e.1.handles reg s.state junk = true))
  | .accept _ _ _ _ | .request _ _ | .respond _ | .hangUp _ | .internal _ | .push | .finish _
  | .plugin _ _ | .tick | .reorder _ | .data => inferInstanceAs (Decidable (_ ∧ True))

/-! ### Nothing faults on the way -/

theorem reads_eq_false {payload : List Str} {o : Opt} (h : o.reads payload = false) :
    ∃ bytes name, payload = [bytes, name] ∧ Topic.deserialize ⟨bytes, true⟩ = none ∧
      (o = .SUBSCRIBE ∨ o = .UNSUBSCRIBE) := by
  cases o with
  | SUBSCRIBE | UNSUBSCRIBE =>
    simp only [Opt.reads] at h
    split at h
    · exact ⟨_, _, rfl, Option.isNone_iff_eq_none.mp (by simpa using h), by simp⟩
    · cases h
  | _ => cases h

/-- A handler throws exactly when it cannot read its topic. -/
theorem eventHandler_throws_iff {s : State} {out : Outside} {payload : List Str} {o : Opt}
    {h : Handling} (hh : s.eventHandler out payload o = some h) :
    h = .throws ↔ o.reads payload = false := by
  constructor
  · rintro rfl
    cases eventHandler_ends hh with
    | throws bytes name ho hp ht => rcases ho with rfl | rfl <;> simp [Opt.reads, hp, ht]
  · intro hr
    obtain ⟨bytes, name, rfl, ht, rfl | rfl⟩ := reads_eq_false hr
    · simpa [State.eventHandler, State.subscribeHandler, ht, eq_comm] using hh
    · simpa [State.eventHandler, State.unsubscribeHandler, ht, eq_comm] using hh

theorem dispatches_iff {s : State} {out : Outside} {e : Event} (hne : e.opt ≠ Opt.SHUTDOWN.toInt) :
    e.dispatches = true ↔ ∃ h, s.dispatch out e = some h ∧ h ≠ .throws := by
  simp only [Event.dispatches, hne, decide_false, Bool.false_or, State.dispatch]
  cases ho : Opt.ofInt e.opt with
  | none => simp
  | some o =>
    have hsome := eventHandler_isSome s out e.payload o
    simp only [Option.any_some, Option.bind_some, Bool.and_eq_true, ← hsome]
    cases hh : s.eventHandler out e.payload o with
    | none => simp
    | some h => simp [eventHandler_throws_iff hh]

section
variable {reg : Register} {s s' : System}

/-- The manager thread has a next state exactly for the events that dispatch. -/
theorem manage_ok_iff {out : Outside} {job : Job} {rest : List Job} :
    (∃ s', s.manage out job rest = .ok s') ↔ job.event.dispatches = true := by
  by_cases hsd : job.event.opt = Opt.SHUTDOWN.toInt
  · refine iff_of_true ⟨_, by unfold System.manage; rw [if_pos hsd]⟩ ?_
    simp [Event.dispatches, hsd]
  · rw [@dispatches_iff s.state out _ hsd]
    unfold System.manage
    simp only [hsd, if_false]
    cases hd : s.state.dispatch out job.event with
    | none => simp
    | some h => cases h <;> simp

theorem mapError_exists {ε ε' α : Type} {x : Except ε α} (f : ε → ε') (h : ∃ y, x = .ok y) :
    ∃ y, x.mapError f = .ok y := by
  obtain ⟨y, rfl⟩ := h
  exact ⟨y, rfl⟩

theorem handleQueued_ok_of_handles {s : State} (hp : Present s) {msg : RunMessage} {junk : ℕ}
    (hm : msg.handles reg s junk = true) (ans : Answers) :
    ∃ res, s.handleQueued reg msg ans junk = .ok res := by
  unfold State.handleQueued
  split
  · cases hm
  · rename_i bytes rest
    simp only [RunMessage.handles, RunMessage.decoded] at hm
    cases hd : dataListDeserialize reg junk bytes with
    | ok d => exact mapError_exists _ (hp.handle_ok _ _)
    | nullCodec => rw [hd] at hm; cases hm
    | throws => rw [hd] at hm; cases hm
  · rename_i d
    have hroute : ∀ key ∈ s.subs d.topic.getType, s.routed reg d key = true := by
      intro key hk
      rw [State.routed]
      split
      · rename_i hsdk
        by_contra hn
        have := of_decide_eq_true hm (by simpa using hn) key hk
        simp [hsdk] at this
      · rename_i hsdk
        exact hp.subs _ key hk (Bool.eq_false_iff.mpr hsdk)
    rw [publishDataWith_iff.mpr ⟨hroute, rfl⟩]
    exact ⟨_, rfl⟩
  · exact mapError_exists _ (hp.handle_ok _ _)

/-! ### Whose move it is -/

/-- The moves by which a request gets on. -/
inductive Turn where
  | manage | push | handle | finish | respond
  deriving DecidableEq

def Act.turn : Act → Option Turn
  | .manage _ => some .manage
  | .push => some .push
  | .handle _ _ => some .handle
  | .finish _ => some .finish
  | .respond _ => some .respond
  | _ => none

/-- None of these moves faults. -/
theorem Answerable.step_ok {a : Act} (hp : Present s.state) (hok : Answerable reg s a)
    (ha : a.turn.isSome = true) : ∃ s', s.step reg a = .ok s' := by
  cases a with
  | manage out =>
    simp only [System.step]
    split
    · rename_i job rest hman hrecv
      exact manage_ok_iff.mpr (hok.2 job (by rw [hrecv]; rfl))
    · exact ⟨_, rfl⟩
  | handle ans junk =>
    simp only [System.step]
    split
    · rename_i msg mine rest hq
      obtain ⟨⟨state, r⟩, hh⟩ := handleQueued_ok_of_handles hp
        (hok.2 (msg, mine) (by rw [hq]; rfl)) ans
      unfold System.handle
      rw [hh]
      exact ⟨_, rfl⟩
    · exact ⟨_, rfl⟩
  | push | finish | respond =>
    simp only [System.step]
    split <;> exact ⟨_, rfl⟩
  | accept | request | hangUp | internal | plugin | tick | reorder | data => cases ha

def ManagerThread.turn : ManagerThread → Turn
  | .idle | .stopped => .manage
  | .sending _ _ _ => .push
  | .waiting _ _ => .handle
  | .woken _ _ _ => .finish

/-- How far the manager is with its event. -/
def ManagerThread.phase : ManagerThread → ℕ
  | .idle | .stopped => 4
  | .sending _ _ _ => 3
  | .waiting _ _ => 2
  | .woken _ _ _ => 1

namespace System

def whose (s : System) : Turn := if s.sendMessage.isEmpty then s.manager.turn else .respond

/-- The events that the manager has still to finish, that of the request included. -/
def ahead (s : System) : ℕ :=
  s.manager.job.toList.length +
    if s.manager.job.any Job.external then 0 else s.recvMessage.findIdx Job.external + 1

/-- The messages before the manager's own. -/
def before (s : System) : ℕ :=
  if s.manager.isWaiting then s.recvQueue.findIdx (·.2) else 0

def rank (s : System) : ℕ ×ₗ ℕ ×ₗ ℕ :=
  if s.sendMessage.isEmpty then toLex (s.ahead, toLex (s.manager.phase, s.before))
  else toLex (0, toLex (0, 0))

theorem rank_lt_of_ahead (hs : s.sendMessage = []) (hs' : s'.sendMessage = [])
    (h : s'.ahead < s.ahead) : s'.rank < s.rank := by
  simp [rank, hs, hs', Prod.Lex.toLex_lt_toLex, h]

theorem rank_lt_of_phase (hs : s.sendMessage = []) (hs' : s'.sendMessage = [])
    (ha : s'.ahead = s.ahead) (h : s'.manager.phase < s.manager.phase) : s'.rank < s.rank := by
  simp [rank, hs, hs', Prod.Lex.toLex_lt_toLex, ha, h]

theorem rank_lt_of_before (hs : s.sendMessage = []) (hs' : s'.sendMessage = [])
    (ha : s'.ahead = s.ahead) (hp : s'.manager.phase = s.manager.phase)
    (h : s'.before < s.before) : s'.rank < s.rank := by
  simp [rank, hs, hs', Prod.Lex.toLex_lt_toLex, ha, hp, h]

theorem rank_lt_of_answer (hs : s.sendMessage = []) (hs' : s'.sendMessage ≠ [])
    (h : 0 < s.ahead) : s'.rank < s.rank := by
  simp [rank, hs, hs', Prod.Lex.toLex_lt_toLex, h]

/-- With a result waiting, nothing but the TCP thread counts. -/
theorem rank_of_sending (hs : s.sendMessage ≠ []) (hs' : s'.sendMessage ≠ []) :
    s'.rank = s.rank ∧ s'.whose = s.whose := by
  simp [rank, whose, hs, hs']

theorem rank_congr (hs : s'.sendMessage = s.sendMessage) (hm : s'.manager = s.manager)
    (ha : s'.ahead = s.ahead) (hb : s'.before = s.before) :
    s'.rank = s.rank ∧ s'.whose = s.whose := by
  simp [rank, whose, hs, hm, ha, hb]

end System

/-! ### The manager's moves -/

/-- A request that has no result yet is still to be dispatched or in the manager's hands. -/
theorem Paired.pending (h : Paired s) {fd n : ℕ} (htcp : s.tcp = some (fd, n))
    (hns : s.manager ≠ .stopped) (hsend : s.sendMessage = []) :
    ∃ job ∈ s.manager.job.toList ++ s.recvMessage, job.external = true := by
  have hway : s.underWay = [some n] := by
    rw [h.underWay.resolve_right (fun hs => hns hs.1), System.awaited, htcp]
    rfl
  by_contra hno
  have hnil : (s.manager.job.toList ++ s.recvMessage).filter Job.external = [] := by
    rw [List.filter_eq_nil_iff]
    exact fun job hj hx => hno ⟨job, hj, hx⟩
  simp [System.underWay, hsend, hnil] at hway

theorem lower_manage {out : Outside} {job : Job} {rest : List Job} (hman : s.manager = .idle)
    (hrecv : s.recvMessage = job :: rest) (hsend : s.sendMessage = [])
    (he : s.manage out job rest = .ok s') : s'.manager = .stopped ∨ s'.rank < s.rank := by
  rcases System.manage_inv he with ⟨_, rfl⟩ | ⟨state, res, _, rfl⟩ | ⟨msg, reply, _, rfl⟩
  · exact Or.inl rfl
  · refine Or.inr ?_
    rw [System.answer_eq]
    by_cases hj : job.event.type = .EXTERNAL
    · refine System.rank_lt_of_answer hsend (by simp [hj]) ?_
      simp [System.ahead, hman, ManagerThread.job]
    · refine System.rank_lt_of_ahead hsend (by simp [hj, hsend]) ?_
      simp [System.ahead, hman, hrecv, ManagerThread.job, List.findIdx_cons, Job.external, hj]
  · refine Or.inr (System.rank_lt_of_phase hsend hsend ?_ ?_)
    · cases hj : job.external <;>
        simp [System.ahead, hman, hrecv, ManagerThread.job, List.findIdx_cons, hj]
      omega
    · simp [hman, ManagerThread.phase]

theorem lower_push {job : Job} {msg : RunMessage} {reply : Reply}
    (hman : s.manager = .sending job msg reply) (hsend : s.sendMessage = []) :
    ({ s with recvQueue := s.recvQueue ++ [(msg, true)], manager := .waiting job reply } :
      System).rank < s.rank := by
  refine System.rank_lt_of_phase hsend hsend ?_ ?_
  · rw [System.ahead, System.ahead, hman]
    rfl
  · simp [hman, ManagerThread.phase]

theorem lower_finish {job : Job} {reply : Reply} {r : Result} {res : EventResult}
    (hman : s.manager = .woken job reply r) (hsend : s.sendMessage = []) :
    (({ s with manager := .idle } : System).answer job res).rank < s.rank := by
  rw [System.answer_eq]
  by_cases hj : job.event.type = .EXTERNAL
  · refine System.rank_lt_of_answer hsend (by simp [hj]) ?_
    rw [System.ahead, hman]
    simp [ManagerThread.job, Job.external, hj]
  · refine System.rank_lt_of_ahead hsend (by simp [hj, hsend]) ?_
    simp [System.ahead, hman, ManagerThread.job, Job.external, hj]

theorem lower_handle {ans : Answers} {junk : ℕ} {msg : RunMessage} {mine : Bool}
    {rest : List (RunMessage × Bool)} {job : Job} {reply : Reply}
    (hman : s.manager = .waiting job reply) (hq : s.recvQueue = (msg, mine) :: rest)
    (hsend : s.sendMessage = []) (he : s.handle reg ans junk msg mine rest = .ok s') :
    s'.rank < s.rank := by
  obtain ⟨state, r, m, _, _, _, rfl⟩ := System.handle_inv he
  cases mine with
  | true =>
    refine System.rank_lt_of_phase hsend hsend ?_ ?_
    · simp [System.ahead, wake_job]
    · simp [System.wake, hman, ManagerThread.phase]
  | false =>
    refine System.rank_lt_of_before hsend hsend rfl rfl ?_
    simp [System.before, System.wake, hman, hq, ManagerThread.isWaiting, List.findIdx_cons]

/-! ### Every move -/

/-- The TCP thread waits for the result of request `n`. -/
def Waits (n : ℕ) (s : System) : Prop := (∃ fd, s.tcp = some (fd, n)) ∧ s.manager ≠ .stopped

/-- The server has stopped, or request `n` has been answered with its own result. -/
def GotAnswer (n : ℕ) (s : System) : Prop :=
  s.manager = .stopped ∨ ∃ o, (n, some o) ∈ s.answered ∧ o.request = some n

theorem Paired.answered_own (h : Paired s) {n : ℕ} (origin : Option Origin)
    (hm : (n, origin) ∈ s.answered) : ∃ o, (n, some o) ∈ s.answered ∧ o.request = some n := by
  obtain ⟨o, rfl, ho⟩ := Option.bind_eq_some_iff.mp (h.own _ hm)
  exact ⟨o, hm, ho⟩

/-- What the other threads do behind the request changes nothing for it. -/
theorem Paired.same_rank_internal (h : Paired s) {n : ℕ} (hw : Waits n s) (job : Job) :
    ({ s with recvMessage := s.recvMessage ++ [job] } : System).rank = s.rank ∧
      ({ s with recvMessage := s.recvMessage ++ [job] } : System).whose = s.whose := by
  by_cases hsend : s.sendMessage = []
  · refine System.rank_congr rfl rfl ?_ rfl
    obtain ⟨⟨fd, htcp⟩, hns⟩ := hw
    obtain ⟨job', hm, hx⟩ := h.pending htcp hns hsend
    rw [System.ahead, System.ahead]
    congr 1
    split
    · rfl
    · rename_i hman
      have hin : job' ∈ s.recvMessage := by
        rcases List.mem_append.mp hm with hm | hm
        · rw [Option.mem_toList] at hm
          rw [show s.manager.job = some job' from hm] at hman
          exact absurd hx hman
        · exact hm
      rw [List.findIdx_append, if_pos (List.findIdx_lt_length_of_exists ⟨job', hin, hx⟩)]
  · exact System.rank_of_sending hsend hsend

theorem Paired.same_rank_plugin (h : Paired s) (msg : RunMessage) :
    ({ s with recvQueue := s.recvQueue ++ [(msg, false)] } : System).rank = s.rank ∧
      ({ s with recvQueue := s.recvQueue ++ [(msg, false)] } : System).whose = s.whose := by
  refine System.rank_congr rfl rfl rfl ?_
  rw [System.before, System.before]
  split
  · rename_i hwait
    have hmine := h.mine
    rw [if_pos hwait] at hmine
    obtain ⟨e, he, hx⟩ := List.countP_pos_iff.mp (by omega : 0 < s.recvQueue.countP (·.2))
    rw [List.findIdx_append, if_pos (List.findIdx_lt_length_of_exists ⟨e, he, hx⟩)]
  · rfl

theorem answer_sending {job : Job} {res : EventResult} (h : s.sendMessage ≠ []) :
    (s.answer job res).sendMessage ≠ [] := by
  rw [System.answer_eq]
  simp [h]

theorem manage_tcp {out : Outside} {job : Job} {rest : List Job}
    (he : s.manage out job rest = .ok s') :
    s'.tcp = s.tcp ∧ (s.sendMessage ≠ [] → s'.sendMessage ≠ []) := by
  rcases System.manage_inv he with ⟨_, rfl⟩ | ⟨state, res, _, rfl⟩ | ⟨msg, reply, _, rfl⟩
  · exact ⟨rfl, id⟩
  · exact ⟨by rw [System.answer_eq], fun h => answer_sending h⟩
  · exact ⟨rfl, id⟩

/-- No step raises the rank, and while it stays the move stays with the same thread. -/
theorem Paired.step_rank (h : Paired s) {n : ℕ} (hw : Waits n s) {a : Act}
    (he : s.step reg a = .ok s') : GotAnswer n s' ∨
      (Waits n s' ∧ (s'.rank < s.rank ∨ (s'.rank = s.rank ∧ s'.whose = s.whose))) := by
  have hw' := hw
  obtain ⟨⟨fd, htcp⟩, hns⟩ := hw
  have hidle : s.tcp ≠ none := by simp [htcp]
  cases System.step_moved he with
  | stays => exact Or.inr ⟨hw', Or.inr ⟨rfl, rfl⟩⟩
  | accept _ _ _ _ hnone => exact absurd hnone hidle
  | request _ _ hnone => exact absurd hnone hidle
  | hangUp _ hnone => exact absurd hnone hidle
  | respond fd' n' res origin rest sent htcp' hsend =>
    cases htcp.symm.trans htcp'
    have hm : (n, origin) ∈ (s.responded fd n res origin rest).answered := by
      simp [System.responded]
    refine Or.inl (Or.inr ((h.step he).answered_own origin ?_))
    split <;> exact hm
  | internal event => exact Or.inr ⟨hw', Or.inr (h.same_rank_internal hw' _)⟩
  | manage out job rest _ hman hrecv hm =>
    obtain ⟨htcp', hkeep⟩ := manage_tcp hm
    by_cases hst : s'.manager = .stopped
    · exact Or.inl (Or.inl hst)
    · refine Or.inr ⟨⟨⟨fd, htcp'.trans htcp⟩, hst⟩, ?_⟩
      by_cases hsend : s.sendMessage = []
      · exact Or.inl ((lower_manage hman hrecv hsend hm).resolve_left hst)
      · exact Or.inr (System.rank_of_sending hsend (hkeep hsend))
  | push job msg reply hman =>
    refine Or.inr ⟨⟨⟨fd, htcp⟩, by simp⟩, ?_⟩
    by_cases hsend : s.sendMessage = []
    · exact Or.inl (lower_push hman hsend)
    · exact Or.inr (System.rank_of_sending hsend hsend)
  | finish out job reply r hman =>
    refine Or.inr ⟨⟨⟨fd, by rw [System.answer_eq]; exact htcp⟩, by simp [System.answer_eq]⟩, ?_⟩
    by_cases hsend : s.sendMessage = []
    · exact Or.inl (lower_finish hman hsend)
    · exact Or.inr (System.rank_of_sending hsend (answer_sending hsend))
  | plugin ptr call => exact Or.inr ⟨hw', Or.inr (h.same_rank_plugin _)⟩
  | handle ans junk msg mine rest _ hq hh =>
    obtain ⟨state, r, m, _, _, _, heq⟩ := System.handle_inv hh
    refine Or.inr ⟨⟨⟨fd, by rw [heq]; exact htcp⟩, ?_⟩, ?_⟩
    · rw [heq]
      exact fun hst => hns ((wake_stopped mine r).mp hst)
    · by_cases hsend : s.sendMessage = []
      · cases hman : s.manager with
        | waiting job reply => exact Or.inl (lower_handle hman hq hsend hh)
        | idle | sending | woken | stopped =>
          have hwake : s.wake mine r = s.manager := by
            unfold System.wake
            rw [hman]
            cases mine <;> rfl
          subst heq
          refine Or.inr (System.rank_congr rfl hwake ?_ ?_)
          · rw [System.ahead, System.ahead, hwake]
          · simp [System.before, hwake, hman, ManagerThread.isWaiting]
      · refine Or.inr (System.rank_of_sending hsend ?_)
        rw [heq]
        exact hsend
  | tick => exact Or.inr ⟨hw', Or.inr (System.rank_congr rfl rfl rfl rfl)⟩
  | reorder => exact Or.inr ⟨hw', Or.inr (System.rank_congr rfl rfl rfl rfl)⟩
  | data event audience =>
    rw [System.sendData_eq]
    exact Or.inr ⟨hw', Or.inr (System.rank_congr rfl rfl rfl rfl)⟩

/-- The move of the thread whose turn it is lowers the rank. -/
theorem Paired.turn_rank (h : Paired s) {n : ℕ} (hw : Waits n s) {a : Act}
    (ha : a.turn = some s.whose) (he : s.step reg a = .ok s') :
    GotAnswer n s' ∨ (Waits n s' ∧ s'.rank < s.rank) := by
  rcases h.step_rank hw he with hg | ⟨hw', hlt | ⟨heq, -⟩⟩
  · exact Or.inl hg
  · exact Or.inr ⟨hw', hlt⟩
  -- a move that leaves the rank alone has not been made, and nothing is in its thread's way
  exfalso
  obtain ⟨⟨fd, htcp⟩, hns⟩ := hw
  by_cases hsend : s.sendMessage = []
  · simp only [System.whose, hsend, List.isEmpty_nil, if_true] at ha
    cases hman : s.manager with
    | idle =>
      obtain ⟨job, hm, -⟩ := h.pending htcp hns hsend
      rw [hman] at hm ha
      obtain ⟨job', rest, hrecv⟩ := List.exists_cons_of_ne_nil (List.ne_nil_of_mem hm)
      have hrecv' : s.recvMessage = job' :: rest := hrecv
      cases a <;> cases ha
      simp only [System.step, hman, hrecv'] at he
      exact ((lower_manage hman hrecv' hsend he).resolve_left hw'.2).ne heq
    | sending job msg reply =>
      rw [hman] at ha
      cases a <;> cases ha
      simp only [System.step, hman, Except.ok.injEq] at he
      subst he
      exact (lower_push hman hsend).ne heq
    | waiting job reply =>
      have hmine := h.mine
      rw [hman] at ha hmine
      obtain ⟨⟨msg, mine⟩, rest, hq⟩ := List.exists_cons_of_ne_nil (l := s.recvQueue)
        (by rintro hq; rw [hq] at hmine; cases hmine)
      cases a <;> cases ha
      simp only [System.step, hq] at he
      exact (lower_handle hman hq hsend he).ne heq
    | woken job reply r =>
      rw [hman] at ha
      cases a <;> cases ha
      simp only [System.step, hman, Except.ok.injEq] at he
      subst he
      exact (lower_finish hman hsend).ne heq
    | stopped => exact hns hman
  · simp only [System.whose, List.isEmpty_iff, hsend, if_false] at ha
    obtain ⟨⟨res, origin⟩, rest, hsend'⟩ := List.exists_cons_of_ne_nil hsend
    cases a <;> cases ha
    simp only [System.step, htcp, hsend', Except.ok.injEq] at he
    obtain ⟨⟨fd', htcp'⟩, -⟩ := hw'
    subst he
    split at htcp' <;> cases htcp'

end

/-! ### Every request -/

end OeAware

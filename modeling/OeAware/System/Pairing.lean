import OeAware.System.Threads

/-! @src src/plugin_mgr/plugin_manager.cpp, message_manager.cpp |
    name:PluginManager::Run, PushEvent, GetEventResult | scheme:state-machine

    Requests and results are matched by the order of two queues alone. The TCP thread pushes one event
    and waits, so at most one event from outside is under way: it lies in `recvMessage`, is in the hands
    of the manager thread, or its result lies in `sendMessage`. Events of the server's own pass through
    the same queue and leave no result.

        tcp = none        nothing under way
        tcp = (fd, n)     recvMessage │ manager │ sendMessage holds n, the two others nothing -/

namespace OeAware
open Schemes

/-- An event that a client waits for. -/
def Job.external (job : Job) : Bool := job.event.type = .EXTERNAL

def Job.request (job : Job) : Option ℕ := job.origin.bind (·.request)

/-- The event that the manager thread is at. -/
def ManagerThread.job : ManagerThread → Option Job
  | .idle | .stopped => none
  | .sending job _ _ | .waiting job _ | .woken job _ _ => some job

def ManagerThread.isWaiting : ManagerThread → Bool
  | .waiting _ _ => true
  | _ => false

namespace System

/-- The requests whose event or result is under way. -/
def underWay (s : System) : List (Option ℕ) :=
  s.sendMessage.map (fun e => e.2.bind (·.request)) ++
    ((s.manager.job.toList ++ s.recvMessage).filter Job.external).map Job.request

/-- The request that the TCP thread waits for. -/
def awaited (s : System) : List (Option ℕ) := s.tcp.toList.map (fun e => some e.2)

end System

/-- What is under way is what is waited for; every request but that one has been answered once, with
    its own result; the manager waits for one message of its own. -/
structure Paired (s : System) : Prop where
  latest : ∀ fd n, s.tcp = some (fd, n) → s.requests = n + 1
  once : s.answered.map (·.1) = List.range (s.requests - s.tcp.toList.length)
  own : ∀ e ∈ s.answered, e.2.bind (·.request) = some e.1
  underWay : s.underWay = s.awaited ∨ (s.manager = .stopped ∧ s.underWay = [])
  mine : s.recvQueue.countP (·.2) = if s.manager.isWaiting then 1 else 0

theorem paired_init : Paired System.init where
  latest := nofun
  once := rfl
  own := nofun
  underWay := Or.inl rfl
  mine := rfl

/-! ### One step -/

section
variable {reg : Register} {s s' : System}

/-- Only the TCP thread and the manager thread have a hand in it. -/
theorem Paired.congr (h : Paired s) (htcp : s'.tcp = s.tcp) (hreq : s'.requests = s.requests)
    (hans : s'.answered = s.answered) (hway : s'.underWay = s.underWay)
    (hman : s'.manager = .stopped ↔ s.manager = .stopped)
    (hmine : s'.recvQueue.countP (·.2) = if s'.manager.isWaiting then 1 else 0) : Paired s' where
  latest := by rw [htcp, hreq]; exact h.latest
  once := by rw [htcp, hreq, hans]; exact h.once
  own := by rw [hans]; exact h.own
  underWay := by rw [hway, hman, System.awaited, htcp]; exact h.underWay
  mine := hmine

/-- An event of the server's own. -/
theorem underWay_internal {job : Job} (hj : job.external = false)
    (hsend : s'.sendMessage = s.sendMessage) (hman : s'.manager = s.manager)
    (hrecv : s'.recvMessage = s.recvMessage ++ [job]) : s'.underWay = s.underWay := by
  simp [System.underWay, hsend, hman, hrecv, hj]

/-- An answer takes its event's place. -/
theorem underWay_answer {job : Job} {res : EventResult} (hman : s.manager.job = none) :
    (s.answer job res).underWay =
      s.sendMessage.map (fun e => e.2.bind (·.request)) ++
        ((job :: s.recvMessage).filter Job.external).map Job.request := by
  rw [System.answer_eq]
  by_cases hj : job.event.type = .EXTERNAL <;>
    simp [System.underWay, hman, Job.external, Job.request, hj]

theorem Paired.closeConn (h : Paired s) (fd : ℕ) : Paired (s.closeConn fd) := by
  refine h.congr rfl rfl rfl ?_ Iff.rfl h.mine
  unfold System.closeConn
  dsimp only
  split
  · exact underWay_internal rfl rfl rfl rfl
  · rfl

theorem Paired.responded (h : Paired s) {fd n : ℕ} {res : EventResult} {origin : Option Origin}
    {rest : List (EventResult × Option Origin)} (htcp : s.tcp = some (fd, n))
    (hsend : s.sendMessage = (res, origin) :: rest) : Paired (s.responded fd n res origin rest) := by
  have hway : s.underWay = [some n] := by
    rcases h.underWay with hw | ⟨_, hw⟩
    · simpa [System.awaited, htcp] using hw
    · simp [System.underWay, hsend] at hw
  simp only [System.underWay, hsend, List.map_cons, List.cons_append, List.cons.injEq] at hway
  have hreq := h.latest fd n htcp
  refine ⟨nofun, ?_, ?_, Or.inl hway.2, h.mine⟩
  · have honce := h.once
    rw [htcp, hreq] at honce
    simp only [System.responded, List.map_append, honce, hreq]
    exact (List.range_succ ..).symm
  · intro e he
    rcases List.mem_append.mp he with he | he
    · exact h.own e he
    · rw [List.mem_singleton.mp he]
      exact hway.1

theorem Paired.requested (h : Paired s) {fd : ℕ} {msg : Message} (htcp : s.tcp = none) :
    Paired (s.requested fd msg) := by
  have hway : s.underWay = [] := by
    rcases h.underWay with hw | ⟨_, hw⟩
    · simpa [System.awaited, htcp] using hw
    · exact hw
  refine ⟨?_, ?_, h.own, Or.inl ?_, h.mine⟩
  · rintro _ _ ⟨⟩
    rfl
  · have honce := h.once
    rw [htcp] at honce
    exact honce
  · have hnew : (s.requested fd msg).underWay = s.underWay ++ [some s.requests] := by
      simp [System.underWay, System.requested, TcpMessageHandler.event, Job.external, Job.request]
    rw [hnew, hway]
    rfl

theorem Paired.manage (h : Paired s) {out : Outside} {job : Job} {rest : List Job}
    (hman : s.manager = .idle) (hrecv : s.recvMessage = job :: rest)
    (he : s.manage out job rest = .ok s') : Paired s' := by
  have hidle : s.recvQueue.countP (·.2) = 0 := by
    have := h.mine
    rwa [hman] at this
  have hway : s.underWay = s.sendMessage.map (fun e => e.2.bind (·.request)) ++
      ((job :: rest).filter Job.external).map Job.request := by
    simp [System.underWay, hman, hrecv, ManagerThread.job]
  have hne : ¬ s.manager = .stopped := by rw [hman]; nofun
  rcases System.manage_inv he with ⟨_, rfl⟩ | ⟨state, res, _, rfl⟩ | ⟨msg, reply, _, rfl⟩
  · refine ⟨h.latest, h.once, h.own, ?_, hidle⟩
    have hnow : s.underWay = s.awaited := h.underWay.resolve_right (fun hs => hne hs.1)
    by_cases hj : job.external = true
    · -- the manager stops, and nobody answers the event it has taken
      refine Or.inr ⟨rfl, ?_⟩
      have hlen := congrArg List.length (hway.symm.trans hnow)
      have hone : s.awaited.length ≤ 1 := by
        unfold System.awaited
        cases s.tcp <;> simp
      simp only [List.length_append, List.length_map, List.filter_cons, hj, if_true,
        List.length_cons] at hlen
      have hsend : s.sendMessage = [] := List.length_eq_zero_iff.mp (by omega)
      have hrest : rest.filter Job.external = [] := List.length_eq_zero_iff.mp (by omega)
      simp [System.underWay, ManagerThread.job, hsend, hrest]
    · refine Or.inl (Eq.trans ?_ (hway.symm.trans hnow))
      simp [System.underWay, ManagerThread.job, hj]
  · refine h.congr ?_ ?_ ?_ ?_ ?_ ?_
    · rw [System.answer_eq]
    · rw [System.answer_eq]
    · rw [System.answer_eq]
    · rw [underWay_answer (by simp [hman, ManagerThread.job]), hway]
    · rw [System.answer_eq]
    · rw [System.answer_eq]
      simpa [hman, ManagerThread.isWaiting] using hidle
  · refine h.congr rfl rfl rfl ?_ (iff_of_false nofun hne) hidle
    rw [hway]
    simp [System.underWay, ManagerThread.job]

theorem wake_job (mine : Bool) (r : Result) : (s.wake mine r).job = s.manager.job := by
  unfold System.wake
  split
  · rename_i hm
    rw [hm]
    rfl
  · rfl

theorem wake_stopped (mine : Bool) (r : Result) :
    s.wake mine r = .stopped ↔ s.manager = .stopped := by
  unfold System.wake
  split
  · rename_i hm
    rw [hm]
    exact iff_of_false nofun nofun
  · exact Iff.rfl

/-- The manager goes on when its own message has been handled, and no sooner. -/
theorem Paired.mine_wake (h : Paired s) {msg : RunMessage} {mine : Bool}
    {rest : List (RunMessage × Bool)} (hq : s.recvQueue = (msg, mine) :: rest) (r : Result) :
    rest.countP (·.2) = if (s.wake mine r).isWaiting then 1 else 0 := by
  have hm := h.mine
  rw [hq, List.countP_cons] at hm
  unfold System.wake
  cases mine with
  | false => simpa using hm
  | true =>
    cases hman : s.manager with
    | waiting job reply =>
      simp only [hman, ManagerThread.isWaiting, if_true] at hm ⊢
      simpa using hm
    | idle | sending | woken | stopped =>
      simp only [hman, ManagerThread.isWaiting] at hm
      simp at hm

theorem Paired.step {a : Act} (h : Paired s) (he : s.step reg a = .ok s') : Paired s' := by
  cases System.step_moved he with
  | stays => exact h
  | accept fd isSdk permitted added =>
    rw [System.accept_eq]
    exact h.congr rfl rfl rfl rfl Iff.rfl h.mine
  | request fd msg htcp => exact h.requested htcp
  | respond fd n res origin rest sent htcp hsend =>
    split
    · exact h.responded htcp hsend
    · exact (h.responded htcp hsend).closeConn fd
  | hangUp fd => exact h.closeConn fd
  | internal event =>
    refine h.congr rfl rfl rfl (underWay_internal ?_ rfl rfl rfl) Iff.rfl h.mine
    cases event <;> rfl
  | manage out job rest _ hman hrecv hm => exact h.manage hman hrecv hm
  | push job msg reply hman =>
    refine h.congr rfl rfl rfl ?_ ?_ ?_
    · simp [System.underWay, hman, ManagerThread.job]
    · exact iff_of_false nofun (by rw [hman]; nofun)
    · have := h.mine
      rw [hman] at this
      simpa [ManagerThread.isWaiting] using this
  | finish out job reply r hman =>
    refine h.congr ?_ ?_ ?_ ?_ ?_ ?_
    · rw [System.answer_eq]
    · rw [System.answer_eq]
    · rw [System.answer_eq]
    · rw [underWay_answer rfl]
      simp [System.underWay, hman, ManagerThread.job]
    · rw [System.answer_eq]
      exact iff_of_false nofun (by rw [hman]; nofun)
    · have := h.mine
      rw [hman] at this
      rw [System.answer_eq]
      exact this
  | plugin ptr call =>
    refine h.congr rfl rfl rfl rfl Iff.rfl ?_
    simpa using h.mine
  | handle ans junk msg mine rest _ hq hh =>
    obtain ⟨state, r, m, _, _, _, rfl⟩ := System.handle_inv hh
    refine h.congr rfl rfl rfl ?_ (wake_stopped mine r) (h.mine_wake hq r)
    simp only [System.underWay, wake_job]
  | tick => exact h.congr rfl rfl rfl rfl Iff.rfl h.mine
  | reorder => exact h.congr rfl rfl rfl rfl Iff.rfl h.mine
  | data event audience =>
    rw [System.sendData_eq]
    exact h.congr rfl rfl rfl rfl Iff.rfl h.mine

theorem paired_runs {ok : System → Act → Prop} (h : SystemRuns reg ok s) : Paired s :=
  Runs.invariant paired_init (fun _ _ _ hs _ he => hs.step he) h

end

end OeAware

import OeAware.Sdk.Client

/-! @src src/sdk/oe_client.cpp | name:Impl::HandleRequest, HandleRecv | scheme:state-machine

    Whose result a call takes. The queue hands its front to whoever waits, so a result is its own only
    if nothing else can be there: no other call waits, and of earlier calls nothing is left, neither a
    request with the server nor a result on the way or in the queue. A call that gives up leaves all
    that behind.

        publish ──▶ server                     -1 after 15 s
                        ╰──▶ resultQueue  [0]
        subscribe ──▶ server  takes [0], before the server has answered -/

namespace OeAware
open Schemes

namespace Client

/-- The calls of which a result may still come: it is queued, on its way, or asked for. -/
def outstanding (c : Client) : List (Option ℕ) :=
  c.resultQueue.map (·.2) ++ (c.stream.filter (fun e => isResult e.1.opt)).map (·.2) ++
    c.requests.map (fun e => some e.1)

/-- A request is sent while nobody waits and nothing is outstanding. -/
def Alone (c : Client) : ClientAct → Prop
  | .send _ _ => c.outstanding = [] ∧
      ∀ lock ∈ [Lock.subMutex, .unsubMutex, .pubMutex], ∀ call ∈ c.calls lock,
        call.progress ≠ .waiting
  | _ => True

instance (c : Client) : ∀ a, Decidable (c.Alone a)
  | .send _ _ => inferInstanceAs (Decidable (c.outstanding = [] ∧
      ∀ lock ∈ [Lock.subMutex, .unsubMutex, .pubMutex], ∀ call ∈ c.calls lock,
        call.progress ≠ .waiting))
  | .call _ | .pop _ | .timeout _ | .finish _ | .answer _ | .data _ | .recv _ _ _ => isTrue trivial

end Client

/-- The code that `ResultDeserialize` reads off a message, over some uninitialised one. -/
def Message.Says (msg : Message) (code : ℤ) : Prop :=
  ∃ junk bytes rest, msg.payload = bytes :: rest ∧ resultDeserialize junk bytes = some code

namespace Client

/-- The value of `HandleRequest` is `-1` after its own timeout or the code in the answer to its own
    request. -/
def Own (c : Client) (id : ℕ) (code : ℤ) : Source → Prop
  | .noStream => False
  | .timeout => code = -1
  | .reply of => of = some id ∧ ∃ msg, (id, msg) ∈ c.answers ∧ msg.Says code

/-- A call that is over has timed out itself and gave `-1`, or gave what its own request was answered
    with: the code, from `Subscribe` and `Unsubscribe` as `0` or `-1`. -/
def TrueTo (c : Client) (e : Return) : Prop :=
  (e.source = .timeout ∧ e.ret = -1) ∨
    ∃ msg, e.source = .reply (some e.id) ∧ (e.id, msg) ∈ c.answers ∧ msg.Says e.code ∧
      e.ret = e.request.value e.code

/-- What a call that waits can still take is its own, and what it has taken was. -/
def Served (c : Client) (call : Call) : Prop :=
  match call.progress with
  | .entered => True
  | .waiting => ∀ t ∈ c.outstanding, t = some call.id
  | .back code source => c.Own call.id code source

end Client

/-- Every result is with the call whose request it answers. -/
structure Matched (c : Client) : Prop where
  connected : c.socketStream = true
  served : ∀ lock, ∀ call ∈ c.calls lock, c.Served call
  streamed : ∀ msg id, (msg, some id) ∈ c.stream → (id, msg) ∈ c.answers
  queued : ∀ code id, (code, some id) ∈ c.resultQueue → ∃ msg, (id, msg) ∈ c.answers ∧ msg.Says code
  returned : ∀ e ∈ c.returned, c.Own e.id e.code e.source ∧ e.ret = e.request.value e.code

theorem matched_init : Matched Client.init where
  connected := rfl
  served := nofun
  streamed := nofun
  queued := nofun
  returned := nofun

/-! ### One step -/

section
variable {reg : Register} {c c' : Client}

theorem Client.Own.mono {id : ℕ} {code : ℤ} {source : Source} (h : c.Own id code source)
    (hans : c.answers ⊆ c'.answers) : c'.Own id code source := by
  cases source with
  | noStream => exact h
  | timeout => exact h
  | reply of =>
    obtain ⟨hof, msg, hm, hshown⟩ := h
    exact ⟨hof, msg, hans hm, hshown⟩

theorem Client.Served.mono {call : Call} (h : c.Served call) (hans : c.answers ⊆ c'.answers)
    (hout : c'.outstanding ⊆ c.outstanding) : c'.Served call := by
  unfold Client.Served at h ⊢
  split at h
  · trivial
  · exact fun t ht => h t (hout ht)
  · exact h.mono hans

/-- The call at one mutex changes. -/
theorem served_update {P : Call → Prop} {lock : Lock} {new : Option Call}
    (h : ∀ l, l ≠ lock → ∀ call ∈ c.calls l, P call) (hnew : ∀ call ∈ new, P call) :
    ∀ l, ∀ call ∈ Function.update c.calls lock new l, P call := by
  intro l call hc
  by_cases hl : l = lock
  · subst hl
    rw [Function.update_self] at hc
    exact hnew call hc
  · rw [Function.update_of_ne hl] at hc
    exact h l hl call hc

theorem Matched.enter (h : Matched c) (request : Request) : Matched (c.enter request) := by
  rw [Client.enter_eq]
  refine ⟨h.connected, served_update (fun l _ call hc => h.served l call hc) ?_, h.streamed, h.queued,
    h.returned⟩
  rintro _ ⟨⟩
  trivial

theorem Matched.send (h : Matched c) {lock : Lock} {call : Call} {sent : Bool}
    (hok : c.Alone (.send lock sent)) : Matched (c.sendRequest lock call sent) := by
  have hout : (c.sendRequest lock call sent).outstanding ⊆ [some call.id] := by
    have hnil := hok.1
    simp only [Client.outstanding, List.append_eq_nil_iff] at hnil
    cases sent <;> simp [Client.sendRequest, h.connected, Client.proceed, Client.outstanding, hnil]
  have hwait : ∀ l, ∀ call ∈ c.calls l, call.progress ≠ .waiting := by
    intro l
    cases l <;> exact hok.2 _ (by simp)
  have heq : c.sendRequest lock call sent =
      { c.proceed lock call .waiting with
        requests := (c.sendRequest lock call sent).requests } := by
    cases sent <;> simp [Client.sendRequest, h.connected]
  rw [heq] at hout ⊢
  refine ⟨h.connected, served_update (fun l _ call hc => ?_) ?_, h.streamed, h.queued, h.returned⟩
  · have hold := h.served l call hc
    unfold Client.Served at hold ⊢
    split at hold
    · trivial
    · rename_i hp
      exact absurd hp (hwait l call hc)
    · exact hold
  · rintro _ ⟨⟩ t ht
    exact List.mem_singleton.mp (hout ht)

theorem Matched.pop (h : Matched c) {lock : Lock} {call : Call} {code : ℤ} {of : Option ℕ}
    {rest : List (ℤ × Option ℕ)} (hc : c.calls lock = some call) (hp : call.progress = .waiting)
    (hq : c.resultQueue = (code, of) :: rest) :
    Matched (({ c with resultQueue := rest } : Client).proceed lock call (.back code (.reply of))) := by
  have hof : of = some call.id := by
    have hs := h.served lock call hc
    simp only [Client.Served, hp] at hs
    exact hs of (by simp [Client.outstanding, hq])
  refine ⟨h.connected, served_update (fun l _ call hc => (h.served l call hc).mono ?_ ?_) ?_,
    h.streamed, fun code id hm => h.queued code id ?_, h.returned⟩
  · exact List.Subset.refl _
  · intro t ht
    simp only [Client.outstanding, Client.proceed, List.mem_append] at ht ⊢
    rw [hq, List.map_cons, List.mem_cons]
    tauto
  · rintro _ ⟨⟩
    exact ⟨hof, h.queued code call.id (by rw [hq, hof]; exact List.mem_cons_self ..)⟩
  · rw [hq]
    exact List.mem_cons_of_mem _ hm

theorem Matched.timeout (h : Matched c) (lock : Lock) (call : Call) :
    Matched (c.proceed lock call (.back (-1) .timeout)) := by
  refine ⟨h.connected, served_update (fun l _ call hc => h.served l call hc) ?_, h.streamed, h.queued,
    h.returned⟩
  rintro _ ⟨⟩
  rfl

theorem Matched.leave (h : Matched c) {lock : Lock} {call : Call} {code : ℤ} {source : Source}
    (hc : c.calls lock = some call) (hp : call.progress = .back code source)
    (he : c.leave lock call code source = .ok c') : Matched c' := by
  have hown : c.Own call.id code source := by
    have hs := h.served lock call hc
    simpa only [Client.Served, hp] using hs
  rw [Client.leave_eq he]
  refine ⟨h.connected, served_update (fun l _ call hc => h.served l call hc) nofun, h.streamed,
    h.queued, fun e hm => ?_⟩
  rcases List.mem_append.mp hm with hm | hm
  · exact h.returned e hm
  · rw [List.mem_singleton.mp hm]
    exact ⟨hown, rfl⟩

theorem Matched.answer (h : Matched c) {msg request : Message} {id : ℕ} {rest : List (ℕ × Message)}
    (hr : c.requests = (id, request) :: rest) :
    Matched { c with
      requests := rest
      stream := c.stream ++ [(msg, some id)]
      answers := c.answers ++ [(id, msg)] } := by
  have hans : c.answers ⊆ c.answers ++ [(id, msg)] := List.subset_append_left ..
  refine ⟨h.connected, fun l call hc => (h.served l call hc).mono hans ?_, fun m n hm => ?_,
    fun code n hm => ?_, fun e hm => ?_⟩
  · intro t ht
    simp only [Client.outstanding, List.filter_append, List.map_append, List.mem_append, hr,
      List.map_cons, List.mem_cons] at ht ⊢
    rcases ht with (ht | ht | ht) | ht
    · exact Or.inl (Or.inl ht)
    · exact Or.inl (Or.inr ht)
    · refine Or.inr (Or.inl ?_)
      simp only [List.filter_cons, List.filter_nil] at ht
      split at ht
      · simpa using ht
      · cases ht
    · exact Or.inr (Or.inr ht)
  · rcases List.mem_append.mp hm with hm | hm
    · exact hans (h.streamed m n hm)
    · cases List.mem_singleton.mp hm
      exact List.mem_append_right _ (List.mem_singleton_self _)
  · obtain ⟨m, hm, hshown⟩ := h.queued code n hm
    exact ⟨m, hans hm, hshown⟩
  · exact ⟨(h.returned e hm).1.mono hans, (h.returned e hm).2⟩

theorem Matched.data (h : Matched c) (payload : List Str) :
    Matched { c with stream := c.stream ++ [(⟨Opt.DATA.toInt, payload⟩, none)] } := by
  refine ⟨h.connected, fun l call hc => (h.served l call hc).mono (List.Subset.refl _) ?_,
    fun m n hm => ?_, h.queued, h.returned⟩
  · simp [Client.outstanding, show Client.isResult Opt.DATA.toInt = false from rfl]
  · simp at hm
    exact h.streamed m n hm

theorem Matched.recv (h : Matched c) {msg : Message} {of : Option ℕ}
    {rest : List (Message × Option ℕ)} {code : UInt32} {size : ℕ} {failed : Bool}
    (hs : c.stream = (msg, of) :: rest)
    (he : c.handleRecv reg msg of rest code size failed = .ok c') : Matched c' := by
  have hrest : ∀ m n, (m, some n) ∈ rest → (n, m) ∈ c.answers := by
    intro m n hm
    refine h.streamed m n ?_
    rw [hs]
    exact List.mem_cons_of_mem _ hm
  rcases Client.handleRecv_inv he with ⟨bytes, l, n, hres, hp, hn, rfl⟩ | ⟨hres, heq⟩
  · refine ⟨h.connected, fun l call hc => (h.served l call hc).mono (List.Subset.refl _) ?_, hrest,
      fun code id hm => ?_, h.returned⟩
    · intro t ht
      simp only [Client.outstanding, List.map_append, List.mem_append, hs, List.filter_cons, hres,
        if_true, List.map_cons, List.map_nil, List.mem_cons, List.not_mem_nil] at ht ⊢
      tauto
    · rcases List.mem_append.mp hm with hm | hm
      · exact h.queued code id hm
      · cases List.mem_singleton.mp hm
        exact ⟨msg, h.streamed msg id (by rw [hs]; exact List.mem_cons_self ..), _, bytes, l, hp, hn⟩
  · rw [heq]
    refine ⟨h.connected, fun l call hc => (h.served l call hc).mono (List.Subset.refl _) ?_, hrest,
      h.queued, h.returned⟩
    intro t ht
    simpa [Client.outstanding, hs, hres] using ht

theorem Matched.step {a : ClientAct} (h : Matched c) (hok : c.Alone a)
    (he : c.step reg a = .ok c') : Matched c' := by
  cases Client.step_moved he with
  | stays => exact h
  | call request => exact h.enter request
  | send lock call sent => exact h.send hok
  | pop lock call code of rest hc hp hq => exact h.pop hc hp hq
  | timeout lock call => exact h.timeout lock call
  | finish lock call code source _ hc hp hl => exact h.leave hc hp hl
  | answer msg id request rest hr => exact h.answer hr
  | data payload => exact h.data payload
  | recv msg of rest code size failed _ hs hr => exact h.recv hs hr

theorem matched_runs (h : ClientRuns reg Client.Alone c) : Matched c :=
  Runs.invariant matched_init (fun _ _ _ hm hok hs => hm.step hok hs) h

/-- ITS OWN REPLY: in every run in which a request is sent only while nobody waits and nothing is
    outstanding, every call that has returned is true to its own reply or timeout, and no call has
    taken the result of another's request. -/
theorem calls_own_reply (h : ClientRuns reg Client.Alone c) :
    (∀ e ∈ c.returned, c.TrueTo e) ∧
      ∀ lock, ∀ call ∈ c.calls lock, ∀ code of, call.progress = .back code (.reply of) →
        of = some call.id := by
  have hm := matched_runs h
  refine ⟨fun e he => ?_, fun lock call hc code of hp => ?_⟩
  · obtain ⟨hown, hret⟩ := hm.returned e he
    unfold Client.TrueTo
    cases hs : e.source with
    | noStream => rw [hs] at hown; cases hown
    | timeout =>
      rw [hs] at hown
      refine Or.inl ⟨rfl, ?_⟩
      rw [hret, show e.code = -1 from hown]
      cases e.request <;> rfl
    | reply of =>
      rw [hs] at hown
      obtain ⟨rfl, msg, ha, hshown⟩ := hown
      exact Or.inr ⟨msg, rfl, ha, hshown, hret⟩
  · have hs := hm.served lock call hc
    simp only [Client.Served, hp] at hs
    exact hs.1

end

/-- The server's answer with a code and no text. -/
def answerWith (opt : Opt) (code : ℤ) : Message :=
  ⟨opt.toInt, [serInt (UInt32.ofInt code) ++ serStr []]⟩

/-- A topic for concrete runs. -/
def sdkTopic : Topic := ⟨str "i", str "t", []⟩

/-- Data comes in while a subscription waits, and a publication waits its turn. -/
theorem calls_own_reply_subscribe : ∃ c, ClientRuns (fun _ => none) Client.Alone c ∧
    c.returned.map (·.ret) = [0] ∧ c.handled = [(5, ⟨sdkTopic, []⟩)] ∧
    ∀ e ∈ c.returned, c.TrueTo e := by
  have h : ClientRuns (fun _ => none) Client.Alone _ := Runs.of_runAll Client.Alone
    [.call (.subscribe sdkTopic 5), .send .subMutex true, .call (.publish ⟨sdkTopic, []⟩),
      .data [DataList.serialize ⟨sdkTopic, []⟩], .answer (answerWith .SUBSCRIBE 0), .recv 0 0 false,
      .recv 0 0 false, .pop .subMutex, .finish .subMutex, .send .pubMutex true]
    .start rfl
  exact ⟨_, h, rfl, rfl, (calls_own_reply h).1⟩

/-- A publication times out and its answer comes late: the subscription that follows takes it for its
    own and succeeds, which the server then turns down. -/
theorem calls_other_reply : ∃ c, ClientRuns (fun _ => none) (fun _ _ => True) c ∧
    c.answers = [(0, answerWith .PUBLISH 0), (1, answerWith .SUBSCRIBE (-1))] ∧
    ∃ e ∈ c.returned, e.id = 1 ∧ e.source = .reply (some 0) ∧ e.ret = 0 ∧ ¬ c.TrueTo e := by
  have h : ClientRuns (fun _ => none) (fun _ _ => True) _ := Runs.of_runAll (fun _ _ => True)
    [.call (.publish ⟨sdkTopic, []⟩), .send .pubMutex true, .timeout .pubMutex, .finish .pubMutex,
      .call (.subscribe sdkTopic 5), .send .subMutex true, .answer (answerWith .PUBLISH 0),
      .recv 0 0 false, .pop .subMutex, .finish .subMutex, .answer (answerWith .SUBSCRIBE (-1))]
    .start rfl
  refine ⟨_, h, rfl, _, List.mem_of_getElem? (i := 1) rfl, rfl, rfl, rfl, ?_⟩
  rintro (⟨hs, _⟩ | ⟨msg, hs, _⟩)
  · cases hs
  · cases hs

end OeAware

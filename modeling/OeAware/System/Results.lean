import OeAware.Manager.Opening
import OeAware.System.Threads

/-! @src src/plugin_mgr/event/subscribe_handler.cpp, unsubscribe_handler.cpp, publish_handler.cpp,
    instance_run_handler.cpp | name:Result | scheme:state-machine

    What the reply to a `SUBSCRIBE`, `UNSUBSCRIBE` or `PUBLISH` says about its request. The handler
    looks at the store when it takes the event, the scheduler handles the message some time later, and
    the `Result` that is encoded in the reply is the handler's own or the one the scheduler leaves.

        s₀: handler ──rejected──▶ Result
              ╰──message──▶ s: scheduler ──▶ after, msg->result ──▶ Result -/

namespace OeAware
open Schemes

/-- The plugins' own results have a code. -/
def Answers.Assigned (ans : Answers) : Prop :=
  ans.enable.code.isSome = true ∧ ans.openTopic.code.isSome = true

/-- How a request that the handler takes in state `s₀` comes to the `Result` in its reply: the handler
    rejects it, or the scheduler handles its message in state `s` and leaves `after`. -/
inductive Served (reg : Register) (out : Outside) (junk : ℕ) (s₀ s : State) (event : Event)
    (ans : Answers) : InstanceRunMessage → Option State → Result → Prop
  | rejected {topic : Topic} {bytes name : Str} {rest : InStream} {r : Result} :
      event.opt = Opt.SUBSCRIBE.toInt → event.payload = [bytes, name] →
      Topic.deserialize ⟨bytes, true⟩ = some (topic, rest) → s₀.subscribeRejects topic = some r →
      Served reg out junk s₀ s event ans (.SUBSCRIBE topic name) none r
  | handled {msg : RunMessage} {opt : Opt} {m : InstanceRunMessage} {after : State} {r : Result} :
      s₀.dispatch out event = some (.send msg (.encoded opt)) → msg.decoded reg junk = some m →
      s.handleQueued reg msg ans junk = .ok (after, r) →
      Served reg out junk s₀ s event ans m (some after) r

/-- What a request is for, between the state that the scheduler handles it in and the one it leaves. -/
def TookEffect (s after : State) : InstanceRunMessage → Prop
  | .SUBSCRIBE topic x =>
    ∃ p, after.getInstance (getTopicFromType topic.getType).instanceName = some p ∧
      after.enabled p = true ∧ after.flag (getTopicFromType topic.getType) = true ∧
      x ∈ after.subs topic.getType
  | .UNSUBSCRIBE topic x => x ∉ after.subs topic.getType
  | .PUBLISH d =>
    ∃ p, s.getInstance d.topic.instanceName = some p ∧ s.unsupported p d.topic = false ∧
      (∃ new, after.calls = new ++ s.calls ∧ ⟨s.time, p, .updateData d⟩ ∈ new) ∧
      after.enabled p = true ∧ (d.topic.topicName ≠ [] → after.openAt p d.topic = true)
  | _ => False

/-- The code has been assigned, and it is non-negative exactly when the request took effect; a
    request that never reaches the scheduler takes none. -/
def Truthful (s : State) (after : Option State) (m : InstanceRunMessage) (r : Result) : Prop :=
  ∃ code, r.code = some code ∧ (0 ≤ code ↔ ∃ s' ∈ after, TookEffect s s' m)

/-- A subscription that gets past its handler finds the instance disabled or the topic not open; an
    unsubscription never does. -/
def GetsResult (s₀ s : State) : InstanceRunMessage → Prop
  | .SUBSCRIBE topic _ => s₀.subscribeRejects topic = none →
      ∀ p, s.getInstance (getTopicFromType topic.getType).instanceName = some p →
        s.enabled p = true → s.flag (getTopicFromType topic.getType) = false
  | .UNSUBSCRIBE _ _ => False
  | _ => True

/-! ### Requests and their messages -/

/-- Every way in which one of the three handlers can end; what is encoded is a `Served` result. -/
theorem dispatch_served {s₀ : State} {out : Outside} {event : Event} {h : Handling} {o : Opt}
    (ho : o = .SUBSCRIBE ∨ o = .UNSUBSCRIBE ∨ o = .PUBLISH) (hopt : event.opt = o.toInt)
    (hd : s₀.dispatch out event = some h) :
    h = .throws ∨ (∃ text, h = .reply s₀ ⟨Opt.RESPONSE_ERROR.toInt, [text]⟩) ∨
    (∃ x, h = .send (.run (.UNSUBSCRIBE_SDK x)) .blank) ∨ (∃ msg, h = .send msg (.encoded o)) ∨
    ∃ r, h = .reply s₀ ⟨o.toInt, [r.encode out.code]⟩ ∧
      ∀ reg junk s ans, ∃ m, Served reg out junk s₀ s event ans m none r := by
  rw [State.dispatch, hopt, ofInt_toInt] at hd
  rcases ho with rfl | rfl | rfl
  · simp only [Option.bind_some, State.eventHandler, Option.some.injEq] at hd
    unfold State.subscribeHandler at hd
    split at hd
    · rename_i bytes name hp
      split at hd
      · exact Or.inl hd.symm
      · rename_i topic rest ht
        split at hd
        · rename_i r hr
          exact Or.inr (Or.inr (Or.inr (Or.inr ⟨r, hd.symm,
            fun _ _ _ _ => ⟨_, .rejected hopt hp ht hr⟩⟩)))
        · exact Or.inr (Or.inr (Or.inr (Or.inl ⟨_, hd.symm⟩)))
    · exact Or.inr (Or.inl ⟨_, hd.symm⟩)
  · simp only [Option.bind_some, State.eventHandler, Option.some.injEq] at hd
    unfold State.unsubscribeHandler at hd
    split at hd
    · exact Or.inr (Or.inr (Or.inl ⟨_, hd.symm⟩))
    · split at hd
      · exact Or.inl hd.symm
      · exact Or.inr (Or.inr (Or.inr (Or.inl ⟨_, hd.symm⟩)))
    · exact Or.inr (Or.inl ⟨_, hd.symm⟩)
  · simp only [Option.bind_some, State.eventHandler, Option.some.injEq] at hd
    exact Or.inr (Or.inr (Or.inr (Or.inl ⟨_, hd.symm⟩)))

/-! ### Subscribing -/

/-- What `Subscribe` returns for an instance that exists. -/
theorem subscribe_result {s : State} (hs : StoreOk s) {type x : Str} {ans : Answers} {p : InstancePtr}
    (hp : s.getInstance (getTopicFromType type).instanceName = some p) :
    (s.subscribe type x ans).2 =
      if s.enabled p then (if s.flag (getTopicFromType type) then .unset else ans.openTopic)
      else if ans.enable.failed then ans.enable
      else if s.flag (getTopicFromType type) then ans.enable else ans.openTopic := by
  have hto : ∀ (s1 : State) (r : Result), s1.topicState = s.topicState →
      (s1.subscribeTo p type x ans r).2 =
        if s.flag (getTopicFromType type) then r else ans.openTopic := by
    intro s1 r h1
    have hf : (s1.touch (getTopicFromType type)).flag (getTopicFromType type) =
        s.flag (getTopicFromType type) := by
      rw [State.flag_touch, State.flag, h1]; rfl
    unfold State.subscribeTo
    simp only [hf]
    split
    · rfl
    · split <;> rfl
  unfold State.subscribe
  simp only [hp]
  split
  · exact hto s .unset rfl
  · rw [hs.named _ _ hp, enableInstance_eq hp]
    by_cases he : ans.enable.failed = true
    · simp [he]
    · rw [if_neg he, if_neg he, if_neg he]
      exact hto _ ans.enable rfl

theorem mem_subs_subscribed (s : State) (p : InstancePtr) (t : Topic) (type x : Str) :
    x ∈ (s.subscribed p t type x).subs type := by
  rw [State.subscribed_eq]
  exact (s.mem_subs_addSub type x type x).mpr (Or.inl ⟨rfl, rfl⟩)

theorem enabled_subscribed (s : State) (p q : InstancePtr) (t : Topic) (type x : Str) :
    (s.subscribed p t type x).enabled q = s.enabled q := by rw [State.subscribed_eq]; rfl

theorem flag_subscribed (s : State) (p : InstancePtr) (t u : Topic) (type x : Str) :
    (s.subscribed p t type x).flag u = s.flag u := by rw [State.subscribed_eq]; rfl

/-- A subscription takes effect when its instance is enabled or starts and its topic is open or
    opens. -/
theorem SubscribeOutcome.tookEffect {s : State} {topic : Topic} {x : Str} {ans : Answers}
    {res : State × Result} (h : SubscribeOutcome s topic.getType x ans res) :
    TookEffect s res.1 (.SUBSCRIBE topic x) ↔
      ∃ p, s.getInstance (getTopicFromType topic.getType).instanceName = some p ∧
        s.starts p ans = true ∧ (s.flag (getTopicFromType topic.getType) = true ∨ ans.openTopic.failed = false) := by
  rw [TookEffect, h.frame.getInstance]
  cases h with
  | missing text hn => simp [hn]
  | notEnabled p hp he hen =>
    have he' : (s.call p (.enable (getTopicFromType topic.getType).params ans.enable)).enabled p =
      false := he
    simp [hp, State.starts, he, hen, he']
  | known p s1 r hp h1 hf hr =>
    refine iff_of_true ⟨p, hp, ?_, ?_, mem_subs_subscribed ..⟩ ⟨p, hp, h1.starts, Or.inl hf⟩
    · rw [enabled_subscribed]; exact h1.enabled_self
    · rw [flag_subscribed, State.flag_touch, State.flag, h1.same.topicState]; exact hf
  | refused p s1 hp h1 hf ho =>
    simp [hp, hf, ho, State.enabled_closeInstance]
  | opened p s1 hp h1 hf ho =>
    refine iff_of_true ⟨p, hp, ?_, ?_, mem_subs_subscribed ..⟩ ⟨p, hp, h1.starts, Or.inr ho⟩
    · rw [enabled_subscribed]
      exact (State.enabled_openTopic ..).trans h1.enabled_self
    · rw [flag_subscribed, State.flag_setFlag, if_pos rfl]

/-- A code is assigned and says whether something came about. -/
theorem truthful_code {r : Result} (hr : r.code.isSome = true) {P : Prop} (hP : P ↔ r.failed = false) :
    ∃ code, r.code = some code ∧ (0 ≤ code ↔ P) := by
  obtain ⟨code, hc⟩ := Option.isSome_iff_exists.mp hr
  refine ⟨code, hc, ?_⟩
  rw [hP, Result.failed, hc]
  simp

/-- `Subscribe` leaves a truthful result, unless it has nothing to enable and nothing to open. -/
theorem subscribe_truthful_iff {s : State} (hs : StoreOk s) {ans : Answers} (ha : ans.Assigned)
    (topic : Topic) (x : Str) :
    Truthful s (some (s.subscribe topic.getType x ans).1) (.SUBSCRIBE topic x)
        (s.subscribe topic.getType x ans).2 ↔
      ∀ p, s.getInstance (getTopicFromType topic.getType).instanceName = some p →
        s.enabled p = true → s.flag (getTopicFromType topic.getType) = false := by
  have ho := subscribe_outcome hs topic.getType x ans
  have he := ho.tookEffect
  simp only [Truthful, Option.mem_some_iff, exists_eq_left', he]
  cases hp : s.getInstance (getTopicFromType topic.getType).instanceName with
  | none =>
    have hr : (s.subscribe topic.getType x ans).2.code = some FAILED := by
      unfold State.subscribe; simp only [hp]
    simp [hr, FAILED]
  | some p =>
    rw [subscribe_result hs hp]
    simp only [Option.some.injEq, exists_eq_left', forall_eq']
    by_cases hen : s.enabled p = true
    · by_cases hf : s.flag (getTopicFromType topic.getType) = true
      · simp [hen, hf, Result.unset]
      · simp only [hen, hf, if_true]
        exact iff_of_true (truthful_code ha.2 (by simp [State.starts, hen])) (by simp)
    · simp only [hen]
      refine iff_of_true ?_ (by simp)
      by_cases hf : ans.enable.failed = true
      · simp only [hf, if_true]
        exact truthful_code ha.1 (by simp [State.starts, hen, hf])
      · by_cases hfl : s.flag (getTopicFromType topic.getType) = true
        · simp only [hf, hfl, if_true]
          exact truthful_code ha.1 (by simp [State.starts, hen, hf])
        · simp only [hf, hfl]
          exact truthful_code ha.2 (by simp [State.starts, hf])

/-! ### Publishing -/

theorem Started.calls {s s1 : State} {p : InstancePtr} {params : Str} {ret : Result}
    (h : Started s p params ret s1) : ∃ new, s1.calls = new ++ s.calls := by
  cases h with
  | already => exact ⟨[], rfl⟩
  | now => exact ⟨[_], rfl⟩

/-- The part of `Publish` behind the instance's start returns what became of the topic. -/
theorem publishTo_truthful {s s1 : State} {p : InstancePtr} {d : DataList} {ans : Answers}
    (ha : ans.Assigned) (hp : s.getInstance d.topic.instanceName = some p)
    (hu : s.unsupported p d.topic = false)
    (h1 : Started (s.call p (.updateData d)) p [] ans.enable s1) :
    Truthful s (some (s1.publishTo p d.topic ans).1) (.PUBLISH d) (s1.publishTo p d.topic ans).2 := by
  obtain ⟨new, hnew⟩ := h1.calls
  have hcalls : ∀ l, ∃ new', l ++ s1.calls = new' ++ s.calls ∧
      (⟨s.time, p, .updateData d⟩ : CallRecord) ∈ new' := by
    intro l
    refine ⟨l ++ new ++ [⟨s.time, p, .updateData d⟩], ?_, by simp⟩
    rw [hnew]
    simp [State.call]
  simp only [Truthful, Option.mem_some_iff, exists_eq_left', TookEffect, hp, Option.some.injEq, hu,
    true_and]
  unfold State.publishTo
  by_cases ht : d.topic.topicName = []
  · refine ⟨OK, by simp [ht], iff_of_true le_rfl ⟨?_, ?_, fun hne => absurd ht hne⟩⟩
    · simpa [ht] using hcalls []
    · simpa [ht] using h1.enabled_self
  · rw [if_pos ht]
    dsimp only
    have ho := State.openAt_openTopic s1 p p d.topic d.topic ans.openTopic
    have hen := (State.enabled_openTopic s1 p p d.topic ans.openTopic).trans h1.enabled_self
    have hc : (s1.openTopic p d.topic ans.openTopic).calls =
        [⟨s1.time, p, .openTopic d.topic ans.openTopic⟩] ++ s1.calls := by
      rw [State.openTopic_eq]; rfl
    by_cases hf : ans.openTopic.failed = true
    · rw [if_pos hf]
      refine truthful_code ha.2 ?_
      simp [ht, ho, hf]
    · rw [if_neg hf]
      refine ⟨OK, rfl, iff_of_true le_rfl ⟨?_, hen, fun _ => ?_⟩⟩
      · rw [hc]; exact hcalls _
      · simp [ho, hf]

/-- `Publish` always leaves a truthful result. -/
theorem publish_truthful {s : State} {ans : Answers} (ha : ans.Assigned) (d : DataList) :
    Truthful s (some (s.publish d ans).1) (.PUBLISH d) (s.publish d ans).2 := by
  unfold State.publish
  dsimp only
  cases hp : s.getInstance d.topic.instanceName with
  | none => exact ⟨FAILED, rfl, by simp [FAILED, TookEffect, hp]⟩
  | some p =>
    dsimp only
    split
    · rename_i hu
      exact ⟨FAILED, rfl, by simp [FAILED, TookEffect, hp, hu]⟩
    · rename_i hu
      have hu' := Bool.eq_false_iff.mpr hu
      have hp' : (s.call p (.updateData d)).getInstance d.topic.instanceName = some p := hp
      split
      · rename_i he
        exact publishTo_truthful ha hp hu' (.already he)
      · rename_i he
        have he' := Bool.eq_false_iff.mpr he
        rw [enableInstance_eq hp']
        by_cases hen : ans.enable.failed = true
        · rw [if_pos hen, if_pos hen]
          refine truthful_code ha.1 ?_
          have hoff : ((s.call p (.updateData d)).call p (.enable [] ans.enable)).enabled p = false :=
            he'
          simp [TookEffect, hp, hen, hoff]
        · rw [if_neg hen, if_neg hen]
          exact publishTo_truthful ha hp hu' (.now he' (Bool.eq_false_iff.mpr hen))

/-! ### Every request -/

/-- THE REPLY'S CODE: in every reachable state the code in the reply to a `SUBSCRIBE`, `UNSUBSCRIBE`
    or `PUBLISH` is assigned and non-negative exactly when the request took effect, if and only if the
    request is no unsubscription and no further subscription to a topic that is open. -/
theorem result_truthful_iff {reg : Register} {out : Outside} {junk : ℕ} {s₀ s : State} {event : Event}
    {ans : Answers} {m : InstanceRunMessage} {after : Option State} {r : Result} (h : Reach s)
    (ha : ans.Assigned) (hs : Served reg out junk s₀ s event ans m after r) :
    Truthful s after m r ↔ GetsResult s₀ s m := by
  cases hs with
  | rejected _ _ _ hr =>
    refine iff_of_true ⟨FAILED, ?_, by simp [FAILED]⟩ (fun hn => by rw [hn] at hr; cases hr)
    unfold State.subscribeRejects at hr
    repeat' split at hr
    all_goals cases hr
    all_goals rfl
  | @handled msg opt m after r hd hm hq =>
    obtain ⟨m', hm', he⟩ := handleQueued_ok hq
    cases hm.symm.trans hm'
    obtain ⟨o, _, hsend⟩ := dispatch_sends hd
    generalize event.payload = payload at hsend
    cases hsend with
    | subscribe bytes x topic rest _ hr =>
      cases hm
      have := subscribe_truthful_iff (storeOk_runs h) ha topic x
      simp only [State.handle, Except.ok.injEq] at he
      rw [he] at this
      rw [this, GetsResult]
      exact ⟨fun hh _ => hh, fun hh => hh hr⟩
    | unsubscribe bytes x topic =>
      cases hm
      obtain ⟨s1, _, h1⟩ := map_ok he
      cases h1
      exact iff_of_false (by rintro ⟨code, hc, -⟩; cases hc) id
    | publish =>
      obtain ⟨d, rfl⟩ : ∃ d, m = .PUBLISH d := by
        cases payload with
        | nil => cases hm
        | cons bytes rest =>
          simp only [RunMessage.decoded] at hm
          split at hm <;> cases hm
          exact ⟨_, rfl⟩
      simp only [State.handle, Except.ok.injEq] at he
      have := publish_truthful (s := s) ha d
      rw [he] at this
      exact iff_of_true this trivial

/-- An SDK client's subscription to the topic of `i`, as the manager thread takes it. -/
def subscribing (fd : String) : Event :=
  ⟨Opt.SUBSCRIBE.toInt, .EXTERNAL, [serStr (str "i") ++ serStr (str "t") ++ serStr [], str fd]⟩

theorem served_subscribing {s : State} {fd : String} {ans : Answers}
    (hr : s.subscribeRejects (sampleTopic "i") = none) :
    Served noCodecs sampleOut 0 s s (subscribing fd) ans (.SUBSCRIBE (sampleTopic "i") (str fd))
      (some (s.subscribe (sampleTopic "i").getType (str fd) ans).1)
      (s.subscribe (sampleTopic "i").getType (str fd) ans).2 := by
  have hd : Topic.deserialize ⟨serStr (str "i") ++ serStr (str "t") ++ serStr [], true⟩ =
    some (sampleTopic "i", ⟨[], true⟩) := by decide
  have hh : s.dispatch sampleOut (subscribing fd) =
      some (.send (.run (.SUBSCRIBE (sampleTopic "i") (str fd))) (.encoded .SUBSCRIBE)) := by
    simp only [State.dispatch, subscribing, ofInt_toInt, Option.bind_some, State.eventHandler,
      State.subscribeHandler, hd, hr]
  exact .handled hh rfl rfl

/-- The first subscriber of a topic gets the plugin's code. -/
theorem result_truthful_iff_first : ∃ s after r, Reach s ∧
    Served noCodecs sampleOut 0 s s (subscribing "7") accepting
      (.SUBSCRIBE (sampleTopic "i") (str "7")) (some after) r ∧ r.code = some OK ∧
    Truthful s (some after) (.SUBSCRIBE (sampleTopic "i") (str "7")) r := by
  have h : Reach _ := Runs.of_runAll (fun _ _ => True) [sampleLoad] .start rfl
  refine ⟨_, _, _, h, served_subscribing rfl, rfl,
    (result_truthful_iff h ⟨rfl, rfl⟩ (served_subscribing rfl)).mpr (fun _ _ _ _ => rfl)⟩

/-- The second subscriber gets a code that nothing has assigned: the reply is what lay in memory. -/
theorem result_not_truthful : ∃ s after r, Reach s ∧
    Served noCodecs sampleOut 0 s s (subscribing "8") accepting
      (.SUBSCRIBE (sampleTopic "i") (str "8")) (some after) r ∧
    TookEffect s after (.SUBSCRIBE (sampleTopic "i") (str "8")) ∧ r.code = none ∧
    ¬ Truthful s (some after) (.SUBSCRIBE (sampleTopic "i") (str "8")) r ∧
    (Reply.encoded .SUBSCRIBE).finish sampleOut r ≠
      (Reply.encoded .SUBSCRIBE).finish { sampleOut with code := UInt32.ofInt FAILED } r := by
  have h : Reach _ := Runs.of_runAll (fun _ _ => True)
    [sampleLoad, .message (.SUBSCRIBE (sampleTopic "i") (str "7")) accepting] .start rfl
  refine ⟨_, _, _, h, served_subscribing rfl, ⟨0, by decide⟩, rfl, ?_, by decide⟩
  rintro ⟨code, hc, -⟩
  cases hc

end OeAware

import OeAware.Manager.Machine
import OeAware.Schemes.TimedQueue

/-! @src src/plugin_mgr/instance_run_handler.cpp | name:the schedule and the topics, step by step |
    scheme:state-machine

    Two views of a step. To the schedule a message is quiet, or it makes `EnableInstance` succeed on
    one instance and so pushes one entry. To the topics a step changes nothing, is a `Subscribe` that
    got as far as `topicState`, or is one of the two kinds of unsubscription. -/

namespace OeAware
open Schemes

/-! ### The schedule -/

/-- Nothing is queued or run, and nobody is enabled who was not. -/
structure Quiet (s s' : State) : Prop where
  scheduleQueue : s'.scheduleQueue = s.scheduleQueue
  time : s'.time = s.time
  runs : ∀ q, s'.runs q = s.runs q
  enabled : ∀ q, s'.enabled q = true → s.enabled q = true

/-- The entry with which `EnableInstance` queues `p`. -/
def State.firstEntry (s : State) (p : InstancePtr) : ScheduleInstance :=
  ⟨p, s.time + State.firstDelay (s.heap p).interface⟩

/-- `p` has been enabled and queued, and nobody else. -/
structure NowEnabled (s s' : State) (p : InstancePtr) : Prop where
  scheduleQueue : Pushed (·.time) (s.firstEntry p) s.scheduleQueue s'.scheduleQueue
  time : s'.time = s.time
  runs : ∀ q, s'.runs q = s.runs q
  enabled : ∀ q, s'.enabled q = true → s.enabled q = true ∨ q = p

/-- The instance on which the message makes `EnableInstance` succeed. -/
def State.enables (s : State) (ans : Answers) : InstanceRunMessage → Option InstancePtr
  | .ENABLED name _ => if ans.enable.failed then none else s.getInstance name
  | .SUBSCRIBE topic _ =>
    (s.getInstance (getTopicFromType topic.getType).instanceName).filter
      (fun p => !s.enabled p && !ans.enable.failed)
  | .PUBLISH d =>
    (s.getInstance d.topic.instanceName).filter
      (fun p => !s.unsupported p d.topic && !s.enabled p && !ans.enable.failed)
  | _ => none

theorem enables_exists_name {s : State} {ans : Answers} {p : InstancePtr} {m : InstanceRunMessage}
    (h : s.enables ans m = some p) : ∃ n, s.getInstance n = some p := by
  cases m with
  | ENABLED name _ =>
    simp only [State.enables] at h
    split at h
    · cases h
    · exact ⟨name, h⟩
  | SUBSCRIBE topic _ => exact ⟨_, (Option.filter_eq_some_iff.mp h).1⟩
  | PUBLISH d => exact ⟨_, (Option.filter_eq_some_iff.mp h).1⟩
  | _ => cases h

theorem Quiet.refl (s : State) : Quiet s s := ⟨rfl, rfl, fun _ => rfl, fun _ h => h⟩

theorem Quiet.trans {s s' s'' : State} (h : Quiet s s') (h' : Quiet s' s'') : Quiet s s'' :=
  ⟨h'.scheduleQueue.trans h.scheduleQueue, h'.time.trans h.time,
    fun q => (h'.runs q).trans (h.runs q), fun q hq => h.enabled q (h'.enabled q hq)⟩

theorem NowEnabled.quiet {s s' s'' : State} {p : InstancePtr} (h : NowEnabled s s' p)
    (h' : Quiet s' s'') : NowEnabled s s'' p :=
  ⟨by rw [h'.scheduleQueue]; exact h.scheduleQueue, h'.time.trans h.time,
    fun q => (h'.runs q).trans (h.runs q), fun q hq => h.enabled q (h'.enabled q hq)⟩

theorem push_pushed (s : State) (e : ScheduleInstance) :
    Pushed (·.time) e s.scheduleQueue (s.push e).scheduleQueue := by
  refine pushed_orderedInsert _ (fun a b h => ?_) (fun a b h => ?_) e s.scheduleQueue
  · have := (not_or.mp h).1
    omega
  · rcases not_not.mp h with h | h <;> omega

theorem quiet_call (s : State) (p : InstancePtr) (c : IfaceCall) (hc : c ≠ .run) :
    Quiet s (s.call p c) :=
  ⟨rfl, rfl, fun q => by simp [State.runs, runsIn, State.call, hc], fun _ h => h⟩

theorem quiet_closeInstance (s : State) (p : InstancePtr) : Quiet s (s.closeInstance p) := by
  refine ⟨?_, ?_, s.runs_closeInstance p, fun q hq => ?_⟩
  · rw [State.closeInstance_eq]
  · rw [State.closeInstance_eq]
  · rw [State.enabled_closeInstance, Bool.and_eq_true] at hq
    exact hq.1

/-- The entry is due and belongs to an enabled instance of the run-once type. -/
structure State.DueOnce (s : State) (e : ScheduleInstance) : Prop where
  mem : e ∈ s.scheduleQueue
  time : e.time = s.time
  enabled : s.enabled e.ptr = true
  runOnce : s.runOnce e.ptr = true

/-- A round makes no run-once instance due that was not. -/
theorem RoundOutcome.dueOnce {s s' : State} {e a : ScheduleInstance} {rest : List ScheduleInstance}
    (h : RoundOutcome s e rest s') (hq : s.scheduleQueue = e :: rest) (ha : s'.DueOnce a) :
    s.DueOnce a := by
  have hrest : ∀ a ∈ rest, a ∈ s.scheduleQueue := by
    intro a ha
    rw [hq]
    exact List.mem_cons_of_mem _ ha
  obtain ⟨hm, ht, hen, hro⟩ := ha
  cases h with
  | dropped => exact ⟨hrest a hm, ht, hen, hro⟩
  | once =>
    have hquiet := quiet_closeInstance (({ s with scheduleQueue := rest } : State).call e.ptr .run)
      e.ptr
    rw [hquiet.scheduleQueue] at hm
    rw [(Frame.closeInstance _ _).runOnce] at hro
    exact ⟨hrest a hm, ht.trans hquiet.time, hquiet.enabled _ hen, hro⟩
  | again _ hnot =>
    rcases (push_pushed (({ s with scheduleQueue := rest } : State).call e.ptr .run) _).mem.mp hm
      with rfl | hm
    · rw [show s.runOnce e.ptr = true from hro] at hnot
      cases hnot
    · exact ⟨hrest a hm, ht, hen, hro⟩

theorem quiet_disableInstance (s : State) (name : Str) : Quiet s (s.disableInstance name) :=
  disableInstance_induct (Quiet.refl s) (fun p _ => quiet_closeInstance s p)

theorem quiet_openTopic (s : State) (p : InstancePtr) (t : Topic) (ret : Result) :
    Quiet s (s.openTopic p t ret) := by
  refine ⟨?_, ?_, fun q => s.runs_openTopic p q t ret, fun q hq => ?_⟩
  · rw [State.openTopic_eq]
  · rw [State.openTopic_eq]
  · rwa [State.enabled_openTopic] at hq

theorem quiet_subscribed (s : State) (p : InstancePtr) (t : Topic) (type x : Str) :
    Quiet s (s.subscribed p t type x) := by
  rw [State.subscribed_eq]; exact ⟨rfl, rfl, fun _ => rfl, fun _ h => h⟩

theorem quiet_touch (s : State) (t : Topic) : Quiet s (s.touch t) :=
  ⟨rfl, rfl, fun _ => rfl, fun _ h => h⟩

theorem quiet_setFlag (s : State) (t : Topic) (b : Bool) : Quiet s (s.setFlag t b) :=
  ⟨rfl, rfl, fun _ => rfl, fun _ h => h⟩

theorem Swept.quiet {s s' : State} (h : Swept s s') : Quiet s s' :=
  ⟨h.scheduleQueue, h.time, h.runs, h.enabled⟩

theorem Delivered.quiet {s s' : State} (h : Delivered s s') : Quiet s s' := by
  refine ⟨by rw [h.eq], by rw [h.eq], h.runs, fun q hq => ?_⟩
  rw [h.eq] at hq; exact hq

theorem nowEnabled_enableOk (s : State) (p : InstancePtr) (params : Str) (ret : Result) :
    NowEnabled s ((s.call p (.enable params ret)).enableOk p) p := by
  refine ⟨push_pushed ((s.call p (.enable params ret)).modify p _) _, rfl, fun q => ?_,
    fun q hq => ?_⟩
  · exact (quiet_call s p _ (by simp)).runs q
  · rw [State.enabled_enableOk, Bool.or_eq_true, decide_eq_true_eq] at hq
    exact hq

theorem Started.schedule {s s1 : State} {p : InstancePtr} {params : Str} {ret : Result}
    (h : Started s p params ret s1) :
    Quiet s s1 ∨ (s.enabled p = false ∧ ret.failed = false ∧ NowEnabled s s1 p) := by
  cases h with
  | already => exact Or.inl (Quiet.refl s)
  | now he hr => exact Or.inr ⟨he, hr, nowEnabled_enableOk s p params ret⟩

/-- RULE: what survives taking one subscriber out of one set, with the sweep that follows, survives
    either kind of unsubscription. -/
theorem unsubscribed_induct {P : State → Prop}
    (hstep : ∀ s s' type x, P s → s.unsubscribe type x = .ok s' → P s') {s s' : State}
    {m : InstanceRunMessage} {ans : Answers} {r : Result}
    (hm : (∃ topic x, m = .UNSUBSCRIBE topic x) ∨ ∃ x, m = .UNSUBSCRIBE_SDK x) (h : P s)
    (he : s.handle m ans = .ok (s', r)) : P s' := by
  rcases hm with ⟨topic, x, rfl⟩ | ⟨x, rfl⟩
  · obtain ⟨s1, h1, he⟩ := map_ok he
    cases he; exact hstep s _ _ x h h1
  · obtain ⟨s1, h1, he⟩ := map_ok he
    cases he
    exact unsubscribeLoop_induct (fun s s' type hs _ hu => hstep s s' type x hs hu) _ h h1

theorem quiet_unsubscribe {s s' : State} {type x : Str} (h : s.unsubscribe type x = .ok s') :
    Quiet s s' :=
  have h0 : Quiet s (s.eraseSub type x) := ⟨rfl, rfl, fun _ => rfl, fun _ h => h⟩
  h0.trans (updateInstance_swept h).quiet

theorem subscribe_schedule {s : State} (hs : StoreOk s) (topic : Topic) (x : Str) (ans : Answers) :
    Quiet s (s.subscribe topic.getType x ans).1 ∨
    ∃ p, s.enables ans (.SUBSCRIBE topic x) = some p ∧
      NowEnabled s (s.subscribe topic.getType x ans).1 p := by
  have hstart : ∀ {p s1 s2}, s.getInstance (getTopicFromType topic.getType).instanceName = some p →
      Started s p (getTopicFromType topic.getType).params ans.enable s1 → Quiet s1 s2 →
      Quiet s s2 ∨ ∃ p, s.enables ans (.SUBSCRIBE topic x) = some p ∧ NowEnabled s s2 p := by
    intro p s1 s2 hp h1 h2
    rcases h1.schedule with hq | ⟨he, hr, hn⟩
    · exact Or.inl (hq.trans h2)
    · exact Or.inr ⟨p, by simp [State.enables, hp, he, hr], hn.quiet h2⟩
  have := subscribe_outcome hs topic.getType x ans
  generalize s.subscribe topic.getType x ans = res at this
  cases this with
  | missing => exact Or.inl (Quiet.refl s)
  | notEnabled p => exact Or.inl (quiet_call s p _ (by simp))
  | known p s1 r hp h1 =>
    exact hstart hp h1 ((quiet_touch s1 _).trans (quiet_subscribed _ _ _ _ _))
  | refused p s1 hp h1 =>
    exact hstart hp h1 ((quiet_touch s1 _).trans
      ((quiet_openTopic _ _ _ _).trans (quiet_closeInstance _ _)))
  | opened p s1 hp h1 =>
    exact hstart hp h1 ((quiet_touch s1 _).trans ((quiet_openTopic _ _ _ _).trans
      ((quiet_setFlag _ _ _).trans (quiet_subscribed _ _ _ _ _))))

theorem publish_schedule (s : State) (d : DataList) (ans : Answers) :
    Quiet s (s.publish d ans).1 ∨
    ∃ p, s.enables ans (.PUBLISH d) = some p ∧ NowEnabled s (s.publish d ans).1 p := by
  have hcall : ∀ p, Quiet s (s.call p (.updateData d)) := fun p => quiet_call s p _ (by simp)
  have hstart : ∀ {p s1 s2}, s.getInstance d.topic.instanceName = some p →
      s.unsupported p d.topic = false → Started (s.call p (.updateData d)) p [] ans.enable s1 →
      Quiet s1 s2 → Quiet s s2 ∨ ∃ p, s.enables ans (.PUBLISH d) = some p ∧ NowEnabled s s2 p := by
    intro p s1 s2 hp hu h1 h2
    rcases h1.schedule with hq | ⟨he, hr, hn⟩
    · exact Or.inl ((hcall p).trans (hq.trans h2))
    · have hn := hn.quiet h2
      have he : s.enabled p = false := he
      exact Or.inr ⟨p, by simp [State.enables, hp, hu, he, hr], hn.scheduleQueue, hn.time,
        fun q => (hn.runs q).trans ((hcall p).runs q), hn.enabled⟩
  have := publish_outcome s d ans
  generalize s.publish d ans = res at this
  cases this with
  | rejected => exact Or.inl (Quiet.refl s)
  | notEnabled p => exact Or.inl ((hcall p).trans (quiet_call _ p _ (by simp)))
  | noTopic p s1 r hp hu h1 => exact hstart hp hu h1 (Quiet.refl s1)
  | topic p s1 r hp hu h1 => exact hstart hp hu h1 (quiet_openTopic s1 p _ _)

/-- To the schedule a message is quiet, or it enables one instance. -/
theorem handle_schedule {s s' : State} {m : InstanceRunMessage} {ans : Answers} {r : Result}
    (hs : StoreOk s) (h : s.handle m ans = .ok (s', r)) :
    Quiet s s' ∨ ∃ p, s.enables ans m = some p ∧ NowEnabled s s' p := by
  cases m with
  | ENABLED name params =>
    simp only [State.handle, Except.ok.injEq] at h
    have ho := enable_outcome s name params ans.enable
    rw [h] at ho
    cases ho with
    | missing => exact Or.inl (Quiet.refl s)
    | failed p => exact Or.inl (quiet_call s p _ (by simp))
    | enabled p hp hr =>
      exact Or.inr ⟨p, by simp [State.enables, hp, hr], nowEnabled_enableOk s p params _⟩
  | DISABLED name => cases h; exact Or.inl (quiet_disableInstance s name)
  | DISABLED_FORCE name => cases h; exact Or.inl (quiet_disableInstance s name)
  | SUBSCRIBE topic x =>
    simp only [State.handle, Except.ok.injEq] at h
    have := subscribe_schedule hs topic x ans
    rwa [h] at this
  | UNSUBSCRIBE topic x =>
    exact Or.inl (unsubscribed_induct (P := Quiet s)
      (fun s1 s2 _ _ h1 h2 => h1.trans (quiet_unsubscribe h2)) (Or.inl ⟨topic, x, rfl⟩)
      (Quiet.refl s) h)
  | UNSUBSCRIBE_SDK x =>
    exact Or.inl (unsubscribed_induct (P := Quiet s)
      (fun s1 s2 _ _ h1 h2 => h1.trans (quiet_unsubscribe h2)) (Or.inr ⟨x, rfl⟩)
      (Quiet.refl s) h)
  | PUBLISH_DATA d =>
    obtain ⟨s1, h1, he⟩ := map_ok h
    cases he
    have h0 : Quiet s (s.touchSubs d.topic.getType) := ⟨rfl, rfl, fun _ => rfl, fun _ h => h⟩
    exact Or.inl (h0.trans (deliver_delivered d _ h1).quiet)
  | PUBLISH d =>
    simp only [State.handle, Except.ok.injEq] at h
    have := publish_schedule s d ans
    rwa [h] at this
  | SHUTDOWN => cases h; exact Or.inl (Quiet.refl s)

/-! ### The topics -/

/-- `topicState` and the subscriber sets read as before. -/
structure SameTopics (s s' : State) : Prop where
  keys : ∀ t, t ∈ s'.topicState.keys ↔ t ∈ s.topicState.keys
  flag : ∀ t, s'.flag t = s.flag t
  subs : ∀ type x, x ∈ s'.subs type ↔ x ∈ s.subs type

theorem flag_congr {s s' : State} (h : s'.topicState = s.topicState) (t : Topic) :
    s'.flag t = s.flag t := by rw [State.flag, h]; rfl

theorem subs_congr {s s' : State} (h : s'.subscibers = s.subscibers) (type : Str) :
    s'.subs type = s.subs type := by rw [State.subs, h]; rfl

theorem SameTopics.of_eq {s s' : State} (ht : s'.topicState = s.topicState)
    (hs : s'.subscibers = s.subscibers) : SameTopics s s' where
  keys t := by rw [ht]
  flag := flag_congr ht
  subs type x := by rw [subs_congr hs]

/-- What a step does to the topics. -/
inductive TopicStep (s s' : State) : Action → Prop
  /-- Neither table changes; a `Subscribe` that ends so has enabled nobody. -/
  | same (a : Action) : SameTopics s s' →
      (∀ topic x ans, a = .message (.SUBSCRIBE topic x) ans →
        s.enables ans (.SUBSCRIBE topic x) = none) → TopicStep s s' a
  /-- The plugin refused to open the topic: an entry reading `false` is left behind. -/
  | refused (topic : Topic) (x : Str) (ans : Answers) (p : InstancePtr) :
      s.getInstance (getTopicFromType topic.getType).instanceName = some p →
      (∀ t, t ∈ s'.topicState.keys ↔
        t = getTopicFromType topic.getType ∨ t ∈ s.topicState.keys) →
      (∀ t, s'.flag t = s.flag t) → (∀ type y, y ∈ s'.subs type ↔ y ∈ s.subs type) →
      s'.enabled p = false → TopicStep s s' (.message (.SUBSCRIBE topic x) ans)
  | subscribed (topic : Topic) (x : Str) (ans : Answers) (p : InstancePtr) :
      s.getInstance (getTopicFromType topic.getType).instanceName = some p →
      (∀ t, t ∈ s'.topicState.keys ↔
        t = getTopicFromType topic.getType ∨ t ∈ s.topicState.keys) →
      (∀ t, s'.flag t = true ↔ t = getTopicFromType topic.getType ∨ s.flag t = true) →
      (∀ type y, y ∈ s'.subs type ↔ (type = topic.getType ∧ y = x) ∨ y ∈ s.subs type) →
      TopicStep s s' (.message (.SUBSCRIBE topic x) ans)
  | unsubscribed (m : InstanceRunMessage) (ans : Answers) (r : Result) :
      ((∃ topic x, m = .UNSUBSCRIBE topic x) ∨ ∃ x, m = .UNSUBSCRIBE_SDK x) →
      s.handle m ans = .ok (s', r) → TopicStep s s' (.message m ans)

theorem mem_keys_touch (s : State) (t u : Topic) :
    u ∈ (s.touch t).topicState.keys ↔ u = t ∨ u ∈ s.topicState.keys := by
  rw [UMap.mem_keys, State.touch, UMap.find_insertNew, UMap.mem_keys]
  by_cases h : u = t
  · cases hc : s.topicState.find t <;> simp [h, UMap.count, hc]
  · simp [h]

theorem topics_closeInstance (s : State) (p : InstancePtr) :
    (s.closeInstance p).topicState = s.topicState ∧
      (s.closeInstance p).subscibers = s.subscibers := by
  rw [State.closeInstance_eq]; exact ⟨rfl, rfl⟩

theorem topics_openTopic (s : State) (p : InstancePtr) (t : Topic) (ret : Result) :
    (s.openTopic p t ret).topicState = s.topicState ∧
      (s.openTopic p t ret).subscibers = s.subscibers := by
  rw [State.openTopic_eq]; exact ⟨rfl, rfl⟩

theorem topics_subscribed (s : State) (p : InstancePtr) (t : Topic) (type x : Str) :
    (s.subscribed p t type x).topicState = s.topicState ∧
      ∀ type' y, y ∈ (s.subscribed p t type x).subs type' ↔
        (type' = type ∧ y = x) ∨ y ∈ s.subs type' := by
  rw [State.subscribed_eq]; exact ⟨rfl, s.mem_subs_addSub type x⟩

theorem sameTopics_disableInstance (s : State) (name : Str) :
    SameTopics s (s.disableInstance name) := by
  refine disableInstance_induct (.of_eq rfl rfl) (fun p _ => ?_)
  exact .of_eq (topics_closeInstance s p).1 (topics_closeInstance s p).2

theorem sameTopics_enableInstance (s : State) (name params : Str) (ret : Result) :
    SameTopics s (s.enableInstance name params ret).1 := by
  have ho := enable_outcome s name params ret
  generalize s.enableInstance name params ret = res at ho
  cases ho <;> exact .of_eq rfl rfl

theorem sameTopics_publish (s : State) (d : DataList) (ans : Answers) :
    SameTopics s (s.publish d ans).1 := by
  have := publish_outcome s d ans
  generalize s.publish d ans = res at this
  cases this with
  | rejected => exact .of_eq rfl rfl
  | notEnabled p => exact .of_eq rfl rfl
  | noTopic p s1 r _ _ h1 => exact .of_eq h1.same.topicState h1.same.subscibers
  | topic p s1 r _ _ h1 =>
    have ho := topics_openTopic s1 p d.topic ans.openTopic
    exact .of_eq (ho.1.trans h1.same.topicState) (ho.2.trans h1.same.subscibers)

theorem sameTopics_publishData {s s' : State} {d : DataList} (h : s.publishData d = .ok s') :
    SameTopics s s' := by
  have hd := (deliver_delivered d _ h).eq
  refine ⟨fun t => by rw [hd]; rfl, fun t => by rw [hd]; rfl, fun type x => ?_⟩
  rw [hd, ← subs_touchSubs s d.topic.getType type]; rfl

theorem sameTopics_schedule {s s' : State} (h : s.schedule = .ok s') : SameTopics s s' := by
  have : s'.topicState = s.topicState ∧ s'.subscibers = s.subscibers := by
    refine (scheduleLoop_induct (P := fun s' => s'.topicState = s.topicState ∧
      s'.subscibers = s.subscibers) ?_ _ ⟨rfl, rfl⟩ h).1
    intro s1 s2 h1 h2
    obtain ⟨e, rest, _, _, ho⟩ := scheduleOne_outcome h2
    cases ho with
    | dropped => exact h1
    | once => rw [State.closeInstance_eq]; exact h1
    | again => exact h1
  exact .of_eq this.1 this.2

theorem subscribe_topics {s : State} (hs : StoreOk s) (topic : Topic) (x : Str) (ans : Answers) :
    TopicStep s (s.subscribe topic.getType x ans).1 (.message (.SUBSCRIBE topic x) ans) := by
  have := subscribe_outcome hs topic.getType x ans
  generalize s.subscribe topic.getType x ans = res at this
  set T := getTopicFromType topic.getType with hT
  -- up to `topicState[i][t][p]` nothing but that entry has appeared
  have hkeys : ∀ {p s1}, Started s p T.params ans.enable s1 →
      ∀ t, t ∈ (s1.touch T).topicState.keys ↔ t = T ∨ t ∈ s.topicState.keys := by
    intro p s1 h1 t
    rw [mem_keys_touch, h1.same.topicState]
  have hflag : ∀ {p s1}, Started s p T.params ans.enable s1 →
      ∀ t, (s1.touch T).flag t = s.flag t := by
    intro p s1 h1 t
    rw [State.flag_touch, flag_congr h1.same.topicState]
  have hsubs : ∀ {p s1}, Started s p T.params ans.enable s1 →
      ∀ type, (s1.touch T).subs type = s.subs type := fun h1 => subs_congr h1.same.subscibers
  cases this with
  | missing text hp =>
    refine .same _ (.of_eq rfl rfl) ?_
    rintro _ _ _ ⟨rfl, rfl⟩
    rw [State.enables, hp]; rfl
  | notEnabled p hp _ hr =>
    refine .same _ (.of_eq rfl rfl) ?_
    rintro _ _ _ ⟨rfl, rfl⟩
    simp [State.enables, hr]
  | known p s1 r hp h1 hf =>
    obtain ⟨ht, hsb⟩ := topics_subscribed (s1.touch T) p T topic.getType x
    refine .subscribed topic x ans p hp (fun t => ?_) (fun t => ?_) (fun type y => ?_)
    · rw [ht]; exact hkeys h1 t
    · rw [flag_congr ht, hflag h1]
      exact ⟨Or.inr, fun h => h.elim (fun he => he ▸ hf) id⟩
    · rw [hsb, hsubs h1]
  | refused p s1 hp h1 hf =>
    obtain ⟨ht, hsb⟩ := topics_openTopic (s1.touch T) p T ans.openTopic
    obtain ⟨ht', hsb'⟩ := topics_closeInstance ((s1.touch T).openTopic p T ans.openTopic) p
    refine .refused topic x ans p hp (fun t => ?_) (fun t => ?_) (fun type y => ?_) ?_
    · rw [ht', ht]; exact hkeys h1 t
    · rw [flag_congr (ht'.trans ht), hflag h1]
    · rw [subs_congr (hsb'.trans hsb), hsubs h1]
    · rw [State.enabled_closeInstance]; simp
  | opened p s1 hp h1 hf =>
    obtain ⟨ht, hsb⟩ := topics_openTopic (s1.touch T) p T ans.openTopic
    obtain ⟨ht', hsb'⟩ := topics_subscribed
      (((s1.touch T).openTopic p T ans.openTopic).setFlag T true) p T topic.getType x
    refine .subscribed topic x ans p hp (fun t => ?_) (fun t => ?_) (fun type y => ?_)
    · rw [ht']
      refine (UMap.mem_keys_insert ..).trans ?_
      rw [ht]
      exact (or_congr Iff.rfl (hkeys h1 t)).trans ⟨fun h => h.elim Or.inl id, Or.inr⟩
    · rw [flag_congr ht', State.flag_setFlag, flag_congr ht, hflag h1]
      by_cases he : t = T <;> simp [he, ← hT]
    · rw [hsb']
      have hset : (((s1.touch T).openTopic p T ans.openTopic).setFlag T true).subs type =
          s.subs type := (subs_congr hsb type).trans (hsubs h1 type)
      rw [hset]

/-- A `Subscribe` that fails subscribes nobody. -/
theorem subscribe_failed {s : State} (hs : StoreOk s) {type x : Str} {ans : Answers}
    (hf : (s.subscribe type x ans).2.failed = true) (type' : Str) :
    (s.subscribe type x ans).1.subs type' = s.subs type' := by
  have := subscribe_outcome hs type x ans
  generalize s.subscribe type x ans = res at this hf
  cases this with
  | missing => rfl
  | notEnabled => rfl
  | known p s1 r _ _ _ hr => rw [hr] at hf; cases hf
  | opened p s1 _ _ _ ho => rw [ho] at hf; cases hf
  | refused p s1 _ h1 =>
    refine (subs_congr (topics_closeInstance _ p).2 type').trans ?_
    refine (subs_congr (topics_openTopic _ p _ _).2 type').trans ?_
    exact subs_congr h1.same.subscibers type'

/-- Every step is one of these to the topics. -/
theorem step_topics {s s' : State} {a : Action} (hs : StoreOk s) (h : step s a = .ok s') :
    TopicStep s s' a := by
  cases a with
  | message m ans =>
    obtain ⟨⟨s1, r⟩, h1, rfl⟩ := map_ok h
    cases m with
    | ENABLED name params =>
      simp only [State.handle, Except.ok.injEq] at h1
      have := sameTopics_enableInstance s name params ans.enable
      rw [h1] at this
      exact .same _ this (by simp)
    | DISABLED name => cases h1; exact .same _ (sameTopics_disableInstance s name) (by simp)
    | DISABLED_FORCE name => cases h1; exact .same _ (sameTopics_disableInstance s name) (by simp)
    | SUBSCRIBE topic x =>
      simp only [State.handle, Except.ok.injEq] at h1
      have := subscribe_topics hs topic x ans
      rwa [h1] at this
    | UNSUBSCRIBE topic x => exact .unsubscribed _ ans r (Or.inl ⟨topic, x, rfl⟩) h1
    | UNSUBSCRIBE_SDK x => exact .unsubscribed _ ans r (Or.inr ⟨x, rfl⟩) h1
    | PUBLISH_DATA d =>
      obtain ⟨s2, h2, he⟩ := map_ok h1
      cases he; exact .same _ (sameTopics_publishData h2) (by simp)
    | PUBLISH d =>
      simp only [State.handle, Except.ok.injEq] at h1
      have := sameTopics_publish s d ans
      rw [h1] at this
      exact .same _ this (by simp)
    | SHUTDOWN => cases h1; exact .same _ (.of_eq rfl rfl) (by simp)
  | tick =>
    obtain ⟨s1, h1, rfl⟩ := map_ok h
    obtain ⟨hk, hf, hsub⟩ := sameTopics_schedule h1
    exact .same _ ⟨hk, hf, hsub⟩ (by simp)
  | load name file =>
    cases h
    rcases loadPlugin_cases s name file with he | ⟨interfaces, _, hl⟩
    · rw [he]; exact .same _ (.of_eq rfl rfl) (by simp)
    · rw [hl.eq]; exact .same _ (.of_eq rfl rfl) (by simp)
  | remove name =>
    cases h
    rcases remove_cases s name with he | ⟨plugin, hr⟩
    · rw [he]; exact .same _ (.of_eq rfl rfl) (by simp)
    · rw [hr.eq]; exact .same _ (.of_eq rfl rfl) (by simp)
  | reorder o =>
    cases h
    exact .same _ ⟨mem_keys_reorder s o, flag_reorder s o, mem_subs_reorder s o⟩ (by simp)

/-- A subscriber is there from before, or has just subscribed. -/
theorem step_subs {s s' : State} {a : Action} (hs : StoreOk s) (h : step s a = .ok s')
    {type x : Str} (hx : x ∈ s'.subs type) : x ∈ s.subs type ∨
      ∃ topic ans, a = .message (.SUBSCRIBE topic x) ans ∧ type = topic.getType := by
  cases step_topics hs h with
  | same a hsame => exact Or.inl ((hsame.subs type x).mp hx)
  | refused topic y ans p _ _ _ hsb => exact Or.inl ((hsb type x).mp hx)
  | subscribed topic y ans p _ _ _ hsb =>
    rcases (hsb type x).mp hx with ⟨rfl, rfl⟩ | hx
    · exact Or.inr ⟨topic, ans, rfl, rfl⟩
    · exact Or.inl hx
  | unsubscribed m ans r hm he =>
    refine Or.inl (unsubscribed_induct (P := fun s' => x ∈ s'.subs type → x ∈ s.subs type) ?_ hm id he
      hx)
    intro s1 s2 type' y h1 h2 hy
    rw [subs_congr (updateInstance_swept h2).subscibers, State.mem_subs_eraseSub] at hy
    exact h1 hy.1

/-! ### The data queue -/

theorem recvData_closeInstance (s : State) (p : InstancePtr) :
    (s.closeInstance p).recvData = s.recvData := by rw [State.closeInstance_eq]

theorem recvData_openTopic (s : State) (p : InstancePtr) (t : Topic) (ret : Result) :
    (s.openTopic p t ret).recvData = s.recvData := by rw [State.openTopic_eq]

theorem recvData_subscribed (s : State) (p : InstancePtr) (t : Topic) (type x : Str) :
    (s.subscribed p t type x).recvData = s.recvData := by rw [State.subscribed_eq]; rfl

theorem recvData_disableInstance (s : State) (name : Str) :
    (s.disableInstance name).recvData = s.recvData :=
  disableInstance_induct (P := fun s1 => s1.recvData = s.recvData) rfl
    (fun p _ => recvData_closeInstance s p)

theorem Started.recvData {s s1 : State} {p : InstancePtr} {params : Str} {ret : Result}
    (h : Started s p params ret s1) : s1.recvData = s.recvData := by
  cases h <;> rfl

theorem recvData_unsubscribe {s s' : State} {type x : Str} (h : s.unsubscribe type x = .ok s') :
    s'.recvData = s.recvData := by
  refine updateInstance_induct (s := s.eraseSub type x) (P := fun s1 => s1.recvData = s.recvData)
    ?_ ?_ rfl h
  · intro s1 p t h1 _ _ _
    exact h1
  · intro s1 name p h1 _ _ _ _
    rw [recvData_closeInstance]
    exact h1

theorem recvData_subscribe {s : State} (hs : StoreOk s) (type x : Str) (ans : Answers) :
    (s.subscribe type x ans).1.recvData = s.recvData := by
  have := subscribe_outcome hs type x ans
  generalize s.subscribe type x ans = res at this
  cases this with
  | missing => rfl
  | notEnabled => rfl
  | known p s1 r _ h1 =>
    rw [recvData_subscribed]
    exact h1.recvData
  | refused p s1 _ h1 =>
    rw [recvData_closeInstance, recvData_openTopic]
    exact h1.recvData
  | opened p s1 _ h1 =>
    rw [recvData_subscribed]
    exact (recvData_openTopic ..).trans h1.recvData

theorem recvData_publish (s : State) (d : DataList) (ans : Answers) :
    (s.publish d ans).1.recvData = s.recvData := by
  have := publish_outcome s d ans
  generalize s.publish d ans = res at this
  cases this with
  | rejected => rfl
  | notEnabled => rfl
  | noTopic p s1 r _ _ h1 => exact h1.recvData
  | topic p s1 r _ _ h1 => exact (recvData_openTopic ..).trans h1.recvData

theorem recvData_schedule {s s' : State} (h : s.schedule = .ok s') : s'.recvData = s.recvData := by
  refine (scheduleLoop_induct (P := fun s1 => s1.recvData = s.recvData) ?_ _ rfl h).1
  intro s1 s2 h1 h2
  obtain ⟨e, rest, _, _, ho⟩ := scheduleOne_outcome h2
  cases ho with
  | dropped => exact h1
  | once => rw [recvData_closeInstance]; exact h1
  | again => exact h1

/-- Only `PublishData` queues data. -/
theorem step_recvData {s s' : State} {a : Action} (hs : StoreOk s) (h : step s a = .ok s')
    (ha : ∀ d ans, a ≠ .message (.PUBLISH_DATA d) ans) : s'.recvData = s.recvData := by
  cases a with
  | message m ans =>
    obtain ⟨⟨s1, r⟩, h1, rfl⟩ := map_ok h
    cases m with
    | ENABLED name params =>
      simp only [State.handle, Except.ok.injEq] at h1
      have ho := enable_outcome s name params ans.enable
      rw [h1] at ho
      cases ho <;> rfl
    | DISABLED name => cases h1; exact recvData_disableInstance s name
    | DISABLED_FORCE name => cases h1; exact recvData_disableInstance s name
    | SUBSCRIBE topic x =>
      simp only [State.handle, Except.ok.injEq] at h1
      have := recvData_subscribe hs topic.getType x ans
      rwa [h1] at this
    | UNSUBSCRIBE topic x =>
      exact unsubscribed_induct (P := fun s1 => s1.recvData = s.recvData)
        (fun s1 s2 _ _ h1 h2 => (recvData_unsubscribe h2).trans h1) (Or.inl ⟨topic, x, rfl⟩) rfl h1
    | UNSUBSCRIBE_SDK x =>
      exact unsubscribed_induct (P := fun s1 => s1.recvData = s.recvData)
        (fun s1 s2 _ _ h1 h2 => (recvData_unsubscribe h2).trans h1) (Or.inr ⟨x, rfl⟩) rfl h1
    | PUBLISH_DATA d => exact absurd rfl (ha d ans)
    | PUBLISH d =>
      simp only [State.handle, Except.ok.injEq] at h1
      have := recvData_publish s d ans
      rwa [h1] at this
    | SHUTDOWN => cases h1; rfl
  | tick =>
    obtain ⟨s1, h1, rfl⟩ := map_ok h
    show s1.recvData = s.recvData
    exact recvData_schedule h1
  | load name file =>
    cases h
    rcases loadPlugin_cases s name file with he | ⟨interfaces, _, hl⟩
    · rw [he]
    · rw [hl.eq]
  | remove name =>
    cases h
    rcases remove_cases s name with he | ⟨plugin, hr⟩
    · rw [he]
    · rw [hr.eq]
  | reorder o => cases h; rfl

end OeAware

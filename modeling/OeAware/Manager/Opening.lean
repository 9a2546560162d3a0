import OeAware.Manager.Topics

/-! @src src/plugin_mgr/instance_run_handler.cpp, plugin.cpp | name:Subscribe, OpenTopic, Disable |
    scheme:state-machine

    What is open at the interfaces. `Subscribe` opens a topic only when `topicState` does not mark it,
    but `Instance::Disable` closes topics and leaves their marks, so a mark can outlive what it stands
    for. As long as no step does that to a marked topic, a subscribed topic is an open one.

        topicState      SUBSCRIBE ─▶ true ──────────────────────────▶ true ──SUBSCRIBE─▶ (not opened)
        at interface    OpenTopic ─▶ open ──DISABLED─▶ CloseTopic ─▶ closed -/

namespace OeAware
open Schemes

/-! ### Marks and open topics -/

/-- Every marked topic is open at the instance that the store has under its name. -/
def MarksOpen (s : State) : Prop :=
  ∀ t, s.flag t = true → ∃ p, s.getInstance t.instanceName = some p ∧ s.openAt p t = true

/-- `Instance::Disable` on `p` closes no marked topic. -/
def State.CloseSafe (s : State) (p : InstancePtr) : Prop :=
  ∀ t ∈ s.closedBy p, s.flag t = true → s.getInstance t.instanceName ≠ some p

instance (s : State) (p : InstancePtr) : Decidable (s.CloseSafe p) :=
  inferInstanceAs (Decidable (∀ t ∈ s.closedBy p, _ → _))

/-- `p` is enabled once `Subscribe` or `Publish` has seen to it. -/
def State.starts (s : State) (p : InstancePtr) (ans : Answers) : Bool :=
  s.enabled p || !ans.enable.failed

/-- The step closes, refuses or forgets no topic that `topicState` marks as open. -/
def KeepsMarked (s : State) : Action → Prop
  | .message (.DISABLED name) _ => ∀ p ∈ s.getInstance name, s.CloseSafe p
  | .message (.DISABLED_FORCE name) _ => ∀ p ∈ s.getInstance name, s.CloseSafe p
  | .message (.SUBSCRIBE topic _) ans =>
    ∀ p ∈ s.getInstance (getTopicFromType topic.getType).instanceName, s.starts p ans = true →
      s.flag (getTopicFromType topic.getType) = false → ans.openTopic.failed = true → s.CloseSafe p
  | .message (.PUBLISH d) ans =>
    ∀ p ∈ s.getInstance d.topic.instanceName, s.unsupported p d.topic = false →
      s.starts p ans = true → d.topic.topicName ≠ [] → ans.openTopic.failed = true →
      s.flag d.topic = false
  | .tick => ∀ e ∈ s.scheduleQueue, e.time = s.time → s.enabled e.ptr = true →
      s.runOnce e.ptr = true → s.CloseSafe e.ptr
  | .remove name => ∀ plugin ∈ s.memoryStore.plugins.find name,
      plugin.instances.any s.enabled = false → ∀ t ∈ s.topicState.keys, s.flag t = true →
      t.instanceName ∉ s.instanceNames plugin
  | _ => True

instance (s : State) : ∀ a, Decidable (KeepsMarked s a)
  | .message (.DISABLED name) _ => inferInstanceAs (Decidable (∀ p ∈ s.getInstance name, _))
  | .message (.DISABLED_FORCE name) _ => inferInstanceAs (Decidable (∀ p ∈ s.getInstance name, _))
  | .message (.SUBSCRIBE topic _) _ => inferInstanceAs (Decidable
      (∀ p ∈ s.getInstance (getTopicFromType topic.getType).instanceName, _ → _ → _ → _))
  | .message (.PUBLISH d) _ => inferInstanceAs (Decidable
      (∀ p ∈ s.getInstance d.topic.instanceName, _ → _ → _ → _ → _))
  | .tick => inferInstanceAs (Decidable (∀ e ∈ s.scheduleQueue, _ → _ → _ → _))
  | .remove name => inferInstanceAs (Decidable
      (∀ plugin ∈ s.memoryStore.plugins.find name, _ → ∀ t ∈ s.topicState.keys, _ → _))
  | .message (.ENABLED _ _) _ => isTrue trivial
  | .message (.UNSUBSCRIBE _ _) _ => isTrue trivial
  | .message (.UNSUBSCRIBE_SDK _) _ => isTrue trivial
  | .message (.PUBLISH_DATA _) _ => isTrue trivial
  | .message .SHUTDOWN _ => isTrue trivial
  | .load _ _ => isTrue trivial
  | .reorder _ => isTrue trivial

theorem Started.starts {s s1 : State} {p : InstancePtr} {params : Str} {ans : Answers}
    (h : Started s p params ans.enable s1) : s.starts p ans = true := by
  cases h with
  | already he => simp [State.starts, he]
  | now _ hr => simp [State.starts, hr]

theorem MarksOpen.congr {s s' : State} (h : MarksOpen s)
    (hf : ∀ t, s'.flag t = true → s.flag t = true)
    (hg : ∀ n p, s.getInstance n = some p → s'.getInstance n = some p)
    (ho : ∀ p t, s.openAt p t = true → s'.openAt p t = true) : MarksOpen s' := by
  intro t ht
  obtain ⟨p, hp, hopen⟩ := h t (hf t ht)
  exact ⟨p, hg _ p hp, ho p t hopen⟩

theorem MarksOpen.closeInstance {s : State} (h : MarksOpen s) {p : InstancePtr}
    (hc : s.CloseSafe p) : MarksOpen (s.closeInstance p) := by
  intro t ht
  rw [flag_congr (topics_closeInstance s p).1] at ht
  obtain ⟨q, hq, hopen⟩ := h t ht
  refine ⟨q, by rw [(Frame.closeInstance s p).getInstance]; exact hq, ?_⟩
  rw [State.openAt_closeInstance, hopen]
  have : ¬ (p = q ∧ t ∈ s.closedBy p) := by
    rintro ⟨rfl, hm⟩; exact hc t hm ht hq
  simp [this]

theorem MarksOpen.disableInstance {s : State} (h : MarksOpen s) {name : Str}
    (hc : ∀ p ∈ s.getInstance name, s.CloseSafe p) : MarksOpen (s.disableInstance name) :=
  disableInstance_induct h (fun p hp => h.closeInstance (hc p hp))

theorem openAt_enableInstance (s : State) (name params : Str) (ret : Result) (q : InstancePtr)
    (t : Topic) : (s.enableInstance name params ret).1.openAt q t = s.openAt q t := by
  have ho := enable_outcome s name params ret
  generalize s.enableInstance name params ret = res at ho
  cases ho <;> rfl

/-- A sweep closes only what it unmarks, and disables only instances without marked topics. -/
theorem MarksOpen.unsubscribe {s s' : State} (hs : StoreOk s) (h : MarksOpen s) {type x : Str}
    (he : s.unsubscribe type x = .ok s') : MarksOpen s' := by
  have h0 : StoreOk (s.eraseSub type x) ∧ MarksOpen (s.eraseSub type x) :=
    ⟨hs.of_frame (Frame.eraseSub s type x), h⟩
  refine (updateInstance_induct (P := fun s => StoreOk s ∧ MarksOpen s) ?_ ?_ h0 he).2
  · intro s p t ⟨hs, h⟩ _ _ hp
    refine ⟨hs.of_frame ((Frame.closeTopic s p t).trans (Frame.setFlag _ t false)), ?_⟩
    intro u hu
    rw [State.flag_setFlag] at hu
    split at hu
    · cases hu
    · rename_i hne
      obtain ⟨q, hq, hopen⟩ := h u hu
      refine ⟨q, hq, ?_⟩
      show (s.closeTopic p t).openAt q u = true
      rw [State.openAt_closeTopic, if_neg (fun hh => hne hh.2.symm)]
      exact hopen
  · intro s name p ⟨hs, h⟩ _ hp _ hnone
    refine ⟨hs.of_frame (Frame.closeInstance s p), h.closeInstance (fun t _ ht hq => ?_)⟩
    rw [hnone t (hs.inj hq hp)] at ht; cases ht

theorem MarksOpen.subscribe {s : State} (hs : StoreOk s) (h : MarksOpen s) {topic : Topic}
    {x : Str} {ans : Answers} (hok : KeepsMarked s (.message (.SUBSCRIBE topic x) ans)) :
    MarksOpen (s.subscribe topic.getType x ans).1 := by
  have := subscribe_outcome hs topic.getType x ans
  generalize s.subscribe topic.getType x ans = res at this
  set T := getTopicFromType topic.getType with hT
  have hstart : ∀ {p s1}, Started s p T.params ans.enable s1 → MarksOpen (s1.touch T) := by
    intro p s1 h1
    refine h.congr (fun t ht => ?_) (fun n q hq => ?_) (fun q t ho => ?_)
    · rwa [State.flag_touch, flag_congr h1.same.topicState] at ht
    · rw [(Frame.touch s1 T).getInstance, h1.frame.getInstance]; exact hq
    · rw [show (s1.touch T).openAt q t = s1.openAt q t from rfl, h1.same.openAt]; exact ho
  have hsubscribed : ∀ {s1 : State} {p : InstancePtr}, MarksOpen s1 →
      MarksOpen (s1.subscribed p T topic.getType x) := by
    intro s1 p h1
    rw [State.subscribed_eq]; exact h1
  cases this with
  | missing => exact h
  | notEnabled p => exact h
  | known p s1 r hp h1 hf => exact hsubscribed (hstart h1)
  | refused p s1 hp h1 hf ho =>
    -- the refused topic is not marked, so its `OpenTopic` call disturbs no mark
    have hopen : MarksOpen ((s1.touch T).openTopic p T ans.openTopic) := by
      intro t ht
      rw [flag_congr (topics_openTopic _ _ _ _).1] at ht
      have hne : t ≠ T := by
        rintro rfl
        rw [State.flag_touch, flag_congr h1.same.topicState, hf] at ht; cases ht
      obtain ⟨q, hq, hopen⟩ := hstart h1 t ht
      refine ⟨q, by rw [(Frame.openTopic _ _ _ _).getInstance]; exact hq, ?_⟩
      rw [State.openAt_openTopic, if_neg (fun hh => hne hh.2.symm)]
      exact hopen
    refine hopen.closeInstance (fun t hm ht hq => ?_)
    rw [flag_congr (topics_openTopic _ _ _ _).1, State.flag_touch,
      flag_congr h1.same.topicState] at ht
    rw [(h1.frame.trans ((Frame.touch s1 T).trans (Frame.openTopic _ _ _ _))).getInstance] at hq
    refine hok p hp h1.starts hf ho t ?_ ht hq
    have hcode : ans.openTopic.code ≠ some OK := by
      intro hc; simp [Result.failed, hc, OK] at ho
    rw [State.closedBy, State.openTopic_eq] at hm
    simp only [hcode, and_false, if_false] at hm
    rw [State.closedBy, ← h1.same.openTopics]; exact hm
  | opened p s1 hp h1 hf ho =>
    refine hsubscribed ?_
    intro t ht
    rw [State.flag_setFlag] at ht
    have hframe : Frame s ((s1.touch T).openTopic p T ans.openTopic) :=
      h1.frame.trans ((Frame.touch s1 T).trans (Frame.openTopic _ _ _ _))
    by_cases hne : t = T
    · subst hne
      refine ⟨p, (hframe.getInstance _).trans hp, ?_⟩
      show ((s1.touch T).openTopic p T ans.openTopic).openAt p T = true
      rw [State.openAt_openTopic, if_pos ⟨rfl, rfl⟩, ho]; rfl
    · rw [if_neg hne, flag_congr (topics_openTopic _ _ _ _).1] at ht
      obtain ⟨q, hq, hopen⟩ := hstart h1 t ht
      refine ⟨q, (Frame.openTopic _ p T ans.openTopic).getInstance _ |>.trans hq, ?_⟩
      show ((s1.touch T).openTopic p T ans.openTopic).openAt q t = true
      rw [State.openAt_openTopic, if_neg (fun hh => hne hh.2.symm)]
      exact hopen

theorem MarksOpen.publish {s : State} (h : MarksOpen s) {d : DataList} {ans : Answers}
    (hok : KeepsMarked s (.message (.PUBLISH d) ans)) : MarksOpen (s.publish d ans).1 := by
  have := publish_outcome s d ans
  generalize s.publish d ans = res at this
  have hstart : ∀ {p s1}, Started (s.call p (.updateData d)) p [] ans.enable s1 → MarksOpen s1 := by
    intro p s1 h1
    refine h.congr (fun t ht => ?_) (fun n q hq => ?_) (fun q t ho => ?_)
    · rwa [flag_congr h1.same.topicState] at ht
    · rw [h1.frame.getInstance]; exact hq
    · rw [h1.same.openAt]; exact ho
  cases this with
  | rejected => exact h
  | notEnabled p => exact h
  | noTopic p s1 r _ _ h1 => exact hstart h1
  | topic p s1 r hp hu h1 hn =>
    intro t ht
    rw [flag_congr (topics_openTopic _ _ _ _).1] at ht
    obtain ⟨q, hq, hopen⟩ := hstart h1 t ht
    refine ⟨q, by rw [(Frame.openTopic _ _ _ _).getInstance]; exact hq, ?_⟩
    rw [State.openAt_openTopic]
    split
    · rename_i hh
      -- a marked topic that is opened once more must not be refused
      cases ho : ans.openTopic.failed with
      | false => rfl
      | true =>
        have hf : s.flag d.topic = false := hok p hp hu h1.starts hn ho
        have hs : s1.flag t = s.flag t := flag_congr h1.same.topicState t
        rw [hh.2, ← hs, ht] at hf; cases hf
    · exact hopen

/-- Along a tick: marks stay open, and no run-once instance that is due closes a marked topic. -/
theorem MarksOpen.tick {s s' : State} (h : MarksOpen s) (hok : KeepsMarked s .tick)
    (he : s.schedule = .ok s') : MarksOpen s' := by
  refine (scheduleLoop_induct (P := fun s => MarksOpen s ∧ KeepsMarked s .tick) ?_ _ ⟨h, hok⟩ he).1.1
  intro s s1 ⟨h, hok⟩ h1
  obtain ⟨e, rest, hq, ht, ho⟩ := scheduleOne_outcome h1
  have hsafe : ∀ a, s1.DueOnce a → s.CloseSafe a.ptr := by
    intro a ha
    obtain ⟨hm, hat, hen, hro⟩ := ho.dueOnce hq ha
    exact hok a hm hat hen hro
  cases ho with
  | dropped => exact ⟨h, fun a hm hat hen hro => hsafe a ⟨hm, hat, hen, hro⟩⟩
  | once hen hro =>
    have hself : s.CloseSafe e.ptr := hok e (by rw [hq]; exact List.mem_cons_self ..) ht hen hro
    refine ⟨MarksOpen.closeInstance (s := ({ s with scheduleQueue := rest } : State).call e.ptr .run)
      h hself, fun a hm hat hen hro t hcl hf => ?_⟩
    have hold := hsafe a ⟨hm, hat, hen, hro⟩ t
    rw [State.closeInstance_eq] at hcl hf
    rw [(Frame.closeInstance _ _).getInstance]
    refine hold ?_ hf
    simp only [State.closedBy] at hcl
    split at hcl <;> exact hcl
  | again => exact ⟨h, fun a hm hat hen hro => hsafe a ⟨hm, hat, hen, hro⟩⟩

theorem MarksOpen.step {s s' : State} {a : Action} (hs : StoreOk s) (h : MarksOpen s)
    (hok : KeepsMarked s a) (he : OeAware.step s a = .ok s') : MarksOpen s' := by
  have hkeep : ∀ {m : InstanceRunMessage} {ans : Answers} {s1 : State} {r : Result},
      ((∃ topic x, m = .UNSUBSCRIBE topic x) ∨ ∃ x, m = .UNSUBSCRIBE_SDK x) →
      s.handle m ans = .ok (s1, r) → MarksOpen s1 := fun hm h1 =>
    (unsubscribed_induct (P := fun s => StoreOk s ∧ MarksOpen s)
      (fun _ _ _ _ h he => ⟨h.1.of_frame (unsubscribe_frame he), h.2.unsubscribe h.1 he⟩)
      hm ⟨hs, h⟩ h1).2
  cases a with
  | message m ans =>
    obtain ⟨⟨s1, r⟩, h1, rfl⟩ := map_ok he
    cases m with
    | ENABLED name params =>
      have hf := handle_frame hs h1
      have hsame := sameTopics_enableInstance s name params ans.enable
      have hopen := openAt_enableInstance s name params ans.enable
      simp only [State.handle, Except.ok.injEq] at h1
      rw [h1] at hsame hopen
      refine h.congr (fun t ht => hsame.flag t ▸ ht) (fun n p hp => ?_) (fun p t ho => ?_)
      · exact (hf.getInstance n).trans hp
      · exact (hopen p t).trans ho
    | DISABLED name => cases h1; exact h.disableInstance hok
    | DISABLED_FORCE name => cases h1; exact h.disableInstance hok
    | SUBSCRIBE topic x =>
      simp only [State.handle, Except.ok.injEq] at h1
      have := h.subscribe hs hok
      rwa [h1] at this
    | UNSUBSCRIBE topic x => exact hkeep (Or.inl ⟨topic, x, rfl⟩) h1
    | UNSUBSCRIBE_SDK x => exact hkeep (Or.inr ⟨x, rfl⟩) h1
    | PUBLISH_DATA d =>
      obtain ⟨s2, h2, he⟩ := map_ok h1
      cases he
      have hd := deliver_delivered d _ h2
      refine h.congr (fun t ht => ?_) (fun n p hp => ?_) (fun p t ho => ?_)
      · exact (sameTopics_publishData h2).flag t ▸ ht
      · exact (hd.frame.getInstance n).trans hp
      · exact (hd.openAt p t).trans ho
    | PUBLISH d =>
      simp only [State.handle, Except.ok.injEq] at h1
      have := h.publish hok
      rwa [h1] at this
    | SHUTDOWN => cases h1; exact h
  | tick =>
    obtain ⟨s1, h1, rfl⟩ := map_ok he
    have h2 : MarksOpen s1 := h.tick hok h1
    exact h2
  | load name file =>
    cases he
    rcases loadPlugin_cases s name file with he | ⟨interfaces, _, hl⟩
    · rw [he]; exact h
    · refine h.congr (fun t ht => ?_) hl.kept (fun p t ho => ?_)
      · rw [hl.eq] at ht; exact ht
      · rw [hl.eq]; exact ho
  | remove name =>
    cases he
    rcases remove_cases s name with he | ⟨plugin, hr⟩
    · rw [he]; exact h
    · intro t ht
      have ht : s.flag t = true := by rw [hr.eq] at ht; exact ht
      obtain ⟨p, hp, ho⟩ := h t ht
      have hn := hok plugin hr.found hr.disabled t (State.mem_keys_of_flag ht) ht
      refine ⟨p, by rw [hr.getInstance, if_neg hn]; exact hp, ?_⟩
      rw [hr.eq]; exact ho
  | reorder o =>
    cases he
    exact h.congr (fun t ht => flag_reorder s o t ▸ ht) (fun _ _ hp => hp) (fun _ _ ho => ho)

/-- SUBSCRIBED MEANS OPEN: in every run that never closes, refuses or forgets a marked topic, a
    `Subscribe` that does not fail leaves its instance enabled and the topic open there. -/
theorem subscribe_opens {s s' : State} (h : RunsOf KeepsMarked s) {topic : Topic} {x : Str}
    {ans : Answers} {r : Result} (ht : topic.NoColon)
    (he : s.handle (.SUBSCRIBE topic x) ans = .ok (s', r)) (hr : r.failed = false) :
    ∃ p, s'.getInstance topic.instanceName = some p ∧ s'.enabled p = true ∧
      s'.openAt p topic = true := by
  obtain ⟨hs, hm⟩ : StoreOk s ∧ MarksOpen s :=
    Runs.invariant (I := fun s => StoreOk s ∧ MarksOpen s)
      ⟨storeOk_init, fun t ht => by cases ht⟩
      (fun _ _ _ hs hok he => ⟨storeOk_step hs.1 he, hs.2.step hs.1 hok he⟩) h
  have hframe := handle_frame hs he
  simp only [State.handle, Except.ok.injEq] at he
  have ho := subscribe_outcome hs topic.getType x ans
  rw [he] at ho
  have hT := getTopicFromType_getType topic ht
  cases ho with
  | missing => simp [Result.failed, FAILED] at hr
  | notEnabled p _ _ hf => rw [hf] at hr; cases hr
  | refused p s1 _ _ _ hf => rw [hf] at hr; cases hr
  | known p s1 r hp h1 hf =>
    rw [hT] at hp hf
    obtain ⟨q, hq, hopen⟩ := hm topic hf
    rw [hp] at hq
    cases hq
    rw [← h1.same.openAt] at hopen
    refine ⟨p, (hframe.getInstance _).trans hp, ?_, ?_⟩
    · rw [State.subscribed_eq]; exact h1.enabled_self
    · rw [State.subscribed_eq]; exact hopen
  | opened p s1 hp h1 hf hof =>
    rw [hT] at hp hframe ⊢
    refine ⟨p, (hframe.getInstance _).trans hp, ?_, ?_⟩
    · rw [State.subscribed_eq]
      show ((s1.touch topic).openTopic p topic ans.openTopic).enabled p = true
      rw [State.enabled_openTopic]; exact h1.enabled_self
    · rw [State.subscribed_eq]
      show ((s1.touch topic).openTopic p topic ans.openTopic).openAt p topic = true
      rw [State.openAt_openTopic, if_pos ⟨rfl, rfl⟩, hof]; rfl

/-- Subscribed, run, unsubscribed and subscribed again; then a second subscriber comes. -/
theorem subscribe_opens_again :
    ∃ s s' r, RunsOf KeepsMarked s ∧ (sampleTopic "i").NoColon ∧
      s.handle (.SUBSCRIBE (sampleTopic "i") (str "8")) accepting = .ok (s', r) ∧
      r.failed = false ∧ ∃ p, s'.getInstance (sampleTopic "i").instanceName = some p ∧
        s'.enabled p = true ∧ s'.openAt p (sampleTopic "i") = true := by
  have h : RunsOf KeepsMarked _ := Runs.of_runAll KeepsMarked
    [sampleLoad, .message (.SUBSCRIBE (sampleTopic "i") (str "7")) accepting, .tick,
      .message (.UNSUBSCRIBE (sampleTopic "i") (str "7")) accepting,
      .message (.SUBSCRIBE (sampleTopic "i") (str "7")) accepting] .start rfl
  have ht : (sampleTopic "i").NoColon := by decide
  refine ⟨_, _, _, h, ht, rfl, ?_,
    @subscribe_opens _ _ h (sampleTopic "i") (str "8") accepting _ ht rfl ?_⟩ <;> decide

/-- Disabled in between, the instance is enabled again but the topic stays closed. -/
theorem subscribe_leaves_closed :
    ¬ ∀ s s' topic x ans r, Reach s → topic.NoColon →
      s.handle (.SUBSCRIBE topic x) ans = .ok (s', r) → r.failed = false →
      ∃ p, s'.getInstance topic.instanceName = some p ∧ s'.enabled p = true ∧
        s'.openAt p topic = true := by
  intro h
  obtain ⟨p, hp, _, hopen⟩ := h _ _ (sampleTopic "i") (str "8") accepting _
    (Runs.of_runAll (fun _ _ => True)
      [sampleLoad, .message (.SUBSCRIBE (sampleTopic "i") (str "7")) accepting,
        .message (.DISABLED (str "i")) accepting] .start rfl) (by decide) rfl (by decide)
  cases hp
  revert hopen
  decide

end OeAware

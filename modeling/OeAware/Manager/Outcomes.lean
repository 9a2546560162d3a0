import OeAware.Manager.Effects

/-! @src src/plugin_mgr/instance_run_handler.cpp | name:outcomes of the handler functions |
    scheme:state-machine

    Each handler function is inverted once: `Subscribe` and `Publish` into the list of states they
    can end in, the sweeping and scheduling loops into induction rules whose premises are the single
    updates a loop makes, each with the guard under which it makes it. -/

namespace OeAware
open Schemes

/-- What no message and no tick touches: the store, and what an object is born with. -/
structure Frame (s s' : State) : Prop where
  memoryStore : s'.memoryStore = s.memoryStore
  next : s'.next = s.next
  cycle : s'.cycle = s.cycle
  name : ∀ q, (s'.heap q).name = (s.heap q).name
  interface : ∀ q, (s'.heap q).interface = (s.heap q).interface

namespace Frame
variable {s s' s'' : State}

theorem refl (s : State) : Frame s s := ⟨rfl, rfl, rfl, fun _ => rfl, fun _ => rfl⟩

theorem trans (h : Frame s s') (h' : Frame s' s'') : Frame s s'' :=
  ⟨h'.memoryStore.trans h.memoryStore, h'.next.trans h.next, h'.cycle.trans h.cycle,
    fun q => (h'.name q).trans (h.name q), fun q => (h'.interface q).trans (h.interface q)⟩

theorem getInstance (h : Frame s s') (n : Str) : s'.getInstance n = s.getInstance n := by
  rw [State.getInstance, h.memoryStore]; rfl

theorem runOnce (h : Frame s s') (p : InstancePtr) : s'.runOnce p = s.runOnce p := by
  rw [State.runOnce, h.interface]; rfl

theorem period (h : Frame s s') (p : InstancePtr) : s'.period p = s.period p := by
  rw [State.period, h.interface]; rfl

theorem modify (s : State) (p : InstancePtr) (f : Instance → Instance)
    (hn : ∀ i, (f i).name = i.name) (hi : ∀ i, (f i).interface = i.interface) :
    Frame s (s.modify p f) := by
  refine ⟨rfl, rfl, rfl, fun q => ?_, fun q => ?_⟩ <;>
  · simp only [State.modify]
    split
    · first | exact hn _ | exact hi _
    · rfl

theorem call (s : State) (p : InstancePtr) (c : IfaceCall) : Frame s (s.call p c) :=
  ⟨rfl, rfl, rfl, fun _ => rfl, fun _ => rfl⟩

theorem push (s : State) (e : ScheduleInstance) : Frame s (s.push e) :=
  ⟨rfl, rfl, rfl, fun _ => rfl, fun _ => rfl⟩

theorem touch (s : State) (t : Topic) : Frame s (s.touch t) :=
  ⟨rfl, rfl, rfl, fun _ => rfl, fun _ => rfl⟩

theorem setFlag (s : State) (t : Topic) (b : Bool) : Frame s (s.setFlag t b) :=
  ⟨rfl, rfl, rfl, fun _ => rfl, fun _ => rfl⟩

theorem touchSubs (s : State) (type : Str) : Frame s (s.touchSubs type) :=
  ⟨rfl, rfl, rfl, fun _ => rfl, fun _ => rfl⟩

theorem eraseSub (s : State) (type x : Str) : Frame s (s.eraseSub type x) :=
  ⟨rfl, rfl, rfl, fun _ => rfl, fun _ => rfl⟩

theorem enableOk (s : State) (p : InstancePtr) : Frame s (s.enableOk p) := by
  refine (modify s p _ ?_ ?_).trans (push _ _) <;> exact fun _ => rfl

theorem closeInstance (s : State) (p : InstancePtr) : Frame s (s.closeInstance p) := by
  rw [State.closeInstance_eq]
  exact (modify s p (fun i => { i with enabled := false }) (fun _ => rfl) (fun _ => rfl)).trans
    ⟨rfl, rfl, rfl, fun _ => rfl, fun _ => rfl⟩

theorem openTopic (s : State) (p : InstancePtr) (t : Topic) (ret : Result) :
    Frame s (s.openTopic p t ret) := by
  rw [State.openTopic_eq]
  refine ⟨rfl, rfl, rfl, fun q => ?_, fun q => ?_⟩ <;> dsimp only <;> split <;> rfl

theorem closeTopic (s : State) (p : InstancePtr) (t : Topic) : Frame s (s.closeTopic p t) :=
  (call s p _).trans (modify _ p _ (fun _ => rfl) (fun _ => rfl))

theorem subscribed (s : State) (p : InstancePtr) (t : Topic) (type x : Str) :
    Frame s (s.subscribed p t type x) := by
  rw [State.subscribed_eq]; exact ⟨rfl, rfl, rfl, fun _ => rfl, fun _ => rfl⟩

end Frame

/-! ### The store -/

/-- The store and the queue point to objects that exist; the store files an object under its own
    name, and only objects of loaded plugins. -/
structure StoreOk (s : State) : Prop where
  named : ∀ n p, s.getInstance n = some p → (s.heap p).name = n
  alloc : ∀ n (p : ℕ), s.getInstance n = some p → p < s.next
  owned : ∀ n p, s.getInstance n = some p →
    ∃ P plugin, s.memoryStore.plugins.find P = some plugin ∧ p ∈ plugin.instances

theorem StoreOk.of_frame {s s' : State} (hs : StoreOk s) (hf : Frame s s') : StoreOk s' where
  named n p h := by rw [hf.name]; exact hs.named n p (by rwa [hf.getInstance] at h)
  alloc n p h := by rw [hf.next]; exact hs.alloc n p (by rwa [hf.getInstance] at h)
  owned n p h := by rw [hf.memoryStore]; exact hs.owned n p (by rwa [hf.getInstance] at h)

/-- Different names, different objects. -/
theorem StoreOk.inj {s : State} (hs : StoreOk s) {n m : Str} {p : InstancePtr}
    (hn : s.getInstance n = some p) (hm : s.getInstance m = some p) : n = m := by
  rw [← hs.named n p hn, hs.named m p hm]

/-! ### `Subscribe` and `Publish` -/

/-- How `Subscribe` and `Publish` get hold of an enabled instance: it is enabled already, or they
    enable it. -/
inductive Started (s : State) (p : InstancePtr) (params : Str) (ret : Result) : State → Prop
  | already : s.enabled p = true → Started s p params ret s
  | now : s.enabled p = false → ret.failed = false →
      Started s p params ret ((s.call p (.enable params ret)).enableOk p)

theorem Started.frame {s s1 : State} {p : InstancePtr} {params : Str} {ret : Result}
    (h : Started s p params ret s1) : Frame s s1 := by
  cases h with
  | already => exact Frame.refl s
  | now => exact (Frame.call s p _).trans (Frame.enableOk _ p)

/-- Starting an instance leaves flags and subscribers alone, and what is open stays open. -/
structure StartedSame (s s1 : State) (p : InstancePtr) : Prop where
  topicState : s1.topicState = s.topicState
  subscibers : s1.subscibers = s.subscibers
  openTopics : ∀ q, (s1.heap q).openTopics = (s.heap q).openTopics
  openAt : ∀ q u, s1.openAt q u = s.openAt q u
  enabled : ∀ q, s1.enabled q = (s.enabled q || decide (q = p))

theorem Started.same {s s1 : State} {p : InstancePtr} {params : Str} {ret : Result}
    (h : Started s p params ret s1) : StartedSame s s1 p := by
  cases h with
  | already h =>
    refine ⟨rfl, rfl, fun _ => rfl, fun _ _ => rfl, fun q => ?_⟩
    by_cases hq : q = p <;> simp [hq, h]
  | now _ _ =>
    refine ⟨rfl, rfl, fun q => ?_, fun _ _ => rfl, fun q => ?_⟩
    · by_cases hq : q = p <;> simp [State.enableOk, State.modify, State.push, State.call, hq]
    · rw [State.enabled_enableOk]; rfl

theorem Started.enabled_self {s s1 : State} {p : InstancePtr} {params : Str} {ret : Result}
    (h : Started s p params ret s1) : s1.enabled p = true := by
  rw [h.same.enabled]; simp

/-- Everything `Subscribe` can end in. -/
inductive SubscribeOutcome (s : State) (type x : Str) (ans : Answers) : State × Result → Prop
  | missing (text : Str) : s.getInstance (getTopicFromType type).instanceName = none →
      SubscribeOutcome s type x ans (s, ⟨some FAILED, text⟩)
  | notEnabled (p : InstancePtr) : s.getInstance (getTopicFromType type).instanceName = some p →
      s.enabled p = false → ans.enable.failed = true →
      SubscribeOutcome s type x ans
        (s.call p (.enable (getTopicFromType type).params ans.enable), ans.enable)
  | known (p : InstancePtr) (s1 : State) (r : Result) :
      s.getInstance (getTopicFromType type).instanceName = some p →
      Started s p (getTopicFromType type).params ans.enable s1 →
      s.flag (getTopicFromType type) = true → r.failed = false →
      SubscribeOutcome s type x ans
        ((s1.touch (getTopicFromType type)).subscribed p (getTopicFromType type) type x, r)
  | refused (p : InstancePtr) (s1 : State) :
      s.getInstance (getTopicFromType type).instanceName = some p →
      Started s p (getTopicFromType type).params ans.enable s1 →
      s.flag (getTopicFromType type) = false → ans.openTopic.failed = true →
      SubscribeOutcome s type x ans
        (((s1.touch (getTopicFromType type)).openTopic p (getTopicFromType type)
          ans.openTopic).closeInstance p, ans.openTopic)
  | opened (p : InstancePtr) (s1 : State) :
      s.getInstance (getTopicFromType type).instanceName = some p →
      Started s p (getTopicFromType type).params ans.enable s1 →
      s.flag (getTopicFromType type) = false → ans.openTopic.failed = false →
      SubscribeOutcome s type x ans
        ((((s1.touch (getTopicFromType type)).openTopic p (getTopicFromType type)
          ans.openTopic).setFlag (getTopicFromType type) true).subscribed p
            (getTopicFromType type) type x, ans.openTopic)

theorem subscribeTo_outcome {s s1 : State} (hs : StoreOk s) {p : InstancePtr} {type x : Str}
    {ans : Answers} {r : Result} (hp : s.getInstance (getTopicFromType type).instanceName = some p)
    (h1 : Started s p (getTopicFromType type).params ans.enable s1) (hr : r.failed = false) :
    SubscribeOutcome s type x ans (s1.subscribeTo p type x ans r) := by
  have hflag : (s1.touch (getTopicFromType type)).flag (getTopicFromType type) =
      s.flag (getTopicFromType type) := by
    rw [State.flag_touch, State.flag, h1.same.topicState]; rfl
  unfold State.subscribeTo
  simp only [hflag]
  by_cases hf : s.flag (getTopicFromType type) = true
  · rw [if_pos hf]; exact .known p s1 r hp h1 hf hr
  · rw [if_neg hf]
    by_cases ho : ans.openTopic.failed = true
    · rw [if_pos ho]
      -- the object is still filed under its own name, so it is the one that is disabled
      have hframe : Frame s ((s1.touch (getTopicFromType type)).openTopic p (getTopicFromType type)
          ans.openTopic) := h1.frame.trans ((Frame.touch s1 _).trans (Frame.openTopic _ _ _ _))
      rw [hframe.name, hs.named _ _ hp,
        State.disableInstance_some ((hframe.getInstance _).trans hp)]
      exact .refused p s1 hp h1 (Bool.eq_false_iff.mpr hf) ho
    · rw [if_neg ho]
      exact .opened p s1 hp h1 (Bool.eq_false_iff.mpr hf) (Bool.eq_false_iff.mpr ho)

theorem enableInstance_eq {s : State} {name params : Str} {ret : Result} {p : InstancePtr}
    (hp : s.getInstance name = some p) : s.enableInstance name params ret =
      if ret.failed then (s.call p (.enable params ret), ret)
      else ((s.call p (.enable params ret)).enableOk p, ret) := by
  rw [State.enableInstance, hp]

/-- Everything `EnableInstance` can end in. -/
inductive EnableOutcome (s : State) (name params : Str) (ret : Result) : State × Result → Prop
  | missing (text : Str) : s.getInstance name = none →
      EnableOutcome s name params ret (s, ⟨some FAILED, text⟩)
  | failed (p : InstancePtr) : s.getInstance name = some p → ret.failed = true →
      EnableOutcome s name params ret (s.call p (.enable params ret), ret)
  | enabled (p : InstancePtr) : s.getInstance name = some p → ret.failed = false →
      EnableOutcome s name params ret ((s.call p (.enable params ret)).enableOk p, ret)

theorem enable_outcome (s : State) (name params : Str) (ret : Result) :
    EnableOutcome s name params ret (s.enableInstance name params ret) := by
  cases hp : s.getInstance name with
  | none =>
    rw [State.enableInstance, hp]
    exact .missing _ hp
  | some p =>
    rw [enableInstance_eq hp]
    split
    · rename_i hr
      exact .failed p hp hr
    · rename_i hr
      exact .enabled p hp (Bool.eq_false_iff.mpr hr)

/-- RULE: `DisableInstance` does nothing or is `CloseInstance`. -/
theorem disableInstance_induct {P : State → Prop} {s : State} {name : Str} (h : P s)
    (hclose : ∀ p, s.getInstance name = some p → P (s.closeInstance p)) :
    P (s.disableInstance name) := by
  cases hp : s.getInstance name with
  | none => rw [State.disableInstance_none hp]; exact h
  | some p => rw [State.disableInstance_some hp]; exact hclose p hp

theorem subscribe_outcome {s : State} (hs : StoreOk s) (type x : Str) (ans : Answers) :
    SubscribeOutcome s type x ans (s.subscribe type x ans) := by
  unfold State.subscribe
  dsimp only
  cases hp : s.getInstance (getTopicFromType type).instanceName with
  | none => exact .missing _ hp
  | some p =>
    dsimp only
    by_cases he : s.enabled p = true
    · rw [if_pos he]
      exact subscribeTo_outcome hs hp (.already he) rfl
    · rw [if_neg he, hs.named _ _ hp, enableInstance_eq hp]
      have he' := Bool.eq_false_iff.mpr he
      by_cases hen : ans.enable.failed = true
      · rw [if_pos hen, if_pos hen]
        exact .notEnabled p hp he' hen
      · rw [if_neg hen, if_neg hen]
        have hen' := Bool.eq_false_iff.mpr hen
        exact subscribeTo_outcome hs hp (.now he' hen') hen'

/-- Everything `Publish` can end in. -/
inductive PublishOutcome (s : State) (d : DataList) (ans : Answers) : State × Result → Prop
  | rejected (text : Str) : PublishOutcome s d ans (s, ⟨some FAILED, text⟩)
  | notEnabled (p : InstancePtr) : s.getInstance d.topic.instanceName = some p →
      s.unsupported p d.topic = false → s.enabled p = false → ans.enable.failed = true →
      PublishOutcome s d ans
        ((s.call p (.updateData d)).call p (.enable [] ans.enable), ans.enable)
  | noTopic (p : InstancePtr) (s1 : State) (r : Result) :
      s.getInstance d.topic.instanceName = some p → s.unsupported p d.topic = false →
      Started (s.call p (.updateData d)) p [] ans.enable s1 → d.topic.topicName = [] →
      PublishOutcome s d ans (s1, r)
  | topic (p : InstancePtr) (s1 : State) (r : Result) :
      s.getInstance d.topic.instanceName = some p → s.unsupported p d.topic = false →
      Started (s.call p (.updateData d)) p [] ans.enable s1 → d.topic.topicName ≠ [] →
      PublishOutcome s d ans (s1.openTopic p d.topic ans.openTopic, r)

theorem publishTo_outcome {s s1 : State} {p : InstancePtr} {d : DataList} {ans : Answers}
    (hp : s.getInstance d.topic.instanceName = some p) (hu : s.unsupported p d.topic = false)
    (h1 : Started (s.call p (.updateData d)) p [] ans.enable s1) :
    PublishOutcome s d ans (s1.publishTo p d.topic ans) := by
  unfold State.publishTo
  split
  · rename_i ht
    dsimp only
    split <;> exact .topic p s1 _ hp hu h1 ht
  · rename_i ht
    exact .noTopic p s1 _ hp hu h1 (not_not.mp ht)

theorem publish_outcome (s : State) (d : DataList) (ans : Answers) :
    PublishOutcome s d ans (s.publish d ans) := by
  unfold State.publish
  dsimp only
  cases hp : s.getInstance d.topic.instanceName with
  | none => exact .rejected _
  | some p =>
    dsimp only
    split
    · exact .rejected _
    · rename_i hu
      have hu' := Bool.eq_false_iff.mpr hu
      have hp' : (s.call p (.updateData d)).getInstance d.topic.instanceName = some p := hp
      by_cases he : (s.call p (.updateData d)).enabled p = true
      · rw [if_pos he]
        exact publishTo_outcome hp hu' (.already he)
      · rw [if_neg he, enableInstance_eq hp']
        have he' := Bool.eq_false_iff.mpr he
        by_cases hen : ans.enable.failed = true
        · rw [if_pos hen, if_pos hen]
          exact .notEnabled p hp hu' he' hen
        · rw [if_neg hen, if_neg hen]
          exact publishTo_outcome hp hu' (.now he' (Bool.eq_false_iff.mpr hen))

/-! ### `PublishData`, `UnsubscribeSdk` and `Schedule` -/

/-- Delivering data leaves everything but the data queue and the call history alone, and the calls
    it makes open, close and run nothing. -/
structure Delivered (s s' : State) : Prop where
  eq : s' = { s with recvData := s'.recvData, calls := s'.calls }
  openAt : ∀ q t, s'.openAt q t = s.openAt q t
  runs : ∀ q, s'.runs q = s.runs q

/-- RULE: what survives an event for a connection and an `UpdateData` survives `PublishData`. -/
theorem deliver_induct {P : State → Prop} {d : DataList}
    (hqueue : ∀ s events, P s → P { s with recvData := events })
    (hcall : ∀ s p, P s → P (s.call p (.updateData d))) : ∀ (l : List Str) {s s' : State}, P s →
    s.deliver d l = .ok s' → P s'
  | [], s, s', h, he => by
    simp only [State.deliver, Except.ok.injEq] at he
    exact he ▸ h
  | x :: l, s, s', h, he => by
    rw [State.deliver] at he
    split at he
    · exact deliver_induct hqueue hcall l (hqueue s _ h) he
    · split at he
      · cases he
      · rename_i p _
        exact deliver_induct hqueue hcall l (hcall s p h) he

theorem deliver_delivered (d : DataList) (l : List Str) {s s' : State} (he : s.deliver d l = .ok s') :
    Delivered s s' := by
  refine deliver_induct (P := Delivered s) ?_ ?_ l ⟨rfl, fun _ _ => rfl, fun _ => rfl⟩ he
  · rintro s1 events ⟨h, ho, hr⟩
    exact ⟨by rw [h], ho, hr⟩
  · rintro s1 p ⟨h, ho, hr⟩
    refine ⟨by rw [h]; rfl, ho, fun q => ?_⟩
    rw [← hr q]
    simp [State.runs, runsIn, State.call]

theorem deliver_ok (d : DataList) : ∀ (l : List Str) (s : State),
    (∀ x ∈ l, State.isSdk x = false → s.isInstanceExist x = true) → ∃ s', s.deliver d l = .ok s'
  | [], s, _ => ⟨s, rfl⟩
  | x :: l, s, h => by
    rw [State.deliver]
    split
    · exact deliver_ok d l _ (fun y hy => h y (List.mem_cons_of_mem _ hy))
    · rename_i hx
      have hex := h x (List.mem_cons_self ..) (Bool.eq_false_iff.mpr hx)
      obtain ⟨p, hp⟩ := Option.isSome_iff_exists.mp hex
      have hp' : s.getInstance x = some p := hp
      rw [hp']
      exact deliver_ok d l _ (fun y hy => h y (List.mem_cons_of_mem _ hy))

/-- RULE: what survives taking a subscriber out of one set, with the sweep that follows, survives
    `UnsubscribeSdk`. -/
theorem unsubscribeLoop_induct {P : State → Prop} {x : Str}
    (hstep : ∀ s s' type, P s → x ∈ s.subs type → (s.eraseSub type x).updateInstance = .ok s' →
      P s') : ∀ (types : List Str) {s s' : State}, P s → s.unsubscribeLoop x types = .ok s' → P s'
  | [], s, s', h, he => by
    simp only [State.unsubscribeLoop, Except.ok.injEq] at he
    exact he ▸ h
  | type :: types, s, s', h, he => by
    rw [State.unsubscribeLoop] at he
    split at he
    · rename_i hm
      split at he
      · cases he
      · rename_i s1 h1
        exact unsubscribeLoop_induct hstep types (hstep s s1 type h hm h1) he
    · exact unsubscribeLoop_induct hstep types h he

/-- Everything one round of `Schedule` can do. -/
inductive RoundOutcome (s : State) (e : ScheduleInstance) (rest : List ScheduleInstance) :
    State → Prop
  | dropped : s.enabled e.ptr = false → RoundOutcome s e rest { s with scheduleQueue := rest }
  | once : s.enabled e.ptr = true → s.runOnce e.ptr = true →
      RoundOutcome s e rest
        ((({ s with scheduleQueue := rest } : State).call e.ptr .run).closeInstance e.ptr)
  | again : s.enabled e.ptr = true → s.runOnce e.ptr = false →
      RoundOutcome s e rest
        ((({ s with scheduleQueue := rest } : State).call e.ptr .run).push
          ⟨e.ptr, s.time + s.period e.ptr⟩)

theorem scheduleOne_outcome {s s' : State} (h : s.scheduleOne = some s') :
    ∃ e rest, s.scheduleQueue = e :: rest ∧ e.time = s.time ∧ RoundOutcome s e rest s' := by
  unfold State.scheduleOne at h
  split at h
  · cases h
  · rename_i e rest hq
    split at h
    · cases h
    · rename_i ht
      have ht' : e.time = s.time := not_not.mp ht
      refine ⟨e, rest, hq, ht', ?_⟩
      dsimp only at h
      split at h
      · rename_i hen
        split at h
        · rename_i hro
          cases h; exact .once hen hro
        · rename_i hro
          cases h
          rw [ht']
          exact .again hen (Bool.eq_false_iff.mpr hro)
      · rename_i hen
        cases h; exact .dropped (Bool.eq_false_iff.mpr hen)

theorem scheduleOne_none {s : State} (h : s.scheduleOne = none) :
    ∀ e rest, s.scheduleQueue = e :: rest → e.time ≠ s.time := by
  intro e rest hq
  unfold State.scheduleOne at h
  rw [hq] at h
  by_contra ht
  simp only [ht, ne_eq, not_true_eq_false, if_false] at h
  split at h
  · split at h <;> cases h
  · cases h

/-- RULE: what survives one round survives `Schedule`. -/
theorem scheduleLoop_induct {P : State → Prop}
    (hround : ∀ s s', P s → s.scheduleOne = some s' → P s') : ∀ (n : ℕ) {s s' : State}, P s →
    State.scheduleLoop n s = .ok s' → P s' ∧ s'.scheduleOne = none
  | 0, s, s', _, he => by simp [State.scheduleLoop] at he
  | n + 1, s, s', h, he => by
    rw [State.scheduleLoop] at he
    split at he
    · rename_i hn
      cases he; exact ⟨h, hn⟩
    · rename_i s1 h1
      exact scheduleLoop_induct hround n (hround s s1 h h1) he

end OeAware

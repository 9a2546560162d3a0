import OeAware.Manager.Opening

/-! @src src/plugin_mgr/instance_run_handler.cpp, plugin.cpp | name:Subscribe on its failure path |
    scheme:state-machine

    When a plugin refuses a topic, `Subscribe` disables the instance whether or not it was enabled
    before. For an instance that `Subscribe` itself has just enabled this puts everything back: what
    `Instance::Disable` closes at a disabled instance is closed already, in every reachable state. For
    one that was running it takes the topics of the other subscribers with it. -/

namespace OeAware
open Schemes

/-! ### What is closed at a disabled instance -/

/-- At a disabled instance everything that `Disable` would close is closed already. -/
def Shut (s : State) : Prop :=
  ∀ p, s.enabled p = false → ∀ t ∈ s.closedBy p, s.openAt p t = false

theorem Shut.congr {s s' : State} (h : Shut s)
    (he : ∀ q, s'.enabled q = false → s.enabled q = false)
    (hc : ∀ q, s'.enabled q = false → ∀ t ∈ s'.closedBy q, t ∈ s.closedBy q)
    (ho : ∀ q t, s'.enabled q = false → s'.openAt q t = true → s.openAt q t = true) : Shut s' := by
  intro q hq t ht
  refine Bool.eq_false_iff.mpr (fun hopen => ?_)
  have := h q (he q hq) t (hc q hq t ht)
  rw [ho q t hq hopen] at this; cases this

theorem Shut.closeInstance {s : State} (h : Shut s) (p : InstancePtr) :
    Shut (s.closeInstance p) := by
  intro q hq t ht
  have ht : t ∈ s.closedBy q := by
    rw [State.closedBy, State.closeInstance_eq] at ht
    dsimp only at ht
    split at ht <;> exact ht
  rw [State.openAt_closeInstance]
  by_cases hpq : p = q
  · subst hpq
    simp [ht]
  · rw [State.enabled_closeInstance] at hq
    have hne : ¬ q = p := fun h => hpq h.symm
    simp only [hne, decide_false, Bool.not_false, Bool.and_true] at hq
    simp [h q hq t ht]

theorem Shut.disableInstance {s : State} (h : Shut s) (name : Str) :
    Shut (s.disableInstance name) :=
  disableInstance_induct h (fun p _ => h.closeInstance p)

theorem Shut.started {s s1 : State} {p : InstancePtr} {params : Str} {ret : Result} (h : Shut s)
    (h1 : Started s p params ret s1) : Shut s1 := by
  refine h.congr (fun q hq => ?_) (fun q _ t ht => ?_) (fun q t _ ho => ?_)
  · rw [h1.same.enabled, Bool.or_eq_false_iff] at hq; exact hq.1
  · rwa [State.closedBy, h1.same.openTopics] at ht
  · rwa [h1.same.openAt] at ho

/-- Opening a topic at an enabled instance concerns no disabled one. -/
theorem Shut.openTopic {s : State} {p : InstancePtr} (h : Shut s) (hp : s.enabled p = true)
    (t : Topic) (ret : Result) : Shut (s.openTopic p t ret) := by
  have hne : ∀ q, (s.openTopic p t ret).enabled q = false → q ≠ p ∧ s.enabled q = false := by
    intro q hq
    rw [State.enabled_openTopic] at hq
    refine ⟨?_, hq⟩
    rintro rfl; rw [hp] at hq; cases hq
  refine h.congr (fun q hq => (hne q hq).2) (fun q hq u hu => ?_) (fun q u hq ho => ?_)
  · rw [State.closedBy, State.openTopic_eq] at hu
    simp only [(hne q hq).1, false_and, if_false] at hu
    exact hu
  · rw [State.openAt_openTopic, if_neg (fun hh => (hne q hq).1 hh.1.symm)] at ho
    exact ho

theorem Shut.unsubscribe {s s' : State} (h : Shut s) {type x : Str}
    (he : s.unsubscribe type x = .ok s') : Shut s' := by
  have h0 : Shut (s.eraseSub type x) := h
  refine updateInstance_induct (P := Shut) ?_ ?_ h0 he
  · intro s p t h _ _ _
    refine h.congr (fun q hq => ?_) (fun q _ u hu => ?_) (fun q u _ ho => ?_)
    · rw [← State.enabled_closeTopic s p q t]; exact hq
    · obtain ⟨type, hm, rfl⟩ := List.mem_map.mp hu
      refine List.mem_map.mpr ⟨type, ?_, rfl⟩
      simp only [State.setFlag, State.closeTopic, State.modify, State.call] at hm
      split at hm
      · exact (USet.mem_erase.mp hm).2
      · exact hm
    · have ho : (s.closeTopic p t).openAt q u = true := ho
      rw [State.openAt_closeTopic] at ho
      split at ho
      · cases ho
      · exact ho
  · exact fun s _ p h _ _ _ _ => h.closeInstance p

theorem Shut.handle {s s' : State} {m : InstanceRunMessage} {ans : Answers} {r : Result}
    (hs : StoreOk s) (h : Shut s) (he : s.handle m ans = .ok (s', r)) : Shut s' := by
  cases m with
  | ENABLED name params =>
    simp only [State.handle, Except.ok.injEq] at he
    have ho := enable_outcome s name params ans.enable
    rw [he] at ho
    cases ho with
    | missing => exact h
    | failed => exact h
    | enabled p =>
      refine h.congr (fun q hq => ?_) (fun q _ t ht => ?_) (fun q t _ ho => ho)
      · rw [State.enabled_enableOk, Bool.or_eq_false_iff] at hq; exact hq.1
      · simp only [State.closedBy, State.enableOk, State.push, State.modify, State.call] at ht
        split at ht <;> exact ht
  | DISABLED name => cases he; exact h.disableInstance name
  | DISABLED_FORCE name => cases he; exact h.disableInstance name
  | SUBSCRIBE topic x =>
    simp only [State.handle, Except.ok.injEq] at he
    have ho := subscribe_outcome hs topic.getType x ans
    rw [he] at ho
    cases ho with
    | missing => exact h
    | notEnabled p => exact h
    | known p s1 r _ h1 =>
      have h2 : Shut s1 := h.started h1
      rw [State.subscribed_eq]; exact h2
    | refused p s1 _ h1 =>
      have h2 : Shut s1 := h.started h1
      exact (Shut.openTopic (s := s1.touch _) h2 h1.enabled_self _ _).closeInstance p
    | opened p s1 _ h1 =>
      have h2 : Shut s1 := h.started h1
      rw [State.subscribed_eq]
      exact Shut.openTopic (s := s1.touch _) h2 h1.enabled_self _ _
  | UNSUBSCRIBE topic x =>
    exact unsubscribed_induct (fun _ _ _ _ h he => Shut.unsubscribe h he)
      (Or.inl ⟨topic, x, rfl⟩) h he
  | UNSUBSCRIBE_SDK x =>
    exact unsubscribed_induct (fun _ _ _ _ h he => Shut.unsubscribe h he) (Or.inr ⟨x, rfl⟩) h he
  | PUBLISH_DATA d =>
    obtain ⟨s1, h1, he⟩ := map_ok he
    cases he
    have hd := deliver_delivered d _ h1
    refine h.congr (fun q hq => ?_) (fun q _ t ht => ?_) (fun q t _ ho => ?_)
    · rw [hd.eq] at hq; exact hq
    · rw [hd.eq] at ht; exact ht
    · rw [hd.openAt] at ho; exact ho
  | PUBLISH d =>
    simp only [State.handle, Except.ok.injEq] at he
    have ho := publish_outcome s d ans
    rw [he] at ho
    cases ho with
    | rejected => exact h
    | notEnabled p => exact h
    | noTopic p s1 r _ _ h1 => exact Shut.started (s := s.call p (.updateData d)) h h1
    | topic p s1 r _ _ h1 =>
      exact (Shut.started (s := s.call p (.updateData d)) h h1).openTopic h1.enabled_self _ _
  | SHUTDOWN => cases he; exact h

theorem Shut.step {s s' : State} {a : Action} (hs : StoreOk s) (h : Shut s)
    (he : OeAware.step s a = .ok s') : Shut s' := by
  cases a with
  | message m ans =>
    obtain ⟨⟨s1, r⟩, h1, rfl⟩ := map_ok he
    exact h.handle hs h1
  | tick =>
    obtain ⟨s1, h1, rfl⟩ := map_ok he
    have h2 : Shut s1 := by
      refine (scheduleLoop_induct (P := Shut) ?_ _ h h1).1
      intro s s' h h1
      obtain ⟨e, rest, _, _, ho⟩ := scheduleOne_outcome h1
      cases ho with
      | dropped => exact h
      | once =>
        exact Shut.closeInstance (s := ({ s with scheduleQueue := rest } : State).call e.ptr .run)
          h e.ptr
      | again => exact h
    exact h2
  | load name file =>
    cases he
    rcases loadPlugin_cases s name file with he | ⟨interfaces, _, hl⟩
    · rw [he]; exact h
    · intro p hp t ht
      by_cases hnew : s.next ≤ p ∧ p < (s.loadPlugin name file).1.next
      · obtain ⟨i, _, hh⟩ := hl.new p hnew.1 hnew.2
        rw [State.closedBy, hh] at ht; cases ht
      · have hold := hl.old p hnew
        rw [State.enabled, hold] at hp
        rw [State.closedBy, hold] at ht
        rw [hl.eq]; exact h p hp t ht
  | remove name =>
    cases he
    rcases remove_cases s name with he | ⟨plugin, hr⟩
    · rw [he]; exact h
    · rw [hr.eq]; exact h
  | reorder o =>
    cases he
    refine h.congr (fun q hq => hq) (fun q _ t ht => ?_) (fun q t _ ho => ho)
    obtain ⟨type, hm, rfl⟩ := List.mem_map.mp ht
    exact List.mem_map.mpr ⟨type, USet.mem_reorder.mp hm, rfl⟩

theorem shut_reach {s : State} (h : Reach s) : Shut s :=
  (Runs.invariant (I := fun s => StoreOk s ∧ Shut s)
    ⟨storeOk_init, fun p _ t ht => by cases ht⟩
    (fun _ _ _ hs _ he => ⟨storeOk_step hs.1 he, hs.2.step hs.1 he⟩) h).2

/-- What other subscribers depend on: who is enabled, what is open, the marks, the subscriber sets,
    and the entries of enabled instances. -/
structure Unchanged (s s' : State) : Prop where
  enabled : ∀ q, s'.enabled q = s.enabled q
  openAt : ∀ q t, s'.openAt q t = s.openAt q t
  topicState : ∀ t, s'.flag t = s.flag t
  subscibers : ∀ type, s'.subscibers.find type = s.subscibers.find type
  scheduleQueue : (s'.scheduleQueue.filter (fun e => s'.enabled e.ptr)).Perm
    (s.scheduleQueue.filter (fun e => s.enabled e.ptr))

theorem Unchanged.refl (s : State) : Unchanged s s :=
  ⟨fun _ => rfl, fun _ _ => rfl, fun _ => rfl, fun _ => rfl, List.Perm.refl _⟩

/-- The state in which `Subscribe` returns when the plugin has refused the topic. -/
def State.refusedAt (s1 : State) (p : InstancePtr) (T : Topic) (ret : Result) : State :=
  ((s1.touch T).openTopic p T ret).closeInstance p

section Refused
variable {s s1 : State} {p : InstancePtr} {T : Topic} {ans : Answers}
  (h1 : Started s p T.params ans.enable s1) (ho : ans.openTopic.failed = true)
include h1

theorem enabled_refusedAt (q : InstancePtr) :
    (s1.refusedAt p T ans.openTopic).enabled q = (s.enabled q && !decide (q = p)) := by
  rw [State.refusedAt, State.enabled_closeInstance, State.enabled_openTopic,
    show (s1.touch T).enabled q = s1.enabled q from rfl, h1.same.enabled]
  by_cases hq : q = p <;> simp [hq]

include ho in
theorem openAt_refusedAt (q : InstancePtr) (u : Topic) :
    (s1.refusedAt p T ans.openTopic).openAt q u =
      (s.openAt q u && !decide (p = q ∧ (u = T ∨ u ∈ s.closedBy p))) := by
  have hcode : ans.openTopic.code ≠ some OK := by
    intro hc; simp [Result.failed, hc, OK] at ho
  have hcl : ((s1.touch T).openTopic p T ans.openTopic).closedBy p = s.closedBy p := by
    rw [State.closedBy, State.openTopic_eq]
    simp only [hcode, and_false, if_false]
    rw [State.closedBy, ← h1.same.openTopics]; rfl
  rw [State.refusedAt, State.openAt_closeInstance, hcl, State.openAt_openTopic, ho,
    show (s1.touch T).openAt q u = s1.openAt q u from rfl, h1.same.openAt]
  by_cases hq : p = q
  · by_cases hu : u = T
    · simp [hq, hu]
    · simp [hq, hu, Ne.symm hu]
  · simp [hq]

theorem scheduleQueue_refusedAt (he : s.enabled p = false) :
    ((s1.refusedAt p T ans.openTopic).scheduleQueue.filter
      (fun e => (s1.refusedAt p T ans.openTopic).enabled e.ptr)).Perm
    (s.scheduleQueue.filter (fun e => s.enabled e.ptr)) := by
  -- `p` is disabled before and after, so the entry it may have got does not count
  have hpred : ∀ q, (s1.refusedAt p T ans.openTopic).enabled q = s.enabled q := by
    intro q
    rw [enabled_refusedAt h1]
    by_cases hq : q = p <;> simp [hq, he]
  have hq : (s1.refusedAt p T ans.openTopic).scheduleQueue = s1.scheduleQueue := by
    rw [State.refusedAt, State.closeInstance_eq, State.openTopic_eq]; rfl
  simp only [hpred, hq]
  rcases h1.schedule with hquiet | ⟨_, _, hn⟩
  · rw [hquiet.scheduleQueue]
  · refine (hn.scheduleQueue.perm.filter _).trans ?_
    rw [List.filter_cons_of_neg]
    simp [State.firstEntry, he]

include ho in
/-- A refusal goes unnoticed exactly when the instance was disabled and the topic not open. -/
theorem unchanged_refusedAt_iff (hshut : Shut s) :
    Unchanged s (s1.refusedAt p T ans.openTopic) ↔
      s.enabled p = false ∧ s.openAt p T = false := by
  constructor
  · intro h
    have hen := h.enabled p
    have hop := h.openAt p T
    rw [enabled_refusedAt h1] at hen
    rw [openAt_refusedAt h1 ho] at hop
    simp only [decide_true, Bool.not_true, Bool.and_false, true_or, and_self] at hen hop
    exact ⟨hen.symm, hop.symm⟩
  · rintro ⟨he, hopen⟩
    obtain ⟨ht, hsb⟩ := topics_openTopic (s1.touch T) p T ans.openTopic
    obtain ⟨ht', hsb'⟩ := topics_closeInstance ((s1.touch T).openTopic p T ans.openTopic) p
    refine ⟨fun q => ?_, fun q u => ?_, fun t => ?_, fun type => ?_, scheduleQueue_refusedAt h1 he⟩
    · rw [enabled_refusedAt h1]
      by_cases hq : q = p <;> simp [hq, he]
    · rw [openAt_refusedAt h1 ho]
      by_cases hc : p = q ∧ (u = T ∨ u ∈ s.closedBy p)
      · obtain ⟨rfl, rfl | hu⟩ := hc
        · simp [hopen]
        · simp [hshut p he u hu]
      · simp [hc]
    · rw [State.refusedAt, flag_congr (ht'.trans ht), State.flag_touch,
        flag_congr h1.same.topicState]
    · rw [State.refusedAt, hsb', hsb, ← h1.same.subscibers]; rfl

end Refused

/-- NO TRACE: in every reachable state, a failed `Subscribe` leaves what others depend on as it was
    if and only if, should the plugin be asked and refuse, the instance was disabled before and the
    topic was not open there. -/
theorem failed_subscribe_unchanged_iff {s s' : State} (h : Reach s) {topic : Topic} {x : Str}
    {ans : Answers} {r : Result} (he : s.handle (.SUBSCRIBE topic x) ans = .ok (s', r)) :
    (r.failed = true → Unchanged s s') ↔
    ∀ p ∈ s.getInstance (getTopicFromType topic.getType).instanceName, s.starts p ans = true →
      s.flag (getTopicFromType topic.getType) = false → ans.openTopic.failed = true →
      s.enabled p = false ∧ s.openAt p (getTopicFromType topic.getType) = false := by
  have hs := storeOk_runs h
  simp only [State.handle, Except.ok.injEq] at he
  have ho := subscribe_outcome hs topic.getType x ans
  rw [he] at ho
  cases ho with
  | missing text hp =>
    refine ⟨fun _ q hq => ?_, fun _ _ => .refl s⟩
    rw [hp] at hq; cases hq
  | notEnabled p hp hen hf =>
    refine ⟨fun _ q hq hst => ?_, fun _ _ => ?_⟩
    · rw [hp] at hq
      cases hq
      simp [State.starts, hen, hf] at hst
    · exact ⟨fun _ => rfl, fun _ _ => rfl, fun _ => rfl, fun _ => rfl, List.Perm.refl _⟩
  | known p s1 r hp h1 hf hr =>
    refine ⟨fun _ _ _ _ hn => ?_, fun _ hr' => ?_⟩
    · rw [hf] at hn; cases hn
    · rw [hr] at hr'; cases hr'
  | opened p s1 hp h1 hf hr =>
    refine ⟨fun _ _ _ _ _ hn => ?_, fun _ hr' => ?_⟩
    · rw [hr] at hn; cases hn
    · rw [hr] at hr'; cases hr'
  | refused p s1 hp h1 hf hr =>
    have hiff := unchanged_refusedAt_iff h1 hr (shut_reach h)
    refine ⟨fun hu q hq _ _ _ => ?_, fun hall _ => ?_⟩
    · rw [hp] at hq
      cases hq
      exact hiff.mp (hu hr)
    · exact hiff.mpr (hall p hp h1.starts hf hr)

/-- Refused at an instance that nobody had enabled: nothing is left of the attempt. -/
theorem failed_subscribe_unchanged_fresh :
    ∃ s s' r, Reach s ∧
      s.handle (.SUBSCRIBE (sampleTopic "i") (str "7")) refusing = .ok (s', r) ∧
      r.failed = true ∧ Unchanged s s' := by
  have h : Reach _ := Runs.of_runAll (fun _ _ => True)
    [sampleLoad, .message (.ENABLED (str "j") []) accepting] .start rfl
  have hiff := @failed_subscribe_unchanged_iff _ _ h (sampleTopic "i") (str "7") refusing _ rfl
  exact ⟨_, _, _, h, rfl, by decide, hiff.mpr (by decide) (by decide)⟩

/-- Refused at an instance with a live subscriber: the instance is disabled under it. -/
theorem failed_subscribe_disables :
    ¬ ∀ s s' topic x ans r, Reach s → s.handle (.SUBSCRIBE topic x) ans = .ok (s', r) →
      r.failed = true → Unchanged s s' := by
  intro h
  have hu := (h _ _ ⟨str "i", str "u", []⟩ (str "8") refusing _
    (Runs.of_runAll (fun _ _ => True)
      [sampleLoad, .message (.SUBSCRIBE (sampleTopic "i") (str "7")) accepting] .start rfl)
    rfl (by decide)).enabled 0
  revert hu
  decide

end OeAware

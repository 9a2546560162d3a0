import OeAware.Manager.Topics

/-! @src src/plugin_mgr/event/remove_handler.cpp, instance_run_handler.cpp, memory_store.h |
    name:Remove, UpdateInstance, PublishData | scheme:state-machine

    `UpdateInstance` and `PublishData` follow `GetInstance` without looking at the result. `Remove`
    takes names out of the store and leaves `topicState` and the subscriber sets as they are, so a
    later message can follow a name to nothing. It never does as long as only names are removed that
    neither of the two tables mentions. -/

namespace OeAware
open Schemes

/-- Every name that `UpdateInstance` or `PublishData` may look up is in the store. -/
structure Present (s : State) : Prop where
  keys : ∀ t ∈ s.topicState.keys, s.isInstanceExist t.instanceName = true
  subs : ∀ type x, x ∈ s.subs type → State.isSdk x = false → s.isInstanceExist x = true

/-- A plugin's own subscriptions are made under a name in the store, and names are removed only when
    neither `topicState` nor a subscriber set mentions them. -/
def RemovesUnmentioned (s : State) : Action → Prop
  | .message (.SUBSCRIBE _ x) _ => State.isSdk x = false → s.isInstanceExist x = true
  | .remove name => ∀ plugin ∈ s.memoryStore.plugins.find name,
      plugin.instances.any s.enabled = false → ∀ n ∈ s.instanceNames plugin,
      (∀ t ∈ s.topicState.keys, t.instanceName ≠ n) ∧
      ∀ type ∈ s.subscibers.keys, State.isSdk n = false → n ∉ s.subs type
  | _ => True

instance (s : State) : ∀ a, Decidable (RemovesUnmentioned s a)
  | .message (.SUBSCRIBE _ x) _ =>
    inferInstanceAs (Decidable (State.isSdk x = false → s.isInstanceExist x = true))
  | .remove name => inferInstanceAs (Decidable (∀ plugin ∈ s.memoryStore.plugins.find name, _ →
      ∀ n ∈ s.instanceNames plugin, (∀ t ∈ s.topicState.keys, _) ∧
        ∀ type ∈ s.subscibers.keys, _ → _))
  | .message (.ENABLED _ _) _ => isTrue trivial
  | .message (.DISABLED _) _ => isTrue trivial
  | .message (.DISABLED_FORCE _) _ => isTrue trivial
  | .message (.UNSUBSCRIBE _ _) _ => isTrue trivial
  | .message (.UNSUBSCRIBE_SDK _) _ => isTrue trivial
  | .message (.PUBLISH_DATA _) _ => isTrue trivial
  | .message (.PUBLISH _) _ => isTrue trivial
  | .message .SHUTDOWN _ => isTrue trivial
  | .tick => isTrue trivial
  | .load _ _ => isTrue trivial
  | .reorder _ => isTrue trivial

theorem Frame.isInstanceExist {s s' : State} (h : Frame s s') (n : Str) :
    s'.isInstanceExist n = s.isInstanceExist n := by
  rw [State.isInstanceExist, h.memoryStore]; rfl

theorem isInstanceExist_iff {s : State} {n : Str} :
    s.isInstanceExist n = true ↔ ∃ p, s.getInstance n = some p := Option.isSome_iff_exists

/-! ### Keeping names present -/

theorem Present.unsubscribe {s s' : State} (h : Present s) {type x : Str}
    (he : s.unsubscribe type x = .ok s') : Present s' := by
  have hf := unsubscribe_frame he
  have hsw := updateInstance_swept he
  refine ⟨fun t ht => ?_, fun type' y hy hsdk => ?_⟩
  · rw [hf.isInstanceExist]; exact h.keys t ((hsw.keys t).mp ht)
  · rw [subs_congr hsw.subscibers, State.mem_subs_eraseSub] at hy
    rw [hf.isInstanceExist]; exact h.subs type' y hy.1 hsdk

/-- A step that is no removal keeps every name, a removal those that are mentioned. -/
theorem step_keeps_names {s s' : State} {a : Action} (hs : StoreOk s)
    (hok : RemovesUnmentioned s a) (he : step s a = .ok s') {n : Str}
    (hn : s.isInstanceExist n = true)
    (hmention : (∃ t ∈ s.topicState.keys, t.instanceName = n) ∨
      (State.isSdk n = false ∧ ∃ type, n ∈ s.subs type) ∨ ∀ name, a ≠ .remove name) :
    s'.isInstanceExist n = true := by
  cases a with
  | message m ans =>
    obtain ⟨⟨s1, r⟩, h1, rfl⟩ := map_ok he
    rw [(handle_frame hs h1).isInstanceExist]; exact hn
  | tick =>
    obtain ⟨s1, h1, rfl⟩ := map_ok he
    have := (schedule_frame h1).isInstanceExist n
    exact this.trans hn
  | load name file =>
    cases he
    rcases loadPlugin_cases s name file with he | ⟨interfaces, _, hl⟩
    · rw [he]; exact hn
    · obtain ⟨p, hp⟩ := isInstanceExist_iff.mp hn
      exact isInstanceExist_iff.mpr ⟨p, hl.kept n p hp⟩
  | remove name =>
    cases he
    rcases remove_cases s name with he | ⟨plugin, hr⟩
    · rw [he]; exact hn
    · obtain ⟨p, hp⟩ := isInstanceExist_iff.mp hn
      have hout : n ∉ s.instanceNames plugin := by
        intro hin
        obtain ⟨hkeys, hsubs⟩ := hok plugin hr.found hr.disabled n hin
        rcases hmention with ⟨t, ht, htn⟩ | ⟨hsdk, type, hm⟩ | hno
        · exact hkeys t ht htn
        · obtain ⟨set, hset, _⟩ := subs_ne_nil_iff_find.mp (List.ne_nil_of_mem hm)
          exact hsubs type (UMap.mem_keys_of_find hset) hsdk hm
        · exact hno name rfl
      exact isInstanceExist_iff.mpr ⟨p, by rw [hr.getInstance, if_neg hout]; exact hp⟩
  | reorder o => cases he; exact hn

theorem Present.step {s s' : State} {a : Action} (hs : StoreOk s) (h : Present s)
    (hok : RemovesUnmentioned s a) (he : OeAware.step s a = .ok s') : Present s' := by
  have hkeep := fun n => step_keeps_names (n := n) hs hok he
  have hkeys : ∀ t ∈ s.topicState.keys, s'.isInstanceExist t.instanceName = true :=
    fun t ht => hkeep _ (h.keys t ht) (Or.inl ⟨t, ht, rfl⟩)
  have hsub : ∀ type x, x ∈ s.subs type → State.isSdk x = false → s'.isInstanceExist x = true :=
    fun type x hx hsdk => hkeep x (h.subs type x hx hsdk) (Or.inr (Or.inl ⟨hsdk, type, hx⟩))
  cases step_topics hs he with
  | same a hsame =>
    exact ⟨fun t ht => hkeys t ((hsame.keys t).mp ht),
      fun type x hx => hsub type x ((hsame.subs type x).mp hx)⟩
  | refused topic x ans p hp hk _ hsb =>
    refine ⟨fun t ht => ?_, fun type y hy => hsub type y ((hsb type y).mp hy)⟩
    rcases (hk t).mp ht with rfl | ht
    · exact hkeep _ (isInstanceExist_iff.mpr ⟨p, hp⟩) (Or.inr (Or.inr nofun))
    · exact hkeys t ht
  | subscribed topic x ans p hp hk _ hsb =>
    refine ⟨fun t ht => ?_, fun type y hy hsdk => ?_⟩
    · rcases (hk t).mp ht with rfl | ht
      · exact hkeep _ (isInstanceExist_iff.mpr ⟨p, hp⟩) (Or.inr (Or.inr nofun))
      · exact hkeys t ht
    · rcases (hsb type y).mp hy with ⟨_, rfl⟩ | hy
      · exact hkeep _ (hok hsdk) (Or.inr (Or.inr nofun))
      · exact hsub type y hy hsdk
  | unsubscribed m ans r hm hh =>
    exact unsubscribed_induct (P := Present) (fun _ _ _ _ h he => h.unsubscribe he) hm h hh

/-! ### No fault while they are -/

theorem sweepTopics_ok : ∀ (ts : List Topic) (s : State) (c : ℕ),
    (∀ t ∈ ts, s.isInstanceExist t.instanceName = true) → ∃ r, s.sweepTopics ts c = .ok r
  | [], s, c, _ => ⟨_, rfl⟩
  | t :: ts, s, c, h => by
    have hrest : ∀ u ∈ ts, s.isInstanceExist u.instanceName = true :=
      fun u hu => h u (List.mem_cons_of_mem _ hu)
    rw [State.sweepTopics]
    split
    · split
      · exact sweepTopics_ok ts s _ hrest
      · obtain ⟨p, hp⟩ := isInstanceExist_iff.mp (h t (List.mem_cons_self ..))
        rw [hp]
        exact sweepTopics_ok ts _ c hrest
    · exact sweepTopics_ok ts s c hrest

theorem sweepInstance_ok {s : State} {name : Str} (hn : s.isInstanceExist name = true) :
    ∃ s', s.sweepInstance name = .ok s' := by
  obtain ⟨⟨s1, c⟩, h1⟩ := sweepTopics_ok (s.topicState.keys.filter (fun t => t.instanceName = name))
    s 0 (fun t ht => by
      have htn : t.instanceName = name := by simpa using (List.mem_filter.mp ht).2
      rw [htn]; exact hn)
  have hn1 : s1.isInstanceExist name = true :=
    ((sweepTopics_swept _ h1).frame.isInstanceExist name).trans hn
  obtain ⟨p, hp⟩ := isInstanceExist_iff.mp hn1
  unfold State.sweepInstance
  rw [h1]
  dsimp only
  rw [hp]
  split
  · dsimp only
    split <;> exact ⟨_, rfl⟩
  · exact ⟨_, rfl⟩

theorem sweep_ok : ∀ (names : List Str) {s : State},
    (∀ name ∈ names, ∃ t ∈ s.topicState.keys, t.instanceName = name) →
    (∀ name ∈ names, s.isInstanceExist name = true) → ∃ s', s.sweep names = .ok s'
  | [], s, _, _ => ⟨s, rfl⟩
  | name :: names, s, hk, h => by
    obtain ⟨s1, h1⟩ := sweepInstance_ok (h name (List.mem_cons_self ..))
    have hk1 := hk name (List.mem_cons_self ..)
    rw [State.sweep, h1]
    refine sweep_ok names (fun n hn => ?_) (fun n hn => ?_)
    · obtain ⟨t, ht, htn⟩ := hk n (List.mem_cons_of_mem _ hn)
      exact ⟨t, (sweepInstance_keys hk1 h1 t).mpr ht, htn⟩
    · rw [(sweepInstance_swept hk1 h1).frame.isInstanceExist]
      exact h n (List.mem_cons_of_mem _ hn)

theorem Present.unsubscribe_ok {s : State} (h : Present s) (type x : Str) :
    ∃ s', s.unsubscribe type x = .ok s' := by
  refine sweep_ok _ (fun _ hn => mem_sweepNames.mp hn) (fun n hn => ?_)
  obtain ⟨t, ht, rfl⟩ := mem_sweepNames.mp hn
  exact h.keys t ht

theorem Present.unsubscribeLoop_ok (x : Str) : ∀ (types : List Str) {s : State}, Present s →
    ∃ s', s.unsubscribeLoop x types = .ok s'
  | [], s, _ => ⟨s, rfl⟩
  | type :: types, s, h => by
    rw [State.unsubscribeLoop]
    split
    · obtain ⟨s1, h1⟩ := h.unsubscribe_ok type x
      have h2 : (s.eraseSub type x).updateInstance = .ok s1 := h1
      rw [h2]
      exact Present.unsubscribeLoop_ok x types (h.unsubscribe h1)
    · exact Present.unsubscribeLoop_ok x types h

theorem Present.handle_ok {s : State} (h : Present s) (m : InstanceRunMessage) (ans : Answers) :
    ∃ res, s.handle m ans = .ok res := by
  cases m with
  | UNSUBSCRIBE topic x =>
    obtain ⟨s', h'⟩ := h.unsubscribe_ok topic.getType x
    exact ⟨_, by rw [State.handle, h']; rfl⟩
  | UNSUBSCRIBE_SDK x =>
    obtain ⟨s', h'⟩ := h.unsubscribeLoop_ok x s.subscibers.keys
    exact ⟨_, by rw [State.handle, State.unsubscribeSdk, h']; rfl⟩
  | PUBLISH_DATA d =>
    obtain ⟨s', h'⟩ := deliver_ok d ((s.touchSubs d.topic.getType).subs d.topic.getType)
      (s.touchSubs d.topic.getType) (fun x hx hsdk => by
        rw [subs_touchSubs] at hx
        exact h.subs _ x hx hsdk)
    exact ⟨_, by rw [State.handle, State.publishData, h']; rfl⟩
  | _ => exact ⟨_, rfl⟩

theorem present_init : Present State.init where
  keys t ht := by cases ht
  subs type x hx := by cases hx

theorem present_runs {s : State} (h : RunsOf RemovesUnmentioned s) : Present s := by
  have hp : StoreOk s ∧ Present s := Runs.invariant (I := fun s => StoreOk s ∧ Present s)
    ⟨storeOk_init, present_init⟩
    (fun _ _ _ hs hok he => ⟨storeOk_step hs.1 he, hs.2.step hs.1 hok he⟩) h
  exact hp.2

/-- NO NULL: in every run that removes only names mentioned nowhere, every name that `UpdateInstance`
    or `PublishData` may look up is in the store, and no message faults. -/
theorem lookups_present {s : State} (h : RunsOf RemovesUnmentioned s) :
    (∀ t ∈ s.topicState.keys, s.isInstanceExist t.instanceName = true) ∧
    (∀ type x, x ∈ s.subs type → State.isSdk x = false → s.isInstanceExist x = true) ∧
    ∀ m ans, ∃ res, s.handle m ans = .ok res := by
  have hp := present_runs h
  exact ⟨hp.keys, hp.subs, hp.handle_ok⟩

/-- One plugin subscribes to another and both stay; a third is loaded and removed. -/
theorem lookups_present_sample :
    ∃ s, RunsOf RemovesUnmentioned s ∧ s.memoryStore.plugins.count (str "b.so") = false ∧
      s.subs (sampleTopic "i").getType = [str "j"] ∧
      (∀ t ∈ s.topicState.keys, s.isInstanceExist t.instanceName = true) ∧
      (∀ type x, x ∈ s.subs type → State.isSdk x = false → s.isInstanceExist x = true) ∧
      ∀ m ans, ∃ res, s.handle m ans = .ok res := by
  have h : RunsOf RemovesUnmentioned _ := Runs.of_runAll RemovesUnmentioned
    [sampleLoad, .load (str "b.so") ⟨true, true, some [⟨str "n", [], 0, 1, 20⟩]⟩,
      .message (.SUBSCRIBE (sampleTopic "i") (str "j")) accepting,
      .message (.UNSUBSCRIBE_SDK (str "7")) accepting, .remove (str "b.so")] .start rfl
  exact ⟨_, h, by decide, by decide, lookups_present h⟩

/-- Its topic unsubscribed and its plugin removed, an instance is still looked up. -/
theorem lookup_of_removed :
    ¬ ∀ s, Reach s → (∀ t ∈ s.topicState.keys, s.isInstanceExist t.instanceName = true) ∧
      (∀ type x, x ∈ s.subs type → State.isSdk x = false → s.isInstanceExist x = true) ∧
      ∀ m ans, ∃ res, s.handle m ans = .ok res := by
  intro h
  obtain ⟨res, hres⟩ := (h _ (Runs.of_runAll (fun _ _ => True)
    [sampleLoad, .message (.SUBSCRIBE (sampleTopic "i") (str "7")) accepting,
      .message (.UNSUBSCRIBE (sampleTopic "i") (str "7")) accepting, .remove (str "a.so")]
    .start rfl)).2.2 (.UNSUBSCRIBE (sampleTopic "j") (str "7")) accepting
  cases hres

end OeAware

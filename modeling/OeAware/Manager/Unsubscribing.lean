import OeAware.Manager.Queue
import OeAware.Manager.Topics

/-! @src src/plugin_mgr/instance_run_handler.cpp | name:Unsubscribe, UnsubscribeSdk, UpdateInstance |
    scheme:state-machine

    `UpdateInstance` looks at every instance that ever had a subscription, since keys of `topicState`
    are never erased, and disables an enabled one with no marked topic. That is meant for the
    instance whose last subscriber has just gone. It is only that instance as long as nobody else is
    enabled with old keys and no mark, and as long as marks and subscriber sets speak of the same
    topics.

        key, marked, enabled      ── last subscriber goes ──▶ closed and disabled   (meant)
        key, not marked, enabled  ── any unsubscription ────▶ disabled              (not meant) -/

namespace OeAware
open Schemes

/-- `p` has keys in `topicState`, none of them marked. -/
def State.Stale (s : State) (p : InstancePtr) : Prop :=
  (∃ t ∈ s.topicState.keys, s.getInstance t.instanceName = some p) ∧
  ∀ t ∈ s.topicState.keys, s.getInstance t.instanceName = some p → s.flag t = false

instance (s : State) (p : InstancePtr) : Decidable (s.Stale p) :=
  inferInstanceAs (Decidable ((∃ t ∈ s.topicState.keys, _) ∧ ∀ t ∈ s.topicState.keys, _ → _))

/-- Subscriptions are to topics that their type string gives back, and neither `ENABLED` nor
    `PUBLISH` enables an instance with old keys and no mark. -/
def EnablesFresh (s : State) : Action → Prop
  | .message (.SUBSCRIBE topic _) _ => (getTopicFromType topic.getType).getType = topic.getType
  | .message m ans => ∀ p ∈ s.enables ans m, ¬ s.Stale p
  | _ => True

instance (s : State) : ∀ a, Decidable (EnablesFresh s a)
  | .message (.SUBSCRIBE topic _) _ =>
    inferInstanceAs (Decidable ((getTopicFromType topic.getType).getType = topic.getType))
  | .message (.ENABLED name params) ans =>
    inferInstanceAs (Decidable (∀ p ∈ s.enables ans (.ENABLED name params), ¬ s.Stale p))
  | .message (.PUBLISH d) ans =>
    inferInstanceAs (Decidable (∀ p ∈ s.enables ans (.PUBLISH d), ¬ s.Stale p))
  | .message (.DISABLED _) _ => isTrue nofun
  | .message (.DISABLED_FORCE _) _ => isTrue nofun
  | .message (.UNSUBSCRIBE _ _) _ => isTrue nofun
  | .message (.UNSUBSCRIBE_SDK _) _ => isTrue nofun
  | .message (.PUBLISH_DATA _) _ => isTrue nofun
  | .message .SHUTDOWN _ => isTrue nofun
  | .tick => isTrue trivial
  | .load _ _ => isTrue trivial
  | .remove _ => isTrue trivial
  | .reorder _ => isTrue trivial

/-- Marks stand for subscribers, and an enabled instance with keys has a mark. -/
structure Owned (s : State) : Prop where
  parsed : ∀ t, s.flag t = true → getTopicFromType t.getType = t
  subscribed : ∀ t, s.flag t = true → s.subs t.getType ≠ []
  marked : ∀ t ∈ s.topicState.keys, ∀ p, s.getInstance t.instanceName = some p →
    s.enabled p = true → ∃ u, u.instanceName = t.instanceName ∧ s.flag u = true

/-! ### One unsubscription -/

/-- A topic of the instance at `p` has lost its last subscriber. -/
def LosesLast (s s' : State) (p : InstancePtr) : Prop :=
  ∃ type, s.getInstance (getTopicFromType type).instanceName = some p ∧
    s.subs type ≠ [] ∧ s'.subs type = []

theorem losesLast_iff (s s' : State) (p : InstancePtr) :
    (∃ type ∈ s.subscibers.keys, s.getInstance (getTopicFromType type).instanceName = some p ∧
      s.subs type ≠ [] ∧ s'.subs type = []) ↔ LosesLast s s' p := by
  refine ⟨fun ⟨type, _, h⟩ => ⟨type, h⟩, fun ⟨type, hp, hne, hnil⟩ => ⟨type, ?_, hp, hne, hnil⟩⟩
  obtain ⟨set, hset, _⟩ := subs_ne_nil_iff_find.mp hne
  exact UMap.mem_keys_of_find hset

instance (s s' : State) (p : InstancePtr) : Decidable (LosesLast s s' p) :=
  decidable_of_iff _ (losesLast_iff s s' p)

/-- `p` is enabled or not as before, and has the same topics open. -/
structure Untouched (s s' : State) (p : InstancePtr) : Prop where
  enabled : s'.enabled p = s.enabled p
  openTopics : (s'.heap p).openTopics = (s.heap p).openTopics
  openAt : ∀ t, s'.openAt p t = s.openAt p t

theorem Untouched.trans {s s' s'' : State} {p : InstancePtr} (h : Untouched s s' p)
    (h' : Untouched s' s'' p) : Untouched s s'' p :=
  ⟨h'.enabled.trans h.enabled, h'.openTopics.trans h.openTopics,
    fun t => (h'.openAt t).trans (h.openAt t)⟩

theorem untouched_closeTopic (s : State) {p q : InstancePtr} (hne : q ≠ p) (t : Topic) (b : Bool) :
    Untouched s ((s.closeTopic p t).setFlag t b) q := by
  refine ⟨s.enabled_closeTopic p q t, ?_, fun u => ?_⟩
  · simp [State.setFlag, State.closeTopic, State.modify, State.call, hne]
  · show (s.closeTopic p t).openAt q u = s.openAt q u
    rw [State.openAt_closeTopic, if_neg (fun hh => hne hh.1.symm)]

theorem untouched_closeInstance (s : State) {p q : InstancePtr} (hne : q ≠ p) :
    Untouched s (s.closeInstance p) q := by
  refine ⟨?_, ?_, fun u => ?_⟩
  · simp [State.enabled_closeInstance, hne]
  · rw [State.closeInstance_eq]; simp [hne]
  · rw [State.openAt_closeInstance]
    simp [Ne.symm hne]

/-- What a sweep touches belongs to a topic that was marked and has no subscriber entry left. -/
theorem updateInstance_untouched {s s' : State}
    (hmarked : ∀ t ∈ s.topicState.keys, ∀ p, s.getInstance t.instanceName = some p →
      s.enabled p = true → ∃ u, u.instanceName = t.instanceName ∧ s.flag u = true)
    (he : s.updateInstance = .ok s') (p : InstancePtr) : Untouched s s' p ∨
      ∃ t, s.getInstance t.instanceName = some p ∧ s.flag t = true ∧
        s.subscibers.count t.getType = false := by
  refine (updateInstance_induct (P := fun s1 => Swept s s1 ∧ (Untouched s s1 p ∨
    ∃ t, s.getInstance t.instanceName = some p ∧ s.flag t = true ∧
      s.subscibers.count t.getType = false)) ?_ ?_ ?_ he).2
  · intro s1 q t ⟨hsw, h⟩ hf hn hq
    refine ⟨swept_close s s1 q t hsw hf hn hq, ?_⟩
    by_cases hpq : p = q
    · subst hpq
      rw [hsw.frame.getInstance] at hq
      rw [hsw.subscibers] at hn
      exact Or.inr ⟨t, hq, hsw.flag t hf, hn⟩
    · exact h.imp (fun h => h.trans (untouched_closeTopic s1 hpq t false)) id
  · intro s1 name q ⟨hsw, h⟩ hk hq hen hnone
    refine ⟨swept_disable s s1 name q hsw hk hq hen hnone, ?_⟩
    by_cases hpq : p = q
    · subst hpq
      -- it was enabled and had a key before the sweep, so the sweep has cleared its mark
      obtain ⟨t, htk, rfl⟩ := hk
      rw [hsw.frame.getInstance] at hq
      obtain ⟨u, hun, huf⟩ := hmarked t ((hsw.keys t).mp htk) p hq (hsw.enabled p hen)
      exact Or.inr ⟨u, hun ▸ hq, huf, hsw.dropped u huf (hnone u hun)⟩
    · exact h.imp (fun h => h.trans (untouched_closeInstance s1 hpq)) id
  · exact ⟨Swept.refl s, Or.inl ⟨rfl, rfl, fun _ => rfl⟩⟩

theorem subs_of_count_eq_false {s : State} {type : Str} (h : s.subscibers.count type = false) :
    s.subs type = [] := by
  have : s.subscibers.find type = none :=
    Option.not_isSome_iff_eq_none.mp (Bool.eq_false_iff.mp h)
  rw [State.subs, this]

theorem Owned.untouched {s s' : State} (h : Owned s) {type x : Str}
    (he : s.unsubscribe type x = .ok s') (p : InstancePtr) : Untouched s s' p ∨ LosesLast s s' p := by
  rcases @updateInstance_untouched (s.eraseSub type x) s' h.marked he p with hu | ⟨t, hp, hf, hn⟩
  · exact Or.inl ⟨hu.enabled, hu.openTopics, hu.openAt⟩
  · refine Or.inr ⟨t.getType, by rw [h.parsed t hf]; exact hp, h.subscribed t hf, ?_⟩
    rw [subs_congr (updateInstance_swept he).subscibers]
    exact subs_of_count_eq_false hn

theorem mem_subs_unsubscribe {s s' : State} {type x : Str} (he : s.unsubscribe type x = .ok s') (type' y : Str) :
    y ∈ s'.subs type' ↔ y ∈ s.subs type' ∧ ¬ (type' = type ∧ y = x) := by
  rw [subs_congr (updateInstance_swept he).subscibers, State.mem_subs_eraseSub]

theorem subs_unsubscribe {s s' : State} {type x : Str} (he : s.unsubscribe type x = .ok s')
    {type' y : Str} (hy : y ∈ s'.subs type') : y ∈ s.subs type' :=
  ((mem_subs_unsubscribe he type' y).mp hy).1

theorem unsubscribe_gone {s s' : State} {type x : Str} (he : s.unsubscribe type x = .ok s') :
    x ∉ s'.subs type :=
  fun hx => ((mem_subs_unsubscribe he type x).mp hx).2 ⟨rfl, rfl⟩

theorem unsubscribeLoop_gone (x : Str) : ∀ (types : List Str) {s s' : State},
    s.unsubscribeLoop x types = .ok s' → ∀ type, x ∈ s'.subs type → x ∈ s.subs type ∧ type ∉ types
  | [], s, s', he, type, hx => by
    cases he
    exact ⟨hx, List.not_mem_nil⟩
  | type' :: types, s, s', he, type, hx => by
    rw [State.unsubscribeLoop] at he
    split at he
    · split at he
      · cases he
      · rename_i s1 h1
        obtain ⟨hm, hn⟩ := unsubscribeLoop_gone x types he type hx
        refine ⟨subs_unsubscribe h1 hm, List.not_mem_cons_of_ne_of_not_mem ?_ hn⟩
        rintro rfl
        exact unsubscribe_gone h1 hm
    · rename_i hnot
      obtain ⟨hm, hn⟩ := unsubscribeLoop_gone x types he type hx
      exact ⟨hm, List.not_mem_cons_of_ne_of_not_mem (fun heq => hnot (heq ▸ hm)) hn⟩

/-- `UnsubscribeSdk` leaves its subscriber in no set. -/
theorem unsubscribeSdk_gone {s s' : State} {x : Str} (he : s.unsubscribeSdk x = .ok s')
    (type : Str) : x ∉ s'.subs type := by
  intro hx
  obtain ⟨hm, hn⟩ := unsubscribeLoop_gone x _ he type hx
  obtain ⟨set, hset, _⟩ := subs_ne_nil_iff_find.mp (List.ne_nil_of_mem hm)
  exact hn (UMap.mem_keys_of_find hset)

/-- A sweep restores `marked` whatever it was before. -/
theorem Owned.unsubscribe {s s' : State} (h : Owned s) {type x : Str}
    (he : s.unsubscribe type x = .ok s') : Owned s' := by
  have hsw := updateInstance_swept he
  refine ⟨fun t hf => h.parsed t (hsw.flag t hf), fun t hf => ?_, fun t htk p hp hen => ?_⟩
  · exact (unsubscribe_topics he (h.subscribed t)).1 hf
  · exact (updateInstance_settled he htk).2 p hp hen

/-! ### Whole runs -/

/-- Who is enabled after a step was enabled before it, or the step has enabled it. -/
theorem step_enabled {s s' : State} {a : Action} (hs : StoreOk s) (he : step s a = .ok s')
    {n : Str} {p : InstancePtr} (hp : s'.getInstance n = some p) (hen : s'.enabled p = true) :
    s.getInstance n = some p ∧ (s.enabled p = true ∨
      ∃ m ans, a = .message m ans ∧ s.enables ans m = some p) := by
  cases a with
  | message m ans =>
    obtain ⟨⟨s1, r⟩, h1, rfl⟩ := map_ok he
    refine ⟨((handle_frame hs h1).getInstance n).symm.trans hp, ?_⟩
    rcases handle_schedule hs h1 with hq | ⟨q, hq, hn⟩
    · exact Or.inl (hq.enabled p hen)
    · rcases hn.enabled p hen with hen | rfl
      · exact Or.inl hen
      · exact Or.inr ⟨m, ans, rfl, hq⟩
  | tick =>
    obtain ⟨s1, h1, rfl⟩ := map_ok he
    refine ⟨((schedule_frame h1).getInstance n).symm.trans hp, Or.inl ?_⟩
    refine tick_induct (P := fun s1 => s1.enabled p = true → s.enabled p = true) ?_ id h1 hen
    exact fun _ _ _ _ h _ _ hr hen => h (hr.enabled p hen).1
  | load name file =>
    cases he
    rcases loadPlugin_cases s name file with he | ⟨interfaces, _, hl⟩
    · rw [he] at hp hen; exact ⟨hp, Or.inl hen⟩
    · rcases hl.only n p hp with h1 | ⟨h1, h2, _⟩
      · have := hs.alloc n p h1
        rw [State.enabled, hl.old p (by omega)] at hen
        exact ⟨h1, Or.inl hen⟩
      · obtain ⟨i, _, hh⟩ := hl.new p h1 h2
        rw [State.enabled, hh] at hen; cases hen
  | remove name =>
    cases he
    rcases remove_cases s name with he | ⟨plugin, hr⟩
    · rw [he] at hp hen; exact ⟨hp, Or.inl hen⟩
    · rw [hr.getInstance] at hp
      rw [hr.eq] at hen
      split at hp
      · cases hp
      · exact ⟨hp, Or.inl hen⟩
  | reorder o => cases he; exact ⟨hp, Or.inl hen⟩

theorem Owned.step {s s' : State} {a : Action} (hs : StoreOk s) (h : Owned s)
    (hok : EnablesFresh s a) (he : OeAware.step s a = .ok s') : Owned s' := by
  have henabled := fun n p => step_enabled hs he (n := n) (p := p)
  cases step_topics hs he with
  | same a hsame hnone =>
    refine ⟨fun t hf => h.parsed t (hsame.flag t ▸ hf), fun t hf => ?_, fun t htk p hp hen => ?_⟩
    · exact (subs_ne_nil_congr (hsame.subs _)).mpr (h.subscribed t (hsame.flag t ▸ hf))
    · obtain ⟨hp, hor⟩ := henabled _ p hp hen
      have hold : t ∈ s.topicState.keys := (hsame.keys t).mp htk
      simp only [hsame.flag]
      rcases hor with hen | ⟨m, ans, rfl, hm⟩
      · exact h.marked t hold p hp hen
      · -- a step that enables `p` found a mark among its keys
        have hfresh : ¬ s.Stale p := by
          cases m with
          | SUBSCRIBE topic x => rw [hnone topic x ans rfl] at hm; cases hm
          | ENABLED name params => exact hok p hm
          | PUBLISH d => exact hok p hm
          | _ => cases hm
        by_contra hno
        refine hfresh ⟨⟨t, hold, hp⟩, fun u _ hu => ?_⟩
        refine Bool.eq_false_iff.mpr (fun hf => hno ⟨u, hs.inj hu hp, hf⟩)
  | refused topic x ans p0 hp0 hkeys hflag hsubs hdis =>
    refine ⟨fun t hf => h.parsed t (hflag t ▸ hf), fun t hf => ?_, fun t htk p hp hen => ?_⟩
    · exact (subs_ne_nil_congr (hsubs _)).mpr (h.subscribed t (hflag t ▸ hf))
    · obtain ⟨hp, hor⟩ := henabled _ p hp hen
      have hne : p ≠ p0 := by
        rintro rfl; rw [hdis] at hen; cases hen
      simp only [hflag]
      rcases hor with hen | ⟨m, ans, ha, hm⟩
      · rcases (hkeys t).mp htk with rfl | hold
        · rw [hp0] at hp; exact absurd (Option.some.inj hp).symm hne
        · exact h.marked t hold p hp hen
      · cases ha
        have := (Option.filter_eq_some_iff.mp hm).1
        rw [hp0] at this; exact absurd (Option.some.inj this).symm hne
  | subscribed topic x ans p0 hp0 hkeys hflag hsubs =>
    have hT : (getTopicFromType topic.getType).getType = topic.getType := hok
    refine ⟨fun t hf => ?_, fun t hf => ?_, fun t htk p hp hen => ?_⟩
    · rcases (hflag t).mp hf with rfl | hf
      · rw [hT]
      · exact h.parsed t hf
    · rcases (hflag t).mp hf with rfl | hf
      · rw [hT]
        exact List.ne_nil_of_mem ((hsubs _ x).mpr (Or.inl ⟨rfl, rfl⟩))
      · obtain ⟨y, hy⟩ := List.exists_mem_of_ne_nil _ (h.subscribed t hf)
        exact List.ne_nil_of_mem ((hsubs _ y).mpr (Or.inr hy))
    · obtain ⟨hp, hor⟩ := henabled _ p hp hen
      -- the owner of the topic just marked has that mark; any other has kept its own
      by_cases hpp : p = p0
      · subst hpp
        exact ⟨_, hs.inj hp0 hp, (hflag _).mpr (Or.inl rfl)⟩
      · rcases hor with hen | ⟨m, ans, ha, hm⟩
        · rcases (hkeys t).mp htk with rfl | hold
          · rw [hp0] at hp; exact absurd (Option.some.inj hp).symm hpp
          · obtain ⟨u, hun, huf⟩ := h.marked t hold p hp hen
            exact ⟨u, hun, (hflag u).mpr (Or.inr huf)⟩
        · cases ha
          have := (Option.filter_eq_some_iff.mp hm).1
          rw [hp0] at this; exact absurd (Option.some.inj this).symm hpp
  | unsubscribed m ans r hm hh =>
    exact unsubscribed_induct (P := Owned) (fun _ _ _ _ h he => h.unsubscribe he) hm h hh

theorem owned_init : Owned State.init where
  parsed t ht := by cases ht
  subscribed t ht := by cases ht
  marked t ht := by cases ht

/-- Along `UnsubscribeSdk` subscribers only go, so an instance that has lost the last subscriber of
    a topic has lost it for good; until then it is untouched. -/
structure UnsubscribedSoFar (s s1 : State) (p : InstancePtr) : Prop where
  frame : Frame s s1
  owned : Owned s1
  subs : ∀ type y, y ∈ s1.subs type → y ∈ s.subs type
  untouched : Untouched s s1 p ∨ LosesLast s s1 p

theorem UnsubscribedSoFar.unsubscribe {s s1 s2 : State} {p : InstancePtr}
    (h : UnsubscribedSoFar s s1 p) {type x : Str} (he : s1.unsubscribe type x = .ok s2) :
    UnsubscribedSoFar s s2 p := by
  refine ⟨h.frame.trans (unsubscribe_frame he), h.owned.unsubscribe he,
    fun type y hy => h.subs type y (subs_unsubscribe he hy), ?_⟩
  rcases h.untouched with hu | ⟨τ, hτ, hne, hnil⟩
  · rcases h.owned.untouched he p with hu' | ⟨τ, hτ, hne, hnil⟩
    · exact Or.inl (hu.trans hu')
    · obtain ⟨y, hy⟩ := List.exists_mem_of_ne_nil _ hne
      rw [h.frame.getInstance] at hτ
      exact Or.inr ⟨τ, hτ, List.ne_nil_of_mem (h.subs τ y hy), hnil⟩
  · refine Or.inr ⟨τ, hτ, hne, List.eq_nil_iff_forall_not_mem.mpr (fun y hy => ?_)⟩
    have := subs_unsubscribe he hy
    rw [hnil] at this; cases this

/-- ONLY ITS OWN: in every run that meets `EnablesFresh`, an unsubscription of either kind touches
    only instances that own a topic which loses its last subscriber by it. -/
theorem unsubscribe_touches_owners {s s' : State} (h : RunsOf EnablesFresh s)
    {m : InstanceRunMessage} {ans : Answers} {r : Result}
    (hm : (∃ topic x, m = .UNSUBSCRIBE topic x) ∨ ∃ x, m = .UNSUBSCRIBE_SDK x)
    (he : s.handle m ans = .ok (s', r)) {p : InstancePtr} (hp : ¬ LosesLast s s' p) :
    s'.enabled p = s.enabled p ∧ (s'.heap p).openTopics = (s.heap p).openTopics ∧
      ∀ t, s'.openAt p t = s.openAt p t := by
  obtain ⟨-, ho⟩ : StoreOk s ∧ Owned s := Runs.invariant (I := fun s => StoreOk s ∧ Owned s)
    ⟨storeOk_init, owned_init⟩
    (fun _ _ _ hs hok he => ⟨storeOk_step hs.1 he, hs.2.step hs.1 hok he⟩) h
  have hfar : UnsubscribedSoFar s s' p := unsubscribed_induct (P := (UnsubscribedSoFar s · p))
    (fun _ _ _ _ h he => h.unsubscribe he) hm
    ⟨Frame.refl s, ho, fun _ _ hy => hy, Or.inl ⟨rfl, rfl, fun _ => rfl⟩⟩ he
  rcases hfar.untouched with hu | hl
  · exact ⟨hu.enabled, hu.openTopics, hu.openAt⟩
  · exact absurd hl hp

/-- The last subscriber of `j` goes; `i`, enabled by hand and never subscribed to, runs on. -/
theorem unsubscribe_touches_owners_two :
    ∃ s s' r, RunsOf EnablesFresh s ∧
      s.handle (.UNSUBSCRIBE_SDK (str "7")) accepting = .ok (s', r) ∧
      s.enabled 1 = true ∧ s'.enabled 1 = false ∧ ¬ LosesLast s s' 0 ∧
      s'.enabled 0 = s.enabled 0 ∧ (s'.heap 0).openTopics = (s.heap 0).openTopics ∧
      ∀ t, s'.openAt 0 t = s.openAt 0 t := by
  have h : RunsOf EnablesFresh _ := Runs.of_runAll EnablesFresh
    [sampleLoad, .message (.ENABLED (str "i") []) accepting,
      .message (.SUBSCRIBE (sampleTopic "j") (str "7")) accepting] .start rfl
  refine ⟨_, _, _, h, rfl, ?_, ?_, ?_, @unsubscribe_touches_owners _ _ h
    (.UNSUBSCRIBE_SDK (str "7")) accepting _ (Or.inr ⟨_, rfl⟩) rfl 0 ?_⟩ <;> decide

/-- Enabled by hand after its own last subscriber has gone, `i` is disabled when somebody
    unsubscribes from `j`, to which nobody had subscribed. -/
theorem unsubscribe_touches_stranger :
    ¬ ∀ s s' m ans r p, Reach s →
      ((∃ topic x, m = .UNSUBSCRIBE topic x) ∨ ∃ x, m = .UNSUBSCRIBE_SDK x) →
      s.handle m ans = .ok (s', r) → ¬ LosesLast s s' p →
      s'.enabled p = s.enabled p ∧ (s'.heap p).openTopics = (s.heap p).openTopics ∧
        ∀ t, s'.openAt p t = s.openAt p t := by
  intro h
  have hen := (h _ _ (.UNSUBSCRIBE (sampleTopic "j") (str "7")) accepting _ 0
    (Runs.of_runAll (fun _ _ => True)
      [sampleLoad, .message (.SUBSCRIBE (sampleTopic "i") (str "7")) accepting,
        .message (.UNSUBSCRIBE (sampleTopic "i") (str "7")) accepting,
        .message (.ENABLED (str "i") []) accepting] .start rfl)
    (Or.inl ⟨_, _, rfl⟩) rfl (by decide)).1
  revert hen
  decide

end OeAware

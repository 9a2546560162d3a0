import OeAware.Manager.Outcomes

/-! @src src/plugin_mgr/instance_run_handler.cpp | name:UpdateInstance, UnsubscribeSdk |
    scheme:state-machine

    `UpdateInstance` only ever does two things: close a topic that is flagged open but has no
    subscriber entry, and disable an enabled instance none of whose topics is still flagged.
    `updateInstance_induct` turns that into a rule; the sweep's effect on flags, its frame, and the
    condition under which it does not fault follow.

        for each instance with a key in topicState
          for each of its topics that is flagged
            no subscriber entry ──▶ CloseTopic, flag := false
            else                ──▶ cntTopic++
          cntTopic = 0 and enabled ──▶ DisableInstance -/

namespace OeAware
open Schemes

/-- `P` survives the closing of a flagged topic without subscribers. -/
def KeptByClose (P : State → Prop) : Prop :=
  ∀ s p t, P s → s.flag t = true → s.subscibers.count t.getType = false →
    s.getInstance t.instanceName = some p → P ((s.closeTopic p t).setFlag t false)

/-- `P` survives the disabling of an enabled instance with keys but no flagged topic. -/
def KeptByDisable (P : State → Prop) : Prop :=
  ∀ s name p, P s → (∃ t ∈ s.topicState.keys, t.instanceName = name) →
    s.getInstance name = some p → s.enabled p = true →
    (∀ t, t.instanceName = name → s.flag t = false) → P (s.closeInstance p)

theorem sweepTopics_induct {P : State → Prop} (hc : KeptByClose P) :
    ∀ (ts : List Topic) {s s' : State} {c c' : ℕ}, P s → s.sweepTopics ts c = .ok (s', c') → P s'
  | [], s, s', c, c', h, he => by
    simp only [State.sweepTopics, Except.ok.injEq, Prod.mk.injEq] at he
    exact he.1 ▸ h
  | t :: ts, s, s', c, c', h, he => by
    rw [State.sweepTopics] at he
    split at he
    · rename_i hf
      split at he
      · exact sweepTopics_induct hc ts h he
      · rename_i hn
        split at he
        · cases he
        · rename_i p hp
          exact sweepTopics_induct hc ts (hc s p t h hf (Bool.eq_false_iff.mpr hn) hp) he
    · exact sweepTopics_induct hc ts h he

/-- Sweeping the topics of an instance clears flags and sets none. -/
theorem sweepTopics_flag_le (ts : List Topic) {s s' : State} {c c' : ℕ}
    (he : s.sweepTopics ts c = .ok (s', c')) {t : Topic} (h : s'.flag t = true) :
    s.flag t = true := by
  refine sweepTopics_induct (P := fun s' => s'.flag t = true → s.flag t = true) ?_ ts
    (fun h => h) he h
  intro s1 p u ih _ _ _ h1
  rw [State.flag_setFlag] at h1
  split at h1
  · cases h1
  · exact ih h1

/-- When nothing was counted, no swept topic is left flagged. -/
theorem sweepTopics_count : ∀ (ts : List Topic) {s s' : State} {c c' : ℕ},
    s.sweepTopics ts c = .ok (s', c') → c ≤ c' ∧ (c' = c → ∀ t ∈ ts, s'.flag t = false)
  | [], s, s', c, c', he => by
    simp only [State.sweepTopics, Except.ok.injEq, Prod.mk.injEq] at he
    exact ⟨he.2.le, by simp⟩
  | t :: ts, s, s', c, c', he => by
    rw [State.sweepTopics] at he
    -- `t` itself stays unflagged from here on, whatever the rest of the loop does
    have hlast : ∀ {s1 : State} {c1 : ℕ}, s1.sweepTopics ts c1 = .ok (s', c') →
        s1.flag t = false → s'.flag t = false := fun h1 hf =>
      Bool.eq_false_iff.mpr (fun h => by simp [sweepTopics_flag_le ts h1 h] at hf)
    split at he
    · split at he
      · obtain ⟨hle, _⟩ := sweepTopics_count ts he
        exact ⟨by omega, fun h => by omega⟩
      · split at he
        · cases he
        · obtain ⟨hle, hz⟩ := sweepTopics_count ts he
          refine ⟨hle, fun h u hu => ?_⟩
          rcases List.mem_cons.mp hu with rfl | hu
          · exact hlast he (by rw [State.flag_setFlag, if_pos rfl])
          · exact hz h u hu
    · rename_i hf
      obtain ⟨hle, hz⟩ := sweepTopics_count ts he
      refine ⟨hle, fun h u hu => ?_⟩
      rcases List.mem_cons.mp hu with rfl | hu
      · exact hlast he (Bool.eq_false_iff.mpr hf)
      · exact hz h u hu

theorem keys_close {s : State} (p : InstancePtr) {u : Topic} (hf : s.flag u = true) (t : Topic) :
    t ∈ ((s.closeTopic p u).setFlag u false).topicState.keys ↔ t ∈ s.topicState.keys := by
  refine (UMap.mem_keys_insert ..).trans ⟨?_, Or.inr⟩
  rintro (rfl | h)
  · exact State.mem_keys_of_flag hf
  · exact h

theorem sweepTopics_keys (ts : List Topic) {s s' : State} {c c' : ℕ}
    (he : s.sweepTopics ts c = .ok (s', c')) (t : Topic) :
    t ∈ s'.topicState.keys ↔ t ∈ s.topicState.keys := by
  refine sweepTopics_induct (P := fun s' => t ∈ s'.topicState.keys ↔ t ∈ s.topicState.keys) ?_ ts
    Iff.rfl he
  exact fun s1 p u ih hf _ _ => (keys_close p hf t).trans ih

theorem sweepInstance_induct {P : State → Prop} (hc : KeptByClose P) (hd : KeptByDisable P)
    {s s' : State} {name : Str} (hk : ∃ t ∈ s.topicState.keys, t.instanceName = name) (h : P s)
    (he : s.sweepInstance name = .ok s') : P s' := by
  unfold State.sweepInstance at he
  split at he
  · cases he
  · rename_i s1 cnt h1
    have hP := sweepTopics_induct hc _ h h1
    split at he
    · rename_i hz
      split at he
      · cases he
      · rename_i p hp
        split at he
        · rename_i hen
          cases he
          rw [State.disableInstance_some hp]
          obtain ⟨t0, hk0, hn0⟩ := hk
          refine hd s1 name p hP ⟨t0, (sweepTopics_keys _ h1 t0).mpr hk0, hn0⟩ hp hen ?_
          intro t ht
          -- a flagged topic has a key, so it was among those swept, and none of them was counted
          by_contra hf
          have hf' : s1.flag t = true := by simpa using hf
          have hm : t ∈ s.topicState.keys :=
            (sweepTopics_keys _ h1 t).mp (State.mem_keys_of_flag hf')
          have := (sweepTopics_count _ h1).2 hz t (List.mem_filter.mpr ⟨hm, by simp [ht]⟩)
          rw [this] at hf'; cases hf'
        · cases he; exact hP
    · cases he; exact hP

theorem sweepInstance_keys {s s' : State} {name : Str}
    (hk : ∃ t ∈ s.topicState.keys, t.instanceName = name) (he : s.sweepInstance name = .ok s')
    (t : Topic) : t ∈ s'.topicState.keys ↔ t ∈ s.topicState.keys := by
  refine sweepInstance_induct (P := fun s' => t ∈ s'.topicState.keys ↔ t ∈ s.topicState.keys)
    ?_ ?_ hk Iff.rfl he
  · exact fun s1 p u ih hf _ _ => (keys_close p hf t).trans ih
  · intro s1 _ p ih _ _ _ _
    rw [← ih, State.closeInstance_eq]

theorem sweep_induct {P : State → Prop} (hc : KeptByClose P) (hd : KeptByDisable P) :
    ∀ (names : List Str) {s s' : State},
    (∀ name ∈ names, ∃ t ∈ s.topicState.keys, t.instanceName = name) → P s →
    s.sweep names = .ok s' → P s'
  | [], s, s', _, h, he => by
    simp only [State.sweep, Except.ok.injEq] at he
    exact he ▸ h
  | name :: names, s, s', hk, h, he => by
    rw [State.sweep] at he
    split at he
    · cases he
    · rename_i s1 h1
      have hk0 := hk name (List.mem_cons_self ..)
      refine sweep_induct hc hd names (fun n hn => ?_) (sweepInstance_induct hc hd hk0 h h1) he
      obtain ⟨t, ht, htn⟩ := hk n (List.mem_cons_of_mem _ hn)
      exact ⟨t, (sweepInstance_keys hk0 h1 t).mpr ht, htn⟩

theorem mem_sweepNames {s : State} {name : Str} :
    name ∈ (s.topicState.keys.map (·.instanceName)).dedup ↔
      ∃ t ∈ s.topicState.keys, t.instanceName = name := by
  rw [List.mem_dedup, List.mem_map]

/-- RULE: what survives closing an unsubscribed topic and disabling an instance without flagged
    topics survives `UpdateInstance`. -/
theorem updateInstance_induct {P : State → Prop} (hc : KeptByClose P) (hd : KeptByDisable P)
    {s s' : State} (h : P s) (he : s.updateInstance = .ok s') : P s' :=
  sweep_induct hc hd _ (fun _ hn => mem_sweepNames.mp hn) h he

/-! ### What a sweep changes -/

/-- The effect of a sweep: flags of topics without subscriber entry may go, instances may be
    disabled, and all else that the scheduler works with is as before. -/
structure Swept (s s' : State) : Prop where
  frame : Frame s s'
  subscibers : s'.subscibers = s.subscibers
  scheduleQueue : s'.scheduleQueue = s.scheduleQueue
  time : s'.time = s.time
  keys : ∀ t, t ∈ s'.topicState.keys ↔ t ∈ s.topicState.keys
  flag : ∀ t, s'.flag t = true → s.flag t = true
  dropped : ∀ t, s.flag t = true → s'.flag t = false → s.subscibers.count t.getType = false
  enabled : ∀ q, s'.enabled q = true → s.enabled q = true
  runs : ∀ q, s'.runs q = s.runs q

theorem Swept.refl (s : State) : Swept s s where
  frame := Frame.refl s
  subscibers := rfl
  scheduleQueue := rfl
  time := rfl
  keys _ := Iff.rfl
  flag _ h := h
  dropped t h h' := by rw [h] at h'; cases h'
  enabled _ h := h
  runs _ := rfl

theorem swept_close (s0 : State) : KeptByClose (Swept s0) := by
  intro s p t h hf hn hp
  refine ⟨h.frame.trans ((Frame.closeTopic s p t).trans (Frame.setFlag _ t false)), h.subscibers,
    h.scheduleQueue, h.time, fun u => (keys_close p hf u).trans (h.keys u), fun u hu => ?_,
    fun u hu hu' => ?_, fun q hq => ?_, fun q => ?_⟩
  · rw [State.flag_setFlag] at hu
    split at hu
    · cases hu
    · exact h.flag u hu
  · rw [State.flag_setFlag] at hu'
    split at hu'
    · rename_i he; rw [he, ← h.subscibers]; exact hn
    · exact h.dropped u hu hu'
  · exact h.enabled q (by rw [← State.enabled_closeTopic s p q t]; exact hq)
  · rw [← h.runs q]; simp [State.runs, runsIn, State.closeTopic, State.setFlag, State.modify,
      State.call]

theorem swept_disable (s0 : State) : KeptByDisable (Swept s0) := by
  intro s name p h _ _ _ _
  have hs : ∀ t, (s.closeInstance p).flag t = s.flag t := by
    intro t; rw [State.closeInstance_eq]; rfl
  refine ⟨h.frame.trans (Frame.closeInstance s p), ?_, ?_, ?_, fun t => ?_, fun t => ?_, fun t => ?_,
    fun q hq => ?_, fun q => ?_⟩
  · rw [State.closeInstance_eq]; exact h.subscibers
  · rw [State.closeInstance_eq]; exact h.scheduleQueue
  · rw [State.closeInstance_eq]; exact h.time
  · rw [State.closeInstance_eq]; exact h.keys t
  · rw [hs]; exact h.flag t
  · rw [hs]; exact h.dropped t
  · rw [State.enabled_closeInstance] at hq
    exact h.enabled q (by simp_all)
  · rw [State.runs_closeInstance]; exact h.runs q

theorem sweepTopics_swept (ts : List Topic) {s s' : State} {c c' : ℕ}
    (he : s.sweepTopics ts c = .ok (s', c')) : Swept s s' :=
  sweepTopics_induct (swept_close s) ts (Swept.refl s) he

theorem sweepInstance_swept {s s' : State} {name : Str}
    (hk : ∃ t ∈ s.topicState.keys, t.instanceName = name) (he : s.sweepInstance name = .ok s') :
    Swept s s' := sweepInstance_induct (swept_close s) (swept_disable s) hk (Swept.refl s) he

theorem updateInstance_swept {s s' : State} (he : s.updateInstance = .ok s') : Swept s s' :=
  updateInstance_induct (swept_close s) (swept_disable s) (Swept.refl s) he

/-! ### What a sweep achieves -/

/-- A swept topic that is still flagged has a subscriber entry. -/
theorem sweepTopics_counted : ∀ (ts : List Topic) {s s' : State} {c c' : ℕ},
    s.sweepTopics ts c = .ok (s', c') → ∀ t ∈ ts, s'.flag t = true →
      s.subscibers.count t.getType = true
  | [], _, _, _, _, _, t, ht, _ => by simp at ht
  | u :: ts, s, s', c, c', he, t, ht, hf => by
    rw [State.sweepTopics] at he
    split at he
    · split at he
      · rename_i hn
        rcases List.mem_cons.mp ht with rfl | ht
        · exact hn
        · exact sweepTopics_counted ts he t ht hf
      · split at he
        · cases he
        · rcases List.mem_cons.mp ht with rfl | ht
          · have := sweepTopics_flag_le ts he hf
            rw [State.flag_setFlag, if_pos rfl] at this; cases this
          · exact sweepTopics_counted ts he t ht hf
    · rename_i hu
      rcases List.mem_cons.mp ht with rfl | ht
      · exact absurd (sweepTopics_flag_le ts he hf) hu
      · exact sweepTopics_counted ts he t ht hf

/-- A topic that was counted is still flagged. -/
theorem sweepTopics_pos : ∀ (ts : List Topic) {s s' : State} {c c' : ℕ},
    s.sweepTopics ts c = .ok (s', c') → c < c' → ∃ t ∈ ts, s'.flag t = true
  | [], s, s', c, c', he, hlt => by
    simp only [State.sweepTopics, Except.ok.injEq, Prod.mk.injEq] at he
    omega
  | u :: ts, s, s', c, c', he, hlt => by
    rw [State.sweepTopics] at he
    have later : (∃ t ∈ ts, s'.flag t = true) → ∃ t ∈ u :: ts, s'.flag t = true :=
      fun ⟨t, ht, hf⟩ => ⟨t, List.mem_cons_of_mem _ ht, hf⟩
    split at he
    · rename_i hf
      split at he
      · rename_i hn
        refine ⟨u, List.mem_cons_self .., ?_⟩
        by_contra hf'
        have := (sweepTopics_swept ts he).dropped u hf (Bool.eq_false_iff.mpr hf')
        rw [hn] at this; cases this
      · split at he
        · cases he
        · exact later (sweepTopics_pos ts he hlt)
    · exact later (sweepTopics_pos ts he hlt)

/-- Sweeping one instance leaves the flags of the others' topics alone. -/
theorem sweepTopics_flag_ne (ts : List Topic) {s s' : State} {c c' : ℕ}
    (he : s.sweepTopics ts c = .ok (s', c')) : ∀ t ∉ ts, s'.flag t = s.flag t := by
  induction ts generalizing s c with
  | nil =>
    simp only [State.sweepTopics, Except.ok.injEq, Prod.mk.injEq] at he
    intro t _; rw [he.1]
  | cons u ts ih =>
    intro t ht
    obtain ⟨hne, ht⟩ := not_or.mp (List.mem_cons.not.mp ht)
    rw [State.sweepTopics] at he
    split at he
    · split at he
      · exact ih he t ht
      · split at he
        · cases he
        · rw [ih he t ht, State.flag_setFlag, if_neg hne]; rfl
    · exact ih he t ht

theorem sweepInstance_inv {s s' : State} {name : Str} (he : s.sweepInstance name = .ok s') :
    ∃ s1 cnt, s.sweepTopics (s.topicState.keys.filter (fun t => t.instanceName = name)) 0 =
        .ok (s1, cnt) ∧ (∀ t, s'.flag t = s1.flag t) ∧
      (cnt = 0 → ∀ p, s'.getInstance name = some p → s'.enabled p = false) := by
  unfold State.sweepInstance at he
  split at he
  · cases he
  · rename_i s1 cnt h1
    refine ⟨s1, cnt, h1, ?_⟩
    split at he
    · split at he
      · cases he
      · rename_i hz p hp
        split at he
        · cases he
          rw [State.disableInstance_some hp]
          refine ⟨fun t => by rw [State.closeInstance_eq]; rfl, fun _ q hq => ?_⟩
          have : q = p := by
            rw [(Frame.closeInstance s1 p).getInstance, hp] at hq
            exact (Option.some.inj hq).symm
          simp [State.enabled_closeInstance, this]
        · rename_i hen
          cases he
          refine ⟨fun _ => rfl, fun _ q hq => ?_⟩
          rw [hp, Option.some.injEq] at hq
          rw [← hq]; exact Bool.eq_false_iff.mpr hen
    · rename_i hz
      cases he
      exact ⟨fun _ => rfl, fun h => absurd h hz⟩

/-- What a sweep leaves behind for the instance `name`: flagged topics have subscriber entries, and
    an instance that is still enabled has a flagged topic. -/
def Settled (s : State) (name : Str) : Prop :=
  (∀ t, t.instanceName = name → s.flag t = true → s.subscibers.count t.getType = true) ∧
  (∀ p, s.getInstance name = some p → s.enabled p = true →
    ∃ t, t.instanceName = name ∧ s.flag t = true)

theorem sweepInstance_settled {s s' : State} {name : Str}
    (hk : ∃ t ∈ s.topicState.keys, t.instanceName = name) (he : s.sweepInstance name = .ok s') :
    Settled s' name := by
  obtain ⟨s1, cnt, h1, hflag, hdis⟩ := sweepInstance_inv he
  have hsw := sweepInstance_swept hk he
  refine ⟨fun t ht hf => ?_, fun p hp hen => ?_⟩
  · have hm : t ∈ s.topicState.keys := (hsw.keys t).mp (State.mem_keys_of_flag hf)
    rw [hsw.subscibers]
    exact sweepTopics_counted _ h1 t (List.mem_filter.mpr ⟨hm, by simp [ht]⟩) (hflag t ▸ hf)
  · have hc : 0 < cnt := by
      rcases Nat.eq_zero_or_pos cnt with h0 | h0
      · rw [hdis h0 p hp] at hen; cases hen
      · exact h0
    obtain ⟨t, ht, hf⟩ := sweepTopics_pos _ h1 hc
    exact ⟨t, by simpa using (List.mem_filter.mp ht).2, by rw [hflag]; exact hf⟩

/-- Sweeping another instance leaves a settled one settled. -/
theorem Settled.sweepInstance {s s' : State} {name other : Str} (h : Settled s name)
    (hne : name ≠ other) (hk : ∃ t ∈ s.topicState.keys, t.instanceName = other)
    (he : s.sweepInstance other = .ok s') : Settled s' name := by
  obtain ⟨s1, cnt, h1, hflag, _⟩ := sweepInstance_inv he
  have hsw := sweepInstance_swept hk he
  have hsame : ∀ t, t.instanceName = name → s'.flag t = s.flag t := by
    intro t ht
    rw [hflag]
    refine sweepTopics_flag_ne _ h1 t (fun hm => hne ?_)
    rw [← ht]; simpa using (List.mem_filter.mp hm).2
  refine ⟨fun t ht hf => ?_, fun p hp hen => ?_⟩
  · rw [hsw.subscibers]; exact h.1 t ht (hsame t ht ▸ hf)
  · obtain ⟨t, ht, hf⟩ := h.2 p (by rwa [hsw.frame.getInstance] at hp) (hsw.enabled p hen)
    exact ⟨t, ht, by rw [hsame t ht]; exact hf⟩

theorem sweep_settled : ∀ (names : List Str) {s s' : State}, names.Nodup →
    (∀ name ∈ names, ∃ t ∈ s.topicState.keys, t.instanceName = name) → s.sweep names = .ok s' →
    (∀ name ∈ names, Settled s' name) ∧
      (∀ name ∉ names, Settled s name → Settled s' name)
  | [], s, s', _, _, he => by
    simp only [State.sweep, Except.ok.injEq] at he
    subst he
    exact ⟨by simp, fun _ _ h => h⟩
  | n :: names, s, s', hnd, hk, he => by
    rw [State.sweep] at he
    obtain ⟨hn, hnd⟩ := List.nodup_cons.mp hnd
    have hkn := hk n (List.mem_cons_self ..)
    split at he
    · cases he
    · rename_i s1 h1
      obtain ⟨hin, hout⟩ := sweep_settled names hnd (fun m hm => by
        obtain ⟨t, ht, htn⟩ := hk m (List.mem_cons_of_mem _ hm)
        exact ⟨t, (sweepInstance_keys hkn h1 t).mpr ht, htn⟩) he
      refine ⟨fun m hm => ?_, fun m hm hs => ?_⟩
      · rcases List.mem_cons.mp hm with rfl | hm
        · exact hout m hn (sweepInstance_settled hkn h1)
        · exact hin m hm
      · obtain ⟨hne, hm⟩ := not_or.mp (List.mem_cons.not.mp hm)
        exact hout m hm (hs.sweepInstance hne hkn h1)

/-- After `UpdateInstance` every instance with a key is settled. -/
theorem updateInstance_settled {s s' : State} (he : s.updateInstance = .ok s') {t : Topic}
    (ht : t ∈ s'.topicState.keys) : Settled s' t.instanceName := by
  have hsw := updateInstance_swept he
  refine (sweep_settled _ (List.nodup_dedup _) (fun _ hn => mem_sweepNames.mp hn) he).1 _ ?_
  exact mem_sweepNames.mpr ⟨t, (hsw.keys t).mp ht, rfl⟩

/-- After `UpdateInstance` every flagged topic has a subscriber entry. -/
theorem updateInstance_flag {s s' : State} (he : s.updateInstance = .ok s') {t : Topic}
    (hf : s'.flag t = true) : s.subscibers.count t.getType = true := by
  rw [← (updateInstance_swept he).subscibers]
  exact (updateInstance_settled he (State.mem_keys_of_flag hf)).1 t rfl hf

end OeAware

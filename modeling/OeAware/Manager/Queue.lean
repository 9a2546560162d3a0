import OeAware.Manager.Views

/-! @src src/plugin_mgr/instance_run_handler.cpp, event/remove_handler.cpp |
    name:EnableInstance, DisableInstance, Schedule, Start | scheme:state-machine

    The schedule queue over whole runs. `DisableInstance` leaves the instance's entry in the queue and
    relies on it being popped while the instance is still disabled, so two things hold only as long
    as an instance is enabled again, or its plugin removed, after that entry is gone: one entry per
    instance, and no entry of a removed plugin. With periods that are multiples of the cycle the
    queue never falls behind the clock.

        ENABLED ──▶ entry at time + delay ──tick──▶ Run ──▶ entry at time + period
        DISABLED ─▶ (entry stays) ────────tick──▶ dropped -/

namespace OeAware
open Schemes

/-! ### A round of `Schedule` -/

theorem runs_call_run (s : State) (p q : InstancePtr) :
    (s.call p .run).runs q = if q = p then s.time :: s.runs q else s.runs q := by
  by_cases h : q = p
  · simp [State.runs, runsIn, State.call, h]
  · simp [State.runs, runsIn, State.call, h, Ne.symm h]

/-- What a round makes of the schedule: the due entry `e` is gone, and a new one stands for its
    instance exactly when that was run and runs again. -/
structure Round (s s' : State) (e : ScheduleInstance) (rest : List ScheduleInstance) : Prop where
  time : s'.time = s.time
  frame : Frame s s'
  runs : ∀ q, s'.runs q = if q = e.ptr ∧ s.enabled q = true then s.time :: s.runs q else s.runs q
  enabled : ∀ q, s'.enabled q = true → s.enabled q = true ∧ (q = e.ptr → s.runOnce q = false)
  scheduleQueue : (s'.scheduleQueue = rest ∧ (s.enabled e.ptr = true → s.runOnce e.ptr = true)) ∨
    (s.runOnce e.ptr = false ∧ s.enabled e.ptr = true ∧
      Pushed (·.time) ⟨e.ptr, s.time + s.period e.ptr⟩ rest s'.scheduleQueue)

theorem RoundOutcome.round {s s' : State} {e : ScheduleInstance} {rest : List ScheduleInstance}
    (h : RoundOutcome s e rest s') : Round s s' e rest := by
  have hf := h.frame
  have hrun : ∀ q, (({ s with scheduleQueue := rest } : State).call e.ptr .run).runs q =
      if q = e.ptr then s.time :: s.runs q else s.runs q := runs_call_run _ _
  cases h with
  | dropped he =>
    refine ⟨rfl, hf, fun q => ?_, fun q hq => ⟨hq, ?_⟩, Or.inl ⟨rfl, by simp [he]⟩⟩
    · rw [if_neg]
      · rfl
      · rintro ⟨rfl, hq⟩; rw [he] at hq; cases hq
    · rintro rfl; rw [show s.enabled e.ptr = true from hq] at he; cases he
  | once he ho =>
    refine ⟨by rw [State.closeInstance_eq]; rfl, hf, fun q => ?_, fun q hq => ?_,
      Or.inl ⟨by rw [State.closeInstance_eq]; rfl, fun _ => ho⟩⟩
    · rw [State.runs_closeInstance, hrun]
      by_cases hq : q = e.ptr
      · simp [hq, he]
      · simp [hq]
    · rw [State.enabled_closeInstance, Bool.and_eq_true] at hq
      exact ⟨hq.1, fun h => by simp [h] at hq⟩
  | again he ho =>
    refine ⟨rfl, hf, fun q => ?_, fun q hq => ⟨hq, fun h => h ▸ ho⟩,
      Or.inr ⟨ho, he, push_pushed (({ s with scheduleQueue := rest } : State).call e.ptr .run) _⟩⟩
    refine (hrun q).trans ?_
    by_cases hq : q = e.ptr
    · simp [hq, he]
    · simp [hq]

/-- RULE: what survives the rounds of a tick and the clock's advance survives the tick. -/
theorem tick_induct {P : State → Prop}
    (hround : ∀ s s' e rest, P s → s.scheduleQueue = e :: rest → e.time = s.time →
      Round s s' e rest → P s') {s s' : State} (h : P s) (he : s.schedule = .ok s') : P s' := by
  refine (scheduleLoop_induct (fun s1 s2 h1 h2 => ?_) _ h he).1
  obtain ⟨e, rest, hq, ht, ho⟩ := scheduleOne_outcome h2
  exact hround s1 s2 e rest h1 hq ht ho.round

/-! ### One entry per instance -/

/-- No entry of `p` is in the queue. -/
def State.Unqueued (s : State) (p : InstancePtr) : Prop := ∀ e ∈ s.scheduleQueue, e.ptr ≠ p

instance (s : State) (p : InstancePtr) : Decidable (s.Unqueued p) :=
  inferInstanceAs (Decidable (∀ e ∈ s.scheduleQueue, e.ptr ≠ p))

/-- Every instance that the step enables has no entry left in the queue and, when it is of the
    run-once type, has not run within its last period. -/
def EnablesUnqueued (s : State) : Action → Prop
  | .message m ans => ∀ p ∈ s.enables ans m, s.Unqueued p ∧
      (s.runOnce p = true → ∀ t ∈ s.runs p, t + s.period p ≤ s.time)
  | _ => True

instance (s : State) : ∀ a, Decidable (EnablesUnqueued s a)
  | .message m ans => inferInstanceAs (Decidable (∀ p ∈ s.enables ans m, _ ∧ _))
  | .tick => isTrue trivial
  | .load _ _ => isTrue trivial
  | .remove _ => isTrue trivial
  | .reorder _ => isTrue trivial

/-- What keeps the schedule paced: an entry is due no earlier than a period after any run of its
    instance, and an instance without entry has not run for a period. -/
structure Paced (s : State) : Prop where
  alloc : ∀ e ∈ s.scheduleQueue, (e.ptr : ℕ) < s.next
  ran : ∀ p : ℕ, s.runs p ≠ [] → p < s.next
  nodup : (s.scheduleQueue.map (·.ptr)).Nodup
  queued : ∀ e ∈ s.scheduleQueue, ∀ t ∈ s.runs e.ptr, t + s.period e.ptr ≤ e.time
  idle : ∀ p, s.Unqueued p → s.runOnce p = false → ∀ t ∈ s.runs p, t + s.period p ≤ s.time
  spaced : ∀ p, (s.runs p).Pairwise (fun later earlier => earlier + s.period p ≤ later)

theorem paced_init : Paced State.init where
  alloc e he := by cases he
  ran p hp := absurd rfl hp
  nodup := List.nodup_nil
  queued e he := by cases he
  idle p _ _ t ht := by cases ht
  spaced p := List.Pairwise.nil

/-- `Paced` looks at nothing but the queue, the clock, the runs and what objects are born with. -/
theorem Paced.congr {s s' : State} (h : Paced s) (hn : s.next ≤ s'.next)
    (hq : s'.scheduleQueue.Perm s.scheduleQueue) (ht : s.time ≤ s'.time)
    (hr : ∀ p, s'.runs p = s.runs p)
    (hi : ∀ p : ℕ, p < s.next → (s'.heap p).interface = (s.heap p).interface) : Paced s' := by
  have hper : ∀ p : ℕ, p < s.next → s'.period p = s.period p := fun p hp => by
    rw [State.period, hi p hp]; rfl
  have hmem : ∀ p, ∀ t ∈ s'.runs p, t ∈ s.runs p ∧ s'.period p = s.period p := by
    intro p t hm
    rw [hr] at hm
    exact ⟨hm, hper p (h.ran p (List.ne_nil_of_mem hm))⟩
  refine ⟨fun e he => ?_, fun p hp => ?_, ?_, fun e he t hm => ?_, fun p hu ho t hm => ?_,
    fun p => ?_⟩
  · exact Nat.lt_of_lt_of_le (h.alloc e (hq.mem_iff.mp he)) hn
  · rw [hr] at hp; exact Nat.lt_of_lt_of_le (h.ran p hp) hn
  · exact (hq.map _).nodup_iff.mpr h.nodup
  · obtain ⟨hm, hp⟩ := hmem _ t hm
    rw [hp]; exact h.queued e (hq.mem_iff.mp he) t hm
  · obtain ⟨hm, hp⟩ := hmem _ t hm
    have hlt := h.ran p (List.ne_nil_of_mem hm)
    have ho' : s.runOnce p = false := by rw [State.runOnce, ← hi p hlt]; exact ho
    have := h.idle p (fun e he => hu e (hq.mem_iff.mpr he)) ho' t hm
    rw [hp]; omega
  · rw [hr]
    refine (h.spaced p).imp_of_mem (fun {a b} ha _ hab => ?_)
    rw [hper p (h.ran p (List.ne_nil_of_mem ha))]; exact hab

theorem Paced.nowEnabled {s s' : State} {p : ℕ} (h : Paced s) (hf : Frame s s')
    (hn : NowEnabled s s' p) (hp : p < s.next) (hu : s.Unqueued p)
    (ho : s.runOnce p = true → ∀ t ∈ s.runs p, t + s.period p ≤ s.time) : Paced s' := by
  have hle : s.time ≤ (s.firstEntry p).time := Nat.le_add_right _ _
  -- either way the last run of `p` is a period old
  have hpast : ∀ t ∈ s.runs p, t + s.period p ≤ s.time := by
    cases hro : s.runOnce p with
    | true => exact ho hro
    | false => exact h.idle p hu hro
  refine ⟨fun e he => ?_, fun q hq => ?_, ?_, fun e he t ht => ?_, fun q hq hro t ht => ?_,
    fun q => ?_⟩
  · rw [hf.next]
    rcases hn.scheduleQueue.mem.mp he with rfl | he
    · exact hp
    · exact h.alloc e he
  · rw [hf.next]; exact h.ran q (by rwa [hn.runs] at hq)
  · rw [(hn.scheduleQueue.perm.map _).nodup_iff, List.map_cons, List.nodup_cons]
    refine ⟨fun hm => ?_, h.nodup⟩
    obtain ⟨e, he, hep⟩ := List.mem_map.mp hm
    exact hu e he hep
  · rw [hn.runs] at ht
    rw [hf.period]
    rcases hn.scheduleQueue.mem.mp he with rfl | he
    · exact Nat.le_trans (hpast t ht) hle
    · exact h.queued e he t ht
  · rw [hn.runs] at ht
    rw [hf.period, hn.time]
    exact h.idle q (fun e he => hq e (hn.scheduleQueue.mem.mpr (Or.inr he)))
      (by rwa [hf.runOnce] at hro) t ht
  · rw [hn.runs, hf.period]; exact h.spaced q

theorem Paced.round {s s' : State} {e : ScheduleInstance} {rest : List ScheduleInstance}
    (h : Paced s) (hq : s.scheduleQueue = e :: rest) (ht : e.time = s.time)
    (hr : Round s s' e rest) : Paced s' := by
  have hrest : ∀ a ∈ rest, a ∈ s.scheduleQueue := fun a ha => by
    rw [hq]; exact List.mem_cons_of_mem _ ha
  have he : e ∈ s.scheduleQueue := by rw [hq]; exact List.mem_cons_self ..
  have hnd := h.nodup
  rw [hq, List.map_cons, List.nodup_cons] at hnd
  have hne : ∀ a ∈ rest, a.ptr ≠ e.ptr := fun a ha hae =>
    hnd.1 (hae ▸ List.mem_map.mpr ⟨a, ha, rfl⟩)
  -- the run that this round may add starts a period after every earlier one
  have hpast : ∀ t ∈ s.runs e.ptr, t + s.period e.ptr ≤ s.time := fun t hm =>
    ht ▸ h.queued e he t hm
  have hold : ∀ q, q ≠ e.ptr → s'.runs q = s.runs q := fun q hqe => by
    rw [hr.runs, if_neg (fun hh => hqe hh.1)]
  have hnew : ∀ t ∈ s'.runs e.ptr, t = s.time ∧ s.enabled e.ptr = true ∨ t ∈ s.runs e.ptr := by
    intro t hm
    rw [hr.runs] at hm
    split at hm
    · rename_i hc
      rcases List.mem_cons.mp hm with rfl | hm
      · exact Or.inl ⟨rfl, hc.2⟩
      · exact Or.inr hm
    · exact Or.inr hm
  refine ⟨fun a ha => ?_, fun q hqr => ?_, ?_, fun a ha t hm => ?_, fun q hu ho t hm => ?_,
    fun q => ?_⟩
  · rw [hr.frame.next]
    rcases hr.scheduleQueue with ⟨hs', _⟩ | ⟨_, _, hs'⟩
    · exact h.alloc a (hrest a (hs' ▸ ha))
    · rcases hs'.mem.mp ha with rfl | ha
      · exact h.alloc e he
      · exact h.alloc a (hrest a ha)
  · rw [hr.frame.next]
    by_cases hqe : q = e.ptr
    · rw [hqe]; exact h.alloc e he
    · exact h.ran q (by rwa [hold q hqe] at hqr)
  · rcases hr.scheduleQueue with ⟨hs', _⟩ | ⟨_, _, hs'⟩
    · rw [hs']; exact hnd.2
    · rw [(hs'.perm.map _).nodup_iff, List.map_cons]
      exact List.nodup_cons.mpr hnd
  · rw [hr.frame.period]
    have hother : ∀ a ∈ rest, ∀ t ∈ s'.runs a.ptr, t + s.period a.ptr ≤ a.time :=
      fun a ha t hm => h.queued a (hrest a ha) t (by rwa [hold _ (hne a ha)] at hm)
    rcases hr.scheduleQueue with ⟨hs', _⟩ | ⟨_, _, hs'⟩
    · exact hother a (hs' ▸ ha) t hm
    · rcases hs'.mem.mp ha with rfl | ha
      · rcases hnew t hm with ⟨rfl, _⟩ | hm
        · exact Nat.le_refl _
        · have := hpast t hm
          dsimp only at this ⊢; omega
      · exact hother a ha t hm
  · rw [hr.frame.period, hr.time]
    rw [hr.frame.runOnce] at ho
    by_cases hqe : q = e.ptr
    · subst hqe
      rcases hr.scheduleQueue with ⟨_, honce⟩ | ⟨_, _, hs'⟩
      · rcases hnew t hm with ⟨_, hen⟩ | hm
        · rw [honce hen] at ho; cases ho
        · exact hpast t hm
      · exact absurd rfl (hu ⟨e.ptr, s.time + s.period e.ptr⟩ (hs'.mem.mpr (Or.inl rfl)))
    · rw [hold q hqe] at hm
      refine h.idle q (fun a ha => ?_) ho t hm
      rw [hq] at ha
      rcases List.mem_cons.mp ha with rfl | ha
      · exact fun hae => hqe hae.symm
      · rcases hr.scheduleQueue with ⟨hs', _⟩ | ⟨_, _, hs'⟩
        · exact hu a (by rw [hs']; exact ha)
        · exact hu a (hs'.mem.mpr (Or.inr ha))
  · rw [hr.frame.period, hr.runs]
    split
    · rename_i hc
      refine List.pairwise_cons.mpr ⟨fun t hm => ?_, h.spaced q⟩
      rw [hc.1] at hm ⊢; exact hpast t hm
    · exact h.spaced q

theorem Paced.step {s s' : State} {a : Action} (hs : StoreOk s) (h : Paced s)
    (hok : EnablesUnqueued s a) (he : OeAware.step s a = .ok s') : Paced s' := by
  cases a with
  | message m ans =>
    obtain ⟨⟨s1, r⟩, h1, rfl⟩ := map_ok he
    have hf := handle_frame hs h1
    rcases handle_schedule hs h1 with hq | ⟨p, hen, hn⟩
    · exact h.congr hf.next.ge (hq.scheduleQueue ▸ List.Perm.refl _) hq.time.ge hq.runs
        (fun p _ => hf.interface p)
    · obtain ⟨n, hp⟩ := enables_exists_name hen
      exact h.nowEnabled hf hn (hs.alloc n p hp) (hok p hen).1 (hok p hen).2
  | tick =>
    obtain ⟨s1, h1, rfl⟩ := map_ok he
    have := tick_induct (P := Paced) (fun _ _ _ _ h hq ht hr => h.round hq ht hr) h h1
    exact this.congr (Nat.le_refl _) (List.Perm.refl _) (Nat.le_add_right _ _) (fun _ => rfl)
      (fun _ _ => rfl)
  | load name file =>
    cases he
    rcases loadPlugin_cases s name file with he | ⟨interfaces, _, hl⟩
    · rw [he]; exact h
    · rw [hl.eq]
      refine h.congr ?_ (List.Perm.refl _) (Nat.le_refl _) (fun _ => rfl) (fun p hp => ?_)
      · exact hl.next ▸ Nat.le_add_right _ _
      · dsimp only; rw [hl.old p (by omega)]
  | remove name =>
    cases he
    rcases remove_cases s name with he | ⟨plugin, hr⟩
    · rw [he]; exact h
    · rw [hr.eq]
      exact h.congr (Nat.le_refl _) (List.Perm.refl _) (Nat.le_refl _) (fun _ => rfl)
        (fun _ _ => rfl)
  | reorder o =>
    cases he
    exact h.congr (Nat.le_refl _) (queue_reorder s o).1 (Nat.le_refl _) (fun _ => rfl)
      (fun _ _ => rfl)

/-- PACED: in every run that enables only instances without a leftover entry, the queue holds at most
    one entry per instance, and two runs of an instance lie a period apart. -/
theorem queue_nodup_of_enablesUnqueued {s : State} (h : RunsOf EnablesUnqueued s) :
    (s.scheduleQueue.map (·.ptr)).Nodup ∧
    ∀ p, (s.runs p).Pairwise (fun later earlier => earlier + s.period p ≤ later) := by
  have : StoreOk s ∧ Paced s := Runs.invariant (I := fun s => StoreOk s ∧ Paced s)
    ⟨storeOk_init, paced_init⟩
    (fun _ _ _ hs hok he => ⟨storeOk_step hs.1 he, hs.2.step hs.1 hok he⟩) h
  exact ⟨this.2.nodup, this.2.spaced⟩

/-- Enabled, run, disabled, its entry dropped at its due time, enabled and run again. -/
theorem queue_nodup_of_late_enable :
    ∃ s, RunsOf EnablesUnqueued s ∧ s.runs 0 = [40, 0] ∧
      (s.scheduleQueue.map (·.ptr)).Nodup ∧
      ∀ p, (s.runs p).Pairwise (fun later earlier => earlier + s.period p ≤ later) := by
  have h : RunsOf EnablesUnqueued _ := Runs.of_runAll EnablesUnqueued
    [sampleLoad, .message (.ENABLED (str "i") []) accepting, .tick,
      .message (.DISABLED (str "i")) accepting, .tick, .tick, .tick,
      .message (.ENABLED (str "i") []) accepting, .tick] .start rfl
  exact ⟨_, h, by decide, queue_nodup_of_enablesUnqueued h⟩

/-- Enabled again before the old entry is popped, an instance is queued twice and runs twice. -/
theorem queue_duplicates :
    ¬ ∀ s, Reach s → (s.scheduleQueue.map (·.ptr)).Nodup ∧
      ∀ p, (s.runs p).Pairwise (fun later earlier => earlier + s.period p ≤ later) := by
  intro h
  have hd := (h _ (Runs.of_runAll (fun _ _ => True)
    [sampleLoad, .message (.ENABLED (str "i") []) accepting,
      .message (.DISABLED (str "i")) accepting,
      .message (.ENABLED (str "i") []) accepting] .start rfl)).1
  revert hd
  decide

/-! ### No entry of a removed plugin -/

/-- A plugin that the step removes has no entry left in the queue. -/
def RemovesUnqueued (s : State) : Action → Prop
  | .remove name => ∀ plugin ∈ s.memoryStore.plugins.find name,
      plugin.instances.any s.enabled = false → ∀ p ∈ plugin.instances, s.Unqueued p
  | _ => True

instance (s : State) : ∀ a, Decidable (RemovesUnqueued s a)
  | .remove name => inferInstanceAs (Decidable (∀ plugin ∈ s.memoryStore.plugins.find name, _ → _))
  | .message _ _ => isTrue trivial
  | .tick => isTrue trivial
  | .load _ _ => isTrue trivial
  | .reorder _ => isTrue trivial

/-- Some plugin in the store owns the object at `p`. -/
def State.Loaded (s : State) (p : InstancePtr) : Prop :=
  ∃ P plugin, s.memoryStore.plugins.find P = some plugin ∧ p ∈ plugin.instances

theorem State.Loaded.congr {s s' : State} {p : InstancePtr} (h : s.Loaded p)
    (hm : s'.memoryStore = s.memoryStore) : s'.Loaded p := by
  rw [State.Loaded, hm]; exact h

theorem queueLoaded_step {s s' : State} {a : Action} (hs : StoreOk s)
    (h : ∀ e ∈ s.scheduleQueue, s.Loaded e.ptr) (hok : RemovesUnqueued s a)
    (he : step s a = .ok s') : ∀ e ∈ s'.scheduleQueue, s'.Loaded e.ptr := by
  cases a with
  | message m ans =>
    obtain ⟨⟨s1, r⟩, h1, rfl⟩ := map_ok he
    have hf := (handle_frame hs h1).memoryStore
    intro e hm
    rcases handle_schedule hs h1 with hq | ⟨p, hen, hn⟩
    · exact (h e (hq.scheduleQueue ▸ hm)).congr hf
    · rcases hn.scheduleQueue.mem.mp hm with rfl | hm
      · obtain ⟨n, hp⟩ := enables_exists_name hen
        exact State.Loaded.congr (hs.owned n p hp) hf
      · exact (h e hm).congr hf
  | tick =>
    obtain ⟨s1, h1, rfl⟩ := map_ok he
    show ∀ e ∈ s1.scheduleQueue, s1.Loaded e.ptr
    refine tick_induct (P := fun s => ∀ e ∈ s.scheduleQueue, s.Loaded e.ptr) ?_ h h1
    intro s s' e rest h hq _ hr a ha
    have he := h e (by rw [hq]; exact List.mem_cons_self ..)
    have hrest : ∀ a ∈ rest, s.Loaded a.ptr := fun a ha =>
      h a (by rw [hq]; exact List.mem_cons_of_mem _ ha)
    rcases hr.scheduleQueue with ⟨hs', _⟩ | ⟨_, _, hs'⟩
    · exact (hrest a (hs' ▸ ha)).congr hr.frame.memoryStore
    · rcases hs'.mem.mp ha with rfl | ha
      · exact State.Loaded.congr he hr.frame.memoryStore
      · exact (hrest a ha).congr hr.frame.memoryStore
  | load name file =>
    cases he
    rcases loadPlugin_cases s name file with he | ⟨interfaces, _, hl⟩
    · rw [he]; exact h
    · intro e hm
      obtain ⟨P, plugin, hP, hp⟩ := h e (by rw [hl.eq] at hm; exact hm)
      have hne : P ≠ name := fun hn => by rw [hn, hl.fresh] at hP; cases hP
      exact ⟨P, plugin, by rw [hl.plugins P hne]; exact hP, hp⟩
  | remove name =>
    cases he
    rcases remove_cases s name with he | ⟨plugin, hr⟩
    · rw [he]; exact h
    · intro e hm
      rw [hr.eq] at hm
      obtain ⟨P, pl, hP, hp⟩ := h e hm
      -- an entry of the removed plugin itself is what the condition excludes
      have hne : P ≠ name := by
        rintro rfl
        rw [hr.found] at hP
        cases hP
        exact hok plugin hr.found hr.disabled e.ptr hp e hm rfl
      exact ⟨P, pl, by rw [hr.plugins, if_neg hne]; exact hP, hp⟩
  | reorder o =>
    cases he
    exact fun e hm => h e ((queue_reorder s o).1.mem_iff.mp hm)

/-- SAFE: in every run that removes a plugin only when none of its instances is queued, every queued
    instance belongs to a plugin in the store. -/
theorem queue_loaded_of_removesUnqueued {s : State} (h : RunsOf RemovesUnqueued s) :
    ∀ e ∈ s.scheduleQueue, ∃ P plugin, s.memoryStore.plugins.find P = some plugin ∧
      e.ptr ∈ plugin.instances := by
  have : StoreOk s ∧ ∀ e ∈ s.scheduleQueue, s.Loaded e.ptr :=
    Runs.invariant (I := fun s => StoreOk s ∧ ∀ e ∈ s.scheduleQueue, s.Loaded e.ptr)
      ⟨storeOk_init, fun e he => by cases he⟩
      (fun _ _ _ hs hok he => ⟨storeOk_step hs.1 he, queueLoaded_step hs.1 hs.2 hok he⟩) h
  exact this.2

/-- A plugin is removed after the tick that drops its entry; another one is queued meanwhile. -/
theorem queue_loaded_of_late_remove :
    ∃ s, RunsOf RemovesUnqueued s ∧ s.memoryStore.plugins.count (str "a.so") = false ∧
      s.scheduleQueue.map (·.ptr) = [3] ∧
      ∀ e ∈ s.scheduleQueue, ∃ P plugin, s.memoryStore.plugins.find P = some plugin ∧
        e.ptr ∈ plugin.instances := by
  have h : RunsOf RemovesUnqueued _ := Runs.of_runAll RemovesUnqueued
    [sampleLoad, .load (str "b.so") ⟨true, true, some [⟨str "n", [], 0, 1, 20⟩]⟩,
      .message (.ENABLED (str "i") []) accepting, .message (.ENABLED (str "n") []) accepting,
      .message (.DISABLED (str "i")) accepting, .tick, .remove (str "a.so")] .start rfl
  exact ⟨_, h, by decide, by decide, queue_loaded_of_removesUnqueued h⟩

/-- Removed before its entry is due, a disabled instance stays in the queue. -/
theorem queue_outlives_plugin :
    ¬ ∀ s, Reach s → ∀ e ∈ s.scheduleQueue, ∃ P plugin,
      s.memoryStore.plugins.find P = some plugin ∧ e.ptr ∈ plugin.instances := by
  intro h
  obtain ⟨P, plugin, hP, _⟩ := h _ (Runs.of_runAll (fun _ _ => True)
    [sampleLoad, .message (.ENABLED (str "i") []) accepting,
      .message (.DISABLED (str "i")) accepting, .remove (str "a.so")] .start rfl)
    ⟨0, 0⟩ (by decide)
  have hk := UMap.mem_keys_of_find hP
  revert hk
  exact List.not_mem_nil

end OeAware

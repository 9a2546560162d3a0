import OeAware.Manager.Queue

/-! @src src/plugin_mgr/instance_run_handler.cpp, docs/design | name:Schedule, Start, AddTime |
    scheme:state-machine

    `Schedule` runs the queue head only when it is due *now* and stops at anything else, so a single
    entry behind the clock would silence the scheduler for good. When every period is a positive
    multiple of the cycle this cannot happen: entries keep to the grid of the clock and never fall
    behind it, every `Schedule` ends with all due entries gone, and an instance that is to run again
    always has an entry. -/

namespace OeAware
open Schemes

/-- Every period that a plugin brings along is a positive multiple of the scheduler cycle. -/
def LoadsOnGrid (s : State) : Action → Prop
  | .load _ file => ∀ interfaces ∈ file.interfaceList, ∀ i ∈ interfaces,
      0 < i.period ∧ s.cycle ∣ i.period
  | _ => True

instance (s : State) : ∀ a, Decidable (LoadsOnGrid s a)
  | .load _ file => inferInstanceAs (Decidable (∀ interfaces ∈ file.interfaceList, _))
  | .message _ _ => isTrue trivial
  | .tick => isTrue trivial
  | .remove _ => isTrue trivial
  | .reorder _ => isTrue trivial

/-- Every enabled instance that is to run again has an entry. -/
def State.Served (s : State) : Prop :=
  ∀ p, s.enabled p = true → s.runOnce p = false → ∃ e ∈ s.scheduleQueue, e.ptr = p

/-- The queue is in step with the clock. -/
structure OnGrid (s : State) : Prop where
  cycle : 0 < s.cycle
  clock : s.cycle ∣ s.time
  periods : ∀ p : ℕ, p < s.next → 0 < s.period p ∧ s.cycle ∣ s.period p
  alloc : ∀ e ∈ s.scheduleQueue, (e.ptr : ℕ) < s.next
  inTime : InTime (·.time) s.scheduleQueue
  entries : ∀ e ∈ s.scheduleQueue, s.cycle ∣ e.time ∧ s.time ≤ e.time
  served : s.Served

theorem onGrid_init : OnGrid State.init where
  cycle := by decide
  clock := by decide
  periods p hp := absurd hp (Nat.not_lt_zero p)
  alloc e he := by cases he
  inTime := inTime_nil
  entries e he := by cases he
  served p hp := by cases hp

theorem dvd_firstDelay {c : ℕ} (i : Interface) (h : c ∣ i.period) : c ∣ State.firstDelay i := by
  unfold State.firstDelay
  split
  · exact h
  · split
    · exact Nat.dvd_mul_left_of_dvd h 2
    · exact dvd_zero c

theorem OnGrid.quiet {s s' : State} (h : OnGrid s) (hf : Frame s s') (hq : Quiet s s') :
    OnGrid s' where
  cycle := hf.cycle ▸ h.cycle
  clock := by rw [hf.cycle, hq.time]; exact h.clock
  periods p hp := by
    rw [hf.period, hf.cycle]; exact h.periods p (by rwa [hf.next] at hp)
  alloc e he := by rw [hf.next]; exact h.alloc e (hq.scheduleQueue ▸ he)
  inTime := by rw [hq.scheduleQueue]; exact h.inTime
  entries e he := by rw [hf.cycle, hq.time]; exact h.entries e (hq.scheduleQueue ▸ he)
  served p hp ho := by
    rw [hq.scheduleQueue]; exact h.served p (hq.enabled p hp) (by rwa [hf.runOnce] at ho)

theorem OnGrid.nowEnabled {s s' : State} {p : ℕ} (h : OnGrid s) (hf : Frame s s')
    (hn : NowEnabled s s' p) (hp : p < s.next) : OnGrid s' := by
  refine ⟨hf.cycle ▸ h.cycle, ?_, fun q hq => ?_, fun e he => ?_, hn.scheduleQueue.inTime h.inTime,
    fun e he => ?_, fun q hq ho => ?_⟩
  · rw [hf.cycle, hn.time]; exact h.clock
  · rw [hf.period, hf.cycle]; exact h.periods q (by rwa [hf.next] at hq)
  · rw [hf.next]
    rcases hn.scheduleQueue.mem.mp he with rfl | he
    · exact hp
    · exact h.alloc e he
  · rw [hf.cycle, hn.time]
    rcases hn.scheduleQueue.mem.mp he with rfl | he
    · exact ⟨Nat.dvd_add h.clock (dvd_firstDelay _ (h.periods p hp).2), Nat.le_add_right _ _⟩
    · exact h.entries e he
  · rcases hn.enabled q hq with hq | rfl
    · obtain ⟨e, he, hep⟩ := h.served q hq (by rwa [hf.runOnce] at ho)
      exact ⟨e, hn.scheduleQueue.mem.mpr (Or.inr he), hep⟩
    · exact ⟨_, hn.scheduleQueue.mem.mpr (Or.inl rfl), rfl⟩

/-- The entries that are due now. -/
def State.due (s : State) : ℕ := s.scheduleQueue.countP (fun e => e.time = s.time)

/-- A round keeps to the grid, and one entry less is due. -/
theorem OnGrid.round {s s' : State} {e : ScheduleInstance} {rest : List ScheduleInstance}
    (h : OnGrid s) (hq : s.scheduleQueue = e :: rest) (ht : e.time = s.time)
    (hr : Round s s' e rest) : OnGrid s' ∧ s'.due + 1 = s.due := by
  have hrest : ∀ a ∈ rest, a ∈ s.scheduleQueue := fun a ha => by
    rw [hq]; exact List.mem_cons_of_mem _ ha
  have halloc := h.alloc e (by rw [hq]; exact List.mem_cons_self ..)
  obtain ⟨hpos, hdvd⟩ := h.periods e.ptr halloc
  have hin : InTime (·.time) rest := by have := h.inTime; rw [hq] at this; exact this.tail
  have hf := hr.frame
  -- an instance other than the popped one keeps its entry
  have hserved : ∀ q, q ≠ e.ptr → s'.enabled q = true → s'.runOnce q = false →
      ∃ a ∈ rest, a.ptr = q := by
    intro q hne hen ho
    obtain ⟨a, ha, haq⟩ := h.served q (hr.enabled q hen).1 (by rwa [hf.runOnce] at ho)
    rw [hq] at ha
    rcases List.mem_cons.mp ha with rfl | ha
    · exact absurd haq.symm hne
    · exact ⟨a, ha, haq⟩
  have hdue : s.due = rest.countP (fun e => e.time = s.time) + 1 := by
    simp [State.due, hq, ht]
  have hclock : s'.cycle ∣ s'.time := by rw [hf.cycle, hr.time]; exact h.clock
  have hper : ∀ p : ℕ, p < s'.next → 0 < s'.period p ∧ s'.cycle ∣ s'.period p := fun p hp => by
    rw [hf.period, hf.cycle]; exact h.periods p (by rwa [hf.next] at hp)
  rcases hr.scheduleQueue with ⟨hs', honce⟩ | ⟨_, _, hs'⟩
  · refine ⟨⟨hf.cycle ▸ h.cycle, hclock, hper, fun a ha => ?_, hs' ▸ hin, fun a ha => ?_,
      fun q hen ho => ?_⟩, ?_⟩
    · rw [hf.next]; exact h.alloc a (hrest a (hs' ▸ ha))
    · rw [hf.cycle, hr.time]; exact h.entries a (hrest a (hs' ▸ ha))
    · rw [hs']
      by_cases hne : q = e.ptr
      · subst hne
        obtain ⟨h1, h2⟩ := hr.enabled _ hen
        have := honce h1
        rw [h2 rfl] at this; cases this
      · exact hserved q hne hen ho
    · rw [hdue, State.due, hs', hr.time]
  · refine ⟨⟨hf.cycle ▸ h.cycle, hclock, hper, fun a ha => ?_, hs'.inTime hin, fun a ha => ?_,
      fun q hen ho => ?_⟩, ?_⟩
    · rw [hf.next]
      rcases hs'.mem.mp ha with rfl | ha
      · exact halloc
      · exact h.alloc a (hrest a ha)
    · rw [hf.cycle, hr.time]
      rcases hs'.mem.mp ha with rfl | ha
      · exact ⟨Nat.dvd_add h.clock hdvd, Nat.le_add_right _ _⟩
      · exact h.entries a (hrest a ha)
    · by_cases hne : q = e.ptr
      · exact ⟨_, hs'.mem.mpr (Or.inl rfl), hne.symm⟩
      · obtain ⟨a, ha, haq⟩ := hserved q hne hen ho
        exact ⟨a, hs'.mem.mpr (Or.inr ha), haq⟩
    · -- the new entry is due a period from now
      rw [hdue, State.due, hr.time, hs'.perm.countP_eq, List.countP_cons_of_neg]
      simpa using hpos.ne'

theorem OnGrid.scheduleOne {s s' : State} (h : OnGrid s) (he : s.scheduleOne = some s') :
    OnGrid s' ∧ s'.time = s.time ∧ s'.due + 1 = s.due := by
  obtain ⟨e, rest, hq, ht, ho⟩ := scheduleOne_outcome he
  obtain ⟨h1, h2⟩ := h.round hq ht ho.round
  exact ⟨h1, ho.round.time, h2⟩

/-- Enough fuel for the entries that are due is enough. -/
theorem scheduleLoop_ok : ∀ (n : ℕ) {s : State}, OnGrid s → s.due < n →
    ∃ s', State.scheduleLoop n s = .ok s' ∧ OnGrid s' ∧ s'.time = s.time ∧ s'.scheduleOne = none
  | 0, s, _, hn => absurd hn (Nat.not_lt_zero _)
  | n + 1, s, h, hn => by
    rw [State.scheduleLoop]
    cases he : s.scheduleOne with
    | none => exact ⟨s, rfl, h, rfl, he⟩
    | some s1 =>
      obtain ⟨h1, ht, hd⟩ := h.scheduleOne he
      obtain ⟨s', hs', hg, ht', hn'⟩ := scheduleLoop_ok n h1 (by omega)
      exact ⟨s', hs', hg, ht'.trans ht, hn'⟩

/-- `Schedule` ends, on the grid, and what is left in the queue is due later. -/
theorem OnGrid.schedule {s : State} (h : OnGrid s) :
    ∃ s', s.schedule = .ok s' ∧ OnGrid s' ∧ s'.time = s.time ∧
      ∀ e ∈ s'.scheduleQueue, s.time < e.time := by
  have hfuel : s.due < s.scheduleQueue.length + 1 := Nat.lt_succ_of_le List.countP_le_length
  obtain ⟨s', hs', hg, ht, hnone⟩ := scheduleLoop_ok _ h hfuel
  refine ⟨s', hs', hg, ht, fun e he => ?_⟩
  cases hq : s'.scheduleQueue with
  | nil => rw [hq] at he; cases he
  | cons a rest =>
    -- the head is not due, nothing is behind the clock, and the head is the earliest
    have hhead : a.time ≠ s'.time := scheduleOne_none hnone a rest hq
    have hge := (hg.entries a (by rw [hq]; exact List.mem_cons_self ..)).2
    have hle : a.time ≤ e.time := by
      have := hg.inTime
      rw [hq] at this he
      exact this.head_le he
    omega

theorem OnGrid.addTime {s : State} (h : OnGrid s) (hlt : ∀ e ∈ s.scheduleQueue, s.time < e.time) :
    OnGrid s.addTime := by
  refine ⟨h.cycle, Nat.dvd_add h.clock (dvd_refl _), h.periods, h.alloc, h.inTime, fun e he => ?_,
    h.served⟩
  obtain ⟨hd, _⟩ := h.entries e he
  refine ⟨hd, ?_⟩
  -- the next grid point after the clock is the first an entry can stand at
  obtain ⟨k, hk⟩ := Nat.dvd_sub hd h.clock
  have hl := hlt e he
  have hk0 : 0 < k := by
    rcases Nat.eq_zero_or_pos k with rfl | hp
    · omega
    · exact hp
  have := Nat.le_mul_of_pos_right s.cycle hk0
  show s.time + s.cycle ≤ e.time
  omega

theorem OnGrid.step {s s' : State} {a : Action} (hs : StoreOk s) (h : OnGrid s)
    (hok : LoadsOnGrid s a) (he : OeAware.step s a = .ok s') : OnGrid s' := by
  cases a with
  | message m ans =>
    obtain ⟨⟨s1, r⟩, h1, rfl⟩ := map_ok he
    have hf := handle_frame hs h1
    rcases handle_schedule hs h1 with hq | ⟨p, hen, hn⟩
    · exact h.quiet hf hq
    · obtain ⟨n, hp⟩ := enables_exists_name hen
      exact h.nowEnabled hf hn (hs.alloc n p hp)
  | tick =>
    obtain ⟨s1, h1, rfl⟩ := map_ok he
    obtain ⟨s2, h2, hg, ht, hlt⟩ := h.schedule
    rw [h1, Except.ok.injEq] at h2
    subst h2
    exact hg.addTime (by rwa [ht])
  | load name file =>
    cases he
    rcases loadPlugin_cases s name file with he | ⟨interfaces, hi, hl⟩
    · rw [he]; exact h
    · have hold : ∀ p : ℕ, p < s.next → (s.loadPlugin name file).1.heap p = s.heap p :=
        fun p hp => hl.old p (by omega)
      have hle : s.next ≤ (s.loadPlugin name file).1.next := hl.next ▸ Nat.le_add_right _ _
      rw [hl.eq]
      refine ⟨h.cycle, h.clock, fun p hp => ?_, fun e he => ?_, h.inTime, h.entries,
        fun p hp ho => ?_⟩
      · by_cases hlt : p < s.next
        · show 0 < ((s.loadPlugin name file).1.heap p).interface.period ∧ _
          simp only [State.period, hold p hlt]
          exact h.periods p hlt
        · obtain ⟨i, him, hnew⟩ := hl.new p (by omega) hp
          simp only [State.period, hnew]
          exact hok interfaces hi i him
      · exact Nat.lt_of_lt_of_le (h.alloc e he) hle
      · simp only [State.enabled, State.runOnce] at hp ho
        by_cases hnew : s.next ≤ p ∧ p < (s.loadPlugin name file).1.next
        · obtain ⟨i, _, hh⟩ := hl.new p hnew.1 hnew.2
          rw [hh] at hp; cases hp
        · rw [hl.old p hnew] at hp ho
          exact h.served p hp ho
  | remove name =>
    cases he
    rcases remove_cases s name with he | ⟨plugin, hr⟩
    · rw [he]; exact h
    · rw [hr.eq]
      exact ⟨h.cycle, h.clock, h.periods, h.alloc, h.inTime, h.entries, h.served⟩
  | reorder o =>
    cases he
    obtain ⟨hperm, hord⟩ := queue_reorder s o
    refine ⟨h.cycle, h.clock, h.periods, fun e he => h.alloc e (hperm.mem_iff.mp he), ?_,
      fun e he => h.entries e (hperm.mem_iff.mp he), fun p hp ho => ?_⟩
    · rcases hord with hq | hp
      · rw [hq]; exact h.inTime
      · exact hp.imp (fun {a b} hab => Nat.le_of_not_lt (not_or.mp hab).1)
    · obtain ⟨e, he, hep⟩ := h.served p hp ho
      exact ⟨e, hperm.mem_iff.mpr he, hep⟩

theorem onGrid_runs {s : State} (h : RunsOf LoadsOnGrid s) : OnGrid s :=
  (Runs.invariant (I := fun s => StoreOk s ∧ OnGrid s) ⟨storeOk_init, onGrid_init⟩
    (fun _ _ _ hs hok he => ⟨storeOk_step hs.1 he, hs.2.step hs.1 hok he⟩) h).2

theorem runs_handleMessage {ok : State → Action → Prop} (hok : ∀ s m ans, ok s (.message m ans)) :
    ∀ (msgs : List (InstanceRunMessage × Answers)) {s s' : State} {go : Bool}, RunsOf ok s →
    s.handleMessage msgs = .ok (s', go) → RunsOf ok s'
  | [], s, s', go, h, he => by
    cases he; exact h
  | (m, ans) :: msgs, s, s', go, h, he => by
    unfold State.handleMessage at he
    split at he
    · rename_i heq; cases heq
    · cases he; exact h
    · rename_i heq
      cases heq
      split at he
      · cases he
      · rename_i s1 r h1
        exact runs_handleMessage hok msgs (.next h (hok s m ans) (by rw [step, h1]; rfl)) he

/-- A round of `Start` whose messages do not fault returns, and is a run: the messages one by one,
    then the tick. -/
theorem start_returns {msgs : List (InstanceRunMessage × Answers)} {s s1 : State}
    (h : RunsOf LoadsOnGrid s) (hm : s.handleMessage msgs = .ok (s1, true)) :
    ∃ s', s.start msgs = .ok (s', true) ∧ RunsOf LoadsOnGrid s' := by
  have h1 : RunsOf LoadsOnGrid s1 := runs_handleMessage (fun _ _ _ => trivial) msgs h hm
  obtain ⟨s2, h2, _⟩ := (onGrid_runs h1).schedule
  refine ⟨s2.addTime, ?_, .next (a := .tick) h1 trivial ?_⟩
  · rw [State.start, hm]
    dsimp only
    rw [h2]; rfl
  · rw [step, h2]; rfl

end OeAware

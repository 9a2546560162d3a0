import OeAware.Manager.Machine

/-! @src src/plugin_mgr/instance_run_handler.cpp, instance_run_handler.h | name:Schedule,
    ScheduleInstance::operator< | scheme:state-machine

    One call of `Schedule` on any queue that is not behind the clock. The loop pops and pushes the same
    priority queue; what it pushes is due later, so the entries that are due now come off one by one, in the
    order of the queue, and each is looked at once.

        due now ─ pop ─▶ disabled ──────────────▶ gone
                         enabled, runs once ────▶ Run, disabled
                         enabled ───────────────▶ Run, entry at now + period -/

namespace OeAware
open Schemes

namespace State

/-- The queue is listed in an order in which it can be popped. -/
def Ordered (s : State) : Prop := s.scheduleQueue.Pairwise (fun a b => ¬ s.lt a b)

instance (s : State) : Decidable s.Ordered := inferInstanceAs (Decidable (List.Pairwise _ _))

/-- Of some entries those that run, where the entries `before` have been popped: an instance that runs once is
    disabled when its first entry has run. -/
def ranOf (s : State) : List ScheduleInstance → List ScheduleInstance → List ScheduleInstance
  | _, [] => []
  | before, e :: es =>
    if s.enabled e.ptr = true ∧ (s.runOnce e.ptr = true → ∀ b ∈ before, b.ptr ≠ e.ptr) then
      e :: s.ranOf (e :: before) es
    else s.ranOf (e :: before) es

/-- The entries that are due now. -/
def dueNow (s : State) : List ScheduleInstance := s.scheduleQueue.filter (fun e => e.time = s.time)

/-- The entries that a tick runs, in their order. -/
def ranNow (s : State) : List ScheduleInstance := s.ranOf [] s.dueNow

/-- The entries that are not due now. -/
def notDue (s : State) : List ScheduleInstance := s.scheduleQueue.filter (fun e => e.time ≠ s.time)

/-- The calls that are made for an entry that runs, the latest first. -/
def callsOf (s : State) (e : ScheduleInstance) : List CallRecord :=
  if s.runOnce e.ptr then ⟨s.time, e.ptr, .disable⟩ ::
    ((s.closedBy e.ptr).reverse.map (fun t => (⟨s.time, e.ptr, .closeTopic t⟩ : CallRecord)) ++
      [⟨s.time, e.ptr, .run⟩])
  else [⟨s.time, e.ptr, .run⟩]

/-- The entries that are pushed for those that have run. -/
def again (s : State) (ran : List ScheduleInstance) : List ScheduleInstance :=
  (ran.filter (fun e => !s.runOnce e.ptr)).map (fun e => ⟨e.ptr, s.time + s.period e.ptr⟩)

/-- The objects after `ran` has run: those that run once are disabled. -/
def heapAfter (s : State) (ran : List ScheduleInstance) (p : InstancePtr) : Instance :=
  if (∃ e ∈ ran, e.ptr = p) ∧ s.runOnce p = true then { s.heap p with enabled := false } else s.heap p

end State

/-- What a call of `Schedule` makes of a state. -/
structure Scheduled (s s' : State) : Prop where
  calls : s'.calls = (s.ranNow.map s.callsOf).reverse.flatten ++ s.calls
  runs : s'.calls.filter (fun c => c.call = .run) =
    (s.ranNow.map (fun e => (⟨s.time, e.ptr, .run⟩ : CallRecord))).reverse ++
      s.calls.filter (fun c => c.call = .run)
  order : s.ranNow.Pairwise (fun a b => ¬ s.lt a b)
  /-- Every enabled entry runs, if no instance that runs once has another entry before it. -/
  each : s.dueNow.Pairwise (fun a b => s.runOnce b.ptr = true → a.ptr ≠ b.ptr) →
    s.ranNow = s.dueNow.filter (fun e => s.enabled e.ptr)
  heap : s'.heap = s.heapAfter s.ranNow
  queue : s'.scheduleQueue.Perm (s.again s.ranNow ++ s.notDue)
  untouched : s.notDue.Sublist s'.scheduleQueue
  ordered : s'.Ordered
  rest : s' = { s with heap := s'.heap, scheduleQueue := s'.scheduleQueue, calls := s'.calls }

namespace State

/-- Where `ran` has run and `queue` is left. -/
def after (s : State) (ran queue : List ScheduleInstance) : State :=
  { s with
    heap := s.heapAfter ran
    scheduleQueue := queue
    calls := (ran.map s.callsOf).reverse.flatten ++ s.calls }

variable (s : State) (ran queue : List ScheduleInstance)

theorem after_nil : s.after [] s.scheduleQueue = s := by
  have hheap : s.heapAfter [] = s.heap := by
    funext p
    simp [heapAfter]
  rw [after, hheap]
  rfl

theorem interface_after (p : InstancePtr) :
    ((s.after ran queue).heap p).interface = (s.heap p).interface := by
  simp only [after, heapAfter]
  split <;> rfl

theorem runOnce_after (p : InstancePtr) : (s.after ran queue).runOnce p = s.runOnce p := by
  rw [runOnce, interface_after]
  rfl

theorem period_after (p : InstancePtr) : (s.after ran queue).period p = s.period p := by
  rw [period, interface_after]
  rfl

theorem closedBy_after (p : InstancePtr) : (s.after ran queue).closedBy p = s.closedBy p := by
  simp only [closedBy, after, heapAfter]
  split <;> rfl

theorem enabled_after (p : InstancePtr) : (s.after ran queue).enabled p = true ↔
    s.enabled p = true ∧ ¬ ((∃ e ∈ ran, e.ptr = p) ∧ s.runOnce p = true) := by
  simp only [enabled, after, heapAfter]
  split
  · rename_i h
    exact iff_of_false (by simp) (fun hh => hh.2 h)
  · rename_i h
    exact (and_iff_left h).symm

theorem heapAfter_append (e : ScheduleInstance) (p : InstancePtr) :
    s.heapAfter (ran ++ [e]) p = if p = e.ptr ∧ s.runOnce e.ptr = true then
      { s.heapAfter ran p with enabled := false } else s.heapAfter ran p := by
  have hmem : (∃ x ∈ ran ++ [e], x.ptr = p) ↔ (∃ x ∈ ran, x.ptr = p) ∨ e.ptr = p := by
    simp only [List.mem_append, List.mem_singleton, or_and_right, exists_or, exists_eq_left]
  simp only [heapAfter, hmem]
  by_cases hp : p = e.ptr
  · subst hp
    by_cases hr : ∃ x ∈ ran, x.ptr = e.ptr <;> by_cases ho : s.runOnce e.ptr = true <;> simp [hr, ho]
  · simp [hp, Ne.symm hp]

theorem calls_append (e : ScheduleInstance) : ((ran ++ [e]).map s.callsOf).reverse.flatten =
    s.callsOf e ++ (ran.map s.callsOf).reverse.flatten := by
  simp

/-- An entry of an instance that runs once has run. -/
theorem after_once {e : ScheduleInstance} (ho : s.runOnce e.ptr = true) :
    ((s.after ran queue).call e.ptr .run).closeInstance e.ptr = s.after (ran ++ [e]) queue := by
  have hheap : s.heapAfter (ran ++ [e]) = fun q =>
      if q = e.ptr then { s.heapAfter ran q with enabled := false } else s.heapAfter ran q := by
    funext q
    rw [heapAfter_append]
    simp only [ho, and_true]
  have hclosed : ((s.after ran queue).call e.ptr .run).closedBy e.ptr = s.closedBy e.ptr :=
    s.closedBy_after ran queue e.ptr
  rw [closeInstance_eq, hclosed]
  simp only [after, call, hheap, calls_append, callsOf, if_pos ho]
  simp

/-- The order in which a queue is popped depends on the priorities only. -/
theorem orderedInsert_congr {r r' : ScheduleInstance → ScheduleInstance → Prop} [DecidableRel r]
    [DecidableRel r'] (h : ∀ a b, r a b ↔ r' a b) (e : ScheduleInstance) :
    ∀ q : List ScheduleInstance, q.orderedInsert r e = q.orderedInsert r' e
  | [] => rfl
  | a :: q => by
    simp only [List.orderedInsert_cons, h, orderedInsert_congr h e q]

/-- An entry of another instance has run. -/
theorem after_again {e e' : ScheduleInstance} (ho : s.runOnce e.ptr = false) :
    ((s.after ran queue).call e.ptr .run).push e' =
      s.after (ran ++ [e]) (queue.orderedInsert (fun a b => ¬ s.lt a b) e') := by
  have hheap : s.heapAfter (ran ++ [e]) = s.heapAfter ran := by
    funext q
    rw [heapAfter_append]
    simp [ho]
  have hlt : ∀ a b, ¬ ((s.after ran queue).call e.ptr .run).lt a b ↔ ¬ s.lt a b := by
    intro a b
    simp only [lt, call, interface_after]
  rw [push, orderedInsert_congr hlt]
  simp only [after, call, hheap, calls_append, callsOf, ho]
  simp

end State

/-! ### The order of the queue -/

instance (s : State) : Std.Total (fun a b => ¬ s.lt a b) where
  total a b := by
    unfold State.lt
    omega

instance (s : State) : IsTrans ScheduleInstance (fun a b => ¬ s.lt a b) where
  trans a b c hab hbc := by
    unfold State.lt at *
    omega

/-- A new entry goes behind everything that is due before it. -/
theorem orderedInsert_append {s : State} {e : ScheduleInstance} {later : List ScheduleInstance} :
    ∀ {due : List ScheduleInstance}, (∀ d ∈ due, d.time < e.time) →
    (due ++ later).orderedInsert (fun a b => ¬ s.lt a b) e =
      due ++ later.orderedInsert (fun a b => ¬ s.lt a b) e
  | [], _ => rfl
  | d :: due, h => by
    obtain ⟨hd, hdue⟩ := List.forall_mem_cons.mp h
    have hlt : s.lt e d := Or.inl hd
    rw [List.cons_append, List.orderedInsert_cons, if_neg (not_not.mpr hlt), orderedInsert_append hdue]
    rfl

/-- In a queue that is not behind the clock what is due comes first. -/
theorem queue_eq {t : ℕ} : ∀ {q : List ScheduleInstance}, q.Pairwise (fun a b => a.time ≤ b.time) →
    (∀ e ∈ q, t ≤ e.time) → q = q.filter (fun e => e.time = t) ++ q.filter (fun e => e.time ≠ t)
  | [], _, _ => rfl
  | e :: q, h, hle => by
    obtain ⟨hhead, htail⟩ := List.pairwise_cons.mp h
    obtain ⟨he, hq⟩ := List.forall_mem_cons.mp hle
    have ih := queue_eq htail hq
    by_cases ht : e.time = t
    · rw [List.filter_cons_of_pos (by simpa using ht), List.filter_cons_of_neg (by simpa using ht),
        List.cons_append, ← ih]
    · -- nothing behind `e` is due
      have hnone : q.filter (fun e => e.time = t) = [] := by
        rw [List.filter_eq_nil_iff]
        intro a ha
        have := hhead a ha
        simp only [decide_eq_true_eq]
        omega
      rw [hnone, List.nil_append] at ih
      rw [List.filter_cons_of_neg (by simpa using ht), List.filter_cons_of_pos (by simpa using ht),
        hnone, List.nil_append, ← ih]

/-! ### Half way through -/

/-- `Schedule` in a round: it began in `s`, has popped `before` and run `ran` of it, and the queue is `due` and
    then `later`. -/
structure Midway (s : State) (before ran due later : List ScheduleInstance) : Prop where
  met : ∀ p, s.enabled p = true → ((∃ e ∈ ran, e.ptr = p) ↔ ∃ b ∈ before, b.ptr = p)
  now : ∀ e ∈ due, e.time = s.time ∧ 0 < s.period e.ptr
  after : ∀ e ∈ later, s.time < e.time
  perm : later.Perm (s.again ran ++ s.notDue)
  untouched : s.notDue.Sublist later
  ordered : (due ++ later).Pairwise (fun a b => ¬ s.lt a b)

/-- The entry runs if `before` has been popped. -/
def State.RunsAfter (s : State) (before : List ScheduleInstance) (e : ScheduleInstance) : Prop :=
  s.enabled e.ptr = true ∧ (s.runOnce e.ptr = true → ∀ b ∈ before, b.ptr ≠ e.ptr)

namespace Midway
variable {s : State} {before ran due later : List ScheduleInstance} {e : ScheduleInstance}

/-- The instance is enabled when its entry is popped exactly if the entry runs. -/
theorem enabled_iff (h : Midway s before ran (e :: due) later) :
    (s.after ran (e :: due ++ later)).enabled e.ptr = true ↔ s.RunsAfter before e := by
  rw [State.enabled_after, State.RunsAfter]
  refine and_congr_right (fun hen => ?_)
  rw [h.met _ hen]
  constructor
  · exact fun hnot ho b hb hbe => hnot ⟨⟨b, hb, hbe⟩, ho⟩
  · rintro hfirst ⟨⟨b, hb, hbe⟩, ho⟩
    exact hfirst ho b hb hbe

theorem scheduleOne_eq (h : Midway s before ran (e :: due) later) :
    (s.after ran (e :: due ++ later)).scheduleOne =
      if (s.after ran (due ++ later)).enabled e.ptr then
        if s.runOnce e.ptr then
          some (((s.after ran (due ++ later)).call e.ptr .run).closeInstance e.ptr)
        else some (((s.after ran (due ++ later)).call e.ptr .run).push
          ⟨e.ptr, s.time + s.period e.ptr⟩)
      else some (s.after ran (due ++ later)) := by
  have ht := (h.now e (List.mem_cons_self ..)).1
  have ho := s.runOnce_after ran (due ++ later) e.ptr
  have hp := s.period_after ran (due ++ later) e.ptr
  rw [← ho, ← hp, ← ht]
  exact if_neg (not_not.mpr ht)

theorem popped_idle (h : Midway s before ran (e :: due) later) (hno : ¬ s.RunsAfter before e) :
    (s.after ran (e :: due ++ later)).scheduleOne = some (s.after ran (due ++ later)) ∧
      Midway s (e :: before) ran due later := by
  refine ⟨?_, fun p hp => ?_, fun a ha => h.now a (List.mem_cons_of_mem _ ha), h.after, h.perm,
    h.untouched, (List.pairwise_cons.mp h.ordered).2⟩
  · rw [h.scheduleOne_eq]
    exact if_neg (fun hen => hno (h.enabled_iff.mp hen))
  · rw [h.met p hp, List.exists_mem_cons_iff]
    constructor
    · exact Or.inr
    · rintro (rfl | hb)
      · -- it is enabled and does not run: an entry of it has been popped
        by_contra hnone
        exact hno ⟨hp, fun _ b hb hbe => hnone ⟨b, hb, hbe⟩⟩
      · exact hb

theorem popped_run (h : Midway s before ran (e :: due) later) (hruns : s.RunsAfter before e) :
    ∃ later', (s.after ran (e :: due ++ later)).scheduleOne =
      some (s.after (ran ++ [e]) (due ++ later')) ∧ Midway s (e :: before) (ran ++ [e]) due later' := by
  obtain ⟨ht, hpos⟩ := h.now e (List.mem_cons_self ..)
  have hen : (s.after ran (due ++ later)).enabled e.ptr = true := h.enabled_iff.mpr hruns
  have hmet : ∀ p, s.enabled p = true →
      ((∃ x ∈ ran ++ [e], x.ptr = p) ↔ ∃ b ∈ e :: before, b.ptr = p) := by
    intro p hp
    rw [List.exists_mem_cons_iff, ← h.met p hp]
    simp only [List.mem_append, List.mem_singleton, or_and_right, exists_or, exists_eq_left]
    exact or_comm
  have hdue : ∀ a ∈ due, a.time = s.time ∧ 0 < s.period a.ptr :=
    fun a ha => h.now a (List.mem_cons_of_mem e ha)
  have htail := (List.pairwise_cons.mp h.ordered).2
  rw [h.scheduleOne_eq, if_pos hen]
  cases ho : s.runOnce e.ptr with
  | true =>
    have hagain : s.again (ran ++ [e]) = s.again ran := by simp [State.again, ho]
    refine ⟨later, ?_, hmet, hdue, h.after, hagain ▸ h.perm, h.untouched, htail⟩
    rw [if_pos rfl, s.after_once ran _ ho]
  | false =>
    -- the new entry is due later than all that is due now
    let e' : ScheduleInstance := ⟨e.ptr, s.time + s.period e.ptr⟩
    have hlater : s.time < e'.time := Nat.lt_add_of_pos_right hpos
    have hins : (due ++ later).orderedInsert (fun a b => ¬ s.lt a b) e' =
        due ++ later.orderedInsert (fun a b => ¬ s.lt a b) e' :=
      orderedInsert_append (fun d hd => (hdue d hd).1 ▸ hlater)
    have hagain : s.again (ran ++ [e]) = s.again ran ++ [e'] := by simp [State.again, ho, e']
    refine ⟨later.orderedInsert (fun a b => ¬ s.lt a b) e', ?_, hmet, hdue, ?_, ?_, ?_, ?_⟩
    · rw [if_neg (by simp), s.after_again ran _ ho, ← hins]
    · intro a ha
      rcases List.mem_cons.mp ((List.perm_orderedInsert _ e' later).mem_iff.mp ha) with rfl | ha
      · exact hlater
      · exact h.after a ha
    · rw [hagain, List.append_assoc]
      refine (List.perm_orderedInsert _ e' later).trans ((h.perm.cons e').trans ?_)
      exact List.perm_middle.symm
    · exact h.untouched.trans (List.sublist_orderedInsert e' later)
    · rw [← hins]
      exact htail.orderedInsert e' _

/-- From any round on the loop ends, and what is due runs in its order. -/
theorem scheduleLoop : ∀ {due before ran later : List ScheduleInstance} {n : ℕ},
    Midway s before ran due later → due.length < n →
    ∃ later', State.scheduleLoop n (s.after ran (due ++ later)) =
        .ok (s.after (ran ++ s.ranOf before due) later') ∧
      Midway s (due.reverse ++ before) (ran ++ s.ranOf before due) [] later'
  | _, _, _, _, 0, _, hn => absurd hn (Nat.not_lt_zero _)
  | [], before, ran, later, n + 1, h, _ => by
    refine ⟨later, ?_, by simpa [State.ranOf] using h⟩
    have hnone : (s.after ran ([] ++ later)).scheduleOne = none := by
      cases later with
      | nil => rfl
      | cons a rest =>
        have := h.after a (List.mem_cons_self ..)
        exact if_pos (by show a.time ≠ s.time; omega)
    rw [State.scheduleLoop, hnone, State.ranOf, List.append_nil]
    rfl
  | e :: due, before, ran, later, n + 1, h, hn => by
    rw [List.length_cons] at hn
    rw [State.scheduleLoop]
    by_cases hruns : s.RunsAfter before e
    · obtain ⟨later', h1, h2⟩ := h.popped_run hruns
      obtain ⟨later'', h3, h4⟩ := @scheduleLoop due (e :: before) (ran ++ [e]) later' n h2 (by omega)
      have heq : s.ranOf before (e :: due) = e :: s.ranOf (e :: before) due := if_pos hruns
      rw [List.append_assoc] at h3 h4
      rw [h1, heq]
      exact ⟨later'', h3, by simpa using h4⟩
    · obtain ⟨h1, h2⟩ := h.popped_idle hruns
      obtain ⟨later'', h3, h4⟩ := @scheduleLoop due (e :: before) ran later n h2 (by omega)
      have heq : s.ranOf before (e :: due) = s.ranOf (e :: before) due := if_neg hruns
      rw [h1, heq]
      exact ⟨later'', h3, by simpa using h4⟩

end Midway

theorem ranOf_sublist (s : State) : ∀ (before due : List ScheduleInstance),
    (s.ranOf before due).Sublist due
  | _, [] => List.Sublist.refl _
  | before, e :: due => by
    rw [State.ranOf]
    split
    · exact (ranOf_sublist s (e :: before) due).cons_cons e
    · exact (ranOf_sublist s (e :: before) due).cons e

theorem ranOf_eq_filter {s : State} : ∀ {before due : List ScheduleInstance},
    (∀ e ∈ due, s.runOnce e.ptr = true → ∀ b ∈ before, b.ptr ≠ e.ptr) →
    due.Pairwise (fun a b => s.runOnce b.ptr = true → a.ptr ≠ b.ptr) →
    s.ranOf before due = due.filter (fun e => s.enabled e.ptr)
  | _, [], _, _ => rfl
  | before, e :: due, hbefore, hdue => by
    obtain ⟨he, hrest⟩ := List.forall_mem_cons.mp hbefore
    obtain ⟨hfirst, htail⟩ := List.pairwise_cons.mp hdue
    have ih : s.ranOf (e :: before) due = due.filter (fun e => s.enabled e.ptr) :=
      ranOf_eq_filter (fun a ha ho => List.forall_mem_cons.mpr ⟨hfirst a ha ho, hrest a ha ho⟩) htail
    rw [State.ranOf, ih, List.filter_cons]
    exact if_congr (and_iff_left he) rfl rfl

theorem filter_callsOf (s : State) (e : ScheduleInstance) :
    (s.callsOf e).filter (fun c => c.call = .run) = [⟨s.time, e.ptr, .run⟩] := by
  rw [State.callsOf]
  split <;> simp [List.filter_append, List.filter_eq_nil_iff]

/-- Of what a tick calls one `Run` is made for each entry that runs. -/
theorem filter_calls (s : State) : ∀ ran : List ScheduleInstance,
    ((ran.map s.callsOf).reverse.flatten).filter (fun c => c.call = .run) =
      (ran.map (fun e => (⟨s.time, e.ptr, .run⟩ : CallRecord))).reverse
  | [] => rfl
  | e :: ran => by
    rw [List.map_cons, List.reverse_cons, List.flatten_append, List.filter_append, filter_calls s ran]
    simp [filter_callsOf]

/-- A TICK, EXACTLY: on every queue that is not behind the clock and whose instances have positive periods,
    `Schedule` ends; it runs what is due and enabled in the order of the queue, an instance that runs once
    for the first of its entries only and disables it, and nothing else; what ran and runs again is due a
    period from now, other due entries are gone, and those that are not due are untouched. -/
theorem schedule_tick {s : State} (ho : s.Ordered)
    (hq : ∀ e ∈ s.scheduleQueue, s.time ≤ e.time ∧ 0 < s.period e.ptr) :
    ∃ s', s.schedule = .ok s' ∧ Scheduled s s' := by
  have htime : s.scheduleQueue.Pairwise (fun a b => a.time ≤ b.time) :=
    ho.imp (fun {a b} hab => Nat.le_of_not_lt (not_or.mp hab).1)
  have hsplit := queue_eq htime (fun e he => (hq e he).1)
  have hstart : Midway s [] [] s.dueNow s.notDue := by
    refine ⟨by simp, fun e he => ?_, fun e he => ?_, List.Perm.refl _, List.Sublist.refl _, ?_⟩
    · obtain ⟨hm, ht⟩ := List.mem_filter.mp he
      exact ⟨of_decide_eq_true ht, (hq e hm).2⟩
    · obtain ⟨hm, ht⟩ := List.mem_filter.mp he
      have := (hq e hm).1
      have := of_decide_eq_true ht
      omega
    · rw [State.dueNow, State.notDue, ← hsplit]
      exact ho
  obtain ⟨later, hloop, hend⟩ := hstart.scheduleLoop
    (Nat.lt_succ_of_le (List.length_filter_le (fun e => decide (e.time = s.time)) s.scheduleQueue))
  rw [State.dueNow, State.notDue, ← hsplit, State.after_nil, List.nil_append] at hloop
  refine ⟨_, hloop, rfl, ?_, ?_, ranOf_eq_filter (fun _ _ _ _ hb => absurd hb List.not_mem_nil), rfl,
    hend.perm, hend.untouched, ?_, rfl⟩
  · rw [← filter_calls, ← List.filter_append]
    rfl
  · exact (List.Pairwise.filter _ ho).sublist (ranOf_sublist s [] _)
  · refine hend.ordered.imp (fun {a b} hab => ?_)
    simpa only [State.lt, State.interface_after] using hab

/-- Two instances that are due, of which one runs once. -/
theorem schedule_tick_two : ∃ s s', Reach s ∧ s.scheduleQueue = [⟨0, 0⟩, ⟨2, 0⟩] ∧
    s.schedule = .ok s' ∧ Scheduled s s' := by
  have h : Reach _ := Runs.of_runAll (fun _ _ => True)
    [sampleLoad, .message (.ENABLED (str "k") []) accepting,
      .message (.ENABLED (str "i") []) accepting] .start rfl
  obtain ⟨s, hs, hq, ho, htime⟩ : ∃ s, Reach s ∧ s.scheduleQueue = [⟨0, 0⟩, ⟨2, 0⟩] ∧ s.Ordered ∧
      ∀ e ∈ s.scheduleQueue, s.time ≤ e.time ∧ 0 < s.period e.ptr :=
    ⟨_, h, rfl, by decide, by decide⟩
  obtain ⟨s', hs', hall⟩ := schedule_tick ho htime
  exact ⟨s, s', hs, hq, hs', hall⟩

/-- An instance that runs once is enabled, disabled and enabled again: both of its entries are due, and it
    is run for one of them. -/
theorem schedule_once_for_two : ∃ s s', Reach s ∧ s.Ordered ∧
    (∀ e ∈ s.scheduleQueue, s.time ≤ e.time ∧ 0 < s.period e.ptr) ∧ s.schedule = .ok s' ∧
    s.dueNow = [⟨2, 0⟩, ⟨2, 0⟩] ∧ (∀ e ∈ s.dueNow, s.enabled e.ptr = true) ∧ s.runs 2 = [] ∧
    s'.runs 2 = [0] := by
  have h : Reach _ := Runs.of_runAll (fun _ _ => True)
    [sampleLoad, .message (.ENABLED (str "k") []) accepting, .message (.DISABLED (str "k")) accepting,
      .message (.ENABLED (str "k") []) accepting] .start rfl
  exact ⟨_, _, h, by decide, by decide, rfl, by decide, by decide, by decide, by decide⟩

end OeAware

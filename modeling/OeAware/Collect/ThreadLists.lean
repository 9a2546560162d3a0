import Mathlib.Data.Bool.AllAny
import Mathlib.Data.List.Dedup
import OeAware.Collect.ThreadCollector

/-! @src src/plugin/collect/system/thread/thread_collector.cpp, ebpf/thread_collector.bpf.c |
    name:GetAllThreads, ParseThreadEvent | scheme:snapshot and journal

    A scan leaves what is alive, if what it passes over is as it was and no name has a blank in it. A trace
    keeps what a scan has found as long as every event says what is so; then no thread is wrong but those
    whose `clone` has not been reported yet. -/

namespace OeAware
open Schemes

namespace ThreadCollector

/-- What is published of a thread. -/
def Task.info (tid : UInt32) (task : Task) : ThreadInfo := ⟨task.pid, tid, task.comm⟩

/-- One entry for each thread that is alive. -/
def Kernel.entries (k : Kernel) : List ThreadInfo := (k.alive.mapVal Task.info).values

/-- The threads are those that are alive. -/
def Exact (threads : UMap UInt32 ThreadInfo) (alive : UMap UInt32 Task) : Prop :=
  ∀ tid, threads.find tid = (alive.find tid).map (Task.info tid)

theorem Exact.perm {threads : UMap UInt32 ThreadInfo} {k : Kernel} (h : Exact threads k.alive) :
    threads.values.Perm k.entries := UMap.values_perm h

/-- Every entry is under its own number. -/
def Keyed (threads : UMap UInt32 ThreadInfo) : Prop :=
  ∀ tid info, threads.find tid = some info → info.tid = tid

theorem Exact.keyed {threads : UMap UInt32 ThreadInfo} {alive : UMap UInt32 Task} (h : Exact threads alive) :
    Keyed threads := by
  intro tid info hinfo
  rw [h, Option.map_eq_some_iff] at hinfo
  obtain ⟨task, -, rfl⟩ := hinfo
  rfl

/-- No thread has a blank in its name. -/
def OneWord (k : Kernel) : Prop :=
  ∀ tid task, k.alive.find tid = some task → ∀ c ∈ task.comm, isSpace c = false

/-! ### One scan -/

section
variable {k : Kernel} {mtime : Option (UInt32 → Int64)} {s : State}

theorem find_clearThread (k : Kernel) (s : State) (tid x : UInt32) :
    (clearThread k s tid).threads.find x =
      if x = tid then (s.threads.find x).filter (fun info => k.taskPath info.pid info.tid)
      else s.threads.find x := by
  unfold clearThread
  split
  · rename_i hnone
    split
    · rename_i hx
      rw [hx, hnone]
      rfl
    · rfl
  · rename_i info hinfo
    split
    · rename_i hpath
      split
      · rename_i hx
        rw [hx, hinfo, Option.filter_some, if_pos hpath]
      · rfl
    · rename_i hpath
      rw [UMap.find_erase]
      split
      · rename_i hx
        rw [hx, hinfo, Option.filter_some, if_neg hpath]
      · rfl

theorem taskTime_clearThread {tid pid : UInt32} {t : Int64}
    (h : (clearThread k s tid).taskTime.find pid = some t) : s.taskTime.find pid = some t := by
  unfold clearThread at h
  split at h
  · exact h
  · split at h
    · exact h
    · rw [UMap.find_erase] at h
      split at h
      · cases h
      · exact h

theorem openStatus_clearThread (k : Kernel) (s : State) (tid : UInt32) :
    (clearThread k s tid).openStatus = s.openStatus := by
  unfold clearThread
  split
  · rfl
  · split <;> rfl

theorem taskTime_clearInvalidThread {pid : UInt32} {t : Int64}
    (h : (clearInvalidThread k s).taskTime.find pid = some t) : s.taskTime.find pid = some t := by
  have hfold : ∀ (tids : List UInt32) (s : State),
      (tids.foldl (clearThread k) s).taskTime.find pid = some t → s.taskTime.find pid = some t := by
    intro tids
    induction tids with
    | nil => exact fun _ h => h
    | cons tid tids ih => exact fun s h => taskTime_clearThread (ih _ h)
  exact hfold _ s h

/-- Clearing leaves an entry where its path is there. -/
theorem find_clearInvalidThread (k : Kernel) (s : State) (tid : UInt32) :
    (clearInvalidThread k s).threads.find tid =
      (s.threads.find tid).filter (fun info => k.taskPath info.pid info.tid) := by
  have hfold : ∀ (tids : List UInt32) (s : State), tids.Nodup →
      (tids.foldl (clearThread k) s).threads.find tid =
        if tid ∈ tids then (s.threads.find tid).filter (fun info => k.taskPath info.pid info.tid)
        else s.threads.find tid := by
    intro tids
    induction tids with
    | nil => exact fun s _ => by simp
    | cons x tids ih =>
      intro s hnd
      obtain ⟨hout, hnd⟩ := List.nodup_cons.mp hnd
      rw [List.foldl_cons, ih _ hnd, find_clearThread]
      by_cases hx : tid = x
      · subst hx
        simp [hout]
      · simp [hx]
  unfold clearInvalidThread
  rw [hfold _ s s.threads.nodup]
  split
  · rfl
  · rename_i hmem
    rw [s.threads.mem_keys] at hmem
    rw [Option.not_isSome_iff_eq_none.mp hmem]
    rfl

theorem find_collectThreads (k : Kernel) (pid : UInt32) (threads : UMap UInt32 ThreadInfo) (tid : UInt32) :
    (collectThreads k pid threads).find tid =
      match k.alive.find tid with
      | some task =>
        if task.pid = pid then some ⟨pid, tid, readWord (task.comm ++ [10]) []⟩ else threads.find tid
      | none => threads.find tid := by
  have hfold : ∀ (tids : List UInt32) (threads : UMap UInt32 ThreadInfo),
      (tids.foldl (collectThread k pid) threads).find tid =
        if tid ∈ tids then (getThreadInfo k pid tid).or (threads.find tid) else threads.find tid := by
    intro tids
    induction tids with
    | nil => exact fun _ => rfl
    | cons x tids ih =>
      intro threads
      have hx : (collectThread k pid threads x).find tid =
          if tid = x then (getThreadInfo k pid x).or (threads.find tid) else threads.find tid := by
        unfold collectThread
        cases getThreadInfo k pid x with
        | none => simp
        | some info => rw [UMap.find_insert]; split <;> rfl
      rw [List.foldl_cons, ih, hx]
      by_cases heq : tid = x
      · subst heq
        cases getThreadInfo k pid tid <;> simp
      · simp [heq]
  unfold collectThreads Kernel.tasks
  rw [hfold]
  simp only [List.mem_filter, decide_eq_true_eq]
  cases hf : k.alive.find tid with
  | none => simp
  | some task =>
    have hmem : tid ∈ k.alive.keys := UMap.mem_keys_of_find hf
    simp only [hmem, true_and, Option.map_some, Option.some.injEq]
    split
    · rw [getThreadInfo, hf]
      rfl
    · rfl

/-- What is found of a thread that is alive, where it is looked at. -/
def found (tid : UInt32) (task : Task) : ThreadInfo := ⟨task.pid, tid, readWord (task.comm ++ [10]) []⟩

theorem find_getThreads (k : Kernel) (mtime : Option (UInt32 → Int64)) (s : State) (pid tid : UInt32) :
    (getThreads k mtime s pid).threads.find tid =
      match k.alive.find tid with
      | some task =>
        if task.pid = pid ∧ isNotChange mtime s.taskTime pid = false then some (found tid task)
        else s.threads.find tid
      | none => s.threads.find tid := by
  unfold getThreads
  split
  · rename_i hsame
    cases k.alive.find tid with
    | none => rfl
    | some task => simp [hsame]
  · rename_i hnew
    rw [find_collectThreads]
    cases k.alive.find tid with
    | none => rfl
    | some task =>
      simp only [hnew, and_true]
      split
      · rename_i hpid
        rw [found, hpid]
      · rfl

theorem isNotChange_getThreads {pid p : UInt32} (h : p ≠ pid) :
    isNotChange mtime (getThreads k mtime s pid).taskTime p = isNotChange mtime s.taskTime p := by
  unfold getThreads
  split
  · rfl
  · cases mtime with
    | none => rfl
    | some mtime =>
      unfold isNotChange
      dsimp only
      rw [UMap.find_insert, if_neg h]

theorem mem_processes {tid : UInt32} {task : Task} (h : k.alive.find tid = some task) :
    task.pid ∈ k.processes := by
  unfold Kernel.processes UMap.values
  rw [List.mem_dedup]
  exact List.mem_map_of_mem (List.mem_filterMap.mpr ⟨tid, UMap.mem_keys_of_find h, h⟩)

/-- A scan looks at each thread whose process has changed, and at no other. -/
theorem find_getAllThreads (k : Kernel) (mtime : Option (UInt32 → Int64)) (s : State) (tid : UInt32) :
    (getAllThreads k mtime s).threads.find tid =
      match k.alive.find tid with
      | some task =>
        if isNotChange mtime (clearInvalidThread k s).taskTime task.pid = false then some (found tid task)
        else (clearInvalidThread k s).threads.find tid
      | none => (clearInvalidThread k s).threads.find tid := by
  have hfold : ∀ (pids : List UInt32) (s : State), pids.Nodup →
      (pids.foldl (getThreads k mtime) s).threads.find tid =
        match k.alive.find tid with
        | some task =>
          if task.pid ∈ pids ∧ isNotChange mtime s.taskTime task.pid = false then some (found tid task)
          else s.threads.find tid
        | none => s.threads.find tid := by
    intro pids
    induction pids with
    | nil => intro s _; cases k.alive.find tid <;> simp
    | cons pid pids ih =>
      intro s hnd
      obtain ⟨hout, hnd⟩ := List.nodup_cons.mp hnd
      rw [List.foldl_cons, ih _ hnd, find_getThreads]
      cases k.alive.find tid with
      | none => rfl
      | some task =>
        dsimp only
        by_cases hpid : task.pid = pid
        · rw [hpid]
          simp [hout]
        · rw [isNotChange_getThreads hpid]
          simp [hpid]
  unfold getAllThreads
  rw [hfold k.processes _ (List.nodup_dedup _)]
  cases hf : k.alive.find tid with
  | none => rfl
  | some task => simp [mem_processes hf]

theorem openStatus_getAllThreads (k : Kernel) (mtime : Option (UInt32 → Int64)) (s : State) :
    (getAllThreads k mtime s).openStatus = s.openStatus := by
  have hclear : ∀ (tids : List UInt32) (s : State),
      (tids.foldl (clearThread k) s).openStatus = s.openStatus := by
    intro tids
    induction tids with
    | nil => exact fun _ => rfl
    | cons tid tids ih => exact fun s => (ih _).trans (openStatus_clearThread k s tid)
  have hget : ∀ (pids : List UInt32) (s : State),
      (pids.foldl (getThreads k mtime) s).openStatus = s.openStatus := by
    intro pids
    induction pids with
    | nil => exact fun _ => rfl
    | cons pid pids ih =>
      refine fun s => (ih _).trans ?_
      unfold getThreads
      split <;> rfl
  exact (hget _ _).trans (hclear _ _)

/-- A name without a blank is read as a whole. -/
theorem found_eq (h : OneWord k) {tid : UInt32} {task : Task} (ht : k.alive.find tid = some task) :
    found tid task = task.info tid := by
  have hpos : ∀ c ∈ task.comm, (!isSpace c) = true := fun c hc => by rw [h tid task ht c hc]; rfl
  have htake : ([10] : Str).takeWhile (fun c => !isSpace c) = [] := by decide
  unfold found Task.info
  congr 1
  cases hc : task.comm with
  | nil => rfl
  | cons c comm =>
    rw [hc] at hpos
    have hdrop : ((c :: comm) ++ [10]).dropWhile isSpace = (c :: comm) ++ [10] := by
      refine List.dropWhile_cons_of_neg ?_
      have := hpos c List.mem_cons_self
      simpa using this
    unfold readWord
    dsimp only
    rw [hdrop, List.takeWhile_append_of_pos hpos, htake, List.append_nil, if_neg (List.cons_ne_nil _ _)]

/-- What is not alive has no path. -/
theorem cleared_of_dead {tid : UInt32} (hkeyed : Keyed s.threads) (h : k.alive.find tid = none) :
    (clearInvalidThread k s).threads.find tid = none := by
  rw [find_clearInvalidThread]
  cases hf : s.threads.find tid with
  | none => rfl
  | some info =>
    have hpath : k.taskPath info.pid info.tid = false := by
      unfold Kernel.taskPath
      rw [hkeyed tid info hf, h]
    rw [Option.filter_some, hpath]
    rfl

/-- A scan of everything. -/
theorem exact_getAllThreads (hkeyed : Keyed s.threads) (hword : OneWord k) :
    Exact (getAllThreads k none s).threads k.alive := by
  intro tid
  rw [find_getAllThreads]
  cases hf : k.alive.find tid with
  | none => exact cleared_of_dead hkeyed hf
  | some task =>
    have hlook : isNotChange none (clearInvalidThread k s).taskTime task.pid = false := rfl
    dsimp only
    rw [if_pos hlook, found_eq hword hf]
    rfl

end

/-! ### The build that scans -/

namespace Scanning
variable {w w' : Scanning} {a : Act}

/-- The thread belongs to the process. -/
def InProcess (alive : UMap UInt32 Task) (pid tid : UInt32) : Prop :=
  (alive.find tid).map (·.pid) = some pid

/-- A task directory has another time if the process has not the threads it had when they were last looked
    at. -/
def TimesTell (w : Scanning) (mtime : UInt32 → Int64) : Prop :=
  ∀ pid tid, ¬ (InProcess w.kernel.alive pid tid ↔ InProcess w.seen pid tid) →
    w.state.taskTime.find pid ≠ some (mtime pid)

/-- A process that has the time it had has not been replaced by one with other names. -/
def NamesKept (w : Scanning) (mtime : UInt32 → Int64) : Prop :=
  ∀ pid tid task task', w.state.taskTime.find pid = some (mtime pid) → w.kernel.alive.find tid = some task →
    task.pid = pid → w.seen.find tid = some task' → task'.pid = pid → task'.comm = task.comm

/-- What the times of the task directories promise. -/
def Promised (w : Scanning) : Act → Prop
  | .call (.run mtime) => w.state.openStatus = true → w.TimesTell mtime
  | _ => True

/-- The steps after which the list is right. -/
def Admits (w : Scanning) : Act → Prop
  | .call (.run mtime) =>
    w.state.openStatus = true → w.TimesTell mtime ∧ w.NamesKept mtime ∧ OneWord w.kernel
  | _ => True

theorem exact_scan {mtime : UInt32 → Int64} (h : Exact w.state.threads w.seen) (htell : w.TimesTell mtime)
    (hkept : w.NamesKept mtime) (hword : OneWord w.kernel) :
    Exact (getAllThreads w.kernel (some mtime) w.state).threads w.kernel.alive := by
  intro tid
  rw [find_getAllThreads]
  cases hf : w.kernel.alive.find tid with
  | none => exact cleared_of_dead h.keyed hf
  | some task =>
    dsimp only
    split
    · rw [found_eq hword hf]
      rfl
    · rename_i hsame
      -- the process is passed over: it has the threads it had, and they have their names
      have htime : w.state.taskTime.find task.pid = some (mtime task.pid) := by
        refine taskTime_clearInvalidThread (k := w.kernel) ?_
        simpa [isNotChange] using hsame
      have hin : InProcess w.seen task.pid tid := by
        by_contra hout
        refine htell task.pid tid (fun hiff => hout (hiff.mp ?_)) htime
        rw [InProcess, hf]
        rfl
      obtain ⟨task', hseen, hpid⟩ := Option.map_eq_some_iff.mp hin
      have hcomm := hkept task.pid tid task task' htime hf rfl hseen hpid
      have htask : task' = task := by
        cases task
        cases task'
        cases hpid
        cases hcomm
        rfl
      have hpath : w.kernel.taskPath task.pid tid = true := by
        unfold Kernel.taskPath
        rw [hf]
        simp
      rw [find_clearInvalidThread, h, hseen, htask, Option.map_some, Option.filter_some]
      exact if_pos hpath

/-- What is kept are the threads of the last scan. -/
theorem exact_step (h : Exact w.state.threads w.seen) (hok : w.Admits a) (hs : w.step a = .ok w') :
    Exact w'.state.threads w'.seen := by
  cases a with
  | deed d =>
    simp only [step] at hs
    split at hs
    · cases hs
    · cases hs
      exact h
  | call c =>
    cases c with
    | enable opening => cases hs; exact h
    | openTopic => cases hs; exact h
    | closeTopic => cases hs; exact h
    | disable => cases hs; exact fun _ => rfl
    | run mtime =>
      simp only [step] at hs
      split at hs
      · rename_i hopen
        cases hs
        obtain ⟨htell, hkept, hword⟩ := hok hopen
        exact exact_scan h htell hkept hword
      · cases hs
        exact h

/-- The list of the next run. -/
theorem publishes {k : Kernel} {mtime : UInt32 → Int64} (h : Runs step (start k) Admits w)
    (hopen : w.state.openStatus = true) (hok : w.Admits (.call (.run mtime))) :
    ∃ w' l, w.step (.call (.run mtime)) = .ok w' ∧ w'.published = some l ∧ l.Perm w.kernel.entries := by
  have hexact := h.invariant (I := fun w => Exact w.state.threads w.seen) (fun _ => rfl)
    (fun _ _ _ h hok hs => exact_step h hok hs)
  obtain ⟨htell, hkept, hword⟩ := hok hopen
  exact ⟨_, _, if_pos hopen, rfl, (exact_scan hexact htell hkept hword).perm⟩

end Scanning

/-! ### The build that traces -/

namespace Tracing
variable {w w' : Tracing} {a : Act}

/-- There is a ring buffer that can be read. -/
def Live (w : Tracing) : Prop := ∃ events, w.rb = .live events

/-- An event says what is so. -/
def Truthful (k : Kernel) (e : ThreadEvent) : Prop :=
  e.entry.2 = (k.alive.find e.tid).map (Task.info e.tid)

/-- The steps after which the list is right. -/
def Admits (w : Tracing) : Act → Prop
  | .deed (.cloneFails _ _ _) => ¬ w.Live
  | .deed (.cloneReturns r _) => w.Live → w.kernel.alive.find r.tid = some ⟨r.pid, r.comm⟩
  | .deed (.cloneReturnsInChild memory) => w.Live → Truthful w.kernel memory
  | .call (.enable _) => OneWord w.kernel
  | .call (.run _) => w.state.openStatus = true → w.Live ∧ w.missing = []
  | _ => True

/-- The threads and the events that have not been read tell what is alive, but for what is missing. -/
structure Sound (w : Tracing) : Prop where
  keyed : Keyed w.state.threads
  tells : ∀ events, w.rb = .live events → ∀ tid ∉ w.missing,
    Tells w.state.threads (events.map ThreadEvent.entry) tid ((w.kernel.alive.find tid).map (Task.info tid))

/-- An event that says what is so is submitted. -/
theorem tells_submit {threads : UMap UInt32 ThreadInfo} {events : List ThreadEvent} {k : Kernel}
    {e : ThreadEvent} {tid : UInt32} (he : Truthful k e)
    (h : tid ≠ e.tid → Tells threads (events.map ThreadEvent.entry) tid
      ((k.alive.find tid).map (Task.info tid))) :
    Tells threads ((events ++ [e]).map ThreadEvent.entry) tid ((k.alive.find tid).map (Task.info tid)) := by
  rw [List.map_append, List.map_singleton]
  by_cases htid : tid = e.tid
  · have hentry : e.entry = (tid, (k.alive.find tid).map (Task.info tid)) := by
      rw [htid]
      exact Prod.ext rfl he
    rw [hentry]
    exact Tells.last threads _ tid _
  · exact (h htid).other htid

theorem ofInt_toNat (x : UInt32) : UInt32.ofInt x.toNat = x := by
  have hlt := x.toNat_lt
  unfold UInt32.ofInt
  refine UInt32.toNat_inj.mp ?_
  rw [UInt32.toNat_ofNat']
  omega

/-- What the parent is told of a child that is alive in its process is so. -/
theorem truthful_cloneReturns {k : Kernel} {r : CloneReturn} (memory : ThreadEvent)
    (h : k.alive.find r.tid = some ⟨r.pid, r.comm⟩) :
    Truthful k (traceSysExitClone r.pid r.tid.toNat r.comm memory) ∧
      (traceSysExitClone r.pid r.tid.toNat r.comm memory).tid = r.tid := by
  have hne : (r.tid.toNat : ℤ) ≠ 0 := by
    have := UInt32.lt_iff_toNat_lt.mp r.child
    simp only [UInt32.toNat_zero] at this
    omega
  have htid := ofInt_toNat r.tid
  unfold traceSysExitClone Truthful ThreadEvent.entry
  rw [if_pos hne, htid, h]
  exact ⟨rfl, rfl⟩

theorem sound_deed {d : Deed} (h : w.Sound) (hok : w.Admits (.deed d)) (hs : w.step (.deed d) = .ok w') :
    w'.Sound := by
  simp only [step] at hs
  split at hs
  · cases hs
  rename_i r hr
  cases hs
  refine ⟨h.keyed, fun events' hrb => ?_⟩
  dsimp only at hrb ⊢
  cases hbuf : w.rb with
  | null => rw [hbuf] at hrb; cases hrb
  | freed => rw [hbuf] at hrb; cases hrb
  | live events =>
    have hlive : w.Live := ⟨events, hbuf⟩
    have htells := h.tells events hbuf
    rw [hbuf] at hrb
    cases d with
    | clone parent child thread =>
      simp only [Kernel.step] at hr
      split at hr
      · cases hr
      · split at hr
        · cases hr
          cases hrb
          intro tid htid
          obtain ⟨hne, htid⟩ := not_or.mp (fun h => htid (List.mem_cons.mpr h))
          rw [UMap.find_insert, if_neg hne]
          exact htells tid htid
        · cases hr
    | cloneFails parent ret memory => exact absurd hlive hok
    | cloneReturns r memory =>
      simp only [Kernel.step] at hr
      split at hr
      · cases hr
        cases hrb
        obtain ⟨htrue, hkey⟩ := truthful_cloneReturns memory (hok hlive)
        intro tid htid
        refine tells_submit htrue (fun hne => htells tid (fun hmem => htid ?_))
        rw [hkey] at hne
        exact List.mem_filter.mpr ⟨hmem, decide_eq_true hne⟩
      · cases hr
    | cloneReturnsInChild memory =>
      simp only [Kernel.step] at hr
      split at hr
      · cases hr
        cases hrb
        exact fun tid htid => tells_submit (hok hlive) (fun _ => htells tid htid)
      · cases hr
    | exit x =>
      simp only [Kernel.step] at hr
      split at hr
      · cases hr
      · cases hr
        cases hrb
        intro tid htid
        refine tells_submit ?_ (fun hne => ?_)
        · unfold Truthful ThreadEvent.entry traceSysEnterExit
          dsimp only
          rw [UMap.find_erase, if_pos rfl]
          rfl
        · have hne : tid ≠ x := hne
          rw [UMap.find_erase, if_neg hne]
          exact htells tid (fun hmem => htid (List.mem_filter.mpr ⟨hmem, decide_eq_true hne⟩))

theorem exact_run (h : w.Sound) {events : List ThreadEvent} (hbuf : w.rb = .live events)
    (hmiss : w.missing = []) : Exact (parseThreadEvent events w.state.threads) w.kernel.alive := by
  intro tid
  refine (h.tells events hbuf tid ?_).find
  rw [hmiss]
  exact List.not_mem_nil

theorem sound_step (h : w.Sound) (hok : w.Admits a) (hs : w.step a = .ok w') : w'.Sound := by
  cases a with
  | deed d => exact sound_deed h hok hs
  | call c =>
    cases c with
    | openTopic => cases hs; exact ⟨h.keyed, h.tells⟩
    | closeTopic => cases hs; exact ⟨h.keyed, h.tells⟩
    | enable opening =>
      have hexact := exact_getAllThreads h.keyed hok
      cases opening with
      | done =>
        cases hs
        refine ⟨hexact.keyed, fun events hrb tid _ => ?_⟩
        cases hrb
        exact Tells.of_find (hexact tid)
      | notLoaded =>
        cases hs
        exact ⟨hexact.keyed, fun events hrb tid htid => (h.tells events hrb tid htid).renew (hexact tid)⟩
      | noRingBuffer =>
        cases hs
        exact ⟨hexact.keyed, fun events hrb => by cases hrb⟩
    | disable =>
      have hkeyed : Keyed init.threads := fun _ _ hf => by cases hf
      simp only [step] at hs
      split at hs
      · rename_i hnull
        cases hs
        exact ⟨hkeyed, fun events hrb => by rw [hnull] at hrb; cases hrb⟩
      · cases hs
        exact ⟨hkeyed, fun events hrb => by cases hrb⟩
      · cases hs
    | run mtime =>
      simp only [step] at hs
      split at hs
      · rename_i hopen
        obtain ⟨⟨events, hbuf⟩, hmiss⟩ := hok hopen
        rw [hbuf] at hs
        cases hs
        have hexact := exact_run h hbuf hmiss
        refine ⟨hexact.keyed, fun events' hrb tid _ => ?_⟩
        cases hrb
        exact Tells.of_find (hexact tid)
      · cases hs
        exact ⟨h.keyed, h.tells⟩

/-- The list of the next run. -/
theorem publishes {k : Kernel} {mtime : UInt32 → Int64} (h : Runs step (start k) Admits w)
    (hopen : w.state.openStatus = true) (hok : w.Admits (.call (.run mtime))) :
    ∃ w' l, w.step (.call (.run mtime)) = .ok w' ∧ w'.published = some l ∧ l.Perm w.kernel.entries := by
  have hstart : (start k).Sound := by
    refine ⟨fun _ _ hf => ?_, fun events hrb => ?_⟩
    · cases hf
    · cases hrb
  have hsound := h.invariant (I := Sound) hstart (fun _ _ _ h hok hs => sound_step h hok hs)
  obtain ⟨⟨events, hbuf⟩, hmiss⟩ := hok hopen
  refine ⟨{ w with
    state := { w.state with threads := parseThreadEvent events w.state.threads }
    rb := .live []
    published := some (parseThreadEvent events w.state.threads).values }, _, ?_, rfl,
    (exact_run hsound hbuf hmiss).perm⟩
  simp only [step, if_pos hopen, hbuf]

end Tracing

/-- WHAT IS ALIVE IS PUBLISHED: in every run whose steps are admitted, each `Run` with the topic open publishes
    one entry for each thread that is alive, in the build that scans as in the one that traces; so both publish
    the same. -/
theorem run_publishes_alive {k : Kernel} {w : Scanning} {v : Tracing} {mtime mtime' : UInt32 → Int64}
    (hw : Runs Scanning.step (.start k) Scanning.Admits w)
    (hv : Runs Tracing.step (.start k) Tracing.Admits v) :
    (w.state.openStatus = true → w.Admits (.call (.run mtime)) → ∃ w' l,
      w.step (.call (.run mtime)) = .ok w' ∧ w'.published = some l ∧ l.Perm w.kernel.entries) ∧
    (v.state.openStatus = true → v.Admits (.call (.run mtime')) → ∃ v' l,
      v.step (.call (.run mtime')) = .ok v' ∧ v'.published = some l ∧ l.Perm v.kernel.entries) ∧
    (∀ w' v' l l', w.state.openStatus = true → w.Admits (.call (.run mtime)) →
      v.state.openStatus = true → v.Admits (.call (.run mtime')) → w.kernel = v.kernel →
      w.step (.call (.run mtime)) = .ok w' → v.step (.call (.run mtime')) = .ok v' →
      w'.published = some l → v'.published = some l' → l.Perm l') := by
  refine ⟨Scanning.publishes hw, Tracing.publishes hv, ?_⟩
  intro w' v' l l' hwo hwa hvo hva hk hws hvs hl hl'
  obtain ⟨w'', m, hws', hm, hperm⟩ := Scanning.publishes hw hwo hwa
  obtain ⟨v'', m', hvs', hm', hperm'⟩ := Tracing.publishes hv hvo hva
  cases hws.symm.trans hws'
  cases hvs.symm.trans hvs'
  cases hl.symm.trans hm
  cases hl'.symm.trans hm'
  rw [hk] at hperm
  exact hperm.trans hperm'.symm

/-! ### A process of two threads -/

/-- Process 7 alone, of a name. -/
def sampleKernel (comm : String) : Kernel := ⟨UMap.insert .empty 7 ⟨7, str comm⟩, [], 0⟩

/-- With another thread. -/
def sampleCloned : Kernel := ⟨(sampleKernel "a").alive.insert 8 ⟨7, str "a"⟩, [], 0⟩

def sampleMemory : ThreadEvent := ⟨0, 0, [], false⟩

def sampleReturn : CloneReturn := ⟨7, 8, str "a", by decide⟩

/-- It is created while the collector is on. -/
def sampleActs : List Act :=
  [.call (.enable .done), .call .openTopic, .deed (.clone 7 8 true),
    .deed (.cloneReturnsInChild sampleMemory), .deed (.cloneReturns sampleReturn sampleMemory)]

theorem oneWord_sample : OneWord (sampleKernel "a") ∧ OneWord sampleCloned := by
  have hname : ∀ c ∈ str "a", isSpace c = false := List.all_iff_forall_prop.mp (by decide +kernel)
  refine ⟨fun tid task h => ?_, fun tid task h => ?_⟩
  · unfold sampleKernel at h
    dsimp only at h
    rw [UMap.find_insert] at h
    split at h <;> cases h
    exact hname
  · unfold sampleCloned sampleKernel at h
    dsimp only at h
    rw [UMap.find_insert, UMap.find_insert] at h
    split at h
    · cases h
      exact hname
    · split at h <;> cases h
      exact hname

theorem scanning_sample : Runs Scanning.step (.start (sampleKernel "a")) Scanning.Admits
    ⟨sampleCloned, { init with openStatus := true }, none, .empty⟩ := by
  have hsteps : sampleActs.foldlM Scanning.step (.start (sampleKernel "a")) =
      .ok ⟨sampleCloned, { init with openStatus := true }, none, .empty⟩ := rfl
  refine Runs.of_foldlM (fun a ha w => ?_) .start hsteps
  simp only [sampleActs, List.mem_cons, List.not_mem_nil, or_false] at ha
  rcases ha with rfl | rfl | rfl | rfl | rfl <;> trivial

theorem tracing_sample : ∃ v, Runs Tracing.step (.start (sampleKernel "a")) Tracing.Admits v ∧
    v.kernel = sampleCloned ∧ v.state.openStatus = true ∧ v.Live ∧ v.missing = [] := by
  have henable : Runs Tracing.step (.start (sampleKernel "a")) Tracing.Admits _ :=
    .next (a := .call (.enable .done)) .start oneWord_sample.1 rfl
  have hopen : Runs Tracing.step (.start (sampleKernel "a")) Tracing.Admits _ :=
    .next (a := .call .openTopic) henable trivial rfl
  have hclone : Runs Tracing.step (.start (sampleKernel "a")) Tracing.Admits _ :=
    .next (a := .deed (.clone 7 8 true)) hopen trivial rfl
  have hchild : Runs Tracing.step (.start (sampleKernel "a")) Tracing.Admits _ :=
    .next (a := .deed (.cloneReturnsInChild sampleMemory)) hclone (fun _ => rfl) rfl
  have hparent : Runs Tracing.step (.start (sampleKernel "a")) Tracing.Admits _ :=
    .next (a := .deed (.cloneReturns sampleReturn sampleMemory)) hchild (fun _ => rfl) rfl
  exact ⟨_, hparent, rfl, rfl, ⟨_, rfl⟩, rfl⟩

/-- Both builds publish the two threads. -/
theorem run_publishes_alive_two : ∃ (w' : Scanning) (v' : Tracing) (l l' : List ThreadInfo),
    w'.published = some l ∧ v'.published = some l' ∧ l.Perm sampleCloned.entries ∧ l.Perm l' := by
  obtain ⟨v, hv, hk, hopen, hlive, hmiss⟩ := tracing_sample
  have hscan : Scanning.Admits ⟨sampleCloned, { init with openStatus := true }, none, .empty⟩
      (.call (.run (fun _ => 0))) := by
    refine fun _ => ⟨fun _ _ _ h => ?_, fun _ _ _ _ h => ?_, oneWord_sample.2⟩ <;> cases h
  have hrun : v.Admits (.call (.run (fun _ => 0))) := fun _ => ⟨hlive, hmiss⟩
  obtain ⟨hw, hv, hsame⟩ := run_publishes_alive scanning_sample hv
  obtain ⟨w', l, hws, hl, hperm⟩ := hw rfl hscan
  obtain ⟨v', l', hvs, hl', -⟩ := hv hopen hrun
  exact ⟨w', v', l, l', hl, hl', hperm, hsame w' v' l l' rfl hscan hopen hrun hk.symm hws hvs hl hl'⟩

/-- A name of two words is cut in one build, and a process of its own has its parent's number in the other. -/
theorem run_publishes_cut : (∃ w' l,
    Scanning.step ⟨sampleKernel "a b", { init with openStatus := true }, none, .empty⟩
      (.call (.run (fun _ => 0))) = .ok w' ∧
    Runs Scanning.step (.start (sampleKernel "a b")) Scanning.Promised w' ∧ w'.published = some l ∧
    ¬ l.Perm (sampleKernel "a b").entries) ∧
    ∃ acts : List Act, acts = [.call (.enable .done), .call .openTopic, .deed (.clone 7 8 false),
      .deed (.cloneReturnsInChild sampleMemory), .deed (.cloneReturns sampleReturn sampleMemory),
      .call (.run (fun _ => 0))] ∧
    ∃ v l, acts.foldlM Tracing.step (.start (sampleKernel "a")) = .ok v ∧ v.published = some l ∧
      ¬ l.Perm v.kernel.entries := by
  have hopen : Runs Scanning.step (.start (sampleKernel "a b")) Scanning.Promised
      ⟨sampleKernel "a b", { init with openStatus := true }, none, .empty⟩ :=
    .next (a := .call .openTopic) .start trivial rfl
  have htell : Scanning.Promised ⟨sampleKernel "a b", { init with openStatus := true }, none, .empty⟩
      (.call (.run (fun _ => 0))) := fun _ _ _ _ h => by cases h
  refine ⟨⟨_, [⟨7, 7, str "a"⟩], rfl, .next hopen htell rfl, rfl, by decide⟩,
    _, rfl, _, [⟨7, 8, str "a"⟩, ⟨7, 7, str "a"⟩], rfl, rfl, by decide⟩

end ThreadCollector
end OeAware

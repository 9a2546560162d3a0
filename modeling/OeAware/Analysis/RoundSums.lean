import OeAware.Analysis.Rounds

/-! @src src/plugin/scenario/analysis/analysis/analysis.cpp, common.cpp | name:Analyze, SummaryProcs,
    SummaryProcsNetInfo, AppendTraceInfo, TraceInfoSummary | scheme:ledger

    Each sample that counts is a posting, to its thread or to the system. After any calls the trace of a round shows
    what has been posted in that round, for the system and for each process, and nothing else.

        calls   c s n k c  Analyze  c c s  Analyze  s
        rounds  [c s n k c]        [c c s]          [s            -/

namespace OeAware
open Schemes

namespace Analysis

inductive Account where
  | system
  | thread (pid tid : ℤ)
  deriving DecidableEq

inductive Item where
  | cycles
  | access (i j : ℕ)
  | netRxSum
  | netRx (node : ℕ)
  | rx (key : RxKey)
  deriving DecidableEq

/-- A thread of the process. -/
def Account.isOf (pid : ℤ) : Account → Bool
  | .system => false
  | .thread p _ => decide (p = pid)

def Account.tid : Account → ℤ
  | .system => 0
  | .thread _ tid => tid

def Account.pid : Account → ℤ
  | .system => 0
  | .thread pid _ => pid

/-- A matched packet. -/
def Item.isRx : Item → Bool
  | .rx _ => true
  | _ => false

/-- What is booked on the system. -/
def Item.isNet : Item → Bool
  | .netRxSum => true
  | .netRx _ => true
  | _ => false

def TaskInfo.amount (t : TaskInfo) : Item → ℕ
  | .cycles => t.cycles
  | .access i j => t.access i j
  | .netRxSum => t.netInfo.netRxSum
  | .netRx node => t.netInfo.netRxTimes node
  | .rx key => t.netInfo.rxTimes.value key

abbrev Postings := List (Posting Account Item)

variable (env : Env)

/-- An access is counted if the page has been found. -/
def spePostings (pages : Pages) (d : Sample) : Postings :=
  if pages.moved d.pid = true ∧ 0 ≤ pages.node d.pid d.va then
    (nodeOf env d.cpu).toList.map (fun cpuNode =>
      ⟨.thread d.pid d.tid, .access cpuNode (pages.node d.pid d.va).toNat, 1⟩)
  else []

def cyclesPosting (d : Sample) : Posting Account Item := ⟨.thread d.pid d.tid, .cycles, d.period⟩

def netRxPostings (d : Sample) : Postings :=
  (nodeOf env d.cpu).toList.flatMap (fun node => [⟨.system, .netRx node, d.count⟩, ⟨.system, .netRxSum, d.count⟩])

def rxPostings (p : RecNetQueue × RecNetThreads) : Postings :=
  (rxKey env p.1 p.2).toList.map (fun key => ⟨.thread p.2.pid.toInt p.2.tid.toInt, .rx key, 1⟩)

/-- What a call posts. -/
def postings : Act → Postings
  | .spe data pages => (data.filter isValidSpe).flatMap (spePostings env pages)
  | .netRx data => data.flatMap (netRxPostings env)
  | .cycles data _ => (data.filter isValidPmu).map cyclesPosting
  | _ => []

def Act.queues : Act → List RecNetQueue
  | .napi queues => queues
  | _ => []

def Act.threads : Act → List RecNetThreads
  | .skb threads => threads
  | _ => []

/-- What is posted in a round; the packets of all its events are matched in the end. -/
def roundPostings (round : List Act) : Postings :=
  round.flatMap (postings env) ++
    (matchedPairs (round.flatMap Act.queues) (round.flatMap Act.threads)).flatMap (rxPostings env)

/-- The rounds that are over, and the calls since then. -/
def addToRound (h : List (List Act) × List Act) : Act → List (List Act) × List Act
  | .analyze _ => (h.1 ++ [h.2], [])
  | act => (h.1, h.2 ++ [act])

def rounds (acts : List Act) : List (List Act) × List Act := acts.foldl addToRound ([], [])

/-- The time a call adds. -/
def Act.interval : Act → ℕ
  | .cycles data interval => if data = [] then 0 else interval
  | _ => 0

/-- What is posted under an item in a round, and how many packets are matched. -/
def allPosted (ps : Postings) (item : Item) : ℕ := posted (fun _ => true) (fun i => decide (i = item)) ps

def allMatched (ps : Postings) : ℕ := posted (fun _ => true) Item.isRx ps

/-- The traces of a process. -/
def SystemInfo.traceOf (s : SystemInfo) (pid : ℤ) : List TaskInfo := ((s.procs.find pid).getD .new).traceInfo

def SystemInfo.summaryOf (s : SystemInfo) (pid : ℤ) : TaskInfo := ((s.procs.find pid).getD .new).summaryInfo

def SystemInfo.thread (s : SystemInfo) (pid tid : ℤ) : TaskInfo :=
  ((((s.procs.find pid).getD .new).threads.find tid).getD .new).realtimeInfo

/-! ### What is shown -/

/-- A task shows what has been posted. -/
structure Shows (wanted : Account → Bool) (ps : Postings) (t : TaskInfo) : Prop where
  amount : ∀ item, t.amount item = posted wanted (fun i => decide (i = item)) ps
  total : t.netInfo.rxTimes.total = posted wanted Item.isRx ps

/-- A task shows one amount more. -/
structure Adds (item : Item) (n : ℕ) (t t' : TaskInfo) : Prop where
  amount : ∀ i, t'.amount i = t.amount i + if item = i then n else 0
  total : t'.netInfo.rxTimes.total = t.netInfo.rxTimes.total + if item.isRx then n else 0

/-- What is booked in a round, on the threads that are known, and on the system. -/
structure Booked (ps : Postings) (s : SystemInfo) : Prop where
  system : Shows (fun a => decide (a = .system)) ps s.realtimeInfo
  procs : ∀ pid proc, s.procs.find pid = some proc → Shows (fun _ => false) [] proc.realtimeInfo
  threads : ∀ pid tid, Shows (fun a => decide (a = .thread pid tid)) ps (s.thread pid tid)
  known : ∀ p ∈ ps, ∀ pid tid, p.account = .thread pid tid →
    ∃ proc, s.procs.find pid = some proc ∧ tid ∈ proc.threads.keys
  kinds : ∀ p ∈ ps, p.account = .system ↔ p.item.isNet = true

section
variable {env : Env} {wanted : Account → Bool} {ps qs : Postings} {t t' : TaskInfo} {item : Item} {n : ℕ}
  {s : SystemInfo} {pid tid : ℤ}

theorem Shows.of_nil (h : ∀ p ∈ ps, wanted p.account = false) (ht : Shows (fun _ => false) [] t) :
    Shows wanted ps t where
  amount i := by
    rw [ht.amount, posted_nil]
    exact (posted_eq_zero fun p hp hw => absurd ((h p hp).symm.trans hw) Bool.false_ne_true).symm
  total := by
    rw [ht.total, posted_nil]
    exact (posted_eq_zero fun p hp hw => absurd ((h p hp).symm.trans hw) Bool.false_ne_true).symm

theorem shows_new : Shows (fun _ => false) [] TaskInfo.new where
  amount item := by cases item <;> rfl
  total := rfl

theorem shows_clearData : Shows (fun _ => false) [] t.clearData where
  amount item := by cases item <;> rfl
  total := rfl

/-- A posting that is wanted is added. -/
theorem Shows.add {p : Posting Account Item} (h : Shows wanted ps t) (hw : wanted p.account = true)
    (hadds : Adds p.item p.amount t t') : Shows wanted (ps ++ [p]) t' where
  amount i := by
    rw [hadds.amount, h.amount, posted_concat, hw, Bool.true_and]
    simp only [decide_eq_true_eq]
  total := by
    rw [hadds.total, h.total, posted_concat, hw, Bool.true_and]

/-- Another changes nothing. -/
theorem Shows.keep {p : Posting Account Item} (h : Shows wanted ps t) (hw : wanted p.account = false) :
    Shows wanted (ps ++ [p]) t where
  amount i := by
    rw [h.amount, posted_concat, hw]
    rfl
  total := by
    rw [h.total, posted_concat, hw]
    rfl

theorem adds_addCycles : Adds .cycles n t (t.addCycles n) where
  amount i := by cases i <;> rfl
  total := rfl

theorem adds_addOneAccess (i j : ℕ) : Adds (.access i j) 1 t (t.addOneAccess i j) where
  amount k := by
    cases k with
    | access i' j' =>
      rw [TaskInfo.addOneAccess]
      simp only [TaskInfo.amount, Item.access.injEq, eq_comm]
    | _ => rfl
  total := rfl

theorem adds_addOneRx (key : RxKey) : Adds (.rx key) 1 t (t.addOneRx key) where
  amount k := by
    cases k with
    | rx key' =>
      rw [TaskInfo.addOneRx]
      simp only [TaskInfo.amount, Item.rx.injEq, UMap.value_credit, eq_comm]
    | _ => rfl
  total := UMap.total_credit _ _ _

/-! ### Booking -/

theorem find_modify (f : Proc → Proc) (pid' : ℤ) : (s.modify pid f).procs.find pid' =
    if pid' = pid then some (f ((s.procs.find pid).getD .new)) else s.procs.find pid' := rfl

theorem thread_modifyThread (f : TaskInfo → TaskInfo) (pid' tid' : ℤ) :
    (s.modifyThread pid tid f).thread pid' tid' =
      if pid' = pid ∧ tid' = tid then f (s.thread pid tid) else s.thread pid' tid' := by
  unfold SystemInfo.modifyThread SystemInfo.thread
  rw [find_modify]
  rcases eq_or_ne pid' pid with rfl | hpid
  · rw [if_pos rfl, Option.getD_some, UMap.find_insert]
    rcases eq_or_ne tid' tid with rfl | htid
    · rw [if_pos rfl, if_pos ⟨rfl, rfl⟩]
      rfl
    · rw [if_neg htid, if_neg fun h => htid h.2]
  · rw [if_neg hpid, if_neg fun h => hpid h.1]

theorem Booked.post (h : Booked ps s) (pid tid : ℤ) {f : TaskInfo → TaskInfo} (hitem : item.isNet = false)
    (hadds : Adds item n (s.thread pid tid) (f (s.thread pid tid))) :
    Booked (ps ++ [⟨.thread pid tid, item, n⟩]) (s.modifyThread pid tid f) where
  system := h.system.keep rfl
  procs pid' proc hfind := by
    rw [SystemInfo.modifyThread, find_modify] at hfind
    split at hfind
    · cases hfind
      cases hold : s.procs.find pid with
      | none => exact shows_new
      | some proc => exact h.procs pid proc hold
    · exact h.procs pid' proc hfind
  threads pid' tid' := by
    rw [thread_modifyThread]
    split
    · rename_i heq
      obtain ⟨rfl, rfl⟩ := heq
      exact (h.threads pid' tid').add (decide_eq_true rfl) hadds
    · rename_i hne
      exact (h.threads pid' tid').keep (decide_eq_false fun heq => hne (by cases heq; exact ⟨rfl, rfl⟩))
  known p hp pid' tid' hacc := by
    rw [SystemInfo.modifyThread, find_modify]
    rcases List.mem_append.mp hp with hp | hp
    · obtain ⟨proc, hproc, htid⟩ := h.known p hp pid' tid' hacc
      split
      · rename_i heq
        refine ⟨_, rfl, (UMap.mem_keys_insert _ _ _ _).mpr (.inr ?_)⟩
        rw [← heq, hproc]
        exact htid
      · exact ⟨proc, hproc, htid⟩
    · cases List.mem_singleton.mp hp
      cases hacc
      exact ⟨_, if_pos rfl, (UMap.mem_keys_insert _ _ _ _).mpr (.inl rfl)⟩
  kinds p hp := by
    rcases List.mem_append.mp hp with hp | hp
    · exact h.kinds p hp
    · cases List.mem_singleton.mp hp
      exact iff_of_false (fun hacc => by cases hacc) (by rw [hitem]; exact Bool.false_ne_true)

theorem Booked.perm (h : Booked ps s) (hperm : ps.Perm qs) : Booked qs s where
  system := ⟨fun i => (h.system.amount i).trans (posted_perm hperm), h.system.total.trans (posted_perm hperm)⟩
  procs := h.procs
  threads pid tid := ⟨fun i => ((h.threads pid tid).amount i).trans (posted_perm hperm),
    (h.threads pid tid).total.trans (posted_perm hperm)⟩
  known p hp := h.known p (hperm.mem_iff.mpr hp)
  kinds p hp := h.kinds p (hperm.mem_iff.mpr hp)

/-- What booking leaves as it is. -/
structure Kept (s s' : SystemInfo) : Prop where
  traces : s'.traceInfo = s.traceInfo
  summary : s'.summaryInfo = s.summaryInfo
  procs : ∀ pid, s'.traceOf pid = s.traceOf pid
  summaries : ∀ pid, s'.summaryOf pid = s.summaryOf pid

theorem Kept.refl : Kept s s := ⟨rfl, rfl, fun _ => rfl, fun _ => rfl⟩

theorem Kept.trans {s' s'' : SystemInfo} (h : Kept s s') (h' : Kept s' s'') : Kept s s'' :=
  ⟨h'.traces.trans h.traces, h'.summary.trans h.summary, fun pid => (h'.procs pid).trans (h.procs pid),
    fun pid => (h'.summaries pid).trans (h.summaries pid)⟩

theorem kept_modify {f : Proc → Proc}
    (hf : ∀ proc, (f proc).traceInfo = proc.traceInfo ∧ (f proc).summaryInfo = proc.summaryInfo) :
    Kept s (s.modify pid f) := by
  refine ⟨rfl, rfl, fun pid' => ?_, fun pid' => ?_⟩
  · unfold SystemInfo.traceOf
    rw [find_modify]
    split
    · rename_i heq
      rw [Option.getD_some, (hf _).1, heq]
    · rfl
  · unfold SystemInfo.summaryOf
    rw [find_modify]
    split
    · rename_i heq
      rw [Option.getD_some, (hf _).2, heq]
    · rfl

theorem kept_modifyThread {f : TaskInfo → TaskInfo} : Kept s (s.modifyThread pid tid f) :=
  kept_modify fun _ => ⟨rfl, rfl⟩

/-- What is in the buffer of a process. -/
def SystemInfo.buffer (s : SystemInfo) (pid : ℤ) : List Sample := ((s.procs.find pid).getD .new).speBuff

theorem buffer_modifyThread {f : TaskInfo → TaskInfo} (pid' : ℤ) :
    (s.modifyThread pid tid f).buffer pid' = s.buffer pid' := by
  unfold SystemInfo.modifyThread SystemInfo.buffer
  rw [find_modify]
  split
  · rename_i heq
    rw [heq]
    rfl
  · rfl

/-! ### The topics -/

theorem Booked.bufferSpe (h : Booked ps s) (d : Sample) : Booked ps (bufferSpe s d) where
  system := h.system
  procs pid' proc hfind := by
    rw [Analysis.bufferSpe, find_modify] at hfind
    split at hfind
    · cases hfind
      cases hold : s.procs.find d.pid with
      | none => exact shows_new
      | some proc => exact h.procs d.pid proc hold
    · exact h.procs pid' proc hfind
  threads pid' tid' := by
    have hsame : (Analysis.bufferSpe s d).thread pid' tid' = s.thread pid' tid' := by
      unfold Analysis.bufferSpe SystemInfo.thread
      rw [find_modify]
      split
      · rename_i heq
        rw [heq, Option.getD_some, UMap.find_insert]
        split
        · rename_i htid
          rw [htid]
          rfl
        · rfl
      · rfl
    rw [hsame]
    exact h.threads pid' tid'
  known p hp pid' tid' hacc := by
    obtain ⟨proc, hproc, htid⟩ := h.known p hp pid' tid' hacc
    rw [Analysis.bufferSpe, find_modify]
    split
    · rename_i heq
      refine ⟨_, rfl, (UMap.mem_keys_insert _ _ _ _).mpr (.inr ?_)⟩
      rw [← heq, hproc]
      exact htid
    · exact ⟨proc, hproc, htid⟩
  kinds := h.kinds

theorem buffer_bufferSpe (d : Sample) (pid' : ℤ) :
    (bufferSpe s d).buffer pid' = s.buffer pid' ++ if d.pid = pid' then [d] else [] := by
  unfold bufferSpe SystemInfo.buffer
  rw [find_modify]
  rcases eq_or_ne pid' d.pid with rfl | hne
  · rw [if_pos rfl, if_pos rfl]
    rfl
  · rw [if_neg hne, if_neg hne.symm, List.append_nil]

theorem mem_keys_bufferSpe {d : Sample} {pid' : ℤ} :
    pid' ∈ (bufferSpe s d).procs.keys ↔ pid' = d.pid ∨ pid' ∈ s.procs.keys := UMap.mem_keys_insert _ _ _ _

/-- The samples are buffered, each in its process. -/
theorem foldl_bufferSpe : ∀ (data : List Sample) {s : SystemInfo}, Booked ps s →
    Booked ps (data.foldl bufferSpe s) ∧ Kept s (data.foldl bufferSpe s) ∧
      (∀ pid, (data.foldl bufferSpe s).buffer pid = s.buffer pid ++ data.filter (fun d => d.pid = pid)) ∧
      ∀ d ∈ data, d.pid ∈ (data.foldl bufferSpe s).procs.keys
  | [], s, h => ⟨h, .refl, fun pid => (List.append_nil _).symm, fun d hd => absurd hd List.not_mem_nil⟩
  | d :: data, s, h => by
    obtain ⟨hbooked, hkept, hbuffer, hkeys⟩ := foldl_bufferSpe data (h.bufferSpe d)
    have hone : Kept s (bufferSpe s d) := kept_modify fun _ => ⟨rfl, rfl⟩
    rw [List.foldl_cons]
    refine ⟨hbooked, hone.trans hkept, fun pid => ?_, fun d' hd' => ?_⟩
    · rw [hbuffer, buffer_bufferSpe, List.append_assoc, List.filter_cons]
      split <;> simp_all
    · rcases List.mem_cons.mp hd' with rfl | hd'
      · have hmem : ∀ (data : List Sample) (s : SystemInfo), d'.pid ∈ s.procs.keys →
            d'.pid ∈ (data.foldl bufferSpe s).procs.keys := by
          intro data
          induction data with
          | nil => exact fun s hs => hs
          | cons x data ih => exact fun s hs => ih _ (mem_keys_bufferSpe.mpr (.inr hs))
        exact hmem data _ (mem_keys_bufferSpe.mpr (.inl rfl))
      · exact hkeys d' hd'

/-- The pages of a process, where `move_pages` has succeeded for it. -/
theorem foldlM_countAccess {pages : Pages} (hmoved : pages.moved pid = true) :
    ∀ {data : List Sample} {s s' : SystemInfo} {ps : Postings}, Booked ps s → (∀ d ∈ data, d.pid = pid) →
    data.foldlM (countAccess env pages pid) s = some s' →
    Booked (ps ++ data.flatMap (spePostings env pages)) s' ∧ Kept s s'
  | [], s, s', ps, h, _, hrun => by
    cases hrun
    rw [List.flatMap_nil, List.append_nil]
    exact ⟨h, .refl⟩
  | d :: data, s, s', ps, h, hpid, hrun => by
    obtain ⟨hd, hpid⟩ := List.forall_mem_cons.mp hpid
    rw [List.foldlM_cons, Option.bind_eq_bind, Option.bind_eq_some_iff] at hrun
    obtain ⟨s1, h1, hrun⟩ := hrun
    rw [List.flatMap_cons, ← List.append_assoc]
    unfold countAccess at h1
    dsimp only at h1
    rw [← hd] at h1 hmoved
    split at h1
    · rename_i hneg
      cases h1
      rw [spePostings, if_neg fun hc => absurd hneg (not_lt.mpr hc.2), List.append_nil]
      exact foldlM_countAccess (hd ▸ hmoved) h hpid hrun
    · rename_i hnode
      rw [Option.bind_eq_bind, Option.bind_eq_some_iff] at h1
      obtain ⟨cpuNode, hcpu, h1⟩ := h1
      split at h1
      · cases h1
      · cases h1
        have hpost := h.post d.pid d.tid rfl
          (adds_addOneAccess (t := s.thread d.pid d.tid) cpuNode (pages.node d.pid d.va).toNat)
        obtain ⟨hbooked, hkept⟩ := foldlM_countAccess (hd ▸ hmoved) hpost hpid hrun
        rw [spePostings, if_pos ⟨hmoved, not_lt.mp hnode⟩, hcpu]
        exact ⟨hbooked, kept_modifyThread.trans hkept⟩

/-- No buffer has anything in it. -/
def Idle (s : SystemInfo) : Prop := ∀ pid, s.buffer pid = []

theorem Booked.clearBuffers (h : Booked ps s) : Booked ps (clearBuffers s) ∧ Kept s (clearBuffers s) ∧ Idle (clearBuffers s) := by
  have hfind : ∀ pid, (Analysis.clearBuffers s).procs.find pid =
      (s.procs.find pid).map (fun proc => { proc with speBuff := [] }) := fun pid => rfl
  refine ⟨⟨h.system, fun pid proc hp => ?_, fun pid tid => ?_, fun p hp pid tid hacc => ?_, h.kinds⟩,
    ⟨rfl, rfl, fun pid => ?_, fun pid => ?_⟩, fun pid => ?_⟩
  · rw [hfind] at hp
    obtain ⟨old, hold, rfl⟩ := Option.map_eq_some_iff.mp hp
    exact h.procs pid old hold
  · have hsame : (Analysis.clearBuffers s).thread pid tid = s.thread pid tid := by
      unfold SystemInfo.thread
      rw [hfind]
      cases s.procs.find pid <;> rfl
    rw [hsame]
    exact h.threads pid tid
  · obtain ⟨proc, hproc, htid⟩ := h.known p hp pid tid hacc
    exact ⟨{ proc with speBuff := [] }, by rw [hfind, hproc]; rfl, htid⟩
  · unfold SystemInfo.traceOf
    rw [hfind]
    cases s.procs.find pid <;> rfl
  · unfold SystemInfo.summaryOf
    rw [hfind]
    cases s.procs.find pid <;> rfl
  · unfold SystemInfo.buffer
    rw [hfind]
    cases s.procs.find pid <;> rfl

/-- The accesses of all processes, one after another. -/
theorem foldlM_access {pages : Pages} (start : SystemInfo) (hbuffer : ∀ pid, ∀ d ∈ start.buffer pid, d.pid = pid) :
    ∀ {keys : List ℤ} {s s' : SystemInfo} {ps : Postings}, Booked ps s →
    keys.foldlM (fun s pid => if pages.moved pid then (start.buffer pid).foldlM (countAccess env pages pid) s
      else some s) s = some s' →
    Booked (ps ++ (keys.flatMap start.buffer).flatMap (spePostings env pages)) s' ∧ Kept s s'
  | [], s, s', ps, h, hrun => by
    cases hrun
    rw [List.flatMap_nil, List.flatMap_nil, List.append_nil]
    exact ⟨h, .refl⟩
  | pid :: keys, s, s', ps, h, hrun => by
    rw [List.foldlM_cons, Option.bind_eq_bind, Option.bind_eq_some_iff] at hrun
    obtain ⟨s1, h1, hrun⟩ := hrun
    rw [List.flatMap_cons, List.flatMap_append, ← List.append_assoc]
    split at h1
    · rename_i hmoved
      obtain ⟨hone, hkept⟩ := foldlM_countAccess hmoved h (hbuffer pid) h1
      obtain ⟨hall, hkept'⟩ := foldlM_access start hbuffer hone hrun
      exact ⟨hall, hkept.trans hkept'⟩
    · rename_i hmoved
      cases h1
      have hnone : (start.buffer pid).flatMap (spePostings env pages) = [] := by
        refine List.flatMap_eq_nil_iff.mpr fun d hd => ?_
        rw [spePostings, hbuffer pid d hd, if_neg fun hc => hmoved hc.1]
      rw [hnone, List.append_nil]
      exact foldlM_access start hbuffer h hrun

/-- `UpdateSpe` and `UpdateAccess` book the accesses of the samples. -/
theorem Booked.spe (h : Booked ps s) (hidle : Idle s) {data : List Sample} {pages : Pages} {s' : SystemInfo}
    (hrun : updateAccess env pages (updateSpe data s) = some s') :
    Booked (ps ++ (data.filter isValidSpe).flatMap (spePostings env pages)) s' ∧ Kept s s' ∧ Idle s' := by
  obtain ⟨hbooked, hkept, hbuffer, hkeys⟩ := foldl_bufferSpe (data.filter isValidSpe) h
  obtain ⟨s1, h1, rfl⟩ := Option.map_eq_some_iff.mp hrun
  have hown : ∀ pid, (updateSpe data s).buffer pid = (data.filter isValidSpe).filter (fun d => d.pid = pid) :=
    fun pid => (hbuffer pid).trans (by rw [hidle pid, List.nil_append])
  obtain ⟨haccess, hkept1⟩ := foldlM_access (updateSpe data s)
    (fun pid d hd => by
      rw [hown] at hd
      simpa using (List.mem_filter.mp hd).2) hbooked h1
  obtain ⟨hclear, hkept2, hidle2⟩ := haccess.clearBuffers
  refine ⟨hclear.perm (.append_left _ (List.Perm.flatMap_right _ ?_)), (hkept.trans hkept1).trans hkept2, hidle2⟩
  rw [List.flatMap_congr fun pid _ => hown pid]
  exact flatMap_groups_perm (updateSpe data s).procs.nodup hkeys

theorem Booked.cycles : ∀ (data : List Sample) {s : SystemInfo} {ps : Postings}, Booked ps s → Idle s →
    Booked (ps ++ data.map cyclesPosting)
      (data.foldl (fun sys d => sys.modifyThread d.pid d.tid (.addCycles d.period)) s) ∧
    Kept s (data.foldl (fun sys d => sys.modifyThread d.pid d.tid (.addCycles d.period)) s) ∧
    Idle (data.foldl (fun sys d => sys.modifyThread d.pid d.tid (.addCycles d.period)) s)
  | [], s, ps, h, hidle => by
    rw [List.map_nil, List.append_nil]
    exact ⟨h, .refl, hidle⟩
  | d :: data, s, ps, h, hidle => by
    have hpost := h.post d.pid d.tid rfl
      (adds_addCycles (t := s.thread d.pid d.tid) (n := d.period))
    obtain ⟨hall, hkept, hidle'⟩ := Booked.cycles data hpost fun pid => by
      rw [buffer_modifyThread]
      exact hidle pid
    rw [List.append_assoc] at hall
    exact ⟨hall, kept_modifyThread.trans hkept, hidle'⟩

theorem adds_netRx (t : TaskInfo) (node n : ℕ) :
    ∃ t1, Adds (.netRx node) n t t1 ∧ Adds .netRxSum n t1 { t with netInfo := t.netInfo.addRx node n } := by
  refine ⟨{ t with netInfo := { t.netInfo with
    netRxTimes := fun node' => t.netInfo.netRxTimes node' + if node' = node then n else 0 } },
    ⟨fun i => ?_, rfl⟩, ⟨fun i => ?_, rfl⟩⟩
  · cases i with
    | netRx node' => simp only [TaskInfo.amount, Item.netRx.injEq, eq_comm]
    | _ => rfl
  · cases i <;> rfl

/-- A change of the system's own amounts. -/
theorem Booked.own (h : Booked ps s) (item : Item) (hitem : item.isNet = true) (hadds : Adds item n s.realtimeInfo t) :
    Booked (ps ++ [⟨.system, item, n⟩]) { s with realtimeInfo := t } where
  system := h.system.add (decide_eq_true rfl) hadds
  procs := h.procs
  threads pid tid := (h.threads pid tid).keep (decide_eq_false fun heq => by cases heq)
  known p hp pid tid hacc := by
    rcases List.mem_append.mp hp with hp | hp
    · exact h.known p hp pid tid hacc
    · cases List.mem_singleton.mp hp
      cases hacc
  kinds p hp := by
    rcases List.mem_append.mp hp with hp | hp
    · exact h.kinds p hp
    · cases List.mem_singleton.mp hp
      exact iff_of_true rfl hitem

theorem Booked.netRx : ∀ {data : List Sample} {s s' : SystemInfo} {ps : Postings}, Booked ps s → Idle s →
    updateNetRx env data s = some s' →
    Booked (ps ++ data.flatMap (netRxPostings env)) s' ∧ Kept s s' ∧ Idle s'
  | [], s, s', ps, h, hidle, hrun => by
    cases hrun
    rw [List.flatMap_nil, List.append_nil]
    exact ⟨h, .refl, hidle⟩
  | d :: data, s, s', ps, h, hidle, hrun => by
    rw [updateNetRx, List.foldlM_cons, Option.bind_eq_bind, Option.bind_eq_some_iff] at hrun
    obtain ⟨s1, h1, hrun⟩ := hrun
    obtain ⟨node, hnode, h1⟩ := Option.bind_eq_some_iff.mp h1
    cases h1
    obtain ⟨t1, hadds, hadds'⟩ := adds_netRx s.realtimeInfo node d.count
    have hone := (h.own (.netRx node) rfl hadds).own .netRxSum rfl hadds'
    obtain ⟨hall, hkept, hidle'⟩ := Booked.netRx hone hidle hrun
    rw [List.flatMap_cons, ← List.append_assoc]
    have hpostings : netRxPostings env d = [⟨.system, .netRx node, d.count⟩, ⟨.system, .netRxSum, d.count⟩] := by
      rw [netRxPostings, hnode]
      rfl
    rw [hpostings, ← List.singleton_append, ← List.append_assoc]
    exact ⟨hall, ⟨hkept.traces, hkept.summary, hkept.procs, hkept.summaries⟩, hidle'⟩

theorem Booked.rx : ∀ {pairs : List (RecNetQueue × RecNetThreads)} {s s' : SystemInfo} {ps : Postings},
    Booked ps s → Idle s → pairs.foldlM (updateRemoteNetInfo env) s = some s' →
    Booked (ps ++ pairs.flatMap (rxPostings env)) s' ∧ Kept s s' ∧ Idle s'
  | [], s, s', ps, h, hidle, hrun => by
    cases hrun
    rw [List.flatMap_nil, List.append_nil]
    exact ⟨h, .refl, hidle⟩
  | p :: pairs, s, s', ps, h, hidle, hrun => by
    rw [List.foldlM_cons, Option.bind_eq_bind, Option.bind_eq_some_iff] at hrun
    obtain ⟨s1, h1, hrun⟩ := hrun
    obtain ⟨key, hkey, rfl⟩ := Option.map_eq_some_iff.mp h1
    have hpost := h.post p.2.pid.toInt p.2.tid.toInt rfl
      (adds_addOneRx (t := s.thread p.2.pid.toInt p.2.tid.toInt) key)
    obtain ⟨hall, hkept, hidle'⟩ := Booked.rx hpost (fun pid => by rw [buffer_modifyThread]; exact hidle pid) hrun
    rw [List.flatMap_cons, ← List.append_assoc, rxPostings, hkey]
    exact ⟨hall, kept_modifyThread.trans hkept, hidle'⟩

/-! ### Sums -/

/-- What is summed up with the threads. -/
def Item.isTask : Item → Bool
  | .cycles => true
  | .access _ _ => true
  | _ => false

theorem amount_addTasks {α : Type} (f : α → TaskInfo) (item : Item) : ∀ (l : List α) (t : TaskInfo),
    (l.foldl (fun t x => t.addTask (f x)) t).amount item =
      t.amount item + if item.isTask then (l.map (fun x => (f x).amount item)).sum else 0
  | [], t => by simp
  | x :: l, t => by
    rw [List.foldl_cons, amount_addTasks f item l, List.map_cons, List.sum_cons]
    cases item <;> simp [TaskInfo.addTask, TaskInfo.amount, Item.isTask, Nat.add_assoc]

theorem rxTimes_addTasks {α : Type} (f : α → TaskInfo) : ∀ (l : List α) (t : TaskInfo),
    (l.foldl (fun t x => t.addTask (f x)) t).netInfo = t.netInfo
  | [], _ => rfl
  | _ :: l, _ => rxTimes_addTasks f l _

theorem amount_addRxTimes {α : Type} (f : α → TaskInfo) (item : Item) : ∀ (l : List α) (t : TaskInfo),
    (l.foldl (fun t x => t.addRxTimes (f x).netInfo.rxTimes) t).amount item =
      t.amount item + if item.isRx then (l.map (fun x => (f x).amount item)).sum else 0
  | [], t => by simp
  | x :: l, t => by
    rw [List.foldl_cons, amount_addRxTimes f item l, List.map_cons, List.sum_cons]
    cases item <;> simp [TaskInfo.addRxTimes, TaskInfo.amount, Item.isRx, UMap.value_creditAll, Nat.add_assoc]

theorem total_addRxTimes {α : Type} (f : α → TaskInfo) : ∀ (l : List α) (t : TaskInfo),
    (l.foldl (fun t x => t.addRxTimes (f x).netInfo.rxTimes) t).netInfo.rxTimes.total =
      t.netInfo.rxTimes.total + (l.map (fun x => (f x).netInfo.rxTimes.total)).sum
  | [], _ => rfl
  | x :: l, t => by
    rw [List.foldl_cons, total_addRxTimes f l, List.map_cons, List.sum_cons, TaskInfo.addRxTimes, UMap.total_creditAll,
      Nat.add_assoc]

theorem isTask_or {item : Item} (h : item.isNet = false) : item.isTask = !item.isRx := by
  cases item <;> first | rfl | cases h

/-- What becomes of a process. -/
def Proc.sumUp (env : Env) (loopCnt : ℕ) (proc : Proc) : Proc :=
  let proc := proc.summaryThreads
  let proc := { proc with
    threads := proc.threads.mapVal (fun _ thread =>
      { thread with realtimeInfo := thread.realtimeInfo.calculateNumaScore env })
    realtimeInfo := proc.realtimeInfo.calculateNumaScore env }
  let proc := proc.summaryNetInfo
  { proc with
    threads := proc.threads.mapVal (fun _ thread =>
      { thread with realtimeInfo := thread.realtimeInfo.setLoopCnt loopCnt })
    realtimeInfo := proc.realtimeInfo.setLoopCnt loopCnt }

theorem find_sumUp (env : Env) (loopCnt : ℕ) (s : SystemInfo) (pid : ℤ) : (s.sumUp env loopCnt).procs.find pid =
    (s.procs.find pid).map (Proc.sumUp env loopCnt) := by
  unfold SystemInfo.sumUp SystemInfo.setLoopCnt SystemInfo.summaryProcsNetInfo SystemInfo.calculateNumaScore
    SystemInfo.summaryProcs
  simp only [UMap.find_mapVal, Option.map_map]
  rfl

theorem values_mapVal {κ α β : Type} [DecidableEq κ] (m : UMap κ α) (f : α → β) :
    (m.mapVal (fun _ => f)).values = m.values.map f := by
  unfold UMap.values
  rw [List.map_filterMap]
  rfl

/-- Only the system has amounts of its own. -/
theorem Booked.net (h : Booked ps s) (wanted : Account → Bool) (hitem : item.isNet = true) (hw : wanted .system = false) :
    posted wanted (fun i => decide (i = item)) ps = 0 := by
  refine posted_eq_zero fun p hp hwant => decide_eq_false fun heq => ?_
  have hsys := (h.kinds p hp).mpr (heq ▸ hitem)
  rw [hsys, hw] at hwant
  cases hwant

/-- The threads of a process show what is posted to it. -/
theorem Booked.sum_threads (h : Booked ps s) {proc : Proc} (hproc : s.procs.find pid = some proc)
    {what : Item → Bool} {f : TaskInfo → ℕ}
    (hf : ∀ tid, f (s.thread pid tid) = posted (fun a => decide (a = .thread pid tid)) what ps) :
    (proc.threads.values.map (fun thread => f thread.realtimeInfo)).sum = posted (Account.isOf pid) what ps := by
  have htid : ∀ tid ∈ proc.threads.keys, ((proc.threads.find tid).map (fun thread => f thread.realtimeInfo)).getD 0 =
      posted (fun a => Account.isOf pid a && decide (a.tid = tid)) what ps := by
    intro tid hmem
    obtain ⟨thread, hthread⟩ := Option.isSome_iff_exists.mp ((proc.threads.mem_keys tid).mp hmem)
    have hsame : s.thread pid tid = thread.realtimeInfo := by
      rw [SystemInfo.thread, hproc, Option.getD_some, hthread, Option.getD_some]
    rw [hthread, Option.map_some, Option.getD_some, ← hsame, hf]
    refine posted_congr fun p _ => ?_
    cases p.account with
    | system => rfl
    | thread pid' tid' =>
      have hboth : decide (Account.thread pid' tid' = .thread pid tid) =
          (decide (pid' = pid) && decide (tid' = tid)) := by
        rw [Bool.eq_iff_iff]
        simp
      exact congrArg (· && what p.item) hboth
  rw [UMap.sum_map_values, List.map_congr_left htid]
  refine sum_posted_groups proc.threads.nodup fun p hp hw => ?_
  cases hacc : p.account with
  | system =>
    rw [hacc] at hw
    cases hw
  | thread pid' tid' =>
    obtain ⟨proc', hproc', hmem⟩ := h.known p hp pid' tid' hacc
    rw [hacc] at hw
    cases of_decide_eq_true hw
    rw [hproc] at hproc'
    cases hproc'
    exact hmem

@[simp] theorem amount_calculateNumaScore : (t.calculateNumaScore env).amount item = t.amount item := by
  cases item <;> rfl

@[simp] theorem amount_sumRemoteRxTimes : t.sumRemoteRxTimes.amount item = t.amount item := by
  cases item <;> rfl

@[simp] theorem amount_setLoopCnt (loopCnt : ℕ) : (t.setLoopCnt loopCnt).amount item = t.amount item := by
  cases item <;> rfl

/-- A task that has been added up from others, first what is of tasks and then what is of packets. -/
theorem amount_sums {α : Type} (f g : α → TaskInfo) (amount : α → ℕ) {l : List α} (hitem : item.isNet = false)
    (hf : item.isTask = true → ∀ x ∈ l, (f x).amount item = amount x)
    (hg : item.isRx = true → ∀ x ∈ l, (g x).amount item = amount x) :
    (l.foldl (fun t x => t.addRxTimes (g x).netInfo.rxTimes)
      ((l.foldl (fun t x => t.addTask (f x)) t).calculateNumaScore env)).amount item =
        t.amount item + (l.map amount).sum := by
  rw [amount_addRxTimes, amount_calculateNumaScore, amount_addTasks]
  have htask := isTask_or hitem
  cases hrx : item.isRx with
  | true =>
    rw [hrx] at htask
    rw [htask, if_neg (by simp), if_pos rfl, Nat.add_zero, List.map_congr_left (hg hrx)]
  | false =>
    rw [hrx] at htask
    rw [htask, if_pos (show (!false) = true from rfl), if_neg (by simp), Nat.add_zero, List.map_congr_left (hf htask)]

theorem amount_sums_net {α : Type} (f g : α → TaskInfo) {l : List α} (hitem : item.isNet = true) :
    (l.foldl (fun t x => t.addRxTimes (g x).netInfo.rxTimes)
      ((l.foldl (fun t x => t.addTask (f x)) t).calculateNumaScore env)).amount item = t.amount item := by
  rw [amount_addRxTimes, amount_calculateNumaScore, amount_addTasks]
  have hmask : item.isTask = false ∧ item.isRx = false := by
    cases item <;> first | exact ⟨rfl, rfl⟩ | cases hitem
  rw [hmask.1, hmask.2]
  rfl

theorem total_sums {α : Type} (f g : α → TaskInfo) (l : List α) :
    (l.foldl (fun t x => t.addRxTimes (g x).netInfo.rxTimes)
      ((l.foldl (fun t x => t.addTask (f x)) t).calculateNumaScore env)).netInfo.rxTimes.total =
        t.netInfo.rxTimes.total + (l.map (fun x => (g x).netInfo.rxTimes.total)).sum := by
  rw [total_addRxTimes]
  have hstart : ((l.foldl (fun t x => t.addTask (f x)) t).calculateNumaScore env).netInfo =
      (l.foldl (fun t x => t.addTask (f x)) t).netInfo := rfl
  rw [hstart, rxTimes_addTasks]

theorem realtimeInfo_sumUp (env : Env) (loopCnt : ℕ) (proc : Proc) : (proc.sumUp env loopCnt).realtimeInfo =
    ((proc.threads.values.foldl
      (fun t thread => t.addRxTimes (thread.realtimeInfo.calculateNumaScore env).netInfo.rxTimes)
      ((proc.threads.values.foldl (fun t thread => t.addTask thread.realtimeInfo)
        proc.realtimeInfo).calculateNumaScore env)).sumRemoteRxTimes).setLoopCnt loopCnt := by
  unfold Proc.sumUp Proc.summaryNetInfo Proc.summaryThreads
  simp only [values_mapVal, List.foldl_map]

theorem realtimeInfo_system (env : Env) (loopCnt : ℕ) (s : SystemInfo) : (s.sumUp env loopCnt).realtimeInfo =
    ((s.procs.values.foldl
      (fun t proc => t.addRxTimes (proc.sumUp env loopCnt).realtimeInfo.netInfo.rxTimes)
      ((s.procs.values.foldl (fun t proc => t.addTask proc.summaryThreads.realtimeInfo)
        s.realtimeInfo).calculateNumaScore env)).sumRemoteRxTimes).setLoopCnt loopCnt := by
  unfold SystemInfo.sumUp SystemInfo.setLoopCnt SystemInfo.summaryProcsNetInfo SystemInfo.calculateNumaScore
    SystemInfo.summaryProcs
  simp only [values_mapVal, List.foldl_map]
  rfl

/-- What is of tasks is there before the packets are added. -/
theorem amount_summaryThreads (hitem : item.isRx = false) (proc : Proc) (loopCnt : ℕ) :
    proc.summaryThreads.realtimeInfo.amount item = (proc.sumUp env loopCnt).realtimeInfo.amount item := by
  rw [realtimeInfo_sumUp, amount_setLoopCnt, amount_sumRemoteRxTimes, amount_addRxTimes, hitem, if_neg (by simp),
    Nat.add_zero, amount_calculateNumaScore]
  rfl

/-- ONE PROCESS shows what has been posted to its threads. -/
theorem Booked.sumUp_proc (h : Booked ps s) {proc : Proc} (hproc : s.procs.find pid = some proc) (loopCnt : ℕ) :
    Shows (Account.isOf pid) ps (proc.sumUp env loopCnt).realtimeInfo := by
  have hzero := h.procs pid proc hproc
  rw [realtimeInfo_sumUp]
  refine ⟨fun i => ?_, ?_⟩
  · rw [amount_setLoopCnt, amount_sumRemoteRxTimes]
    cases hnet : i.isNet with
    | true =>
      rw [amount_sums_net (fun thread : Thread => thread.realtimeInfo) _ hnet, hzero.amount, h.net _ hnet rfl]
      rfl
    | false =>
      rw [amount_sums (fun thread : Thread => thread.realtimeInfo) _ (fun thread => thread.realtimeInfo.amount i) hnet
        (fun _ _ _ => rfl) (fun _ _ _ => amount_calculateNumaScore), hzero.amount, posted_nil, Nat.zero_add]
      exact h.sum_threads hproc (f := fun t => t.amount i) fun tid => (h.threads pid tid).amount i
  · change (proc.threads.values.foldl _ _ : TaskInfo).netInfo.rxTimes.total = _
    refine (total_sums (fun thread : Thread => thread.realtimeInfo) _ _).trans ?_
    rw [hzero.total, posted_nil, Nat.zero_add]
    exact h.sum_threads hproc (f := fun t => t.netInfo.rxTimes.total) fun tid => (h.threads pid tid).total

/-- Over the processes. -/
theorem Booked.sum_procs (h : Booked ps s) {what : Item → Bool} {f : Proc → ℕ}
    (hf : ∀ pid proc, s.procs.find pid = some proc → f proc = posted (Account.isOf pid) what ps) :
    (s.procs.values.map f).sum = posted (fun a => !decide (a = .system)) what ps := by
  have hpid : ∀ pid ∈ s.procs.keys, ((s.procs.find pid).map f).getD 0 =
      posted (fun a => (!decide (a = .system)) && decide (a.pid = pid)) what ps := by
    intro pid hmem
    obtain ⟨proc, hproc⟩ := Option.isSome_iff_exists.mp ((s.procs.mem_keys pid).mp hmem)
    rw [hproc, Option.map_some, Option.getD_some, hf pid proc hproc]
    refine posted_congr fun p _ => ?_
    cases p.account with
    | system => rfl
    | thread pid' tid' => rfl
  rw [UMap.sum_map_values, List.map_congr_left hpid]
  refine sum_posted_groups s.procs.nodup fun p hp hw => ?_
  cases hacc : p.account with
  | system =>
    rw [hacc] at hw
    cases hw
  | thread pid' tid' =>
    obtain ⟨proc, hproc, -⟩ := h.known p hp pid' tid' hacc
    exact UMap.mem_keys_of_find hproc

/-- THE SYSTEM shows all that has been posted. -/
theorem Booked.sumUp_system (h : Booked ps s) (env : Env) (loopCnt : ℕ) :
    Shows (fun _ => true) ps (s.sumUp env loopCnt).realtimeInfo := by
  rw [realtimeInfo_system]
  refine ⟨fun i => ?_, ?_⟩
  · rw [amount_setLoopCnt, amount_sumRemoteRxTimes, posted_split (fun a => decide (a = Account.system))]
    cases hnet : i.isNet with
    | true =>
      rw [amount_sums_net (fun proc : Proc => proc.summaryThreads.realtimeInfo) _ hnet, h.system.amount,
        h.net (fun a => !decide (a = Account.system)) hnet rfl, Nat.add_zero]
    | false =>
      rw [amount_sums (fun proc : Proc => proc.summaryThreads.realtimeInfo) _
        (fun proc => (proc.sumUp env loopCnt).realtimeInfo.amount i) hnet
        (fun htask proc _ => amount_summaryThreads (by rw [isTask_or hnet] at htask; simpa using htask) proc loopCnt)
        (fun _ _ _ => rfl), h.system.amount,
        h.sum_procs (f := fun proc => (proc.sumUp env loopCnt).realtimeInfo.amount i)
          fun pid proc hproc => (h.sumUp_proc hproc loopCnt).amount i]
  · change (s.procs.values.foldl _ _ : TaskInfo).netInfo.rxTimes.total = _
    refine (total_sums (fun proc : Proc => proc.summaryThreads.realtimeInfo) _ _).trans ?_
    rw [h.system.total, posted_split (fun a => decide (a = Account.system)),
      h.sum_procs (f := fun proc => (proc.sumUp env loopCnt).realtimeInfo.netInfo.rxTimes.total)
        fun pid proc hproc => (h.sumUp_proc hproc loopCnt).total]

/-! ### The end of a round -/

/-- What `Analyze` makes of the system once the packets are matched. -/
def SystemInfo.closeRound (env : Env) (loopCnt : ℕ) (isSummary : Bool) (s : SystemInfo) : SystemInfo :=
  let s := (s.sumUp env loopCnt).appendTraceInfo
  (if isSummary then s.traceInfoSummary env 0 loopCnt else s).clearRealtimeInfo

theorem analyze_eq {isSummary : Bool} {s s' : State} (h : analyze env isSummary s = some s') :
    ∃ sysInfo realtime,
      (matchedPairs s.recNetQueue s.recNetThreads).foldlM (updateRemoteNetInfo env) s.sysInfo = some sysInfo ∧
      suggest env s.loopCnt s.cyclsInterval (sysInfo.sumUp env s.loopCnt).realtimeInfo false = some realtime ∧
      s'.sysInfo = sysInfo.closeRound env s.loopCnt isSummary ∧ s'.recNetQueue = [] ∧ s'.recNetThreads = [] ∧
      s'.loopCnt = s.loopCnt + 1 ∧ s'.cyclsInterval = s.cyclsInterval ∧ s'.report.realtime = some realtime := by
  obtain ⟨sysInfo, hmatch, h⟩ := Option.bind_eq_some_iff.mp h
  obtain ⟨realtime, hrealtime, h⟩ := Option.bind_eq_some_iff.mp h
  cases isSummary with
  | false =>
    cases h
    exact ⟨sysInfo, realtime, hmatch, hrealtime, rfl, rfl, rfl, rfl, rfl, rfl⟩
  | true =>
    obtain ⟨summary, -, h⟩ := Option.bind_eq_some_iff.mp h
    cases h
    exact ⟨sysInfo, realtime, hmatch, hrealtime, rfl, rfl, rfl, rfl, rfl, rfl⟩

theorem traceInfo_closeRound (loopCnt : ℕ) (isSummary : Bool) : (s.closeRound env loopCnt isSummary).traceInfo =
    s.traceInfo ++ [(s.sumUp env loopCnt).realtimeInfo] := by
  cases isSummary <;> rfl

/-- What becomes of a process at the end of a round. -/
theorem find_closeRound (env : Env) (s : SystemInfo) (loopCnt : ℕ) (isSummary : Bool) (pid : ℤ) :
    ∃ close : Proc → Proc, (s.closeRound env loopCnt isSummary).procs.find pid = (s.procs.find pid).map close ∧
      ∀ proc, (close proc).speBuff = proc.speBuff ∧
        (close proc).traceInfo = proc.traceInfo ++ [(proc.sumUp env loopCnt).realtimeInfo] ∧
        (close proc).summaryInfo = (if isSummary then
          traceInfoSummary env (proc.traceInfo ++ [(proc.sumUp env loopCnt).realtimeInfo]) proc.summaryInfo 0 loopCnt
          else proc.summaryInfo) ∧
        Shows (fun _ => false) [] (close proc).realtimeInfo ∧
        ∀ tid thread, (close proc).threads.find tid = some thread → Shows (fun _ => false) [] thread.realtimeInfo := by
  cases isSummary with
  | true =>
    unfold SystemInfo.closeRound SystemInfo.appendTraceInfo SystemInfo.traceInfoSummary SystemInfo.clearRealtimeInfo
    simp only [UMap.find_mapVal, Option.map_map, find_sumUp, if_true]
    refine ⟨_, rfl, fun proc => ⟨rfl, rfl, rfl, shows_clearData, fun tid thread hfind => ?_⟩⟩
    obtain ⟨thread', -, rfl⟩ := Option.map_eq_some_iff.mp hfind
    exact shows_clearData
  | false =>
    unfold SystemInfo.closeRound SystemInfo.appendTraceInfo SystemInfo.clearRealtimeInfo
    simp only [UMap.find_mapVal, Option.map_map, find_sumUp, Bool.false_eq_true, if_false]
    refine ⟨_, rfl, fun proc => ⟨rfl, rfl, rfl, shows_clearData, fun tid thread hfind => ?_⟩⟩
    obtain ⟨thread', -, rfl⟩ := Option.map_eq_some_iff.mp hfind
    exact shows_clearData

/-- Nothing is booked at first. -/
theorem booked_nil (hsystem : Shows (fun _ => false) [] s.realtimeInfo)
    (hprocs : ∀ pid proc, s.procs.find pid = some proc → Shows (fun _ => false) [] proc.realtimeInfo ∧
      ∀ tid thread, proc.threads.find tid = some thread → Shows (fun _ => false) [] thread.realtimeInfo) :
    Booked [] s where
  system := .of_nil (fun p hp => absurd hp List.not_mem_nil) hsystem
  procs pid proc hfind := (hprocs pid proc hfind).1
  threads pid tid := by
    refine .of_nil (fun p hp => absurd hp List.not_mem_nil) ?_
    unfold SystemInfo.thread
    cases hproc : s.procs.find pid with
    | none => exact shows_new
    | some proc =>
      rw [Option.getD_some]
      cases hthread : proc.threads.find tid with
      | none => exact shows_new
      | some thread => exact (hprocs pid proc hproc).2 tid thread hthread
  known p hp := absurd hp List.not_mem_nil
  kinds p hp := absurd hp List.not_mem_nil

theorem booked_closeRound (loopCnt : ℕ) (isSummary : Bool) : Booked [] (s.closeRound env loopCnt isSummary) := by
  refine booked_nil ?_ fun pid proc hfind => ?_
  · cases isSummary <;> exact shows_clearData
  · obtain ⟨close, hclose, hfields⟩ := find_closeRound env s loopCnt isSummary pid
    rw [hclose] at hfind
    obtain ⟨old, -, rfl⟩ := Option.map_eq_some_iff.mp hfind
    exact (hfields old).2.2.2

theorem idle_closeRound (hidle : Idle s) (loopCnt : ℕ) (isSummary : Bool) :
    Idle (s.closeRound env loopCnt isSummary) := by
  intro pid
  obtain ⟨close, hclose, hfields⟩ := find_closeRound env s loopCnt isSummary pid
  have hpid := hidle pid
  unfold SystemInfo.buffer at hpid ⊢
  rw [hclose]
  cases hproc : s.procs.find pid with
  | none => rfl
  | some proc =>
    rw [hproc] at hpid
    exact (hfields proc).1.trans hpid

/-- The trace of a process grows by what has been posted to it. -/
theorem Booked.traceOf_closeRound (h : Booked ps s) (loopCnt : ℕ) (isSummary : Bool) (pid : ℤ) (item : Item) :
    (((s.closeRound env loopCnt isSummary).traceOf pid).map (fun t => t.amount item)).sum =
      ((s.traceOf pid).map (fun t => t.amount item)).sum +
        posted (Account.isOf pid) (fun i => decide (i = item)) ps := by
  obtain ⟨close, hclose, hfields⟩ := find_closeRound env s loopCnt isSummary pid
  unfold SystemInfo.traceOf
  rw [hclose]
  cases hproc : s.procs.find pid with
  | none =>
    have hnone : posted (Account.isOf pid) (fun i => decide (i = item)) ps = 0 := by
      refine posted_eq_zero fun p hp hw => ?_
      cases hacc : p.account with
      | system =>
        rw [hacc] at hw
        cases hw
      | thread pid' tid' =>
        obtain ⟨proc, hfind, -⟩ := h.known p hp pid' tid' hacc
        rw [hacc] at hw
        cases of_decide_eq_true hw
        rw [hproc] at hfind
        cases hfind
    rw [hnone]
    rfl
  | some proc =>
    rw [Option.map_some, Option.getD_some, Option.getD_some, (hfields proc).2.1, List.map_append, List.sum_append,
      List.map_singleton, List.sum_singleton, (h.sumUp_proc hproc loopCnt).amount]

/-! ### Whole runs -/

/-- What is booked in this round, and what the traces show of those that are over. -/
structure Books (env : Env) (h : List (List Act) × List Act) (s : State) : Prop where
  booked : Booked (h.2.flatMap (postings env)) s.sysInfo
  idle : Idle s.sysInfo
  queues : s.recNetQueue = h.2.flatMap Act.queues
  threads : s.recNetThreads = h.2.flatMap Act.threads
  loopCnt : s.loopCnt = h.1.length
  interval : s.cyclsInterval.value h.1.length = (h.2.map Act.interval).sum
  later : ∀ k, h.1.length < k → s.cyclsInterval.value k = 0
  loops : s.sysInfo.traceInfo.map (·.loopCnt) = List.range h.1.length
  amounts : s.sysInfo.traceInfo.map TaskInfo.amount = h.1.map (fun r => allPosted (roundPostings env r))
  matched : s.sysInfo.traceInfo.map (·.netInfo.remoteRxSum) = h.1.map (fun r => allMatched (roundPostings env r))
  procs : ∀ pid item, ((s.sysInfo.traceOf pid).map (fun t => t.amount item)).sum =
    (h.1.map (fun r => posted (Account.isOf pid) (fun i => decide (i = item)) (roundPostings env r))).sum

section
variable {hist : List (List Act) × List Act} {w w' : State} {act : Act}

theorem books_init : Books env ([], []) init where
  booked := booked_nil shows_new fun pid proc h => by cases h
  idle pid := rfl
  queues := rfl
  threads := rfl
  loopCnt := rfl
  interval := rfl
  later k hk := rfl
  loops := rfl
  amounts := rfl
  matched := rfl
  procs pid item := rfl

/-- A call within a round. -/
theorem Books.within (h : Books env hist w) (hround : addToRound hist act = (hist.1, hist.2 ++ [act]))
    (hbooked : Booked (hist.2.flatMap (postings env) ++ postings env act) w'.sysInfo)
    (hkept : Kept w.sysInfo w'.sysInfo) (hidle : Idle w'.sysInfo)
    (hqueues : w'.recNetQueue = w.recNetQueue ++ act.queues)
    (hthreads : w'.recNetThreads = w.recNetThreads ++ act.threads) (hloop : w'.loopCnt = w.loopCnt)
    (hinterval : w'.cyclsInterval.value hist.1.length = w.cyclsInterval.value hist.1.length + act.interval)
    (hlater : ∀ k, hist.1.length < k → w'.cyclsInterval.value k = w.cyclsInterval.value k) :
    Books env (addToRound hist act) w' := by
  rw [hround]
  refine ⟨?_, hidle, ?_, ?_, hloop.trans h.loopCnt, ?_, fun k hk => (hlater k hk).trans (h.later k hk), ?_, ?_, ?_, ?_⟩
  · rw [List.flatMap_append, List.flatMap_singleton]
    exact hbooked
  · rw [hqueues, h.queues, List.flatMap_append, List.flatMap_singleton]
  · rw [hthreads, h.threads, List.flatMap_append, List.flatMap_singleton]
  · rw [hinterval, h.interval, List.map_append, List.sum_append, List.map_singleton, List.sum_singleton]
  · rw [hkept.traces, h.loops]
  · rw [hkept.traces, h.amounts]
  · rw [hkept.traces, h.matched]
  · intro pid item
    rw [hkept.procs, h.procs]

/-- `Analyze` in a round whose calls have been booked. -/
theorem Books.matched_round (h : Books env hist w) {sysInfo : SystemInfo}
    (hmatch : (matchedPairs w.recNetQueue w.recNetThreads).foldlM (updateRemoteNetInfo env) w.sysInfo = some sysInfo) :
    Booked (roundPostings env hist.2) sysInfo ∧ Kept w.sysInfo sysInfo ∧ Idle sysInfo := by
  rw [h.queues, h.threads] at hmatch
  exact h.booked.rx h.idle hmatch

theorem Books.analyze (h : Books env hist w) {isSummary : Bool} (hstep : Analysis.analyze env isSummary w = some w') :
    Books env (hist.1 ++ [hist.2], []) w' := by
  obtain ⟨sysInfo, -, hmatch, -, hsys, hqueues, hthreads, hloop, hinterval, -⟩ := analyze_eq hstep
  obtain ⟨hbooked, hkept, hidle⟩ := h.matched_round hmatch
  have hshows := hbooked.sumUp_system env w.loopCnt
  have htraces : w'.sysInfo.traceInfo = w.sysInfo.traceInfo ++ [(sysInfo.sumUp env w.loopCnt).realtimeInfo] := by
    rw [hsys, traceInfo_closeRound, hkept.traces]
  have hlen : (hist.1 ++ [hist.2]).length = hist.1.length + 1 := List.length_append
  refine ⟨hsys ▸ booked_closeRound _ _, hsys ▸ idle_closeRound hidle _ _, hqueues, hthreads, ?_, ?_, ?_, ?_, ?_, ?_, ?_⟩
  · rw [hloop, h.loopCnt, hlen]
  · rw [hlen, hinterval]
    exact h.later _ (Nat.lt_succ_self _)
  · intro k hk
    rw [hinterval]
    exact h.later k (by rw [hlen] at hk; omega)
  · rw [htraces, List.map_append, h.loops, hlen, List.range_succ, realtimeInfo_system, List.map_singleton,
      ← h.loopCnt]
    rfl
  · rw [htraces, List.map_append, List.map_append, h.amounts, List.map_singleton, List.map_singleton]
    exact congrArg (fun f => _ ++ [f]) (funext hshows.amount)
  · have hsum : (sysInfo.sumUp env w.loopCnt).realtimeInfo.netInfo.remoteRxSum =
        (sysInfo.sumUp env w.loopCnt).realtimeInfo.netInfo.rxTimes.total := by
      rw [realtimeInfo_system]
      rfl
    rw [htraces, List.map_append, List.map_append, h.matched, List.map_singleton, List.map_singleton, hsum, hshows.total]
    rfl
  · intro pid item
    rw [hsys, hbooked.traceOf_closeRound, hkept.procs, h.procs, List.map_append, List.sum_append, List.map_singleton,
      List.sum_singleton]

theorem Books.step (h : Books env hist w) (hstep : Analysis.step env w act = some w') :
    Books env (addToRound hist act) w' := by
  cases act with
  | spe data pages =>
    unfold Analysis.step at hstep
    dsimp only at hstep
    split at hstep
    · rename_i hnil
      cases hstep
      refine h.within rfl ?_ .refl h.idle (List.append_nil _).symm (List.append_nil _).symm rfl rfl fun k _ => rfl
      rw [hnil]
      exact (List.append_nil (hist.2.flatMap (postings env))).symm ▸ h.booked
    · obtain ⟨sysInfo, hsys, rfl⟩ := Option.map_eq_some_iff.mp hstep
      obtain ⟨hbooked, hkept, hidle⟩ := h.booked.spe h.idle hsys
      exact h.within rfl hbooked hkept hidle (List.append_nil _).symm (List.append_nil _).symm rfl rfl fun k _ => rfl
  | netRx data =>
    obtain ⟨sysInfo, hsys, rfl⟩ := Option.map_eq_some_iff.mp hstep
    obtain ⟨hbooked, hkept, hidle⟩ := h.booked.netRx h.idle hsys
    exact h.within rfl hbooked hkept hidle (List.append_nil _).symm (List.append_nil _).symm rfl rfl fun k _ => rfl
  | napi queues =>
    cases hstep
    refine h.within rfl ?_ .refl h.idle rfl (List.append_nil _).symm rfl rfl fun k _ => rfl
    exact (List.append_nil (hist.2.flatMap (postings env))).symm ▸ h.booked
  | skb threads =>
    cases hstep
    refine h.within rfl ?_ .refl h.idle (List.append_nil _).symm rfl rfl rfl fun k _ => rfl
    exact (List.append_nil (hist.2.flatMap (postings env))).symm ▸ h.booked
  | cycles data interval =>
    unfold Analysis.step at hstep
    dsimp only at hstep
    split at hstep
    · rename_i hnil
      cases hstep
      refine h.within rfl ?_ .refl h.idle (List.append_nil _).symm (List.append_nil _).symm rfl ?_ fun k _ => rfl
      · rw [hnil]
        exact (List.append_nil (hist.2.flatMap (postings env))).symm ▸ h.booked
      · rw [Act.interval, if_pos hnil, Nat.add_zero]
    · rename_i hne
      cases hstep
      obtain ⟨hbooked, hkept, hidle⟩ := Booked.cycles (data.filter isValidPmu) h.booked h.idle
      refine h.within rfl hbooked hkept hidle (List.append_nil _).symm (List.append_nil _).symm rfl ?_ fun k hk => ?_
      · rw [updateCyclesSample, UMap.value_credit, h.loopCnt, if_pos rfl, Act.interval, if_neg hne]
      · rw [updateCyclesSample, UMap.value_credit, h.loopCnt, if_neg (Nat.ne_of_gt hk), Nat.add_zero]
  | analyze isSummary => exact h.analyze hstep

theorem books_run : ∀ {acts : List Act} {hist : List (List Act) × List Act} {w w' : State}, Books env hist w →
    acts.foldlM (Analysis.step env) w = some w' → Books env (acts.foldl addToRound hist) w'
  | [], _, _, _, h, hrun => by
    cases hrun
    exact h
  | act :: acts, hist, w, w', h, hrun => by
    rw [List.foldlM_cons, Option.bind_eq_bind, Option.bind_eq_some_iff] at hrun
    obtain ⟨w1, h1, hrun⟩ := hrun
    rw [List.foldl_cons]
    exact books_run (h.step h1) hrun

end

end

section
variable {env : Env}

theorem rounds_analyze (acts : List Act) (isSummary : Bool) :
    rounds (acts ++ [.analyze isSummary]) = ((rounds acts).1 ++ [(rounds acts).2], []) := by
  unfold rounds
  rw [List.foldl_append]
  rfl

/-- The last call of a run. -/
theorem run_concat {acts : List Act} {act : Act} {s : State} (h : run env (acts ++ [act]) = some s) :
    ∃ w, run env acts = some w ∧ step env w act = some s := by
  unfold run at h
  rw [List.foldlM_append, Option.bind_eq_bind, Option.bind_eq_some_iff] at h
  obtain ⟨w, hw, h⟩ := h
  rw [List.foldlM_cons, Option.bind_eq_bind, Option.bind_eq_some_iff] at h
  obtain ⟨s', h, hnil⟩ := h
  cases hnil
  exact ⟨w, hw, h⟩

/-- What a round suggests, going by what has been posted in it and for how long. -/
def suggestedBy (env : Env) (ps : Postings) (interval : ℕ) : Suggested :=
  let access := fun i j => allPosted ps (.access i j)
  let accessSum := overNodes env access
  let accessCost := overNodes env (fun i j => access i j * env.distance i j)
  { numa := decide (1 < env.numaNum ∧ ACCESS_THRESHOLD ≤ accessSum ∧
      scoreOf env accessSum accessCost ≤ NUMA_SCORE_THRESHOLD)
    net := decide (NET_RX_THRESHOLD < allPosted ps .netRxSum ∨ NET_REMOTE_RX_THRESHOLD < allMatched ps)
    steal := decide (env.sysMaxCycles ≠ 0 ∧ STEAL_TASK_CYCLES_THRESHOLD * env.sysMaxCycles <
      (allPosted ps .cycles / interval * MS_PER_SEC : ℕ)) }

theorem foldl_addRxTimes {α : Type} (f : α → TaskInfo) : ∀ (l : List α) (t : TaskInfo),
    l.foldl (fun t x => t.addRxTimes (f x).netInfo.rxTimes) t =
      { t with netInfo := (l.foldl (fun t x => t.addRxTimes (f x).netInfo.rxTimes) t).netInfo }
  | [], _ => rfl
  | x :: l, t => foldl_addRxTimes f l (t.addRxTimes (f x).netInfo.rxTimes)

/-- The score of the system is that of its accesses, and its packets are counted. -/
theorem scored_sumUp (env : Env) (loopCnt : ℕ) (s : SystemInfo) :
    (s.sumUp env loopCnt).realtimeInfo.accessSum = overNodes env (s.sumUp env loopCnt).realtimeInfo.access ∧
    (s.sumUp env loopCnt).realtimeInfo.numaScore =
      scoreOf env (overNodes env (s.sumUp env loopCnt).realtimeInfo.access)
        (overNodes env (fun i j => (s.sumUp env loopCnt).realtimeInfo.access i j * env.distance i j)) ∧
    (s.sumUp env loopCnt).realtimeInfo.netInfo.remoteRxSum =
      (s.sumUp env loopCnt).realtimeInfo.netInfo.rxTimes.total := by
  rw [realtimeInfo_system, foldl_addRxTimes (fun proc : Proc => (proc.sumUp env loopCnt).realtimeInfo)]
  exact ⟨rfl, rfl, rfl⟩

theorem suggest_realtime {ps : Postings} {sysInfo : SystemInfo} {loopCnt : ℕ} {cyclsInterval : UMap ℕ ℕ}
    {suggested : Suggested} (h : Booked ps sysInfo)
    (hs : suggest env loopCnt cyclsInterval (sysInfo.sumUp env loopCnt).realtimeInfo false = some suggested) :
    cyclsInterval.value loopCnt ≠ 0 ∧ suggested = suggestedBy env ps (cyclsInterval.value loopCnt) := by
  have hshows := h.sumUp_system env loopCnt
  obtain ⟨hsum, hscore, hremote⟩ := scored_sumUp env loopCnt sysInfo
  have haccess : (sysInfo.sumUp env loopCnt).realtimeInfo.access = fun i j => allPosted ps (.access i j) :=
    funext fun i => funext fun j => hshows.amount (.access i j)
  rw [haccess] at hsum hscore
  have hrx : (sysInfo.sumUp env loopCnt).realtimeInfo.netInfo.netRxSum = allPosted ps .netRxSum :=
    hshows.amount .netRxSum
  have hcycles : (sysInfo.sumUp env loopCnt).realtimeInfo.cycles = allPosted ps .cycles := hshows.amount .cycles
  rw [hshows.total] at hremote
  obtain ⟨steal, hsteal, hs⟩ := Option.bind_eq_some_iff.mp hs
  cases hs
  unfold stealTaskTuneSuggest at hsteal
  simp only [Bool.false_eq_true, false_and, if_false, Nat.add_zero] at hsteal
  split at hsteal
  · cases hsteal
  · rename_i hinterval
    cases hsteal
    refine ⟨hinterval, ?_⟩
    rw [suggestedBy, Suggested.mk.injEq]
    refine ⟨?_, ?_, ?_⟩
    · unfold numaTuneSuggest
      simp only [Bool.false_eq_true, false_and, if_false, hsum, hscore]
      split
      · rename_i hone
        exact (decide_eq_false fun hall => absurd hone (not_le.mpr hall.1)).symm
      · rename_i hone
        split
        · rename_i hfew
          exact (decide_eq_false fun hall => absurd hfew (not_lt.mpr hall.2.1)).symm
        · rename_i hfew
          split
          · rename_i hnear
            exact (decide_eq_false fun hall => absurd hnear (not_lt.mpr hall.2.2)).symm
          · rename_i hnear
            exact (decide_eq_true ⟨not_le.mp hone, not_lt.mp hfew, not_lt.mp hnear⟩).symm
    · rw [hrx, hremote, Bool.decide_or]
      rfl
    · rw [hcycles]
      refine decide_eq_decide.mpr ?_
      split
      · rename_i hzero
        exact iff_of_false (by decide +kernel) fun hall => hall.1 hzero
      · rename_i hpos
        rw [lt_div_iff₀ (Nat.cast_pos.mpr (Nat.pos_of_ne_zero hpos)), and_iff_right hpos]

end

section
variable {env : Env}

theorem amount_addTraces (item : Item) : ∀ (infos : List TaskInfo) (t : TaskInfo),
    (infos.foldl .addTrace t).amount item = t.amount item + (infos.map (fun info => info.amount item)).sum
  | [], _ => rfl
  | info :: infos, t => by
    rw [List.foldl_cons, amount_addTraces item infos, List.map_cons, List.sum_cons, ← Nat.add_assoc]
    cases item with
    | rx key =>
      rw [TaskInfo.addTrace]
      simp only [TaskInfo.amount, UMap.value_creditAll]
    | _ => rfl

/-- All traces up to this round are in the summary. -/
theorem amount_traceInfoSummary {infos : List TaskInfo} {n : ℕ} (hloops : ∀ info ∈ infos, info.loopCnt ≤ n)
    (summary : TaskInfo) (item : Item) : (traceInfoSummary env infos summary 0 n).amount item =
      summary.amount item + (infos.map (fun info => info.amount item)).sum := by
  have hall : infos.filter (fun info => 0 ≤ info.loopCnt ∧ info.loopCnt ≤ n) = infos :=
    List.filter_eq_self.mpr fun info hinfo => by simpa using hloops info hinfo
  rw [traceInfoSummary, amount_sumRemoteRxTimes, amount_calculateNumaScore, amount_setLoopCnt, hall, amount_addTraces]

/-- What a summary makes of that of a process: all of its traces are added. -/
theorem amount_summaryOf {s : SystemInfo} {pid : ℤ} {n : ℕ} (hloops : ∀ info ∈ s.traceOf pid, info.loopCnt ≤ n)
    (item : Item) : ((s.closeRound env n true).summaryOf pid).amount item = (s.summaryOf pid).amount item +
      (((s.closeRound env n true).traceOf pid).map (fun info => info.amount item)).sum := by
  obtain ⟨close, hclose, hfields⟩ := find_closeRound env s n true pid
  unfold SystemInfo.traceOf at hloops
  unfold SystemInfo.summaryOf SystemInfo.traceOf
  rw [hclose]
  cases hproc : s.procs.find pid with
  | none =>
    cases item <;> rfl
  | some proc =>
    rw [hproc] at hloops
    obtain ⟨-, htrace, hsummary, -⟩ := hfields proc
    rw [Option.map_some, Option.getD_some, Option.getD_some, htrace, hsummary, if_pos rfl]
    refine amount_traceInfoSummary (fun info hinfo => ?_) _ _
    rcases List.mem_append.mp hinfo with hinfo | hinfo
    · exact hloops info hinfo
    · rw [List.mem_singleton.mp hinfo, realtimeInfo_sumUp]
      exact Nat.le_refl n

/-- The rounds that the summaries have added, each as often as it was added. -/
def addSummary (h : (List (List Act) × List Act) × List (List Act)) (act : Act) :
    (List (List Act) × List Act) × List (List Act) :=
  (addToRound h.1 act,
    match act with
    | .analyze true => h.2 ++ (h.1.1 ++ [h.1.2])
    | _ => h.2)

def summaries (acts : List Act) : List (List Act) := (acts.foldl addSummary (([], []), [])).2

/-- What the summaries show. -/
structure Summed (env : Env) (h : (List (List Act) × List Act) × List (List Act)) (w : State) : Prop where
  books : Books env h.1 w
  loops : ∀ pid, ∀ info ∈ w.sysInfo.traceOf pid, info.loopCnt < w.loopCnt
  system : ∀ item, w.sysInfo.summaryInfo.amount item = (h.2.map (fun r => allPosted (roundPostings env r) item)).sum
  procs : ∀ pid item, (w.sysInfo.summaryOf pid).amount item =
    (h.2.map (fun r => posted (Account.isOf pid) (fun i => decide (i = item)) (roundPostings env r))).sum

/-- A call within a round leaves the traces and the summaries as they are. -/
theorem kept_within {w w' : State} {act : Act} (hact : ∀ b, act ≠ .analyze b) {h : List (List Act) × List Act}
    (hbooks : Books env h w) (hstep : step env w act = some w') :
    Kept w.sysInfo w'.sysInfo ∧ w'.loopCnt = w.loopCnt := by
  cases act with
  | spe data pages =>
    unfold step at hstep
    dsimp only at hstep
    split at hstep
    · cases hstep
      exact ⟨.refl, rfl⟩
    · obtain ⟨sysInfo, hsys, rfl⟩ := Option.map_eq_some_iff.mp hstep
      exact ⟨(hbooks.booked.spe hbooks.idle hsys).2.1, rfl⟩
  | netRx data =>
    obtain ⟨sysInfo, hsys, rfl⟩ := Option.map_eq_some_iff.mp hstep
    exact ⟨(hbooks.booked.netRx hbooks.idle hsys).2.1, rfl⟩
  | napi queues =>
    cases hstep
    exact ⟨.refl, rfl⟩
  | skb threads =>
    cases hstep
    exact ⟨.refl, rfl⟩
  | cycles data interval =>
    unfold step at hstep
    dsimp only at hstep
    split at hstep
    · cases hstep
      exact ⟨.refl, rfl⟩
    · cases hstep
      exact ⟨(Booked.cycles _ hbooks.booked hbooks.idle).2.1, rfl⟩
  | analyze b => exact absurd rfl (hact b)

theorem Summed.analyze {h : (List (List Act) × List Act) × List (List Act)} {w w' : State} {isSummary : Bool}
    (hs : Summed env h w) (hstep : Analysis.analyze env isSummary w = some w') :
    Summed env (addSummary h (.analyze isSummary)) w' := by
  have hbooks : Books env (addToRound h.1 (.analyze isSummary)) w' := hs.books.analyze hstep
  obtain ⟨sysInfo, -, hmatch, -, hsys, -, -, hloop, -, -⟩ := analyze_eq hstep
  obtain ⟨-, hkept, -⟩ := hs.books.matched_round hmatch
  have hold : ∀ pid, ∀ info ∈ sysInfo.traceOf pid, info.loopCnt < w.loopCnt := by
    intro pid
    rw [hkept.procs]
    exact hs.loops pid
  refine ⟨hbooks, fun pid info hinfo => ?_, fun item => ?_, fun pid item => ?_⟩
  · obtain ⟨close, hclose, hfields⟩ := find_closeRound env sysInfo w.loopCnt isSummary pid
    have hpid := hold pid
    unfold SystemInfo.traceOf at hpid hinfo
    rw [hsys, hclose] at hinfo
    rw [hloop]
    cases hproc : sysInfo.procs.find pid with
    | none =>
      rw [hproc] at hinfo
      cases hinfo
    | some proc =>
      rw [hproc, Option.map_some, Option.getD_some, (hfields proc).2.1] at hinfo
      rw [hproc] at hpid
      rcases List.mem_append.mp hinfo with hinfo | hinfo
      · exact Nat.lt_succ_of_lt (hpid info hinfo)
      · rw [List.mem_singleton.mp hinfo, realtimeInfo_sumUp]
        exact Nat.lt_succ_self _
  · cases isSummary with
    | false =>
      rw [hsys]
      exact (congrArg (·.amount item) hkept.summary).trans (hs.system item)
    | true =>
      have hloops : ∀ info ∈ w'.sysInfo.traceInfo, info.loopCnt ≤ w.loopCnt := by
        intro info hinfo
        have hmem := List.mem_map_of_mem (f := fun t : TaskInfo => t.loopCnt) hinfo
        rw [hbooks.loops, List.mem_range, ← hbooks.loopCnt, hloop] at hmem
        exact Nat.le_of_lt_succ hmem
      have hsummary : w'.sysInfo.summaryInfo =
          traceInfoSummary env w'.sysInfo.traceInfo sysInfo.summaryInfo 0 w.loopCnt := by
        rw [hsys]
        rfl
      have hamounts : w'.sysInfo.traceInfo.map (fun info => info.amount item) =
          (h.1.1 ++ [h.1.2]).map (fun r => allPosted (roundPostings env r) item) := by
        have hall := congrArg (List.map (fun f : Item → ℕ => f item)) hbooks.amounts
        rwa [List.map_map, List.map_map] at hall
      have hadd : (addSummary h (.analyze true)).2 = h.2 ++ (h.1.1 ++ [h.1.2]) := rfl
      rw [hsummary, amount_traceInfoSummary hloops, hkept.summary, hs.system, hamounts, hadd, ← List.sum_append,
        ← List.map_append]
  · cases isSummary with
    | false =>
      have hsame : (sysInfo.closeRound env w.loopCnt false).summaryOf pid = sysInfo.summaryOf pid := by
        obtain ⟨close, hclose, hfields⟩ := find_closeRound env sysInfo w.loopCnt false pid
        unfold SystemInfo.summaryOf
        rw [hclose]
        cases sysInfo.procs.find pid with
        | none => rfl
        | some proc => exact (hfields proc).2.2.1
      rw [hsys, hsame, hkept.summaries]
      exact hs.procs pid item
    | true =>
      have hadd : (addSummary h (.analyze true)).2 = h.2 ++ (addToRound h.1 (.analyze true)).1 := rfl
      rw [hsys, amount_summaryOf (fun info hinfo => Nat.le_of_lt (hold pid info hinfo)), ← hsys, hbooks.procs,
        hkept.summaries, hs.procs, hadd, ← List.sum_append, ← List.map_append]

theorem Summed.step {h : (List (List Act) × List Act) × List (List Act)} {w w' : State} {act : Act}
    (hs : Summed env h w) (hstep : Analysis.step env w act = some w') : Summed env (addSummary h act) w' := by
  by_cases hact : ∀ b, act ≠ .analyze b
  · obtain ⟨hkept, hloop⟩ := kept_within hact hs.books hstep
    have hnone : (addSummary h act).2 = h.2 := by
      cases act with
      | analyze b => exact absurd rfl (hact b)
      | _ => rfl
    refine ⟨hs.books.step hstep, fun pid => ?_, fun item => ?_, fun pid item => ?_⟩
    · rw [hkept.procs, hloop]
      exact hs.loops pid
    · rw [hkept.summary, hnone]
      exact hs.system item
    · rw [hkept.summaries, hnone]
      exact hs.procs pid item
  · obtain ⟨b, hb⟩ := not_forall.mp hact
    obtain rfl := not_not.mp hb
    exact hs.analyze hstep

theorem summed_run : ∀ {acts : List Act} {h : (List (List Act) × List Act) × List (List Act)} {w w' : State},
    Summed env h w → acts.foldlM (Analysis.step env) w = some w' → Summed env (acts.foldl addSummary h) w'
  | [], _, _, _, hs, hrun => by
    cases hrun
    exact hs
  | act :: acts, h, w, w', hs, hrun => by
    rw [List.foldlM_cons, Option.bind_eq_bind, Option.bind_eq_some_iff] at hrun
    obtain ⟨w1, h1, hrun⟩ := hrun
    rw [List.foldl_cons]
    exact summed_run (hs.step h1) hrun

end

/-- Two nodes with a CPU each. -/
def sampleEnv : Env := ⟨2, [0, 1], fun i j => if i = j then 10 else 20, 1000⟩

/-- One page is on the second node, the others are nowhere. -/
def samplePages : Pages := ⟨fun _ => true, fun _ va => if va = 7 then 1 else -1⟩

/-- A round with two threads, a far access and a matched packet, and two with cycles alone, which are summed up. -/
def sampleCalls : List Act :=
  [.cycles [⟨2000, 2001, 0, 30, 1, 0, 0⟩, ⟨2000, 2002, 1, 12, 1, 0, 0⟩, ⟨10, 10, 0, 99, 1, 0, 0⟩] 100,
    .spe [⟨2000, 2001, 0, 1, 1, 512, 7⟩, ⟨3000, 3000, 1, 1, 1, 512, 8⟩] samplePages,
    .napi [⟨5, 77, 1, str "eth0", 3⟩], .skb [⟨6, 0, 3000, 3000, 77⟩],
    .netRx [⟨0, 0, 1, 0, 4, 0, 0⟩], .analyze false, .cycles [⟨3000, 3001, 0, 8, 1, 0, 0⟩] 100, .analyze true,
    .cycles [⟨4000, 4001, 0, 5, 1, 0, 0⟩] 100, .analyze true]

/-- A round in which the CPUs have been busy, and packets have come in. -/
def busyCalls : List Act := [.cycles [⟨2000, 2001, 0, 100, 1, 0, 0⟩] 100, .netRx [⟨0, 0, 1, 0, 101, 0, 0⟩]]

end Analysis
end OeAware

import OeAware.Analysis.Instance
import OeAware.Schemes.Broker
import OeAware.Schemes.Loops
import OeAware.Schemes.Stints

/-! @src src/plugin/collect/pmu/pmu_counting_collector.cpp, pmu_sampling_collector.cpp | name:OpenTopic, CloseTopic, Run |
    scheme:stints

    Two collectors whose topics are events of the processor. Each topic that is open has a descriptor of its own; `Run`
    reads those of all open topics, one after another, and publishes what it has read with the milliseconds since the
    topic was last read or opened.

        OpenTopic ──▶ pmuId, timestamp ──▶ Run ──▶ (data, now - timestamp) ──▶ Run ──▶ ...  CloseTopic ──▶ -1

    An event that `topicStr` has twice is read and published twice. `CloseTopic` looks at the name of the topic only. -/

namespace OeAware
open Schemes

namespace PmuTopics
variable {δ : Type}

/-! ### State -/

inductive Collector where
  | counting
  | sampling
  deriving DecidableEq

def Collector.name : Collector → Str
  | .counting => str "pmu_counting_collector"
  | .sampling => str "pmu_sampling_collector"

/-- The events both kinds of processors have. -/
def commonStr : List Str :=
  [str "cycles", str "net:netif_rx", str "L1-dcache-load-misses", str "L1-dcache-loads", str "L1-icache-load-misses",
    str "L1-icache-loads", str "branch-load-misses", str "branch-loads", str "dTLB-load-misses", str "dTLB-loads",
    str "iTLB-load-misses", str "iTLB-loads", str "cache-references", str "cache-misses"]

/-- `topicStr`, which differs by what it is compiled for. -/
def topicStr (riscv : Bool) : Collector → List Str
  | .counting =>
    commonStr ++
      if riscv then
        [str "instructions", str "sched:sched_process_fork", str "sched:sched_process_exit", str "dTLB-loads",
          str "dTLB-load-misses", str "iTLB-loads", str "iTLB-load-misses"]
      else
        [str "l2d_tlb_refill", str "l2d_cache_refill", str "l1d_tlb_refill", str "l1d_cache_refill", str "l1d_tlb",
          str "l1i_tlb", str "l1i_tlb_refill", str "l2d_tlb", str "l2i_tlb", str "l2i_tlb_refill", str "inst_retired",
          str "instructions", str "sched:sched_process_fork", str "sched:sched_process_exit"]
  | .sampling => [str "cycles", str "skb:skb_copy_datagram_iovec", str "net:napi_gro_receive_entry"]

inductive SymbolMode where
  | NO_SYMBOL_RESOLVE
  | RESOLVE_ELF
  deriving DecidableEq

/-- `period` and `freq` share their place; `useFreq` says which it is. -/
inductive Rate where
  | period (n : ℕ)
  | freq (n : ℕ)
  deriving DecidableEq

structure PmuAttr where
  evtList : List Str
  rate : Rate
  symbolMode : SymbolMode
  deriving DecidableEq

inductive PmuTaskType where
  | COUNTING
  | SAMPLING
  deriving DecidableEq

/-- An open descriptor. -/
structure Pmu where
  task : PmuTaskType
  attr : PmuAttr
  enabled : Bool
  deriving DecidableEq

abbrev Kperf := ℤ → Option Pmu

structure TopicParam where
  isOpen : Bool
  pmuId : ℤ
  timestamp : ℤ

/-- What `PmuRead` returns and where it points to. -/
structure PmuRead (δ : Type) where
  len : ℤ
  pmuData : δ

/-- A list as it is published; it has one element. -/
structure Published (δ : Type) where
  topic : Topic
  data : PmuRead δ
  interval : UInt64

/-- The collectors, the descriptors and what has been published. `topicParams[name]` is there for every name. -/
structure World (δ : Type) where
  topicParams : Collector → Str → TopicParam
  kperf : Kperf
  published : List (Published δ)

/-- `PmuOpen` never returns a descriptor that is open. -/
inductive Fault where
  | notFresh

def World.init : World δ := ⟨fun _ _ => ⟨false, -1, 0⟩, fun _ => none, []⟩

/-! ### libkperf -/

def pmuOpen (pd : ℤ) (task : PmuTaskType) (attr : PmuAttr) (k : Kperf) : Except Fault Kperf :=
  if pd = -1 then .ok k
  else if (k pd).isSome then .error .notFresh
  else .ok (Function.update k pd (some ⟨task, attr, false⟩))

def pmuEnable (pd : ℤ) (k : Kperf) : Kperf := Function.update k pd ((k pd).map ({ · with enabled := true }))

def pmuDisable (pd : ℤ) (k : Kperf) : Kperf := Function.update k pd ((k pd).map ({ · with enabled := false }))

def pmuClose (pd : ℤ) (k : Kperf) : Kperf := Function.update k pd none

/-! ### The collectors -/

def NET_RECEIVE_TRACE_SAMPLE_PERIOD : ℕ := 10
def CYCLES_FREQ : ℕ := 100

def countingAttr (topicName : Str) : PmuAttr := ⟨[topicName], .period 10, .NO_SYMBOL_RESOLVE⟩

def samplingAttr (topicName : Str) : PmuAttr :=
  if topicName = str "cycles" then ⟨[topicName], .freq CYCLES_FREQ, .RESOLVE_ELF⟩
  else ⟨[topicName], .period NET_RECEIVE_TRACE_SAMPLE_PERIOD, .NO_SYMBOL_RESOLVE⟩

def openCounting (pd : ℤ) (topicName : Str) : Kperf → Except Fault Kperf :=
  pmuOpen pd .COUNTING (countingAttr topicName)

def openSampling (pd : ℤ) (topicName : Str) : Kperf → Except Fault Kperf :=
  pmuOpen pd .SAMPLING (samplingAttr topicName)

def Collector.openPmu : Collector → ℤ → Str → Kperf → Except Fault Kperf
  | .counting => openCounting
  | .sampling => openSampling

def World.setParam (w : World δ) (c : Collector) (name : Str) (p : TopicParam) : World δ :=
  { w with topicParams := Function.update w.topicParams c (Function.update (w.topicParams c) name p) }

/-- `OpenTopic`; `PmuOpen` returns `pd`, and the clock shows `now`. -/
def openTopic (riscv : Bool) (c : Collector) (topic : Topic) (pd now : ℤ) (w : World δ) :
    Except Fault (World δ × Result) :=
  if topic.instanceName ≠ c.name then
    .ok (w, failure (str "OpenTopic:" ++ topic.getType ++ str " failed, instanceName is not match"))
  else if topic.params ≠ [] then
    .ok (w, failure (str "OpenTopic:" ++ topic.getType ++ str " failed, params is not empty"))
  else if topic.topicName ∉ topicStr riscv c then
    .ok (w, failure (str "OpenTopic " ++ topic.getType ++ str "failed, no support topic!"))
  else
    let param := w.topicParams c topic.topicName
    if param.isOpen then .ok (w, resultOk)
    else
      (c.openPmu pd topic.topicName w.kperf).map (fun kperf =>
        if pd = -1 then
          (w.setParam c topic.topicName { param with pmuId := pd }, failure (str "OpenTopic failed, PmuOpen failed"))
        else
          ({ w.setParam c topic.topicName ⟨true, pd, now⟩ with kperf := pmuEnable pd kperf }, resultOk))

def closeTopic (c : Collector) (topic : Topic) (w : World δ) : World δ :=
  let param := w.topicParams c topic.topicName
  if param.isOpen then
    { w.setParam c topic.topicName { param with isOpen := false, pmuId := -1 } with
      kperf := pmuClose param.pmuId (pmuDisable param.pmuId w.kperf) }
  else w

/-- `duration_cast<milliseconds>(now - timestamp).count()`, as it is stored. -/
def interval (timestamp now : ℤ) : UInt64 := UInt64.ofInt ((now - timestamp).tdiv 1000000)

/-- What a `Run` reads at each place of `topicStr`: the time, and the descriptor. -/
structure Readings (δ : Type) where
  now : ℕ → ℤ
  pmuRead : ℕ → PmuRead δ

/-- The loop of `Run`, at one place of `topicStr`. -/
def runTopic (c : Collector) (r : Readings δ) (w : World δ) (place : Str × ℕ) : World δ :=
  let param := w.topicParams c place.1
  if param.isOpen then
    { w.setParam c place.1 { param with timestamp := r.now place.2 } with
      kperf := pmuEnable param.pmuId (pmuDisable param.pmuId w.kperf)
      published := w.published ++
        [⟨⟨c.name, place.1, []⟩, r.pmuRead place.2, interval param.timestamp (r.now place.2)⟩] }
  else w

def run (riscv : Bool) (c : Collector) (r : Readings δ) (w : World δ) : World δ :=
  (topicStr riscv c).zipIdx.foldl (runTopic c r) w

/-! ### Runs -/

inductive Act (δ : Type) where
  | openTopic (c : Collector) (topic : Topic) (pd now : ℤ)
  | closeTopic (c : Collector) (topic : Topic)
  | run (c : Collector) (r : Readings δ)

def step (riscv : Bool) (w : World δ) : Act δ → Except Fault (World δ)
  | .openTopic c topic pd now => (openTopic riscv c topic pd now w).map Prod.fst
  | .closeTopic c topic => .ok (closeTopic c topic w)
  | .run c r => .ok (run riscv c r w)

abbrev Event (δ : Type) := StintEvent Collector Str ℤ (Readings δ)

/-- What a step is to the topics: that `OpenTopic` has returned `OK`, that `CloseTopic` was called, that all were read. -/
def events (riscv : Bool) (w : World δ) : Act δ → List (Event δ)
  | .openTopic c topic pd now =>
    match openTopic riscv c topic pd now w with
    | .ok (_, result) => if result.failed then [] else [.opened c topic.topicName now]
    | .error _ => []
  | .closeTopic c topic => [.closed c topic.topicName]
  | .run c r => [.worked c r]

/-! ### What should hold -/

/-- What is read of a topic at some places of `topicStr`. -/
def readAt (r : Readings δ) (name : Str) (places : List (Str × ℕ)) : List (ℤ × PmuRead δ) :=
  (places.filter (fun place => place.1 = name)).map (fun place => (r.now place.2, r.pmuRead place.2))

/-- What a `Run` reads of a topic. -/
def readingsOf (riscv : Bool) (c : Collector) (name : Str) (r : Readings δ) : List (ℤ × PmuRead δ) :=
  readAt r name (topicStr riscv c).zipIdx

/-- What is read in a stint. -/
def readingsIn (riscv : Bool) (c : Collector) (name : Str) (s : Stint ℤ (Readings δ)) : List (ℤ × PmuRead δ) :=
  s.works.flatMap (readingsOf riscv c name)

/-- A reading as it is published, after another. -/
def publication (c : Collector) (name : Str) (lap : ℤ × ℤ × PmuRead δ) : Published δ :=
  ⟨⟨c.name, name, []⟩, lap.2.2, interval lap.1 lap.2.1⟩

/-- What is published of a stint. -/
def listsOf (riscv : Bool) (c : Collector) (name : Str) (s : Stint ℤ (Readings δ)) : List (Published δ) :=
  (laps s.start (readingsIn riscv c name s)).map (publication c name)

/-- The descriptor of a topic. -/
def descriptor : Collector → Str → Pmu
  | .counting, name => ⟨.COUNTING, countingAttr name, true⟩
  | .sampling, name => ⟨.SAMPLING, samplingAttr name, true⟩

/-- The clock does not go back in a stint. -/
def Steady (riscv : Bool) (c : Collector) (name : Str) (s : Stint ℤ (Readings δ)) : Prop :=
  ∀ lap ∈ laps s.start (readingsIn riscv c name s), lap.1 ≤ lap.2.1 ∧ lap.2.1 - lap.1 < 2 ^ 63

/-- The milliseconds that are published of a stint. -/
def milliseconds (riscv : Bool) (c : Collector) (name : Str) (s : Stint ℤ (Readings δ)) : ℤ :=
  ((listsOf riscv c name s).map (fun p => (p.interval.toNat : ℤ))).sum

/-- How long a stint has been read, in nanoseconds. -/
def duration (riscv : Bool) (c : Collector) (name : Str) (s : Stint ℤ (Readings δ)) : ℤ :=
  lastLap s.start (readingsIn riscv c name s) - s.start

/-- The lists published under a topic. -/
def World.listsOf (w : World δ) (c : Collector) (name : Str) : List (Published δ) :=
  w.published.filter (fun p => p.topic = ⟨c.name, name, []⟩)

section
variable {riscv : Bool} {c c' : Collector} {name name' : Str} {w w' : World δ} {k k' : Kperf} {pd : ℤ}

theorem topic_inj : ((⟨c.name, name, []⟩ : Topic) = ⟨c'.name, name', []⟩) ↔ c = c' ∧ name = name' := by
  have hname : c.name = c'.name ↔ c = c' := by cases c <;> cases c' <;> decide
  simp [hname]

theorem descriptor_inj (h : descriptor c name = descriptor c' name') : c = c' ∧ name = name' := by
  have hattr : (descriptor c name).attr.evtList = (descriptor c' name').attr.evtList := by rw [h]
  have htask : (descriptor c name).task = (descriptor c' name').task := by rw [h]
  have hnames : ∀ c name, (descriptor c name).attr.evtList = [name] := by
    intro c name
    cases c with
    | counting => rfl
    | sampling =>
      rw [descriptor, samplingAttr]
      split <;> rfl
  rw [hnames, hnames, List.singleton_inj] at hattr
  refine ⟨?_, hattr⟩
  cases c <;> cases c' <;> first | rfl | cases htask

@[simp] theorem enabled_descriptor : (descriptor c name).enabled = true := by cases c <;> rfl

/-! ### Descriptors -/

/-- What an `OpenTopic` gets from `PmuOpen`. -/
theorem openPmu_cases (h : c.openPmu pd name k = .ok k') :
    (pd = -1 ∧ k' = k) ∨
      (pd ≠ -1 ∧ k pd = none ∧ pmuEnable pd k' = Function.update k pd (some (descriptor c name))) := by
  have hopen : ∀ task attr, pmuOpen pd task attr k = .ok k' → (pd = -1 ∧ k' = k) ∨
      (pd ≠ -1 ∧ k pd = none ∧ pmuEnable pd k' = Function.update k pd (some ⟨task, attr, true⟩)) := by
    intro task attr h
    rw [pmuOpen] at h
    split at h
    · rename_i hpd
      cases h
      exact Or.inl ⟨hpd, rfl⟩
    · rename_i hpd
      split at h
      · cases h
      · rename_i hfresh
        cases h
        exact Or.inr ⟨hpd, Option.not_isSome_iff_eq_none.mp hfresh, by simp [pmuEnable]⟩
  cases c with
  | counting => exact hopen .COUNTING (countingAttr name) h
  | sampling => exact hopen .SAMPLING (samplingAttr name) h

theorem pmuClose_pmuDisable : pmuClose pd (pmuDisable pd k) = Function.update k pd none := by
  simp [pmuClose, pmuDisable]

theorem pmuEnable_pmuDisable {p : Pmu} (h : k pd = some p) (hen : p.enabled = true) :
    pmuEnable pd (pmuDisable pd k) = k := by
  funext pd'
  rcases eq_or_ne pd' pd with rfl | hne
  · cases p
    simp_all [pmuEnable, pmuDisable]
  · simp [pmuEnable, pmuDisable, hne]

theorem topicParams_setParam (p : TopicParam) : (w.setParam c name p).topicParams c' name' =
    if c' = c ∧ name' = name then p else w.topicParams c' name' := by
  rcases eq_or_ne c' c with rfl | hc
  · rcases eq_or_ne name' name with rfl | hname
    · simp [World.setParam]
    · simp [World.setParam, hname]
  · simp [World.setParam, hc]

/-! ### What holds -/

/-- The topics are as their history says. -/
structure Held (riscv : Bool) (log : List (Event δ)) (w : World δ) : Prop where
  isOpen : ∀ c name, (w.topicParams c name).isOpen = (stints c name log).current.isSome
  opened : ∀ c name s, (stints c name log).current = some s → name ∈ topicStr riscv c ∧
    w.kperf (w.topicParams c name).pmuId = some (descriptor c name) ∧
    (w.topicParams c name).timestamp = lastLap s.start (readingsIn riscv c name s)
  owned : ∀ pd p, w.kperf pd = some p →
    ∃ c name, (w.topicParams c name).isOpen = true ∧ (w.topicParams c name).pmuId = pd
  lists : ∀ c name, w.listsOf c name = (stints c name log).all.flatMap (listsOf riscv c name)

variable {log : List (Event δ)}

theorem held_init : Held riscv [] (World.init : World δ) where
  isOpen _ _ := rfl
  opened c name s hs := by cases hs
  owned pd p hp := by cases hp
  lists _ _ := rfl

theorem Held.kperf (h : Held riscv log w) (hopen : (w.topicParams c name).isOpen = true) :
    w.kperf (w.topicParams c name).pmuId = some (descriptor c name) := by
  rw [h.isOpen] at hopen
  obtain ⟨s, hs⟩ := Option.isSome_iff_exists.mp hopen
  exact (h.opened c name s hs).2.1

/-! ### Opening -/

theorem Held.refused (h : Held riscv log w) (hclosed : (w.topicParams c name).isOpen = false) (pd : ℤ) :
    Held riscv log (w.setParam c name { w.topicParams c name with pmuId := pd }) := by
  have hparam : ∀ c' name',
      ((w.setParam c name { w.topicParams c name with pmuId := pd }).topicParams c' name').isOpen =
        (w.topicParams c' name').isOpen ∧
      ((w.topicParams c' name').isOpen = true →
        (w.setParam c name { w.topicParams c name with pmuId := pd }).topicParams c' name' = w.topicParams c' name') := by
    intro c' name'
    rw [topicParams_setParam]
    split
    · rename_i heq
      obtain ⟨rfl, rfl⟩ := heq
      exact ⟨rfl, fun hopen => absurd (hclosed.symm.trans hopen) Bool.false_ne_true⟩
    · exact ⟨rfl, fun _ => rfl⟩
  refine ⟨fun c' name' => ?_, fun c' name' s hs => ?_, fun pd' p hp => ?_, h.lists⟩
  · rw [(hparam c' name').1]
    exact h.isOpen c' name'
  · have hopen : (w.topicParams c' name').isOpen = true := by rw [h.isOpen, hs]; rfl
    rw [(hparam c' name').2 hopen]
    exact h.opened c' name' s hs
  · obtain ⟨c', name', hopen, hpd⟩ := h.owned pd' p hp
    refine ⟨c', name', (hparam c' name').1.trans hopen, ?_⟩
    rw [(hparam c' name').2 hopen]
    exact hpd

/-- An event that changes no stint. -/
theorem Held.congr {log' : List (Event δ)} (h : Held riscv log w)
    (hsame : ∀ c name, (stints c name log').current = (stints c name log).current ∧
      (stints c name log').all = (stints c name log).all) : Held riscv log' w where
  isOpen c name := by rw [(hsame c name).1, h.isOpen]
  opened c name s hs := h.opened c name s ((hsame c name).1 ▸ hs)
  owned := h.owned
  lists c name := by rw [(hsame c name).2, h.lists]

theorem Held.opens {now : ℤ} (h : Held riscv log w) (hname : name ∈ topicStr riscv c)
    (hclosed : (w.topicParams c name).isOpen = false) (hfresh : w.kperf pd = none) :
    Held riscv (.opened c name now :: log)
      { w.setParam c name ⟨true, pd, now⟩ with kperf := Function.update w.kperf pd (some (descriptor c name)) } := by
  have hnone : (stints c name log).current = none := by
    rw [h.isOpen] at hclosed
    simpa using hclosed
  have hstint : ∀ c' name', stints c' name' (.opened c name now :: log) =
      if c = c' ∧ name = name' then ⟨(stints c name log).past, some ⟨now, []⟩⟩ else stints c' name' log := by
    intro c' name'
    rw [stints]
    split
    · rename_i heq
      obtain ⟨rfl, rfl⟩ := heq
      exact Stints.openAt_none hnone
    · rfl
  have hother : ∀ c' name', (w.topicParams c' name').isOpen = true → ¬ (c' = c ∧ name' = name) := by
    rintro c' name' hopen ⟨rfl, rfl⟩
    exact Bool.false_ne_true (hclosed.symm.trans hopen)
  refine ⟨fun c' name' => ?_, fun c' name' s hs => ?_, fun pd' p hp => ?_, fun c' name' => ?_⟩
  · dsimp only
    rw [topicParams_setParam, hstint]
    simp only [eq_comm (a := c'), eq_comm (a := name')]
    split
    · rfl
    · exact h.isOpen c' name'
  · rw [hstint] at hs
    dsimp only
    rw [topicParams_setParam]
    simp only [eq_comm (a := c'), eq_comm (a := name')]
    split at hs
    · rename_i heq
      obtain ⟨rfl, rfl⟩ := heq
      cases hs
      simp [hname, readingsIn]
    · rename_i hne
      obtain ⟨hmem, hk, hts⟩ := h.opened c' name' s hs
      have hpd : (w.topicParams c' name').pmuId ≠ pd := by
        rintro rfl
        rw [hfresh] at hk
        cases hk
      rw [if_neg hne, Function.update_of_ne hpd]
      exact ⟨hmem, hk, hts⟩
  · rcases eq_or_ne pd' pd with rfl | hne
    · refine ⟨c, name, ?_, ?_⟩ <;> simp [topicParams_setParam]
    · dsimp only at hp
      rw [Function.update_of_ne hne] at hp
      obtain ⟨c', name', hopen, hpd⟩ := h.owned pd' p hp
      refine ⟨c', name', ?_, ?_⟩ <;> dsimp only <;> rw [topicParams_setParam, if_neg (hother c' name' hopen)]
      · exact hopen
      · exact hpd
  · have hlists := h.lists c' name'
    rw [hstint]
    split
    · rename_i heq
      obtain ⟨rfl, rfl⟩ := heq
      have hall : (stints c name log).all = (stints c name log).past := by simp [Stints.all, hnone]
      rw [hall] at hlists
      refine hlists.trans ?_
      simp [Stints.all, PmuTopics.listsOf, readingsIn]
    · exact hlists

/-- THE CALL: what becomes of an `OpenTopic`. -/
theorem openTopic_cases {topic : Topic} {pd now : ℤ} {result : Result}
    (h : openTopic riscv c topic pd now w = .ok (w', result)) :
    (w' = w ∧ result.failed = true) ∨
      (w' = w ∧ result = resultOk ∧ (w.topicParams c topic.topicName).isOpen = true) ∨
      ((w.topicParams c topic.topicName).isOpen = false ∧ result.failed = true ∧
        w' = w.setParam c topic.topicName { w.topicParams c topic.topicName with pmuId := pd }) ∨
      ((w.topicParams c topic.topicName).isOpen = false ∧ result = resultOk ∧
        topic.topicName ∈ topicStr riscv c ∧ w.kperf pd = none ∧
        w' = { w.setParam c topic.topicName ⟨true, pd, now⟩ with
          kperf := Function.update w.kperf pd (some (descriptor c topic.topicName)) }) := by
  rw [openTopic] at h
  split at h
  · cases h
    exact Or.inl ⟨rfl, rfl⟩
  split at h
  · cases h
    exact Or.inl ⟨rfl, rfl⟩
  split at h
  · cases h
    exact Or.inl ⟨rfl, rfl⟩
  rename_i hname
  dsimp only at h
  split at h
  · rename_i hopen
    cases h
    exact Or.inr (Or.inl ⟨rfl, rfl, hopen⟩)
  rename_i hclosed
  rw [Bool.not_eq_true] at hclosed
  obtain ⟨kperf, hkperf, hw⟩ := map_ok h
  rcases openPmu_cases hkperf with ⟨hpd, rfl⟩ | ⟨hpd, hfresh, hk⟩
  · rw [if_pos hpd] at hw
    cases hw
    exact Or.inr (Or.inr (Or.inl ⟨hclosed, rfl, rfl⟩))
  · rw [if_neg hpd, hk] at hw
    cases hw
    exact Or.inr (Or.inr (Or.inr ⟨hclosed, rfl, not_not.mp hname, hfresh, rfl⟩))

theorem events_openTopic {topic : Topic} {pd now : ℤ} {result : Result}
    (h : openTopic riscv c topic pd now w = .ok (w', result)) :
    events riscv w (.openTopic c topic pd now) = if result.failed then [] else [.opened c topic.topicName now] := by
  rw [events, h]

theorem Held.openTopic {topic : Topic} {pd now : ℤ} (h : Held riscv log w)
    (hs : step riscv w (.openTopic c topic pd now) = .ok w') :
    Held riscv (events riscv w (.openTopic c topic pd now) ++ log) w' := by
  obtain ⟨⟨w1, result⟩, hcall, rfl⟩ := map_ok hs
  rw [events_openTopic hcall]
  rcases openTopic_cases hcall with ⟨rfl, hfail⟩ | ⟨rfl, rfl, hopen⟩ | ⟨hclosed, hfail, rfl⟩ |
    ⟨hclosed, rfl, hname, hfresh, rfl⟩
  · rw [if_pos hfail]
    exact h
  · -- an open topic is opened again
    rw [h.isOpen] at hopen
    obtain ⟨s, hs⟩ := Option.isSome_iff_exists.mp hopen
    have hsame : ∀ c' name', stints c' name' (.opened c topic.topicName now :: log) = stints c' name' log := by
      intro c' name'
      rw [stints]
      split
      · rename_i heq
        obtain ⟨rfl, rfl⟩ := heq
        exact Stints.openAt_some hs
      · rfl
    exact h.congr fun c' name' => ⟨congrArg _ (hsame c' name'), congrArg _ (hsame c' name')⟩
  · rw [if_pos hfail]
    exact h.refused hclosed pd
  · exact h.opens hname hclosed hfresh

/-! ### Closing -/

theorem stints_closed (c' : Collector) (name' : Str) :
    (stints c' name' (.closed c name :: log)).current =
      (if c = c' ∧ name = name' then none else (stints c' name' log).current) ∧
    (stints c' name' (.closed c name :: log)).all = (stints c' name' log).all := by
  rw [stints]
  split <;> simp

theorem Held.closeTopic {topic : Topic} (h : Held riscv log w) :
    Held riscv (.closed c topic.topicName :: log) (PmuTopics.closeTopic c topic w) := by
  rw [PmuTopics.closeTopic]
  dsimp only
  split
  · rename_i hopen
    rw [pmuClose_pmuDisable]
    have hk := h.kperf hopen
    -- another open topic has another descriptor
    have hother : ∀ c' name', (w.topicParams c' name').isOpen = true → ¬ (c = c' ∧ topic.topicName = name') →
        (w.topicParams c' name').pmuId ≠ (w.topicParams c topic.topicName).pmuId := by
      intro c' name' hopen' hne heq
      have hk' := h.kperf hopen'
      rw [heq, hk] at hk'
      exact hne (descriptor_inj (Option.some.inj hk'))
    refine ⟨fun c' name' => ?_, fun c' name' s hs => ?_, fun pd p hp => ?_, fun c' name' => ?_⟩
    · dsimp only
      rw [topicParams_setParam, (stints_closed c' name').1]
      simp only [eq_comm (a := c'), eq_comm (a := name')]
      split
      · rfl
      · exact h.isOpen c' name'
    · rw [(stints_closed c' name').1] at hs
      split at hs
      · cases hs
      · rename_i hne
        obtain ⟨hmem, hkperf, hts⟩ := h.opened c' name' s hs
        have hopen' : (w.topicParams c' name').isOpen = true := by rw [h.isOpen, hs]; rfl
        dsimp only
        rw [topicParams_setParam, if_neg fun heq => hne ⟨heq.1.symm, heq.2.symm⟩,
          Function.update_of_ne (hother c' name' hopen' hne)]
        exact ⟨hmem, hkperf, hts⟩
    · dsimp only at hp
      rcases eq_or_ne pd (w.topicParams c topic.topicName).pmuId with rfl | hne
      · rw [Function.update_self] at hp
        cases hp
      · rw [Function.update_of_ne hne] at hp
        obtain ⟨c', name', hopen', hpd⟩ := h.owned pd p hp
        have hdiff : ¬ (c' = c ∧ name' = topic.topicName) := by
          rintro ⟨rfl, rfl⟩
          exact hne hpd.symm
        refine ⟨c', name', ?_, ?_⟩ <;> dsimp only <;> rw [topicParams_setParam, if_neg hdiff]
        · exact hopen'
        · exact hpd
    · rw [(stints_closed c' name').2]
      exact h.lists c' name'
  · rename_i hclosed
    refine h.congr fun c' name' => ⟨?_, (stints_closed c' name').2⟩
    rw [(stints_closed c' name').1]
    split
    · rename_i heq
      obtain ⟨rfl, rfl⟩ := heq
      rw [h.isOpen] at hclosed
      exact (Option.not_isSome_iff_eq_none.mp hclosed).symm
    · rfl

/-! ### Reading -/

/-- The topics after `vs` have been read of each that is open. -/
structure Reads (c : Collector) (vs : Str → List (ℤ × PmuRead δ)) (w w' : World δ) : Prop where
  kperf : w'.kperf = w.kperf
  isOpen : ∀ c' name, (w'.topicParams c' name).isOpen = (w.topicParams c' name).isOpen
  pmuId : ∀ c' name, (w'.topicParams c' name).pmuId = (w.topicParams c' name).pmuId
  timestamp : ∀ c' name, (w'.topicParams c' name).timestamp =
    if c' = c ∧ (w.topicParams c' name).isOpen = true then lastLap (w.topicParams c' name).timestamp (vs name)
    else (w.topicParams c' name).timestamp
  lists : ∀ c' name, w'.listsOf c' name = w.listsOf c' name ++
    if c' = c ∧ (w.topicParams c' name).isOpen = true then
      (laps (w.topicParams c' name).timestamp (vs name)).map (publication c' name)
    else []

theorem readAt_single {r : Readings δ} (place : Str × ℕ) : readAt r name' [place] =
    if place.1 = name' then [(r.now place.2, r.pmuRead place.2)] else [] := by
  rw [readAt, List.filter_singleton]
  by_cases h : place.1 = name' <;> simp [h]

theorem listsOf_publish {lap : ℤ × ℤ × PmuRead δ} (hw : w'.published = w.published ++ [publication c name lap]) :
    w'.listsOf c' name' = w.listsOf c' name' ++ if c = c' ∧ name = name' then [publication c name lap] else [] := by
  rw [World.listsOf, hw, List.filter_append, List.filter_singleton, World.listsOf]
  by_cases h : c = c' ∧ name = name'
  · simp [h, publication]
  · have htopic : ¬ (publication c name lap).topic = ⟨c'.name, name', []⟩ := fun heq => h (topic_inj.mp heq)
    simp [h, htopic]

theorem reads_runTopic (r : Readings δ) (place : Str × ℕ)
    (hk : ∀ name, (w.topicParams c name).isOpen = true →
      w.kperf (w.topicParams c name).pmuId = some (descriptor c name)) :
    Reads c (fun name => readAt r name [place]) w (runTopic c r w place) := by
  obtain ⟨name, i⟩ := place
  rw [runTopic]
  dsimp only
  simp only [readAt_single]
  split
  · rename_i hopen
    have hpub : ({ w.setParam c name { w.topicParams c name with timestamp := r.now i } with
        kperf := pmuEnable (w.topicParams c name).pmuId (pmuDisable (w.topicParams c name).pmuId w.kperf)
        published := w.published ++ [⟨⟨c.name, name, []⟩, r.pmuRead i,
          interval (w.topicParams c name).timestamp (r.now i)⟩] } : World δ).published =
        w.published ++ [publication c name ((w.topicParams c name).timestamp, r.now i, r.pmuRead i)] := rfl
    refine ⟨pmuEnable_pmuDisable (hk name hopen) enabled_descriptor, fun c' name' => ?_, fun c' name' => ?_,
      fun c' name' => ?_, fun c' name' => ?_⟩
    · dsimp only
      rw [topicParams_setParam]
      split
      · rename_i heq
        obtain ⟨rfl, rfl⟩ := heq
        rfl
      · rfl
    · dsimp only
      rw [topicParams_setParam]
      split
      · rename_i heq
        obtain ⟨rfl, rfl⟩ := heq
        rfl
      · rfl
    · dsimp only
      rw [topicParams_setParam]
      by_cases heq : c' = c ∧ name' = name
      · obtain ⟨rfl, rfl⟩ := heq
        simp [hopen, lastLap]
      · rw [if_neg heq]
        split
        · rename_i hread
          rw [if_neg fun hname => heq ⟨hread.1, hname.symm⟩, lastLap_nil]
        · rfl
    · rw [listsOf_publish hpub]
      by_cases heq : c = c' ∧ name = name'
      · obtain ⟨rfl, rfl⟩ := heq
        simp [hopen, laps]
      · rw [if_neg heq]
        split
        · rename_i hread
          rw [if_neg fun hname => heq ⟨hread.1.symm, hname⟩]
          rfl
        · rfl
  · rename_i hclosed
    refine ⟨rfl, fun _ _ => rfl, fun _ _ => rfl, fun c' name' => ?_, fun c' name' => ?_⟩
    · split
      · rename_i hread
        obtain ⟨rfl, hopen⟩ := hread
        have hname : ¬ name = name' := by
          rintro rfl
          exact hclosed hopen
        rw [if_neg hname, lastLap_nil]
      · rfl
    · split
      · rename_i hread
        obtain ⟨rfl, hopen⟩ := hread
        have hname : ¬ name = name' := by
          rintro rfl
          exact hclosed hopen
        simp [hname]
      · simp

theorem reads_foldl (c : Collector) (r : Readings δ) (places : List (Str × ℕ))
    (hk : ∀ name, (w.topicParams c name).isOpen = true →
      w.kperf (w.topicParams c name).pmuId = some (descriptor c name)) :
    Reads c (fun name => readAt r name places) w (places.foldl (runTopic c r) w) := by
  induction places generalizing w with
  | nil =>
    refine ⟨rfl, fun _ _ => rfl, fun _ _ => rfl, fun c' name' => ?_, fun c' name' => ?_⟩
    · simp [readAt]
    · simp [readAt]
  | cons place places ih =>
    have hone := reads_runTopic r place hk
    have hnext : ∀ name, ((runTopic c r w place).topicParams c name).isOpen = true →
        (runTopic c r w place).kperf ((runTopic c r w place).topicParams c name).pmuId = some (descriptor c name) := by
      intro name hopen
      rw [hone.isOpen] at hopen
      rw [hone.kperf, hone.pmuId]
      exact hk name hopen
    have hall := ih hnext
    have hsplit : ∀ name, readAt r name (place :: places) = readAt r name [place] ++ readAt r name places := by
      intro name
      rw [← List.singleton_append, readAt, List.filter_append, List.map_append]
      rfl
    refine ⟨hall.kperf.trans hone.kperf, fun c' name' => ?_, fun c' name' => ?_, fun c' name' => ?_, fun c' name' => ?_⟩
    · exact (hall.isOpen c' name').trans (hone.isOpen c' name')
    · exact (hall.pmuId c' name').trans (hone.pmuId c' name')
    · rw [List.foldl_cons, hall.timestamp, hone.isOpen, hone.timestamp, hsplit]
      split
      · rw [lastLap_append]
      · rfl
    · rw [List.foldl_cons, hall.lists, hone.isOpen, hone.lists, hone.timestamp, hsplit]
      split
      · rw [laps_append, List.map_append, List.append_assoc]
      · simp

theorem stints_worked {r : Readings δ} (c' : Collector) (name' : Str) :
    stints c' name' (.worked c r :: log) =
      if c' = c then (stints c' name' log).work r else stints c' name' log := by
  rw [stints]
  simp only [eq_comm (a := c)]

theorem readingsIn_work (t : Stint ℤ (Readings δ)) (r : Readings δ) :
    readingsIn riscv c name ⟨t.start, t.works ++ [r]⟩ = readingsIn riscv c name t ++ readingsOf riscv c name r := by
  simp [readingsIn]

theorem Held.run {r : Readings δ} (h : Held riscv log w) :
    Held riscv (.worked c r :: log) (PmuTopics.run riscv c r w) := by
  have hreads := reads_foldl c r (topicStr riscv c).zipIdx fun name hopen => h.kperf hopen
  refine ⟨fun c' name' => ?_, fun c' name' s hs => ?_, fun pd p hp => ?_, fun c' name' => ?_⟩
  · rw [PmuTopics.run, hreads.isOpen, h.isOpen, stints_worked]
    split
    · simp
    · rfl
  · rw [stints_worked] at hs
    rw [PmuTopics.run, hreads.kperf, hreads.pmuId, hreads.timestamp, h.isOpen]
    split at hs
    · rename_i hc
      obtain ⟨t, ht, rfl⟩ := Option.map_eq_some_iff.mp hs
      obtain ⟨hmem, hk, hts⟩ := h.opened c' name' t ht
      refine ⟨hmem, hk, ?_⟩
      rw [if_pos ⟨hc, by rw [ht]; rfl⟩, hts, readingsIn_work, lastLap_append, hc]
      rfl
    · rename_i hc
      rw [if_neg fun hread => hc hread.1]
      exact h.opened c' name' s hs
  · rw [PmuTopics.run, hreads.kperf] at hp
    obtain ⟨c', name', hopen, hpd⟩ := h.owned pd p hp
    exact ⟨c', name', (hreads.isOpen c' name').trans hopen, (hreads.pmuId c' name').trans hpd⟩
  · rw [PmuTopics.run, hreads.lists, h.isOpen, h.lists, stints_worked]
    by_cases hc : c' = c
    · subst hc
      cases hcur : (stints c' name' log).current with
      | none => simp [Stints.all, Stints.work, hcur]
      | some t =>
        obtain ⟨-, -, hts⟩ := h.opened c' name' t hcur
        have hmore : PmuTopics.listsOf riscv c' name' ⟨t.start, t.works ++ [r]⟩ = PmuTopics.listsOf riscv c' name' t ++
            (laps (w.topicParams c' name').timestamp (readAt r name' (topicStr riscv c').zipIdx)).map
              (publication c' name') := by
          rw [PmuTopics.listsOf, readingsIn_work, laps_append, List.map_append, hts]
          rfl
        simp [Stints.all, hcur, hmore]
    · rw [if_neg fun hread => hc hread.1, if_neg hc, List.append_nil]

/-- THE STEP: each call keeps the topics as their history says. -/
theorem Held.step {act : Act δ} (h : Held riscv log w) (hs : PmuTopics.step riscv w act = .ok w') :
    Held riscv (events riscv w act ++ log) w' := by
  cases act with
  | openTopic c topic pd now => exact h.openTopic hs
  | closeTopic c topic =>
    cases hs
    exact h.closeTopic
  | run c r =>
    cases hs
    exact h.run

/-- THE RUN: in whatever order the calls come. -/
theorem held_of_recorded (h : Recorded (PmuTopics.step riscv) World.init (events riscv) log w) : Held riscv log w := by
  induction h with
  | start => exact held_init
  | next _ hs ih => exact ih.step hs

/-! ### The time -/

theorem toNat_interval {a b : ℤ} (hle : a ≤ b) (hlt : b - a < 2 ^ 63) :
    ((interval a b).toNat : ℤ) = (b - a) / 1000000 := by
  have hnonneg : 0 ≤ (b - a) / 1000000 := by omega
  have hsmall : (b - a) / 1000000 < 2 ^ 64 := by omega
  rw [interval, Int.tdiv_eq_ediv_of_nonneg (by omega), UInt64.ofInt, UInt64.toNat_ofNat',
    Int.emod_eq_of_lt hnonneg hsmall, Nat.mod_eq_of_lt (by omega), Int.toNat_of_nonneg hnonneg]

theorem milliseconds_eq {s : Stint ℤ (Readings δ)} (h : Steady riscv c name s) :
    milliseconds riscv c name s = wholeLaps 1000000 s.start (readingsIn riscv c name s) := by
  rw [milliseconds, PmuTopics.listsOf, List.map_map, wholeLaps]
  refine congrArg List.sum (List.map_congr_left fun lap hlap => ?_)
  obtain ⟨hle, hlt⟩ := h lap hlap
  exact toNat_interval hle hlt

/-- BY HISTORY: a topic is open if its last accepted `OpenTopic` has not been followed by a `CloseTopic`; the descriptors are
    those of the open topics, one each and enabled; what is published under a topic is what was read in its stints, each
    reading with the time since the one before; and these times add up to the stints, less a millisecond a reading. -/
theorem topics_by_history (h : Recorded (PmuTopics.step riscv) World.init (events riscv) log w) :
    (∀ c name, (w.topicParams c name).isOpen = (stints c name log).current.isSome) ∧
    (∀ c name, (w.topicParams c name).isOpen = true → name ∈ topicStr riscv c ∧
      ∀ pd, w.kperf pd = some (descriptor c name) ↔ pd = (w.topicParams c name).pmuId) ∧
    (∀ pd p, w.kperf pd = some p → ∃ c name, (w.topicParams c name).isOpen = true ∧ p = descriptor c name) ∧
    (∀ c name, w.listsOf c name = (stints c name log).all.flatMap (listsOf riscv c name)) ∧
    ∀ c name, ∀ s ∈ (stints c name log).all, Steady riscv c name s →
      milliseconds riscv c name s * 1000000 ≤ duration riscv c name s ∧ duration riscv c name s ≤
        milliseconds riscv c name s * 1000000 + (listsOf riscv c name s).length * (1000000 - 1) := by
  have hheld := held_of_recorded h
  have howned : ∀ pd p, w.kperf pd = some p →
      ∃ c name, (w.topicParams c name).isOpen = true ∧ (w.topicParams c name).pmuId = pd ∧ p = descriptor c name := by
    intro pd p hp
    obtain ⟨c, name, hopen, rfl⟩ := hheld.owned pd p hp
    rw [hheld.kperf hopen] at hp
    exact ⟨c, name, hopen, rfl, (Option.some.inj hp).symm⟩
  refine ⟨hheld.isOpen, fun c name hopen => ⟨?_, fun pd => ⟨fun hpd => ?_, ?_⟩⟩, fun pd p hp => ?_, hheld.lists,
    fun c name s _ hsteady => ?_⟩
  · have hsome := hopen
    rw [hheld.isOpen] at hsome
    obtain ⟨s, hs⟩ := Option.isSome_iff_exists.mp hsome
    exact (hheld.opened c name s hs).1
  · obtain ⟨c', name', -, hpd', heq⟩ := howned pd _ hpd
    obtain ⟨rfl, rfl⟩ := descriptor_inj heq
    exact hpd'.symm
  · rintro rfl
    exact hheld.kperf hopen
  · obtain ⟨c, name, hopen, -, heq⟩ := howned pd p hp
    exact ⟨c, name, hopen, heq⟩
  · have hbounds := wholeLaps_bounds (q := 1000000) (by decide) s.start (readingsIn riscv c name s)
    have hlength : (listsOf riscv c name s).length = (readingsIn riscv c name s).length := by
      rw [PmuTopics.listsOf, List.length_map, length_laps]
    rw [milliseconds_eq hsteady, duration, hlength]
    exact hbounds

end

/-! ### Samples -/

/-- What a `Run` meets that reads everything within a millisecond from `start` on. -/
def sampleReadings (start : ℤ) : Readings Unit := ⟨fun i => start + 1000 * i, fun _ => ⟨1, ()⟩⟩

def sampleTopic (c : Collector) (name : String) : Topic := ⟨c.name, str name, []⟩

/-- Opened after a `Run`, read in two, and closed by a topic of another collector before the last: `dTLB-loads` is there
    twice, and is published four times. -/
theorem topics_by_history_twice : ∃ log : List (Event Unit), ∃ w : World Unit,
    ((w.listsOf .counting (str "dTLB-loads")).map (fun p => p.interval.toNat) = [9, 0, 99, 0] ∧
      (w.topicParams .sampling (str "cycles")).pmuId = 4) ∧
    w.listsOf .counting (str "dTLB-loads") =
      (stints .counting (str "dTLB-loads") log).all.flatMap (listsOf true .counting (str "dTLB-loads")) := by
  obtain ⟨log, w, h, hw⟩ := @Recorded.of_any _ _ _ _ (PmuTopics.step true) World.init (events true)
    [Act.run .counting (sampleReadings 0), .openTopic .counting (sampleTopic .counting "dTLB-loads") 3 1000000,
      .openTopic .sampling (sampleTopic .sampling "cycles") 4 2000000,
      .run .counting (sampleReadings 10000000), .run .counting (sampleReadings 110000000),
      .closeTopic .counting (sampleTopic .sampling "dTLB-loads"), .run .counting (sampleReadings 210000000)]
    (fun x => decide ((x.2.listsOf .counting (str "dTLB-loads")).map (fun p => p.interval.toNat) = [9, 0, 99, 0] ∧
      (x.2.topicParams .sampling (str "cycles")).pmuId = 4)) (by decide +kernel)
  exact ⟨log, w, of_decide_eq_true hw, (topics_by_history h).2.2.2.1 .counting (str "dTLB-loads")⟩

end PmuTopics
end OeAware

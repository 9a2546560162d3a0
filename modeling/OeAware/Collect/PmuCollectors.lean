import Mathlib.Data.List.Infix
import OeAware.Analysis.Instance
import OeAware.Schemes.Loops
import OeAware.Schemes.Run

/-! @src src/plugin/collect/pmu/pmu_spe_collector.cpp, pmu_uncore_collector.cpp, pmu_l3c_collector.cpp, pmu_uncore.cpp |
    name:OpenTopic, CloseTopic, Run, UncoreConfigFini | scheme:run

    Three collectors with one descriptor each. Two of them have the names of their events in arrays of one file, which are
    allocated when a topic is opened. `UncoreConfigFini` releases the arrays of both, and all pointers stay as they are.

        uncore ──OpenTopic──▶ rxOuter ─▶ ▢   rxSccl ─▶ ▢   rxOpsNum ─▶ ▢                  l3cHit
        uncore ──CloseTopic─▶ rxOuter ─▶ ✗   rxSccl ─▶ ✗   rxOpsNum ─▶ ✗                  l3cHit
        l3c ─────OpenTopic──▶ rxOuter ─▶ ✗   rxSccl ─▶ ✗   rxOpsNum ─▶ ✗                  l3cHit ─▶ ▢
        l3c ─────CloseTopic─▶ all four are released, three of them for the second time

    `Run` turns a counter off while it is read; l3c leaves it off when it has not read what it expects. spe closes its
    descriptor and opens another when reading takes too long, or next to no time. -/

namespace OeAware
open Schemes

namespace PmuCollector

/-! ### State -/

inductive Collector where
  | spe
  | uncore
  | l3c
  deriving DecidableEq

/-- The topic a collector has. -/
def Collector.topic : Collector → Topic
  | .spe => ⟨str "pmu_spe_collector", str "spe", []⟩
  | .uncore => ⟨str "pmu_uncore_collector", str "uncore", []⟩
  | .l3c => ⟨str "pmu_l3c_collector", str "l3c", []⟩

/-- An array of `UncoreConfig`, by when it has been allocated. -/
structure UncoreConfigs where
  id : ℕ
  uncoreName : List Str

/-- The variables of `pmu_uncore.cpp`; the next array will be `next`. -/
structure Uncore where
  hhaNum : ℤ
  l3cNum : ℤ
  uncoreRxOuter : Option UncoreConfigs
  uncorRxSccl : Option UncoreConfigs
  uncoreRxOpsNum : Option UncoreConfigs
  uncoreL3cHit : Option UncoreConfigs
  next : ℕ

structure PmuAttr where
  evtList : List Str
  period : ℤ

/-- An open descriptor. -/
structure Pmu where
  owner : Collector
  attr : PmuAttr
  enabled : Bool

abbrev Kperf := ℤ → Option Pmu

structure State where
  pmuId : Collector → ℤ
  attrPeriod : ℤ
  readTimeMs : ℤ
  uncore : Uncore
  kperf : Kperf

/-- What a call meets: the entries of `/sys/devices` in order, if it can be read; what `PmuOpen` and `PmuRead` return, and how
    long the latter takes. -/
structure Env where
  devices : Option (List Str)
  pmuOpen : ℤ
  pmuRead : ℤ
  readMs : ℤ

/-- `PmuOpen` never returns a descriptor that is open. -/
inductive Fault where
  | notFresh

def minAttrPeriod : ℤ := 2048
def maxAttrPeriod : ℤ := 2048000
def periodThreshold : ℤ := 2
def timeoutMs : ℤ := 50
def notTimeoutMs : ℤ := 10

def init : State :=
  ⟨fun _ => -1, minAttrPeriod, 0, ⟨0, 0, none, none, none, none, 0⟩, fun _ => none⟩

/-! ### libkperf -/

def pmuOpen (env : Env) (owner : Collector) (attr : PmuAttr) (k : Kperf) : Except Fault Kperf :=
  if env.pmuOpen = -1 then .ok k
  else if (k env.pmuOpen).isSome then .error .notFresh
  else .ok (Function.update k env.pmuOpen (some ⟨owner, attr, false⟩))

def pmuEnable (pd : ℤ) (k : Kperf) : Kperf := Function.update k pd ((k pd).map ({ · with enabled := true }))

def pmuDisable (pd : ℤ) (k : Kperf) : Kperf := Function.update k pd ((k pd).map ({ · with enabled := false }))

def pmuClose (pd : ℤ) (k : Kperf) : Kperf := Function.update k pd none

/-! ### `pmu_uncore.cpp` -/

def readSingleUncoreEvent (hhaName eventName : Str) : Str := (hhaName ++ str "/" ++ eventName ++ str "/").take 255

/-- `scandir` with the names that contain a word; how many, or -1. -/
def scandir (env : Env) (word : Str) : ℤ × List Str :=
  match env.devices with
  | none => (-1, [])
  | some names =>
    let namelist := names.filter (word <:+: ·)
    (namelist.length, namelist)

def hhaUncoreConfigInit (env : Env) (u : Uncore) : Uncore × ℤ :=
  let r := scandir env (str "hha")
  if r.1 ≤ 0 then ({ u with hhaNum := r.1 }, -1)
  else
    ({ u with
        hhaNum := r.1
        uncoreRxOuter := some ⟨u.next, r.2.map (readSingleUncoreEvent · (str "rx_outer"))⟩
        uncorRxSccl := some ⟨u.next + 1, r.2.map (readSingleUncoreEvent · (str "rx_sccl"))⟩
        uncoreRxOpsNum := some ⟨u.next + 2, r.2.map (readSingleUncoreEvent · (str "rx_ops_num"))⟩
        next := u.next + 3 }, 0)

def l3cUncoreConfigInit (env : Env) (u : Uncore) : Uncore × ℤ :=
  let r := scandir env (str "l3c")
  if r.1 ≤ 0 then ({ u with l3cNum := r.1 }, -1)
  else
    ({ u with
        l3cNum := r.1
        uncoreL3cHit := some ⟨u.next, r.2.map (readSingleUncoreEvent · (str "l3c_hit"))⟩
        next := u.next + 1 }, 0)

/-- The arrays that are pointed to. -/
def Uncore.arrays (u : Uncore) : List ℕ :=
  ([u.uncoreRxOuter, u.uncorRxSccl, u.uncoreRxOpsNum].filterMap id ++ u.uncoreL3cHit.toList).map UncoreConfigs.id

/-- `UncoreConfigFini`, with the arrays it releases; `UncoreConfigFree` sets its own copy of a pointer to null. -/
def uncoreConfigFini (u : Uncore) : Uncore × List ℕ := ({ u with hhaNum := 0 }, u.arrays)

/-! ### The collectors -/

def openSpe (env : Env) (s : State) : Except Fault (ℤ × State) :=
  (pmuOpen env .spe ⟨[], s.attrPeriod⟩ s.kperf).map (fun kperf => (env.pmuOpen, { s with kperf }))

def names (config : Option UncoreConfigs) : List Str := (config.map UncoreConfigs.uncoreName).getD []

def openUncore (env : Env) (s : State) : Except Fault (ℤ × State) :=
  let r := hhaUncoreConfigInit env s.uncore
  if r.2 ≠ 0 then .ok (-1, { s with uncore := r.1 })
  else
    let evtList := names r.1.uncoreRxOuter ++ names r.1.uncorRxSccl ++ names r.1.uncoreRxOpsNum
    (pmuOpen env .uncore ⟨evtList, 0⟩ s.kperf).map (fun kperf => (env.pmuOpen, { s with uncore := r.1, kperf }))

def openL3c (env : Env) (s : State) : Except Fault (ℤ × State) :=
  let r := l3cUncoreConfigInit env s.uncore
  if r.2 ≠ 0 then .ok (-1, { s with uncore := r.1 })
  else
    (pmuOpen env .l3c ⟨names r.1.uncoreL3cHit, 0⟩ s.kperf).map
      (fun kperf => (env.pmuOpen, { s with uncore := r.1, kperf }))

/-- An `OpenTopic`, by what it does first, how it opens and what it says when it cannot. -/
def openTopicWith (c : Collector) (prepare : State → State) (open_ : Env → State → Except Fault (ℤ × State))
    (failed : Topic → Str) (env : Env) (topic : Topic) (s : State) : Except Fault (State × Result) :=
  if topic ≠ c.topic then .ok (s, failure (str "OpenTopic: " ++ topic.getType ++ str " failed, topic not match"))
  else if (prepare s).pmuId c = -1 then
    (open_ env (prepare s)).map (fun (pd, s) =>
      if pd = -1 then ({ s with pmuId := Function.update s.pmuId c pd }, failure (failed topic))
      else ({ s with pmuId := Function.update s.pmuId c pd, kperf := pmuEnable pd s.kperf }, resultOk))
  else .ok (prepare s, failure [])

def speOpenTopic : Env → Topic → State → Except Fault (State × Result) :=
  openTopicWith .spe (fun s => { s with attrPeriod := minAttrPeriod, readTimeMs := 0 }) openSpe
    (fun _ => str "OpenTopic failed, PmuOpen failed")

def uncoreOpenTopic : Env → Topic → State → Except Fault (State × Result) :=
  openTopicWith .uncore id openUncore (fun topic => str "OpenTopic: " ++ topic.getType ++ str " failed, PmuOpen failed")

def l3cOpenTopic : Env → Topic → State → Except Fault (State × Result) :=
  openTopicWith .l3c id openL3c (fun topic => str "OpenTopic: " ++ topic.getType ++ str " failed, PmuOpen failed")

/-- A `CloseTopic`, by what it does with the arrays; with those it releases. -/
def closeTopicWith (c : Collector) (fini : Uncore → Uncore × List ℕ) (topic : Topic) (s : State) : State × List ℕ :=
  if topic ≠ c.topic then (s, [])
  else if s.pmuId c = -1 then (s, [])
  else
    ({ s with
        kperf := pmuClose (s.pmuId c) (pmuDisable (s.pmuId c) s.kperf)
        uncore := (fini s.uncore).1
        pmuId := Function.update s.pmuId c (-1) }, (fini s.uncore).2)

def speCloseTopic : Topic → State → State × List ℕ := closeTopicWith .spe (fun u => (u, []))

def uncoreCloseTopic : Topic → State → State × List ℕ := closeTopicWith .uncore uncoreConfigFini

def l3cCloseTopic : Topic → State → State × List ℕ := closeTopicWith .l3c uncoreConfigFini

/-- The next `attrPeriod`. -/
def adjusted (interval attrPeriod : ℤ) : ℤ :=
  if interval > timeoutMs then min (attrPeriod * periodThreshold) maxAttrPeriod
  else if interval < notTimeoutMs then max (attrPeriod / periodThreshold) minAttrPeriod
  else attrPeriod

def dynamicAdjustPeriod (env : Env) (interval : ℤ) (s : State) : Except Fault State :=
  if s.pmuId .spe = -1 then .ok s
  else if adjusted interval s.attrPeriod = s.attrPeriod then .ok s
  else
    let pmuId := s.pmuId .spe
    (openSpe env { s with
        attrPeriod := adjusted interval s.attrPeriod
        kperf := pmuClose pmuId (pmuDisable pmuId s.kperf) }).map (fun (pd, s) =>
      { s with
        pmuId := Function.update s.pmuId .spe pd
        kperf := if pd ≠ -1 then pmuEnable pd s.kperf else s.kperf })

def speRun (env : Env) (s : State) : Except Fault State :=
  (dynamicAdjustPeriod env s.readTimeMs s).map (fun s =>
    if s.pmuId .spe = -1 then s
    else
      { s with
        kperf := pmuEnable (s.pmuId .spe) (pmuDisable (s.pmuId .spe) s.kperf)
        readTimeMs := env.readMs })

def uncoreRun (s : State) : State :=
  if s.pmuId .uncore = -1 then s
  else { s with kperf := pmuEnable (s.pmuId .uncore) (pmuDisable (s.pmuId .uncore) s.kperf) }

def l3cRun (env : Env) (s : State) : State :=
  if s.pmuId .l3c = -1 then s
  else if s.uncore.l3cNum ≠ env.pmuRead then { s with kperf := pmuDisable (s.pmuId .l3c) s.kperf }
  else { s with kperf := pmuEnable (s.pmuId .l3c) (pmuDisable (s.pmuId .l3c) s.kperf) }

/-! ### Runs -/

/-- An array that has been released, and whether the other collector of the two had its topic open. -/
structure Release where
  array : ℕ
  beside : Bool

/-- The collectors, whose topics are open, and what has been released. -/
structure World where
  state : State
  isOpen : Collector → Bool
  released : List Release

inductive Act where
  | openTopic (c : Collector) (topic : Topic) (env : Env)
  | closeTopic (c : Collector) (topic : Topic)
  | run (c : Collector) (env : Env)

def openTopic : Collector → Env → Topic → State → Except Fault (State × Result)
  | .spe => speOpenTopic
  | .uncore => uncoreOpenTopic
  | .l3c => l3cOpenTopic

def closeTopic : Collector → Topic → State → State × List ℕ
  | .spe => speCloseTopic
  | .uncore => uncoreCloseTopic
  | .l3c => l3cCloseTopic

def run : Collector → Env → State → Except Fault State
  | .spe, env, s => speRun env s
  | .uncore, _, s => .ok (uncoreRun s)
  | .l3c, env, s => .ok (l3cRun env s)

/-- The other one of the two that share the arrays. -/
def Collector.other : Collector → Collector
  | .spe => .spe
  | .uncore => .l3c
  | .l3c => .uncore

def step (w : World) : Act → Except Fault World
  | .openTopic c topic env => (openTopic c env topic w.state).map (fun (state, result) =>
      { w with state, isOpen := if result.failed then w.isOpen else Function.update w.isOpen c true })
  | .closeTopic c topic =>
    let r := closeTopic c topic w.state
    .ok ⟨r.1, if topic = c.topic then Function.update w.isOpen c false else w.isOpen,
      w.released ++ r.2.map (Release.mk · (w.isOpen c.other))⟩
  | .run c env => (run c env w.state).map (fun state => { w with state })

def World.init : World := ⟨PmuCollector.init, fun _ => false, []⟩

/-! ### What should hold -/

/-- A collector whose topic is open has one descriptor, which is enabled, and another has none; an array is released once,
    and not beside a topic that is open. -/
structure Good (w : World) : Prop where
  one : ∀ c, w.isOpen c = true → ∃ p, w.state.kperf (w.state.pmuId c) = some p ∧ p.owner = c ∧ p.enabled = true ∧
    ∀ pd q, w.state.kperf pd = some q → q.owner = c → pd = w.state.pmuId c
  none : ∀ c, w.isOpen c = false → ∀ pd q, w.state.kperf pd = some q → q.owner ≠ c
  once : (w.released.map Release.array).Nodup
  alone : ∀ r ∈ w.released, r.beside = false

/-- When an act leaves it so. Where spe changes its period, it can be opened again; l3c reads as many values as it has
    events; and when uncore or l3c is closed, none of the arrays has been released, and the other is not open. -/
def Fits (w : World) : Act → Prop
  | .openTopic _ _ _ => True
  | .closeTopic c topic => topic = c.topic → w.state.pmuId c ≠ -1 → c ≠ .spe →
    (∀ a ∈ w.state.uncore.arrays, a ∉ w.released.map Release.array) ∧ w.isOpen c.other = false
  | .run .spe env => w.state.pmuId .spe ≠ -1 →
    50 < w.state.readTimeMs ∧ w.state.attrPeriod < 2048000 ∨ w.state.readTimeMs < 10 ∧ 2048 < w.state.attrPeriod →
    env.pmuOpen ≠ -1
  | .run .uncore _ => True
  | .run .l3c env => w.state.pmuId .l3c ≠ -1 → env.pmuRead = w.state.uncore.l3cNum

instance (w : World) : ∀ act, Decidable (Fits w act)
  | .openTopic _ _ _ => inferInstanceAs (Decidable True)
  | .closeTopic _ _ => inferInstanceAs (Decidable (_ → _ → _ → _ ∧ _))
  | .run .spe _ => inferInstanceAs (Decidable (_ → _ ∧ _ ∨ _ ∧ _ → _))
  | .run .uncore _ => inferInstanceAs (Decidable True)
  | .run .l3c _ => inferInstanceAs (Decidable (_ → _))

/-! ### Descriptors -/

/-- Each descriptor is the one its owner holds, and enabled; who holds one owns it. -/
structure Tidy (pmuId : Collector → ℤ) (k : Kperf) : Prop where
  held : ∀ pd p, k pd = some p → pmuId p.owner = pd ∧ pd ≠ -1 ∧ p.enabled = true
  owns : ∀ c, pmuId c ≠ -1 → ∃ p, k (pmuId c) = some p ∧ p.owner = c

section
variable {pmuId : Collector → ℤ} {k k' : Kperf} {c : Collector} {pd : ℤ} {attr : PmuAttr} {env : Env}

theorem pmuOpen_cases (h : pmuOpen env c attr k = .ok k') :
    (env.pmuOpen = -1 ∧ k' = k) ∨
      (env.pmuOpen ≠ -1 ∧ k env.pmuOpen = none ∧ k' = Function.update k env.pmuOpen (some ⟨c, attr, false⟩)) := by
  rw [pmuOpen] at h
  split at h
  · rename_i hpd
    cases h
    exact Or.inl ⟨hpd, rfl⟩
  · rename_i hpd
    split at h
    · cases h
    · rename_i hfresh
      cases h
      exact Or.inr ⟨hpd, Option.not_isSome_iff_eq_none.mp hfresh, rfl⟩

theorem pmuClose_pmuDisable : pmuClose pd (pmuDisable pd k) = Function.update k pd none := by
  simp [pmuClose, pmuDisable]

theorem Tidy.openPd (h : Tidy pmuId k) (hid : pmuId c = -1) (hpd : pd ≠ -1) (hfresh : k pd = none) :
    Tidy (Function.update pmuId c pd) (pmuEnable pd (Function.update k pd (some ⟨c, attr, false⟩))) := by
  have htable : pmuEnable pd (Function.update k pd (some ⟨c, attr, false⟩)) =
      Function.update k pd (some ⟨c, attr, true⟩) := by simp [pmuEnable]
  rw [htable]
  refine ⟨fun pd' p hp => ?_, fun c' hc' => ?_⟩
  · rcases eq_or_ne pd' pd with rfl | hne
    · rw [Function.update_self] at hp
      cases hp
      exact ⟨Function.update_self .., hpd, rfl⟩
    · rw [Function.update_of_ne hne] at hp
      obtain ⟨hown, hpd', hen⟩ := h.held pd' p hp
      have hother : p.owner ≠ c := by
        rintro rfl
        exact hpd' (hown.symm.trans hid)
      exact ⟨(Function.update_of_ne hother ..).trans hown, hpd', hen⟩
  · rcases eq_or_ne c' c with rfl | hne
    · rw [Function.update_self, Function.update_self]
      exact ⟨_, rfl, rfl⟩
    · rw [Function.update_of_ne hne] at hc' ⊢
      obtain ⟨p, hp, hown⟩ := h.owns c' hc'
      have hother : pmuId c' ≠ pd := by
        intro heq
        rw [heq, hfresh] at hp
        cases hp
      exact ⟨p, (Function.update_of_ne hother ..).trans hp, hown⟩

theorem Tidy.closePd (h : Tidy pmuId k) (c : Collector) :
    Tidy (Function.update pmuId c (-1)) (Function.update k (pmuId c) none) := by
  refine ⟨fun pd p hp => ?_, fun c' hc' => ?_⟩
  · rcases eq_or_ne pd (pmuId c) with rfl | hne
    · rw [Function.update_self] at hp
      cases hp
    · rw [Function.update_of_ne hne] at hp
      obtain ⟨hown, hpd, hen⟩ := h.held pd p hp
      have hother : p.owner ≠ c := by
        rintro rfl
        exact hne hown.symm
      exact ⟨(Function.update_of_ne hother ..).trans hown, hpd, hen⟩
  · rcases eq_or_ne c' c with rfl | hne
    · exact absurd (Function.update_self ..) hc'
    · rw [Function.update_of_ne hne] at hc' ⊢
      obtain ⟨p, hp, hown⟩ := h.owns c' hc'
      have hother : pmuId c' ≠ pmuId c := by
        intro heq
        have hc : pmuId c ≠ -1 := heq ▸ hc'
        obtain ⟨q, hq, hq'⟩ := h.owns c hc
        rw [← heq, hp] at hq
        cases hq
        exact hne (hown.symm.trans hq')
      exact ⟨p, (Function.update_of_ne hother ..).trans hp, hown⟩

/-- A counter that was on is on again once it has been read. -/
theorem pmuEnable_pmuDisable (h : ∀ p, k pd = some p → p.enabled = true) : pmuEnable pd (pmuDisable pd k) = k := by
  funext pd'
  rcases eq_or_ne pd' pd with rfl | hne
  · cases hp : k pd' with
    | none => simp [pmuEnable, pmuDisable, hp]
    | some p =>
      obtain ⟨owner, attr, enabled⟩ := p
      have hen := h _ hp
      cases hen
      simp [pmuEnable, pmuDisable, hp]
  · simp [pmuEnable, pmuDisable, hne]

end

/-! ### Arrays -/

/-- The arrays that are pointed to are different ones, and all there are have been allocated. -/
structure Sound (u : Uncore) (released : List ℕ) : Prop where
  nodup : u.arrays.Nodup
  arrays : ∀ a ∈ u.arrays, a < u.next
  released : ∀ a ∈ released, a < u.next

section
variable {env : Env} {u : Uncore} {released : List ℕ}

/-- Changes of the other variables. -/
theorem Sound.congr {u' : Uncore} (h : Sound u released) (harrays : u'.arrays = u.arrays) (hnext : u'.next = u.next) :
    Sound u' released := by
  obtain ⟨hnodup, hlow, hreleased⟩ := h
  rw [← harrays] at hnodup hlow
  rw [← hnext] at hlow hreleased
  exact ⟨hnodup, hlow, hreleased⟩

theorem hhaUncoreConfigInit_ok (h : Sound u released) : Sound (hhaUncoreConfigInit env u).1 released ∧
    ((hhaUncoreConfigInit env u).2 = 0 ∧ (hhaUncoreConfigInit env u).1.arrays ≠ [] ∨
      (hhaUncoreConfigInit env u).2 ≠ 0 ∧ (hhaUncoreConfigInit env u).1.arrays = u.arrays) := by
  rw [hhaUncoreConfigInit]
  split
  · exact ⟨h.congr rfl rfl, Or.inr ⟨Int.neg_ne_zero.mpr Int.one_ne_zero, rfl⟩⟩
  · have hold : ∀ a ∈ u.uncoreL3cHit.toList.map UncoreConfigs.id, a < u.next := by
      intro a ha
      refine h.arrays a ?_
      rw [Uncore.arrays, List.map_append]
      exact List.mem_append_right _ ha
    refine ⟨⟨?_, ?_, fun a ha => (h.released a ha).trans (Nat.lt_add_of_pos_right (by decide))⟩,
      Or.inl ⟨rfl, fun hnil => by cases hnil⟩⟩
    · rw [Uncore.arrays, List.map_append, List.nodup_append]
      refine ⟨by simp, ?_, ?_⟩
      · cases u.uncoreL3cHit with
        | none => exact List.nodup_nil
        | some config => exact List.nodup_singleton _
      · rintro a ha b hb rfl
        have := hold a hb
        simp at ha
        omega
    · intro a ha
      rw [Uncore.arrays, List.map_append] at ha
      rcases List.mem_append.mp ha with ha | ha
      · simp at ha
        dsimp only
        omega
      · exact (hold a ha).trans (Nat.lt_add_of_pos_right (by decide))

theorem l3cUncoreConfigInit_ok (h : Sound u released) : Sound (l3cUncoreConfigInit env u).1 released ∧
    ((l3cUncoreConfigInit env u).2 = 0 ∧ (l3cUncoreConfigInit env u).1.arrays ≠ [] ∨
      (l3cUncoreConfigInit env u).2 ≠ 0 ∧ (l3cUncoreConfigInit env u).1.arrays = u.arrays) := by
  rw [l3cUncoreConfigInit]
  split
  · exact ⟨h.congr rfl rfl, Or.inr ⟨Int.neg_ne_zero.mpr Int.one_ne_zero, rfl⟩⟩
  · obtain ⟨hnodup, hlow, hreleased⟩ := h
    rw [Uncore.arrays, List.map_append] at hnodup hlow
    have hfirst := (List.nodup_append.mp hnodup).1
    refine ⟨⟨?_, ?_, fun a ha => (hreleased a ha).trans (Nat.lt_succ_self _)⟩, Or.inl ⟨rfl, ?_⟩⟩
    · rw [Uncore.arrays, List.map_append, List.nodup_append]
      refine ⟨hfirst, List.nodup_singleton _, ?_⟩
      rintro a ha b hb rfl
      have := hlow a (List.mem_append_left _ ha)
      simp at hb
      omega
    · intro a ha
      rw [Uncore.arrays, List.map_append] at ha
      rcases List.mem_append.mp ha with ha | ha
      · exact (hlow a (List.mem_append_left _ ha)).trans (Nat.lt_succ_self _)
      · simp at ha
        exact ha ▸ Nat.lt_succ_self _
    · intro hnil
      rw [Uncore.arrays, List.map_append, List.append_eq_nil_iff] at hnil
      cases hnil.2

end

/-! ### Opening -/

/-- What opening does to a state. -/
structure Opened (c : Collector) (released : List ℕ) (s : State) (pd : ℤ) (s' : State) : Prop where
  pmuId : s'.pmuId = s.pmuId
  attrPeriod : s'.attrPeriod = s.attrPeriod
  kperf : (pd = -1 ∧ s'.kperf = s.kperf) ∨
    (pd ≠ -1 ∧ s.kperf pd = none ∧ ∃ attr, s'.kperf = Function.update s.kperf pd (some ⟨c, attr, false⟩))
  sound : Sound s'.uncore released
  kept : s.uncore.arrays ≠ [] → s'.uncore.arrays ≠ []
  own : c ≠ .spe → pd ≠ -1 → s'.uncore.arrays ≠ []

section
variable {env : Env} {s s' : State} {pd : ℤ} {released : List ℕ}

theorem opened_spe (hsound : Sound s.uncore released) (h : openSpe env s = .ok (pd, s')) : Opened .spe released s pd s' := by
  obtain ⟨kperf, hopen, heq⟩ := map_ok h
  cases heq
  refine ⟨rfl, rfl, ?_, hsound, id, fun hspe => absurd rfl hspe⟩
  rcases pmuOpen_cases hopen with ⟨hpd, hk⟩ | ⟨hpd, hfresh, hk⟩
  · exact Or.inl ⟨hpd, hk⟩
  · exact Or.inr ⟨hpd, hfresh, _, hk⟩

/-- The arrays have been allocated, or there is nothing to count. -/
theorem opened_of_init {c : Collector} {r : Uncore × ℤ} {attr : PmuAttr}
    (hr : Sound r.1 released ∧ (r.2 = 0 ∧ r.1.arrays ≠ [] ∨ r.2 ≠ 0 ∧ r.1.arrays = s.uncore.arrays))
    (h : (if r.2 ≠ 0 then .ok (-1, { s with uncore := r.1 })
      else (pmuOpen env c attr s.kperf).map (fun kperf => (env.pmuOpen, { s with uncore := r.1, kperf }))) = .ok (pd, s')) :
    Opened c released s pd s' := by
  obtain ⟨hinit, harrays⟩ := hr
  split at h
  · rename_i hret
    cases h
    have hsame := (harrays.resolve_left fun h => hret h.1).2
    exact ⟨rfl, rfl, Or.inl ⟨rfl, rfl⟩, hinit, fun hne => hsame ▸ hne, fun _ hpd => absurd rfl hpd⟩
  · rename_i hret
    obtain ⟨kperf, hopen, heq⟩ := map_ok h
    cases heq
    have hne := (harrays.resolve_right fun h => hret h.1).2
    refine ⟨rfl, rfl, ?_, hinit, fun _ => hne, fun _ _ => hne⟩
    rcases pmuOpen_cases hopen with ⟨hpd, hk⟩ | ⟨hpd, hfresh, hk⟩
    · exact Or.inl ⟨hpd, hk⟩
    · exact Or.inr ⟨hpd, hfresh, _, hk⟩

theorem opened_uncore (hsound : Sound s.uncore released) (h : openUncore env s = .ok (pd, s')) :
    Opened .uncore released s pd s' :=
  opened_of_init (hhaUncoreConfigInit_ok hsound) h

theorem opened_l3c (hsound : Sound s.uncore released) (h : openL3c env s = .ok (pd, s')) : Opened .l3c released s pd s' :=
  opened_of_init (l3cUncoreConfigInit_ok hsound) h

end

/-! ### What holds along a run -/

structure Held (w : World) : Prop where
  isOpen : ∀ c, w.isOpen c = true ↔ w.state.pmuId c ≠ -1
  tidy : Tidy w.state.pmuId w.state.kperf
  period : 2048 ≤ w.state.attrPeriod ∧ w.state.attrPeriod ≤ 2048000
  sound : Sound w.state.uncore (w.released.map Release.array)
  own : ∀ c, c ≠ .spe → w.state.pmuId c ≠ -1 → w.state.uncore.arrays ≠ []
  once : (w.released.map Release.array).Nodup
  alone : ∀ r ∈ w.released, r.beside = false

section
variable {w w' : World} {act : Act} {c : Collector} {topic : Topic} {env : Env}

theorem held_init : Held World.init :=
  ⟨fun _ => iff_of_false Bool.false_ne_true fun h => h rfl, ⟨fun _ _ h => (by cases h), fun _ h => absurd rfl h⟩,
    ⟨by decide, by decide⟩, ⟨List.nodup_nil, fun _ h => (by cases h), fun _ h => (by cases h)⟩,
    fun _ _ h => absurd rfl h, List.nodup_nil, fun _ h => (by cases h)⟩

theorem Held.good (h : Held w) : Good w := by
  refine ⟨fun c hopen => ?_, fun c hclosed pd q hq hown => ?_, h.once, h.alone⟩
  · obtain ⟨p, hp, hown⟩ := h.tidy.owns c ((h.isOpen c).mp hopen)
    refine ⟨p, hp, hown, (h.tidy.held _ p hp).2.2, ?_⟩
    rintro pd q hq rfl
    exact (h.tidy.held pd q hq).1.symm
  · obtain ⟨hpd, hne, -⟩ := h.tidy.held pd q hq
    have hopen := (h.isOpen c).mpr (by rw [← hown, hpd]; exact hne)
    rw [hclosed] at hopen
    cases hopen

/-- A state that differs in what does not matter. -/
theorem Held.congr (h : Held w) {s : State} (hid : s.pmuId = w.state.pmuId) (hk : s.kperf = w.state.kperf)
    (huncore : s.uncore = w.state.uncore) (hperiod : 2048 ≤ s.attrPeriod ∧ s.attrPeriod ≤ 2048000) :
    Held { w with state := s } :=
  ⟨hid ▸ h.isOpen, hid ▸ hk ▸ h.tidy, hperiod, huncore ▸ h.sound, hid ▸ huncore ▸ h.own, h.once, h.alone⟩

/-- A collector that was closed has been opened. -/
theorem Held.opens (h : Held w) {s : State} {pd : ℤ} (hid : w.state.pmuId c = -1) (hpd : pd ≠ -1)
    (hopened : Opened c (w.released.map Release.array) w.state pd s) :
    Held ⟨{ s with pmuId := Function.update s.pmuId c pd, kperf := pmuEnable pd s.kperf }, Function.update w.isOpen c true,
      w.released⟩ := by
  obtain ⟨-, hfresh, attr, hk⟩ := hopened.kperf.resolve_left fun h => hpd h.1
  refine ⟨fun c' => ?_, ?_, ?_, hopened.sound, fun c' hc' hopen => ?_, h.once, h.alone⟩
  · rcases eq_or_ne c' c with rfl | hne
    · simp [hpd]
    · simp [hne, hopened.pmuId, h.isOpen c']
  · rw [hopened.pmuId, hk]
    exact h.tidy.openPd hid hpd hfresh
  · exact hopened.attrPeriod ▸ h.period
  · rcases eq_or_ne c' c with rfl | hne
    · exact hopened.own hc' hpd
    · dsimp only at hopen
      rw [Function.update_of_ne hne, hopened.pmuId] at hopen
      exact hopened.kept (h.own c' hc' hopen)

/-- It could not be. -/
theorem Held.opensNot (h : Held w) {s : State} (hid : w.state.pmuId c = -1)
    (hopened : Opened c (w.released.map Release.array) w.state (-1) s) :
    Held { w with state := { s with pmuId := Function.update s.pmuId c (-1) } } := by
  obtain ⟨-, hk⟩ := hopened.kperf.resolve_right fun h => h.1 rfl
  have hsame : Function.update s.pmuId c (-1) = w.state.pmuId := by
    rw [hopened.pmuId, ← hid, Function.update_eq_self]
  refine ⟨fun c' => ?_, ?_, ?_, hopened.sound, fun c' hc' hopen => ?_, h.once, h.alone⟩
  · rw [hsame]
    exact h.isOpen c'
  · rw [hsame, hk]
    exact h.tidy
  · exact hopened.attrPeriod ▸ h.period
  · rw [hsame] at hopen
    exact hopened.kept (h.own c' hc' hopen)

theorem minAttrPeriod_ok : 2048 ≤ minAttrPeriod ∧ minAttrPeriod ≤ 2048000 := ⟨by decide, by decide⟩

theorem held_openTopicWith {prepare : State → State} {open_ : Env → State → Except Fault (ℤ × State)}
    {failed : Topic → Str} {r : State × Result} (h : Held w) (hprepare : Held { w with state := prepare w.state })
    (hopen : ∀ pd s, open_ env (prepare w.state) = .ok (pd, s) →
      Opened c (w.released.map Release.array) (prepare w.state) pd s)
    (hr : openTopicWith c prepare open_ failed env topic w.state = .ok r) :
    Held ⟨r.1, if r.2.failed then w.isOpen else Function.update w.isOpen c true, w.released⟩ := by
  rw [openTopicWith] at hr
  split at hr
  · cases hr
    exact h
  · split at hr
    · rename_i hid
      obtain ⟨⟨pd, s⟩, hs, rfl⟩ := map_ok hr
      dsimp only
      have hopened := hopen pd s hs
      split
      · rename_i hpd
        subst hpd
        exact hprepare.opensNot hid hopened
      · rename_i hpd
        exact hprepare.opens hid hpd hopened
    · cases hr
      exact hprepare

theorem held_openTopic {r : State × Result} (h : Held w) (hr : openTopic c env topic w.state = .ok r) :
    Held ⟨r.1, if r.2.failed then w.isOpen else Function.update w.isOpen c true, w.released⟩ := by
  cases c with
  | spe =>
    rw [openTopic, speOpenTopic] at hr
    exact held_openTopicWith h (h.congr rfl rfl rfl minAttrPeriod_ok) (fun _ _ => opened_spe h.sound) hr
  | uncore =>
    rw [openTopic, uncoreOpenTopic] at hr
    exact held_openTopicWith h h (fun _ _ => opened_uncore h.sound) hr
  | l3c =>
    rw [openTopic, l3cOpenTopic] at hr
    exact held_openTopicWith h h (fun _ _ => opened_l3c h.sound) hr

/-! ### Closing -/

/-- A collector that was open has been closed. -/
def World.closed (w : World) (c : Collector) : World where
  state :=
    { w.state with
        pmuId := Function.update w.state.pmuId c (-1)
        kperf := Function.update w.state.kperf (w.state.pmuId c) none
        uncore := if c = .spe then w.state.uncore else { w.state.uncore with hhaNum := 0 } }
  isOpen := Function.update w.isOpen c false
  released := w.released ++ (if c = .spe then [] else w.state.uncore.arrays).map (Release.mk · (w.isOpen c.other))

theorem closeTopicWith_open {fini : Uncore → Uncore × List ℕ} {s : State} (hopen : s.pmuId c ≠ -1) :
    closeTopicWith c fini c.topic s =
      ({ s with
          kperf := Function.update s.kperf (s.pmuId c) none
          uncore := (fini s.uncore).1
          pmuId := Function.update s.pmuId c (-1) }, (fini s.uncore).2) := by
  rw [closeTopicWith, if_neg (not_not_intro rfl), if_neg hopen, pmuClose_pmuDisable]

theorem step_closed (hopen : w.state.pmuId c ≠ -1) : step w (.closeTopic c c.topic) = .ok (w.closed c) := by
  cases c with
  | spe =>
    rw [step, closeTopic, speCloseTopic, closeTopicWith_open hopen, if_pos rfl]
    rfl
  | uncore =>
    rw [step, closeTopic, uncoreCloseTopic, closeTopicWith_open hopen, if_pos rfl]
    rfl
  | l3c =>
    rw [step, closeTopic, l3cCloseTopic, closeTopicWith_open hopen, if_pos rfl]
    rfl

theorem closeTopicWith_idle {fini : Uncore → Uncore × List ℕ} {s : State} (h : ¬ (topic = c.topic ∧ s.pmuId c ≠ -1)) :
    closeTopicWith c fini topic s = (s, []) := by
  rw [closeTopicWith]
  split
  · rfl
  · rename_i htopic
    rw [if_pos (not_not.mp fun hid => h ⟨not_not.mp htopic, hid⟩)]

theorem step_closeTopic_idle (h : Held w) (hidle : ¬ (topic = c.topic ∧ w.state.pmuId c ≠ -1)) :
    step w (.closeTopic c topic) = .ok w := by
  have hcall : closeTopic c topic w.state = (w.state, []) := by
    cases c with
    | spe =>
      rw [closeTopic, speCloseTopic]
      exact closeTopicWith_idle hidle
    | uncore =>
      rw [closeTopic, uncoreCloseTopic]
      exact closeTopicWith_idle hidle
    | l3c =>
      rw [closeTopic, l3cCloseTopic]
      exact closeTopicWith_idle hidle
  have hisOpen : (if topic = c.topic then Function.update w.isOpen c false else w.isOpen) = w.isOpen := by
    split
    · rename_i htopic
      have hclosed : w.isOpen c = false := by
        rw [← Bool.not_eq_true, h.isOpen]
        exact fun hid => hidle ⟨htopic, hid⟩
      rw [← hclosed, Function.update_eq_self]
    · rfl
  rw [step, hcall, hisOpen]
  simp

theorem arrays_closed (w : World) (c : Collector) : (w.closed c).state.uncore.arrays = w.state.uncore.arrays := by
  rw [World.closed]
  dsimp only
  split <;> rfl

theorem next_closed (w : World) (c : Collector) : (w.closed c).state.uncore.next = w.state.uncore.next := by
  rw [World.closed]
  dsimp only
  split <;> rfl

theorem map_released_closed (w : World) (c : Collector) : (w.closed c).released.map Release.array =
    w.released.map Release.array ++ if c = .spe then [] else w.state.uncore.arrays := by
  simp [World.closed, Function.comp_def]

theorem Held.closed (h : Held w)
    (hfits : c ≠ .spe → (∀ a ∈ w.state.uncore.arrays, a ∉ w.released.map Release.array) ∧ w.isOpen c.other = false) :
    Held (w.closed c) := by
  refine ⟨fun c' => ?_, h.tidy.closePd c, h.period, ?_, fun c' hc' hopen => ?_, ?_, ?_⟩
  · rcases eq_or_ne c' c with rfl | hne
    · simp [World.closed]
    · simp [World.closed, hne, h.isOpen c']
  · have hsame := h.sound.congr (arrays_closed w c) (next_closed w c)
    refine ⟨hsame.nodup, hsame.arrays, fun a ha => ?_⟩
    rw [map_released_closed] at ha
    rcases List.mem_append.mp ha with ha | ha
    · exact hsame.released a ha
    · split at ha
      · cases ha
      · rw [next_closed]
        exact h.sound.arrays a ha
  · rw [arrays_closed]
    rcases eq_or_ne c' c with rfl | hne
    · exact absurd (Function.update_self ..) hopen
    · exact h.own c' hc' fun hid => hopen ((Function.update_of_ne hne ..).trans hid)
  · rw [map_released_closed]
    split
    · rw [List.append_nil]
      exact h.once
    · rename_i hspe
      refine List.nodup_append.mpr ⟨h.once, h.sound.nodup, ?_⟩
      rintro a ha b hb rfl
      exact (hfits hspe).1 a hb ha
  · intro r hr
    rcases List.mem_append.mp hr with hr | hr
    · exact h.alone r hr
    · obtain ⟨a, ha, rfl⟩ := List.mem_map.mp hr
      split at ha
      · cases ha
      · rename_i hspe
        exact (hfits hspe).2

theorem good_closed_iff (h : Held w) (hopen : w.state.pmuId c ≠ -1) : Good (w.closed c) ↔
    (c ≠ .spe → (∀ a ∈ w.state.uncore.arrays, a ∉ w.released.map Release.array) ∧ w.isOpen c.other = false) := by
  refine ⟨fun hgood hspe => ⟨fun a ha hreleased => ?_, ?_⟩, fun hfits => (h.closed hfits).good⟩
  · have honce := hgood.once
    rw [map_released_closed, if_neg hspe] at honce
    exact (List.nodup_append.mp honce).2.2 a hreleased a ha rfl
  · obtain ⟨a, ha⟩ := List.exists_mem_of_ne_nil _ (h.own c hspe hopen)
    refine hgood.alone ⟨a, w.isOpen c.other⟩ (List.mem_append_right _ ?_)
    rw [if_neg hspe]
    exact List.mem_map_of_mem ha

/-! ### Running -/

theorem adjusted_eq (interval attrPeriod : ℤ) : adjusted interval attrPeriod =
    if 50 < interval then min (attrPeriod * 2) 2048000
    else if interval < 10 then max (attrPeriod / 2) 2048
    else attrPeriod := rfl

theorem adjusted_ok {interval attrPeriod : ℤ} (h : 2048 ≤ attrPeriod ∧ attrPeriod ≤ 2048000) :
    (2048 ≤ adjusted interval attrPeriod ∧ adjusted interval attrPeriod ≤ 2048000) ∧
      (adjusted interval attrPeriod ≠ attrPeriod ↔
        50 < interval ∧ attrPeriod < 2048000 ∨ interval < 10 ∧ 2048 < attrPeriod) := by
  rw [adjusted_eq]
  rcases Int.lt_or_le 50 interval with hslow | hslow
  · rw [if_pos hslow]
    omega
  · rw [if_neg (Int.not_lt.mpr hslow)]
    rcases Int.lt_or_le interval 10 with hfast | hfast
    · rw [if_pos hfast]
      omega
    · rw [if_neg (Int.not_lt.mpr hfast)]
      omega

theorem Held.read (h : Held w) (c : Collector) :
    pmuEnable (w.state.pmuId c) (pmuDisable (w.state.pmuId c) w.state.kperf) = w.state.kperf :=
  pmuEnable_pmuDisable fun p hp => (h.tidy.held _ p hp).2.2

theorem uncoreRun_eq (h : Held w) : uncoreRun w.state = w.state := by
  rw [uncoreRun, h.read]
  split <;> rfl

theorem l3cRun_eq (h : Held w) (hread : w.state.pmuId .l3c ≠ -1 → env.pmuRead = w.state.uncore.l3cNum) :
    l3cRun env w.state = w.state := by
  rw [l3cRun, h.read]
  split
  · rfl
  · rename_i hid
    rw [if_neg (not_not_intro (hread hid).symm)]

/-- l3c has not read what it expected. -/
theorem not_good_l3c (h : Held w) (hid : w.state.pmuId .l3c ≠ -1) (hread : env.pmuRead ≠ w.state.uncore.l3cNum) :
    ¬ Good { w with state := l3cRun env w.state } := by
  intro hgood
  rw [l3cRun, if_neg hid, if_pos hread.symm] at hgood
  obtain ⟨p, hp, -, hen, -⟩ := hgood.one .l3c ((h.isOpen .l3c).mpr hid)
  obtain ⟨q, hq, -⟩ := h.tidy.owns .l3c hid
  simp only [pmuDisable, Function.update_self, hq, Option.map_some, Option.some.injEq] at hp
  subst hp
  cases hen

/-- What becomes of spe's `Run`. -/
theorem speRun_cases {s' : State} (h : Held w) (hs : speRun env w.state = .ok s') :
    ((w.state.pmuId .spe = -1 ∨ adjusted w.state.readTimeMs w.state.attrPeriod = w.state.attrPeriod) ∧
      Held { w with state := s' }) ∨
    (w.state.pmuId .spe ≠ -1 ∧ adjusted w.state.readTimeMs w.state.attrPeriod ≠ w.state.attrPeriod ∧
      ((env.pmuOpen ≠ -1 ∧ Held { w with state := s' }) ∨ (env.pmuOpen = -1 ∧ ¬ Good { w with state := s' }))) := by
  obtain ⟨s, hadjust, rfl⟩ := map_ok hs
  rw [dynamicAdjustPeriod] at hadjust
  split at hadjust
  · rename_i hid
    cases hadjust
    rw [if_pos hid]
    exact Or.inl ⟨Or.inl hid, h⟩
  · rename_i hid
    split at hadjust
    · rename_i hsame
      cases hadjust
      rw [if_neg hid, h.read]
      exact Or.inl ⟨Or.inr hsame, h.congr rfl rfl rfl h.period⟩
    · rename_i hmove
      refine Or.inr ⟨hid, hmove, ?_⟩
      dsimp only at hadjust
      rw [pmuClose_pmuDisable] at hadjust
      obtain ⟨⟨pd, t⟩, hopen, rfl⟩ := map_ok hadjust
      obtain ⟨kperf, hkperf, heq⟩ := map_ok hopen
      cases heq
      have hclosed := h.tidy.closePd .spe
      rcases pmuOpen_cases hkperf with ⟨hpd, rfl⟩ | ⟨hpd, hfresh, rfl⟩
      · refine Or.inr ⟨hpd, fun hgood => ?_⟩
        obtain ⟨p, hp, -⟩ := hgood.one .spe ((h.isOpen .spe).mpr hid)
        simp only [hpd, Function.update_self, ne_eq, not_true_eq_false, if_false, if_true] at hp
        exact (hclosed.held _ p hp).2.1 rfl
      · refine Or.inl ⟨hpd, ?_⟩
        have htidy := @Tidy.openPd _ _ .spe _ ⟨[], adjusted w.state.readTimeMs w.state.attrPeriod⟩ hclosed
          (Function.update_self ..) hpd hfresh
        rw [Function.update_idem] at htidy
        have hread := pmuEnable_pmuDisable fun p hp => (htidy.held env.pmuOpen p hp).2.2
        simp only [Function.update_self, hpd, ne_eq, not_false_eq_true, if_true, if_false, hread]
        refine ⟨fun c => ?_, htidy, (adjusted_ok h.period).1, h.sound, fun c hc hopen => ?_, h.once, h.alone⟩
        · rcases eq_or_ne c .spe with rfl | hne
          · simp [hpd, (h.isOpen .spe).mpr hid]
          · simp [hne, h.isOpen c]
        · exact h.own c hc fun hold => hopen ((Function.update_of_ne hc ..).trans hold)

/-! ### Steps and runs -/

/-- THE STEP: what holds is kept where the act meets its condition, and only there is the state good. -/
theorem held_or_not_good (h : Held w) (hs : step w act = .ok w') :
    (Fits w act ∧ Held w') ∨ (¬ Fits w act ∧ ¬ Good w') := by
  cases act with
  | openTopic c topic env =>
    obtain ⟨r, hr, rfl⟩ := map_ok hs
    exact Or.inl ⟨trivial, held_openTopic h hr⟩
  | closeTopic c topic =>
    rcases em (topic = c.topic ∧ w.state.pmuId c ≠ -1) with ⟨rfl, hopen⟩ | hidle
    · rw [step_closed hopen] at hs
      cases hs
      have hfits : Fits w (.closeTopic c c.topic) ↔ (c ≠ .spe →
          (∀ a ∈ w.state.uncore.arrays, a ∉ w.released.map Release.array) ∧ w.isOpen c.other = false) :=
        ⟨fun hfits => hfits rfl hopen, fun hfits _ _ => hfits⟩
      rw [hfits, good_closed_iff h hopen]
      exact (em _).imp (fun hfits => ⟨hfits, h.closed hfits⟩) fun hfits => ⟨hfits, hfits⟩
    · rw [step_closeTopic_idle h hidle] at hs
      cases hs
      exact Or.inl ⟨fun htopic hopen => absurd ⟨htopic, hopen⟩ hidle, h⟩
  | run c env =>
    cases c with
    | spe =>
      obtain ⟨s', hs', rfl⟩ := map_ok hs
      have hmove := (@adjusted_ok w.state.readTimeMs _ h.period).2
      rcases speRun_cases h hs' with ⟨hstay, hheld⟩ | ⟨hid, hne, hopen⟩
      · refine Or.inl ⟨fun hid hmoves => ?_, hheld⟩
        exact absurd (hstay.resolve_left hid) (hmove.mpr hmoves)
      · rcases hopen with ⟨hpd, hheld⟩ | ⟨hpd, hbad⟩
        · exact Or.inl ⟨fun _ _ => hpd, hheld⟩
        · exact Or.inr ⟨fun hfits => hfits hid (hmove.mp hne) hpd, hbad⟩
    | uncore =>
      cases hs
      rw [uncoreRun_eq h]
      exact Or.inl ⟨trivial, h⟩
    | l3c =>
      cases hs
      rcases em (w.state.pmuId .l3c ≠ -1 → env.pmuRead = w.state.uncore.l3cNum) with hread | hread
      · rw [l3cRun_eq h hread]
        exact Or.inl ⟨hread, h⟩
      · obtain ⟨hid, hne⟩ := Classical.not_imp.mp hread
        exact Or.inr ⟨hread, not_good_l3c h hid hne⟩

theorem held_of_runs (h : Runs step World.init Fits w) : Held w :=
  h.invariant held_init fun _ _ _ hw hfits hs =>
    ((held_or_not_good hw hs).resolve_right fun hnot => hnot.1 hfits).2

/-- THE RUN: as long as each act meets its condition the collectors hold what they should, and no longer. -/
theorem good_of_runs (h : Runs step World.init Fits w) :
    Good w ∧ ∀ act w', step w act = .ok w' → (Good w' ↔ Fits w act) := by
  have hheld := held_of_runs h
  refine ⟨hheld.good, fun act w' hs => ?_⟩
  rcases held_or_not_good hheld hs with ⟨hfits, hnext⟩ | ⟨hfits, hbad⟩
  · exact iff_of_true hnext.good hfits
  · exact iff_of_false hbad hfits

end

/-! ### Samples -/

namespace Example

/-- There is one device of each kind, and a call has this descriptor and reads so many values in so many milliseconds. -/
def sampleEnv (pmuOpen pmuRead readMs : ℤ) : Env :=
  ⟨some [str "hisi_sccl1_hha0", str "hisi_sccl1_l3c0"], pmuOpen, pmuRead, readMs⟩

def opens (c : Collector) (pd : ℤ) : Act := .openTopic c c.topic (sampleEnv pd 0 0)

def closes (c : Collector) : Act := .closeTopic c c.topic

def runs (c : Collector) (pd pmuRead readMs : ℤ) : Act := .run c (sampleEnv pd pmuRead readMs)

theorem exists_run {ok : World → Act → Prop} [∀ w act, Decidable (ok w act)] {acts : List Act} {P : World → Bool}
    (h : (runAll step ok World.init acts).any P = true) : ∃ w, Runs step World.init ok w ∧ P w = true := by
  cases hw : runAll step ok World.init acts with
  | none =>
    rw [hw] at h
    cases h
  | some w =>
    rw [hw] at h
    exact ⟨w, .of_runAll ok acts .start hw, h⟩

end Example

/-- uncore is open for the second time, and spe has been opened anew because reading took 60 milliseconds. -/
theorem good_of_runs_spe : ∃ w, (w.state.pmuId .spe = 5 ∧ w.state.attrPeriod = 4096 ∧ w.isOpen .uncore = true ∧
    w.released.length = 3) ∧ Good w := by
  obtain ⟨w, hruns, hw⟩ := @Example.exists_run Fits _
    [Example.opens .uncore 3, Example.closes .uncore, Example.opens .uncore 3, Example.opens .spe 4,
      Example.runs .spe (-1) 0 60, Example.runs .spe 5 0 20]
    (fun w => decide (w.state.pmuId .spe = 5 ∧ w.state.attrPeriod = 4096 ∧ w.isOpen .uncore = true ∧
      w.released.length = 3)) (by decide +kernel)
  exact ⟨w, of_decide_eq_true hw, (good_of_runs hruns).1⟩

/-- Closing l3c after uncore releases the arrays of uncore again; a short read leaves l3c disabled; and spe has nothing when it
    could not be opened again. -/
theorem not_good :
    (∃ w, Runs step World.init (fun _ _ => True) w ∧ ¬ (w.released.map Release.array).Nodup ∧ ¬ Good w) ∧
    (∃ w, Runs step World.init (fun _ _ => True) w ∧ w.isOpen .l3c = true ∧ ¬ Good w) ∧
    ∃ w, Runs step World.init (fun _ _ => True) w ∧ w.isOpen .spe = true ∧ ¬ Good w := by
  refine ⟨?_, ?_, ?_⟩
  · obtain ⟨w, hruns, hw⟩ := @Example.exists_run (fun _ _ => True) _
      [Example.opens .uncore 3, Example.closes .uncore, Example.opens .l3c 3, Example.closes .l3c]
      (fun w => decide (¬ (w.released.map Release.array).Nodup)) (by decide +kernel)
    exact ⟨w, hruns, of_decide_eq_true hw, fun h => of_decide_eq_true hw h.once⟩
  · obtain ⟨w, hruns, hw⟩ := @Example.exists_run (fun _ _ => True) _ [Example.opens .l3c 3, Example.runs .l3c 0 0 0]
      (fun w => w.isOpen .l3c && (w.state.kperf (w.state.pmuId .l3c)).any (!·.enabled)) (by decide +kernel)
    obtain ⟨hopen, hoff⟩ := Bool.and_eq_true_iff.mp hw
    refine ⟨w, hruns, hopen, fun h => ?_⟩
    obtain ⟨p, hp, -, hen, -⟩ := h.one .l3c hopen
    rw [hp, Option.any_some, hen] at hoff
    cases hoff
  · obtain ⟨w, hruns, hw⟩ := @Example.exists_run (fun _ _ => True) _
      [Example.opens .spe 3, Example.runs .spe (-1) 0 60, Example.runs .spe (-1) 0 0]
      (fun w => w.isOpen .spe && (w.state.kperf (w.state.pmuId .spe)).isNone) (by decide +kernel)
    obtain ⟨hopen, hnone⟩ := Bool.and_eq_true_iff.mp hw
    refine ⟨w, hruns, hopen, fun h => ?_⟩
    obtain ⟨p, hp, -⟩ := h.one .spe hopen
    rw [hp] at hnone
    cases hnone

end PmuCollector
end OeAware

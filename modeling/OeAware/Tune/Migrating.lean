import Mathlib.Algebra.Order.Field.Rat
import OeAware.Common.Topic
import OeAware.Schemes.Container
import OeAware.Schemes.Loops

/-! @src src/plugin/tune/system/network/hardirq_tune/hardirq_tune.cpp |
    name:MigrateHardIrq, SortNumaCpuUtil | scheme:round-robin

    The interrupts of busy queues are bound to CPUs of the node where their packets are read, the first one
    to the least used CPU of the node, the next one to the next. Which is next is counted per node, but the
    count is taken modulo the number of nodes, not that of the node's CPUs.

        cpuSort[node]    c0  c1  c2  c3         newBindCnt[node] % numaNum
                         ▲   ▲                  0 1 0 1 0 ..                   with two nodes

    Utilisation is exact; where an index is beyond the end of a vector there is no result. -/

namespace OeAware
open Schemes

namespace NetHardIrq

def INVALID_CPU_ID : ℤ := -1

def NET_RXT_THRESHOLD : ℤ := 10

structure QueueInfo where
  queueId : ℤ
  irqId : ℤ
  rxSum : ℤ
  lastBindCpu : ℤ
  rxMaxNode : ℤ

def QueueInfo.new : QueueInfo := ⟨0, -1, 0, INVALID_CPU_ID, 0⟩

structure CpuSort where
  cpu : ℕ
  ratio : ℚ
  deriving DecidableEq

structure HardIrqMigUint where
  irqId : ℤ
  rxSum : ℤ
  queId : ℤ
  dev : Str
  lastBindCore : ℤ
  preferredNode : ℤ
  priority : Bool
  deriving DecidableEq

structure IrqInfo where
  lastAffinity : ℤ
  isTuned : Bool

/-- What of a CPU's time is not work. -/
structure CpuUtil where
  idle : ℚ
  irq : ℚ
  softirq : ℚ

structure State where
  netQueue : UMap Str (UMap ℤ QueueInfo)
  irqInfo : UMap ℤ IrqInfo
  numaNum : ℕ
  cpu2Numa : List ℤ
  cpuUtil : List CpuUtil

/-- `v[i]`. -/
def index {α : Type} (v : List α) (i : ℤ) : Option α := if 0 ≤ i then v[i.toNat]? else none

/-- `std::sort`: any order of the list in which nothing comes before what is to be before it. -/
def sort {α : Type} [DecidableEq α] (lt : α → α → Bool) (order l : List α) : List α :=
  if order.Perm l ∧ order.Pairwise (fun a b => lt b a = false) then order else l.mergeSort (fun a b => !lt b a)

/-- What the standard and the system leave open: the orders of both sorts, and whether the affinity of the
    `i`-th unit can be set. -/
structure Choice where
  units : List HardIrqMigUint
  cpus : ℕ → List CpuSort
  updated : ℕ → Bool

variable (s : State) (choice : Choice)

/-- The queues of all devices that have seen enough packets. -/
def busyQueues : List (Str × QueueInfo) :=
  s.netQueue.keys.flatMap (fun dev => (((s.netQueue.find dev).getD .empty).values.filter
    (fun info => decide (NET_RXT_THRESHOLD ≤ info.rxSum))).map (fun info => (dev, info)))

def migUnit (q : Str × QueueInfo) : Option HardIrqMigUint := do
  let priority ← if q.2.lastBindCpu = INVALID_CPU_ID then some false
    else (index s.cpu2Numa q.2.lastBindCpu).map (fun node => decide (node = q.2.rxMaxNode))
  return ⟨q.2.irqId, q.2.rxSum, q.2.queueId, q.1, q.2.lastBindCpu, q.2.rxMaxNode, priority⟩

/-- Those whose last CPU is right first, then by what they have received. -/
def HardIrqMigUint.lt (a b : HardIrqMigUint) : Bool :=
  if a.priority ≠ b.priority then a.priority else decide (a.rxSum > b.rxSum)

/-- One round of `SortNumaCpuUtil`. -/
def cpuRatio (p : ℤ × ℕ) : Option (ℕ × CpuSort) :=
  if 0 ≤ p.1 ∧ p.1 < s.numaNum then
    (s.cpuUtil[p.2]?).map (fun u => (p.1.toNat, ⟨p.2, 100 - u.idle - u.irq - u.softirq⟩))
  else none

def sortNumaCpuUtil : Option (List (List CpuSort)) := do
  let rst ← s.cpu2Numa.zipIdx.mapM (cpuRatio s)
  return (List.range s.numaNum).map (fun nid =>
    sort (fun a b => decide (a.ratio < b.ratio)) (choice.cpus nid)
      ((rst.filter (fun p => p.1 = nid)).map (·.2)))

/-- An interrupt that has been bound. -/
structure NewBind where
  irqId : ℤ
  node : ℤ
  cpu : ℕ
  deriving DecidableEq

/-- What is noted of it. -/
def noteBind (unit : HardIrqMigUint) (preferredCpu : ℕ) (s : State) : State :=
  let queues := (s.netQueue.find unit.dev).getD .empty
  let info := (queues.find unit.queId).getD .new
  { s with
    netQueue := s.netQueue.insert unit.dev (queues.insert unit.queId { info with lastBindCpu := preferredCpu })
    irqInfo := s.irqInfo.insert unit.irqId ⟨preferredCpu, true⟩ }

/-- The loop of `MigrateHardIrq`. -/
def bindUnits (cpuSort : List (List CpuSort)) : List (HardIrqMigUint × ℕ) → (ℤ → ℕ) → State →
    Option (List NewBind × State)
  | [], _, s => some ([], s)
  | (unit, i) :: units, newBindCnt, s => do
    let bound ← if unit.lastBindCore = -1 then some false
      else (index s.cpu2Numa unit.lastBindCore).map (fun node => decide (unit.preferredNode = node))
    if bound then bindUnits cpuSort units newBindCnt s
    else do
      let sortedList ← index cpuSort unit.preferredNode
      let preferred ← sortedList[newBindCnt unit.preferredNode % s.numaNum]?
      if choice.updated i then
        let (binds, s) ← bindUnits cpuSort units
          (Function.update newBindCnt unit.preferredNode (newBindCnt unit.preferredNode + 1))
          (noteBind unit preferred.cpu s)
        return (⟨unit.irqId, unit.preferredNode, preferred.cpu⟩ :: binds, s)
      else bindUnits cpuSort units newBindCnt s

/-- `MigrateHardIrq`: what is newly bound, and what is noted. -/
def migrateHardIrq : Option (List NewBind × State) := do
  let migUint ← (busyQueues s).mapM (migUnit s)
  let migUint := sort HardIrqMigUint.lt choice.units migUint
  let cpuSort ← sortNumaCpuUtil s choice
  bindUnits choice cpuSort migUint.zipIdx (fun _ => 0) s

/-! ### What is to come of it -/

/-- The CPUs of a node. -/
def cpusOf (node : ℤ) : List ℕ := (s.cpu2Numa.zipIdx.filter (fun p => p.1 = node)).map (·.2)

/-- What is left of its time by idling and interrupts, in percent. -/
def util (cpu : ℕ) : ℚ := ((s.cpuUtil[cpu]?).map (fun u => 100 - u.idle - u.irq - u.softirq)).getD 0

/-- How many of them are on the node. -/
def boundOn (binds : List NewBind) (node : ℤ) : ℕ := binds.countP (fun b => b.node = node)

/-- New interrupts are on their nodes; as long as a node has a CPU for each they are on different ones, which are
    taken in an order of increasing utilisation. -/
structure Spread (binds : List NewBind) : Prop where
  node : ∀ b ∈ binds, s.cpu2Numa[b.cpu]? = some b.node
  apart : ∀ pre b post, binds = pre ++ b :: post → boundOn pre b.node < (cpusOf s b.node).length →
    ∀ b' ∈ pre, b'.node = b.node → b'.cpu ≠ b.cpu
  order : ∀ node, ∃ order : List ℕ, order.Perm (cpusOf s node) ∧
    order.Pairwise (fun c c' => util s c ≤ util s c') ∧
    ∀ pre b post, binds = pre ++ b :: post → b.node = node → boundOn pre node < order.length →
      order[boundOn pre node]? = some b.cpu

/-- What is known of a queue, where its last CPU is one. -/
def unitOf (q : Str × QueueInfo) : HardIrqMigUint :=
  ⟨q.2.irqId, q.2.rxSum, q.2.queueId, q.1, q.2.lastBindCpu, q.2.rxMaxNode,
    decide (q.2.lastBindCpu ≠ INVALID_CPU_ID ∧ index s.cpu2Numa q.2.lastBindCpu = some q.2.rxMaxNode)⟩

/-- The units that are not where they should be, in the order in which they are tried. -/
def attempts : List (HardIrqMigUint × ℕ) :=
  (sort HardIrqMigUint.lt choice.units ((busyQueues s).map (unitOf s))).zipIdx.filter (fun p =>
    ¬ (p.1.lastBindCore ≠ -1 ∧ index s.cpu2Numa p.1.lastBindCore = some p.1.preferredNode))

/-- How many of some units are bound on a node. -/
def succeeded (units : List (HardIrqMigUint × ℕ)) (node : ℤ) : ℕ :=
  units.countP (fun p => decide (p.1.preferredNode = node) && choice.updated p.2)

/-- Every number is in its range; a node with fewer CPUs than there are nodes is not tried once each of them has an
    interrupt, and on one with more there are no more interrupts bound than there are nodes. -/
structure Placeable : Prop where
  nodes : ∀ node ∈ s.cpu2Numa, 0 ≤ node ∧ node < s.numaNum
  utils : s.cpu2Numa.length ≤ s.cpuUtil.length
  last : ∀ q ∈ busyQueues s, q.2.lastBindCpu = INVALID_CPU_ID ∨
    (0 ≤ q.2.lastBindCpu ∧ q.2.lastBindCpu < s.cpu2Numa.length)
  bounds : ∀ pre (p : HardIrqMigUint × ℕ) post, attempts s choice = pre ++ p :: post →
    (0 ≤ p.1.preferredNode ∧ p.1.preferredNode < s.numaNum) ∧
      (s.numaNum ≤ (cpusOf s p.1.preferredNode).length ∨
        succeeded choice pre p.1.preferredNode < (cpusOf s p.1.preferredNode).length)
  room : ∀ node, (cpusOf s node).length ≤ s.numaNum ∨ succeeded choice (attempts s choice) node ≤ s.numaNum

/-! ### Sorting -/

section
variable {s choice}

theorem sort_perm {α : Type} [DecidableEq α] (lt : α → α → Bool) (order l : List α) : (sort lt order l).Perm l := by
  unfold sort
  split
  · rename_i h
    exact h.1
  · exact List.mergeSort_perm l _

/-- Nothing comes before what is to be before it. -/
theorem sort_pairwise {α : Type} [DecidableEq α] {lt : α → α → Bool}
    (htrans : ∀ a b c, lt b a = false → lt c b = false → lt c a = false)
    (htotal : ∀ a b, lt b a = false ∨ lt a b = false) (order l : List α) :
    (sort lt order l).Pairwise (fun a b => lt b a = false) := by
  unfold sort
  split
  · rename_i h
    exact h.2
  · have h := @List.pairwise_mergeSort _ (fun a b => !lt b a)
      (fun a b c hab hbc => by simpa using htrans a b c (by simpa using hab) (by simpa using hbc))
      (fun a b => by simpa using htotal a b) l
    exact h.imp (fun hab => by simpa using hab)

theorem sort_ratio (order l : List CpuSort) :
    (sort (fun a b => decide (a.ratio < b.ratio)) order l).Pairwise (fun a b => a.ratio ≤ b.ratio) := by
  refine (sort_pairwise (fun a b c hab hbc => ?_) (fun a b => ?_) order l).imp (fun {a b} h => ?_)
  · simp only [decide_eq_false_iff_not, not_lt] at hab hbc ⊢
    exact hab.trans hbc
  · simp only [decide_eq_false_iff_not, not_lt]
    exact le_total a.ratio b.ratio
  · simpa using h

/-! ### Places in a vector -/

theorem index_eq_some {α : Type} {v : List α} {i : ℤ} {a : α} (h : index v i = some a) :
    0 ≤ i ∧ i < v.length := by
  unfold index at h
  split at h
  · rename_i hi
    obtain ⟨hlt, -⟩ := List.getElem?_eq_some_iff.mp h
    exact ⟨hi, by omega⟩
  · cases h

theorem exists_index {α : Type} {v : List α} {i : ℤ} (h : 0 ≤ i ∧ i < v.length) : ∃ a, index v i = some a := by
  have hlt : i.toNat < v.length := by omega
  exact ⟨v[i.toNat], by rw [index, if_pos h.1, List.getElem?_eq_getElem hlt]⟩

theorem migUnit_eq_some (q : Str × QueueInfo) (unit : HardIrqMigUint) : migUnit s q = some unit ↔
    (q.2.lastBindCpu = INVALID_CPU_ID ∨ (0 ≤ q.2.lastBindCpu ∧ q.2.lastBindCpu < s.cpu2Numa.length)) ∧
      unit = unitOf s q := by
  unfold migUnit
  by_cases hlast : q.2.lastBindCpu = INVALID_CPU_ID
  · simp [hlast, unitOf, eq_comm]
  · rw [if_neg hlast]
    by_cases hin : 0 ≤ q.2.lastBindCpu ∧ q.2.lastBindCpu < s.cpu2Numa.length
    · obtain ⟨node, hnode⟩ := exists_index hin
      simp [hlast, hin, hnode, unitOf, eq_comm]
    · cases hidx : index s.cpu2Numa q.2.lastBindCpu with
      | none => simp [hlast, hin]
      | some node => exact absurd (index_eq_some hidx) hin

theorem cpuRatio_eq_some (p : ℤ × ℕ) (r : ℕ × CpuSort) : cpuRatio s p = some r ↔
    ((0 ≤ p.1 ∧ p.1 < s.numaNum) ∧ p.2 < s.cpuUtil.length) ∧ r = (p.1.toNat, ⟨p.2, util s p.2⟩) := by
  unfold cpuRatio util
  by_cases hnode : 0 ≤ p.1 ∧ p.1 < s.numaNum
  · rw [if_pos hnode]
    by_cases hcpu : p.2 < s.cpuUtil.length
    · rw [List.getElem?_eq_getElem hcpu]
      simp [hnode, hcpu, eq_comm]
    · rw [List.getElem?_eq_none (not_lt.mp hcpu)]
      simp [hcpu]
  · rw [if_neg hnode]
    simp [hnode]

/-- The CPUs of a node in the order in which they are taken. -/
def taken (s : State) (choice : Choice) (nid : ℕ) : List CpuSort :=
  sort (fun a b => decide (a.ratio < b.ratio)) (choice.cpus nid) ((cpusOf s nid).map (fun cpu => ⟨cpu, util s cpu⟩))

theorem sortNumaCpuUtil_eq_some {lists : List (List CpuSort)} : sortNumaCpuUtil s choice = some lists ↔
    ((∀ node ∈ s.cpu2Numa, 0 ≤ node ∧ node < s.numaNum) ∧ s.cpu2Numa.length ≤ s.cpuUtil.length) ∧
      lists = (List.range s.numaNum).map (taken s choice) := by
  have hmap : ∀ rst, s.cpu2Numa.zipIdx.mapM (cpuRatio s) = some rst ↔ _ :=
    fun rst => mapM_eq_some_iff (cpuRatio_eq_some (s := s))
  have hrange : (∀ p ∈ s.cpu2Numa.zipIdx, (0 ≤ p.1 ∧ p.1 < s.numaNum) ∧ p.2 < s.cpuUtil.length) ↔
      (∀ node ∈ s.cpu2Numa, 0 ≤ node ∧ node < s.numaNum) ∧ s.cpu2Numa.length ≤ s.cpuUtil.length := by
    constructor
    · intro h
      refine ⟨fun node hnode => ?_, ?_⟩
      · obtain ⟨i, hi⟩ := List.mem_iff_getElem?.mp hnode
        exact (h (node, i) (List.mk_mem_zipIdx_iff_getElem?.mpr hi)).1
      · by_contra hlen
        have hlt : s.cpuUtil.length < s.cpu2Numa.length := not_le.mp hlen
        have := (h (s.cpu2Numa[s.cpuUtil.length], s.cpuUtil.length)
          (List.mk_mem_zipIdx_iff_getElem?.mpr (List.getElem?_eq_getElem hlt))).2
        exact absurd this (lt_irrefl _)
    · rintro ⟨hnodes, hlen⟩ p hp
      have hget := List.mk_mem_zipIdx_iff_getElem?.mp hp
      obtain ⟨hlt, -⟩ := List.getElem?_eq_some_iff.mp hget
      exact ⟨hnodes p.1 (List.mem_of_getElem? hget), by omega⟩
  have hlists : ∀ nid : ℕ, nid < s.numaNum → (∀ node ∈ s.cpu2Numa, 0 ≤ node ∧ node < s.numaNum) →
      (((s.cpu2Numa.zipIdx.map (fun p => (p.1.toNat, (⟨p.2, util s p.2⟩ : CpuSort)))).filter
        (fun p => p.1 = nid)).map (·.2)) = (cpusOf s nid).map (fun cpu => ⟨cpu, util s cpu⟩) := by
    intro nid _ hnodes
    rw [cpusOf, List.filter_map, List.map_map, List.map_map]
    have hfilter : s.cpu2Numa.zipIdx.filter ((fun p : ℕ × CpuSort => decide (p.1 = nid)) ∘
        fun p => (p.1.toNat, ⟨p.2, util s p.2⟩)) = s.cpu2Numa.zipIdx.filter (fun p => decide (p.1 = (nid : ℤ))) := by
      refine List.filter_congr (fun p hp => ?_)
      have hget := List.mk_mem_zipIdx_iff_getElem?.mp hp
      have hpos := (hnodes p.1 (List.mem_of_getElem? hget)).1
      simp only [Function.comp_apply, decide_eq_decide]
      omega
    rw [hfilter]
    rfl
  unfold sortNumaCpuUtil
  rw [Option.bind_eq_bind, Option.bind_eq_some_iff, ← hrange]
  constructor
  · rintro ⟨rst, hrst, hret⟩
    obtain ⟨hall, rfl⟩ := (hmap _).mp hrst
    refine ⟨hall, ?_⟩
    cases hret
    refine List.map_congr_left (fun nid hnid => ?_)
    rw [taken, hlists nid (List.mem_range.mp hnid) (hrange.mp hall).1]
  · rintro ⟨hall, rfl⟩
    refine ⟨_, (hmap _).mpr ⟨hall, rfl⟩, ?_⟩
    rw [Option.pure_def, Option.some.injEq]
    refine List.map_congr_left (fun nid hnid => ?_)
    rw [taken, hlists nid (List.mem_range.mp hnid) (hrange.mp hall).1]

/-! ### The loop -/

/-- What is to be said at each place of a list. -/
theorem forall_split_cons {α : Type} {a : α} {l : List α} {P : List α → α → Prop} :
    (∀ pre x post, a :: l = pre ++ x :: post → P pre x) ↔
      P [] a ∧ ∀ pre x post, l = pre ++ x :: post → P (a :: pre) x := by
  constructor
  · intro h
    exact ⟨h [] a l rfl, fun pre x post hl => h (a :: pre) x post (by rw [hl]; rfl)⟩
  · rintro ⟨ha, hl⟩ pre x post heq
    cases pre with
    | nil =>
      cases heq
      exact ha
    | cons y pre =>
      cases heq
      exact hl pre x post rfl

/-- The CPU with the least utilisation comes first, and each of a node's CPUs is there. -/
theorem length_taken (nid : ℕ) : (taken s choice nid).length = (cpusOf s nid).length := by
  rw [taken, (sort_perm _ _ _).length_eq, List.length_map]

theorem index_taken {node : ℤ} (h : 0 ≤ node ∧ node < s.numaNum) :
    index ((List.range s.numaNum).map (taken s choice)) node = some (taken s choice node.toNat) := by
  have hlt : node.toNat < s.numaNum := by omega
  rw [index, if_pos h.1, List.getElem?_map, List.getElem?_range hlt]
  rfl

/-- The unit is tried. -/
def Tried (s : State) (p : HardIrqMigUint × ℕ) : Prop :=
  ¬ (p.1.lastBindCore ≠ -1 ∧ index s.cpu2Numa p.1.lastBindCore = some p.1.preferredNode)

instance (s : State) (p : HardIrqMigUint × ℕ) : Decidable (Tried s p) := inferInstanceAs (Decidable (¬ _))

theorem bindUnits_cons {lists : List (List CpuSort)} {p : HardIrqMigUint × ℕ} {ps : List (HardIrqMigUint × ℕ)}
    {cnt : ℤ → ℕ} {s' : State} (hcpu : s'.cpu2Numa = s.cpu2Numa)
    (hlast : p.1.lastBindCore = -1 ∨ (0 ≤ p.1.lastBindCore ∧ p.1.lastBindCore < s.cpu2Numa.length)) :
    bindUnits choice lists (p :: ps) cnt s' =
      if ¬ Tried s p then bindUnits choice lists ps cnt s'
      else (index lists p.1.preferredNode).bind (fun sortedList =>
        (sortedList[cnt p.1.preferredNode % s'.numaNum]?).bind (fun preferred =>
          if choice.updated p.2 then
            (bindUnits choice lists ps (Function.update cnt p.1.preferredNode (cnt p.1.preferredNode + 1))
              (noteBind p.1 preferred.cpu s')).bind
                (fun r => some (⟨p.1.irqId, p.1.preferredNode, preferred.cpu⟩ :: r.1, r.2))
          else bindUnits choice lists ps cnt s')) := by
  obtain ⟨unit, i⟩ := p
  rw [bindUnits, hcpu]
  by_cases hneg : unit.lastBindCore = -1
  · have htried : Tried s (unit, i) := fun h => h.1 hneg
    rw [if_pos hneg, if_neg (not_not.mpr htried)]
    simp
  · obtain ⟨node, hnode⟩ := exists_index (hlast.resolve_left hneg)
    rw [if_neg hneg, hnode]
    by_cases hsame : unit.preferredNode = node
    · have htried : ¬ Tried s (unit, i) := fun h => h ⟨hneg, by rw [hnode, hsame]⟩
      rw [if_pos htried]
      simp [hsame]
    · have htried : Tried s (unit, i) := fun h => hsame (Option.some_inj.mp (h.2.symm.trans hnode))
      rw [if_neg (not_not.mpr htried)]
      simp [hsame]

/-- What has been counted of a node's interrupts does not run past its CPUs, if it could. -/
def Counted (s : State) (cnt : ℤ → ℕ) : Prop :=
  ∀ node, s.numaNum ≤ (cpusOf s node).length ∨ cnt node ≤ (cpusOf s node).length

/-- Where a unit is tried, there is a CPU for it. -/
def Fits (s : State) (node : ℤ) (k : ℕ) : Prop :=
  (0 ≤ node ∧ node < s.numaNum) ∧
    (s.numaNum ≤ (cpusOf s node).length ∨ k < (cpusOf s node).length)

theorem fits_iff (choice : Choice) {node : ℤ} {cnt : ℤ → ℕ} (hcnt : Counted s cnt) : Fits s node (cnt node) ↔
    ∃ sortedList, index ((List.range s.numaNum).map (taken s choice)) node = some sortedList ∧
      ∃ preferred, sortedList[cnt node % s.numaNum]? = some preferred := by
  constructor
  · rintro ⟨hnode, hroom⟩
    refine ⟨_, index_taken hnode, ?_⟩
    have hlt : cnt node % s.numaNum < (taken s choice node.toNat).length := by
      have hmod : cnt node % s.numaNum < s.numaNum := Nat.mod_lt _ (by omega)
      rw [length_taken, Int.toNat_of_nonneg hnode.1]
      rcases hroom with h | h
      · omega
      · exact Nat.lt_of_le_of_lt (Nat.mod_le _ _) h
    exact ⟨_, List.getElem?_eq_getElem hlt⟩
  · rintro ⟨sortedList, hlist, preferred, hcpu⟩
    have hnode := index_eq_some hlist
    rw [List.length_map, List.length_range] at hnode
    rw [index_taken hnode] at hlist
    cases hlist
    obtain ⟨hlt, -⟩ := List.getElem?_eq_some_iff.mp hcpu
    rw [length_taken, Int.toNat_of_nonneg hnode.1] at hlt
    refine ⟨hnode, ?_⟩
    rcases hcnt node with h | h
    · exact .inl h
    · by_contra hno
      rw [not_or, not_le, not_lt] at hno
      -- the count has just reached the number of its CPUs, which is below the modulus
      have heq : cnt node = (cpusOf s node).length := le_antisymm h hno.2
      rw [heq, Nat.mod_eq_of_lt hno.1] at hlt
      exact absurd hlt (lt_irrefl _)

theorem succeeded_cons (p : HardIrqMigUint × ℕ) (ps : List (HardIrqMigUint × ℕ)) (node : ℤ) :
    succeeded choice (p :: ps) node =
      succeeded choice ps node + if p.1.preferredNode = node ∧ choice.updated p.2 = true then 1 else 0 := by
  unfold succeeded
  rw [List.countP_cons]
  simp only [Bool.and_eq_true, decide_eq_true_eq]

theorem Counted.next {cnt : ℤ → ℕ} {node : ℤ} (hcnt : Counted s cnt) (hfit : Fits s node (cnt node)) :
    Counted s (Function.update cnt node (cnt node + 1)) := by
  intro x
  by_cases hx : x = node
  · subst hx
    rw [Function.update_self]
    exact hfit.2
  · rw [Function.update_of_ne hx]
    exact hcnt x

/-- One more has been bound on a node, or none. -/
theorem count_next {cnt : ℤ → ℕ} {p : HardIrqMigUint × ℕ} (hupd : choice.updated p.2 = true)
    (pre : List (HardIrqMigUint × ℕ)) (node : ℤ) :
    Function.update cnt p.1.preferredNode (cnt p.1.preferredNode + 1) node + succeeded choice pre node =
      cnt node + succeeded choice (p :: pre) node := by
  rw [succeeded_cons]
  by_cases hnode : node = p.1.preferredNode
  · subst hnode
    rw [Function.update_self, if_pos ⟨rfl, hupd⟩]
    omega
  · rw [Function.update_of_ne hnode, if_neg (fun h => hnode h.1.symm), Nat.add_zero]

theorem count_same {p : HardIrqMigUint × ℕ} (hupd : choice.updated p.2 = false)
    (pre : List (HardIrqMigUint × ℕ)) (node : ℤ) :
    succeeded choice (p :: pre) node = succeeded choice pre node := by
  rw [succeeded_cons, if_neg (fun h => by rw [hupd] at h; cases h.2), Nat.add_zero]

theorem isSome_bind_some {α β : Type} (x : Option α) (f : α → β) :
    (x.bind (fun a => some (f a))).isSome = x.isSome := by
  cases x <;> rfl

/-- The loop has a result if there is a CPU wherever one is tried. -/
theorem bindUnits_isSome : ∀ {ps : List (HardIrqMigUint × ℕ)} {cnt : ℤ → ℕ} {s' : State},
    s'.cpu2Numa = s.cpu2Numa → s'.numaNum = s.numaNum →
    (∀ p ∈ ps, p.1.lastBindCore = -1 ∨ (0 ≤ p.1.lastBindCore ∧ p.1.lastBindCore < s.cpu2Numa.length)) →
    Counted s cnt →
    ((bindUnits choice ((List.range s.numaNum).map (taken s choice)) ps cnt s').isSome = true ↔
      ∀ pre p post, ps.filter (fun p => decide (Tried s p)) = pre ++ p :: post →
        Fits s p.1.preferredNode (cnt p.1.preferredNode + succeeded choice pre p.1.preferredNode))
  | [], cnt, s', _, _, _, _ => by simp [bindUnits]
  | p :: ps, cnt, s', hcpu, hnum, hlast, hcnt => by
    obtain ⟨hlast1, hlast⟩ := List.forall_mem_cons.mp hlast
    rw [bindUnits_cons hcpu hlast1]
    by_cases htried : Tried s p
    · rw [if_neg (not_not.mpr htried), List.filter_cons, if_pos (decide_eq_true htried), forall_split_cons, hnum]
      have hnone : succeeded choice [] p.1.preferredNode = 0 := rfl
      rw [hnone, Nat.add_zero (cnt p.1.preferredNode)]
      by_cases hfit : Fits s p.1.preferredNode (cnt p.1.preferredNode)
      · obtain ⟨sortedList, hlist, preferred, hpref⟩ := (fits_iff choice hcnt).mp hfit
        rw [hlist, Option.bind_some, hpref, Option.bind_some, and_iff_right hfit]
        cases hupd : choice.updated p.2 with
        | true =>
          have hcpu' : (noteBind p.1 preferred.cpu s').cpu2Numa = s.cpu2Numa := hcpu
          rw [if_pos rfl, isSome_bind_some, bindUnits_isSome hcpu' hnum hlast (hcnt.next hfit)]
          simp only [count_next hupd]
        | false =>
          rw [if_neg Bool.false_ne_true, bindUnits_isSome hcpu hnum hlast hcnt]
          simp only [count_same hupd]
      · refine iff_of_false (fun hsome => hfit ((fits_iff choice hcnt).mpr ?_)) (fun h => hfit h.1)
        cases hlist : index ((List.range s.numaNum).map (taken s choice)) p.1.preferredNode with
        | none =>
          rw [hlist] at hsome
          cases hsome
        | some sortedList =>
          cases hpref : sortedList[cnt p.1.preferredNode % s.numaNum]? with
          | none =>
            rw [hlist, Option.bind_some, hpref] at hsome
            cases hsome
          | some preferred => exact ⟨sortedList, rfl, preferred, hpref⟩
    · rw [if_pos htried, List.filter_cons, if_neg (by simpa using htried)]
      exact bindUnits_isSome hcpu hnum hlast hcnt

theorem boundOn_cons (b : NewBind) (binds : List NewBind) (node : ℤ) :
    boundOn (b :: binds) node = boundOn binds node + if b.node = node then 1 else 0 := by
  unfold boundOn
  rw [List.countP_cons]
  simp only [decide_eq_true_eq]

/-- The count, modulo the number of nodes, says which CPU is taken. -/
theorem bindUnits_binds : ∀ {ps : List (HardIrqMigUint × ℕ)} {cnt : ℤ → ℕ} {s' s'' : State} {binds : List NewBind},
    s'.cpu2Numa = s.cpu2Numa → s'.numaNum = s.numaNum →
    (∀ p ∈ ps, p.1.lastBindCore = -1 ∨ (0 ≤ p.1.lastBindCore ∧ p.1.lastBindCore < s.cpu2Numa.length)) →
    bindUnits choice ((List.range s.numaNum).map (taken s choice)) ps cnt s' = some (binds, s'') →
    (∀ node, boundOn binds node = succeeded choice (ps.filter (fun p => decide (Tried s p))) node) ∧
      ∀ pre (b : NewBind) post, binds = pre ++ b :: post → (0 ≤ b.node ∧ b.node < s.numaNum) ∧
        ((taken s choice b.node.toNat)[(cnt b.node + boundOn pre b.node) % s.numaNum]?).map (·.cpu) = some b.cpu
  | [], cnt, s', s'', binds, _, _, _, h => by
    rw [bindUnits] at h
    cases h
    exact ⟨fun _ => rfl, fun pre b post hb => by simp at hb⟩
  | p :: ps, cnt, s', s'', binds, hcpu, hnum, hlast, h => by
    obtain ⟨hlast1, hlast⟩ := List.forall_mem_cons.mp hlast
    rw [bindUnits_cons hcpu hlast1] at h
    by_cases htried : Tried s p
    · rw [if_neg (not_not.mpr htried), Option.bind_eq_some_iff] at h
      obtain ⟨sortedList, hlist, h⟩ := h
      rw [Option.bind_eq_some_iff] at h
      obtain ⟨preferred, hpref, h⟩ := h
      have hnode := index_eq_some hlist
      rw [List.length_map, List.length_range] at hnode
      rw [index_taken hnode] at hlist
      cases hlist
      rw [List.filter_cons, if_pos (decide_eq_true htried)]
      cases hupd : choice.updated p.2 with
      | true =>
        rw [hupd, if_pos rfl, Option.bind_eq_some_iff] at h
        obtain ⟨⟨rest, s1⟩, hrest, h⟩ := h
        cases h
        have hcpu' : (noteBind p.1 preferred.cpu s').cpu2Numa = s.cpu2Numa := hcpu
        obtain ⟨hcount, hplaces⟩ := bindUnits_binds hcpu' hnum hlast hrest
        refine ⟨fun node => ?_, ?_⟩
        · rw [boundOn_cons, succeeded_cons, hcount]
          simp only [hupd, and_true]
        refine forall_split_cons.mpr ⟨⟨hnode, ?_⟩, fun pre b post hb => ?_⟩
        · have hnone : boundOn [] p.1.preferredNode = 0 := rfl
          rw [hnone, Nat.add_zero, ← hnum, hpref]
          rfl
        · obtain ⟨hb1, hb2⟩ := hplaces pre b post hb
          refine ⟨hb1, ?_⟩
          rw [← hb2, boundOn_cons]
          by_cases hsame : b.node = p.1.preferredNode
          · rw [hsame, Function.update_self, if_pos rfl, Nat.add_assoc, Nat.add_comm 1]
          · rw [Function.update_of_ne hsame, if_neg (fun h => hsame h.symm), Nat.add_zero]
      | false =>
        rw [hupd, if_neg Bool.false_ne_true] at h
        obtain ⟨hcount, hplaces⟩ := bindUnits_binds hcpu hnum hlast h
        exact ⟨fun node => by rw [hcount, count_same hupd], hplaces⟩
    · rw [if_pos htried] at h
      rw [List.filter_cons, if_neg (by simpa using htried)]
      exact bindUnits_binds hcpu hnum hlast h

theorem mem_cpusOf {node : ℤ} {cpu : ℕ} : cpu ∈ cpusOf s node ↔ s.cpu2Numa[cpu]? = some node := by
  unfold cpusOf
  simp only [List.mem_map, List.mem_filter, decide_eq_true_eq, Prod.exists, List.mk_mem_zipIdx_iff_getElem?]
  constructor
  · rintro ⟨n, c, ⟨hget, rfl⟩, rfl⟩
    exact hget
  · intro h
    exact ⟨node, cpu, ⟨h, rfl⟩, rfl⟩

theorem nodup_cpusOf (node : ℤ) : (cpusOf s node).Nodup := by
  have hsub : (cpusOf s node).Sublist (s.cpu2Numa.zipIdx.map (·.2)) := List.filter_sublist.map _
  rw [List.zipIdx_map_snd] at hsub
  exact hsub.nodup List.nodup_range'

theorem perm_taken (node : ℕ) : ((taken s choice node).map (·.cpu)).Perm (cpusOf s node) := by
  have h := (sort_perm (fun a b => decide (a.ratio < b.ratio)) (choice.cpus node)
    ((cpusOf s node).map (fun cpu => ⟨cpu, util s cpu⟩))).map (·.cpu)
  rw [List.map_map] at h
  exact h.trans (.of_eq (List.map_id _))

theorem pairwise_taken (node : ℕ) :
    ((taken s choice node).map (·.cpu)).Pairwise (fun c c' => util s c ≤ util s c') := by
  rw [List.pairwise_map]
  refine (sort_ratio (choice.cpus node) _).imp_of_mem (fun {a b} ha hb h => ?_)
  have hutil : ∀ {x}, x ∈ taken s choice node → x.ratio = util s x.cpu := by
    intro x hx
    obtain ⟨c, -, rfl⟩ := List.mem_map.mp ((sort_perm _ _ _).mem_iff.mp hx)
    rfl
  rw [← hutil ha, ← hutil hb]
  exact h

/-- A list has a place for each number of its elements of a kind. -/
theorem exists_split {α : Type} {p : α → Bool} : ∀ {l : List α} {n : ℕ}, n < l.countP p →
    ∃ pre x post, l = pre ++ x :: post ∧ p x = true ∧ pre.countP p = n
  | [], _, h => by simp at h
  | a :: l, n, h => by
    cases hp : p a with
    | false =>
      rw [List.countP_cons_of_neg (by simp [hp])] at h
      obtain ⟨pre, x, post, rfl, hx, hn⟩ := exists_split h
      exact ⟨a :: pre, x, post, rfl, hx, by rwa [List.countP_cons_of_neg (by simp [hp])]⟩
    | true =>
      cases n with
      | zero => exact ⟨[], a, l, rfl, hp, rfl⟩
      | succ n =>
        rw [List.countP_cons_of_pos hp] at h
        obtain ⟨pre, x, post, rfl, hx, hn⟩ := exists_split (by omega : n < l.countP p)
        exact ⟨a :: pre, x, post, rfl, hx, by rw [List.countP_cons_of_pos hp, hn]⟩

/-! ### Where they are spread -/

theorem migrateHardIrq_eq (h : ∀ q ∈ busyQueues s, q.2.lastBindCpu = INVALID_CPU_ID ∨
      (0 ≤ q.2.lastBindCpu ∧ q.2.lastBindCpu < s.cpu2Numa.length))
    (hcpus : (∀ node ∈ s.cpu2Numa, 0 ≤ node ∧ node < s.numaNum) ∧ s.cpu2Numa.length ≤ s.cpuUtil.length) :
    migrateHardIrq s choice = bindUnits choice ((List.range s.numaNum).map (taken s choice))
      (sort HardIrqMigUint.lt choice.units ((busyQueues s).map (unitOf s))).zipIdx (fun _ => 0) s := by
  unfold migrateHardIrq
  rw [(mapM_eq_some_iff migUnit_eq_some).mpr ⟨h, rfl⟩, sortNumaCpuUtil_eq_some.mpr ⟨hcpus, rfl⟩]
  rfl

theorem last_of_units (h : ∀ q ∈ busyQueues s, q.2.lastBindCpu = INVALID_CPU_ID ∨
      (0 ≤ q.2.lastBindCpu ∧ q.2.lastBindCpu < s.cpu2Numa.length)) :
    ∀ p ∈ (sort HardIrqMigUint.lt choice.units ((busyQueues s).map (unitOf s))).zipIdx,
      p.1.lastBindCore = -1 ∨ (0 ≤ p.1.lastBindCore ∧ p.1.lastBindCore < s.cpu2Numa.length) := by
  intro p hp
  have hmem := List.mem_of_getElem? (List.mk_mem_zipIdx_iff_getElem?.mp hp)
  obtain ⟨q, hq, heq⟩ := List.mem_map.mp ((sort_perm _ _ _).mem_iff.mp hmem)
  rw [← heq]
  exact h q hq

theorem counted_zero (s : State) : Counted s (fun _ => 0) := fun _ => .inr (Nat.zero_le _)

/-- Two of a node's interrupts on the same place in the list are on the same CPU. -/
theorem room_of_spread {binds : List NewBind} (hspread : Spread s binds)
    (hplaces : ∀ pre (b : NewBind) post, binds = pre ++ b :: post → (0 ≤ b.node ∧ b.node < s.numaNum) ∧
      ((taken s choice b.node.toNat)[(0 + boundOn pre b.node) % s.numaNum]?).map (·.cpu) = some b.cpu)
    (node : ℤ) : (cpusOf s node).length ≤ s.numaNum ∨ boundOn binds node ≤ s.numaNum := by
  by_contra hno
  rw [not_or, not_le, not_le] at hno
  obtain ⟨pre, b, post, hbinds, hb, hcount⟩ := exists_split (p := fun b : NewBind => decide (b.node = node)) hno.2
  have hb := of_decide_eq_true hb
  subst hb
  obtain ⟨hrange, hplace⟩ := hplaces pre b post hbinds
  have hpos : 0 < s.numaNum := by omega
  have hcount' : boundOn pre b.node = s.numaNum := hcount
  obtain ⟨pre', b', post', hpre, hb', hcount0⟩ :=
    exists_split (p := fun x : NewBind => decide (x.node = b.node)) (l := pre) (n := 0) (by rw [hcount]; exact hpos)
  have hb' := of_decide_eq_true hb'
  have hbinds' : binds = pre' ++ b' :: (post' ++ b :: post) := by
    rw [hbinds, hpre]
    simp
  obtain ⟨-, hplace'⟩ := hplaces pre' b' _ hbinds'
  have hcount0' : boundOn pre' b'.node = 0 := by
    rw [hb']
    exact hcount0
  rw [hcount', Nat.zero_add, Nat.mod_self] at hplace
  rw [hcount0', hb', Nat.zero_add, Nat.zero_mod, hplace] at hplace'
  have hne := hspread.apart pre b post hbinds (by rw [hcount']; exact hno.1) b'
    (by rw [hpre]; exact List.mem_append_right _ List.mem_cons_self) hb'
  exact hne (Option.some_inj.mp hplace').symm

/-- Where there is room the count, modulo the number of nodes, is the count. -/
theorem spread_of_room {binds : List NewBind}
    (hplaces : ∀ pre (b : NewBind) post, binds = pre ++ b :: post → (0 ≤ b.node ∧ b.node < s.numaNum) ∧
      ((taken s choice b.node.toNat)[(0 + boundOn pre b.node) % s.numaNum]?).map (·.cpu) = some b.cpu)
    (hroom : ∀ node, (cpusOf s node).length ≤ s.numaNum ∨ boundOn binds node ≤ s.numaNum) : Spread s binds := by
  have hget : ∀ pre (b : NewBind) post, binds = pre ++ b :: post →
      boundOn pre b.node < (cpusOf s b.node).length →
      ((taken s choice b.node.toNat).map (·.cpu))[boundOn pre b.node]? = some b.cpu := by
    intro pre b post hb hlt
    obtain ⟨hrange, hplace⟩ := hplaces pre b post hb
    have hmod : boundOn pre b.node < s.numaNum := by
      rcases hroom b.node with h | h
      · omega
      · have hall : boundOn pre b.node < boundOn binds b.node := by
          rw [hb, boundOn, boundOn, List.countP_append, List.countP_cons_of_pos (by simp)]
          omega
        omega
    rw [Nat.zero_add, Nat.mod_eq_of_lt hmod] at hplace
    rwa [List.getElem?_map]
  refine ⟨fun b hb => ?_, fun pre b post hb hlt b' hb' hnode => ?_, fun node => ?_⟩
  · obtain ⟨pre, post, rfl⟩ := List.append_of_mem hb
    obtain ⟨hrange, hplace⟩ := hplaces pre b post rfl
    rw [← List.getElem?_map] at hplace
    have hmem := (perm_taken b.node.toNat).mem_iff.mp (List.mem_of_getElem? hplace)
    rwa [mem_cpusOf, Int.toNat_of_nonneg hrange.1] at hmem
  · obtain ⟨pre', post', rfl⟩ := List.append_of_mem hb'
    have hless : boundOn pre' b'.node < boundOn (pre' ++ b' :: post') b.node := by
      rw [hnode, boundOn, boundOn, List.countP_append, List.countP_cons_of_pos (by simpa using hnode)]
      omega
    have h1 := hget _ b post hb hlt
    have h2 := hget pre' b' (post' ++ b :: post) (by rw [hb]; simp) (by rw [hnode] at hless ⊢; omega)
    rw [hnode] at h2 hless
    intro hcpu
    rw [hcpu] at h2
    have hnd : ((taken s choice b.node.toNat).map (·.cpu)).Nodup :=
      (perm_taken b.node.toNat).nodup_iff.mpr (nodup_cpusOf _)
    obtain ⟨hbound, -⟩ := List.getElem?_eq_some_iff.mp h2
    have := (List.getElem?_inj hbound hnd).mp (h2.trans h1.symm)
    omega
  · by_cases hrange : 0 ≤ node
    · refine ⟨(taken s choice node.toNat).map (·.cpu), ?_, pairwise_taken _, fun pre b post hb hnode hlt => ?_⟩
      · have : ((taken s choice node.toNat).map (·.cpu)).Perm _ := perm_taken node.toNat
        rwa [Int.toNat_of_nonneg hrange] at this
      · subst hnode
        rw [List.length_map, length_taken, Int.toNat_of_nonneg hrange] at hlt
        exact hget pre b post hb hlt
    · -- nothing is bound there
      refine ⟨(cpusOf s node).mergeSort (fun c c' => decide (util s c ≤ util s c')), List.mergeSort_perm _ _,
        (List.pairwise_mergeSort (fun a b c hab hbc => ?_) (fun a b => ?_) _).imp (fun h => of_decide_eq_true h),
        fun pre b post hb hnode _ => ?_⟩
      · exact decide_eq_true ((of_decide_eq_true hab).trans (of_decide_eq_true hbc))
      · simpa using le_total (util s a) (util s b)
      · rw [← hnode] at hrange
        exact absurd (hplaces pre b post hb).1.1 hrange

theorem ranges_of_migrated {binds : List NewBind} {s' : State} (h : migrateHardIrq s choice = some (binds, s')) :
    (∀ q ∈ busyQueues s, q.2.lastBindCpu = INVALID_CPU_ID ∨
      (0 ≤ q.2.lastBindCpu ∧ q.2.lastBindCpu < s.cpu2Numa.length)) ∧
      (∀ node ∈ s.cpu2Numa, 0 ≤ node ∧ node < s.numaNum) ∧ s.cpu2Numa.length ≤ s.cpuUtil.length := by
  unfold migrateHardIrq at h
  rw [Option.bind_eq_bind, Option.bind_eq_some_iff] at h
  obtain ⟨units, hunits, h⟩ := h
  rw [Option.bind_eq_bind, Option.bind_eq_some_iff] at h
  obtain ⟨lists, hlists, -⟩ := h
  exact ⟨((mapM_eq_some_iff migUnit_eq_some).mp hunits).1, (sortNumaCpuUtil_eq_some.mp hlists).1⟩

/-- The units' places are what there has to be room for. -/
theorem bounds_iff (hlast : ∀ q ∈ busyQueues s, q.2.lastBindCpu = INVALID_CPU_ID ∨
      (0 ≤ q.2.lastBindCpu ∧ q.2.lastBindCpu < s.cpu2Numa.length))
    (hcpus : (∀ node ∈ s.cpu2Numa, 0 ≤ node ∧ node < s.numaNum) ∧ s.cpu2Numa.length ≤ s.cpuUtil.length) :
    (migrateHardIrq s choice).isSome = true ↔
      ∀ pre (p : HardIrqMigUint × ℕ) post, attempts s choice = pre ++ p :: post →
        Fits s p.1.preferredNode (succeeded choice pre p.1.preferredNode) := by
  rw [migrateHardIrq_eq hlast hcpus, bindUnits_isSome rfl rfl (last_of_units hlast) (counted_zero s)]
  simp only [Nat.zero_add]
  exact Iff.rfl

theorem migrated_binds {binds : List NewBind} {s' : State} (h : migrateHardIrq s choice = some (binds, s')) :
    (∀ node, boundOn binds node = succeeded choice (attempts s choice) node) ∧
      ∀ pre (b : NewBind) post, binds = pre ++ b :: post → (0 ≤ b.node ∧ b.node < s.numaNum) ∧
        ((taken s choice b.node.toNat)[(0 + boundOn pre b.node) % s.numaNum]?).map (·.cpu) = some b.cpu := by
  obtain ⟨hlast, hcpus⟩ := ranges_of_migrated h
  rw [migrateHardIrq_eq hlast hcpus] at h
  exact bindUnits_binds rfl rfl (last_of_units hlast) h

/-- **SPREAD WHERE THERE IS ROOM.** The loop stays in bounds and spreads what it binds over the CPUs of each node
    exactly where no node is tried past its CPUs and none with more CPUs than there are nodes gets more interrupts
    than there are nodes. -/
theorem spread_iff (s : State) (choice : Choice) :
    (∃ binds s', migrateHardIrq s choice = some (binds, s') ∧ Spread s binds) ↔ Placeable s choice := by
  constructor
  · rintro ⟨binds, s', h, hspread⟩
    obtain ⟨hlast, hnodes, hutils⟩ := ranges_of_migrated h
    obtain ⟨hcount, hplaces⟩ := migrated_binds h
    refine ⟨hnodes, hutils, hlast, ?_, fun node => ?_⟩
    · exact (bounds_iff hlast ⟨hnodes, hutils⟩).mp (by rw [h]; rfl)
    · have hroom := room_of_spread hspread hplaces node
      rwa [hcount] at hroom
  · intro hplaceable
    have hcpus := And.intro hplaceable.nodes hplaceable.utils
    obtain ⟨⟨binds, s'⟩, h⟩ := Option.isSome_iff_exists.mp ((bounds_iff hplaceable.last hcpus).mpr hplaceable.bounds)
    obtain ⟨hcount, hplaces⟩ := migrated_binds h
    refine ⟨binds, s', h, spread_of_room hplaces (fun node => ?_)⟩
    rw [hcount]
    exact hplaceable.room node

end

/-- Two nodes; the first has four CPUs, and the packets of three queues are read there. -/
def sampleBusy : State where
  netQueue := (UMap.empty : UMap Str (UMap ℤ QueueInfo)).insert (str "eth0")
    ((((UMap.empty : UMap ℤ QueueInfo).insert 0 ⟨0, 100, 30, INVALID_CPU_ID, 0⟩).insert 1
      ⟨1, 101, 20, INVALID_CPU_ID, 0⟩).insert 2 ⟨2, 102, 10, INVALID_CPU_ID, 0⟩)
  irqInfo := .empty
  numaNum := 2
  cpu2Numa := [0, 0, 0, 0, 1]
  cpuUtil := [⟨90, 0, 0⟩, ⟨80, 0, 0⟩, ⟨70, 0, 0⟩, ⟨60, 0, 0⟩, ⟨50, 0, 0⟩]

def sampleChoice : Choice where
  units := [⟨100, 30, 0, str "eth0", -1, 0, false⟩, ⟨101, 20, 1, str "eth0", -1, 0, false⟩,
    ⟨102, 10, 2, str "eth0", -1, 0, false⟩]
  cpus nid := if nid = 0 then [⟨0, 10⟩, ⟨1, 20⟩, ⟨2, 30⟩, ⟨3, 40⟩] else [⟨4, 50⟩]
  updated _ := true

theorem sampleBusy_binds : (migrateHardIrq sampleBusy sampleChoice).map (·.1) =
    some [⟨100, 0, 0⟩, ⟨101, 0, 1⟩, ⟨102, 0, 0⟩] := by
  decide +kernel

/-- The third gets the CPU of the first while two others have none. -/
theorem not_spread_third : ¬ ∃ binds s', migrateHardIrq sampleBusy sampleChoice = some (binds, s') ∧
    Spread sampleBusy binds := by
  rintro ⟨binds, s', h, hspread⟩
  have hbinds : some binds = some [⟨100, 0, 0⟩, ⟨101, 0, 1⟩, ⟨102, 0, 0⟩] := by
    rw [← sampleBusy_binds, h]
    rfl
  refine hspread.apart [⟨100, 0, 0⟩, ⟨101, 0, 1⟩] ⟨102, 0, 0⟩ [] (Option.some_inj.mp hbinds) (by decide)
    ⟨100, 0, 0⟩ List.mem_cons_self rfl rfl

end NetHardIrq
end OeAware

import OeAware.Schemes.Loops
import OeAware.Schemes.Restore
import OeAware.Schemes.Run
import OeAware.Tune.BinaryTune
import OeAware.Tune.RealtimeSwitches

/-! @src src/plugin/tune/unixbench/ub_tune.cpp, ub_tune.h | name:UnixBenchTune | scheme:restore

    The first `Enable` reads the layout of the machine. The CPUs of all nodes are numbered with one index that runs on
    from node to node, so that with three CPUs on each of two nodes the second has its own behind three empty places.

        node 0:  cpus = 0 2 4            cpuNum = 3
        node 1:  cpus = · · · 1 3 5      cpuNum = 6

    `UpdateData` binds the threads of a list to the first node and keeps their numbers only; `Disable` gives each the
    mask of all CPUs. -/

namespace OeAware
open Schemes

namespace UnixBenchTune
open BinaryTune (CpuSet CPU_SET)

def MAX_CPU : ℕ := 4096
def MAX_NODE : ℕ := 8
def DEFAULT_BIND_NODE : ℕ := 0

/-- What `numa_num_configured_cpus`, `numa_max_node` and `numa_node_of_cpu` say. -/
structure Layout where
  cpuNum : ℕ
  maxNode : ℤ
  nodeOf : ℕ → ℤ

/-- `Node`; an array is what is read from it, each write asks for its bounds. -/
structure Node where
  id : ℤ
  cpuMask : CpuSet
  cpus : ℕ → ℕ
  cpuNum : ℕ

structure State where
  cpuNum : ℕ
  maxNode : ℤ
  cpuNodeMap : ℕ → ℤ
  allCpuMask : CpuSet
  nodes : ℕ → Node
  bindTid : USet Int32
  isInit : Bool
  keyThreadNames : USet Str

def State.new : State := ⟨0, 0, fun _ => 0, ∅, fun _ => ⟨0, ∅, fun _ => 0, 0⟩, .empty, false, .empty⟩

/-- An index beyond the end of an array. -/
inductive Fault where
  | badIndex
  deriving DecidableEq

/-! ### `Enable` -/

/-- `initCpuMap`, as its two loops leave the map. -/
def initCpuMap (L : Layout) : Except Fault (ℕ → ℤ) :=
  if L.cpuNum ≤ MAX_CPU then .ok (fun cpu => if cpu < L.cpuNum then L.nodeOf cpu else -1) else .error .badIndex

/-- The body of the inner loop of `initNodeCpuMask`. -/
def addCpu (cpuNodeMap : ℕ → ℤ) (r : ℕ × Node) (cpu : ℕ) : Except Fault (ℕ × Node) :=
  let (cpu_index, node) := r
  if cpuNodeMap cpu = node.id then
    if cpu_index < MAX_CPU then
      .ok (cpu_index + 1, { node with
        cpuMask := CPU_SET cpu node.cpuMask
        cpus := Function.update node.cpus cpu_index cpu })
    else .error .badIndex
  else .ok r

/-- And of the outer one. -/
def addNode (cpuNum : ℕ) (cpuNodeMap : ℕ → ℤ) (r : ℕ × (ℕ → Node)) (i : ℕ) : Except Fault (ℕ × (ℕ → Node)) :=
  if i < MAX_NODE then do
    let (cpu_index, node) ← (List.range cpuNum).foldlM (addCpu cpuNodeMap)
      (r.1, { r.2 i with id := i, cpuMask := ∅ })
    return (cpu_index, Function.update r.2 i { node with cpuNum := cpu_index })
  else .error .badIndex

def initNodeCpuMask (cpuNum : ℕ) (maxNode : ℤ) (cpuNodeMap : ℕ → ℤ) (nodes : ℕ → Node) :
    Except Fault (ℕ → Node) := do
  let r ← (List.range (maxNode + 1).toNat).foldlM (addNode cpuNum cpuNodeMap) (0, nodes)
  return r.2

def initAllCpumask (cpuNum : ℕ) : CpuSet := (List.range cpuNum).foldl (fun mask cpu => CPU_SET cpu mask) ∅

/-- `ReadKeyThreads`; nothing where the file cannot be opened. -/
def readKeyThreads (file : Option Str) (keyThreadNames : USet Str) : USet Str :=
  match file with
  | none => keyThreadNames
  | some content => (getlines 10 content).foldl USet.insert keyThreadNames

def initStatic (L : Layout) (s : State) : Except Fault State := do
  let cpuNodeMap ← initCpuMap L
  let nodes ← initNodeCpuMask L.cpuNum L.maxNode cpuNodeMap s.nodes
  return { s with
    cpuNum := L.cpuNum
    maxNode := L.maxNode
    cpuNodeMap
    nodes
    allCpuMask := initAllCpumask L.cpuNum
    isInit := true }

/-- What is done when enabling for the first time. -/
def initOnce (L : Layout) (s : State) : Except Fault State := if s.isInit then .ok s else initStatic L s

def enable (L : Layout) (file : Option Str) (s : State) : Except Fault State := do
  let s ← initOnce L s
  return { s with keyThreadNames := readKeyThreads file s.keyThreadNames }

/-! ### Threads -/

/-- The masks of the threads that are alive, and what a thread had before it was first bound since `Disable`. -/
structure Kernel where
  affinity : Int32 → Option CpuSet
  first : Int32 → Option CpuSet

structure World where
  state : State
  kernel : Kernel

/-- An entry of the data, and what the two system calls make of it: whether the mask of a thread that is alive can be
    read, and what becomes of a mask that is set, nothing where that fails. -/
structure Entry where
  thread : Option (Int32 × Option Str)
  reads : Bool
  outcome : CpuSet → Option CpuSet

/-- `sched_setaffinity` and `bindTid.insert`. -/
def bindThread (w : World) (tid : Int32) (newMask : CpuSet) (outcome : CpuSet → Option CpuSet) : World :=
  match w.kernel.affinity tid, outcome newMask with
  | some old, some mask =>
    ⟨{ w.state with bindTid := w.state.bindTid.insert tid },
      ⟨Function.update w.kernel.affinity tid (some mask),
        Function.update w.kernel.first tid (some ((w.kernel.first tid).getD old))⟩⟩
  | _, _ => w

/-- One round of `UpdateData`; `currentMask` keeps what was read last where reading fails. -/
def updateThread (r : World × CpuSet) (entry : Entry) : World × CpuSet :=
  let (w, currentMask) := r
  match entry.thread with
  | some (tid, some name) =>
    if name ∈ w.state.keyThreadNames.elems then
      let currentMask := if entry.reads then (w.kernel.affinity tid).getD currentMask else currentMask
      let newMask := (w.state.nodes DEFAULT_BIND_NODE).cpuMask
      if newMask = currentMask then (w, currentMask)
      else (bindThread w tid newMask entry.outcome, currentMask)
    else r
  | _ => r

/-- `UpdateData`; `junk` is what `currentMask` holds at first. -/
def updateData (junk : CpuSet) (dataList : List Entry) (w : World) : World :=
  (dataList.foldl updateThread (w, junk)).1

/-- `Disable`. -/
def disable (outcome : Int32 → CpuSet → Option CpuSet) (w : World) : World where
  state := { w.state with bindTid := .empty, keyThreadNames := .empty }
  kernel.affinity := w.state.bindTid.elems.foldl (fun affinity tid => Function.update affinity tid
    ((affinity tid).map (fun mask => (outcome tid w.state.allCpuMask).getD mask))) w.kernel.affinity
  kernel.first _ := none

/-- What goes on outside: threads end, begin and get other masks. -/
def others (affinity : Int32 → Option CpuSet) (ended : Int32 → Bool) (w : World) : World where
  state := w.state
  kernel.affinity := affinity
  kernel.first tid := if ended tid ∨ affinity tid = none then none else w.kernel.first tid

inductive Call where
  | enable (file : Option Str)
  | updateData (junk : CpuSet) (dataList : List Entry)
  | disable (outcome : Int32 → CpuSet → Option CpuSet)
  | others (affinity : Int32 → Option CpuSet) (ended : Int32 → Bool)

def step (L : Layout) (w : World) : Call → Except Fault World
  | .enable file => do
    let s ← enable L file w.state
    return { w with state := s }
  | .updateData junk dataList => .ok (updateData junk dataList w)
  | .disable outcome => .ok (disable outcome w)
  | .others affinity ended => .ok (others affinity ended w)

/-- Before the first call; `affinity` is what the threads have then. -/
def init (affinity : Int32 → Option CpuSet) : World := ⟨.new, ⟨affinity, fun _ => none⟩⟩

/-! ### The tables -/

/-- The CPUs of a node. -/
def cpusOf (L : Layout) (i : ℤ) : List ℕ := (List.range L.cpuNum).filter (fun cpu => L.nodeOf cpu = i)

/-- The entries of `cpus` that count. -/
def listed (node : Node) : List ℕ := (List.range node.cpuNum).map node.cpus

/-- How many CPUs the nodes before `k` have. -/
def below (L : Layout) (k : ℕ) : ℕ :=
  (List.range L.cpuNum).countP (fun cpu => 0 ≤ L.nodeOf cpu ∧ L.nodeOf cpu < k)

/-- Every node has its CPUs listed in their order. -/
def Exact (L : Layout) (s : State) : Prop :=
  ∀ i : ℕ, (i : ℤ) ≤ L.maxNode → listed (s.nodes i) = cpusOf L i

/-- There is room for the nodes, and those before the last one have no CPUs. -/
def Single (L : Layout) : Prop :=
  L.maxNode < MAX_NODE ∧ ∀ cpu < L.cpuNum, ¬ (0 ≤ L.nodeOf cpu ∧ L.nodeOf cpu < L.maxNode)

/-- What the first `Enable` makes of the layout, node for node. -/
structure Tables (L : Layout) (s : State) : Prop where
  few : L.maxNode < MAX_NODE
  num : ∀ i : ℕ, (i : ℤ) ≤ L.maxNode → (s.nodes i).cpuNum = below L (i + 1)
  entry : ∀ i : ℕ, (i : ℤ) ≤ L.maxNode → ∀ p cpu, (cpusOf L i)[p]? = some cpu →
    (s.nodes i).cpus (below L i + p) = cpu
  all : s.allCpuMask = initAllCpumask L.cpuNum

section
variable {L : Layout} {s s' : State}

theorem countP_split {p q r : ℕ → Bool} : ∀ {l : List ℕ}, (∀ x ∈ l, p x = (q x || r x)) →
    (∀ x ∈ l, ¬ (q x = true ∧ r x = true)) → l.countP p = l.countP q + l.countP r
  | [], _, _ => rfl
  | x :: l, hp, hd => by
    obtain ⟨hx, hl⟩ := List.forall_mem_cons.mp hp
    obtain ⟨hdx, hdl⟩ := List.forall_mem_cons.mp hd
    rw [List.countP_cons, List.countP_cons, List.countP_cons, countP_split hl hdl, hx]
    cases hq : q x <;> cases hr : r x <;> simp_all <;> omega

theorem below_succ (k : ℕ) : below L (k + 1) = below L k + (cpusOf L k).length := by
  rw [below, below, cpusOf, ← List.countP_eq_length_filter]
  refine countP_split (fun cpu _ => ?_) (fun cpu _ h => ?_)
  · rw [← Bool.decide_or, decide_eq_decide]
    omega
  · obtain ⟨hq, hr⟩ := h
    have := of_decide_eq_true hq
    have := of_decide_eq_true hr
    omega

theorem below_le (k : ℕ) : below L k ≤ L.cpuNum := by
  have := List.countP_le_length (p := fun cpu => decide (0 ≤ L.nodeOf cpu ∧ L.nodeOf cpu < k)) (l := List.range L.cpuNum)
  rwa [List.length_range] at this

theorem below_eq_zero {k : ℕ} : below L k = 0 ↔ ∀ cpu < L.cpuNum, ¬ (0 ≤ L.nodeOf cpu ∧ L.nodeOf cpu < k) := by
  rw [below, List.countP_eq_zero]
  simp only [List.mem_range, decide_eq_true_eq]

/-- The CPUs of one node, from the index on at which the node before has stopped. -/
theorem addCpu_foldlM {map : ℕ → ℤ} : ∀ (l : List ℕ) {idx : ℕ} {node : Node},
    idx + (l.filter (fun cpu => map cpu = node.id)).length ≤ MAX_CPU →
    ∃ node', l.foldlM (addCpu map) (idx, node) =
        .ok (idx + (l.filter (fun cpu => map cpu = node.id)).length, node') ∧
      (∀ q < idx, node'.cpus q = node.cpus q) ∧
      ∀ p cpu, (l.filter (fun cpu => map cpu = node.id))[p]? = some cpu → node'.cpus (idx + p) = cpu
  | [], idx, node, _ => ⟨node, rfl, fun _ _ => rfl, fun p cpu h => by simp at h⟩
  | cpu :: l, idx, node, hle => by
    by_cases hmine : map cpu = node.id
    · rw [List.filter_cons_of_pos (by simpa using hmine)] at hle ⊢
      rw [List.length_cons] at hle ⊢
      obtain ⟨node', hrun, hold, hnew⟩ := @addCpu_foldlM map l (idx + 1) { node with
        cpuMask := CPU_SET cpu node.cpuMask
        cpus := Function.update node.cpus idx cpu } (by dsimp only; omega)
      refine ⟨node', ?_, fun q hq => ?_, fun p c hp => ?_⟩
      · have hfirst : addCpu map (idx, node) cpu = .ok (idx + 1, { node with
            cpuMask := CPU_SET cpu node.cpuMask
            cpus := Function.update node.cpus idx cpu }) := by
          rw [addCpu, if_pos hmine, if_pos (by omega)]
        rw [List.foldlM_cons, hfirst, ← Nat.add_assoc, Nat.add_right_comm]
        exact hrun
      · rw [hold q (by omega)]
        exact Function.update_of_ne (by omega) _ _
      · cases p with
        | zero =>
          cases hp
          rw [Nat.add_zero, hold idx (Nat.lt_succ_self idx)]
          exact Function.update_self ..
        | succ p =>
          rw [← hnew p c hp]
          congr 1
          omega
    · rw [List.filter_cons_of_neg (by simpa using hmine)] at hle ⊢
      obtain ⟨node', hrun, hold, hnew⟩ := addCpu_foldlM l hle
      refine ⟨node', ?_, hold, hnew⟩
      rw [List.foldlM_cons, addCpu, if_neg hmine]
      exact hrun

/-- What the outer loop has done after `n` nodes. -/
structure Filled (L : Layout) (n : ℕ) (r : ℕ × (ℕ → Node)) : Prop where
  index : r.1 = below L n
  num : ∀ i < n, (r.2 i).cpuNum = below L (i + 1)
  entry : ∀ i < n, ∀ p cpu, (cpusOf L i)[p]? = some cpu → (r.2 i).cpus (below L i + p) = cpu

theorem cpusOf_map {map : ℕ → ℤ} (hmap : ∀ cpu < L.cpuNum, map cpu = L.nodeOf cpu) (i : ℤ) :
    (List.range L.cpuNum).filter (fun cpu => map cpu = i) = cpusOf L i :=
  List.filter_congr fun cpu hcpu => by rw [hmap cpu (List.mem_range.mp hcpu)]

theorem Filled.step {map : ℕ → ℤ} (hcpu : L.cpuNum ≤ MAX_CPU) (hmap : ∀ cpu < L.cpuNum, map cpu = L.nodeOf cpu)
    {n : ℕ} {r : ℕ × (ℕ → Node)} (h : Filled L n r) (hn : n < MAX_NODE) :
    ∃ r', addNode L.cpuNum map r n = .ok r' ∧ Filled L (n + 1) r' := by
  have hle := (below_le (L := L) (n + 1)).trans hcpu
  rw [below_succ, ← h.index, ← cpusOf_map hmap] at hle
  obtain ⟨node, hrun, -, hnew⟩ := @addCpu_foldlM map (List.range L.cpuNum) r.1 { r.2 n with id := n, cpuMask := ∅ } hle
  dsimp only at hrun hnew
  rw [cpusOf_map hmap] at hrun hnew
  refine ⟨(r.1 + (cpusOf L n).length, Function.update r.2 n { node with cpuNum := r.1 + (cpusOf L n).length }), ?_,
    ?_, fun i hi => ?_, fun i hi p cpu hp => ?_⟩
  · rw [addNode, if_pos hn, hrun]
    rfl
  · rw [below_succ, h.index]
  · rcases Nat.lt_succ_iff_lt_or_eq.mp hi with hlt | rfl
    · simp only [Function.update_of_ne (Nat.ne_of_lt hlt), h.num i hlt]
    · simp only [Function.update_self, below_succ, h.index]
  · rcases Nat.lt_succ_iff_lt_or_eq.mp hi with hlt | rfl
    · simp only [Function.update_of_ne (Nat.ne_of_lt hlt)]
      exact h.entry i hlt p cpu hp
    · simp only [Function.update_self]
      rw [← h.index]
      exact hnew p cpu hp

theorem filled_foldlM {map : ℕ → ℤ} (hcpu : L.cpuNum ≤ MAX_CPU) (hmap : ∀ cpu < L.cpuNum, map cpu = L.nodeOf cpu)
    (nodes : ℕ → Node) : ∀ n ≤ MAX_NODE,
    ∃ r, (List.range n).foldlM (addNode L.cpuNum map) (0, nodes) = .ok r ∧ Filled L n r
  | 0, _ => ⟨(0, nodes), rfl, (below_eq_zero.mpr fun _ _ h => by omega).symm, fun i hi => absurd hi (Nat.not_lt_zero i),
      fun i hi => absurd hi (Nat.not_lt_zero i)⟩
  | n + 1, hn => by
    obtain ⟨r, hrun, hfilled⟩ := filled_foldlM hcpu hmap nodes n (Nat.le_of_succ_le hn)
    obtain ⟨r', hstep, hfilled'⟩ := hfilled.step hcpu hmap hn
    refine ⟨r', ?_, hfilled'⟩
    rw [List.range_succ, List.foldlM_append, hrun]
    change [n].foldlM (addNode L.cpuNum map) r = .ok r'
    rw [List.foldlM_cons, hstep]
    rfl

/-- The tables can be filled exactly where there is room for the nodes. -/
theorem initStatic_ok (hcpu : L.cpuNum ≤ MAX_CPU) (hfew : L.maxNode < MAX_NODE) (s : State) :
    ∃ s', initStatic L s = .ok s' ∧ Tables L s' ∧ s'.isInit = true ∧ s'.bindTid = s.bindTid := by
  obtain ⟨r, hrun, hfilled⟩ := @filled_foldlM L (fun cpu => if cpu < L.cpuNum then L.nodeOf cpu else -1) hcpu
    (fun cpu h => if_pos h) s.nodes (L.maxNode + 1).toNat (by omega)
  have hlt : ∀ {i : ℕ}, (i : ℤ) ≤ L.maxNode → i < (L.maxNode + 1).toNat := by omega
  rw [initStatic, initCpuMap, if_pos hcpu]
  simp only [bind, Except.bind, initNodeCpuMask, hrun]
  exact ⟨_, rfl, ⟨hfew, fun i hi => hfilled.num i (hlt hi), fun i hi => hfilled.entry i (hlt hi), rfl⟩, rfl, rfl⟩

theorem few_of_initStatic (h : initStatic L s = .ok s') : L.maxNode < MAX_NODE := by
  obtain ⟨map, -, h⟩ := bind_ok h
  obtain ⟨nodes, hnodes, -⟩ := bind_ok h
  obtain ⟨r, hrun, -⟩ := bind_ok hnodes
  by_contra hmany
  have hmem : MAX_NODE ∈ List.range (L.maxNode + 1).toNat := List.mem_range.mpr (by omega)
  obtain ⟨r1, r2, hround⟩ := foldlM_ok_of_mem hrun hmem
  rw [addNode, if_neg (Nat.lt_irrefl _)] at hround
  cases hround

/-- The entries in front of a node's own are those of the nodes before it. -/
theorem Tables.exact_iff (h : Tables L s) : Exact L s ↔ Single L := by
  constructor
  · intro hexact
    refine ⟨h.few, fun cpu hcpu hnode => ?_⟩
    have hlast : (L.maxNode.toNat : ℤ) ≤ L.maxNode := by omega
    have hlen := congrArg List.length (hexact L.maxNode.toNat hlast)
    rw [listed, List.length_map, List.length_range, h.num _ hlast, below_succ] at hlen
    exact (below_eq_zero (k := L.maxNode.toNat)).mp (by omega) cpu hcpu ⟨hnode.1, by omega⟩
  · rintro ⟨-, hsingle⟩ i hi
    have hzero : below L i = 0 := below_eq_zero.mpr fun cpu hcpu hnode => hsingle cpu hcpu ⟨hnode.1, by omega⟩
    have hnum := h.num i hi
    have hentry := h.entry i hi
    rw [below_succ, hzero, Nat.zero_add] at hnum
    simp only [hzero, Nat.zero_add] at hentry
    refine List.ext_getElem (by rw [listed, List.length_map, List.length_range, hnum]) fun p _ hp => ?_
    simp only [listed, List.getElem_map, List.getElem_range]
    exact hentry p _ (List.getElem?_eq_getElem hp)

end

/-! ### Runs -/

/-- What holds between two calls. -/
structure Kept (L : Layout) (w : World) : Prop where
  tables : w.state.isInit = true → Tables L w.state
  names : w.state.isInit = false → w.state.keyThreadNames.elems = []
  bound : ∀ tid old, w.kernel.first tid = some old →
    tid ∈ w.state.bindTid.elems ∧ w.kernel.affinity tid ≠ none ∧ w.state.isInit = true

/-- `Disable` gives the threads that it had bound what they had before. -/
def Restored (w w' : World) : Prop :=
  ∀ tid old, w.kernel.first tid = some old → w'.kernel.affinity tid = some old

/-- What is asked of a call that leads from `w` to `w'`. -/
def Good (L : Layout) (w : World) : Call → World → Prop
  | .enable _, w' => Exact L w'.state
  | .disable _, w' => Restored w w'
  | _, _ => True

/-- When it is met: by `Enable` on a layout with CPUs in one node only, by `Disable` if every thread that has been bound
    had what the kernel makes of the mask of all CPUs, or has its own again where this cannot be set. -/
def Admitted (L : Layout) (w : World) : Call → Prop
  | .enable _ => Single L
  | .disable outcome => ∀ tid old, w.kernel.first tid = some old →
      (outcome tid (initAllCpumask L.cpuNum)).or (w.kernel.affinity tid) = some old
  | _ => True

section
variable {L : Layout} {w w' : World}

theorem kept_init (affinity : Int32 → Option CpuSet) : Kept L (init affinity) where
  tables h := by cases h
  names _ := rfl
  bound tid old h := by cases h

/-- `Enable`, if the tables are there or can be filled. -/
theorem enable_ok (hcpu : L.cpuNum ≤ MAX_CPU) (h : Kept L w) (hor : w.state.isInit = true ∨ L.maxNode < MAX_NODE)
    (file : Option Str) : ∃ s', enable L file w.state = .ok s' ∧ Tables L s' ∧ s'.isInit = true ∧
      s'.bindTid = w.state.bindTid := by
  unfold enable initOnce
  cases hinit : w.state.isInit with
  | true =>
    have ht := h.tables hinit
    exact ⟨_, rfl, ⟨ht.few, ht.num, ht.entry, ht.all⟩, hinit, rfl⟩
  | false =>
    obtain ⟨s', hs', ht, hinit', hbind⟩ := initStatic_ok hcpu (hor.resolve_left (by simp [hinit])) w.state
    rw [if_neg Bool.false_ne_true, hs']
    exact ⟨_, rfl, ⟨ht.few, ht.num, ht.entry, ht.all⟩, hinit', hbind⟩

theorem enable_room {file : Option Str} {s' : State} (h : enable L file w.state = .ok s') :
    w.state.isInit = true ∨ L.maxNode < MAX_NODE := by
  obtain ⟨s, hs, -⟩ := bind_ok h
  unfold initOnce at hs
  split at hs
  · rename_i hinit
    exact Or.inl hinit
  · exact Or.inr (few_of_initStatic hs)

theorem kept_enable (hcpu : L.cpuNum ≤ MAX_CPU) (h : Kept L w) {file : Option Str} {s' : State}
    (hs : enable L file w.state = .ok s') : Kept L { w with state := s' } := by
  obtain ⟨s, hs1, ht, hinit, hbind⟩ := enable_ok hcpu h (enable_room hs) file
  rw [hs1] at hs
  cases hs
  refine ⟨fun _ => ht, fun hno => ?_, fun tid old hf => ?_⟩
  · rw [hinit] at hno
    cases hno
  · obtain ⟨hmem, halive, -⟩ := h.bound tid old hf
    exact ⟨hbind ▸ hmem, halive, hinit⟩

theorem kept_bindThread (h : Kept L w) (hinit : w.state.isInit = true) (tid : Int32) (newMask : CpuSet)
    (outcome : CpuSet → Option CpuSet) : Kept L (bindThread w tid newMask outcome) := by
  unfold bindThread
  split
  · have ht := h.tables hinit
    refine ⟨fun _ => ⟨ht.few, ht.num, ht.entry, ht.all⟩, fun hno => ?_, fun tid' old hf => ?_⟩
    · rw [hinit] at hno
      cases hno
    · dsimp only at hf ⊢
      refine ⟨USet.mem_insert.mpr ?_, ?_, hinit⟩
      · rcases eq_or_ne tid' tid with rfl | hne
        · exact Or.inl rfl
        · rw [Function.update_of_ne hne] at hf
          exact Or.inr (h.bound tid' old hf).1
      · rcases eq_or_ne tid' tid with rfl | hne
        · rw [Function.update_self]
          exact Option.some_ne_none _
        · rw [Function.update_of_ne hne] at hf ⊢
          exact (h.bound tid' old hf).2.1
  · exact h

/-- Only a thread in the list is bound, and the list is empty before the first `Enable`. -/
theorem kept_updateThread {r : World × CpuSet} (h : Kept L r.1) (entry : Entry) : Kept L (updateThread r entry).1 := by
  obtain ⟨w, currentMask⟩ := r
  unfold updateThread
  dsimp only
  split
  · split
    · rename_i tid name _ hname
      have hinit : w.state.isInit = true := by
        by_contra hno
        rw [h.names (Bool.eq_false_of_not_eq_true hno)] at hname
        cases hname
      have hround : ∀ mask, Kept L (if (w.state.nodes DEFAULT_BIND_NODE).cpuMask = mask then (w, mask) else
          (bindThread w tid (w.state.nodes DEFAULT_BIND_NODE).cpuMask entry.outcome, mask)).1 := by
        intro mask
        split
        · exact h
        · exact kept_bindThread h hinit ..
      exact hround _
    · exact h
  · exact h

theorem kept_foldl : ∀ (dataList : List Entry) {r : World × CpuSet}, Kept L r.1 →
    Kept L (dataList.foldl updateThread r).1
  | [], _, h => h
  | entry :: dataList, _, h => kept_foldl dataList (kept_updateThread h entry)

theorem kept_step (hcpu : L.cpuNum ≤ MAX_CPU) (h : Kept L w) {a : Call} (hs : step L w a = .ok w') : Kept L w' := by
  cases a with
  | enable file =>
    obtain ⟨s', hs', heq⟩ := bind_ok hs
    cases heq
    exact kept_enable hcpu h hs'
  | updateData junk dataList =>
    cases hs
    exact kept_foldl dataList h
  | disable outcome =>
    cases hs
    refine ⟨fun hinit => ?_, fun _ => rfl, fun tid old hf => by cases hf⟩
    have ht := h.tables hinit
    exact ⟨ht.few, ht.num, ht.entry, ht.all⟩
  | others affinity ended =>
    cases hs
    refine ⟨h.tables, h.names, fun tid old hf => ?_⟩
    simp only [others] at hf
    split at hf
    · cases hf
    · rename_i halive
      obtain ⟨hmem, -, hinit⟩ := h.bound tid old hf
      exact ⟨hmem, fun hnone => halive (Or.inr hnone), hinit⟩

theorem kept_of_runs (hcpu : L.cpuNum ≤ MAX_CPU) {affinity : Int32 → Option CpuSet} {ok : World → Call → Prop}
    (hw : Runs (step L) (init affinity) ok w) : Kept L w :=
  hw.invariant (kept_init affinity) fun _ _ _ h _ hs => kept_step hcpu h hs

/-- What `Disable` leaves a bound thread with. -/
theorem affinity_disable (h : Kept L w) {outcome : Int32 → CpuSet → Option CpuSet} {tid : Int32} {old : CpuSet}
    (hf : w.kernel.first tid = some old) : (disable outcome w).kernel.affinity tid =
      (outcome tid (initAllCpumask L.cpuNum)).or (w.kernel.affinity tid) := by
  obtain ⟨hmem, halive, hinit⟩ := h.bound tid old hf
  obtain ⟨mask, hmask⟩ := Option.ne_none_iff_exists'.mp halive
  rw [disable]
  dsimp only
  rw [foldl_modify (g := fun tid (a : Option CpuSet) => a.map (fun mask => (outcome tid w.state.allCpuMask).getD mask))
    w.state.bindTid.nodup, if_pos hmem, hmask, (h.tables hinit).all]
  cases outcome tid (initAllCpumask L.cpuNum) <;> rfl

/-- LISTED AND RESTORED: in every state that calls lead to, whatever the layout, the tables once filled are right exactly
    if all CPUs are in one node, and the next call does what it is to do, within the arrays, exactly where it is
    admitted. -/
theorem listed_restored_iff (L : Layout) (hcpu : L.cpuNum ≤ MAX_CPU) (affinity : Int32 → Option CpuSet) {w : World}
    (hw : Runs (step L) (init affinity) (fun _ _ => True) w) :
    (w.state.isInit = true → (Exact L w.state ↔ Single L)) ∧
      ∀ a, (∃ w', step L w a = .ok w' ∧ Good L w a w') ↔ Admitted L w a := by
  have h := kept_of_runs hcpu hw
  refine ⟨fun hinit => (h.tables hinit).exact_iff, fun a => ?_⟩
  cases a with
  | enable file =>
    constructor
    · rintro ⟨w', hs, hexact⟩
      obtain ⟨s', hs', heq⟩ := bind_ok hs
      cases heq
      obtain ⟨s1, hs1, ht, -⟩ := enable_ok hcpu h (enable_room hs') file
      rw [hs1] at hs'
      cases hs'
      exact ht.exact_iff.mp hexact
    · intro hsingle
      obtain ⟨s', hs', ht, -⟩ := enable_ok hcpu h (Or.inr hsingle.1) file
      refine ⟨{ w with state := s' }, ?_, ht.exact_iff.mpr hsingle⟩
      rw [step, hs']
      rfl
  | updateData junk dataList => exact ⟨fun _ => trivial, fun _ => ⟨_, rfl, trivial⟩⟩
  | disable outcome =>
    constructor
    · rintro ⟨w', hs, hgood⟩ tid old hf
      cases hs
      rw [← affinity_disable h hf]
      exact hgood tid old hf
    · intro hadm
      refine ⟨_, rfl, fun tid old hf => ?_⟩
      rw [affinity_disable h hf]
      exact hadm tid old hf
  | others affinity ended => exact ⟨fun _ => trivial, fun _ => ⟨_, rfl, trivial⟩⟩

end

namespace Example

/-- Two nodes of two CPUs. -/
def twoNodes : Layout := ⟨4, 1, fun cpu => if cpu < 2 then 0 else 1⟩

/-- One thread, which may use one CPU. -/
def alive (tid : Int32) : Option CpuSet := if tid = 7 then some {2} else none

/-- It is in the list. -/
def binding : List Call :=
  [.enable (some (str "dhry")), .updateData ∅ [⟨some (7, some (str "dhry")), true, some⟩]]

theorem runs_binding : ∃ w, Runs (step twoNodes) (init alive) (fun _ _ => True) w ∧
    runAll (step twoNodes) (fun _ _ => True) (init alive) binding = some w := by
  have hsome : (runAll (step twoNodes) (fun _ _ => True) (init alive) binding).isSome = true := by decide +kernel
  obtain ⟨w, hw⟩ := Option.isSome_iff_exists.mp hsome
  exact ⟨w, Runs.of_runAll _ binding .start hw, hw⟩

end Example

theorem listed_restored_iff_twoNodes : ∃ w, Runs (step Example.twoNodes) (init Example.alive) (fun _ _ => True) w ∧
    (w.state.isInit = true → (Exact Example.twoNodes w.state ↔ Single Example.twoNodes)) ∧
      ∀ a, (∃ w', step Example.twoNodes w a = .ok w' ∧ Good Example.twoNodes w a w') ↔
        Admitted Example.twoNodes w a := by
  obtain ⟨w, hw, -⟩ := Example.runs_binding
  exact ⟨w, hw, listed_restored_iff Example.twoNodes (by decide) Example.alive hw⟩

/-- `Enable` lists the CPUs of the second node behind two places of the first, and `Disable` lets the thread run
    everywhere. -/
theorem not_listed_restored_twoNodes :
    (¬ ∃ w', step Example.twoNodes (init Example.alive) (.enable none) = .ok w' ∧
      Good Example.twoNodes (init Example.alive) (.enable none) w') ∧
    ∃ w, Runs (step Example.twoNodes) (init Example.alive) (fun _ _ => True) w ∧
      ¬ ∃ w', step Example.twoNodes w (.disable fun _ => some) = .ok w' ∧
        Good Example.twoNodes w (.disable fun _ => some) w' := by
  constructor
  · rintro ⟨w', hs, hgood⟩
    have hlist : (step Example.twoNodes (init Example.alive) (.enable none)).toOption.map
        (fun w => listed (w.state.nodes 1)) = some [0, 0, 2, 3] := by decide +kernel
    have hcpus : cpusOf Example.twoNodes (1 : ℕ) = [2, 3] := by decide +kernel
    have hnode := hgood 1 (by decide)
    rw [hs] at hlist
    rw [show listed (w'.state.nodes 1) = [0, 0, 2, 3] from Option.some.inj hlist, hcpus] at hnode
    exact absurd hnode (by decide)
  · obtain ⟨w, hw, hrun⟩ := Example.runs_binding
    refine ⟨w, hw, ?_⟩
    rintro ⟨w', hs, hgood⟩
    have hmasks : (runAll (step Example.twoNodes) (fun _ _ => True) (init Example.alive) Example.binding).map
        (fun w => (w.kernel.first 7, (disable (fun _ => some) w).kernel.affinity 7)) =
          some (some {2}, some {0, 1, 2, 3}) := by decide +kernel
    rw [hrun] at hmasks
    obtain ⟨hfirst, hafter⟩ := Prod.mk.inj (Option.some.inj hmasks)
    cases hs
    have hback := hgood 7 {2} hfirst
    rw [hafter] at hback
    exact absurd hback (by decide +kernel)

end UnixBenchTune

end OeAware

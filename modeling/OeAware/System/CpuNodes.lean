import OeAware.Collect.EnvInfo
import OeAware.Tune.BinaryMasks
import OeAware.Tune.Migrating

/-! @src src/plugin/collect/system/env_info.cpp | name:InitCpu2Node, EnvInfo::Enable | also:hardirq_tune.cpp,
    binary_tune.cpp

    Which node a CPU belongs to is read from the directories of the nodes, in their order; the array comes
    from `new int[]` and holds anything before. The reading ends at a directory that cannot be opened and at
    a CPU beyond the configured ones, and nobody asks whether it came to its end.

        node0: cpu0 cpu1     node1: not there ──▶ end     node2: cpu2 cpu3
        cpu2Node = [0, 0, ?, ?]

    What is published goes into `NetHardIrq` and `BinaryTune`, which take the entries for indices. -/

namespace OeAware
open Schemes

namespace EnvInfo

/-- The entries of `/sys/devices/system/node/nodeN`, as `readdir` lists them; nothing where `opendir` fails. -/
abbrev NodeDirs := ℕ → Option (List Str)

/-- `cpu2Node`, with nothing where it has not been assigned. -/
abbrev Nodes := List (Option ℕ)

/-- `isdigit`. -/
def isdigit (c : UInt8) : Bool := 48 ≤ c && c ≤ 57

/-- `"cpu"`. -/
def cpuPre : Str := str "cpu"

/-- The `cpuId` of an entry, if it is one of a CPU. -/
def cpuIdOf (cpuDirName : Str) : Option ℤ :=
  if cpuDirName.length ≤ cpuPre.length ∨ cpuDirName.take cpuPre.length ≠ cpuPre ∨
      ¬ isdigit (cpuDirName.getD cpuPre.length 0) then none
  else some (atoi (cpuDirName.drop cpuPre.length))

/-- The loop over the entries of the node `n`; `false` is the early end. -/
def readEntries (cpuNum n : ℕ) : List Str → Nodes → Nodes × Bool
  | [], cpu2Node => (cpu2Node, true)
  | cpuDirName :: entries, cpu2Node =>
    match cpuIdOf cpuDirName with
    | none => readEntries cpuNum n entries cpu2Node
    | some cpuId =>
      if cpuId < 0 ∨ cpuNum ≤ cpuId then (cpu2Node, false)
      else readEntries cpuNum n entries (cpu2Node.set cpuId.toNat (some n))

/-- The loop over the nodes from `n` on, of which there are `left`. -/
def readNodes (dirs : NodeDirs) (cpuNum : ℕ) : ℕ → ℕ → Nodes → Nodes × Bool
  | 0, _, cpu2Node => (cpu2Node, true)
  | left + 1, n, cpu2Node =>
    match dirs n with
    | none => (cpu2Node, false)
    | some entries =>
      let r := readEntries cpuNum n entries cpu2Node
      if r.2 then readNodes dirs cpuNum left (n + 1) r.1 else r

/-- `InitCpu2Node`. -/
def initCpu2Node (dirs : NodeDirs) (numaNum cpuNum : ℕ) (cpu2Node : Nodes) : Nodes × Bool :=
  readNodes dirs cpuNum numaNum 0 cpu2Node

/-- What `Enable` finds. -/
structure Machine where
  numaNum : Int32
  cpuNumConfig : Int32
  dirs : NodeDirs
  /-- What `new int[cpuNumConfig]` holds. -/
  junk : ℕ → UInt32
  pageSize : Int32
  numaDistance : List (List UInt32)

namespace Machine
variable (m : Machine)

/-- `new int[cpuNumConfig]`, then `InitCpu2Node`; its verdict is dropped. -/
def cpu2Node : Nodes :=
  (initCpu2Node m.dirs m.numaNum.toInt.toNat m.cpuNumConfig.toInt.toNat
    (List.replicate m.cpuNumConfig.toInt.toNat none)).1

/-- The array as it is read. -/
def values : List UInt32 :=
  m.cpu2Node.zipIdx.map (fun p => (p.1.map UInt32.ofNat).getD (m.junk p.2))

def env : StaticEnv := ⟨m.numaNum, m.cpuNumConfig, m.pageSize, m.values, m.numaDistance⟩

/-- The result of `Enable`. -/
def enableResult : Result :=
  if m.numaNum < 0 ∨ m.cpuNumConfig ≤ 0 then ⟨some FAILED, str "Enable failed, InitEnvStaticInfo failed."⟩
  else ⟨some OK, []⟩

/-- What the topic `static` publishes then. -/
def published (s : State) : EnvStaticInfo := (enable m.env s).1.envStaticInfo

end Machine

end EnvInfo

namespace NetHardIrq

/-- `UpdateSystemInfo`, where the topic has not been seen before; nothing where the array has too few entries. -/
def updateSystemInfo (data : EnvStaticInfo) (s : State) : Option State :=
  if loops data.cpuNumConfig ≤ data.cpu2Node.length then
    some { s with
      numaNum := data.numaNum.toNat
      cpu2Numa := (data.cpu2Node.take (loops data.cpuNumConfig)).map (fun node => node.toInt32.toInt) }
  else none

end NetHardIrq

namespace EnvInfo

/-! ### What is assigned -/

/-- The reading goes on behind this entry. -/
def Sane (cpuNum : ℕ) (cpuDirName : Str) : Prop :=
  ∀ cpuId, cpuIdOf cpuDirName = some cpuId → 0 ≤ cpuId ∧ cpuId < cpuNum

/-- The reading comes to an entry of the CPU `c`. -/
def Reached (cpuNum : ℕ) (entries : List Str) (c : ℕ) : Prop :=
  ∃ before cpuDirName after, entries = before ++ cpuDirName :: after ∧ cpuIdOf cpuDirName = some (c : ℤ) ∧
    ∀ e ∈ before, Sane cpuNum e

/-- `cpu2Node[c]` has been assigned. -/
def Has (cpu2Node : Nodes) (c : ℕ) : Prop := ∃ n, cpu2Node[c]? = some (some n)

/-- The array has its length, and what has been assigned is the number of a node. -/
structure Sized (numaNum cpuNum : ℕ) (cpu2Node : Nodes) : Prop where
  length : cpu2Node.length = cpuNum
  node : ∀ c n : ℕ, cpu2Node[c]? = some (some n) → n < numaNum

section
variable {numaNum cpuNum n c : ℕ} {cpu2Node : Nodes}

theorem Sized.set (h : Sized numaNum cpuNum cpu2Node) (hn : n < numaNum) (c : ℕ) :
    Sized numaNum cpuNum (cpu2Node.set c (some n)) where
  length := by rw [List.length_set, h.length]
  node d k hd := by
    rw [List.getElem?_set] at hd
    split at hd
    · split at hd
      · cases hd
        exact hn
      · cases hd
    · exact h.node d k hd

theorem has_set (h : cpu2Node.length = cpuNum) (hc : c < cpuNum) (d : ℕ) :
    Has (cpu2Node.set d (some n)) c ↔ d = c ∨ Has cpu2Node c := by
  unfold Has
  rw [List.getElem?_set]
  split
  · rename_i hd
    rw [if_pos (by rw [hd, h]; exact hc)]
    exact ⟨fun _ => Or.inl hd, fun _ => ⟨n, rfl⟩⟩
  · rename_i hd
    exact ⟨Or.inr, fun ho => ho.resolve_left hd⟩

theorem reached_nil : ¬ Reached cpuNum [] c := by
  rintro ⟨before, e, after, h, -⟩
  exact List.cons_ne_nil _ _ (List.append_eq_nil_iff.mp h.symm).2

theorem reached_cons {e : Str} {entries : List Str} : Reached cpuNum (e :: entries) c ↔
    cpuIdOf e = some (c : ℤ) ∨ (Sane cpuNum e ∧ Reached cpuNum entries c) := by
  constructor
  · rintro ⟨before, e', after, h, hid, hsane⟩
    cases before with
    | nil =>
      cases h
      exact Or.inl hid
    | cons b before =>
      cases h
      exact Or.inr ⟨hsane _ List.mem_cons_self, before, e', after, rfl, hid,
        fun x hx => hsane x (List.mem_cons_of_mem _ hx)⟩
  · rintro (hid | ⟨he, before, e', after, rfl, hid, hsane⟩)
    · exact ⟨[], e, entries, rfl, hid, by simp⟩
    · exact ⟨e :: before, e', after, rfl, hid, List.forall_mem_cons.mpr ⟨he, hsane⟩⟩

/-- One directory. -/
theorem readEntries_spec (hn : n < numaNum) : ∀ (entries : List Str) {cpu2Node : Nodes},
    Sized numaNum cpuNum cpu2Node →
    let r := readEntries cpuNum n entries cpu2Node
    Sized numaNum cpuNum r.1 ∧ (r.2 = true ↔ ∀ e ∈ entries, Sane cpuNum e) ∧
      ∀ c < cpuNum, (Has r.1 c ↔ Has cpu2Node c ∨ Reached cpuNum entries c)
  | [], cpu2Node, h => ⟨h, by simp [readEntries], fun c _ => by simp [readEntries, reached_nil]⟩
  | e :: entries, cpu2Node, h => by
    intro r
    cases hid : cpuIdOf e with
    | none =>
      have hr : r = readEntries cpuNum n entries cpu2Node := by simp only [r, readEntries, hid]
      have hsane : Sane cpuNum e := fun cpuId he => by rw [hid] at he; cases he
      obtain ⟨hsized, hend, hhas⟩ := readEntries_spec hn entries h
      rw [hr]
      refine ⟨hsized, ?_, fun c hc => ?_⟩
      · rw [hend, List.forall_mem_cons]
        exact ⟨fun hall => ⟨hsane, hall⟩, fun hall => hall.2⟩
      · rw [hhas c hc, reached_cons, hid]
        simp [hsane]
    | some cpuId =>
      by_cases hbad : cpuId < 0 ∨ cpuNum ≤ cpuId
      · have hr : r = (cpu2Node, false) := by simp only [r, readEntries, hid, if_pos hbad]
        have hsane : ¬ Sane cpuNum e := fun hs => by
          have := hs cpuId hid
          omega
        rw [hr]
        refine ⟨h, ?_, fun c hc => ?_⟩
        · rw [List.forall_mem_cons]
          exact ⟨fun ht => absurd ht Bool.false_ne_true, fun hall => absurd hall.1 hsane⟩
        · rw [reached_cons, hid]
          have hne : (some cpuId : Option ℤ) ≠ some (c : ℤ) := fun heq => by
            cases heq
            omega
          simp [hsane, hne]
      · have hr : r = readEntries cpuNum n entries (cpu2Node.set cpuId.toNat (some n)) := by
          simp only [r, readEntries, hid, if_neg hbad]
        have hsane : Sane cpuNum e := fun cpuId' he => by
          rw [hid] at he
          cases he
          omega
        obtain ⟨hsized, hend, hhas⟩ := readEntries_spec hn entries (h.set hn cpuId.toNat)
        rw [hr]
        refine ⟨hsized, ?_, fun c hc => ?_⟩
        · rw [hend, List.forall_mem_cons]
          exact ⟨fun hall => ⟨hsane, hall⟩, fun hall => hall.2⟩
        · have hsame : (some cpuId : Option ℤ) = some (c : ℤ) ↔ cpuId.toNat = c := by
            rw [Option.some.injEq]
            omega
          rw [hhas c hc, has_set h.length hc, reached_cons, hid, hsame]
          simp only [hsane, true_and]
          exact or_assoc.trans or_left_comm

/-- The directory of the node `n` comes to its end. -/
def Clear (dirs : NodeDirs) (cpuNum n : ℕ) : Prop :=
  ∃ entries, dirs n = some entries ∧ ∀ e ∈ entries, Sane cpuNum e

/-- The reading from the node `n` on comes to an entry of the CPU `c`. -/
def ReachedFrom (dirs : NodeDirs) (cpuNum n left c : ℕ) : Prop :=
  ∃ k, n ≤ k ∧ k < n + left ∧ (∀ j, n ≤ j → j < k → Clear dirs cpuNum j) ∧
    ∃ entries, dirs k = some entries ∧ Reached cpuNum entries c

theorem reachedFrom_zero {dirs : NodeDirs} : ¬ ReachedFrom dirs cpuNum n 0 c := by
  rintro ⟨k, hk, hlt, -⟩
  omega

theorem reachedFrom_succ {dirs : NodeDirs} {left : ℕ} : ReachedFrom dirs cpuNum n (left + 1) c ↔
    (∃ entries, dirs n = some entries ∧ Reached cpuNum entries c) ∨
      (Clear dirs cpuNum n ∧ ReachedFrom dirs cpuNum (n + 1) left c) := by
  constructor
  · rintro ⟨k, hk, hlt, hclear, hreach⟩
    rcases Nat.eq_or_lt_of_le hk with rfl | hlt'
    · exact Or.inl hreach
    · exact Or.inr ⟨hclear n le_rfl hlt', k, hlt', by omega, fun j hj => hclear j (by omega), hreach⟩
  · rintro (hreach | ⟨hn, k, hk, hlt, hclear, hreach⟩)
    · exact ⟨n, le_rfl, by omega, fun j hj hlt => absurd hj (by omega), hreach⟩
    · refine ⟨k, by omega, by omega, fun j hj hlt' => ?_, hreach⟩
      rcases Nat.eq_or_lt_of_le hj with rfl | hj'
      · exact hn
      · exact hclear j hj' hlt'

/-- All directories from the node `n` on. -/
theorem readNodes_spec {dirs : NodeDirs} : ∀ (left : ℕ) {n : ℕ} {cpu2Node : Nodes}, n + left ≤ numaNum →
    Sized numaNum cpuNum cpu2Node →
    let r := readNodes dirs cpuNum left n cpu2Node
    Sized numaNum cpuNum r.1 ∧ ∀ c < cpuNum, (Has r.1 c ↔ Has cpu2Node c ∨ ReachedFrom dirs cpuNum n left c)
  | 0, n, cpu2Node, _, h => ⟨h, fun c _ => by simp [readNodes, reachedFrom_zero]⟩
  | left + 1, n, cpu2Node, hle, h => by
    intro r
    cases hd : dirs n with
    | none =>
      have hr : r = (cpu2Node, false) := by simp only [r, readNodes, hd]
      have hclear : ¬ Clear dirs cpuNum n := by
        rintro ⟨entries, he, -⟩
        rw [hd] at he
        cases he
      rw [hr]
      exact ⟨h, fun c _ => by rw [reachedFrom_succ]; simp [hd, hclear]⟩
    | some entries =>
      obtain ⟨hsized, hend, hhas⟩ := readEntries_spec (show n < numaNum by omega) entries h
      have hclear : Clear dirs cpuNum n ↔ ∀ e ∈ entries, Sane cpuNum e := by
        simp [Clear, hd]
      by_cases ht : (readEntries cpuNum n entries cpu2Node).2 = true
      · have hr : r = readNodes dirs cpuNum left (n + 1) (readEntries cpuNum n entries cpu2Node).1 := by
          simp only [r, readNodes, hd, if_pos ht]
        obtain ⟨hsized', hhas'⟩ := readNodes_spec left (show n + 1 + left ≤ numaNum by omega) hsized
        rw [hr]
        refine ⟨hsized', fun c hc => ?_⟩
        have hn : Clear dirs cpuNum n := hclear.mpr (hend.mp ht)
        rw [hhas' c hc, hhas c hc, reachedFrom_succ]
        simp [hd, hn, or_assoc]
      · have hr : r = readEntries cpuNum n entries cpu2Node := by
          simp only [r, readNodes, hd, if_neg ht]
        have hno : ¬ ∀ e ∈ entries, Sane cpuNum e := fun hall => ht (hend.mpr hall)
        rw [hr]
        refine ⟨hsized, fun c hc => ?_⟩
        rw [hhas c hc, reachedFrom_succ, hclear]
        simp [hd, hno]

end

namespace Machine
variable (m : Machine)

def nodes : ℕ := m.numaNum.toInt.toNat

def cpus : ℕ := m.cpuNumConfig.toInt.toNat

/-- `Enable` refuses. -/
def Refused : Prop := m.numaNum < 0 ∨ m.cpuNumConfig ≤ 0

/-- Every CPU is listed where the reading comes to it. -/
def Listed : Prop := ∀ c < m.cpus, ReachedFrom m.dirs m.cpus 0 m.nodes c

/-- Every CPU has been assigned one of the nodes. -/
def Assigned : Prop := ∀ c < m.cpus, ∃ n < m.nodes, m.cpu2Node[c]? = some (some n)

/-- What is published leads both plugins to nothing outside their own arrays: `NetHardIrq` in sorting the CPUs, as long
    as it has the load of each, and `BinaryTune` in taking the message. -/
def InBounds : Prop :=
  ∀ s0 : State,
    (∀ (s : NetHardIrq.State) choice, m.cpus ≤ s.cpuUtil.length →
      ∃ s' lists, NetHardIrq.updateSystemInfo (m.published s0) s = some s' ∧
        NetHardIrq.sortNumaCpuUtil s' choice = some lists) ∧
    ∀ s : BinaryTune.State, ∃ s', BinaryTune.updateStatic (m.published s0) s = .ok s'

variable {m}

theorem enableResult_ok : m.enableResult.code = some OK ↔ ¬ m.Refused := by
  unfold enableResult Refused
  split
  · rename_i h
    exact ⟨fun hc => absurd (Option.some.inj hc) (by decide), fun hn => absurd h hn⟩
  · rename_i h
    exact ⟨fun _ => h, fun _ => rfl⟩

theorem sized_new : Sized m.nodes m.cpus (List.replicate m.cpus none) where
  length := List.length_replicate
  node c n h := by
    obtain ⟨_, hnone⟩ := List.getElem?_eq_some_iff.mp h
    rw [List.getElem_replicate] at hnone
    cases hnone

theorem sized : Sized m.nodes m.cpus m.cpu2Node :=
  (readNodes_spec m.nodes (Nat.zero_add _).le sized_new).1

theorem has_iff {c : ℕ} (hc : c < m.cpus) : Has m.cpu2Node c ↔ ReachedFrom m.dirs m.cpus 0 m.nodes c := by
  have h : Has m.cpu2Node c ↔ _ := (readNodes_spec m.nodes (Nat.zero_add _).le sized_new).2 c hc
  have hnone : ¬ Has (List.replicate m.cpus none) c := by
    rintro ⟨n, hn⟩
    simp [List.getElem?_replicate] at hn
  exact h.trans (or_iff_right hnone)

theorem assigned_iff_listed : m.Assigned ↔ m.Listed := by
  refine forall₂_congr fun c hc => Iff.trans ?_ (has_iff hc)
  constructor
  · rintro ⟨n, -, h⟩
    exact ⟨n, h⟩
  · rintro ⟨n, h⟩
    exact ⟨n, sized.node c n h, h⟩

/-! ### What becomes of it -/

theorem published_eq (h : ¬ m.Refused) (s0 : State) :
    (m.published s0).numaNum = m.numaNum.toUInt32 ∧ (m.published s0).cpuNumConfig = m.cpuNumConfig.toUInt32 ∧
      (m.published s0).cpu2Node = m.values := by
  have hne : ¬ (m.env.numaNum < 0 ∨ m.env.cpuNumConfig ≤ 0) := h
  simp only [published, enable, if_neg hne]
  exact ⟨rfl, rfl, rfl⟩

theorem loops_published (h : ¬ m.Refused) (s0 : State) :
    loops (m.published s0).cpuNumConfig = m.cpus ∧ loops (m.published s0).numaNum = m.nodes := by
  obtain ⟨hn, hc, -⟩ := published_eq h s0
  rw [hn, hc, loops, loops, Int32.toInt32_toUInt32, Int32.toInt32_toUInt32]
  exact ⟨rfl, rfl⟩

theorem length_values : m.values.length = m.cpus := by
  rw [values, List.length_map, List.length_zipIdx, sized.length]

/-- An assigned entry is read as it is. -/
theorem values_assigned {c n : ℕ} (h : m.cpu2Node[c]? = some (some n)) :
    ∃ v, m.values[c]? = some v ∧ v.toInt32.toInt = n := by
  have hn : n < m.nodes := sized.node c n h
  have hlt : n < 2 ^ 31 := by
    have := m.numaNum.toInt_lt
    simp only [nodes] at hn
    omega
  refine ⟨UInt32.ofNat n, ?_, ?_⟩
  · simp [values, h]
  · rw [UInt32.toInt32_ofNat', Int32.toInt_ofNat_of_lt hlt]

theorem mem_values (ha : m.Assigned) {v : UInt32} (h : v ∈ m.values) : 0 ≤ v.toInt32.toInt ∧ v.toInt32.toInt < m.nodes := by
  obtain ⟨c, hc, rfl⟩ := List.getElem_of_mem h
  obtain ⟨n, hn, hget⟩ := ha c (length_values ▸ hc)
  obtain ⟨v, hv, hval⟩ := values_assigned hget
  rw [List.getElem?_eq_getElem hc] at hv
  cases hv
  rw [hval]
  omega

/-- `NetHardIrq` with assigned entries. -/
theorem sortNumaCpuUtil_published (h : ¬ m.Refused) (ha : m.Assigned) (s0 : State) (s : NetHardIrq.State)
    (choice : NetHardIrq.Choice) (hutil : m.cpus ≤ s.cpuUtil.length) :
    ∃ s' lists, NetHardIrq.updateSystemInfo (m.published s0) s = some s' ∧
      NetHardIrq.sortNumaCpuUtil s' choice = some lists := by
  obtain ⟨hn, -, hv⟩ := published_eq h s0
  obtain ⟨hcpus, -⟩ := loops_published h s0
  have htake : m.values.take m.cpus = m.values := List.take_of_length_le length_values.le
  refine ⟨_, _, if_pos (by rw [hcpus, hv, length_values]), NetHardIrq.sortNumaCpuUtil_eq_some.mpr ⟨⟨?_, ?_⟩, rfl⟩⟩
  · intro node hnode
    simp only [hcpus, hv, htake, List.mem_map] at hnode
    obtain ⟨v, hmem, rfl⟩ := hnode
    have hnodes : (m.published s0).numaNum.toNat = m.nodes := by
      rw [hn, Int32.toNat_toUInt32_of_le (Int32.not_lt.mp (fun hlt => h (Or.inl hlt)))]
      rfl
    rw [hnodes]
    exact mem_values ha hmem
  · simp only [hcpus, hv, htake, List.length_map, length_values]
    exact hutil

/-- `BinaryTune` with assigned entries. -/
theorem updateStatic_published (h : ¬ m.Refused) (ha : m.Assigned) (s0 : State) (s : BinaryTune.State) :
    ∃ s', BinaryTune.updateStatic (m.published s0) s = .ok s' := by
  obtain ⟨-, -, hv⟩ := published_eq h s0
  obtain ⟨hcpus, hnodes⟩ := loops_published h s0
  unfold BinaryTune.updateStatic
  split
  · exact ⟨s, rfl⟩
  · -- what is kept: a mask for every node, and the CPUs still to come are among the configured ones
    have hloop := foldlM_succeeds (f := BinaryTune.addCpu (m.published s0))
      (P := fun l (s : BinaryTune.State) => s.phyNumaMask.length = m.nodes ∧ ∀ i ∈ l, i < m.cpus)
      (l := List.range m.cpus) (s := { s with
        numaNum := (m.published s0).numaNum.toInt32.toInt
        cpuCoreNum := (m.published s0).cpuNumConfig.toInt32.toInt
        cpu2Numa := s.cpu2Numa.takeD m.cpus 0
        phyNumaMask := List.replicate m.nodes ∅ })
      (fun i l s1 hs1 => ?_) ⟨List.length_replicate, fun i hi => List.mem_range.mp hi⟩
    · obtain ⟨s1, hs1, -⟩ := hloop
      refine ⟨{ s1 with envInit := true }, ?_⟩
      rw [hcpus, hnodes]
      simp only [hs1]
      rfl
    · obtain ⟨hlen, hl⟩ := hs1
      obtain ⟨hi, hl⟩ := List.forall_mem_cons.mp hl
      have hlt : i < m.values.length := by rw [length_values]; exact hi
      obtain ⟨hlow, hhigh⟩ := mem_values ha (List.getElem_mem hlt)
      have hget : BinaryTune.vecAt (m.published s0).cpu2Node i = .ok m.values[i] := by
        rw [hv]
        exact BinaryTune.vecAt_ok.mpr ⟨Int.natCast_nonneg i, List.getElem?_eq_getElem hlt⟩
      have hin : m.values[i].toInt32.toInt.toNat < s1.phyNumaMask.length := by omega
      have hmask : BinaryTune.vecAt s1.phyNumaMask m.values[i].toInt32.toInt =
          .ok s1.phyNumaMask[m.values[i].toInt32.toInt.toNat] :=
        BinaryTune.vecAt_ok.mpr ⟨hlow, List.getElem?_eq_getElem hin⟩
      simp only [BinaryTune.addCpu, hget, bind, Except.bind]
      split
      · simp only [hmask]
        exact ⟨_, rfl, by rw [List.length_set, hlen], hl⟩
      · exact ⟨_, rfl, hlen, hl⟩

/-- ASSIGNED AS LISTED: where `Enable` does not refuse, every CPU has been assigned a node and both plugins stay within
    their arrays exactly if every CPU is listed, in a directory that the reading comes to and at a place where it has not
    come to its end. -/
theorem assigned_inBounds_iff (m : Machine) :
    (m.enableResult.code = some OK → m.Assigned ∧ m.InBounds) ↔ m.Refused ∨ m.Listed := by
  rw [enableResult_ok]
  constructor
  · intro h
    by_cases hr : m.Refused
    · exact Or.inl hr
    · exact Or.inr (assigned_iff_listed.mp (h hr).1)
  · rintro (hr | hl) hok
    · exact absurd hr hok
    · have ha := assigned_iff_listed.mpr hl
      exact ⟨ha, fun s0 => ⟨fun s choice hutil => sortNumaCpuUtil_published hok ha s0 s choice hutil,
        updateStatic_published hok ha s0⟩⟩

end Machine

namespace Example

/-- Two nodes, of which the second is `node2`. -/
def sparse : Machine where
  numaNum := 2
  cpuNumConfig := 4
  dirs n := match n with
    | 0 => some [str ".", str "..", str "cpulist", str "cpu0", str "cpu1"]
    | 2 => some [str ".", str "..", str "cpulist", str "cpu2", str "cpu3"]
    | _ => none
  junk _ := 4096
  pageSize := 4096
  numaDistance := [[10, 20], [20, 10]]

end Example

/-- With the nodes 0 and 2 the CPUs of the second are never assigned, and `BinaryTune` indexes its two masks with what the
    new array holds. -/
theorem not_assigned_sparse :
    ¬ (Example.sparse.enableResult.code = some OK → Example.sparse.Assigned ∧ Example.sparse.InBounds) ∧
      BinaryTune.updateStatic (Example.sparse.published init) (BinaryTune.init .empty) = .error .badIndex := by
  have hnone : Example.sparse.cpu2Node[2]? = some none := by decide +kernel
  refine ⟨fun h => ?_, rfl⟩
  obtain ⟨n, -, hn⟩ := (h rfl).1 2 (by decide)
  rw [hnone] at hn
  cases hn

end EnvInfo

end OeAware

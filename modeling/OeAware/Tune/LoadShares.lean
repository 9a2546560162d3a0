import OeAware.Analysis.Isolation
import OeAware.Schemes.Shares
import OeAware.Tune.LoadBased

/-! @src src/plugin/tune/docker/load_based_scheduling/load_based_scheduling.cpp | name:Run, UpdateNumaInfo |
    scheme:shares

    The CPUs of a node are the ones that `UpdateNumaInfo` found, each in one node only. The first pass of `Run`
    counts, for each node, the containers that the second one will serve; the second one hands out the blocks of
    the node, and the number of a block is the number of writes that succeeded before it.

        count ids by node ─▶ k        id ─▶ block l (n / k) j        j ─▶ j + 1 where the write succeeds -/

namespace OeAware
open Schemes

namespace LoadBasedScheduling

variable {D : Type}

/-! ### What is loaded -/

/-- The node of a CPU, an `int`. -/
def nodeIn (info : EnvStaticInfo) (cpu : ℕ) : ℤ := (info.cpu2Node.getD cpu 0).toInt32.toInt

/-- The first CPUs of a node. -/
def cpusBelow (info : EnvStaticInfo) (n : ℕ) (node : ℤ) : List ℤ :=
  ((List.range n).filter (fun cpu => nodeIn info cpu = node)).map Int.ofNat

/-- The CPUs of a node. -/
def nodeCpus (info : EnvStaticInfo) (node : ℤ) : List ℤ := cpusBelow info (loops info.cpuNumConfig) node

/-- The nodes have the CPUs that the info says. -/
structure Loaded (info : EnvStaticInfo) (s : State D) : Prop where
  cpuNuma : ∀ cpu < loops info.cpuNumConfig, s.cpuNuma.find (cpu : ℤ) = some (nodeIn info cpu)
  cpus : ∀ node, (s.numaContainers.value node).cpus = nodeCpus info node

theorem mem_nodeCpus {info : EnvStaticInfo} {node c : ℤ} : c ∈ nodeCpus info node ↔
    ∃ cpu : ℕ, c = cpu ∧ cpu < loops info.cpuNumConfig ∧ nodeIn info cpu = node := by
  simp only [nodeCpus, cpusBelow, List.mem_map, List.mem_filter, List.mem_range, decide_eq_true_eq]
  constructor
  · rintro ⟨cpu, ⟨hlt, hnode⟩, rfl⟩
    exact ⟨cpu, rfl, hlt, hnode⟩
  · rintro ⟨cpu, rfl, hlt, hnode⟩
    exact ⟨cpu, ⟨hlt, hnode⟩, rfl⟩

theorem nodup_nodeCpus (info : EnvStaticInfo) (node : ℤ) : (nodeCpus info node).Nodup :=
  (List.nodup_range.filter _).map fun _ _ h => Int.ofNat.inj h

/-- No CPU is in two nodes. -/
theorem disjoint_nodeCpus {info : EnvStaticInfo} {node node' : ℤ} (h : node ≠ node') :
    (nodeCpus info node).Disjoint (nodeCpus info node') := by
  intro c hc hc'
  obtain ⟨cpu, rfl, -, hnode⟩ := mem_nodeCpus.mp hc
  obtain ⟨cpu', heq, -, hnode'⟩ := mem_nodeCpus.mp hc'
  rw [← Int.ofNat.inj heq, hnode] at hnode'
  exact h hnode'

/-! ### Loading -/

/-- The maps say of the first CPUs what the info says, and nothing else. -/
structure LoadedBelow (info : EnvStaticInfo) (n : ℕ) (s : State D) : Prop where
  cpuNuma : ∀ c, s.cpuNuma.find c = if 0 ≤ c ∧ c < n then some (nodeIn info c.toNat) else none
  cpus : ∀ node, (s.numaContainers.value node).cpus = cpusBelow info n node
  nodes : ∀ node, node ∈ s.numaContainers.keys ↔ cpusBelow info n node ≠ []

/-- They say of all CPUs what it says. -/
def Exact (info : EnvStaticInfo) (s : State D) : Prop := LoadedBelow info (loops info.cpuNumConfig) s

theorem Exact.loaded {info : EnvStaticInfo} {s : State D} (h : Exact info s) : Loaded info s where
  cpuNuma cpu hlt := by
    rw [h.cpuNuma, if_pos ⟨Int.natCast_nonneg cpu, Int.ofNat_lt.mpr hlt⟩, Int.toNat_natCast]
  cpus := h.cpus

theorem Exact.node_mem {info : EnvStaticInfo} {s : State D} {cpu node : ℤ} (h : Exact info s)
    (hfind : s.cpuNuma.find cpu = some node) : node ∈ s.numaContainers.keys := by
  rw [h.cpuNuma] at hfind
  split at hfind
  · rename_i hcpu
    cases hfind
    have hmem : cpu ∈ nodeCpus info (nodeIn info cpu.toNat) := mem_nodeCpus.mpr ⟨cpu.toNat, by omega, by omega, rfl⟩
    exact (h.nodes _).mpr (List.ne_nil_of_mem hmem)
  · cases hfind

theorem cpusBelow_succ (info : EnvStaticInfo) (n : ℕ) (node : ℤ) :
    cpusBelow info (n + 1) node = cpusBelow info n node ++ if nodeIn info n = node then [(n : ℤ)] else [] := by
  rw [cpusBelow, List.range_succ, List.filter_append, List.map_append, List.filter_singleton]
  congr 1
  split
  · rename_i h
    rw [decide_eq_true h]
    rfl
  · rename_i h
    rw [decide_eq_false h]
    rfl

/-- One CPU is added. -/
theorem LoadedBelow.step {info : EnvStaticInfo} {n : ℕ} {s s' : State D} (h : LoadedBelow info n s)
    (hstep : addCpu info s n = .ok s') : LoadedBelow info (n + 1) s' := by
  obtain ⟨node, hnode, hs⟩ := bind_ok hstep
  cases hs
  have hin : node.toInt32.toInt = nodeIn info n := by
    rw [nodeIn, List.getD_eq_getElem?_getD, at'_ok hnode, Option.getD_some]
  refine ⟨fun c => ?_, fun m => ?_, fun m => ?_⟩
  · dsimp only
    rw [UMap.find_insert, hin, h.cpuNuma]
    rcases eq_or_ne c n with rfl | hne
    · rw [if_pos rfl, if_pos ⟨Int.natCast_nonneg n, Int.ofNat_lt.mpr (Nat.lt_succ_self n)⟩, Int.toNat_natCast]
    · rw [if_neg hne]
      refine if_congr ⟨?_, ?_⟩ rfl rfl
      · rintro ⟨h0, hlt⟩
        exact ⟨h0, by push_cast; omega⟩
      · rintro ⟨h0, hlt⟩
        exact ⟨h0, by push_cast at hlt; omega⟩
  · dsimp only
    rw [UMap.value_insert, hin, cpusBelow_succ]
    rcases eq_or_ne m (nodeIn info n) with rfl | hne
    · rw [Function.update_self, if_pos rfl, h.cpus]
    · rw [Function.update_of_ne hne, if_neg hne.symm, List.append_nil, h.cpus]
  · dsimp only
    rw [UMap.mem_keys_insert, hin, cpusBelow_succ, h.nodes]
    rcases eq_or_ne m (nodeIn info n) with rfl | hne
    · simp
    · simp [hne, hne.symm]

theorem loadedBelow_foldlM {info : EnvStaticInfo} {s s' : State D} (h : LoadedBelow info 0 s) : ∀ {n : ℕ},
    (List.range n).foldlM (addCpu info) s = .ok s' → LoadedBelow info n s'
  | 0, hrun => by
    cases hrun
    exact h
  | n + 1, hrun => by
    rw [List.range_succ, List.foldlM_append] at hrun
    obtain ⟨s1, h1, h2⟩ := bind_ok hrun
    obtain ⟨s2, h2, hnil⟩ := bind_ok h2
    cases hnil
    exact (loadedBelow_foldlM h h1).step h2

/-- What `UpdateNumaInfo` makes of empty maps. -/
theorem exact_updateNumaInfo {info : EnvStaticInfo} {s s' : State D} (hcpu : s.cpuNuma.keys = [])
    (hnode : s.numaContainers.keys = []) (h : updateNumaInfo [info] s = .ok s') : Exact info s' := by
  have hempty : LoadedBelow info 0 s := by
    refine ⟨fun c => ?_, fun m => ?_, fun m => ?_⟩
    · rw [if_neg (by rintro ⟨h0, hlt⟩; exact absurd hlt (by omega))]
      exact UMap.find_eq_none (by rw [hcpu]; exact List.not_mem_nil)
    · rw [UMap.value, UMap.find_eq_none (by rw [hnode]; exact List.not_mem_nil)]
      rfl
    · rw [hnode]
      simp [cpusBelow]
  rw [updateNumaInfo, if_neg (fun h => h hcpu)] at h
  obtain ⟨s1, h1, hnil⟩ := bind_ok h
  cases hnil
  exact loadedBelow_foldlM hempty h1

/-! ### The first pass -/

/-- The CPUs a container may use. -/
def cpusOf (container : ContainerCpuInfo D) : List ℤ := (RealTimeTune.parseRange container.cpus).getD []

section
variable [Double D]

/-- Whether it is tuned. -/
def tuned (s : State D) (id : Str) : Bool := isHighLoad s (s.container id) (cpusOf (s.container id)).length

/-- The node of its first CPU. -/
def nodeOf (s : State D) (id : Str) : ℤ := s.cpuNuma.value ((cpusOf (s.container id)).headD 0)

/-- Each container is under its name, and has CPUs; no CPU is marked as used. -/
structure Proper (s : State D) : Prop where
  usedCpus : s.usedCpus.elems = []
  id : ∀ id info, s.containers.find id = some info → info.id = id
  cpus : ∀ id info, s.containers.find id = some info → ∃ cpu cpus, RealTimeTune.parseRange info.cpus = some (cpu :: cpus)

/-- What has been counted of these. -/
structure Counted (s0 : State D) (ids : List Str) (r : State D × List Str) : Prop where
  ids : r.2 = ids.filter (tuned s0)
  containers : r.1.containers = s0.containers
  threshold : r.1.highLoadThreshold = s0.highLoadThreshold
  usedCpus : r.1.usedCpus = s0.usedCpus
  cpuNuma : ∀ cpu, r.1.cpuNuma.value cpu = s0.cpuNuma.value cpu
  numaContainers : ∀ node, r.1.numaContainers.value node =
    { s0.numaContainers.value node with
      containerNum := (s0.numaContainers.value node).containerNum + r.2.countP (fun id => nodeOf s0 id = node) }
  containerNuma : ∀ id ∈ r.2, r.1.containerNuma.find id = some (nodeOf s0 id)

theorem counted_nil (s0 : State D) : Counted s0 [] (s0, []) :=
  ⟨rfl, rfl, rfl, rfl, fun _ => rfl, fun _ => rfl, fun _ h => by cases h⟩

omit [Double D] in
theorem value_insertNew_zero (m : UMap ℤ ℤ) (k k' : ℤ) : (m.insertNew k 0).value k' = m.value k' := by
  rw [UMap.value, UMap.value, UMap.find_insertNew]
  split
  · rename_i h
    have hnone : m.find k' = none := by
      rw [h.1]
      exact Option.isNone_iff_eq_none.mp (by simpa [UMap.count] using h.2)
    rw [hnone]
    rfl
  · rfl

/-- One container is counted. -/
theorem Counted.step {s0 : State D} {ids : List Str} {r : State D × List Str} {id : Str} (hp : Proper s0)
    (hid : id ∈ s0.containers.keys) (h : Counted s0 ids r) :
    ∃ r', countContainer r id = .ok r' ∧ Counted s0 (ids ++ [id]) r' := by
  obtain ⟨s, tuneContainerIds⟩ := r
  obtain ⟨info, hfind⟩ := Option.isSome_iff_exists.mp ((s0.containers.mem_keys id).mp hid)
  obtain ⟨cpu, cpus, hparse⟩ := hp.cpus id info hfind
  have hinfo0 : s0.container id = info := by rw [State.container, hfind]; rfl
  have hinfo : s.container id = info := by
    rw [State.container, show s.containers = s0.containers from h.containers, hfind]
    rfl
  have hcpus : cpusOf info = cpu :: cpus := by rw [cpusOf, hparse]; rfl
  have hhigh : isHighLoad s info (cpu :: cpus).length = tuned s0 id := by
    rw [tuned, hinfo0, hcpus, isHighLoad, isHighLoad, show s.highLoadThreshold = _ from h.threshold]
  have hnode : s.cpuNuma.value cpu = nodeOf s0 id := by
    rw [nodeOf, hinfo0, hcpus, List.headD_cons]
    exact h.cpuNuma cpu
  have hname : info.id = id := hp.id id info hfind
  cases htuned : tuned s0 id with
  | false =>
    refine ⟨(s, tuneContainerIds), ?_, ?_⟩
    · simp only [countContainer, hinfo, parseRange, hparse, hhigh, htuned, bind, Except.bind, pure, Except.pure,
        if_neg Bool.false_ne_true]
    · have hids : (ids ++ [id]).filter (tuned s0) = ids.filter (tuned s0) := by
        rw [List.filter_append, List.filter_singleton, htuned]
        exact List.append_nil _
      exact { h with ids := h.ids.trans hids.symm }
  | true =>
    refine ⟨({ s with
      cpuNuma := s.cpuNuma.insertNew cpu 0
      numaContainers := s.numaContainers.insert (nodeOf s0 id) { s.numaContainers.value (nodeOf s0 id) with
        containerNum := (s.numaContainers.value (nodeOf s0 id)).containerNum + 1 }
      containerNuma := s.containerNuma.insert id (nodeOf s0 id) }, tuneContainerIds ++ [id]), ?_, ?_⟩
    · simp only [countContainer, hinfo, parseRange, hparse, hhigh, htuned, at', List.getElem?_cons_zero, bind,
        Except.bind, pure, Except.pure, if_true, hnode, hname]
    · exact {
        ids := by
          rw [List.filter_append, List.filter_singleton, htuned, ← h.ids]
          rfl
        containers := h.containers
        threshold := h.threshold
        usedCpus := h.usedCpus
        cpuNuma := fun c => (value_insertNew_zero _ _ _).trans (h.cpuNuma c)
        numaContainers := fun node => by
          have hold := h.numaContainers node
          dsimp only at hold ⊢
          rw [UMap.value_insert, List.countP_append, List.countP_singleton]
          rcases eq_or_ne node (nodeOf s0 id) with rfl | hne
          · rw [Function.update_self, hold, if_pos (decide_eq_true rfl)]
            simp only [Nat.add_assoc]
          · rw [Function.update_of_ne hne, hold, if_neg (by simpa using hne.symm), Nat.add_zero]
        containerNuma := fun id' hid' => by
          dsimp only at hid' ⊢
          rw [UMap.find_insert]
          split
          · rename_i heq
            rw [heq]
          · rename_i hne
            refine h.containerNuma id' ((List.mem_append.mp hid').resolve_right ?_)
            rwa [List.mem_singleton] }

/-- The whole pass. -/
theorem counted_foldlM {s0 : State D} (hp : Proper s0) : ∀ {ids done : List Str} {r : State D × List Str},
    (∀ id ∈ ids, id ∈ s0.containers.keys) → Counted s0 done r →
    ∃ r', ids.foldlM countContainer r = .ok r' ∧ Counted s0 (done ++ ids) r'
  | [], done, r, _, h => ⟨r, rfl, by rwa [List.append_nil]⟩
  | id :: ids, done, r, hids, h => by
    obtain ⟨hid, hids⟩ := List.forall_mem_cons.mp hids
    obtain ⟨r1, h1, hcounted⟩ := h.step hp hid
    obtain ⟨r2, h2, hcounted⟩ := counted_foldlM hp hids hcounted
    refine ⟨r2, ?_, ?_⟩
    · rw [List.foldlM_cons, h1]
      exact h2
    · rwa [List.append_assoc] at hcounted

end

/-! ### The second pass -/

/-- How many writes to containers of the node succeed. -/
def succeeded (node : Str → ℤ) (written : Str → Bool) (ids : List Str) (n : ℤ) : ℕ :=
  ids.countP (fun id => written id && decide (node id = n))

/-- What has been handed out to these, of the CPUs `l`, with `k` shares a node. -/
structure Handed (node : Str → ℤ) (l : ℤ → List ℤ) (k : ℤ → ℕ) (written : Str → Bool) (done : List Str)
    (r : State D × List Write) : Prop where
  usedIndex : ∀ n, (r.1.numaContainers.value n).usedIndex = (l n).length / k n * succeeded node written done n
  containerNum : ∀ n, (r.1.numaContainers.value n).containerNum = k n
  cpus : ∀ n, (r.1.numaContainers.value n).cpus = l n
  ids : r.2.map (fun w => w.containerId) = done
  share : ∀ w ∈ r.2, w.success = written w.containerId ∧ ∃ j < k (node w.containerId),
    w.cpus = block (l (node w.containerId)) ((l (node w.containerId)).length / k (node w.containerId)) j ∧
      (w.success = true → j < succeeded node written done (node w.containerId))
  disjoint : r.2.Pairwise (fun w w' => w.success = true → w'.success = true → w.cpus.Disjoint w'.cpus)

/-- The loop over the indices stays inside. -/
theorem mapM_at' {l : List ℤ} {start size : ℕ} (h : start + size ≤ l.length) :
    (List.range size).mapM (fun i => at' l (start + i)) = .ok ((l.drop start).take size) := by
  have hget : ∀ i ∈ List.range size, at' l (start + i) = .ok ((l[start + i]?).getD 0) := by
    intro i hi
    have hlt : start + i < l.length := by
      have := List.mem_range.mp hi
      omega
    rw [at', List.getElem?_eq_getElem hlt, Option.getD_some]
  rw [mapM_ok hget]
  congr 1
  refine List.ext_getElem? fun i => ?_
  rw [List.getElem?_map, List.getElem?_take, List.getElem?_drop]
  split
  · rename_i hi
    have hlt : start + i < l.length := by omega
    rw [List.getElem?_range hi, Option.map_some, List.getElem?_eq_getElem hlt, Option.getD_some]
  · rename_i hi
    rw [List.getElem?_eq_none (by simpa using hi)]
    rfl

variable {node : Str → ℤ} {l : ℤ → List ℤ} {k : ℤ → ℕ} {written : Str → Bool} {done : List Str}
  {r : State D × List Write} {id : Str} {single : Bool}

theorem succeeded_append (n : ℤ) : succeeded node written (done ++ [id]) n =
    succeeded node written done n + if written id && decide (node id = n) then 1 else 0 := by
  rw [succeeded, succeeded, List.countP_append, List.countP_singleton]

/-- One container gets its share. -/
theorem Handed.step (hl : ∀ n, (l n).Nodup) (hdis : ∀ n n', n ≠ n' → (l n).Disjoint (l n'))
    (hnode : r.1.containerNuma.find id = some (node id)) (hused : r.1.usedCpus.elems = [])
    (hroom : succeeded node written done (node id) < k (node id)) (h : Handed node l k written done r) :
    ∃ r', shareCpus written single r id = .ok r' ∧ Handed node l k written (done ++ [id]) r' ∧
      r'.1.containerNuma = r.1.containerNuma ∧ r'.1.usedCpus = r.1.usedCpus := by
  obtain ⟨s, writes⟩ := r
  dsimp only at hnode hused
  have hvalue : s.containerNuma.value id = node id := by rw [UMap.value, hnode]; rfl
  have hnum : (s.numaContainers.value (node id)).containerNum = k (node id) := h.containerNum _
  have hcpus : (s.numaContainers.value (node id)).cpus = l (node id) := h.cpus _
  have hindex : (s.numaContainers.value (node id)).usedIndex =
      (l (node id)).length / k (node id) * succeeded node written done (node id) := h.usedIndex _
  have hzero : ¬k (node id) = 0 := by omega
  have hloop := mapM_at' (l := l (node id)) (share_le hroom)
  have hunused : ∀ {cpus : List ℤ}, cpus.filter (fun cpu => !(single && decide (cpu ∈ s.usedCpus.elems))) = cpus := by
    intro cpus
    rw [hused]
    simp
  have hshare : ∀ {b : Bool}, ∀ w ∈ writes ++ [(⟨id, block (l (node id)) ((l (node id)).length / k (node id))
      (succeeded node written done (node id)), b⟩ : Write)], b = written id →
      w.success = written w.containerId ∧ ∃ j < k (node w.containerId),
        w.cpus = block (l (node w.containerId)) ((l (node w.containerId)).length / k (node w.containerId)) j ∧
          (w.success = true → j < succeeded node written (done ++ [id]) (node w.containerId)) := by
    intro b w hw hb
    rcases List.mem_append.mp hw with hw | hw
    · obtain ⟨hsuccess, j, hj, hw, hlt⟩ := h.share w hw
      refine ⟨hsuccess, j, hj, hw, fun hs => ?_⟩
      rw [succeeded_append]
      exact Nat.lt_add_right _ (hlt hs)
    · rw [List.mem_singleton.mp hw]
      refine ⟨hb, _, hroom, rfl, fun hs => ?_⟩
      dsimp only at hs ⊢
      rw [succeeded_append, ← hb, hs]
      simp
  have hdisjoint : ∀ {b : Bool}, (writes ++ [(⟨id, block (l (node id)) ((l (node id)).length / k (node id))
      (succeeded node written done (node id)), b⟩ : Write)]).Pairwise
        (fun w w' => w.success = true → w'.success = true → w.cpus.Disjoint w'.cpus) := by
    intro b
    refine List.pairwise_append.mpr ⟨h.disjoint, List.pairwise_singleton _ _, fun w hw w' hw' hs _ => ?_⟩
    rw [List.mem_singleton.mp hw']
    obtain ⟨-, j, -, hblock, hlt⟩ := h.share w hw
    rw [hblock]
    rcases eq_or_ne (node w.containerId) (node id) with heq | hne
    · -- an earlier block of the same node
      rw [heq]
      exact disjoint_block (hl _) (heq ▸ hlt hs).ne
    · exact fun c hc hc' => hdis _ _ hne (block_subset hc) (block_subset hc')
  cases hw : written id with
  | false =>
    refine ⟨(s, writes ++ [⟨id, block (l (node id)) ((l (node id)).length / k (node id))
      (succeeded node written done (node id)), false⟩]), ?_, ?_, rfl, rfl⟩
    · simp only [shareCpus, hvalue, hnum, hcpus, hindex, hzero, if_false, hloop, hunused, bind, Except.bind, pure,
        Except.pure, hw, block]
      rfl
    · have hsame : ∀ n, succeeded node written (done ++ [id]) n = succeeded node written done n := fun n => by
        rw [succeeded_append, hw]
        rfl
      exact {
        usedIndex := fun n => by
          rw [hsame]
          exact h.usedIndex n
        containerNum := h.containerNum
        cpus := h.cpus
        ids := by rw [List.map_append, h.ids]; rfl
        share := fun w hmem => hshare w hmem hw.symm
        disjoint := hdisjoint }
  | true =>
    refine ⟨({ s with numaContainers := s.numaContainers.insert (node id) { s.numaContainers.value (node id) with
      usedIndex := (l (node id)).length / k (node id) * succeeded node written done (node id) +
        (l (node id)).length / k (node id) } }, writes ++ [⟨id, block (l (node id)) ((l (node id)).length / k (node id))
      (succeeded node written done (node id)), true⟩]), ?_, ?_, rfl, rfl⟩
    · simp only [shareCpus, hvalue, hnum, hcpus, hindex, hzero, if_false, hloop, hunused, bind, Except.bind, pure,
        Except.pure, hw, block]
      rfl
    · exact {
        usedIndex := fun n => by
          dsimp only
          rw [UMap.value_insert, succeeded_append, hw]
          rcases eq_or_ne n (node id) with rfl | hne
          · rw [Function.update_self]
            simp [Nat.mul_add]
          · rw [Function.update_of_ne hne, h.usedIndex n]
            simp [hne.symm]
        containerNum := fun n => by
          dsimp only
          rw [UMap.value_insert]
          rcases eq_or_ne n (node id) with rfl | hne
          · rw [Function.update_self]
            exact hnum
          · rw [Function.update_of_ne hne]
            exact h.containerNum n
        cpus := fun n => by
          dsimp only
          rw [UMap.value_insert]
          rcases eq_or_ne n (node id) with rfl | hne
          · rw [Function.update_self]
            exact hcpus
          · rw [Function.update_of_ne hne]
            exact h.cpus n
        ids := by rw [List.map_append, h.ids]; rfl
        share := fun w hmem => hshare w hmem hw.symm
        disjoint := hdisjoint }

/-- The whole pass: the shares of a node are as many as the containers that are left for it. -/
theorem handed_foldlM (hl : ∀ n, (l n).Nodup) (hdis : ∀ n n', n ≠ n' → (l n).Disjoint (l n')) :
    ∀ {ids done : List Str} {r : State D × List Write},
      (∀ n, k n = (done ++ ids).countP (fun id => node id = n)) →
      (∀ id ∈ ids, r.1.containerNuma.find id = some (node id)) → r.1.usedCpus.elems = [] →
      Handed node l k written done r →
      ∃ r', ids.foldlM (shareCpus written single) r = .ok r' ∧ Handed node l k written (done ++ ids) r'
  | [], done, r, _, _, _, h => ⟨r, rfl, by rwa [List.append_nil]⟩
  | id :: ids, done, r, hk, hnode, hused, h => by
    obtain ⟨hid, hnode⟩ := List.forall_mem_cons.mp hnode
    have hroom : succeeded node written done (node id) < k (node id) := by
      have hself : decide (node id = node id) = true := decide_eq_true rfl
      rw [hk, List.countP_append, List.countP_cons_of_pos (p := fun i => decide (node i = node id)) hself, succeeded]
      have hle := List.countP_mono_left (l := done) (p := fun i => written i && decide (node i = node id))
        (q := fun i => decide (node i = node id)) fun _ _ h => (Bool.and_eq_true_iff.mp h).2
      omega
    obtain ⟨r1, h1, hhanded, hnuma, hsame⟩ := Handed.step (D := D) hl hdis hid hused hroom h
    obtain ⟨r2, h2, hhanded⟩ := handed_foldlM hl hdis (fun n => (hk n).trans (by rw [List.append_assoc]; rfl))
      (fun i hi => by rw [hnuma]; exact hnode i hi) (hsame ▸ hused) hhanded
    refine ⟨r2, ?_, ?_⟩
    · rw [List.foldlM_cons, h1]
      exact h2
    · rwa [List.append_assoc] at hhanded

/-! ### `Run` -/

theorem value_mapVal_reset (s : State D) (n : ℤ) :
    (s.numaContainers.mapVal (fun _ info => ({ info with containerNum := 0, usedIndex := 0 } : ContainerInfo))).value n =
      ⟨0, (s.numaContainers.value n).cpus, 0⟩ := by
  rw [UMap.value, UMap.find_mapVal, UMap.value]
  cases s.numaContainers.find n with
  | none => rfl
  | some info => rfl

variable [Double D]

/-- The containers that a run tunes, in the order in which it meets them. -/
def tunedIds (order : List Str) (s : State D) : List Str := (s.containers.reorder order).keys.filter (tuned s)

/-- How many of them are on the node. -/
def tunedOn (order : List Str) (s : State D) (n : ℤ) : ℕ :=
  (tunedIds order s).countP (fun id => nodeOf s id = n)

/-- EQUAL SHARES: `Run` writes to the containers with a high load, in the order in which it meets them, without
    an index beyond the CPUs of a node. What is written, even in vain, are CPUs of the node of the first CPU, each
    once, the quotient of their number by that of the containers to tune on the node; two that are written
    successfully have no CPU in common. -/
theorem run_shares {info : EnvStaticInfo} {s : State D} (order : List Str) (written : Str → Bool) (h : Loaded info s)
    (hp : Proper s) :
    ∃ s' writes, run order written s = .ok (s', writes) ∧
      writes.map (fun w => w.containerId) = tunedIds order s ∧
      (∀ w ∈ writes, w.success = written w.containerId ∧ w.cpus ⊆ nodeCpus info (nodeOf s w.containerId) ∧ w.cpus.Nodup ∧
        w.cpus.length = (nodeCpus info (nodeOf s w.containerId)).length / tunedOn order s (nodeOf s w.containerId)) ∧
      writes.Pairwise (fun w w' => w.success = true → w'.success = true → w.cpus.Disjoint w'.cpus) := by
  let s0 : State D := { s with
    numaContainers := s.numaContainers.mapVal (fun _ info => { info with containerNum := 0, usedIndex := 0 }) }
  have hp0 : Proper s0 := { usedCpus := hp.usedCpus, id := hp.id, cpus := hp.cpus }
  have hmem : ∀ id ∈ (s.containers.reorder order).keys, id ∈ s0.containers.keys :=
    fun id hid => (UMap.mem_keys_reorder _ _ _).mp hid
  obtain ⟨⟨s1, ids⟩, hrun1, hcounted⟩ := counted_foldlM hp0 hmem (counted_nil s0)
  rw [List.nil_append] at hcounted
  have hids : ids = tunedIds order s := hcounted.ids
  have hnum : ∀ n, s1.numaContainers.value n =
      ⟨tunedOn order s n, nodeCpus info n, 0⟩ := by
    intro n
    rw [show s1.numaContainers.value n = _ from hcounted.numaContainers n, value_mapVal_reset, h.cpus]
    simp only [Nat.zero_add, tunedOn, ← hids]
    rfl
  have hhanded : Handed (nodeOf s) (nodeCpus info) (tunedOn order s) written [] (s1, []) :=
    { usedIndex := fun n => by rw [hnum]; rfl
      containerNum := fun n => by rw [hnum]
      cpus := fun n => by rw [hnum]
      ids := rfl
      share := fun _ h => by cases h
      disjoint := List.Pairwise.nil }
  obtain ⟨⟨s2, writes⟩, hrun2, hhanded⟩ : ∃ r', ids.foldlM (shareCpus written (decide (ids.length = 1))) (s1, []) = .ok r' ∧
      Handed (nodeOf s) (nodeCpus info) (tunedOn order s) written ([] ++ ids) r' := handed_foldlM (nodup_nodeCpus info) (fun _ _ => disjoint_nodeCpus) (fun n => by rw [List.nil_append, hids]; rfl)
    hcounted.containerNuma (show s1.usedCpus.elems = [] by
      rw [show s1.usedCpus = _ from hcounted.usedCpus]; exact hp.usedCpus) hhanded
  rw [List.nil_append] at hhanded
  refine ⟨s2, writes, ?_, hhanded.ids.trans hids, fun w hw => ?_, hhanded.disjoint⟩
  · rw [run]
    simp only [bind, Except.bind]
    rw [show (s.containers.reorder order).keys.foldlM countContainer (s0, []) = .ok (s1, ids) from hrun1]
    exact hrun2
  · obtain ⟨hsuccess, j, hj, hblock, -⟩ := hhanded.share w hw
    rw [hblock]
    exact ⟨hsuccess, block_subset, block_nodup (nodup_nodeCpus info _), length_block (share_le hj)⟩

/-! ### Three containers on two nodes -/

namespace Example

/-- The CPUs 0 to 4 are on the node 0, the CPUs 5 to 7 on the node 1. -/
def info : EnvStaticInfo := ⟨2, 8, 4096, 0, [0, 0, 0, 0, 0, 1, 1, 1], []⟩

def container (id cpus : Str) : ContainerCpuInfo ℚ := ⟨id, 0, unlimit, 9, cpus, [], .empty⟩

def unloaded : State ℚ where
  maxCycles := [1]
  pids := .empty
  usedCpus := .empty
  containers := ((UMap.empty.insert [97] (container [97] (str "0-3"))).insert [98] (container [98] (str "1,5"))).insert
    [99] (container [99] (str "6"))
  containerNuma := .empty
  cpuNuma := .empty
  numaContainers := .empty
  highLoadThreshold := 1 / 2

def loaded : State ℚ := match updateNumaInfo [info] unloaded with
  | .ok s => s
  | .error _ => unloaded

theorem updateNumaInfo_unloaded : updateNumaInfo [info] unloaded = .ok loaded := rfl

theorem find_containers {id : Str} {info : ContainerCpuInfo ℚ} (h : loaded.containers.find id = some info) :
    id = [97] ∧ info = container [97] (str "0-3") ∨ id = [98] ∧ info = container [98] (str "1,5") ∨
      id = [99] ∧ info = container [99] (str "6") := by
  rw [show loaded.containers = unloaded.containers from rfl, unloaded, UMap.find_insert, UMap.find_insert,
    UMap.find_insert, UMap.find_empty] at h
  split at h
  · exact .inr (.inr ⟨‹_›, (Option.some.inj h).symm⟩)
  · split at h
    · exact .inr (.inl ⟨‹_›, (Option.some.inj h).symm⟩)
    · split at h
      · exact .inl ⟨‹_›, (Option.some.inj h).symm⟩
      · cases h

theorem proper_loaded : Proper loaded where
  usedCpus := rfl
  id id info h := by
    obtain ⟨rfl, rfl⟩ | ⟨rfl, rfl⟩ | ⟨rfl, rfl⟩ := find_containers h <;> rfl
  cpus id info h := by
    obtain ⟨rfl, rfl⟩ | ⟨rfl, rfl⟩ | ⟨rfl, rfl⟩ := find_containers h
    · exact ⟨0, [1, 2, 3], by decide +kernel⟩
    · exact ⟨1, [5], by decide +kernel⟩
    · exact ⟨6, [], by decide +kernel⟩

end Example

/-- The two containers of the node 0 get two CPUs each, and the one whose write fails leaves them to the next. -/
theorem run_shares_three : ∃ s' writes, run [[97], [98], [99]] (fun id => id ≠ [97]) Example.loaded = .ok (s', writes) ∧
    writes.map (fun w => w.containerId) = [[97], [98], [99]] ∧
    (∀ w ∈ writes, w.cpus.length = if w.containerId = [99] then 3 else 2) ∧
    writes.Pairwise (fun w w' => w.success = true → w'.success = true → w.cpus.Disjoint w'.cpus) := by
  obtain ⟨s', writes, hrun, hids, hw, hdis⟩ := run_shares [[97], [98], [99]] (fun id => id ≠ [97])
    (exact_updateNumaInfo rfl rfl Example.updateNumaInfo_unloaded).loaded Example.proper_loaded
  have htuned : tunedIds [[97], [98], [99]] Example.loaded = [[97], [98], [99]] := by decide +kernel
  refine ⟨s', writes, hrun, hids.trans htuned, fun w hmem => ?_, hdis⟩
  have hid : w.containerId ∈ [[97], [98], [99]] := htuned ▸ hids ▸ List.mem_map_of_mem hmem
  rw [(hw w hmem).2.2.2]
  generalize w.containerId = id at hid
  revert hid
  revert id
  decide +kernel

end LoadBasedScheduling
end OeAware

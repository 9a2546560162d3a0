import OeAware.Schemes.Run
import OeAware.Tune.LoadShares

/-! @src src/plugin/tune/docker/load_based_scheduling/load_based_scheduling.cpp |
    name:UpdateData, Run, on an enabled instance | scheme:invariant

    Lists of containers, the static info, samples and runs come in any order. The task of a sample is looked up in
    `pids`; a list adds its tasks there and takes off those of the containers that are gone. Whatever the order,
    a task stands in `pids` under a container that is there.

        list ──▶ pids ∪ tasks of the list ──▶ pids ∖ tasks of the containers that go ──▶ cycles of a sample

    Where the list and what is known of the containers that go agree, `pids` is the latest list; and where no run
    meets a CPU of an unknown node, the CPUs of the nodes are those of the info. -/

namespace OeAware
open Schemes

namespace LoadBasedScheduling

variable {D : Type}

/-! ### `UpdateDockerData` -/

/-- The container that lists the task; of several it is the last. -/
def lister (data : List DockerAdapt.Entry) (pid : Int32) : Option Str :=
  (data.reverse.find? (fun container => pid ∈ container.tasks)).map (fun container => container.id)

theorem lister_append (data : List DockerAdapt.Entry) (container : DockerAdapt.Entry) (pid : Int32) :
    lister (data ++ [container]) pid = if pid ∈ container.tasks then some container.id else lister data pid := by
  rw [lister, List.reverse_append, List.reverse_singleton, List.singleton_append, List.find?_cons]
  split
  · rename_i h
    rw [if_pos (of_decide_eq_true h)]
    rfl
  · rename_i h
    rw [if_neg (of_decide_eq_false h)]
    rfl

/-- The containers in which `lister` finds the tasks list them. -/
theorem lister_eq_some {data : List DockerAdapt.Entry} {pid : Int32} {id : Str} (h : lister data pid = some id) :
    ∃ container ∈ data, container.id = id ∧ pid ∈ container.tasks := by
  obtain ⟨container, hfind, rfl⟩ := Option.map_eq_some_iff.mp h
  exact ⟨container, List.mem_reverse.mp (List.mem_of_find?_eq_some hfind), rfl,
    by simpa using List.find?_some hfind⟩

theorem lister_eq_none {data : List DockerAdapt.Entry} {pid : Int32} :
    lister data pid = none ↔ ∀ container ∈ data, pid ∉ container.tasks := by
  simp [lister]

section
variable [Double D]

/-- The tasks that are known of a container. -/
def tasksOf (s : State D) (id : Str) : List Int32 := (s.container id).tasks.elems

/-- What the first loop has made of these. -/
structure Updated (s0 : State D) (done : List DockerAdapt.Entry) (s : State D) : Prop where
  pids : ∀ pid, s.pids.find pid = (lister done pid).or (s0.pids.find pid)
  keys : ∀ id, id ∈ s.containers.keys ↔ id ∈ s0.containers.keys ∨ id ∈ done.map (fun container => container.id)
  tasks : ∀ id pid, pid ∈ tasksOf s id ↔
    pid ∈ tasksOf s0 id ∨ ∃ container ∈ done, container.id = id ∧ pid ∈ container.tasks
  named : (∀ id info, s0.containers.find id = some info → info.id = id ∧ info.cycles = 0) →
    ∀ id info, s.containers.find id = some info → info.id = id ∧ info.cycles = 0
  rest : s.cpuNuma = s0.cpuNuma ∧ s.numaContainers = s0.numaContainers ∧ s.usedCpus = s0.usedCpus ∧
    s.maxCycles = s0.maxCycles

theorem find_insertAll (id : Str) : ∀ (tasks : List Int32) (pids : UMap Int32 Str) (pid : Int32),
    (tasks.foldl (fun pids pid => pids.insert pid id) pids).find pid = if pid ∈ tasks then some id else pids.find pid
  | [], _, _ => rfl
  | task :: tasks, pids, pid => by
    rw [List.foldl_cons, find_insertAll id tasks, UMap.find_insert]
    rcases eq_or_ne pid task with rfl | hne
    · simp
    · simp [hne]

theorem mem_insertAll : ∀ (tasks : List Int32) (set : USet Int32) (pid : Int32),
    pid ∈ (tasks.foldl (fun tasks pid => tasks.insert pid) set).elems ↔ pid ∈ set.elems ∨ pid ∈ tasks
  | [], set, pid => by simp
  | task :: tasks, set, pid => by
    rw [List.foldl_cons, mem_insertAll tasks, USet.mem_insert, List.mem_cons]
    tauto

/-- One container of the list. -/
theorem Updated.step {preferred : Str → Str} {s0 s s' : State D} {done : List DockerAdapt.Entry}
    {container : DockerAdapt.Entry} (h : Updated s0 done s) (hstep : updateContainer preferred s container = .ok s') :
    Updated s0 (done ++ [container]) s' := by
  obtain ⟨tot, -, hs⟩ := bind_ok hstep
  cases hs
  refine ⟨fun pid => ?_, fun id => ?_, fun id pid => ?_, fun h0 id info hfind => ?_, h.rest⟩
  · dsimp only
    rw [find_insertAll, lister_append, h.pids]
    split <;> rfl
  · dsimp only
    rw [UMap.mem_keys_insert, h.keys, List.map_append, List.mem_append, List.map_singleton, List.mem_singleton]
    tauto
  · have hold := h.tasks id pid
    rw [tasksOf, State.container] at hold ⊢
    dsimp only
    rw [UMap.find_insert]
    split
    · rename_i heq
      subst heq
      rw [Option.getD_some, mem_insertAll, State.container, hold, or_assoc]
      simp only [List.mem_append, List.mem_singleton, or_and_right, exists_or, exists_eq_left, true_and]
    · rename_i hne
      rw [hold]
      simp [Ne.symm hne]
  · dsimp only at hfind
    rw [UMap.find_insert] at hfind
    split at hfind
    · rename_i heq
      cases hfind
      refine ⟨heq.symm, ?_⟩
      dsimp only
      rw [State.container]
      cases hold : s.containers.find container.id with
      | none => rfl
      | some old => exact (h.named h0 _ old hold).2
    · exact h.named h0 id info hfind

theorem updated_foldlM {preferred : Str → Str} {s0 : State D} : ∀ {data done : List DockerAdapt.Entry} {s s' : State D},
    Updated s0 done s → data.foldlM (updateContainer preferred) s = .ok s' → Updated s0 (done ++ data) s'
  | [], done, s, s', h, hrun => by
    cases hrun
    rwa [List.append_nil]
  | container :: data, done, s, s', h, hrun => by
    rw [List.foldlM_cons] at hrun
    obtain ⟨s1, h1, h2⟩ := bind_ok hrun
    have h3 := updated_foldlM (h.step h1) h2
    rwa [List.append_assoc] at h3

/-- What the second loop has made of these. -/
structure Removed (containerIds : List Str) (s0 : State D) (ids : List Str) (s : State D) : Prop where
  find : ∀ id, s.containers.find id = if id ∈ ids ∧ id ∉ containerIds then none else s0.containers.find id
  pids : ∀ pid, s.pids.find pid = if ∃ id ∈ ids, id ∉ containerIds ∧ pid ∈ tasksOf s0 id then none else s0.pids.find pid
  rest : s.cpuNuma = s0.cpuNuma ∧ s.numaContainers = s0.numaContainers ∧ s.usedCpus = s0.usedCpus ∧
    s.maxCycles = s0.maxCycles

omit [Double D] in
theorem find_eraseAll : ∀ (tasks : List Int32) (pids : UMap Int32 Str) (pid : Int32),
    (tasks.foldl (fun pids pid => pids.erase pid) pids).find pid = if pid ∈ tasks then none else pids.find pid
  | [], _, _ => rfl
  | task :: tasks, pids, pid => by
    rw [List.foldl_cons, find_eraseAll tasks, UMap.find_erase]
    rcases eq_or_ne pid task with rfl | hne
    · simp
    · simp [hne]

theorem removed_foldl (containerIds : List Str) : ∀ {ids : List Str} (s0 : State D), ids.Nodup →
    Removed containerIds s0 ids (ids.foldl (removeGone containerIds) s0)
  | [], s0, _ => ⟨fun _ => by simp, fun _ => by simp, rfl, rfl, rfl, rfl⟩
  | id :: ids, s0, hnodup => by
    obtain ⟨hid, hnodup⟩ := List.nodup_cons.mp hnodup
    have h := removed_foldl containerIds (removeGone containerIds s0 id) hnodup
    rw [List.foldl_cons]
    rcases em (id ∈ containerIds) with hmem | hmem
    · have hsame : removeGone containerIds s0 id = s0 := if_pos hmem
      rw [hsame] at h ⊢
      refine ⟨fun i => ?_, fun pid => ?_, h.rest⟩
      · rw [h.find]
        refine if_congr ⟨fun hi => ⟨List.mem_cons_of_mem _ hi.1, hi.2⟩, ?_⟩ rfl rfl
        rintro ⟨hi, hnot⟩
        exact ⟨(List.mem_cons.mp hi).resolve_left (fun heq => hnot (heq ▸ hmem)), hnot⟩
      · rw [h.pids]
        simp [hmem]
    · have hgone : removeGone containerIds s0 id = { s0 with
          pids := (s0.container id).tasks.elems.foldl (fun pids pid => pids.erase pid) s0.pids
          containers := s0.containers.erase id } := if_neg hmem
      rw [hgone] at h ⊢
      refine ⟨fun i => ?_, fun pid => ?_, h.rest⟩
      · rw [h.find, UMap.find_erase]
        rcases eq_or_ne i id with rfl | hne
        · simp [hmem]
        · simp [hne]
      · have htasks : ∀ i ∈ ids, tasksOf { s0 with
            pids := (s0.container id).tasks.elems.foldl (fun pids pid => pids.erase pid) s0.pids
            containers := s0.containers.erase id } i = tasksOf s0 i := by
          intro i hi
          have hne : i ≠ id := fun heq => hid (heq ▸ hi)
          rw [tasksOf, tasksOf, State.container, State.container, UMap.find_erase, if_neg hne]
          rfl
        rw [h.pids, find_eraseAll]
        have hiff : (∃ i ∈ ids, i ∉ containerIds ∧ pid ∈ tasksOf { s0 with
            pids := (s0.container id).tasks.elems.foldl (fun pids pid => pids.erase pid) s0.pids
            containers := s0.containers.erase id } i) ↔ ∃ i ∈ ids, i ∉ containerIds ∧ pid ∈ tasksOf s0 i :=
          exists_congr fun i => and_congr_right fun hi => by rw [htasks i hi]
        rw [if_congr hiff rfl rfl]
        simp only [List.mem_cons, exists_eq_or_imp, hmem, not_false_eq_true, true_and, ← ite_or]
        exact if_congr or_comm rfl rfl

/-- WHAT A LIST DOES: the containers are those of the list, and a task stands where the list or else the old state
    has it, unless a container that goes had it. -/
theorem find_updateDockerData {preferred : Str → Str} {data : List DockerAdapt.Entry} {s s' : State D}
    (h : updateDockerData preferred data s = .ok s') :
    (∀ id, id ∈ s'.containers.keys ↔ id ∈ data.map (fun container => container.id)) ∧
    (∀ pid, s'.pids.find pid =
      if ∃ id ∈ s.containers.keys, id ∉ data.map (fun container => container.id) ∧ pid ∈ tasksOf s id then none
      else (lister data pid).or (s.pids.find pid)) ∧
    (∀ id ∈ data.map (fun container => container.id), ∀ pid, pid ∈ tasksOf s' id ↔
      pid ∈ tasksOf s id ∨ ∃ container ∈ data, container.id = id ∧ pid ∈ container.tasks) ∧
    ((∀ id info, s.containers.find id = some info → info.id = id ∧ info.cycles = 0) →
      ∀ id info, s'.containers.find id = some info → info.id = id ∧ info.cycles = 0) ∧
    s'.cpuNuma = s.cpuNuma ∧ s'.numaContainers = s.numaContainers ∧ s'.usedCpus = s.usedCpus ∧
      s'.maxCycles = s.maxCycles := by
  obtain ⟨s1, h1, hs⟩ := bind_ok h
  cases hs
  have hnil : Updated s [] s :=
    ⟨fun _ => rfl, fun _ => by simp, fun _ _ => by simp, fun h0 => h0, rfl, rfl, rfl, rfl⟩
  have hup : Updated s data s1 := updated_foldlM hnil h1
  have hrem := removed_foldl (data.map (fun container => container.id)) s1 s1.containers.nodup
  have hgone : ∀ pid, (∃ id ∈ s1.containers.keys, id ∉ data.map (fun container => container.id) ∧ pid ∈ tasksOf s1 id) ↔
      ∃ id ∈ s.containers.keys, id ∉ data.map (fun container => container.id) ∧ pid ∈ tasksOf s id := by
    intro pid
    refine exists_congr fun id => ?_
    rw [hup.keys, hup.tasks]
    constructor
    · rintro ⟨hid, hnot, htask⟩
      refine ⟨hid.resolve_right hnot, hnot, htask.resolve_right ?_⟩
      rintro ⟨container, hmem, rfl, -⟩
      exact hnot (List.mem_map_of_mem hmem)
    · rintro ⟨hid, hnot, htask⟩
      exact ⟨.inl hid, hnot, .inl htask⟩
  refine ⟨fun id => ?_, fun pid => ?_, fun id hid pid => ?_, fun h0 id info hfind => ?_, ?_⟩
  · rw [UMap.mem_keys, hrem.find]
    split
    · rename_i hnot
      exact ⟨fun hs => absurd hs (by simp), fun hs => absurd hs hnot.2⟩
    · rename_i hnot
      rw [← UMap.mem_keys]
      refine ⟨fun hkey => ?_, fun hid => (hup.keys id).mpr (.inr hid)⟩
      by_contra hid
      exact hnot ⟨hkey, hid⟩
  · rw [hrem.pids, hup.pids]
    exact if_congr (hgone pid) rfl rfl
  · rw [← hup.tasks, tasksOf, tasksOf, State.container, State.container, hrem.find, if_neg (fun h => h.2 hid)]
  · rw [hrem.find] at hfind
    split at hfind
    · cases hfind
    · exact hup.named h0 id info hfind
  · obtain ⟨h2, h3, h4, h5⟩ := hrem.rest
    obtain ⟨h6, h7, h8, h9⟩ := hup.rest
    exact ⟨h2.trans h6, h3.trans h7, h4.trans h8, h5.trans h9⟩

/-! ### `UpdatePmuData` -/

/-- The cycles of the samples of a container. -/
def charged (pids : Int32 → Option Str) (id : Str) (samples : List Sample) (cycles : Int64) : Int64 :=
  (samples.filter (fun data => pids data.pid = some id)).foldl (fun cycles data => cycles + data.period.toInt64) cycles

/-- One sample: nothing but the cycles of a container that is there. -/
theorem charge_eq {s : State D} (h : ∀ pid id, s.pids.find pid = some id → id ∈ s.containers.keys) (data : Sample) :
    (∀ id, (charge s data).containers.find id = (s.containers.find id).map (fun container => { container with
      cycles := charged s.pids.find id [data] container.cycles })) ∧
    ∃ containers, charge s data = { s with containers } := by
  rw [charge]
  cases hpid : s.pids.find data.pid with
  | none =>
    refine ⟨fun id => ?_, s.containers, rfl⟩
    simp [charged, hpid]
  | some name =>
    refine ⟨fun id => ?_, _, rfl⟩
    obtain ⟨info, hinfo⟩ := Option.isSome_iff_exists.mp ((s.containers.mem_keys name).mp (h _ _ hpid))
    dsimp only
    rw [UMap.find_insert]
    rcases eq_or_ne id name with rfl | hne
    · simp [charged, hpid, State.container, hinfo]
    · simp [charged, hpid, hne, hne.symm]

theorem foldl_charge : ∀ (samples : List Sample) {s : State D},
    (∀ pid id, s.pids.find pid = some id → id ∈ s.containers.keys) →
    (∀ id, (samples.foldl charge s).containers.find id = (s.containers.find id).map (fun container => { container with
      cycles := charged s.pids.find id samples container.cycles })) ∧
    ∃ containers, samples.foldl charge s = { s with containers }
  | [], s, _ => by
    refine ⟨fun id => ?_, s.containers, rfl⟩
    rw [List.foldl_nil]
    cases s.containers.find id <;> rfl
  | data :: samples, s, h => by
    obtain ⟨hfind, containers, hs⟩ := charge_eq h data
    have hkeys : ∀ pid id, (charge s data).pids.find pid = some id → id ∈ (charge s data).containers.keys := by
      intro pid id hpid
      rw [UMap.mem_keys, hfind, Option.isSome_map, ← UMap.mem_keys]
      rw [hs] at hpid
      exact h pid id hpid
    obtain ⟨hfind', containers', hs'⟩ := foldl_charge samples hkeys
    refine ⟨fun id => ?_, containers', ?_⟩
    · rw [List.foldl_cons, hfind', hfind, Option.map_map, show (charge s data).pids = s.pids by rw [hs]]
      congr 1
      funext container
      simp only [Function.comp_apply, charged, List.filter_cons]
      split <;> rfl
    · rw [List.foldl_cons, hs', hs]

/-- WHAT SAMPLES DO: each container that is there is charged with the samples of its tasks; no other comes to be. -/
theorem find_updatePmuData {data : List PmuSamplingData} {s s' : State D}
    (h : ∀ pid id, s.pids.find pid = some id → id ∈ s.containers.keys)
    (hzero : ∀ id info, s.containers.find id = some info → info.cycles = 0)
    (hrun : updatePmuData data s = .ok s') :
    (∃ containers, s' = { s with containers }) ∧ ∃ pmuData, data[0]? = some pmuData ∧
      ∀ id, s'.containers.find id = (s.containers.find id).map (fun container => { container with
        cpuLoad := cpuLoad (charged s.pids.find id pmuData.pmuData 0) pmuData.interval (s.maxCycles.headD 0)
        cycles := 0 }) := by
  obtain ⟨pmuData, hdata, hrun⟩ := bind_ok hrun
  obtain ⟨hfind, containers, hs⟩ := foldl_charge pmuData.pmuData h
  rw [hs] at hrun hfind
  dsimp only at hrun hfind
  split at hrun
  · rename_i hnil
    cases hrun
    refine ⟨⟨containers, rfl⟩, pmuData, at'_ok hdata, fun id => ?_⟩
    have hnone : containers.find id = none := UMap.find_eq_none (by rw [hnil]; exact List.not_mem_nil)
    have hold := hfind id
    rw [hnone] at hold ⊢
    rw [Option.map_eq_none_iff.mp hold.symm, Option.map_none]
  · obtain ⟨maxCycles, hmax, hrun⟩ := bind_ok hrun
    cases hrun
    have hhead : s.maxCycles.headD 0 = maxCycles := by
      rw [List.headD_eq_head?_getD, List.head?_eq_getElem?, at'_ok hmax, Option.getD_some]
    refine ⟨⟨_, rfl⟩, pmuData, at'_ok hdata, fun id => ?_⟩
    dsimp only
    rw [UMap.find_mapVal, hfind, hhead]
    cases hold : s.containers.find id with
    | none => simp only [Option.map_none]
    | some info => simp only [Option.map_some, hzero id info hold]

/-! ### `Run` -/

/-- What `Run` leaves alone, and the CPUs that keep their node. -/
structure Frame (s0 s : State D) : Prop where
  containers : s.containers = s0.containers
  pids : s.pids = s0.pids
  usedCpus : s.usedCpus = s0.usedCpus
  maxCycles : s.maxCycles = s0.maxCycles
  threshold : s.highLoadThreshold = s0.highLoadThreshold
  cpus : ∀ node, (s.numaContainers.value node).cpus = (s0.numaContainers.value node).cpus
  cpuNuma : ∀ cpu node, s0.cpuNuma.find cpu = some node → s.cpuNuma.find cpu = some node

/-- No CPU and no node is added. -/
structure Tight (s0 s : State D) : Prop where
  cpuNuma : s.cpuNuma = s0.cpuNuma
  nodes : ∀ node, node ∈ s.numaContainers.keys ↔ node ∈ s0.numaContainers.keys

omit [Double D] in
theorem Frame.refl (s : State D) : Frame s s := ⟨rfl, rfl, rfl, rfl, rfl, fun _ => rfl, fun _ _ h => h⟩

omit [Double D] in
theorem Frame.trans {s0 s1 s2 : State D} (h : Frame s0 s1) (h' : Frame s1 s2) : Frame s0 s2 where
  containers := h'.containers.trans h.containers
  pids := h'.pids.trans h.pids
  usedCpus := h'.usedCpus.trans h.usedCpus
  maxCycles := h'.maxCycles.trans h.maxCycles
  threshold := h'.threshold.trans h.threshold
  cpus node := (h'.cpus node).trans (h.cpus node)
  cpuNuma cpu node hfind := h'.cpuNuma cpu node (h.cpuNuma cpu node hfind)

omit [Double D] in
theorem Tight.refl (s : State D) : Tight s s := ⟨rfl, fun _ => Iff.rfl⟩

omit [Double D] in
theorem Tight.trans {s0 s1 s2 : State D} (h : Tight s0 s1) (h' : Tight s1 s2) : Tight s0 s2 :=
  ⟨h'.cpuNuma.trans h.cpuNuma, fun node => (h'.nodes node).trans (h.nodes node)⟩

/-- The first CPU of the container is on a node that is known. -/
def Known (s : State D) (id : Str) : Prop :=
  ∃ node, s.cpuNuma.find ((cpusOf (s.container id)).headD 0) = some node ∧ node ∈ s.numaContainers.keys

omit [Double D] in
/-- An insertion that changes only the counters of a node. -/
theorem value_cpus_insert (m : UMap ℤ ContainerInfo) {node : ℤ} {info : ContainerInfo}
    (h : info.cpus = (m.value node).cpus) (n : ℤ) : ((m.insert node info).value n).cpus = (m.value n).cpus := by
  rw [UMap.value_insert]
  rcases eq_or_ne n node with rfl | hne
  · rw [Function.update_self, h]
  · rw [Function.update_of_ne hne]

theorem frame_countContainer {r r' : State D × List Str} {id : Str} (h : countContainer r id = .ok r') :
    Frame r.1 r'.1 ∧ ((tuned r.1 id = true → Known r.1 id) → Tight r.1 r'.1) := by
  obtain ⟨s, tuneContainerIds⟩ := r
  obtain ⟨cpus, hcpus, h⟩ := bind_ok h
  have hof : cpusOf (s.container id) = cpus := by
    rw [parseRange] at hcpus
    split at hcpus
    · rename_i hparse
      cases hcpus
      rw [cpusOf, hparse, Option.getD_some]
    · cases hcpus
  split at h
  · rename_i hhigh
    obtain ⟨cpu, hcpu, h⟩ := bind_ok h
    cases h
    refine ⟨⟨rfl, rfl, rfl, rfl, rfl, value_cpus_insert _ rfl, fun c node hfind => ?_⟩, fun hknown => ?_⟩
    · have hold : ¬(c = cpu ∧ s.cpuNuma.count cpu = false) := by
        rintro ⟨rfl, hnone⟩
        rw [UMap.count, show s.cpuNuma.find c = some node from hfind] at hnone
        cases hnone
      dsimp only
      rw [UMap.find_insertNew, if_neg hold]
      exact hfind
    · have htuned : tuned s id = true := by rw [tuned, hof, hhigh]
      obtain ⟨node, hnode, hkey⟩ := hknown htuned
      have hhead : (cpusOf (s.container id)).headD 0 = cpu := by
        rw [hof, List.headD_eq_head?_getD, List.head?_eq_getElem?, at'_ok hcpu, Option.getD_some]
      rw [hhead] at hnode
      have hvalue : s.cpuNuma.value cpu = node := by rw [UMap.value, hnode]; rfl
      refine ⟨if_pos (by rw [UMap.count, hnode]; rfl), fun n => ?_⟩
      dsimp only
      rw [UMap.mem_keys_insert, hvalue]
      exact ⟨fun hn => hn.elim (fun heq => heq ▸ hkey) (fun hn => hn), .inr⟩
  · cases h
    exact ⟨.refl s, fun _ => .refl s⟩

omit [Double D] in
theorem frame_shareCpus {written : Str → Bool} {single : Bool} {r r' : State D × List Write} {id : Str}
    (h : shareCpus written single r id = .ok r') : Frame r.1 r'.1 ∧ Tight r.1 r'.1 := by
  obtain ⟨s, writes⟩ := r
  rw [shareCpus] at h
  dsimp only at h
  split at h
  · cases h
  · rename_i hnum
    obtain ⟨cpus, -, h⟩ := bind_ok h
    split at h
    · cases h
      refine ⟨⟨rfl, rfl, rfl, rfl, rfl, value_cpus_insert _ rfl, fun _ _ h => h⟩, rfl, fun n => ?_⟩
      dsimp only
      rw [UMap.mem_keys_insert]
      refine ⟨fun hn => hn.elim (fun heq => ?_) (fun hn => hn), .inr⟩
      rw [heq]
      by_contra hkey
      refine hnum ?_
      rw [UMap.value, UMap.find_eq_none hkey]
      rfl
    · cases h
      exact ⟨.refl s, .refl s⟩

theorem frame_run {order : List Str} {written : Str → Bool} {s s' : State D} {writes : List Write}
    (h : run order written s = .ok (s', writes)) :
    Frame s s' ∧ ((∀ id ∈ s.containers.keys, tuned s id = true → Known s id) → Tight s s') := by
  rw [run] at h
  obtain ⟨⟨s1, ids⟩, h1, h2⟩ := bind_ok h
  have hreset : Frame s { s with
      numaContainers := s.numaContainers.mapVal (fun _ info => { info with containerNum := 0, usedIndex := 0 }) } :=
    ⟨rfl, rfl, rfl, rfl, rfl, fun node => by rw [value_mapVal_reset], fun _ _ h => h⟩
  have hcount := foldlM_invariant (f := countContainer)
    (P := fun r => Frame s r.1 ∧ ((∀ id ∈ s.containers.keys, tuned s id = true → Known s id) → Tight s r.1))
    (fun r id r' hid hP hr => by
      obtain ⟨hframe, htight⟩ := frame_countContainer hr
      refine ⟨hP.1.trans hframe, fun hknown => (hP.2 hknown).trans (htight fun htuned => ?_)⟩
      have hcontainer : r.1.container id = s.container id := by
        rw [State.container, State.container, hP.1.containers]
      have hsame : tuned r.1 id = tuned s id := by
        rw [tuned, tuned, hcontainer, isHighLoad, isHighLoad, hP.1.threshold]
      obtain ⟨node, hnode, hkey⟩ := hknown id ((UMap.mem_keys_reorder _ _ _).mp hid) (hsame ▸ htuned)
      refine ⟨node, ?_, ((hP.2 hknown).nodes node).mpr hkey⟩
      rw [hcontainer, (hP.2 hknown).cpuNuma]
      exact hnode)
    ⟨hreset, fun _ => ⟨rfl, fun _ => Iff.rfl⟩⟩ h1
  have hshare := foldlM_invariant (P := fun r => Frame s1 r.1 ∧ Tight s1 r.1)
    (fun r id r' _ hP hr => by
      obtain ⟨hframe, htight⟩ := frame_shareCpus hr
      exact ⟨hP.1.trans hframe, hP.2.trans htight⟩)
    ⟨.refl s1, .refl s1⟩ h2
  exact ⟨hcount.1.trans hshare.1, fun hknown => (hcount.2 hknown).trans hshare.2⟩

/-! ### Runs -/

/-- The instance, with what came last. -/
structure Tracker (D : Type) where
  scheduling : State D
  /-- The latest list of containers. -/
  latest : List DockerAdapt.Entry
  /-- The static info, once it has come. -/
  info : Option EnvStaticInfo

inductive Act where
  | docker (preferred : Str → Str) (data : List DockerAdapt.Entry)
  /-- One info in a list. -/
  | static (data : EnvStaticInfo)
  | pmu (data : List PmuSamplingData)
  | run (order : List Str) (written : Str → Bool)

/-- After `Enable`. -/
def start (maxCycles : List Int64) (highLoadThreshold : D) : Tracker D where
  scheduling :=
    { maxCycles, pids := .empty, usedCpus := .empty, containers := .empty, containerNuma := .empty, cpuNuma := .empty
      numaContainers := .empty, highLoadThreshold }
  latest := []
  info := none

def step (t : Tracker D) : Act → Except Fault (Tracker D)
  | .docker preferred data => (updateDockerData preferred data t.scheduling).map (fun s => ⟨s, data, t.info⟩)
  | .static data => (updateNumaInfo [data] t.scheduling).map (fun s => ⟨s, t.latest, some data⟩)
  | .pmu data => (updatePmuData data t.scheduling).map (fun s => { t with scheduling := s })
  | .run order written => (run order written t.scheduling).map (fun r => { t with scheduling := r.1 })

/-- What every run keeps. -/
structure Sound (t : Tracker D) : Prop where
  named : ∀ id info, t.scheduling.containers.find id = some info → info.id = id ∧ info.cycles = 0
  usedCpus : t.scheduling.usedCpus.elems = []
  listed : ∀ id, id ∈ t.scheduling.containers.keys ↔ id ∈ t.latest.map (fun container => container.id)
  owned : ∀ pid id, t.scheduling.pids.find pid = some id →
    id ∈ t.scheduling.containers.keys ∧ pid ∈ tasksOf t.scheduling id

/-- Nothing of these has changed. -/
theorem Sound.congr {t t' : Tracker D} (h : Sound t) (hcontainers : t'.scheduling.containers = t.scheduling.containers)
    (hpids : t'.scheduling.pids = t.scheduling.pids) (hused : t'.scheduling.usedCpus = t.scheduling.usedCpus)
    (hlatest : t'.latest = t.latest) : Sound t' where
  named := by rw [hcontainers]; exact h.named
  usedCpus := by rw [hused]; exact h.usedCpus
  listed := by rw [hcontainers, hlatest]; exact h.listed
  owned := by
    intro pid id hpid
    rw [tasksOf, State.container, hcontainers]
    exact h.owned pid id (hpids ▸ hpid)

omit [Double D] in
/-- Loading changes no other map. -/
theorem updateNumaInfo_rest {data : EnvStaticInfo} {s s' : State D} (h : updateNumaInfo [data] s = .ok s') :
    s'.containers = s.containers ∧ s'.pids = s.pids ∧ s'.usedCpus = s.usedCpus := by
  rw [updateNumaInfo] at h
  split at h
  · cases h
    exact ⟨rfl, rfl, rfl⟩
  · obtain ⟨s1, h1, hnil⟩ := bind_ok h
    cases hnil
    refine foldlM_invariant (P := fun s1 : State D => s1.containers = s.containers ∧ s1.pids = s.pids ∧
      s1.usedCpus = s.usedCpus) (fun s1 cpu s2 _ hP hs => ?_) ⟨rfl, rfl, rfl⟩ h1
    obtain ⟨node, -, hs⟩ := bind_ok hs
    cases hs
    exact hP

theorem Sound.step {t t' : Tracker D} {a : Act} (h : Sound t) (hstep : step t a = .ok t') : Sound t' := by
  cases a with
  | docker preferred data =>
    obtain ⟨s, hs, rfl⟩ := map_ok hstep
    obtain ⟨hkeys, hpids, htasks, hnamed, -, -, hused, -⟩ := find_updateDockerData hs
    refine ⟨hnamed h.named, hused ▸ h.usedCpus, hkeys, fun pid id hpid => ?_⟩
    dsimp only at hpid ⊢
    rw [hpids] at hpid
    split at hpid
    · cases hpid
    · rename_i hstay
      cases hlist : lister data pid with
      | some name =>
        rw [hlist] at hpid
        cases hpid
        obtain ⟨container, hmem, rfl, htask⟩ := lister_eq_some hlist
        have hid := List.mem_map_of_mem (f := fun container => container.id) hmem
        exact ⟨(hkeys _).mpr hid, (htasks _ hid pid).mpr (.inr ⟨container, hmem, rfl, htask⟩)⟩
      | none =>
        -- a task of before: its container would have taken it along
        rw [hlist, Option.none_or] at hpid
        obtain ⟨hkey, htask⟩ := h.owned pid id hpid
        have hid : id ∈ data.map (fun container => container.id) := by
          by_contra hnot
          exact hstay ⟨id, hkey, hnot, htask⟩
        exact ⟨(hkeys id).mpr hid, (htasks id hid pid).mpr (.inl htask)⟩
  | static data =>
    obtain ⟨s, hs, rfl⟩ := map_ok hstep
    obtain ⟨hcontainers, hpids, hused⟩ := updateNumaInfo_rest hs
    exact h.congr hcontainers hpids hused rfl
  | pmu data =>
    obtain ⟨s, hs, rfl⟩ := map_ok hstep
    obtain ⟨⟨containers, heq⟩, pmuData, -, hfind⟩ := find_updatePmuData (fun pid id hpid => (h.owned pid id hpid).1)
      (fun id info hinfo => (h.named id info hinfo).2) hs
    have hkeys : ∀ id, id ∈ s.containers.keys ↔ id ∈ t.scheduling.containers.keys := fun id => by
      rw [UMap.mem_keys, UMap.mem_keys, hfind, Option.isSome_map]
    refine ⟨fun id info hinfo => ?_, ?_, fun id => (hkeys id).trans (h.listed id), fun pid id hpid => ?_⟩
    · dsimp only at hinfo
      rw [hfind] at hinfo
      obtain ⟨old, hold, rfl⟩ := Option.map_eq_some_iff.mp hinfo
      exact ⟨(h.named id old hold).1, rfl⟩
    · dsimp only
      rw [heq]
      exact h.usedCpus
    · dsimp only at hpid ⊢
      rw [hkeys, tasksOf, State.container, hfind]
      obtain ⟨hkey, htask⟩ := h.owned pid id (by rw [heq] at hpid; exact hpid)
      refine ⟨hkey, ?_⟩
      rw [tasksOf, State.container] at htask
      cases hold : t.scheduling.containers.find id with
      | none =>
        rw [hold] at htask
        exact htask
      | some info =>
        rw [hold] at htask
        exact htask
  | run order written =>
    obtain ⟨⟨s, writes⟩, hs, rfl⟩ := map_ok hstep
    have hframe := (frame_run hs).1
    exact h.congr hframe.containers hframe.pids hframe.usedCpus rfl

/-- Whatever the order of the messages, a task stands under a container of the latest list. -/
theorem sound_of_runs {maxCycles : List Int64} {threshold : D} {ok : Tracker D → Act → Prop} {t : Tracker D}
    (h : Runs step (start maxCycles threshold) ok t) : Sound t :=
  h.invariant ⟨nofun, rfl, fun _ => Iff.rfl, nofun⟩ fun _ _ _ hsound _ hs => hsound.step hs

/-- So each run finds its containers in order, where they have CPUs. -/
theorem proper_of_runs {maxCycles : List Int64} {threshold : D} {ok : Tracker D → Act → Prop} {t : Tracker D}
    (h : Runs step (start maxCycles threshold) ok t)
    (hcpus : ∀ id info, t.scheduling.containers.find id = some info →
      ∃ cpu cpus, RealTimeTune.parseRange info.cpus = some (cpu :: cpus)) : Proper t.scheduling :=
  ⟨(sound_of_runs h).usedCpus, fun id info hinfo => ((sound_of_runs h).named id info hinfo).1, hcpus⟩

/-- The CPUs that a static info has loaded stay. -/
theorem Loaded.step {info : EnvStaticInfo} {t t' : Tracker D} {a : Act} (hpos : 0 < loops info.cpuNumConfig)
    (hsound : Sound t) (h : Loaded info t.scheduling) (hstep : step t a = .ok t') : Loaded info t'.scheduling := by
  cases a with
  | docker preferred data =>
    obtain ⟨s, hs, rfl⟩ := map_ok hstep
    obtain ⟨-, -, -, -, hcpu, hnuma, -, -⟩ := find_updateDockerData hs
    exact ⟨fun cpu hlt => hcpu ▸ h.cpuNuma cpu hlt, fun node => hnuma ▸ h.cpus node⟩
  | static data =>
    obtain ⟨s, hs, rfl⟩ := map_ok hstep
    have hkeys : t.scheduling.cpuNuma.keys ≠ [] := List.ne_nil_of_mem (UMap.mem_keys_of_find (h.cpuNuma 0 hpos))
    rw [updateNumaInfo, if_pos hkeys] at hs
    cases hs
    exact h
  | pmu data =>
    obtain ⟨s, hs, rfl⟩ := map_ok hstep
    obtain ⟨⟨containers, rfl⟩, -⟩ := find_updatePmuData (fun pid id hpid => (hsound.owned pid id hpid).1)
      (fun id info hinfo => (hsound.named id info hinfo).2) hs
    exact ⟨h.cpuNuma, h.cpus⟩
  | run order written =>
    obtain ⟨⟨s, writes⟩, hs, rfl⟩ := map_ok hstep
    have hframe := (frame_run hs).1
    exact ⟨fun cpu hlt => hframe.cpuNuma _ _ (h.cpuNuma cpu hlt), fun node => (hframe.cpus node).trans (h.cpus node)⟩

/-! ### What is known of the tasks -/

/-- A message or a run that brings nothing out of step.

    A list: no task of the list is known in a container that goes, and each other task is. A static info: the one
    that has come. A run: the first CPUs of the containers to tune are on nodes that are known. -/
def Fits (t : Tracker D) : Act → Prop
  | .docker _ data => ∀ pid,
    (∃ id ∈ t.scheduling.containers.keys, id ∉ data.map (fun container => container.id) ∧
      pid ∈ tasksOf t.scheduling id) ∧ lister data pid = none ∨
    (∀ id ∈ t.scheduling.containers.keys, id ∉ data.map (fun container => container.id) →
      pid ∉ tasksOf t.scheduling id) ∧ ((lister data pid).isSome ∨ t.scheduling.pids.find pid = none)
  | .static data => ∀ info, t.info = some info → data = info
  | .pmu _ => True
  | .run _ _ => ∀ id ∈ t.scheduling.containers.keys, tuned t.scheduling id = true →
    (t.scheduling.cpuNuma.find ((cpusOf (t.scheduling.container id)).headD 0)).isSome

instance (t : Tracker D) (order : List Str) (written : Str → Bool) : Decidable (Fits t (.run order written)) :=
  inferInstanceAs (Decidable (∀ id ∈ _, _))

/-- What is known is what came last. -/
structure Right (t : Tracker D) : Prop where
  info : ∀ info, t.info = some info → Exact info t.scheduling
  pids : ∀ pid, t.scheduling.pids.find pid = lister t.latest pid
  charged : ∀ data t', step t (.pmu data) = .ok t' →
    (∀ id, id ∈ t'.scheduling.containers.keys ↔ id ∈ t.latest.map (fun container => container.id)) ∧
    ∃ pmuData, data[0]? = some pmuData ∧ ∀ id, t'.scheduling.containers.find id =
      (t.scheduling.containers.find id).map (fun container => { container with
        cpuLoad := cpuLoad (charged (lister t.latest) id pmuData.pmuData 0) pmuData.interval
          (t.scheduling.maxCycles.headD 0)
        cycles := 0 })

/-- What the runs of fitting steps keep besides. -/
structure InStep (t : Tracker D) : Prop where
  info : ∀ info, t.info = some info → Exact info t.scheduling
  none : t.info = none → t.scheduling.cpuNuma.keys = [] ∧ t.scheduling.numaContainers.keys = []
  pids : ∀ pid, t.scheduling.pids.find pid = lister t.latest pid

omit [Double D] in
theorem LoadedBelow.congr {info : EnvStaticInfo} {n : ℕ} {s s' : State D} (h : LoadedBelow info n s)
    (hcpu : s'.cpuNuma = s.cpuNuma) (hcpus : ∀ node, (s'.numaContainers.value node).cpus =
      (s.numaContainers.value node).cpus) (hnodes : ∀ node, node ∈ s'.numaContainers.keys ↔ node ∈ s.numaContainers.keys) :
    LoadedBelow info n s' :=
  ⟨hcpu ▸ h.cpuNuma, fun node => (hcpus node).trans (h.cpus node), fun node => (hnodes node).trans (h.nodes node)⟩

omit [Double D] in
/-- Loading what has been loaded, or for the first time. -/
theorem exact_static {info : EnvStaticInfo} {s s' : State D}
    (h : Exact info s ∨ s.cpuNuma.keys = [] ∧ s.numaContainers.keys = []) (hs : updateNumaInfo [info] s = .ok s') :
    Exact info s' := by
  rcases h with h | ⟨hcpu, hnode⟩
  · rcases eq_or_ne s.cpuNuma.keys [] with hnil | hne
    · -- an info without CPUs
      have hzero : loops info.cpuNumConfig = 0 := by
        by_contra hpos
        have hfind := h.loaded.cpuNuma 0 (Nat.pos_of_ne_zero hpos)
        have hkey := UMap.mem_keys_of_find hfind
        rw [hnil] at hkey
        cases hkey
      refine exact_updateNumaInfo hnil (List.eq_nil_iff_forall_not_mem.mpr fun node hnode => ?_) hs
      refine (h.nodes node).mp hnode ?_
      rw [hzero]
      rfl
    · rw [updateNumaInfo, if_pos hne] at hs
      cases hs
      exact h
  · exact exact_updateNumaInfo hcpu hnode hs

/-- One fitting step. -/
theorem InStep.step {t t' : Tracker D} {a : Act} (hsound : Sound t) (h : InStep t) (hfits : Fits t a)
    (hstep : step t a = .ok t') : InStep t' := by
  cases a with
  | docker preferred data =>
    obtain ⟨s, hs, rfl⟩ := map_ok hstep
    obtain ⟨-, hpids, -, -, hcpu, hnuma, -, -⟩ := find_updateDockerData hs
    refine ⟨fun info hinfo => ?_, fun hnone => ?_, fun pid => ?_⟩
    · exact (h.info info hinfo).congr hcpu (fun node => by rw [hnuma]) (fun node => by rw [hnuma])
    · dsimp only
      rw [hcpu, hnuma]
      exact h.none hnone
    · dsimp only
      rw [hpids]
      rcases hfits pid with ⟨hgone, hlist⟩ | ⟨hstay, hlist⟩
      · rw [if_pos hgone, hlist]
      · rw [if_neg (by rintro ⟨id, hkey, hid, htask⟩; exact hstay id hkey hid htask)]
        rcases hlist with hlist | hnone
        · exact Option.or_of_isSome hlist
        · rw [hnone, Option.or_none]
  | static data =>
    obtain ⟨s, hs, rfl⟩ := map_ok hstep
    obtain ⟨-, hpids, -⟩ := updateNumaInfo_rest hs
    refine ⟨fun info hinfo => ?_, nofun, fun pid => hpids ▸ h.pids pid⟩
    cases hinfo
    refine exact_static ?_ hs
    cases hold : t.info with
    | none => exact .inr (h.none hold)
    | some info =>
      rw [hfits info hold]
      exact .inl (h.info info hold)
  | pmu data =>
    obtain ⟨s, hs, rfl⟩ := map_ok hstep
    obtain ⟨⟨containers, rfl⟩, -⟩ := find_updatePmuData (fun pid id hpid => (hsound.owned pid id hpid).1)
      (fun id info hinfo => (hsound.named id info hinfo).2) hs
    exact ⟨fun info hinfo => (h.info info hinfo).congr rfl (fun _ => rfl) (fun _ => Iff.rfl), h.none, h.pids⟩
  | run order written =>
    obtain ⟨⟨s, writes⟩, hs, rfl⟩ := map_ok hstep
    obtain ⟨hframe, htight⟩ := frame_run hs
    have hknown : ∀ id ∈ t.scheduling.containers.keys, tuned t.scheduling id = true → Known t.scheduling id := by
      intro id hkey htuned
      obtain ⟨node, hnode⟩ := Option.isSome_iff_exists.mp (hfits id hkey htuned)
      cases hinfo : t.info with
      | none =>
        have hmem := UMap.mem_keys_of_find hnode
        rw [(h.none hinfo).1] at hmem
        cases hmem
      | some info => exact ⟨node, hnode, (h.info info hinfo).node_mem hnode⟩
    have htight := htight hknown
    refine ⟨fun info hinfo => (h.info info hinfo).congr htight.cpuNuma hframe.cpus htight.nodes, fun hnone => ?_,
      fun pid => hframe.pids ▸ h.pids pid⟩
    dsimp only
    refine ⟨htight.cpuNuma ▸ (h.none hnone).1, List.eq_nil_iff_forall_not_mem.mpr fun node hnode => ?_⟩
    have hmem := (htight.nodes node).mp hnode
    rw [(h.none hnone).2] at hmem
    cases hmem

theorem InStep.right {t : Tracker D} (hsound : Sound t) (h : InStep t) : Right t where
  info := h.info
  pids := h.pids
  charged data t' hstep := by
    have hsound' := hsound.step hstep
    obtain ⟨s, hs, rfl⟩ := map_ok hstep
    obtain ⟨-, pmuData, hdata, hfind⟩ := find_updatePmuData (fun pid id hpid => (hsound.owned pid id hpid).1)
      (fun id info hinfo => (hsound.named id info hinfo).2) hs
    refine ⟨hsound'.listed, pmuData, hdata, ?_⟩
    rwa [show t.scheduling.pids.find = lister t.latest from funext h.pids] at hfind

/-- WHAT IS KNOWN IS WHAT CAME LAST: in every state that fitting steps reach, the CPUs of the nodes are those of the
    static info that has come, the tasks are those of the latest list under the containers that list them, and
    samples are charged to these. -/
theorem right_of_runs {maxCycles : List Int64} {threshold : D} {t : Tracker D}
    (h : Runs step (start maxCycles threshold) Fits t) : Right t := by
  have hboth : Sound t ∧ InStep t := by
    have hstart : Runs step (start maxCycles threshold) Fits (start maxCycles threshold) := .start
    have hsound : Sound (start maxCycles threshold) := sound_of_runs hstart
    refine h.invariant (I := fun t => Sound t ∧ InStep t) ⟨hsound, nofun, fun _ => ⟨rfl, rfl⟩, fun _ => rfl⟩
      fun t a t' hI hfits hs => ?_
    exact ⟨hI.1.step hs, hI.2.step hI.1 hfits hs⟩
  exact hboth.2.right hboth.1

end

/-! ### One task -/

namespace Example

def entry (id : Str) (tasks : List Int32) : DockerAdapt.Entry where
  id
  cfs_period_us := 100000
  cfs_quota_us := unlimit
  cfs_burst_us := 0
  cpu_usage := 0
  sampling_timestamp := 0
  soft_quota := 0
  cpus := str "6"
  mems := []
  system_cpu_usage := 0
  tasks

/-- The container `a` runs the task 7. -/
def first : Act := .docker (fun _ => []) [entry [97] [7]]

/-- It uses more than half of a CPU. -/
def samples : Act := .pmu [⟨[⟨7, 9⟩], 1⟩]

abbrev tune : Act := .run [] (fun _ => true)

abbrev Reached (ok : Tracker ℚ → Act → Prop) : Tracker ℚ → Prop := Runs step (start [1] (1 / 2)) ok

end Example

/-- A container takes the place of another, the info comes, and the container is tuned. -/
theorem right_of_runs_replaced : ∃ t, Example.Reached Fits t ∧ t.info = some Example.info ∧ Right t := by
  have h0 : Example.Reached Fits (start [1] (1 / 2)) := .start
  have h1 : Example.Reached Fits _ := h0.next (a := Example.first) (fun pid => .inr ⟨nofun, .inr rfl⟩) rfl
  have h2 : Example.Reached Fits _ := h1.next (a := .docker (fun _ => []) [Example.entry [98] [8]]) (fun pid => by
    rcases eq_or_ne pid 7 with rfl | hne
    · exact .inl ⟨⟨[97], List.mem_cons_self, by decide, List.mem_cons_self⟩, rfl⟩
    · refine .inr ⟨fun id hid _ htask => ?_, .inr (if_neg hne)⟩
      rw [List.mem_singleton.mp hid] at htask
      exact hne (List.mem_singleton.mp htask)) rfl
  have h3 : Example.Reached Fits _ := h2.next (a := .static Example.info) nofun rfl
  obtain ⟨t, h4, hinfo, hfits, hok⟩ : ∃ t, Example.Reached Fits t ∧ t.info = some Example.info ∧ Fits t Example.tune ∧
      (step t Example.tune).isOk = true :=
    ⟨_, h3.next (a := Example.samples) trivial rfl, rfl, by decide +kernel, by decide +kernel⟩
  cases hs : step t Example.tune with
  | error e =>
    rw [hs] at hok
    cases hok
  | ok t' =>
    have h5 := h4.next hfits hs
    obtain ⟨r, -, rfl⟩ := map_ok hs
    exact ⟨_, h5, hinfo, right_of_runs h5⟩

theorem Example.reached {β : Type} (acts : List Act) {f : Tracker ℚ → β} {b : β}
    (h : (runAll step (fun _ _ => True) (start [1] (1 / 2)) acts).map f = some b) :
    ∃ t, Example.Reached (fun _ _ => True) t ∧ f t = b := by
  obtain ⟨t, ht, hf⟩ := Option.map_eq_some_iff.mp h
  exact ⟨t, Runs.of_runAll _ acts .start ht, hf⟩

/-- A run before the static info keeps it out for good. A task that its container no longer lists stays. And a task
    that a new container lists is lost where its old container goes at the same time. -/
theorem not_right :
    (∃ t, Example.Reached (fun _ _ => True) t ∧ t.info = some Example.info ∧ ¬ Exact Example.info t.scheduling) ∧
    (∃ t, Example.Reached (fun _ _ => True) t ∧ t.scheduling.pids.find 7 = some [97] ∧ lister t.latest 7 = none) ∧
    ∃ t, Example.Reached (fun _ _ => True) t ∧ t.scheduling.pids.find 7 = none ∧ lister t.latest 7 = some [98] := by
  obtain ⟨t1, h1, hf1⟩ := Example.reached [Example.first, Example.samples, Example.tune, .static Example.info]
    (f := fun t => (t.info, t.scheduling.cpuNuma.find 5)) (b := (some Example.info, none)) (by decide +kernel)
  obtain ⟨t2, h2, hf2⟩ := Example.reached [Example.first, .docker (fun _ => []) [Example.entry [97] []]]
    (f := fun t => (t.scheduling.pids.find 7, lister t.latest 7)) (b := (some [97], none)) (by decide +kernel)
  obtain ⟨t3, h3, hf3⟩ := Example.reached [Example.first, .docker (fun _ => []) [Example.entry [98] [7]]]
    (f := fun t => (t.scheduling.pids.find 7, lister t.latest 7)) (b := (none, some [98])) (by decide +kernel)
  simp only [Prod.mk.injEq] at hf1 hf2 hf3
  refine ⟨⟨t1, h1, hf1.1, fun hexact => ?_⟩, ⟨t2, h2, hf2⟩, t3, h3, hf3⟩
  have hfind := hexact.cpuNuma 5
  rw [hf1.2] at hfind
  revert hfind
  decide +kernel

end LoadBasedScheduling
end OeAware

import OeAware.Tune.Scheduling

/-! @src src/plugin/tune/docker/cluster_affinity/cluster_affinity_adapt.cpp |
    name:TryBorrowCpuFromIdleDocker, TryReturnCpuToIdleDocker, RecoverInitialBindStatus | scheme:state-machine

    Every call that changes a limit, in the state in which it is made. It indexes with the last cluster of its
    container, so the container must have one; those that borrow are chosen by their usage alone. And it takes
    what it needs, so that must be there.

        Tune     borrow ─▶ add      lend ─▶ minus      take back ─▶ add      give back ─▶ minus
        Update   the debtors of a container that has gone ─▶ minus -/

namespace OeAware
open Schemes

namespace ClusterAffinity

/-! ### Calls -/

/-- A call of `DockerAddCpuLimitComm`, with what the selector knows, or of `DockerMinusCpuLimitComm`. -/
inductive Call (D : Type) where
  | add (sel : ClusterSelector D) (dockerId : Str) (limit : ℚ)
  | minus (dockerId : Str) (limit : ℚ)

/-- `couldBorrowLimit`. -/
def couldBorrowLimit (s : State) : ℚ :=
  ((couldLendDockers s).map (fun d => ((offers s).docker d).lendCpuLimit)).sum

/-- `borrowLimitPerDocker`. -/
def borrowLimitPerDocker (s : State) : ℚ := couldBorrowLimit s / (needBorrowDockers s).length

/-- What has been bound to a container that has gone is free again. -/
def released (T : Topology) (dockerId : Str) (s : State) : State :=
  let info := s.docker dockerId
  let s := info.currentMemSet.foldl (releaseClusters info.bindClusters) s
  let s := info.currentCpuSet.foldl (releaseCpu T) s
  (info.currentCpuSet.map (· / T.oneClusterCpuNum)).dedup.foldl (filterOccupied info.currentCpuSet) s

section
variable {D : Type} [Double D] (T : Topology)

/-- In `s` the step makes a call, when it has come to the state `s'`. -/
inductive Made (s : State) : Act D → State → Call D → Prop
  | borrow {env : TuneEnv D} {s1 s2 : State} {d : Str}
      (hbind : dockerOptimizeBindSchedule T env s.dockerInfos.keys s = .ok s1)
      (hswitch : s1.dockerBorrowSwitch = true) (hlimit : ¬couldBorrowLimit s1 < 1 / 100)
      (h : Begins (borrow T env (couldLendDockers s1) (needBorrowDockers s1).length (borrowLimitPerDocker s1))
        (needBorrowDockers s1) (offers s1) d s2) :
      Made s (.tune env) s2 (.add env.sel d (borrowLimitPerDocker s1))
  | lend {env : TuneEnv D} {s1 s2 s3 : State} {d : Str}
      (hbind : dockerOptimizeBindSchedule T env s.dockerInfos.keys s = .ok s1)
      (hswitch : s1.dockerBorrowSwitch = true) (hlimit : ¬couldBorrowLimit s1 < 1 / 100)
      (hneed : needBorrowDockers s1 ≠ [])
      (hborrow : (needBorrowDockers s1).foldlM (borrow T env (couldLendDockers s1) (needBorrowDockers s1).length
        (borrowLimitPerDocker s1)) (offers s1) = .ok s2)
      (h : Begins (lend env) (couldLendDockers s1) s2 d s3) :
      Made s (.tune env) s3 (.minus d (s3.docker d).lendCpuLimit)
  | takeBack {env : TuneEnv D} {s1 s2 s3 : State} {d : Str}
      (hbind : dockerOptimizeBindSchedule T env s.dockerInfos.keys s = .ok s1)
      (hswitch : s1.dockerBorrowSwitch = true) (hborrow : tryBorrowCpuFromIdleDocker T env s1 = .ok s2)
      (h : Begins (takeBack T env) (needReturnDockers s2) (settleLoans (needReturnDockers s2) s2).1 d s3) :
      Made s (.tune env) s3 (.add env.sel d (s3.docker d).lendCpuLimit)
  | giveBack {env : TuneEnv D} {s1 s2 s3 s4 : State} {d : Str}
      (hbind : dockerOptimizeBindSchedule T env s.dockerInfos.keys s = .ok s1)
      (hswitch : s1.dockerBorrowSwitch = true) (hborrow : tryBorrowCpuFromIdleDocker T env s1 = .ok s2)
      (hback : (needReturnDockers s2).foldlM (takeBack T env) (settleLoans (needReturnDockers s2) s2).1 = .ok s3)
      (h : Begins (fun s p => (dockerMinusCpuLimitComm p ((settleLoans (needReturnDockers s2) s2).2.value p) true
        s).map (·.1)) ((settleLoans (needReturnDockers s2) s2).2.reorder env.order).keys s3 d s4) :
      Made s (.tune env) s4 (.minus d ((settleLoans (needReturnDockers s2) s2).2.value d))
  | returnTo {data : List DockerAdapt.Entry} {updated : Str → Bool} {order : List Str} {s1 s2 : State}
      {gone d : Str} {limit : ℚ} (hfirst : s.isFirstUpdate = false)
      (hgone : Begins (removeGone T (collect data) updated) s.dockerInfos.keys s gone s1)
      (hcount : (collect data).count gone = false) (hbound : (s1.docker gone).optimizeBinded = true)
      (hupdated : updated gone = true)
      (h : Begins (returnTo gone) (released T gone s1).dockerInfos.keys (released T gone s1) d s2)
      (hloan : (s2.docker d).borrowDockerMap.find gone = some limit) :
      Made s (.update data updated order) s2 (.minus d limit)

end

/-- The container has clusters, all of the first of its nodes. -/
structure Seated {T : Topology} (L : Layout T) (s : State) (d : Str) (nid : ℕ) : Prop where
  node : (s.docker d).currentMemSet.head? = some nid
  some : (s.docker d).bindClusters ≠ []
  home : (s.docker d).bindClusters ⊆ L.clusters nid

/-- Its limit has grown, and its cores by as many as the limit, rounded up: cores that were free, of its clusters
    and of new ones, that were free. -/
structure Added {T : Topology} (L : Layout T) (s s' : State) (d : Str) (limit : ℚ) (nid : ℕ) (cpus ids : List ℕ) :
    Prop where
  bindClusters : (s'.docker d).bindClusters = (s.docker d).bindClusters ++ ids
  distinct : ids.Nodup
  unoccupied : ids ⊆ (s.numa nid).freeInfoVec
  home : ids ⊆ L.clusters nid
  currentCpuSet : (s'.docker d).currentCpuSet = (s.docker d).currentCpuSet ++ cpus
  nodup : cpus.Nodup
  new : ∀ x ∈ cpus, x ∉ (s.docker d).currentCpuSet
  length : (cpus.length : ℤ) = ⌈(s.docker d).currentCpuLimit + limit⌉ - ⌈(s.docker d).currentCpuLimit⌉
  free : ∀ x ∈ cpus, ∃ c ∈ (s.docker d).bindClusters ++ ids, x ∈ (s.cluster c).freeCpuCores

section
variable {D : Type} [Double D] {T : Topology}

/-- The call has a defined outcome, and does what it should. -/
def Right (L : Layout T) (s : State) : Call D → Prop
  | .add sel d limit => ∃ nid cpus ids s', Seated L s d nid ∧
      dockerAddCpuLimitComm sel T d limit true s = .ok (s', true) ∧ Added L s s' d limit nid cpus ids
  | .minus d limit => ∃ nid s', Seated L s d nid ∧ dockerMinusCpuLimitComm d limit true s = .ok (s', true)

end

/-- The container is bound; its last cluster and those of its node that are free have the cores that are needed;
    and of a cluster that is free the selector has not counted to the largest number. -/
structure AbleAdd {D : Type} (T : Topology) (sel : ClusterSelector D) (s : State) (d : Str) (limit : ℚ) : Prop where
  bound : (s.docker d).optimizeBinded = true
  amount : 0 ≤ ⌈(s.docker d).currentCpuLimit + limit⌉ - ⌈(s.docker d).currentCpuLimit⌉ ∧
    ⌈(s.docker d).currentCpuLimit + limit⌉ - ⌈(s.docker d).currentCpuLimit⌉ < 2 ^ 64
  room : ∀ nid c, (s.docker d).currentMemSet.head? = some nid → (s.docker d).bindClusters.getLast? = some c →
    ⌈(s.docker d).currentCpuLimit + limit⌉ - ⌈(s.docker d).currentCpuLimit⌉ ≤
      ((s.cluster c).freeCpuCores.length + (s.numa nid).freeInfoVec.length * (T.oneClusterCpuNum / T.sep) : ℕ)
  counted : ∀ nid, (s.docker d).currentMemSet.head? = some nid → ∀ c ∈ (s.numa nid).freeInfoVec,
    sel.scclL3cSum c < UInt64.ofNat (2 ^ 64 - 1)

/-- The container is bound, and has the cores that it returns. -/
structure AbleMinus (s : State) (d : Str) (limit : ℚ) : Prop where
  bound : (s.docker d).optimizeBinded = true
  amount : 0 ≤ ⌈(s.docker d).currentCpuLimit⌉ - ⌈(s.docker d).currentCpuLimit - limit⌉ ∧
    ⌈(s.docker d).currentCpuLimit⌉ - ⌈(s.docker d).currentCpuLimit - limit⌉ < 2 ^ 64
  enough : ⌈(s.docker d).currentCpuLimit⌉ - ⌈(s.docker d).currentCpuLimit - limit⌉ ≤
    (((s.docker d).bindClusters.map (fun c => (s.cluster c).occupiedCpuCores.length)).sum : ℕ)

/-- What a call relies on. -/
def Able {D : Type} (T : Topology) (s : State) : Call D → Prop
  | .add sel d limit => AbleAdd T sel s d limit
  | .minus d limit => AbleMinus s d limit

/-! ### What the calls rely on -/

section
variable {D : Type} [Double D] {T : Topology} {L : Layout T} {sel : ClusterSelector D} {s s' : State} {d : Str}

theorem front_eq {α : Type} {l : List α} {a : α} (h : l.head? = some a) : front l = .ok a := by rw [front, h]

theorem back_eq {α : Type} {l : List α} {a : α} (h : l.getLast? = some a) : back l = .ok a := by rw [back, h]

theorem toSize_ok {n : ℤ} (h : 0 ≤ n ∧ n < 2 ^ 64) : toSize n = .ok n.toNat := by rw [toSize, if_pos h]

omit [Double D] in
/-- The clusters that are free are found. -/
theorem takeClusters_ok {nid n : ℕ} (hT : Numbered T)
    (hparts : Parts (L.clusters nid) (s.numa nid).freeInfoVec (s.numa nid).occupiedInfoVec)
    (hne : L.clusters nid ≠ []) (hn : n ≤ (s.numa nid).freeInfoVec.length)
    (hsum : ∀ c ∈ (s.numa nid).freeInfoVec, sel.scclL3cSum c < UInt64.ofNat (2 ^ 64 - 1)) :
    ∃ r, takeClusters sel T nid n s = .ok r := by
  obtain ⟨cpus, cpu, hcpus, hhead, hcpu, hids⟩ := L.numbered nid hne
  have hnid : nid < T.numaNodeNum := by
    rw [← hT.nodes]
    exact (List.getElem?_eq_some_iff.mp hcpus).1
  have hin : ∀ c ∈ (s.numa nid).occupiedInfoVec, cpu / T.oneClusterCpuNum ≤ c ∧ c - cpu / T.oneClusterCpuNum <
      (List.replicate (cpus.length / T.oneClusterCpuNum) false).length := by
    intro c hc
    have hmem := hparts.mem_all.mpr (.inr hc)
    rw [hids, ← hcpu] at hmem
    obtain ⟨hle, hlt⟩ := List.mem_range'_1.mp hmem
    rw [List.length_replicate]
    exact ⟨hle, Nat.sub_lt_left_of_lt_add hle hlt⟩
  obtain ⟨used, hmark⟩ := mark_ok (v := true) hin
  have hunused := unused_of_mark_true hmark
  have hfree : ∀ c, c ∈ (List.range' (cpu / T.oneClusterCpuNum) (cpus.length / T.oneClusterCpuNum)).filter
      (· ∉ (s.numa nid).occupiedInfoVec) ↔ c ∈ (s.numa nid).freeInfoVec := by
    intro c
    rw [List.mem_filter, hcpu, ← hids, hparts.mem_all, decide_eq_true_eq]
    refine ⟨fun ⟨hc, hnot⟩ => hc.resolve_right hnot, fun hc => ⟨.inl hc, ?_⟩⟩
    exact fun hocc => hparts.disjoint (L.clusters_nodup nid) hc hocc
  have hnd : (s.numa nid).freeInfoVec.Nodup := (hparts.nodup (L.clusters_nodup nid)).of_append_left
  obtain ⟨ids, hpick⟩ := pickClusters_ok sel T hnid hcpu.symm hunused
    (by
      rw [mark_length hmark, List.length_replicate]
      exact hT.shared nid cpus hcpus)
    (fun c hc => hsum c ((hfree c).mp hc))
    (hn.trans (hnd.subperm fun c hc => (hfree c).mpr hc).length_le)
  refine ⟨(ids, s.setNuma nid ((s.numa nid).occupy ids)), ?_⟩
  simp only [takeClusters, at', hcpus, front_eq hhead, hmark, hpick, bind, Except.bind, pure, Except.pure,
    NumaClusterInfo.occupy]

/-- So many clusters of this size are more than one too few. -/
theorem ceilDiv_ok {a b n : ℕ} (hb : 0 < b) (ha : 0 < a) (han : a ≤ n * b) :
    ∃ m, ceilDiv a b = .ok m ∧ 0 < m ∧ m ≤ n ∧ (m - 1) * b ≤ a := by
  have hb' : (0 : ℚ) < b := Nat.cast_pos.mpr hb
  have hpos : 0 < ⌈(a : ℚ) / b⌉₊ := Nat.ceil_pos.mpr (div_pos (Nat.cast_pos.mpr ha) hb')
  refine ⟨⌈(a : ℚ) / b⌉₊, by rw [ceilDiv, if_neg hb.ne'], hpos, ?_, ?_⟩
  · rw [Nat.ceil_le, div_le_iff₀ hb']
    exact_mod_cast han
  · have hlt := Nat.lt_ceil.mp (Nat.sub_one_lt_of_lt hpos)
    rw [lt_div_iff₀ hb'] at hlt
    exact_mod_cast hlt.le

/-- What is needed can be added. -/
theorem addCpus_ok {nid clusterId need : ℕ} (hT : Numbered T) (hb : 0 < T.oneClusterCpuNum / T.sep)
    (hsize : ∀ i, ∀ c ∈ L.clusters i, (L.cores c).length = T.oneClusterCpuNum / T.sep) (hp : Placement L s)
    (hid : clusterId ∈ (s.numa nid).occupiedInfoVec)
    (hroom : need ≤ (s.cluster clusterId).freeCpuCores.length +
      (s.numa nid).freeInfoVec.length * (T.oneClusterCpuNum / T.sep))
    (hsum : ∀ c ∈ (s.numa nid).freeInfoVec, sel.scclL3cSum c < UInt64.ofNat (2 ^ 64 - 1)) :
    ∃ r, addCpus sel T nid clusterId need s = .ok r := by
  rw [addCpus]
  dsimp only
  split
  · obtain ⟨⟨cpus, s1⟩, h1⟩ : ∃ r, takeCpus sel T clusterId need [] s = .ok r :=
      takeCpus_ok hT.pos hp.housed _ _ _
    refine ⟨(cpus, [], s1), ?_⟩
    simp only [h1, bind, Except.bind, pure, Except.pure]
  · rename_i hneed
    obtain ⟨n, hn, hn0, hnle, hsub⟩ := ceilDiv_ok (n := (s.numa nid).freeInfoVec.length) hb
      (Nat.sub_pos_of_lt (not_le.mp hneed)) (by omega)
    have hne : L.clusters nid ≠ [] := List.ne_nil_of_mem (hp.mem_clusters.mpr (.inr hid))
    obtain ⟨⟨ids, s1⟩, h1⟩ : ∃ r, takeClusters sel T nid n (takeAll clusterId s) = .ok r :=
      takeClusters_ok hT (hp.nodes nid) hne hnle hsum
    obtain ⟨hocc, hlen, hcluster⟩ := occupies_takeClusters (s := takeAll clusterId s) (hp.nodes nid) hne h1
    have hfree : ∀ c ∈ ids, c ∈ (s.numa nid).freeInfoVec := fun c hc => hocc.mem_free.mpr (.inr ⟨rfl, hc⟩)
    have hwhole : ∀ c ∈ ids, (s1.cluster c).freeCpuCores.length = T.oneClusterCpuNum / T.sep := by
      intro c hc
      have hne : c ≠ clusterId := by
        rintro rfl
        exact hp.not_free hid (hfree c hc)
      have hparts := hp.cores c
      rw [hp.idle nid c (hfree c hc), Parts, List.append_nil] at hparts
      rw [hcluster, takeAll, cluster_setCluster, if_neg hne, hparts.length_eq]
      exact hsize nid c (hp.mem_clusters.mpr (.inl (hfree c hc)))
    have hhoused : Housed T s1 := ((taken_takeAll hp.housed clusterId).takes.housed hp.housed).mono
      fun c => by rw [hcluster]
    have hsum' : (ids.dropLast.map (fun c => (s1.cluster c).freeCpuCores.length)).sum ≤
        need - (s.cluster clusterId).freeCpuCores.length := by
      rw [List.map_congr_left fun c hc => hwhole c (List.mem_of_mem_dropLast hc), List.map_const',
        List.sum_replicate_nat, List.length_dropLast, hlen]
      exact hsub
    obtain ⟨⟨cpus, s2⟩, h2⟩ : ∃ r, fillClusters sel T ids (need - (s.cluster clusterId).freeCpuCores.length)
        (s.cluster clusterId).freeCpuCores s1 = .ok r :=
      (fillClusters_ok_iff hT.pos hhoused _ (List.ne_nil_of_length_pos (hlen ▸ hn0))
        (hocc.nodup_ids (hp.free_nodup nid))).mpr hsum'
    refine ⟨(cpus, ids, s2), ?_⟩
    simp only [hn, h1, h2, bind, Except.bind, pure, Except.pure]

/-- All that is occupied can be returned. -/
theorem returnCpus_ok {nid : ℕ} : ∀ {ids : List ℕ} {need : ℕ} (cpus : List ℕ) {s : State}, ids.Nodup →
    need ≤ (ids.map (fun c => (s.cluster c).occupiedCpuCores.length)).sum →
    ∃ r, returnCpus nid ids need cpus s = .ok r
  | ids, 0, cpus, s, _, _ => ⟨(cpus, ids, s), by rw [returnCpus]⟩
  | [], need + 1, _, _, _, h => absurd h (by simp)
  | clusterId :: ids, need + 1, cpus, s, hnd, h => by
    obtain ⟨hid, hnd⟩ := List.nodup_cons.mp hnd
    rw [List.map_cons, List.sum_cons] at h
    rw [returnCpus]
    dsimp only
    split
    · exact ⟨_, rfl⟩
    · refine returnCpus_ok _ hnd ?_
      have hother : ∀ c ∈ ids, (freeCluster nid clusterId (giveBack clusterId (s.cluster
          clusterId).occupiedCpuCores.length s).2).cluster c = s.cluster c := by
        intro c hc
        have hne : c ≠ clusterId := fun heq => hid (heq ▸ hc)
        simp [freeCluster, giveBack, hne]
      rw [List.map_congr_left fun c hc => congrArg (fun v => v.occupiedCpuCores.length) (hother c hc)]
      omega

/-- What is left of the clusters are the first of them. -/
theorem returnCpus_suffix {nid : ℕ} : ∀ {ids ids' cpus cpus' : List ℕ} {need : ℕ} {s s' : State}, ids ≠ [] →
    returnCpus nid ids need cpus s = .ok (cpus', ids', s') → ids' <:+ ids ∧ ids' ≠ []
  | ids, _, _, _, 0, _, _, hne, h => by
    rw [returnCpus] at h
    cases h
    exact ⟨List.suffix_rfl, hne⟩
  | [], _, _, _, _ + 1, _, _, hne, _ => absurd rfl hne
  | clusterId :: ids, _, _, _, need + 1, s, _, _, h => by
    rw [returnCpus] at h
    dsimp only at h
    split at h
    · cases h
      exact ⟨List.suffix_rfl, List.cons_ne_nil _ _⟩
    · rename_i hneed
      have hids : ids ≠ [] := by
        rintro rfl
        obtain ⟨n, hn⟩ := Nat.exists_eq_add_one_of_ne_zero (Nat.sub_ne_zero_of_lt (not_le.mp hneed))
        rw [hn] at h
        cases h
      obtain ⟨hsuffix, hne⟩ := returnCpus_suffix hids h
      exact ⟨hsuffix.trans (List.suffix_cons clusterId ids), hne⟩

/-! ### Who is bound has its clusters -/

/-- Who is bound has clusters, all of the first of its nodes, each once. -/
structure Homed (L : Layout T) (s : State) : Prop where
  seated : ∀ d, (s.docker d).optimizeBinded = true → ∃ nid, Seated L s d nid
  once : ∀ d, (s.docker d).optimizeBinded = true → (s.docker d).bindClusters.Nodup

theorem Placement.seated (hp : Placement L s) (hb : (s.docker d).optimizeBinded = true) :
    ∃ nid, Seated L s d nid ∧ Placed s (s.place d) nid := by
  obtain ⟨nid, hplaced⟩ := hp.bound d hb
  exact ⟨nid, ⟨hplaced.node, hplaced.some, fun c hc => hp.mem_clusters.mpr (.inr (hplaced.occupied hc))⟩, hplaced⟩

theorem Placement.homed (hp : Placement L s) : Homed L s where
  seated d hb := by
    obtain ⟨nid, hseated, -⟩ := hp.seated hb
    exact ⟨nid, hseated⟩
  once d hb := by
    obtain ⟨nid, -, hplaced⟩ := hp.seated hb
    exact hplaced.once

namespace Homed

/-- Others may go, and of its clusters a container may give back all but one. -/
theorem change (hh : Homed L s) (h : ∀ x, (s'.docker x).optimizeBinded = true →
    (s.docker x).optimizeBinded = true ∧ (s'.docker x).currentMemSet = (s.docker x).currentMemSet ∧
      (s'.docker x).bindClusters.Sublist (s.docker x).bindClusters ∧
      ((s.docker x).bindClusters ≠ [] → (s'.docker x).bindClusters ≠ [])) : Homed L s' where
  seated d hb := by
    obtain ⟨hb, hmem, hsub, hne⟩ := h d hb
    obtain ⟨nid, hseated⟩ := hh.seated d hb
    exact ⟨nid, hmem ▸ hseated.node, hne hseated.some, fun c hc => hseated.home (hsub.subset hc)⟩
  once d hb := by
    obtain ⟨hb, -, hsub, -⟩ := h d hb
    exact hsub.nodup (hh.once d hb)

theorem of_docker (hh : Homed L s) (h : ∀ x, s'.docker x = s.docker x) : Homed L s' := by
  refine hh.change fun x hx => ?_
  rw [h] at hx ⊢
  exact ⟨hx, rfl, List.Sublist.refl _, fun hne => hne⟩

theorem minus {limit : ℚ} {updated b : Bool} (hh : Homed L s)
    (h : dockerMinusCpuLimitComm d limit updated s = .ok (s', b)) : Homed L s' := by
  obtain ⟨nid, -, h⟩ := bind_ok h
  obtain ⟨need, -, h⟩ := bind_ok h
  obtain ⟨clusterId, hid, h⟩ := bind_ok h
  obtain ⟨⟨cpus, ids, s1⟩, h1, h⟩ := bind_ok h
  have hpools := onlyPools_returnCpus h1
  have hne : (s.docker d).bindClusters.reverse ≠ [] :=
    List.ne_nil_of_mem (List.mem_reverse.mpr (back_mem hid))
  obtain ⟨hsuffix, hne'⟩ := returnCpus_suffix hne h1
  cases h
  refine hh.change fun x hx => ?_
  rw [docker_setDocker] at hx ⊢
  split
  · rename_i hxd
    rw [if_pos hxd] at hx
    subst hxd
    refine ⟨hx, rfl, ?_, fun _ => List.reverse_ne_nil_iff.mpr hne'⟩
    have hsub := hsuffix.sublist.reverse
    rwa [List.reverse_reverse] at hsub
  · rename_i hxd
    rw [if_neg hxd, hpools.docker] at hx
    rw [hpools.docker]
    exact ⟨hx, rfl, List.Sublist.refl _, fun hne => hne⟩

theorem returnTo {p : Str} (hh : Homed L s) (h : ClusterAffinity.returnTo d s p = .ok s') : Homed L s' := by
  unfold ClusterAffinity.returnTo at h
  split at h
  · cases h
    exact hh
  · obtain ⟨⟨s1, b⟩, h1, rfl⟩ := map_ok h
    exact hh.minus h1

end Homed

theorem onlyPools_released (T : Topology) (d : Str) (s : State) : OnlyPools s (released T d s) := by
  have hnuma := onlyPools_foldl (fun s a => onlyPools_setNuma s a _)
    (f := releaseClusters (s.docker d).bindClusters) (s.docker d).currentMemSet s
  exact (hnuma.trans (onlyPools_foldl (fun s a => onlyPools_setCluster s _ _) _ _)).trans
    (onlyPools_foldl (fun s a => onlyPools_setCluster s _ _) _ _)

/-- What `RecoverInitialBindStatus` does when the commands succeed. -/
theorem recoverInitialBindStatus_eq (hk : 0 < T.oneClusterCpuNum) (hb : (s.docker d).optimizeBinded = true) :
    recoverInitialBindStatus T d true s =
      (released T d s).dockerInfos.keys.foldlM (returnTo d) (released T d s) := by
  unfold recoverInitialBindStatus
  simp only [hb, not_true, false_or, if_false, hk.ne']
  rfl

theorem Homed.removeGone {collector : UMap Str DockerAdapt.Entry} {updated : Str → Bool}
    (hk : 0 < T.oneClusterCpuNum) (hh : Homed L s)
    (h : ClusterAffinity.removeGone T collector updated s d = .ok s') : Homed L s' := by
  unfold ClusterAffinity.removeGone at h
  split at h
  · cases h
    exact hh
  · obtain ⟨s1, h1, h⟩ := bind_ok h
    cases h
    have hh1 : Homed L s1 := by
      cases hb : (s.docker d).optimizeBinded with
      | false =>
        simp only [recoverInitialBindStatus, hb, Bool.false_eq_true, not_false_eq_true, true_or, if_true] at h1
        cases h1
        exact hh
      | true =>
        cases hu : updated d with
        | false =>
          simp only [recoverInitialBindStatus, hu, Bool.false_eq_true, not_false_eq_true, or_true, if_true] at h1
          cases h1
          exact hh
        | true =>
          rw [hu, recoverInitialBindStatus_eq hk hb] at h1
          exact foldlM_invariant (fun _ _ _ _ hs hstep => hs.returnTo hstep)
            (hh.of_docker (onlyPools_released T d s).docker) h1
    refine hh1.change fun x hx => ?_
    have herase : State.docker { s1 with dockerInfos := s1.dockerInfos.erase d } x =
        if x = d then .new else s1.docker x := by
      unfold State.docker
      dsimp only
      rw [UMap.find_erase]
      split <;> rfl
    rw [herase] at hx ⊢
    split
    · rename_i hxd
      rw [if_pos hxd] at hx
      cases hx
    · rename_i hxd
      rw [if_neg hxd] at hx
      exact ⟨hx, rfl, List.Sublist.refl _, fun hne => hne⟩

/-- A call that lowers the limit of a container that is bound and has the cores. -/
theorem right_minus {limit : ℚ} (hh : Homed L s) (ha : AbleMinus s d limit) :
    Right (D := D) L s (.minus d limit) := by
  obtain ⟨nid, hseated⟩ := hh.seated d ha.bound
  obtain ⟨clusterId, hlast⟩ := Option.ne_none_iff_exists'.mp
    (fun hnone => hseated.some (List.getLast?_eq_none_iff.mp hnone))
  obtain ⟨⟨cpus, ids, s1⟩, h1⟩ : ∃ r, returnCpus nid (s.docker d).bindClusters.reverse
      (⌈(s.docker d).currentCpuLimit⌉ - ⌈(s.docker d).currentCpuLimit - limit⌉).toNat [] s = .ok r := by
    refine returnCpus_ok [] (List.nodup_reverse.mpr (hh.once d ha.bound)) ?_
    rw [List.map_reverse, List.sum_reverse]
    exact Int.toNat_le.mpr ha.enough
  refine ⟨nid, s1.setDocker d { s.docker d with
    currentCpuSet := (s.docker d).currentCpuSet.filter (· ∉ cpus)
    bindClusters := ids.reverse
    currentCpuLimit := (s.docker d).currentCpuLimit - limit }, hseated, ?_⟩
  simp only [dockerMinusCpuLimitComm, front_eq hseated.node, toSize_ok ha.amount, back_eq hlast, h1, bind,
    Except.bind, pure, Except.pure]

/-! ### Whose cores are occupied -/

/-- The cores of a container that is bound are occupied, in its clusters. -/
def Covered (T : Topology) (s : State) : Prop :=
  ∀ d, (s.place d).optimizeBinded = true → ∀ x ∈ (s.place d).currentCpuSet,
    x / T.oneClusterCpuNum ∈ (s.place d).bindClusters ∧ x ∈ (s.cluster (x / T.oneClusterCpuNum)).occupiedCpuCores

namespace Covered

theorem still (hp : Placement L s) (h : Covered T s) (hs : Still s s') : Covered T s' := by
  intro d hb x hx
  cases hold : (s.place d).optimizeBinded with
  | false =>
    rw [(hs.unbound d ⟨hold, hp.unbound d hold⟩).1] at hb
    cases hb
  | true =>
    rw [(hs.bound d hold).1] at hx ⊢
    rw [hs.cluster]
    exact h d hold x hx

theorem grown {nid : ℕ} {cpus ids : List ℕ} (h : Covered T s) (hg : Grown T s s' d nid cpus ids)
    (hbind : (s'.place d).bindClusters = (s.place d).bindClusters ++ ids)
    (hset : ∀ x ∈ (s'.place d).currentCpuSet, x ∈ cpus ∨
      ((s.place d).optimizeBinded = true ∧ x ∈ (s.place d).currentCpuSet)) : Covered T s' := by
  intro y hb x hx
  rcases eq_or_ne y d with rfl | hy
  · rw [hbind]
    rcases hset x hx with hx | ⟨hold, hx⟩
    · exact ⟨hg.home x hx, hg.takes.mem_occupied.mpr (.inr ⟨hx, rfl⟩)⟩
    · obtain ⟨hmem, hocc⟩ := h y hold x hx
      exact ⟨List.mem_append_left _ hmem, hg.takes.mem_occupied.mpr (.inl hocc)⟩
  · rw [hg.place hy] at hb hx ⊢
    obtain ⟨hmem, hocc⟩ := h y hb x hx
    exact ⟨hmem, hg.takes.mem_occupied.mpr (.inl hocc)⟩

theorem shrunk {nid : ℕ} {cpus cpus' ids ids' : List ℕ} (hp : Placement L s) (h : Covered T s)
    (hs : Shrunk T s s' d nid cpus ids) (hperm : cpus'.Perm cpus) (hb : (s.place d).optimizeBinded = true)
    (hbind : (s.place d).bindClusters = ids' ++ ids) (hbind' : (s'.place d).bindClusters = ids')
    (hset : (s'.place d).currentCpuSet = (s.place d).currentCpuSet.filter (· ∉ cpus')) : Covered T s' := by
  intro y hy x hx
  rcases eq_or_ne y d with rfl | hyd
  · rw [hset, List.mem_filter, decide_eq_true_eq, hperm.mem_iff] at hx
    obtain ⟨hmem, hocc⟩ := h y hb x hx.1
    have hleft := (hs.takes.mem_occupied.mp hocc).resolve_right fun hc => hx.2 hc.1
    rw [hbind, List.mem_append] at hmem
    rw [hbind']
    refine ⟨hmem.resolve_right fun hgone => ?_, hleft⟩
    rw [hs.gone _ hgone] at hleft
    cases hleft
  · rw [hs.place hyd] at hy hx ⊢
    obtain ⟨hmem, hocc⟩ := h y hy x hx
    refine ⟨hmem, (hs.takes.mem_occupied.mp hocc).resolve_right fun hc => hyd ?_⟩
    exact hp.apart y d _ hmem (hs.home x hc.1)

theorem add {limit : ℚ} {updated b : Bool} (hk : 0 < T.oneClusterCpuNum) (hp : Placement L s)
    (hcalm : ∀ c, ∀ x ∈ (s.cluster c).freeCpuCores, sel.Calm x) (h : Covered T s)
    (hadd : dockerAddCpuLimitComm sel T d limit updated s = .ok (s', b)) : Covered T s' := by
  obtain ⟨nid, cpus, ids, -, hg, -, hb, hplace⟩ := grown_add hk hp hcalm hadd
  refine h.grown hg (by rw [hplace]) fun x hx => ?_
  rw [hplace] at hx
  exact (List.mem_append.mp hx).symm.imp_right fun hx => ⟨hb, hx⟩

theorem minus {limit : ℚ} {updated b : Bool} (hp : Placement L s) (h : Covered T s)
    (hminus : dockerMinusCpuLimitComm d limit updated s = .ok (s', b)) : Covered T s' := by
  obtain ⟨nid, cpus, cpus', ids, ids', -, hs, hperm, -, hb, hbind, -, hplace⟩ := shrunk_minus hp hminus
  exact h.shrunk hp hs hperm hb hbind (by rw [hplace]) (by rw [hplace])

end Covered

/-- What is taken is different. -/
theorem Takes.nodup {cpus : List ℕ} (h : Takes T s s' cpus) (hs : Housed T s) : cpus.Nodup := by
  refine List.nodup_iff_sublist.mpr fun x hsub => ?_
  have hfilter := hsub.filter (fun y => decide (y / T.oneClusterCpuNum = x / T.oneClusterCpuNum))
  rw [List.filter_eq_self.mpr (by simp)] at hfilter
  exact List.nodup_iff_sublist.mp (Moves.nodup h (hs.nodup (x / T.oneClusterCpuNum))) x hfilter

/-- A call that raises the limit of a container that is bound, where there is room. -/
theorem right_add {limit : ℚ} (hT : Numbered T) (hb : 0 < T.oneClusterCpuNum / T.sep)
    (hsize : ∀ i, ∀ c ∈ L.clusters i, (L.cores c).length = T.oneClusterCpuNum / T.sep) (hp : Placement L s)
    (hcovered : Covered T s) (hcalm : ∀ c, ∀ x ∈ (s.cluster c).freeCpuCores, sel.Calm x)
    (ha : AbleAdd T sel s d limit) : Right L s (.add sel d limit) := by
  obtain ⟨nid, hseated, hplaced⟩ := hp.seated ha.bound
  obtain ⟨clusterId, hlast⟩ := Option.ne_none_iff_exists'.mp
    (fun hnone => hseated.some (List.getLast?_eq_none_iff.mp hnone))
  obtain ⟨⟨cpus, ids, s1⟩, h1⟩ : ∃ r, addCpus sel T nid clusterId
      (⌈(s.docker d).currentCpuLimit + limit⌉ - ⌈(s.docker d).currentCpuLimit⌉).toNat s = .ok r :=
    addCpus_ok hT hb hsize hp (hplaced.occupied (List.mem_of_getLast? hlast))
      (Int.toNat_le.mpr (ha.room nid clusterId hseated.node hlast)) (ha.counted nid hseated.node)
  obtain ⟨s', h⟩ : ∃ s', dockerAddCpuLimitComm sel T d limit true s = .ok (s', true) := by
    refine ⟨s1.setDocker d { s.docker d with
      currentCpuSet := (s.docker d).currentCpuSet ++ cpus
      bindClusters := (s.docker d).bindClusters ++ ids
      currentCpuLimit := (s.docker d).currentCpuLimit + limit }, ?_⟩
    simp only [dockerAddCpuLimitComm, front_eq hseated.node, toSize_ok ha.amount, back_eq hlast, h1, bind,
      Except.bind, pure, Except.pure, if_neg hT.pos.ne']
  obtain ⟨nid', cpus', ids', hplaced', hg, hlen, -, hplace⟩ := grown_add hT.pos hp hcalm h
  have hnid : nid' = nid := Option.some_inj.mp (hplaced'.node.symm.trans hseated.node)
  subst hnid
  have hnew : ∀ c ∈ ids', c ∈ (s.numa nid').freeInfoVec := fun c hc => hg.occupies.mem_free.mpr (.inr ⟨rfl, hc⟩)
  have hfree : ∀ x ∈ cpus', x ∈ (s.cluster (x / T.oneClusterCpuNum)).freeCpuCores := fun x hx =>
    hg.takes.mem_free.mpr (.inr ⟨hx, rfl⟩)
  refine ⟨nid', cpus', ids', s', hseated, h, ?_⟩
  exact {
    bindClusters := congrArg Place.bindClusters hplace
    distinct := hg.occupies.nodup_ids (hp.free_nodup nid')
    unoccupied := hnew
    home := fun c hc => hp.mem_clusters.mpr (.inl (hnew c hc))
    currentCpuSet := congrArg Place.currentCpuSet hplace
    nodup := hg.takes.nodup hp.housed
    new := fun x hx hold => (hp.cores _).disjoint (L.cores_nodup _) (hfree x hx) (hcovered d ha.bound x hold).2
    length := hlen
    free := fun x hx => ⟨x / T.oneClusterCpuNum, hg.home x hx, hfree x hx⟩ }

/-! ### In a `Tune` -/

/-- What each call of a `Tune` leaves for the next one. -/
structure Kept (L : Layout T) (calm : ℕ → Prop) (lenders : List Str) (s : State) : Prop where
  placement : Placement L s
  cool : Cool calm lenders s
  covered : Covered T s

/-- The selector finds the cores that are free or of a container that could lend, and the commands that bind
    succeed. -/
def Fair (env : TuneEnv D) (s : State) : Prop :=
  Cool env.sel.Calm (couldLendDockers s) s ∧ ∀ d ∈ s.dockerInfos.keys, (s.docker d).optimizeBinded = false →
    0 < (s.docker d).initialCpuLimit → env.bound d = true

variable {env : TuneEnv D} {lenders : List Str}

theorem Kept.still {calm : ℕ → Prop} (h : Kept L calm lenders s) (hs : Still s s') : Kept L calm lenders s' :=
  ⟨h.placement.still hs, h.cool.still h.placement hs, h.covered.still h.placement hs⟩

theorem kept_bindSchedule (hk : 0 < T.oneClusterCpuNum) (hp : Placement L s) (hcovered : Covered T s)
    (hfair : Fair env s) (h : dockerOptimizeBindSchedule T env s.dockerInfos.keys s = .ok s') :
    Kept L env.sel.Calm (couldLendDockers s') s' := by
  have hall := bindSchedule_invariant
    (P := fun s' => Kept L env.sel.Calm (couldLendDockers s) s' ∧ ∀ x, x ∈ s'.dockerInfos.keys ↔ x ∈ s.dockerInfos.keys)
    hk s.dockerInfos.nodup (fun d nid n s1 s2 hd hsame hb hlimit hn hlen hnid hs h1 => ?_)
    ⟨⟨hp, hfair.1, hcovered⟩, fun _ => Iff.rfl⟩ h
  · obtain ⟨⟨hp', hcool, hcovered'⟩, -⟩ := hall
    exact ⟨hp', ⟨hcool.free, fun y hy => hcool.lent y ((mem_couldLendDockers_bound h).mp hy)⟩, hcovered'⟩
  · obtain ⟨⟨hp1, hc1, hcov1⟩, hkeys⟩ := hs
    have hbound : env.bound d = true := hfair.2 d hd hb hlimit
    rw [← hsame] at hb hlimit hn hnid
    have hd1 := (hkeys d).mpr hd
    obtain ⟨cpus, new, hg, -, -, hdocker⟩ := grown_bind hk hp1 hc1.free hd1 hb hlimit hn hlen h1
    have hbind : (s1.place d).bindClusters = [] := hp1.unbound d hb
    have hnew : (State.place (s2.setDocker d { s2.docker d with optimizeBinded := true }) d).bindClusters =
        (s1.place d).bindClusters ++ new := by
      rw [place_setDocker, if_pos rfl, hdocker, hbind]
      rfl
    refine ⟨⟨hp1.bind hk hc1.free hd1 hb hlimit hn hlen (.inl hbound) hnid h1, hc1.grown hp1 hg hnew,
      hcov1.grown hg hnew fun x hx => .inl ?_⟩, fun x => (hg.keys x).trans (hkeys x)⟩
    rw [place_setDocker, if_pos rfl, hdocker, hbound] at hx
    exact hx

theorem kept_borrow {n : ℕ} {limit : ℚ} {ls : List Str} (hk : 0 < T.oneClusterCpuNum)
    (hkept : Kept L env.sel.Calm lenders s) (h : borrow T env ls n limit s d = .ok s') :
    Kept L env.sel.Calm lenders s' := by
  obtain ⟨hp', hc'⟩ := placement_borrow hk hkept.placement hkept.cool h
  refine ⟨hp', hc', ?_⟩
  obtain ⟨⟨s1, b⟩, h1, h⟩ := bind_ok h
  obtain ⟨nid, cpus, ids, -, hg, -, -, -⟩ := grown_add hk hkept.placement hkept.cool.free h1
  cases h
  refine (hkept.covered.add hk hkept.placement hkept.cool.free h1).still
    (hkept.placement.add hk hkept.cool.free h1) (still_setDocker _ ((hg.keys d).mpr hg.mem) ?_)
  rw [place_setDocker, if_pos rfl]
  rfl

theorem kept_takeBack (hk : 0 < T.oneClusterCpuNum) (hkept : Kept L env.sel.Calm lenders s)
    (h : takeBack T env s d = .ok s') : Kept L env.sel.Calm lenders s' := by
  obtain ⟨hp', hc'⟩ := placement_takeBack hk hkept.placement hkept.cool h
  refine ⟨hp', hc', ?_⟩
  obtain ⟨⟨s1, b⟩, h1, h⟩ := bind_ok h
  obtain ⟨nid, cpus, ids, -, hg, -, -, -⟩ := grown_add hk hkept.placement hkept.cool.free h1
  cases h
  refine (hkept.covered.add hk hkept.placement hkept.cool.free h1).still
    (hkept.placement.add hk hkept.cool.free h1) (still_setDocker _ ((hg.keys d).mpr hg.mem) ?_)
  rw [place_setDocker, if_pos rfl]
  rfl

theorem kept_lend (hkept : Kept L env.sel.Calm lenders s) (hd : d ∈ lenders) (h : lend env s d = .ok s') :
    Kept L env.sel.Calm lenders s' := by
  obtain ⟨hp', hc'⟩ := placement_lend hkept.placement hkept.cool hd h
  refine ⟨hp', hc', ?_⟩
  obtain ⟨⟨s1, b⟩, h1, h⟩ := bind_ok h
  have hcovered := hkept.covered.minus hkept.placement h1
  dsimp only at h
  split at h
  · cases h
    obtain ⟨nid, cpus, cpus', ids, ids', -, hs, -⟩ := shrunk_minus hkept.placement h1
    refine hcovered.still (hkept.placement.minus h1) (still_setDocker _ ((hs.keys d).mpr hs.mem) ?_)
    rw [place_setDocker, if_pos rfl]
    rfl
  · cases h
    exact hcovered

theorem kept_tryBorrow (hk : 0 < T.oneClusterCpuNum) (hkept : Kept L env.sel.Calm (couldLendDockers s) s)
    (h : tryBorrowCpuFromIdleDocker T env s = .ok s') : Kept L env.sel.Calm (couldLendDockers s) s' := by
  have hoffers := hkept.still (still_offers s)
  unfold tryBorrowCpuFromIdleDocker at h
  dsimp only at h
  split at h
  · cases h
    exact hoffers
  · obtain ⟨s1, h1, h⟩ := bind_ok h
    have hborrow := foldlM_invariant (fun _ _ _ _ hs hstep => kept_borrow hk hs hstep) hoffers h1
    exact foldlM_invariant (fun _ _ _ hd hs hstep => kept_lend hs hd hstep) hborrow h

/-- And what a whole `Tune` leaves. -/
theorem covered_tune (hk : 0 < T.oneClusterCpuNum) (hp : Placement L s) (hcovered : Covered T s)
    (hfair : Fair env s) (h : tune T env s = .ok s') : Placement L s' ∧ Covered T s' := by
  obtain ⟨s1, h1, h⟩ := bind_ok h
  have hbind := kept_bindSchedule hk hp hcovered hfair h1
  split at h
  · obtain ⟨s2, h2, h⟩ := bind_ok h
    have hborrow := kept_tryBorrow hk hbind h2
    unfold tryReturnCpuToIdleDocker at h
    dsimp only at h
    split at h
    · cases h
      exact ⟨hborrow.placement, hborrow.covered⟩
    · obtain ⟨s3, h3, h⟩ := bind_ok h
      have hback := foldlM_invariant (fun _ _ _ _ hs hstep => kept_takeBack hk hs hstep)
        (hborrow.still (still_settleLoans _ s2)) h3
      refine foldlM_invariant (P := fun s => Placement L s ∧ Covered T s) (fun _ _ _ _ hs hstep => ?_)
        ⟨hback.placement, hback.covered⟩ h
      obtain ⟨⟨s4, b⟩, h4, rfl⟩ := map_ok hstep
      exact ⟨hs.1.minus h4, hs.2.minus hs.1 h4⟩
  · cases h
    exact ⟨hbind.placement, hbind.covered⟩

/-- A call that is made where everything is in its place. -/
theorem right_of_made {a : Act D} {call : Call D} (hT : Numbered T) (hb : 0 < T.oneClusterCpuNum / T.sep)
    (hsize : ∀ i, ∀ c ∈ L.clusters i, (L.cores c).length = T.oneClusterCpuNum / T.sep) (hp : Placement L s)
    (hcovered : Covered T s) (ha : ∀ env, a = .tune env → Fair env s) (h : Made T s a s' call)
    (hable : Able T s' call) : Right L s' call := by
  have hadd : ∀ {calm lenders d limit} {sel : ClusterSelector D}, calm = sel.Calm → Kept L calm lenders s' →
      AbleAdd T sel s' d limit → Right L s' (.add sel d limit) := by
    rintro _ lenders d limit sel rfl hkept hable
    exact right_add hT hb hsize hkept.placement hkept.covered hkept.cool.free hable
  cases h with
  | borrow hbind hswitch hlimit h =>
    have hkept := kept_bindSchedule hT.pos hp hcovered (ha _ rfl) hbind
    obtain ⟨-, hkept⟩ := h.invariant (fun _ _ _ _ hs hstep => kept_borrow hT.pos hs hstep)
      (hkept.still (still_offers _))
    exact hadd rfl hkept hable
  | lend hbind hswitch hlimit hneed hborrow h =>
    have hkept := kept_bindSchedule hT.pos hp hcovered (ha _ rfl) hbind
    have hkept := foldlM_invariant (fun _ _ _ _ hs hstep => kept_borrow hT.pos hs hstep)
      (hkept.still (still_offers _)) hborrow
    obtain ⟨-, hkept⟩ := h.invariant (fun _ _ _ hd hs hstep => kept_lend hs hd hstep) hkept
    exact right_minus hkept.placement.homed hable
  | takeBack hbind hswitch hborrow h =>
    have hkept := kept_tryBorrow hT.pos (kept_bindSchedule hT.pos hp hcovered (ha _ rfl) hbind) hborrow
    obtain ⟨-, hkept⟩ := h.invariant (fun _ _ _ _ hs hstep => kept_takeBack hT.pos hs hstep)
      (hkept.still (still_settleLoans _ _))
    exact hadd rfl hkept hable
  | giveBack hbind hswitch hborrow hback h =>
    have hkept := kept_tryBorrow hT.pos (kept_bindSchedule hT.pos hp hcovered (ha _ rfl) hbind) hborrow
    have hkept := foldlM_invariant (fun _ _ _ _ hs hstep => kept_takeBack hT.pos hs hstep)
      (hkept.still (still_settleLoans _ _)) hback
    obtain ⟨-, hhomed⟩ := h.invariant (P := Homed L) (fun _ _ _ _ hs hstep => by
      obtain ⟨⟨s5, b⟩, h5, rfl⟩ := map_ok hstep
      exact hs.minus h5) hkept.placement.homed
    exact right_minus hhomed hable
  | returnTo hfirst hgone hcount hbound hupdated h hloan =>
    obtain ⟨-, hhomed⟩ := hgone.invariant (P := Homed L) (fun _ _ _ _ hs hstep => hs.removeGone hT.pos hstep)
      hp.homed
    obtain ⟨-, hhomed⟩ := h.invariant (P := Homed L) (fun _ _ _ _ hs hstep => hs.returnTo hstep)
      (hhomed.of_docker (onlyPools_released T _ _).docker)
    exact right_minus hhomed hable

/-! ### Runs -/

/-- A step that is sure: no container vanishes that is bound, and a `Tune` is fair. -/
def Sure (s : State) : Act D → Prop
  | .update data _ _ => ∀ d ∈ s.dockerInfos.keys, (s.docker d).optimizeBinded = true →
      (collect data).count d = true
  | .tune env => Fair env s
  | .exit _ => True

theorem covered_of_runs {dockerBorrowSwitch : Bool} {s0 : State} (hT : Numbered T)
    (h0 : init T dockerBorrowSwitch = some s0) (hrun : Runs (step (D := D) T) s0 Sure s) :
    (Placement hT.layout s ∨ Placement (Layout.none T) s) ∧ Covered T s := by
  have hunbound : ∀ {s : State}, (∀ d, (s.place d).optimizeBinded = false) → Covered T s := by
    intro s hnone d hb
    rw [hnone d] at hb
    cases hb
  refine hrun.invariant (I := fun s => (Placement hT.layout s ∨ Placement (Layout.none T) s) ∧ Covered T s)
    ⟨.inl (placement_init hT h0).1, hunbound fun d => ?_⟩ ?_
  · have hnone : s0.dockerInfos.keys = [] := by
      unfold init at h0
      split at h0
      · cases h0
      · cases h0
        rw [(initSystemClusters_onlyPools T _).dockerInfos]
        rfl
    rw [State.place, place_of_not_mem (by rw [hnone]; exact List.not_mem_nil)]
    rfl
  · rintro s a s' ⟨hp, hcovered⟩ hok hstep
    cases a with
    | update data updated order =>
      rcases hp with hp | hp
      · exact ⟨.inl (hp.update hok hstep), hcovered.still hp (hp.still_update hok hstep)⟩
      · exact ⟨.inr (hp.update hok hstep), hcovered.still hp (hp.still_update hok hstep)⟩
    | tune env =>
      rcases hp with hp | hp
      · obtain ⟨hp', hcovered'⟩ := covered_tune hT.pos hp hcovered hok hstep
        exact ⟨.inl hp', hcovered'⟩
      · obtain ⟨hp', hcovered'⟩ := covered_tune hT.pos hp hcovered hok hstep
        exact ⟨.inr hp', hcovered'⟩
    | exit updated =>
      refine ⟨.inr (placement_exit hstep), hunbound fun d => ?_⟩
      obtain ⟨s1, -, hstep⟩ := bind_ok hstep
      cases hstep
      rfl

end

/-! ### Who borrows -/

theorem fair_sampleEnv (s : State) : Fair sampleEnv s := by
  have hcalm : ∀ x, sampleEnv.sel.Calm x := fun _ => rfl
  exact ⟨⟨fun _ x _ => hcalm x, fun _ _ _ _ x _ => hcalm x⟩, fun _ _ _ _ => rfl⟩

theorem sure_of_keepsBound {D : Type} [Double D] {data : List DockerAdapt.Entry} {updated : Str → Bool}
    {order : List Str} {s : State} (h : keepsBound data s = true) : Sure s (.update data updated order : Act D) := by
  intro d hd hb
  have hall := (List.all_eq_true.mp h) d hd
  rwa [hb] at hall

/-- What two containers report until the first can lend to the other. -/
def sampleBusy (data : ℕ → List DockerAdapt.Entry) : Except Fault State :=
  (List.range 31).foldlM (fun s i => if keepsBound (data i) s
    then step sampleTopology s (sampleUpdate (data i) : Act ℚ) else .error .badIndex) sampleLending

theorem runs_sampleBusy {data : ℕ → List DockerAdapt.Entry} {s : State} (h : sampleBusy data = .ok s) :
    Runs (step (D := ℚ) sampleTopology) sampleLending Sure s := by
  refine foldlM_invariant (P := Runs (step (D := ℚ) sampleTopology) sampleLending Sure)
    (fun s i s' _ hr hstep => ?_) .start h
  split at hstep
  · rename_i hkeeps
    exact hr.next (sure_of_keepsBound hkeeps) hstep
  · cases hstep

/-- The second is the first to borrow. -/
def isBorrower (s : State) : Bool :=
  s.dockerBorrowSwitch && decide (¬couldBorrowLimit s < 1 / 100) && decide ((needBorrowDockers s).head? = some (str "b"))

theorem made_of_isBorrower {s s1 : State}
    (hbind : dockerOptimizeBindSchedule sampleTopology sampleEnv s.dockerInfos.keys s = .ok s1)
    (h : isBorrower s1 = true) : Made sampleTopology s (.tune sampleEnv) (offers s1)
      (.add sampleEnv.sel (str "b") (borrowLimitPerDocker s1)) := by
  simp only [isBorrower, Bool.and_eq_true, decide_eq_true_eq] at h
  obtain ⟨⟨hswitch, hlimit⟩, hhead⟩ := h
  obtain ⟨rest, hrest⟩ := List.head?_eq_some_iff.mp hhead
  exact .borrow hbind hswitch hlimit ⟨[], rest, hrest, rfl⟩

def sampleBorrower (data : ℕ → List DockerAdapt.Entry) : Except Fault (State × State) := do
  let s ← sampleBusy data
  let s1 ← dockerOptimizeBindSchedule sampleTopology sampleEnv s.dockerInfos.keys s
  return (s, s1)

/-- It is bound, two cores are free in its cluster, and two are due. -/
def hasRoom (s1 : State) : Bool :=
  let s := offers s1
  let need := ⌈(s.docker (str "b")).currentCpuLimit + borrowLimitPerDocker s1⌉ - ⌈(s.docker (str "b")).currentCpuLimit⌉
  (s.docker (str "b")).optimizeBinded && decide ((s.docker (str "b")).bindClusters.getLast? = some 1) &&
    decide (need = 2) && decide ((s.cluster 1).freeCpuCores.length = 2)

theorem able_of_hasRoom {s1 : State} (h : hasRoom s1 = true) :
    Able sampleTopology (offers s1) (.add sampleEnv.sel (str "b") (borrowLimitPerDocker s1)) := by
  simp only [hasRoom, Bool.and_eq_true, decide_eq_true_eq] at h
  obtain ⟨⟨⟨hb, hlast⟩, hneed⟩, hfree⟩ := h
  refine ⟨hb, by rw [hneed]; decide, fun nid c _ hc => ?_, fun _ _ c _ => ?_⟩
  · rw [hlast] at hc
    cases hc
    rw [hneed, hfree]
    exact Int.ofNat_le.mpr (Nat.le_add_right 2 _)
  · change (0 : UInt64) < UInt64.ofNat (2 ^ 64 - 1)
    decide

theorem sampleBorrower_ok : (sampleBorrower samplePair).toOption.any (fun p => isBorrower p.2 && hasRoom p.2) = true := by
  decide +kernel

/-- The second without a limit. -/
def sampleUnlimited (i : ℕ) : List DockerAdapt.Entry :=
  [sampleContainer "a" 400000 0 i, { sampleContainer "b" 0 (i * 20000000) i with cfs_quota_us := -1 }]

theorem sampleBorrower_unlimited : (sampleBorrower sampleUnlimited).toOption.any (fun p => isBorrower p.2 &&
    ((offers p.2).docker (str "b")).bindClusters.isEmpty) = true := by
  decide +kernel

end ClusterAffinity
end OeAware

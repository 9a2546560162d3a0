import OeAware.Tune.Places

/-! @src src/plugin/tune/docker/cluster_affinity/cluster_affinity_adapt.cpp |
    name:DockerBindClusters, DockerAddCpuLimitComm, DockerMinusCpuLimitComm | scheme:pools

    What the loops over cores and clusters take and give back. Of some clusters all but the last are taken
    as a whole, and of the last as many cores as are still needed; it has as many if the selector finds
    those that are free. What is given back goes the other way, from the last cluster on. -/

namespace OeAware
open Schemes
open scoped List

namespace ClusterAffinity

section
variable {T : Topology} {s s' s'' : State}

@[simp] theorem cluster_setCluster (clusterId c : ℕ) (v : Cluster) :
    (s.setCluster clusterId v).cluster c = if c = clusterId then v else s.cluster c := by
  unfold State.setCluster State.cluster
  rw [UMap.find_insert]
  split <;> rfl

@[simp] theorem numa_setNuma (nid i : ℕ) (v : NumaClusterInfo) :
    (s.setNuma nid v).numa i = if i = nid then v else s.numa i := by
  unfold State.setNuma State.numa
  rw [UMap.find_insert]
  split <;> rfl

/-- What is free is free once, and in its own cluster. -/
structure Housed (T : Topology) (s : State) : Prop where
  nodup : ∀ c, (s.cluster c).freeCpuCores.Nodup
  home : ∀ c, ∀ x ∈ (s.cluster c).freeCpuCores, x / T.oneClusterCpuNum = c

theorem Placement.housed {L : Layout T} (h : Placement L s) : Housed T s where
  nodup c := ((h.cores c).nodup (L.cores_nodup c)).of_append_left
  home c x hx := L.cores_home c x ((h.cores c).mem_all.mpr (.inl hx))

theorem Takes.housed {cpus : List ℕ} (h : Takes T s s' cpus) (hs : Housed T s) : Housed T s' where
  nodup c := ((Moves.src h c).nodup_iff.mp (hs.nodup c)).of_append_left
  home c x hx := hs.home c x (h.mem_free.mpr (.inl hx))

theorem Housed.mono (hs : Housed T s) (h : ∀ c, (s'.cluster c).freeCpuCores.Sublist (s.cluster c).freeCpuCores) :
    Housed T s' where
  nodup c := (h c).nodup (hs.nodup c)
  home c x hx := hs.home c x ((h c).subset hx)

/-- The numbers of the cores of a cluster. -/
theorem Housed.block (hs : Housed T s) (hk : 0 < T.oneClusterCpuNum) {c x : ℕ}
    (hx : x ∈ (s.cluster c).freeCpuCores) : c * T.oneClusterCpuNum ≤ x ∧ x < c * T.oneClusterCpuNum + T.oneClusterCpuNum := by
  have hlt := Nat.lt_div_mul_add hk (a := x)
  rw [← hs.home c x hx]
  exact ⟨Nat.div_mul_le_self _ _, hlt⟩

/-- Only one cluster has changed. -/
theorem takes_cluster {c : ℕ} {cpus : List ℕ} (hother : ∀ c', c' ≠ c → s'.cluster c' = s.cluster c')
    (hhome : ∀ x ∈ cpus, x / T.oneClusterCpuNum = c)
    (hfree : (s.cluster c).freeCpuCores.Perm ((s'.cluster c).freeCpuCores ++ cpus))
    (hocc : (s'.cluster c).occupiedCpuCores.Perm ((s.cluster c).occupiedCpuCores ++ cpus)) :
    Takes T s s' cpus := by
  have hfilter : ∀ c', cpus.filter (· / T.oneClusterCpuNum = c') = if c' = c then cpus else [] := by
    intro c'
    split
    · rename_i hc
      exact List.filter_eq_self.mpr (fun x hx => decide_eq_true (hc ▸ hhome x hx))
    · rename_i hc
      exact List.filter_eq_nil_iff.mpr (fun x hx h => hc ((of_decide_eq_true h).symm.trans (hhome x hx)))
  constructor
  · intro c'
    simp only [hfilter c']
    by_cases hc : c' = c
    · subst hc
      simpa using hfree
    · simp [hc, hother c' hc]
  · intro c'
    simp only [hfilter c']
    by_cases hc : c' = c
    · subst hc
      simpa using hocc
    · simp [hc, hother c' hc]

/-! ### Cores -/

/-- So many cores of some clusters have been taken. -/
structure Taken (T : Topology) (s s' : State) (ids cpus : List ℕ) : Prop where
  takes : Takes T s s' cpus
  home : ∀ x ∈ cpus, x / T.oneClusterCpuNum ∈ ids
  numa : s'.numa = s.numa

namespace Taken
variable {ids ids' cpus cpus' : List ℕ}

theorem trans (h : Taken T s s' ids cpus) (h' : Taken T s' s'' ids' cpus') :
    Taken T s s'' (ids ++ ids') (cpus ++ cpus') where
  takes := h.takes.trans h'.takes
  home x hx := by
    rcases List.mem_append.mp hx with hx | hx
    · exact List.mem_append_left _ (h.home x hx)
    · exact List.mem_append_right _ (h'.home x hx)
  numa := h'.numa.trans h.numa

/-- Nothing is taken of the other clusters. -/
theorem free_perm (h : Taken T s s' ids cpus) {c : ℕ} (hc : c ∉ ids) :
    (s.cluster c).freeCpuCores.Perm (s'.cluster c).freeCpuCores := by
  have hnil : cpus.filter (· / T.oneClusterCpuNum = c) = [] :=
    List.filter_eq_nil_iff.mpr (fun x hx hxc => hc (of_decide_eq_true hxc ▸ h.home x hx))
  have hsrc := Moves.src h.takes c
  simp only [hnil, List.append_nil] at hsrc
  exact hsrc

end Taken

variable {D : Type} [Double D] {sel : ClusterSelector D}

/-- As many cores are taken as are needed, if the cluster has them. -/
theorem taken_takeCpus {clusterId n : ℕ} {cpuSet cpuSet' : List ℕ} (hk : 0 < T.oneClusterCpuNum)
    (hs : Housed T s) (hcalm : ∀ x ∈ (s.cluster clusterId).freeCpuCores, sel.Calm x)
    (hn : n ≤ (s.cluster clusterId).freeCpuCores.length)
    (hset : ∀ x ∈ cpuSet, x / T.oneClusterCpuNum ≠ clusterId)
    (h : takeCpus sel T clusterId n cpuSet s = .ok (cpuSet', s')) :
    ∃ cpus, cpuSet' = cpuSet ++ cpus ∧ cpus.length = n ∧ Taken T s s' [clusterId] cpus := by
  obtain ⟨used, hmark, h⟩ := bind_ok h
  obtain ⟨cpus, hpick, h⟩ := bind_ok h
  cases h
  have hunused := unused_of_mark_false (hs.nodup clusterId) (fun x hx => hs.block hk hx) hmark
  obtain ⟨hnd, hsub, hlen⟩ := pickCpus_free sel T hunused hcalm hn hpick
  have hhome : ∀ x ∈ cpus, x / T.oneClusterCpuNum = clusterId := fun x hx =>
    hs.home clusterId x (hsub hx)
  refine ⟨cpus, rfl, hlen, ⟨?_, fun x hx => List.mem_singleton.mpr (hhome x hx), rfl⟩⟩
  refine takes_cluster (fun c hc => by simp [hc]) hhome ?_ (by simp)
  rw [cluster_setCluster, if_pos rfl]
  refine perm_filter_append _ (hs.nodup clusterId) hnd hsub (fun x hx => ?_)
  have hold : x ∉ cpuSet := fun hmem => hset x hmem (hs.home clusterId x hx)
  simp [hold]

theorem taken_takeAll (hs : Housed T s) (clusterId : ℕ) :
    Taken T s (takeAll clusterId s) [clusterId] (s.cluster clusterId).freeCpuCores where
  takes := takes_cluster (c := clusterId) (fun c hc => by simp [takeAll, hc]) (hs.home clusterId)
    (by simp [takeAll]) (by simp [takeAll])
  home x hx := List.mem_singleton.mpr (hs.home clusterId x hx)
  numa := rfl

/-- All the cores of some clusters. -/
theorem taken_takeWhole : ∀ {ids cpuSet cpuSet' : List ℕ} {need left : ℕ} {s s' : State}, Housed T s →
    ids.Nodup → takeWhole ids need cpuSet s = .ok (left, cpuSet', s') →
    ∃ cpus, cpuSet' = cpuSet ++ cpus ∧ need = left + cpus.length ∧ Taken T s s' ids cpus ∧
      ∀ n, (∀ c ∈ ids, n ≤ (s.cluster c).freeCpuCores.length) → ids.length * n ≤ cpus.length
  | [], cpuSet, _, need, _, s, _, _, _, h => by
    cases h
    refine ⟨[], by simp, by simp, ⟨.refl T s, ?_, rfl⟩, by simp⟩
    exact fun x hx => by cases hx
  | clusterId :: ids, cpuSet, _, need, _, s, s', hs, hnd, h => by
    obtain ⟨hid, hnd⟩ := List.nodup_cons.mp hnd
    rw [takeWhole] at h
    split at h
    · cases h
    · rename_i hlen
      have hfirst := taken_takeAll hs clusterId
      obtain ⟨cpus, rfl, hneed, htaken, hcount⟩ := taken_takeWhole (hfirst.takes.housed hs) hnd h
      refine ⟨_, List.append_assoc _ _ _, ?_, hfirst.trans htaken, fun n hn => ?_⟩
      · rw [List.length_append]
        omega
      · obtain ⟨hn1, hn⟩ := List.forall_mem_cons.mp hn
        have hrest := hcount n (fun c hc => ?_)
        · rw [List.length_cons, List.length_append, Nat.succ_mul]
          omega
        · rw [← (hfirst.free_perm (c := c) ?_).length_eq]
          · exact hn c hc
          · rw [List.mem_singleton]
            rintro rfl
            exact hid hc

/-- So many cores of some clusters, each of which has at least `n`. -/
theorem taken_fillClusters {ids cpuSet cpuSet' : List ℕ} {need n : ℕ} (hk : 0 < T.oneClusterCpuNum)
    (hs : Housed T s) (hnd : ids.Nodup) (hcalm : ∀ c ∈ ids, ∀ x ∈ (s.cluster c).freeCpuCores, sel.Calm x)
    (hn : ∀ c ∈ ids, n ≤ (s.cluster c).freeCpuCores.length) (hneed : need ≤ ids.length * n)
    (hset : ∀ x ∈ cpuSet, x / T.oneClusterCpuNum ∉ ids)
    (h : fillClusters sel T ids need cpuSet s = .ok (cpuSet', s')) :
    ∃ cpus, cpuSet' = cpuSet ++ cpus ∧ cpus.length = need ∧ Taken T s s' ids cpus := by
  obtain ⟨clusterId, hback, h⟩ := bind_ok h
  obtain ⟨⟨left, cpuSet1, s1⟩, hwhole, h⟩ := bind_ok h
  have hids : ids.dropLast ++ [clusterId] = ids := by
    unfold back at hback
    split at hback
    · rename_i c hlast
      cases hback
      exact List.dropLast_append_getLast? _ hlast
    · cases hback
  rw [← hids] at hnd hneed hset
  have hmem : ∀ {c}, c ∈ ids.dropLast ∨ c = clusterId → c ∈ ids := by
    intro c hc
    rw [← hids]
    simpa using hc
  have hlast : clusterId ∉ ids.dropLast := fun hc =>
    List.disjoint_of_nodup_append hnd hc (List.mem_singleton_self _)
  obtain ⟨whole, rfl, hleft, htaken, hcount⟩ := taken_takeWhole hs hnd.of_append_left hwhole
  have hperm := htaken.free_perm hlast
  have hsome := hcount n (fun c hc => hn c (hmem (.inl hc)))
  have henough : left ≤ (s1.cluster clusterId).freeCpuCores.length := by
    have hone := hn clusterId (hmem (.inr rfl))
    rw [hperm.length_eq] at hone
    rw [List.length_append, List.length_singleton, Nat.succ_mul] at hneed
    omega
  have hset1 : ∀ x ∈ cpuSet ++ whole, x / T.oneClusterCpuNum ≠ clusterId := by
    rintro x hx rfl
    rcases List.mem_append.mp hx with hx | hx
    · exact hset x hx (List.mem_append_right _ (List.mem_singleton_self _))
    · exact hlast (htaken.home x hx)
  obtain ⟨cpus, rfl, hlen, hlast'⟩ := taken_takeCpus hk (htaken.takes.housed hs)
    (fun x hx => hcalm clusterId (hmem (.inr rfl)) x (hperm.mem_iff.mpr hx)) henough hset1 h
  refine ⟨_, List.append_assoc _ _ _, ?_, hids ▸ htaken.trans hlast'⟩
  rw [List.length_append]
  omega

/-! ### Clusters -/

/-- Only one node has changed. -/
theorem occupies_numa {nid : ℕ} {ids : List ℕ} (hother : ∀ i, i ≠ nid → s'.numa i = s.numa i)
    (hfree : (s.numa nid).freeInfoVec.Perm ((s'.numa nid).freeInfoVec ++ ids))
    (hocc : (s'.numa nid).occupiedInfoVec.Perm ((s.numa nid).occupiedInfoVec ++ ids)) :
    Occupies s s' nid ids := by
  constructor
  · intro i
    by_cases hi : i = nid
    · subst hi
      simpa using hfree
    · simp [hi, hother i hi]
  · intro i
    by_cases hi : i = nid
    · subst hi
      simpa using hocc
    · simp [hi, hother i hi]

theorem Occupies.of_numa (h : s'.numa = s.numa) (nid : ℕ) : Occupies s s' nid [] :=
  occupies_numa (fun i _ => by rw [h]) (by rw [h, List.append_nil]) (by rw [h, List.append_nil])

theorem Occupies.trans {nid : ℕ} {ids ids' : List ℕ} (h : Occupies s s' nid ids)
    (h' : Occupies s' s'' nid ids') : Occupies s s'' nid (ids ++ ids') := by
  have := Moves.trans h h'
  have hsum : (fun i => (if i = nid then ids else []) ++ if i = nid then ids' else []) =
      fun i => if i = nid then ids ++ ids' else [] := by
    funext i
    split <;> simp
  rwa [hsum] at this

omit [Double D] in
/-- As many clusters are occupied as are asked for, all of them free before. -/
theorem occupies_takeClusters {L : Layout T} {nid n : ℕ} {ids : List ℕ}
    (hparts : Parts (L.clusters nid) (s.numa nid).freeInfoVec (s.numa nid).occupiedInfoVec)
    (hne : L.clusters nid ≠ []) (h : takeClusters sel T nid n s = .ok (ids, s')) :
    Occupies s s' nid ids ∧ ids.length = n ∧ s'.cluster = s.cluster := by
  obtain ⟨cpus, cpu, hcpus, hhead, hcpu, hids⟩ := L.numbered nid hne
  obtain ⟨cpus', hat, h⟩ := bind_ok h
  obtain ⟨cpu', hfront, h⟩ := bind_ok h
  rw [at', hcpus] at hat
  cases hat
  rw [front, hhead] at hfront
  cases hfront
  obtain ⟨used, hmark, h⟩ := bind_ok h
  obtain ⟨picked, hpick, h⟩ := bind_ok h
  cases h
  rw [hcpu] at hpick hmark
  have hfree : (List.range' (T.clusterNum / T.numaNodeNum * nid) (cpus.length / T.oneClusterCpuNum)).filter
      (· ∉ (s.numa nid).occupiedInfoVec) ⊆ (s.numa nid).freeInfoVec := by
    intro c hc
    obtain ⟨hc, hocc⟩ := List.mem_filter.mp hc
    rw [← hids, hparts.mem_all] at hc
    exact hc.resolve_right (of_decide_eq_true hocc)
  obtain ⟨hnd, hsub, hlen⟩ := pickClusters_free sel T rfl (unused_of_mark_true hmark) hpick
  have hparts_nodup := hparts.nodup (L.clusters_nodup nid)
  refine ⟨occupies_numa (fun i hi => by simp [hi]) ?_ (by simp), hlen, rfl⟩
  rw [numa_setNuma, if_pos rfl]
  refine perm_filter_append _ hparts_nodup.of_append_left hnd (fun c hc => hfree (hsub hc)) (fun c hc => ?_)
  simp [hparts.disjoint (L.clusters_nodup nid) hc]

/-- What a number of clusters is rounded up from. -/
theorem le_of_ceilDiv {a : ℚ} {b n : ℕ} (h : ceilDiv a b = .ok n) : 0 < b ∧ ⌈a⌉₊ ≤ n * b := by
  unfold ceilDiv at h
  split at h
  · cases h
  · rename_i hb
    have hpos : 0 < b := Nat.pos_of_ne_zero hb
    have hpos' : (0 : ℚ) < b := Nat.cast_pos.mpr hpos
    cases h
    refine ⟨hpos, Nat.ceil_le.mpr ?_⟩
    rw [Nat.cast_mul]
    exact (div_le_iff₀ hpos').mp (Nat.le_ceil (a / b))

/-- What is added is as much as is needed: cores of the last cluster, and of others that were free. -/
theorem taken_addCpus {L : Layout T} {nid clusterId need : ℕ} {cpus ids : List ℕ}
    (hk : 0 < T.oneClusterCpuNum) (hp : Placement L s)
    (hcalm : ∀ c, ∀ x ∈ (s.cluster c).freeCpuCores, sel.Calm x)
    (hid : clusterId ∈ (s.numa nid).occupiedInfoVec)
    (h : addCpus sel T nid clusterId need s = .ok (cpus, ids, s')) :
    Takes T s s' cpus ∧ Occupies s s' nid ids ∧ cpus.length = need ∧
      ∀ x ∈ cpus, x / T.oneClusterCpuNum ∈ clusterId :: ids := by
  have hs := hp.housed
  rw [addCpus] at h
  dsimp only at h
  split at h
  · rename_i hneed
    obtain ⟨⟨picked, s1⟩, h1, h⟩ := bind_ok h
    obtain ⟨taken, heq, hlen, htaken⟩ := taken_takeCpus hk hs (hcalm clusterId) hneed
      (fun x hx => by cases hx) h1
    rw [List.nil_append] at heq
    subst heq
    cases h
    exact ⟨htaken.takes, .of_numa htaken.numa nid, hlen, htaken.home⟩
  · rename_i hneed
    obtain ⟨n, hceil, h⟩ := bind_ok h
    obtain ⟨⟨new, s1⟩, h1, h⟩ := bind_ok h
    obtain ⟨⟨picked, s2⟩, h2, h⟩ := bind_ok h
    cases h
    have hfirst := taken_takeAll hs clusterId
    have hne : L.clusters nid ≠ [] := List.ne_nil_of_mem (hp.mem_clusters.mpr (.inr hid))
    obtain ⟨hocc, hlen, hcluster⟩ := occupies_takeClusters (s := takeAll clusterId s) (hp.nodes nid) hne h1
    have hfree : ∀ c ∈ new, c ∈ (s.numa nid).freeInfoVec := fun c hc =>
      hocc.mem_free.mpr (.inr ⟨rfl, hc⟩)
    have hnot : clusterId ∉ new := fun hc => hp.not_free hid (hfree clusterId hc)
    -- the new clusters are free as a whole
    have hwhole : ∀ c ∈ new, ((s1.cluster c).freeCpuCores = (s.cluster c).freeCpuCores ∧
        T.oneClusterCpuNum / T.sep ≤ (s1.cluster c).freeCpuCores.length) := by
      intro c hc
      have hsame : s1.cluster c = s.cluster c := by
        rw [hcluster, takeAll, cluster_setCluster, if_neg]
        rintro rfl
        exact hnot hc
      have hparts := hp.cores c
      rw [hp.idle nid c (hfree c hc), Parts, List.append_nil] at hparts
      rw [hsame, hparts.length_eq]
      exact ⟨rfl, L.enough nid c (hp.mem_clusters.mpr (.inl (hfree c hc)))⟩
    have htakes1 : Takes T s s1 (s.cluster clusterId).freeCpuCores := by
      have := hfirst.takes
      unfold Takes at this ⊢
      rwa [hcluster]
    have hle := (le_of_ceilDiv hceil).2
    rw [Nat.ceil_natCast] at hle
    obtain ⟨rest, rfl, hrest, htaken⟩ := taken_fillClusters hk (htakes1.housed hs)
      (hocc.nodup_ids (hp.free_nodup nid))
      (fun c hc x hx => hcalm c x ((hwhole c hc).1 ▸ hx)) (fun c hc => (hwhole c hc).2)
      (by rw [hlen]; exact hle) (fun x hx hc => hnot (hs.home clusterId x hx ▸ hc)) h2
    refine ⟨htakes1.trans htaken.takes, ?_, ?_, fun x hx => ?_⟩
    · have hsame := hocc.trans (.of_numa htaken.numa nid)
      rwa [List.append_nil] at hsame
    · rw [List.length_append]
      omega
    · rcases List.mem_append.mp hx with hx | hx
      · rw [hs.home clusterId x hx]
        exact List.mem_cons_self
      · exact List.mem_cons_of_mem _ (htaken.home x hx)

/-! ### Giving back -/

theorem Takes.perm {cpus cpus' : List ℕ} (h : Takes T s s' cpus) (hperm : cpus.Perm cpus') :
    Takes T s s' cpus' where
  src c := (Moves.src h c).trans ((hperm.filter _).append_left _)
  dst c := (Moves.dst h c).trans ((hperm.filter _).append_left _)

omit [Double D] in
theorem takes_giveBack (hhome : ∀ c, ∀ x ∈ (s.cluster c).occupiedCpuCores, x / T.oneClusterCpuNum = c)
    (clusterId n : ℕ) :
    Takes T (giveBack clusterId n s).2 s (giveBack clusterId n s).1 := by
  have hsplit : (s.cluster clusterId).occupiedCpuCores =
      (s.cluster clusterId).occupiedCpuCores.rdrop n ++ (s.cluster clusterId).occupiedCpuCores.rtake n := by
    rw [List.rdrop, List.rtake, List.take_append_drop]
  refine takes_cluster (c := clusterId) (fun c hc => by simp [giveBack, hc]) (fun x hx => ?_)
    (by simp [giveBack]) ?_
  · refine hhome clusterId x ?_
    rw [hsplit]
    exact List.mem_append_right _ (List.mem_reverse.mp hx)
  · simp only [giveBack, cluster_setCluster, if_true]
    nth_rewrite 1 [hsplit]
    exact (List.reverse_perm _).symm.append_left _

@[simp] theorem numa_setCluster (clusterId : ℕ) (v : Cluster) (i : ℕ) :
    (s.setCluster clusterId v).numa i = s.numa i := rfl

@[simp] theorem cluster_setNuma (nid : ℕ) (v : NumaClusterInfo) (c : ℕ) :
    (s.setNuma nid v).cluster c = s.cluster c := rfl

omit [Double D] in
theorem occupies_freeCluster {nid clusterId n : ℕ} (hnd : (s.numa nid).occupiedInfoVec.Nodup)
    (hid : clusterId ∈ (s.numa nid).occupiedInfoVec) :
    Occupies (freeCluster nid clusterId (giveBack clusterId n s).2) s nid [clusterId] := by
  refine occupies_numa (fun i hi => by simp [freeCluster, giveBack, hi]) (by simp [freeCluster, giveBack]) ?_
  simp only [freeCluster, giveBack, numa_setNuma, numa_setCluster, if_true]
  exact perm_filter_append _ hnd (List.nodup_singleton _) (by simpa using hid) (fun c _ => by simp)

omit [Double D] in
theorem occupied_giveBack_all {nid : ℕ} (clusterId : ℕ) :
    ((freeCluster nid clusterId
      (giveBack clusterId (s.cluster clusterId).occupiedCpuCores.length s).2).cluster
        clusterId).occupiedCpuCores = [] := by
  simp [freeCluster, giveBack, List.rdrop]

omit [Double D] in
/-- The loop gives back as many cores as it is asked for, and the clusters of which it gives back all. -/
theorem returnCpus_back {nid : ℕ} : ∀ {ids ids' cpus cpus' : List ℕ} {need : ℕ} {s s' : State},
    (∀ c, ∀ x ∈ (s.cluster c).occupiedCpuCores, x / T.oneClusterCpuNum = c) →
    (s.numa nid).occupiedInfoVec.Nodup → ids ⊆ (s.numa nid).occupiedInfoVec → ids.Nodup → ids ≠ [] →
    returnCpus nid ids need cpus s = .ok (cpus', ids', s') →
    ∃ back gone, cpus'.Perm (cpus ++ back) ∧ back.length = need ∧ ids.reverse = ids'.reverse ++ gone ∧
      ids' ≠ [] ∧ Takes T s' s back ∧ Occupies s' s nid gone ∧
      (∀ x ∈ back, x / T.oneClusterCpuNum ∈ ids) ∧ ∀ c ∈ gone, (s'.cluster c).occupiedCpuCores = []
  | ids, _, cpus, _, 0, s, _, _, _, _, _, hne, h => by
    rw [returnCpus] at h
    cases h
    exact ⟨[], [], by simp, rfl, by simp, hne, .refl T s, .of_numa rfl nid, (fun x hx => by cases hx),
      fun c hc => by cases hc⟩
  | [], _, _, _, _ + 1, _, _, _, _, _, _, hne, _ => absurd rfl hne
  | clusterId :: ids, ids', cpus, cpus', need + 1, s, s', hhome, hocc, hsub, hnd, _, h => by
    rw [returnCpus] at h
    dsimp only at h
    have hlen : ∀ {n}, n ≤ (s.cluster clusterId).occupiedCpuCores.length →
        (giveBack clusterId n s).1.length = n := by
      intro n hn
      simp only [giveBack, List.length_reverse, List.rtake, List.length_drop]
      omega
    have hmem : ∀ {n}, ∀ x ∈ (giveBack clusterId n s).1, x / T.oneClusterCpuNum = clusterId := by
      intro n x hx
      refine hhome clusterId x ?_
      exact List.mem_of_mem_drop (List.mem_reverse.mp hx)
    split at h
    · rename_i hneed
      cases h
      refine ⟨(giveBack clusterId (need + 1) s).1, [], .refl _, hlen hneed, by simp, by simp,
        takes_giveBack hhome clusterId _, .of_numa rfl nid, fun x hx => ?_, fun c hc => by cases hc⟩
      exact List.mem_cons.mpr (.inl (hmem x hx))
    · rename_i hneed
      obtain ⟨hid, hnd⟩ := List.nodup_cons.mp hnd
      obtain ⟨hidocc, hsub⟩ := List.cons_subset.mp hsub
      generalize hs1 : freeCluster nid clusterId
        (giveBack clusterId (s.cluster clusterId).occupiedCpuCores.length s).2 = s1 at h
      have hback1 : Takes T s1 s (giveBack clusterId (s.cluster clusterId).occupiedCpuCores.length s).1 := by
        rw [← hs1]
        exact takes_giveBack hhome clusterId _
      have hgone1 : Occupies s1 s nid [clusterId] := by
        rw [← hs1]
        exact occupies_freeCluster hocc hidocc
      have hnil : (s1.cluster clusterId).occupiedCpuCores = [] := by
        rw [← hs1]
        exact occupied_giveBack_all clusterId
      have hocc1 : ∀ c, c ∈ (s1.numa nid).occupiedInfoVec ↔
          c ∈ (s.numa nid).occupiedInfoVec ∧ c ≠ clusterId := by
        intro c
        rw [← hs1]
        simp [freeCluster, giveBack, numa_setCluster]
      have hids : ids ≠ [] := by
        rintro rfl
        obtain ⟨n, hn⟩ := Nat.exists_eq_add_one_of_ne_zero (Nat.sub_ne_zero_of_lt (not_le.mp hneed))
        rw [hn] at h
        cases h
      obtain ⟨back, gone, hperm, hcount, hrev, hne', hback, hgone, hbackids, hgonenil⟩ :=
        returnCpus_back (fun c x hx => hhome c x (hback1.mem_occupied.mpr (.inl hx)))
          ((Moves.dst hgone1 nid).nodup_iff.mp hocc).of_append_left
          (fun c hc => (hocc1 c).mpr ⟨hsub hc, fun hcid => hid (hcid ▸ hc)⟩) hnd hids h
      refine ⟨_, gone ++ [clusterId], by rwa [List.append_assoc] at hperm, ?_, ?_, hne',
        (hback.trans hback1).perm List.perm_append_comm, hgone.trans hgone1, fun x hx => ?_,
        fun c hc => ?_⟩
      · rw [List.length_append, hcount, hlen (le_refl _)]
        omega
      · rw [List.reverse_cons, hrev, List.append_assoc]
      · rcases List.mem_append.mp hx with hx | hx
        · exact List.mem_cons.mpr (.inl (hmem x hx))
        · exact List.mem_cons_of_mem _ (hbackids x hx)
      · rcases List.mem_append.mp hc with hc | hc
        · exact hgonenil c hc
        · rw [List.mem_singleton] at hc
          subst hc
          refine List.eq_nil_iff_forall_not_mem.mpr (fun x hx => ?_)
          have := hback.mem_occupied.mpr (.inl hx)
          rw [hnil] at this
          cases this

end
end ClusterAffinity
end OeAware

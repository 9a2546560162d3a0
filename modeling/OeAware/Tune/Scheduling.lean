import OeAware.Tune.Clusters

/-! @src src/plugin/tune/docker/cluster_affinity/cluster_affinity_adapt.cpp, cluster_selector.cpp |
    name:DockerOptimizeBindSchedule, SelectIdleCpuFromCluster | scheme:fold

    The containers that wait are bound one after another, each to clusters of its node. The loop should pass
    over one for which its node has not enough of them, but ends there; what is to be bound is in `due`, and to
    which clusters in `plan`.

        a fits   b does not   c fits          due  a c          bound  a

    Of the last cluster the cores are chosen one by one. One under full load is not found, and where no other
    is left, the first core of the cluster is taken, used or not. -/

namespace OeAware
open Schemes

namespace ClusterAffinity

section
variable {D : Type} [Double D] {T : Topology} {L : Layout T} {sel : ClusterSelector D} {s s' : State}

/-! ### Cores under load -/

/-- The core can be chosen: its load is below the limit, or it is the first of its cluster. -/
def ClusterSelector.Open (sel : ClusterSelector D) (T : Topology) (clusterId cpu : ℕ) : Prop :=
  sel.Calm cpu ∨ cpu = clusterId * T.oneClusterCpuNum

instance (sel : ClusterSelector D) (T : Topology) (clusterId cpu : ℕ) : Decidable (sel.Open T clusterId cpu) :=
  inferInstanceAs (Decidable (Double.lt (sel.cpuLoadMap cpu) (Double.ofInt 100) = true ∨ _))

/-- What is smaller than something smaller is smaller. -/
def Ordered (D : Type) [Double D] : Prop :=
  ∀ a b c : D, Double.lt a b = true → Double.lt b c = true → Double.lt a c = true

/-- The selector finds a core that is not used and below the limit, or says the first one if there is none. -/
theorem selectIdleCpuFromCluster_cases (hD : Ordered D) {clusterId : ℕ} {used : List Bool} {free : List ℕ}
    (h : Unused (clusterId * T.oneClusterCpuNum) used free) :
    (sel.selectIdleCpuFromCluster T clusterId used ∈ free ∧
      sel.Calm (sel.selectIdleCpuFromCluster T clusterId used)) ∨
    (sel.selectIdleCpuFromCluster T clusterId used = clusterId * T.oneClusterCpuNum ∧ ∀ x ∈ free, ¬sel.Calm x) := by
  have hloop : ∀ (l : List (Bool × ℕ)) (best : D × ℕ), (∀ p ∈ l, used[p.2]? = some p.1) →
      ((best.2 ∈ free ∧ sel.Calm best.2 ∧ best.1 = sel.cpuLoadMap best.2) ∨
        (best = (Double.ofInt 100, clusterId * T.oneClusterCpuNum) ∧
          ∀ x ∈ free, sel.Calm x → ∃ p ∈ l, x = clusterId * T.oneClusterCpuNum + p.2)) →
      let r := l.foldl (fun (best : D × ℕ) p =>
        let load := sel.cpuLoadMap (clusterId * T.oneClusterCpuNum + p.2)
        if !p.1 && Double.lt load best.1 then (load, clusterId * T.oneClusterCpuNum + p.2) else best) best
      (r.2 ∈ free ∧ sel.Calm r.2) ∨ (r.2 = clusterId * T.oneClusterCpuNum ∧ ∀ x ∈ free, ¬sel.Calm x) := by
    intro l
    induction l with
    | nil =>
      rintro best - (⟨hmem, hcalm, -⟩ | ⟨rfl, hnone⟩)
      · exact .inl ⟨hmem, hcalm⟩
      · refine .inr ⟨rfl, fun x hx hcalm => ?_⟩
        obtain ⟨p, hp, -⟩ := hnone x hx hcalm
        cases hp
    | cons p l ih =>
      intro best hget hb
      have hp := hget p List.mem_cons_self
      rw [List.foldl_cons]
      refine ih _ (fun q hq => hget q (List.mem_cons_of_mem p hq)) ?_
      dsimp only
      split
      · -- a lower load than the best so far
        rename_i hcond
        obtain ⟨hp1, hlt⟩ := Bool.and_eq_true_iff.mp hcond
        have hunused : used[p.2]? = some false := by
          rw [hp]
          simpa using hp1
        refine .inl ⟨(h.unused _).mp hunused, ?_, rfl⟩
        rcases hb with ⟨-, hcalm, hbest⟩ | ⟨rfl, -⟩
        · rw [hbest] at hlt
          exact hD _ _ _ hlt hcalm
        · exact hlt
      · rename_i hcond
        refine hb.imp_right fun ⟨hbest, hall⟩ => ⟨hbest, fun x hx hcalm => ?_⟩
        obtain ⟨q, hq, rfl⟩ := hall x hx hcalm
        rcases List.mem_cons.mp hq with rfl | hq
        · refine absurd ?_ hcond
          have hunused := (h.unused _).mpr hx
          rw [hp, Option.some.injEq] at hunused
          rw [hunused, hbest]
          exact hcalm
        · exact ⟨q, hq, rfl⟩
  refine hloop used.zipIdx _ (fun p hp => List.mk_mem_zipIdx_iff_getElem?.mp hp) (.inr ⟨rfl, fun x hx _ => ?_⟩)
  have hle := h.first_le x hx
  have hused : used[x - clusterId * T.oneClusterCpuNum]? = some false := by
    rw [h.unused, Nat.add_sub_cancel' hle]
    exact hx
  exact ⟨(false, x - clusterId * T.oneClusterCpuNum), List.mk_mem_zipIdx_iff_getElem?.mpr hused,
    (Nat.add_sub_cancel' hle).symm⟩

/-- A mark that is set a second time changes nothing. -/
theorem Unused.mark {first x : ℕ} {used used' : List Bool} {free : List ℕ} (h : Unused first used free)
    (hmark : ClusterAffinity.mark first true [x] used = .ok used') : Unused first used' (free.erase x) := by
  have hle : first ≤ x ∧ x - first < used.length := by
    rw [ClusterAffinity.mark] at hmark
    split at hmark
    · assumption
    · cases hmark
  obtain ⟨i, rfl⟩ := Nat.exists_eq_add_of_le hle.1
  rw [mark_one hmark]
  rcases em (used[i]? = some false) with hi | hi
  · exact h.pick hi
  · have hlt : i < used.length := by simpa using hle.2
    have htrue : used[i]? = some true := by
      cases hv : used[i] with
      | false => exact absurd (by rw [List.getElem?_eq_getElem hlt, hv]) hi
      | true => rw [List.getElem?_eq_getElem hlt, hv]
    have hset : used.set i true = used := by
      refine List.ext_getElem? fun j => ?_
      rcases eq_or_ne i j with rfl | hj
      · rw [List.getElem?_set_self hlt, htrue]
      · rw [List.getElem?_set_ne hj]
    rw [hset, List.erase_of_not_mem fun hmem => hi ((h.unused i).mpr hmem)]
    exact h

/-- What is chosen: so many cores, free and below the limit or the first one. -/
theorem pickCpus_open (hD : Ordered D) {clusterId : ℕ} : ∀ {n : ℕ} {used : List Bool} {free cpus : List ℕ},
    Unused (clusterId * T.oneClusterCpuNum) used free → pickCpus sel T clusterId n used = .ok cpus →
    cpus.length = n ∧ ∀ x ∈ cpus, (x ∈ free ∧ sel.Calm x) ∨ x = clusterId * T.oneClusterCpuNum
  | 0, _, free, cpus, _, he => by
    cases he
    exact ⟨rfl, fun x hx => by cases hx⟩
  | n + 1, used, free, cpus, h, he => by
    obtain ⟨used', hmark, he⟩ := bind_ok he
    obtain ⟨rest, hrest, he⟩ := bind_ok he
    cases he
    obtain ⟨hlen, hall⟩ := pickCpus_open hD (h.mark hmark) hrest
    refine ⟨congrArg (· + 1) hlen, fun x hx => ?_⟩
    rcases List.mem_cons.mp hx with rfl | hx
    · exact (selectIdleCpuFromCluster_cases hD h).imp_right And.left
    · exact (hall x hx).imp_left fun ⟨hmem, hcalm⟩ => ⟨List.mem_of_mem_erase hmem, hcalm⟩

/-- They are free and all different where there are enough that can be chosen. -/
theorem pickCpus_distinct (hD : Ordered D) {clusterId : ℕ} : ∀ {n : ℕ} {used : List Bool} {free cpus : List ℕ},
    Unused (clusterId * T.oneClusterCpuNum) used free → n ≤ (free.filter (sel.Open T clusterId ·)).length →
    pickCpus sel T clusterId n used = .ok cpus → cpus.Nodup ∧ cpus ⊆ free
  | 0, _, free, cpus, _, _, he => by
    cases he
    exact ⟨List.nodup_nil, List.nil_subset _⟩
  | n + 1, used, free, cpus, h, hlen, he => by
    obtain ⟨used', hmark, he⟩ := bind_ok he
    obtain ⟨rest, hrest, he⟩ := bind_ok he
    cases he
    have hpick : sel.selectIdleCpuFromCluster T clusterId used ∈ free.filter (sel.Open T clusterId ·) := by
      rw [List.mem_filter, decide_eq_true_eq]
      rcases selectIdleCpuFromCluster_cases hD h with ⟨hmem, hcalm⟩ | ⟨heq, hnone⟩
      · exact ⟨hmem, .inl hcalm⟩
      · obtain ⟨x, hx⟩ := List.exists_mem_of_length_pos (Nat.lt_of_lt_of_le (Nat.succ_pos n) hlen)
        obtain ⟨hx, hopen⟩ := List.mem_filter.mp hx
        rw [decide_eq_true_eq] at hopen
        have hfirst := hopen.resolve_left (hnone x hx)
        rw [heq, ← hfirst]
        exact ⟨hx, .inr hfirst⟩
    have hmem := (List.mem_filter.mp hpick).1
    obtain ⟨hnd, hsub⟩ := pickCpus_distinct hD (h.mark hmark) (by
      rw [h.nodup.erase_eq_filter, List.filter_comm, ← (h.nodup.filter _).erase_eq_filter,
        List.length_erase_of_mem hpick]
      omega) hrest
    obtain ⟨hnd', hsub', -⟩ := h.taken_cons hmem ⟨hnd, hsub, rfl⟩
    exact ⟨hnd', hsub'⟩

/-! ### Clusters that are free -/

/-- The clusters of each node are free or occupied, and those that are free have all their cores. -/
structure Stocked (L : Layout T) (s : State) : Prop where
  nodes : ∀ i, Parts (L.clusters i) (s.numa i).freeInfoVec (s.numa i).occupiedInfoVec
  whole : ∀ i, ∀ c ∈ (s.numa i).freeInfoVec, (s.cluster c).freeCpuCores.Perm (L.cores c)
  housed : Housed T s

theorem Placement.stocked (h : Placement L s) : Stocked L s where
  nodes := h.nodes
  whole i c hc := by
    have hcores := h.cores c
    rwa [h.idle i c hc, Parts, List.append_nil] at hcores
  housed := h.housed

/-- The first core of a cluster is one of its cores. -/
def Layout.First (L : Layout T) : Prop := ∀ i, ∀ c ∈ L.clusters i, c * T.oneClusterCpuNum ∈ L.cores c

/-- The cores of a cluster of a node. -/
theorem Numbered.cores_eq (hT : Numbered T) {i c : ℕ} (hc : c ∈ hT.layout.clusters i) :
    hT.layout.cores c = stride T.sep (List.range' (c * T.oneClusterCpuNum) T.oneClusterCpuNum) := by
  simp only [Numbered.layout] at hc ⊢
  rw [numa_initSystemClusters T (fun _ => rfl)] at hc
  cases hv : T.cpuTopology[i]? with
  | none =>
    rw [hv] at hc
    simp [clusterIds] at hc
  | some v =>
    rw [hv, Option.getD_some] at hc
    rw [cluster_initSystemClusters (fun v hv b hb => hT.blocks_eq hv hb), if_pos ⟨v, List.mem_of_getElem? hv, hc⟩]

theorem Numbered.first (hT : Numbered T) : hT.layout.First := by
  intro i c hc
  obtain ⟨k, hk⟩ := Nat.exists_eq_succ_of_ne_zero hT.pos.ne'
  rw [hT.cores_eq hc]
  simp [stride, hk, List.range'_succ]

theorem Numbered.size (hT : Numbered T) (hpos : 0 < T.sep) (hsep : T.sep ∣ T.oneClusterCpuNum) (i : ℕ) :
    ∀ c ∈ hT.layout.clusters i, (hT.layout.cores c).length = T.oneClusterCpuNum / T.sep := by
  intro c hc
  rw [hT.cores_eq hc, length_stride_of_dvd hpos (by rwa [List.length_range']), List.length_range']

/-- So it is in every run that leaves each core and each cluster in its place. -/
theorem stocked_of_runs {dockerBorrowSwitch : Bool} {s0 : State} (hT : Numbered T)
    (h0 : init T dockerBorrowSwitch = some s0) (hrun : Runs (step (D := D) T) s0 (Steady T) s) :
    Stocked hT.layout s ∨ Stocked (Layout.none T) s :=
  (placement_of_runs hT h0 hrun).imp Placement.stocked Placement.stocked

/-- All the cores of some clusters, one cluster after another. -/
theorem takeWhole_eq : ∀ {ids cpuSet cpuSet' : List ℕ} {need left : ℕ} {s s' : State}, ids.Nodup →
    takeWhole ids need cpuSet s = .ok (left, cpuSet', s') →
    cpuSet' = cpuSet ++ ids.flatMap (fun c => (s.cluster c).freeCpuCores) ∧
      need = left + (ids.map (fun c => (s.cluster c).freeCpuCores.length)).sum ∧
      (∀ c, (s'.cluster c).freeCpuCores = if c ∈ ids then [] else (s.cluster c).freeCpuCores) ∧ s'.numa = s.numa
  | [], _, _, _, _, _, _, _, h => by
    cases h
    simp
  | clusterId :: ids, cpuSet, cpuSet', need, left, s, s', hnd, h => by
    obtain ⟨hid, hnd⟩ := List.nodup_cons.mp hnd
    rw [takeWhole] at h
    split at h
    · cases h
    · rename_i hlen
      obtain ⟨hset, hneed, hfree, hnuma⟩ := takeWhole_eq hnd h
      have hother : ∀ c ∈ ids, ((takeAll clusterId s).cluster c).freeCpuCores = (s.cluster c).freeCpuCores := by
        intro c hc
        have hne : c ≠ clusterId := fun heq => hid (heq ▸ hc)
        simp [takeAll, hne]
      rw [List.flatMap_congr hother] at hset
      rw [List.map_congr_left fun c hc => congrArg List.length (hother c hc)] at hneed
      refine ⟨by rw [hset, List.flatMap_cons, List.append_assoc], ?_, fun c => ?_, hnuma⟩
      · rw [List.map_cons, List.sum_cons]
        omega
      · rw [hfree]
        rcases eq_or_ne c clusterId with rfl | hc
        · simp [takeAll]
        · simp [takeAll, hc]

/-- The cores of some clusters are all different. -/
theorem nodup_flatMap_free (hs : Housed T s) {ids : List ℕ} (hnd : ids.Nodup) :
    (ids.flatMap (fun c => (s.cluster c).freeCpuCores)).Nodup := by
  refine List.nodup_flatMap.mpr ⟨fun c _ => hs.nodup c, hnd.imp fun {c c'} hne x hx hx' => ?_⟩
  exact hne ((hs.home c x hx).symm.trans (hs.home c' x hx'))

/-- What a container needs of the last of its clusters. -/
def lastNeed (need : ℕ) (size : ℕ → ℕ) (ids : List ℕ) : ℕ := need - (ids.dropLast.map size).sum

/-- So many cores of some clusters: of all but the last as a whole, and of the last one by one. They are
    different and in the clusters just where the last has enough that can be chosen. -/
theorem fillClusters_iff (hD : Ordered D) (hk : 0 < T.oneClusterCpuNum) (hs : Housed T s) {ids cpus : List ℕ}
    {need : ℕ} (hnd : ids.Nodup) (hfirst : ∀ c ∈ ids, c * T.oneClusterCpuNum ∈ (s.cluster c).freeCpuCores)
    (h : fillClusters sel T ids need [] s = .ok (cpus, s')) :
    ∃ last, ids.getLast? = some last ∧ cpus.length = need ∧
      (∀ x ∈ cpus, ∃ c ∈ ids, x ∈ (s.cluster c).freeCpuCores) ∧
      (cpus.Nodup ↔ lastNeed need (fun c => (s.cluster c).freeCpuCores.length) ids ≤
        ((s.cluster last).freeCpuCores.filter (sel.Open T last ·)).length) ∧
      s'.numa = s.numa ∧ Housed T s' ∧ ∀ c ∉ ids, (s'.cluster c).freeCpuCores = (s.cluster c).freeCpuCores := by
  obtain ⟨last, hback, h⟩ := bind_ok h
  obtain ⟨⟨left, whole, s1⟩, hwhole, h⟩ := bind_ok h
  have hlast : ids.getLast? = some last := by
    unfold back at hback
    split at hback
    · rename_i c hc
      cases hback
      exact hc
    · cases hback
  have hids : ids.dropLast ++ [last] = ids := List.dropLast_append_getLast? _ hlast
  have hndrop : ids.dropLast.Nodup := hnd.sublist (List.dropLast_sublist ids)
  have hnot : last ∉ ids.dropLast := fun hc =>
    List.disjoint_of_nodup_append (hids.symm ▸ hnd) hc (List.mem_singleton_self _)
  have hmem : last ∈ ids := List.mem_of_getLast? hlast
  obtain ⟨hset, hneed, hfree, hnuma⟩ := takeWhole_eq hndrop hwhole
  rw [List.nil_append] at hset
  obtain ⟨used, hmark, h⟩ := bind_ok h
  obtain ⟨picks, hpick, h⟩ := bind_ok h
  have hlastfree : (s1.cluster last).freeCpuCores = (s.cluster last).freeCpuCores := by rw [hfree, if_neg hnot]
  rw [hlastfree] at hmark
  have hunused := unused_of_mark_false (hs.nodup last) (fun x hx => hs.block hk hx) hmark
  obtain ⟨hlen, hopen⟩ := pickCpus_open hD hunused hpick
  have hpicks : picks ⊆ (s.cluster last).freeCpuCores := by
    intro x hx
    rcases hopen x hx with hx | rfl
    · exact hx.1
    · exact hfirst last hmem
  have hleft : left = lastNeed need (fun c => (s.cluster c).freeCpuCores.length) ids := by
    rw [lastNeed]
    omega
  have hsub : ∀ v occ : List ℕ, v.Sublist (s1.cluster last).freeCpuCores → ∀ c,
      ((s1.setCluster last ⟨v, occ⟩).cluster c).freeCpuCores.Sublist (s.cluster c).freeCpuCores := by
    intro v occ hv c
    rw [cluster_setCluster]
    split
    · rename_i hc
      rw [hc, ← hlastfree]
      exact hv
    · rw [hfree]
      split
      · exact List.nil_sublist _
      · exact List.Sublist.refl _
  cases h
  refine ⟨last, hlast, ?_, fun x hx => ?_, ?_, hnuma, hs.mono (hsub _ _ List.filter_sublist), fun c hc => ?_⟩
  · rw [hset, List.length_append, hlen, List.length_flatMap]
    omega
  · rw [hset] at hx
    rcases List.mem_append.mp hx with hx | hx
    · obtain ⟨c, hc, hx⟩ := List.mem_flatMap.mp hx
      exact ⟨c, List.mem_of_mem_dropLast hc, hx⟩
    · exact ⟨last, hmem, hpicks hx⟩
  · rw [hset, ← hleft, List.nodup_append']
    refine ⟨fun ⟨_, hpnd, _⟩ => ?_, fun hle => ⟨nodup_flatMap_free hs hndrop, ?_, ?_⟩⟩
    · rw [← hlen]
      refine (hpnd.subperm fun x hx => List.mem_filter.mpr ⟨hpicks hx, decide_eq_true ?_⟩).length_le
      exact (hopen x hx).imp_left And.right
    · exact (pickCpus_distinct hD hunused hle hpick).1
    · intro x hx hx'
      obtain ⟨c, hc, hx⟩ := List.mem_flatMap.mp hx
      have heq := (hs.home c x hx).symm.trans (hs.home last x (hpicks hx'))
      exact hnot (heq ▸ hc)
  · rw [cluster_setCluster, if_neg fun heq : c = last => hc (heq ▸ hmem), hfree,
      if_neg fun hd => hc (List.mem_of_mem_dropLast hd)]

theorem takeWhole_ok : ∀ {ids : List ℕ} (cpuSet : List ℕ) {need : ℕ} {s : State}, ids.Nodup →
    (ids.map (fun c => (s.cluster c).freeCpuCores.length)).sum ≤ need → ∃ r, takeWhole ids need cpuSet s = .ok r
  | [], cpuSet, need, s, _, _ => ⟨(need, cpuSet, s), rfl⟩
  | clusterId :: ids, cpuSet, need, s, hnd, h => by
    obtain ⟨hid, hnd⟩ := List.nodup_cons.mp hnd
    rw [List.map_cons, List.sum_cons] at h
    have hother : ∀ c ∈ ids, ((takeAll clusterId s).cluster c).freeCpuCores = (s.cluster c).freeCpuCores := by
      intro c hc
      have hne : c ≠ clusterId := fun heq => hid (heq ▸ hc)
      simp [takeAll, hne]
    rw [takeWhole, if_neg (by omega)]
    refine takeWhole_ok _ hnd ?_
    rw [List.map_congr_left fun c hc => congrArg List.length (hother c hc)]
    omega

/-- From a cluster any number of cores can be taken, if need be the first one again and again. -/
theorem takeCpus_ok (hk : 0 < T.oneClusterCpuNum) (hs : Housed T s) (clusterId n : ℕ) (cpuSet : List ℕ) :
    ∃ r, takeCpus sel T clusterId n cpuSet s = .ok r := by
  have hin : ∀ x ∈ (s.cluster clusterId).freeCpuCores, clusterId * T.oneClusterCpuNum ≤ x ∧
      x - clusterId * T.oneClusterCpuNum < (List.replicate T.oneClusterCpuNum true).length := by
    intro x hx
    obtain ⟨hle, hlt⟩ := hs.block hk hx
    rw [List.length_replicate]
    exact ⟨hle, Nat.sub_lt_left_of_lt_add hle hlt⟩
  obtain ⟨used, hmark⟩ := mark_ok (v := false) hin
  obtain ⟨picks, hpick⟩ := pickCpus_ok sel T clusterId n
    (by rwa [mark_length hmark, List.length_replicate])
  refine ⟨(cpuSet ++ picks, s.setCluster clusterId ⟨(s.cluster clusterId).freeCpuCores.filter (· ∉ cpuSet ++ picks),
    (s.cluster clusterId).occupiedCpuCores ++ picks⟩), ?_⟩
  simp only [takeCpus, hmark, hpick, bind, Except.bind, pure, Except.pure]

/-- The cores can be taken where those of all clusters but the last are not more than are needed. -/
theorem fillClusters_ok_iff (hk : 0 < T.oneClusterCpuNum) (hs : Housed T s) {ids : List ℕ} {need : ℕ}
    (cpuSet : List ℕ) (hne : ids ≠ []) (hnd : ids.Nodup) : (∃ r, fillClusters sel T ids need cpuSet s = .ok r) ↔
      (ids.dropLast.map (fun c => (s.cluster c).freeCpuCores.length)).sum ≤ need := by
  have hndrop : ids.dropLast.Nodup := hnd.sublist (List.dropLast_sublist ids)
  refine ⟨fun ⟨r, h⟩ => ?_, fun h => ?_⟩
  · obtain ⟨last, -, h⟩ := bind_ok h
    obtain ⟨⟨left, whole, s1⟩, hwhole, -⟩ := bind_ok h
    obtain ⟨-, hneed, -⟩ := takeWhole_eq hndrop hwhole
    omega
  · obtain ⟨⟨left, whole, s1⟩, hwhole⟩ := takeWhole_ok cpuSet hndrop h
    obtain ⟨-, -, hfree, -⟩ := takeWhole_eq hndrop hwhole
    have hs1 : Housed T s1 := hs.mono fun c => by
      rw [hfree]
      split
      · exact List.nil_sublist _
      · exact List.Sublist.refl _
    have hback : back ids = .ok (ids.getLast hne) := by rw [back, List.getLast?_eq_some_getLast hne]
    obtain ⟨r, hr⟩ : ∃ r, takeCpus sel T (ids.getLast hne) left whole s1 = .ok r := takeCpus_ok hk hs1 _ _ _
    refine ⟨r, ?_⟩
    simp only [fillClusters, hback, hwhole, hr, bind, Except.bind]

/-! ### What is to be bound -/

/-- The clusters that are chosen from those of a node that are not occupied. -/
def chooseClusters (sel : ClusterSelector D) (T : Topology) (nid n : ℕ) (info : NumaClusterInfo) :
    Except Fault (List ℕ) := do
  let cpus ← at' T.cpuTopology nid
  let cpu ← front cpus
  let used ← mark (cpu / T.oneClusterCpuNum) true info.occupiedInfoVec
    (List.replicate (cpus.length / T.oneClusterCpuNum) false)
  pickClusters sel T nid (cpu / T.oneClusterCpuNum) n used

/-- How many clusters are free in each node. -/
def counts (numa : ℕ → NumaClusterInfo) (nid : ℕ) : ℕ := (numa nid).freeInfoVec.length

/-- They are occupied. -/
def NumaClusterInfo.occupy (info : NumaClusterInfo) (ids : List ℕ) : NumaClusterInfo :=
  ⟨info.freeInfoVec.filter (· ∉ info.occupiedInfoVec ++ ids), info.occupiedInfoVec ++ ids⟩

/-- Not bound, and with a limit. -/
def DockerResourceInfo.waiting (info : DockerResourceInfo) : Bool :=
  !info.optimizeBinded && decide (0 < info.initialCpuLimit)

/-- The node that is selected for a container that waits, and how many clusters it needs. -/
def asks (T : Topology) (env : TuneEnv D) (info : DockerResourceInfo) : Option (ℕ × ℕ) :=
  if info.waiting then
    match ceilDiv info.initialCpuLimit (T.oneClusterCpuNum / T.sep), selectBindingNuma T env info with
    | .ok n, .ok (some nid) => some (nid, n)
    | _, _ => none
  else none

variable (T) (env : TuneEnv D) (info : Str → DockerResourceInfo)

/-- Of these containers those that have to be bound, each with its node: a container whose node has enough
    clusters left when it is its turn, after all those before it that had. -/
def due : List Str → (ℕ → ℕ) → List (Str × ℕ)
  | [], _ => []
  | dockerId :: ids, free =>
    match asks T env (info dockerId) with
    | none => due ids free
    | some (nid, n) =>
      if n ≤ free nid then (dockerId, nid) :: due ids (Function.update free nid (free nid - n)) else due ids free

/-- Behind the first container that waits and does not fit, nothing is due. -/
def Orderly : List Str → (ℕ → ℕ) → Prop
  | [], _ => True
  | dockerId :: ids, free =>
    match asks T env (info dockerId) with
    | none => if (info dockerId).waiting then due T env info ids free = [] else Orderly ids free
    | some (nid, n) =>
      if n ≤ free nid then Orderly ids (Function.update free nid (free nid - n)) else due T env info ids free = []

/-- The containers that are due, with their nodes and clusters. -/
def plan : List Str → (ℕ → NumaClusterInfo) → List (Str × ℕ × List ℕ)
  | [], _ => []
  | dockerId :: ids, numa =>
    match asks T env (info dockerId) with
    | none => plan ids numa
    | some (nid, n) =>
      if n ≤ counts numa nid then
        match chooseClusters env.sel T nid n (numa nid) with
        | .error _ => []
        | .ok chosen => (dockerId, nid, chosen) :: plan ids (Function.update numa nid ((numa nid).occupy chosen))
      else plan ids numa

variable {T} (L)

/-- Nothing is met that is undefined: a node can be selected, the clusters are found, and all of them but the last
    have together no more cores than are needed. -/
def Defined : List Str → (ℕ → NumaClusterInfo) → Prop
  | [], _ => True
  | dockerId :: ids, numa =>
    if (info dockerId).waiting then
      match ceilDiv (info dockerId).initialCpuLimit (T.oneClusterCpuNum / T.sep),
        selectBindingNuma T env (info dockerId) with
      | .ok n, .ok (some nid) =>
        if n ≤ counts numa nid then
          ∃ chosen, chooseClusters env.sel T nid n (numa nid) = .ok chosen ∧
            (chosen.dropLast.map (fun c => (L.cores c).length)).sum ≤ ⌈(info dockerId).initialCpuLimit⌉₊ ∧
            Defined ids (Function.update numa nid ((numa nid).occupy chosen))
        else True
      | .ok _, .ok none => True
      | _, _ => False
    else Defined ids numa

/-- So many different cores of the node as the limit says, rounded up. -/
structure Fitting (nid : ℕ) (limit : ℚ) (cpus : List ℕ) : Prop where
  nodup : cpus.Nodup
  length : cpus.length = ⌈limit⌉₊
  home : ∀ x ∈ cpus, ∃ c ∈ L.clusters nid, x ∈ L.cores c

/-- What `p` needs to end with these cores: that the last of its clusters has enough that can be chosen; or, if
    the commands fail, that it has such cores already. -/
def Roomy (p : Str × ℕ × List ℕ) : Prop :=
  if env.bound p.1 then
    ∀ last, p.2.2.getLast? = some last →
      lastNeed ⌈(info p.1).initialCpuLimit⌉₊ (fun c => (L.cores c).length) p.2.2 ≤
        ((L.cores last).filter (env.sel.Open T last ·)).length
  else Fitting L p.2.1 (info p.1).initialCpuLimit (info p.1).currentCpuSet

/-- All that were due are bound, and no others, each to so many cores of its node as it should. -/
structure Scheduled (ids : List Str) (dockers : List (Str × ℕ)) (s' : State) : Prop where
  bound : ∀ d ∈ ids, (s'.docker d).optimizeBinded = true ↔
    (info d).optimizeBinded = true ∨ ∃ nid, (d, nid) ∈ dockers
  cores : ∀ p ∈ dockers, Fitting L p.2 (info p.1).initialCpuLimit (s'.docker p.1).currentCpuSet

variable {L env info}

omit [Double D] in
theorem takeClusters_eq {nid n : ℕ} : takeClusters sel T nid n s =
    (chooseClusters sel T nid n (s.numa nid)).map (fun ids => (ids, s.setNuma nid ((s.numa nid).occupy ids))) := by
  simp only [takeClusters, chooseClusters, NumaClusterInfo.occupy]
  cases at' T.cpuTopology nid with
  | error e => rfl
  | ok cpus =>
    cases hfront : front cpus with
    | error e => simp [bind, Except.bind, Except.map, hfront]
    | ok cpu =>
      simp only [bind, Except.bind, Except.map, hfront]
      cases mark (cpu / T.oneClusterCpuNum) true (s.numa nid).occupiedInfoVec
          (List.replicate (cpus.length / T.oneClusterCpuNum) false) with
      | error e => rfl
      | ok used =>
        simp only
        cases pickClusters sel T nid (cpu / T.oneClusterCpuNum) n used <;> rfl

theorem mem_of_due : ∀ {ids : List Str} {free : ℕ → ℕ} {p : Str × ℕ}, p ∈ due T env info ids free →
    p.1 ∈ ids ∧ (info p.1).waiting = true
  | d :: ids, free, p, h => by
    rw [due] at h
    split at h
    · obtain ⟨hmem, hwait⟩ := mem_of_due h
      exact ⟨List.mem_cons_of_mem d hmem, hwait⟩
    · rename_i nid n hasks
      split at h
      · rcases List.mem_cons.mp h with rfl | h
        · refine ⟨List.mem_cons_self, ?_⟩
          rw [asks] at hasks
          split at hasks
          · assumption
          · cases hasks
        · obtain ⟨hmem, hwait⟩ := mem_of_due h
          exact ⟨List.mem_cons_of_mem d hmem, hwait⟩
      · obtain ⟨hmem, hwait⟩ := mem_of_due h
        exact ⟨List.mem_cons_of_mem d hmem, hwait⟩

theorem plan_eq_nil : ∀ {ids : List Str} {numa : ℕ → NumaClusterInfo}, due T env info ids (counts numa) = [] →
    plan T env info ids numa = []
  | [], _, _ => rfl
  | d :: ids, numa, h => by
    rw [due] at h
    rw [plan]
    cases hasks : asks T env (info d) with
    | none =>
      rw [hasks] at h
      exact plan_eq_nil h
    | some p =>
      rw [hasks] at h
      dsimp only at h ⊢
      split at h
      · cases h
      · rename_i hn
        rw [if_neg hn]
        exact plan_eq_nil h

/-- Those that wait are not passed over. -/
theorem waiting_iff {info : DockerResourceInfo} :
    info.waiting = true ↔ ¬(info.optimizeBinded = true ∨ info.initialCpuLimit ≤ 0) := by
  simp [DockerResourceInfo.waiting]

theorem waiting_eq_false_iff {info : DockerResourceInfo} :
    info.waiting = false ↔ info.optimizeBinded = true ∨ info.initialCpuLimit ≤ 0 := by
  rw [← Bool.not_eq_true, waiting_iff, not_not]

theorem limit_pos_of_waiting {info : DockerResourceInfo} (h : info.waiting = true) :
    info.optimizeBinded = false ∧ 0 < info.initialCpuLimit := by
  simpa [DockerResourceInfo.waiting] using h

theorem counts_update {numa : ℕ → NumaClusterInfo} {nid n : ℕ} {v : NumaClusterInfo}
    (h : v.freeInfoVec.length = (numa nid).freeInfoVec.length - n) :
    counts (Function.update numa nid v) = Function.update (counts numa) nid (counts numa nid - n) := by
  funext i
  rcases eq_or_ne i nid with rfl | hi
  · rw [counts, Function.update_self, Function.update_self, h, counts]
  · rw [counts, Function.update_of_ne hi, Function.update_of_ne hi, counts]

/-- What `DockerBindClusters` does for a container that fits. -/
theorem bindClusters_step (hD : Ordered D) (hk : 0 < T.oneClusterCpuNum) (hfirst : L.First) (hs : Stocked L s)
    {d : Str} {nid n : ℕ} (hn : 0 < n) (hfree : n ≤ counts s.numa nid) (h : dockerBindClusters T env d nid n s = .ok s') :
    ∃ chosen cpus, chooseClusters env.sel T nid n (s.numa nid) = .ok chosen ∧ Stocked L s' ∧
      s'.numa = Function.update s.numa nid ((s.numa nid).occupy chosen) ∧
      ((s.numa nid).occupy chosen).freeInfoVec.length = (s.numa nid).freeInfoVec.length - n ∧
      (∀ x, x ≠ d → s'.docker x = s.docker x) ∧
      (s'.docker d).currentCpuSet = (if env.bound d then cpus else (s.docker d).currentCpuSet) ∧
      (Fitting L nid (s.docker d).initialCpuLimit cpus ↔ ∀ last, chosen.getLast? = some last →
        lastNeed ⌈(s.docker d).initialCpuLimit⌉₊ (fun c => (L.cores c).length) chosen ≤
          ((L.cores last).filter (env.sel.Open T last ·)).length) := by
  obtain ⟨⟨chosen, s1⟩, h1, h⟩ := bind_ok h
  obtain ⟨⟨cpus, s2⟩, h2, h⟩ := bind_ok h
  have hpools := (onlyPools_takeClusters h1).trans (onlyPools_fillClusters h2)
  cases h
  obtain ⟨c0, hc0⟩ := List.exists_mem_of_length_pos (Nat.lt_of_lt_of_le hn hfree)
  obtain ⟨hocc, hlen, hcluster⟩ := occupies_takeClusters (hs.nodes nid)
    (List.ne_nil_of_mem ((hs.nodes nid).mem_all.mpr (.inl hc0))) h1
  have hndfree : (s.numa nid).freeInfoVec.Nodup := ((hs.nodes nid).nodup (L.clusters_nodup nid)).of_append_left
  have hnew : ∀ c ∈ chosen, c ∈ (s.numa nid).freeInfoVec := fun c hc => hocc.mem_free.mpr (.inr ⟨rfl, hc⟩)
  have hperm : ∀ c ∈ chosen, (s1.cluster c).freeCpuCores.Perm (L.cores c) := fun c hc =>
    hcluster ▸ hs.whole nid c (hnew c hc)
  have hin : ∀ c ∈ chosen, c ∈ L.clusters nid := fun c hc => (hs.nodes nid).mem_all.mpr (.inl (hnew c hc))
  have hhoused : Housed T s1 := hs.housed.mono fun c => by rw [hcluster]
  obtain ⟨last, hlast, hcount, hhome, hnodup, hnuma2, hhoused2, hother⟩ := fillClusters_iff hD hk hhoused
    (hocc.nodup_ids hndfree) (fun c hc => (hperm c hc).mem_iff.mpr (hfirst nid c (hin c hc))) h2
  rw [takeClusters_eq] at h1
  obtain ⟨chosen', hchoose, heq⟩ := map_ok h1
  obtain ⟨rfl, rfl⟩ := Prod.mk.inj heq.symm
  have hnuma1 : (s.setNuma nid ((s.numa nid).occupy chosen')).numa =
      Function.update s.numa nid ((s.numa nid).occupy chosen') := by
    funext i
    rw [numa_setNuma, Function.update_apply]
  have hnuma : s2.numa = Function.update s.numa nid ((s.numa nid).occupy chosen') := hnuma2.trans hnuma1
  have hocc2 : Occupies s s2 nid chosen' := by
    have hsame := hocc.trans (.of_numa hnuma2 nid)
    rwa [List.append_nil] at hsame
  have hsize : chosen'.dropLast.map (fun c => ((s.setNuma nid ((s.numa nid).occupy chosen')).cluster c).freeCpuCores.length) =
      chosen'.dropLast.map (fun c => (L.cores c).length) :=
    List.map_congr_left fun c hc => (hperm c (List.mem_of_mem_dropLast hc)).length_eq
  refine ⟨chosen', cpus, hchoose, ⟨fun i => hocc2.parts (hs.nodes i), fun i c hc => ?_,
    ⟨hhoused2.nodup, hhoused2.home⟩⟩, hnuma, ?_,
    fun x hx => ?_, ?_, ?_⟩
  · have hcfree : c ∈ (s.numa i).freeInfoVec := hocc2.mem_free.mpr (.inl hc)
    have hnot : c ∉ chosen' := by
      intro hmem
      have hi := L.one_node i nid c ((hs.nodes i).mem_all.mpr (.inl hcfree)) (hin c hmem)
      subst hi
      exact Moves.not_mem hocc2 (i := i) hndfree (x := c) (by rwa [if_pos rfl]) hc
    change (s2.cluster c).freeCpuCores.Perm (L.cores c)
    rw [hother c hnot, hcluster]
    exact hs.whole i c hcfree
  · have hsrc := (Moves.src hocc2 nid).length_eq
    simp only [if_pos, List.length_append, hlen] at hsrc
    rw [hnuma, Function.update_self] at hsrc
    omega
  · rw [docker_setDocker, if_neg hx, hpools.docker]
  · rw [docker_setDocker, if_pos rfl]
    split <;> rfl
  · have hlastL : ∀ c, chosen'.getLast? = some c → c = last := fun c hc =>
      Option.some.inj (hc.symm.trans hlast)
    have hroom : lastNeed ⌈(s.docker d).initialCpuLimit⌉₊
          (fun c => ((s.setNuma nid ((s.numa nid).occupy chosen')).cluster c).freeCpuCores.length) chosen' =
        lastNeed ⌈(s.docker d).initialCpuLimit⌉₊ (fun c => (L.cores c).length) chosen' := by
      rw [lastNeed, lastNeed, hsize]
    have hopen := ((hperm last (List.mem_of_getLast? hlast)).filter (env.sel.Open T last ·)).length_eq
    rw [hroom, hopen] at hnodup
    refine ⟨fun hf c hc => ?_, fun hall => ⟨hnodup.mpr (hall last hlast), hcount, fun x hx => ?_⟩⟩
    · rw [hlastL c hc]
      exact hnodup.mp hf.nodup
    · obtain ⟨c, hc, hx⟩ := hhome x hx
      exact ⟨c, hin c hc, (hperm c hc).mem_iff.mp hx⟩

theorem ceilDiv_pos {a : ℚ} {b n : ℕ} (ha : 0 < a) (h : ceilDiv a b = .ok n) : 0 < n := by
  obtain ⟨-, hle⟩ := le_of_ceilDiv h
  refine Nat.pos_of_ne_zero fun h0 => ?_
  rw [h0, Nat.zero_mul, Nat.le_zero, Nat.ceil_eq_zero] at hle
  exact absurd ha (not_lt.mpr hle)

/-- What `DockerBindClusters` can do for a container that fits. -/
theorem bindClusters_ok_iff (env : TuneEnv D) (d : Str) (hk : 0 < T.oneClusterCpuNum)
    (hs : Stocked L s) {nid n : ℕ} (hn : 0 < n) (hfree : n ≤ counts s.numa nid) :
    (∃ s', dockerBindClusters T env d nid n s = .ok s') ↔
      ∃ chosen, chooseClusters env.sel T nid n (s.numa nid) = .ok chosen ∧
        (chosen.dropLast.map (fun c => (L.cores c).length)).sum ≤ ⌈(s.docker d).initialCpuLimit⌉₊ := by
  have hfill : ∀ {chosen : List ℕ} {s1 : State}, takeClusters env.sel T nid n s = .ok (chosen, s1) →
      ((∃ r, fillClusters env.sel T chosen ⌈(s.docker d).initialCpuLimit⌉₊ [] s1 = .ok r) ↔
        (chosen.dropLast.map (fun c => (L.cores c).length)).sum ≤ ⌈(s.docker d).initialCpuLimit⌉₊) := by
    intro chosen s1 h1
    obtain ⟨c0, hc0⟩ := List.exists_mem_of_length_pos (Nat.lt_of_lt_of_le hn hfree)
    obtain ⟨hocc, hlen, hcluster⟩ := occupies_takeClusters (hs.nodes nid)
      (List.ne_nil_of_mem ((hs.nodes nid).mem_all.mpr (.inl hc0))) h1
    have hndfree : (s.numa nid).freeInfoVec.Nodup := ((hs.nodes nid).nodup (L.clusters_nodup nid)).of_append_left
    have hhoused : Housed T s1 := hs.housed.mono fun c => by rw [hcluster]
    rw [fillClusters_ok_iff hk hhoused _ (List.ne_nil_of_length_pos (hlen ▸ hn)) (hocc.nodup_ids hndfree)]
    have hsize : chosen.dropLast.map (fun c => (s1.cluster c).freeCpuCores.length) =
        chosen.dropLast.map (fun c => (L.cores c).length) := by
      refine List.map_congr_left fun c hc => ?_
      rw [hcluster]
      exact (hs.whole nid c (hocc.mem_free.mpr (.inr ⟨rfl, List.mem_of_mem_dropLast hc⟩))).length_eq
    rw [hsize]
  refine ⟨fun ⟨s', h⟩ => ?_, fun ⟨chosen, hchoose, hsum⟩ => ?_⟩
  · obtain ⟨⟨chosen, s1⟩, h1, h⟩ := bind_ok h
    obtain ⟨r, h2, -⟩ := bind_ok h
    have hsum := (hfill h1).mp ⟨r, h2⟩
    rw [takeClusters_eq] at h1
    obtain ⟨chosen', hchoose, heq⟩ := map_ok h1
    obtain ⟨rfl, -⟩ := Prod.mk.inj heq.symm
    exact ⟨chosen', hchoose, hsum⟩
  · have h1 : takeClusters env.sel T nid n s = .ok (chosen, s.setNuma nid ((s.numa nid).occupy chosen)) := by
      rw [takeClusters_eq, hchoose]
      rfl
    obtain ⟨⟨cpus, s2⟩, h2⟩ := (hfill h1).mpr hsum
    simp [dockerBindClusters, h1, h2, bind, Except.bind, pure, Except.pure]

/-- Where the loop ends, nothing more may be due. -/
theorem scheduled_stop {ids : List Str} {dockers : List (Str × ℕ)} (hinfo : ∀ d ∈ ids, s.docker d = info d)
    (hdue : ∀ p ∈ dockers, p.1 ∈ ids ∧ (info p.1).waiting = true) :
    Scheduled L info ids dockers s ↔ dockers = [] := by
  refine ⟨fun h => List.eq_nil_iff_forall_not_mem.mpr fun p hp => ?_, ?_⟩
  · obtain ⟨hmem, hwait⟩ := hdue p hp
    have hb := (h.bound p.1 hmem).mpr (.inr ⟨p.2, hp⟩)
    rw [hinfo p.1 hmem, (limit_pos_of_waiting hwait).1] at hb
    cases hb
  · rintro rfl
    exact ⟨fun d hd => by rw [hinfo d hd]; simp, fun p hp => by cases hp⟩

/-- A container that is passed over. -/
theorem scheduled_skip {d : Str} {ids : List Str} {dockers : List (Str × ℕ)} (hd : s'.docker d = info d)
    (hdue : ∀ p ∈ dockers, p.1 ≠ d) : Scheduled L info (d :: ids) dockers s' ↔ Scheduled L info ids dockers s' := by
  refine ⟨fun h => ⟨(List.forall_mem_cons.mp h.bound).2, h.cores⟩,
    fun h => ⟨List.forall_mem_cons.mpr ⟨?_, h.bound⟩, h.cores⟩⟩
  rw [hd, or_iff_left]
  rintro ⟨nid, hmem⟩
  exact hdue _ hmem rfl

/-- One that is bound. -/
theorem scheduled_bind {d : Str} {nid : ℕ} {ids : List Str} {dockers : List (Str × ℕ)}
    (hb : (s'.docker d).optimizeBinded = true) (hd : d ∉ ids) :
    Scheduled L info (d :: ids) ((d, nid) :: dockers) s' ↔
      Fitting L nid (info d).initialCpuLimit (s'.docker d).currentCpuSet ∧ Scheduled L info ids dockers s' := by
  have hcons : ∀ x ∈ ids, (∃ n, (x, n) ∈ (d, nid) :: dockers) ↔ ∃ n, (x, n) ∈ dockers := by
    intro x hx
    have hne : x ≠ d := fun heq => hd (heq ▸ hx)
    simp [hne]
  refine ⟨fun h => ?_, fun ⟨hf, h⟩ => ⟨List.forall_mem_cons.mpr ⟨?_, fun x hx => ?_⟩, List.forall_mem_cons.mpr ⟨hf, h.cores⟩⟩⟩
  · obtain ⟨hf, hcores⟩ := List.forall_mem_cons.mp h.cores
    refine ⟨hf, fun x hx => ?_, hcores⟩
    rw [← hcons x hx]
    exact h.bound x (List.mem_cons_of_mem d hx)
  · exact iff_of_true hb (.inr ⟨nid, List.mem_cons_self⟩)
  · rw [hcons x hx]
    exact h.bound x hx

/-- The containers that the loop does not meet are as they were. -/
theorem schedule_other : ∀ {ids : List Str} {s s' : State}, dockerOptimizeBindSchedule T env ids s = .ok s' →
    ∀ x, x ∉ ids → s'.docker x = s.docker x
  | [], _, _, h, _, _ => by
    cases h
    rfl
  | d :: ids, s, s', h, x, hx => by
    obtain ⟨hxd, hx⟩ := not_or.mp (List.mem_cons.not.mp hx)
    rw [dockerOptimizeBindSchedule] at h
    dsimp only at h
    split at h
    · exact schedule_other h x hx
    · split at h
      · cases h
        rfl
      · obtain ⟨n, hn, h⟩ := bind_ok h
        obtain ⟨nid, hnid, h⟩ := bind_ok h
        cases nid with
        | none =>
          cases h
          rfl
        | some nid =>
          dsimp only at h
          split at h
          · cases h
            rfl
          · obtain ⟨s1, h1, h⟩ := bind_ok h
            rw [schedule_other h x hx, docker_setDocker, if_neg hxd, bindClusters_other h1 hxd]

/-- The state in which the loop goes on after one that is bound. -/
theorem bound_next (hD : Ordered D) (hk : 0 < T.oneClusterCpuNum) (hfirst : L.First) (hs : Stocked L s)
    {d : Str} {nid n : ℕ} (hn : 0 < n) (hfree : n ≤ counts s.numa nid)
    (h : dockerBindClusters T env d nid n s = .ok s') :
    ∃ chosen, chooseClusters env.sel T nid n (s.numa nid) = .ok chosen ∧
      Stocked L (s'.setDocker d { s'.docker d with optimizeBinded := true }) ∧
      s'.numa = Function.update s.numa nid ((s.numa nid).occupy chosen) ∧
      ∀ x, x ≠ d → (s'.setDocker d { s'.docker d with optimizeBinded := true }).docker x = s.docker x := by
  obtain ⟨chosen, cpus, hchoose, hs', hnuma, -, hsame, -⟩ := bindClusters_step hD hk hfirst hs hn hfree h
  refine ⟨chosen, hchoose, ⟨hs'.nodes, hs'.whole, ⟨hs'.housed.nodup, hs'.housed.home⟩⟩, hnuma, fun x hx => ?_⟩
  rw [docker_setDocker, if_neg hx, hsame x hx]

theorem schedule_ok_iff (hD : Ordered D) (hk : 0 < T.oneClusterCpuNum) (hfirst : L.First) :
    ∀ {ids : List Str} {s : State}, ids.Nodup → Stocked L s → (∀ d ∈ ids, s.docker d = info d) →
    ((∃ s', dockerOptimizeBindSchedule T env ids s = .ok s') ↔ Defined L env info ids s.numa)
  | [], s, _, _, _ => iff_of_true ⟨s, rfl⟩ trivial
  | d :: ids, s, hnd, hs, hinfo => by
    obtain ⟨hdids, hnd⟩ := List.nodup_cons.mp hnd
    obtain ⟨hd, hinfo⟩ := List.forall_mem_cons.mp hinfo
    rw [dockerOptimizeBindSchedule, Defined]
    dsimp only
    rw [hd]
    split
    · rename_i hskip
      rw [if_neg (by rw [waiting_eq_false_iff.mpr hskip]; simp)]
      exact schedule_ok_iff hD hk hfirst hnd hs hinfo
    · rename_i hskip
      rw [if_pos (waiting_iff.mpr hskip), if_neg hk.ne']
      rw [bind_ok_iff]
      cases hn : ceilDiv (info d).initialCpuLimit (T.oneClusterCpuNum / T.sep) with
      | error e => simp
      | ok n =>
        simp only [Except.ok.injEq, exists_eq_left', bind_ok_iff]
        cases selectBindingNuma T env (info d) with
        | error e => simp
        | ok node =>
          simp only [Except.ok.injEq, exists_eq_left']
          cases node with
          | none => simp [pure, Except.pure]
          | some nid =>
            have hn0 := ceilDiv_pos (limit_pos_of_waiting (waiting_iff.mpr hskip)).2 hn
            dsimp only
            split
            · rename_i hlen
              have hlen' : ¬n ≤ counts s.numa nid := not_le.mpr hlen
              rw [if_neg hlen']
              exact iff_of_true ⟨s, rfl⟩ trivial
            · rename_i hlen
              have hlen : n ≤ counts s.numa nid := not_lt.mp hlen
              have hbind := bindClusters_ok_iff env d hk hs hn0 hlen
              rw [hd] at hbind
              rw [if_pos hlen, bind_ok_iff]
              refine ⟨fun hok => ?_, fun hdefined => ?_⟩
              · obtain ⟨s1, h1, h⟩ := hok
                obtain ⟨chosen, hchoose, hs2, hnuma, hother⟩ := bound_next hD hk hfirst hs hn0 hlen h1
                obtain ⟨chosen', hchoose', hsum⟩ := hbind.mp ⟨s1, h1⟩
                cases hchoose.symm.trans hchoose'
                have ih := schedule_ok_iff hD hk hfirst hnd hs2
                  fun x hx => (hother x fun heq => hdids (heq ▸ hx)).trans (hinfo x hx)
                exact ⟨chosen, hchoose, hsum, hnuma ▸ ih.mp h⟩
              · obtain ⟨chosen, hchoose, hsum, hrest⟩ := hdefined
                obtain ⟨s1, h1⟩ := hbind.mpr ⟨chosen, hchoose, hsum⟩
                obtain ⟨chosen', hchoose', hs2, hnuma, hother⟩ := bound_next hD hk hfirst hs hn0 hlen h1
                cases hchoose.symm.trans hchoose'
                have ih := schedule_ok_iff hD hk hfirst hnd hs2
                  fun x hx => (hother x fun heq => hdids (heq ▸ hx)).trans (hinfo x hx)
                exact ⟨s1, h1, ih.mpr (hnuma ▸ hrest)⟩

theorem scheduled_iff (hD : Ordered D) (hk : 0 < T.oneClusterCpuNum) (hfirst : L.First) :
    ∀ {ids : List Str} {s s' : State}, ids.Nodup → Stocked L s → (∀ d ∈ ids, s.docker d = info d) →
    dockerOptimizeBindSchedule T env ids s = .ok s' →
    (Scheduled L info ids (due T env info ids (counts s.numa)) s' ↔
      Orderly T env info ids (counts s.numa) ∧ ∀ p ∈ plan T env info ids s.numa, Roomy L env info p)
  | [], s, s', _, _, hinfo, h => by
    cases h
    rw [scheduled_stop hinfo fun p hp => mem_of_due hp]
    simp [due, Orderly, plan]
  | d :: ids, s, s', hnd, hs, hinfo, h => by
    have hstop : Scheduled L info (d :: ids) (due T env info ids (counts s.numa)) s ↔
        due T env info ids (counts s.numa) = [] := by
      refine scheduled_stop hinfo fun p hp => ?_
      obtain ⟨hmem, hwait⟩ := mem_of_due hp
      exact ⟨List.mem_cons_of_mem d hmem, hwait⟩
    have hnothing : due T env info ids (counts s.numa) = [] ↔ due T env info ids (counts s.numa) = [] ∧
        ∀ p ∈ plan T env info ids s.numa, Roomy L env info p := by
      refine ⟨fun hnil => ⟨hnil, fun p hp => ?_⟩, And.left⟩
      rw [plan_eq_nil hnil] at hp
      cases hp
    obtain ⟨hdids, hnd⟩ := List.nodup_cons.mp hnd
    obtain ⟨hd, hinfo⟩ := List.forall_mem_cons.mp hinfo
    have hother := fun x hx => schedule_other h x hx
    rw [dockerOptimizeBindSchedule] at h
    dsimp only at h
    rw [hd] at h
    rw [due, Orderly, plan]
    split at h
    · -- it does not wait
      rename_i hskip
      have hwait := waiting_eq_false_iff.mpr hskip
      have hasks : asks T env (info d) = none := by rw [asks, if_neg (by simp [hwait])]
      have hsame : s'.docker d = info d := by rw [schedule_other h d hdids, hd]
      simp only [hasks, hwait, Bool.false_eq_true, if_false]
      rw [scheduled_skip hsame fun p hp heq => hdids (heq ▸ (mem_of_due hp).1)]
      exact scheduled_iff hD hk hfirst hnd hs hinfo h
    · rename_i hskip
      have hwait := waiting_iff.mpr hskip
      obtain ⟨hb, hlimit⟩ := limit_pos_of_waiting hwait
      rw [if_neg hk.ne'] at h
      obtain ⟨n, hn, h⟩ := bind_ok h
      obtain ⟨node, hnode, h⟩ := bind_ok h
      cases node with
      | none =>
        have hasks : asks T env (info d) = none := by rw [asks, if_pos hwait, hn, hnode]
        cases h
        simp only [hasks, hwait, if_true]
        exact hstop.trans hnothing
      | some nid =>
        have hasks : asks T env (info d) = some (nid, n) := by rw [asks, if_pos hwait, hn, hnode]
        simp only [hasks]
        dsimp only at h
        split at h
        · -- it does not fit, and the loop ends
          rename_i hlen
          cases h
          have hn' : ¬n ≤ counts s.numa nid := not_le.mpr hlen
          rw [if_neg hn', if_neg hn', if_neg hn']
          exact hstop.trans hnothing
        · rename_i hlen
          have hn' : n ≤ counts s.numa nid := not_lt.mp hlen
          obtain ⟨s1, h1, h⟩ := bind_ok h
          rw [← hd] at hn hlimit
          obtain ⟨chosen, cpus, hchoose, hs1, hnuma, hcount, hsame, hset, hfit⟩ :=
            bindClusters_step hD hk hfirst hs (ceilDiv_pos hlimit hn) hn' h1
          have hs2 : Stocked L (s1.setDocker d { s1.docker d with optimizeBinded := true }) :=
            ⟨hs1.nodes, hs1.whole, ⟨hs1.housed.nodup, hs1.housed.home⟩⟩
          have hinfo2 : ∀ x ∈ ids, (s1.setDocker d { s1.docker d with optimizeBinded := true }).docker x = info x := by
            intro x hx
            have hne : x ≠ d := fun heq => hdids (heq ▸ hx)
            rw [docker_setDocker, if_neg hne, hsame x hne, hinfo x hx]
          have ih := scheduled_iff hD hk hfirst hnd hs2 hinfo2 h
          have hnuma2 : (s1.setDocker d { s1.docker d with optimizeBinded := true }).numa =
              Function.update s.numa nid ((s.numa nid).occupy chosen) := hnuma
          have hlast := schedule_other h d hdids
          rw [docker_setDocker, if_pos rfl] at hlast
          rw [hnuma2, counts_update hcount] at ih
          have hroomy : Fitting L nid (info d).initialCpuLimit (s'.docker d).currentCpuSet ↔
              Roomy L env info (d, nid, chosen) := by
            rw [hlast, Roomy]
            dsimp only
            rw [hset, hd]
            cases env.bound d with
            | true => exact hd ▸ hfit
            | false => rfl
          rw [if_pos hn', if_pos hn', if_pos hn', hchoose, scheduled_bind (by rw [hlast]) hdids, ih, hroomy,
            List.forall_mem_cons]
          exact and_left_comm

/-- THE LOOP BINDS ALL THAT FIT, EXACTLY THEN: nothing undefined is met, behind the first container that waits
    and does not fit nothing is due, the commands succeed, and the loads leave cores enough to choose from in the
    last of each one's clusters. -/
theorem bindSchedule_iff (hD : Ordered D) (hT : Numbered T) (hs : Stocked hT.layout s) {ids : List Str}
    (hids : ids.Perm s.dockerInfos.keys) :
    (∃ s', dockerOptimizeBindSchedule T env ids s = .ok s' ∧
      Scheduled hT.layout s.docker ids (due T env s.docker ids (counts s.numa)) s') ↔
    Defined hT.layout env s.docker ids s.numa ∧ Orderly T env s.docker ids (counts s.numa) ∧
      ∀ p ∈ plan T env s.docker ids s.numa, Roomy hT.layout env s.docker p := by
  have hnd : ids.Nodup := hids.nodup_iff.mpr s.dockerInfos.nodup
  rw [← schedule_ok_iff hD hT.pos hT.first hnd hs fun _ _ => rfl]
  refine ⟨fun ⟨s', h, hsched⟩ => ⟨⟨s', h⟩, ?_⟩, fun ⟨⟨s', h⟩, hcond⟩ => ⟨s', h, ?_⟩⟩
  · exact (scheduled_iff hD hT.pos hT.first hnd hs (fun _ _ => rfl) h).mp hsched
  · exact (scheduled_iff hD hT.pos hT.first hnd hs (fun _ _ => rfl) h).mpr hcond

end

/-! ### Two containers -/

/-- One that is on the node, with this limit. -/
def sampleWaiting (limit : ℚ) : DockerResourceInfo :=
  { DockerResourceInfo.new with currentMemSet := [0], currentCpuSet := [0], initialCpuLimit := limit }

def sampleEnv : TuneEnv ℚ := ⟨⟨fun _ => Double.ofInt 0, fun _ => 0⟩, fun _ => true, fun _ => true, []⟩

/-- The first has a limit of 2, the second this one. -/
def sampleTwo (limit : ℚ) : State :=
  (sampleBinding.setDocker (str "a") (sampleWaiting 2)).setDocker (str "b") (sampleWaiting limit)

theorem ordered_rat : Ordered ℚ := fun _ _ _ hab hbc =>
  decide_eq_true ((of_decide_eq_true hab).trans (of_decide_eq_true hbc))

theorem stocked_sampleTwo (limit : ℚ) : Stocked numbered_sample.layout (sampleTwo limit) := by
  have hinit : init sampleTopology false = some sampleBinding := rfl
  have hs := (placement_init numbered_sample hinit).1.stocked
  exact ⟨hs.nodes, hs.whole, ⟨hs.housed.nodup, hs.housed.home⟩⟩

theorem keys_sampleTwo (limit : ℚ) : (sampleTwo limit).dockerInfos.keys = [str "b", str "a"] := by
  with_unfolding_all rfl

/-- Both fit, and are bound. -/
theorem bindSchedule_iff_both : ∃ s',
    dockerOptimizeBindSchedule sampleTopology sampleEnv [str "b", str "a"] (sampleTwo 3) = .ok s' ∧
      Scheduled numbered_sample.layout (sampleTwo 3).docker [str "b", str "a"] [(str "b", 0), (str "a", 0)] s' := by
  have hs := stocked_sampleTwo 3
  have hdue : due sampleTopology sampleEnv (sampleTwo 3).docker [str "b", str "a"] (counts (sampleTwo 3).numa) =
      [(str "b", 0), (str "a", 0)] := by decide +kernel
  have hplan : plan sampleTopology sampleEnv (sampleTwo 3).docker [str "b", str "a"] (sampleTwo 3).numa =
      [(str "b", 0, [0]), (str "a", 0, [1])] := by decide +kernel
  have hb : asks sampleTopology sampleEnv ((sampleTwo 3).docker (str "b")) = some (0, 1) := by decide +kernel
  have ha : asks sampleTopology sampleEnv ((sampleTwo 3).docker (str "a")) = some (0, 1) := by decide +kernel
  have hfree : counts (sampleTwo 3).numa 0 = 2 := by decide +kernel
  rw [← hdue]
  refine (bindSchedule_iff ordered_rat numbered_sample hs (.of_eq (keys_sampleTwo 3).symm)).mpr ⟨?_, ?_, ?_⟩
  · refine (schedule_ok_iff ordered_rat numbered_sample.pos numbered_sample.first (by decide) hs fun _ _ => rfl).mp ?_
    cases h : dockerOptimizeBindSchedule sampleTopology sampleEnv [str "b", str "a"] (sampleTwo 3) with
    | error e =>
      have hok : (dockerOptimizeBindSchedule sampleTopology sampleEnv [str "b", str "a"]
        (sampleTwo 3)).toOption.isSome := by decide +kernel
      rw [h] at hok
      cases hok
    | ok s' => exact ⟨s', rfl⟩
  · simp [Orderly, ha, hb, hfree]
  · rw [hplan]
    intro p hp
    simp only [List.mem_cons, List.not_mem_nil, or_false] at hp
    rcases hp with rfl | rfl
    · rintro last ⟨⟩
      decide +kernel
    · rintro last ⟨⟩
      decide +kernel

/-- The one that does not fit comes first, and the other is not bound. -/
theorem not_bindSchedule_first : ¬∃ s', dockerOptimizeBindSchedule sampleTopology sampleEnv
    (sampleTwo 12).dockerInfos.keys (sampleTwo 12) = .ok s' ∧
      Scheduled numbered_sample.layout (sampleTwo 12).docker (sampleTwo 12).dockerInfos.keys
        (due sampleTopology sampleEnv (sampleTwo 12).docker (sampleTwo 12).dockerInfos.keys
          (counts (sampleTwo 12).numa)) s' := by
  rintro ⟨s', h, hs⟩
  have hdue : due sampleTopology sampleEnv (sampleTwo 12).docker [str "b", str "a"] (counts (sampleTwo 12).numa) =
      [(str "a", 0)] := by decide +kernel
  have hleft : (dockerOptimizeBindSchedule sampleTopology sampleEnv [str "b", str "a"]
      (sampleTwo 12)).toOption.any (fun s => (s.docker (str "a")).optimizeBinded) = false := by decide +kernel
  rw [keys_sampleTwo] at h hs
  rw [hdue] at hs
  rw [h] at hleft
  have hb := (hs.bound (str "a") (by simp)).mpr (.inr ⟨0, List.mem_singleton_self _⟩)
  exact absurd (hleft.symm.trans hb) nofun

end ClusterAffinity
end OeAware

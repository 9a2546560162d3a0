import OeAware.Schemes.Loops
import OeAware.Tune.ClusterAffinity

/-! @src src/plugin/tune/docker/cluster_affinity/cluster_selector.cpp, cluster_affinity_adapt.cpp |
    name:SelectIdleCpuFromCluster, SelectIdleCluster | scheme:state-machine

    Cores and clusters are chosen by a vector that says which are used: the selector is asked for one,
    it is marked, and so on. What is chosen is free and chosen once, if the selector finds one that is
    not used. A core it does not find where all that are free have a load of 100; it then says the
    first core of the cluster.

        used 1 0 0 1 ──▶ select 1 ──▶ used 1 1 0 1 ──▶ select 2 ──▶ used 1 1 1 1 -/

namespace OeAware
open Schemes

namespace ClusterAffinity

/-- The vector says of `free`, and of nothing else from `first` on, that it is not used. -/
structure Unused (first : ℕ) (used : List Bool) (free : List ℕ) : Prop where
  nodup : free.Nodup
  first_le : ∀ x ∈ free, first ≤ x
  unused : ∀ i, used[i]? = some false ↔ first + i ∈ free

namespace Unused
variable {first : ℕ} {used : List Bool} {free : List ℕ}

theorem lt_length {i : ℕ} (h : used[i]? = some false) : i < used.length :=
  (List.getElem?_eq_some_iff.mp h).1

/-- One of them is used from now on. -/
theorem pick (h : Unused first used free) {i : ℕ} (hi : used[i]? = some false) :
    Unused first (used.set i true) (free.erase (first + i)) where
  nodup := h.nodup.erase _
  first_le x hx := h.first_le x (List.mem_of_mem_erase hx)
  unused j := by
    rw [h.nodup.mem_erase_iff, ← h.unused]
    by_cases hji : j = i
    · rw [hji, List.getElem?_set_self (lt_length hi)]
      simp
    · rw [List.getElem?_set_ne (Ne.symm hji)]
      simp [hji]

/-- One of them is taken, and then others. -/
theorem taken_cons {x n : ℕ} {xs : List ℕ} (h : Unused first used free) (hx : x ∈ free)
    (hxs : xs.Nodup ∧ xs ⊆ free.erase x ∧ xs.length = n) :
    (x :: xs).Nodup ∧ x :: xs ⊆ free ∧ (x :: xs).length = n + 1 := by
  obtain ⟨hnd, hsub, rfl⟩ := hxs
  refine ⟨List.nodup_cons.mpr ⟨fun hmem => ?_, hnd⟩,
    List.cons_subset.mpr ⟨hx, fun y hy => List.mem_of_mem_erase (hsub hy)⟩, rfl⟩
  exact (h.nodup.mem_erase_iff.mp (hsub hmem)).1 rfl

theorem exists_of_length (h : Unused first used free) (hlen : 0 < free.length) :
    ∃ i : ℕ, used[i]? = some false := by
  obtain ⟨x, hx⟩ := List.exists_mem_of_length_pos hlen
  refine ⟨x - first, (h.unused _).mpr ?_⟩
  rwa [Nat.add_sub_cancel' (h.first_le x hx)]

end Unused

/-! ### Marks -/

theorem mark_length {first : ℕ} {v : Bool} : ∀ {xs : List ℕ} {used used' : List Bool},
    mark first v xs used = .ok used' → used'.length = used.length
  | [], used, used', h => by
    cases h
    rfl
  | x :: xs, used, used', h => by
    rw [mark] at h
    split at h
    · rw [mark_length h, List.length_set]
    · cases h

theorem mark_get {first : ℕ} {v : Bool} : ∀ {xs : List ℕ} {used used' : List Bool},
    mark first v xs used = .ok used' → ∀ i < used.length,
    used'[i]? = if first + i ∈ xs then some v else used[i]?
  | [], used, used', h, i, _ => by
    cases h
    simp
  | x :: xs, used, used', h, i, hi => by
    rw [mark] at h
    split at h
    · rename_i hx
      rw [mark_get h i (by rwa [List.length_set])]
      by_cases hxs : first + i ∈ xs
      · rw [if_pos hxs, if_pos (List.mem_cons_of_mem x hxs)]
      · rw [if_neg hxs]
        by_cases hix : first + i = x
        · rw [if_pos (hix ▸ List.mem_cons_self), ← hix, Nat.add_sub_cancel_left,
            List.getElem?_set_self hi]
        · have hne : x - first ≠ i := by omega
          rw [if_neg (by simp [hix, hxs]), List.getElem?_set_ne hne]
    · cases h

/-- The next one is marked. -/
theorem mark_one {first i : ℕ} {used used' : List Bool}
    (h : mark first true [first + i] used = .ok used') : used' = used.set i true := by
  rw [mark] at h
  split at h
  · rw [Nat.add_sub_cancel_left] at h
    cases h
    rfl
  · cases h

theorem mark_ok {first : ℕ} {v : Bool} : ∀ {xs : List ℕ} {used : List Bool},
    (∀ x ∈ xs, first ≤ x ∧ x - first < used.length) → ∃ used', mark first v xs used = .ok used'
  | [], used, _ => ⟨used, rfl⟩
  | x :: xs, used, h => by
    obtain ⟨hx, hxs⟩ := List.forall_mem_cons.mp h
    rw [mark, if_pos hx]
    refine mark_ok fun y hy => ?_
    rw [List.length_set]
    exact hxs y hy

theorem unused_of_mark_false {first n : ℕ} {free : List ℕ} {used : List Bool} (hnd : free.Nodup)
    (hmem : ∀ x ∈ free, first ≤ x ∧ x < first + n)
    (h : mark first false free (List.replicate n true) = .ok used) : Unused first used free where
  nodup := hnd
  first_le x hx := (hmem x hx).1
  unused i := by
    by_cases hi : i < n
    · rw [mark_get h i (by rwa [List.length_replicate]), List.getElem?_replicate, if_pos hi]
      split <;> simp_all
    · have hlen : used.length ≤ i := by
        rw [mark_length h, List.length_replicate]
        omega
      rw [List.getElem?_eq_none hlen]
      exact iff_of_false nofun (fun hx => by have := (hmem _ hx).2; omega)

theorem unused_of_mark_true {first n : ℕ} {occupied : List ℕ} {used : List Bool}
    (h : mark first true occupied (List.replicate n false) = .ok used) :
    Unused first used ((List.range' first n).filter (· ∉ occupied)) where
  nodup := List.Nodup.filter _ (List.nodup_range' ..)
  first_le x hx := (List.mem_range'_1.mp (List.mem_filter.mp hx).1).1
  unused i := by
    rw [List.mem_filter, List.mem_range'_1, decide_eq_true_eq]
    by_cases hi : i < n
    · rw [mark_get h i (by rwa [List.length_replicate]), List.getElem?_replicate, if_pos hi]
      split <;> simp_all
    · have hlen : used.length ≤ i := by
        rw [mark_length h, List.length_replicate]
        omega
      rw [List.getElem?_eq_none hlen]
      exact iff_of_false nofun (fun hx => by have := hx.1.2; omega)

/-! ### Selection -/

section
variable {D : Type} [Double D] (sel : ClusterSelector D) (T : Topology)

/-- The load is below that at which a core is not found any more. -/
def ClusterSelector.Calm (cpu : ℕ) : Prop :=
  Double.lt (sel.cpuLoadMap cpu) (Double.ofInt 100) = true

/-- A core is found among those that are not used. -/
theorem selectIdleCpuFromCluster_unused {clusterId : ℕ} {used : List Bool} {free : List ℕ}
    (h : Unused (clusterId * T.oneClusterCpuNum) used free) (hfree : ∀ x ∈ free, sel.Calm x)
    (hlen : 0 < free.length) :
    ∃ i : ℕ, sel.selectIdleCpuFromCluster T clusterId used = clusterId * T.oneClusterCpuNum + i ∧
      used[i]? = some false := by
  have hloop : ∀ (l : List (Bool × ℕ)) (best : D × ℕ), (∀ p ∈ l, used[p.2]? = some p.1) →
      ((∃ i : ℕ, best.2 = clusterId * T.oneClusterCpuNum + i ∧ used[i]? = some false) ∨
        best.1 = Double.ofInt 100 ∧ ∃ p ∈ l, p.1 = false) →
      ∃ i : ℕ, (l.foldl (fun (best : D × ℕ) p =>
        let load := sel.cpuLoadMap (clusterId * T.oneClusterCpuNum + p.2)
        if !p.1 && Double.lt load best.1 then (load, clusterId * T.oneClusterCpuNum + p.2) else best)
        best).2 = clusterId * T.oneClusterCpuNum + i ∧ used[i]? = some false := by
    intro l
    induction l with
    | nil =>
      rintro best _ (hb | ⟨_, p, hp, _⟩)
      · exact hb
      · cases hp
    | cons p l ih =>
      intro best hget hb
      have hget' : ∀ q ∈ l, used[q.2]? = some q.1 := fun q hq => hget q (List.mem_cons_of_mem p hq)
      have hp := hget p List.mem_cons_self
      rw [List.foldl_cons]
      cases hp1 : p.1 with
      | true =>
        refine ih best hget' (hb.imp_right fun ⟨h100, q, hq, hq1⟩ => ⟨h100, q, ?_, hq1⟩)
        rcases List.mem_cons.mp hq with rfl | hq
        · rw [hp1] at hq1; cases hq1
        · exact hq
      | false =>
        rw [hp1] at hp
        by_cases hlt : Double.lt (sel.cpuLoadMap (clusterId * T.oneClusterCpuNum + p.2)) best.1 = true
        · refine ih _ hget' (.inl ⟨p.2, ?_, hp⟩)
          simp [hlt]
        · simp only [hlt, Bool.not_false, Bool.and_false, Bool.false_eq_true, if_false]
          refine ih best hget' (.inl ?_)
          rcases hb with hb | ⟨h100, _⟩
          · exact hb
          · -- the first core that is not used has a load below the limit
            exact absurd (h100 ▸ hfree _ ((h.unused p.2).mp hp)) hlt
  obtain ⟨i, hi⟩ := h.exists_of_length hlen
  exact hloop used.zipIdx _ (fun p hp => List.mk_mem_zipIdx_iff_getElem?.mp hp)
    (.inr ⟨rfl, (false, i), List.mk_mem_zipIdx_iff_getElem?.mpr hi, rfl⟩)

/-- Whatever the loads are, what is found is in the cluster. -/
theorem selectIdleCpuFromCluster_range (clusterId : ℕ) {used : List Bool} (hlen : 0 < used.length) :
    ∃ i < used.length, sel.selectIdleCpuFromCluster T clusterId used = clusterId * T.oneClusterCpuNum + i := by
  have hloop : ∀ (l : List (Bool × ℕ)) (best : D × ℕ), (∀ p ∈ l, p.2 < used.length) →
      (∃ i < used.length, best.2 = clusterId * T.oneClusterCpuNum + i) →
      ∃ i < used.length, (l.foldl (fun (best : D × ℕ) p =>
        let load := sel.cpuLoadMap (clusterId * T.oneClusterCpuNum + p.2)
        if !p.1 && Double.lt load best.1 then (load, clusterId * T.oneClusterCpuNum + p.2) else best)
        best).2 = clusterId * T.oneClusterCpuNum + i := by
    intro l
    induction l with
    | nil => exact fun best _ hb => hb
    | cons p l ih =>
      intro best hlt hb
      rw [List.foldl_cons]
      refine ih _ (fun q hq => hlt q (List.mem_cons_of_mem p hq)) ?_
      dsimp only
      split
      · exact ⟨p.2, hlt p List.mem_cons_self, rfl⟩
      · exact hb
  refine hloop used.zipIdx _ (fun p hp => ?_) ⟨0, hlen, rfl⟩
  exact (List.getElem?_eq_some_iff.mp (List.mk_mem_zipIdx_iff_getElem?.mp hp)).1

/-- So something is chosen. -/
theorem pickCpus_ok (clusterId : ℕ) : ∀ (n : ℕ) {used : List Bool}, 0 < used.length →
    ∃ cpus, pickCpus sel T clusterId n used = .ok cpus
  | 0, _, _ => ⟨[], rfl⟩
  | n + 1, used, hlen => by
    obtain ⟨i, hi, hsel⟩ := selectIdleCpuFromCluster_range sel T clusterId hlen
    have hmark : mark (clusterId * T.oneClusterCpuNum) true [clusterId * T.oneClusterCpuNum + i] used =
        .ok (used.set i true) := by
      rw [mark, if_pos ⟨Nat.le_add_right _ _, by rwa [Nat.add_sub_cancel_left]⟩, Nat.add_sub_cancel_left, mark]
    obtain ⟨cpus, hcpus⟩ : ∃ cpus, pickCpus sel T clusterId n (used.set i true) = .ok cpus :=
      pickCpus_ok clusterId n (by rwa [List.length_set])
    refine ⟨(clusterId * T.oneClusterCpuNum + i) :: cpus, ?_⟩
    simp only [pickCpus, hsel, hmark, hcpus, bind, Except.bind, pure, Except.pure]

/-- What is chosen is free, each core once. -/
theorem pickCpus_free {clusterId : ℕ} : ∀ {n : ℕ} {used : List Bool} {free cpus : List ℕ},
    Unused (clusterId * T.oneClusterCpuNum) used free → (∀ x ∈ free, sel.Calm x) →
    n ≤ free.length → pickCpus sel T clusterId n used = .ok cpus →
    cpus.Nodup ∧ cpus ⊆ free ∧ cpus.length = n
  | 0, _, free, cpus, _, _, _, he => by
    cases he
    exact ⟨List.nodup_nil, List.nil_subset _, rfl⟩
  | n + 1, used, free, cpus, h, hcalm, hlen, he => by
    obtain ⟨i, hi, hused⟩ := selectIdleCpuFromCluster_unused sel T h hcalm (by omega)
    rw [pickCpus, hi] at he
    obtain ⟨used', hmark, he⟩ := bind_ok he
    obtain ⟨rest, hrest, he⟩ := bind_ok he
    cases he
    rw [mark_one hmark] at hrest
    have hmem := (h.unused i).mp hused
    refine h.taken_cons hmem (pickCpus_free (h.pick hused)
      (fun x hx => hcalm x (List.mem_of_mem_erase hx)) ?_ hrest)
    rw [List.length_erase_of_mem hmem]
    omega

omit [Double D] in
/-- A cluster that is found is not used. -/
theorem selectIdleCluster_unused {nid clusterId : ℕ} {used : List Bool}
    (h : sel.selectIdleCluster T nid used = some clusterId) :
    ∃ i : ℕ, clusterId = T.clusterNum / T.numaNodeNum * nid + i ∧ used[i]? = some false := by
  have hloop : ∀ (l : List (Bool × ℕ)) (best : UInt64 × Option ℕ),
      (∀ p ∈ l, used[p.2]? = some p.1) →
      (∀ id ∈ best.2, ∃ i : ℕ, id = T.clusterNum / T.numaNodeNum * nid + i ∧ used[i]? = some false) →
      ∀ id ∈ (l.foldl (fun (best : UInt64 × Option ℕ) p =>
        let sum := sel.scclL3cSum (T.clusterNum / T.numaNodeNum * nid + p.2)
        if best.1 > sum && !p.1 then (sum, some (T.clusterNum / T.numaNodeNum * nid + p.2)) else best)
        best).2, ∃ i : ℕ, id = T.clusterNum / T.numaNodeNum * nid + i ∧ used[i]? = some false := by
    intro l
    induction l with
    | nil => exact fun best _ hb => hb
    | cons p l ih =>
      intro best hget hb
      rw [List.foldl_cons]
      refine ih _ (fun q hq => hget q (List.mem_cons_of_mem p hq)) ?_
      simp only
      split
      · rename_i hp
        rintro id ⟨⟩
        have hp1 : p.1 = false := by simpa using (Bool.and_eq_true_iff.mp hp).2
        exact ⟨p.2, rfl, hp1 ▸ hget p List.mem_cons_self⟩
      · exact hb
  rw [ClusterSelector.selectIdleCluster] at h
  split at h
  · cases h
  · refine hloop _ _ (fun p hp => ?_) (by rintro id ⟨⟩) clusterId h
    have := List.mk_mem_zipIdx_iff_getElem?.mp hp
    rw [List.getElem?_take] at this
    split at this
    · exact this
    · cases this

omit [Double D] in
/-- What is chosen is free, each cluster once. -/
theorem pickClusters_free {nid first : ℕ} (hfirst : T.clusterNum / T.numaNodeNum * nid = first) :
    ∀ {n : ℕ} {used : List Bool} {free ids : List ℕ}, Unused first used free →
    pickClusters sel T nid first n used = .ok ids → ids.Nodup ∧ ids ⊆ free ∧ ids.length = n
  | 0, _, free, ids, _, he => by
    cases he
    exact ⟨List.nodup_nil, List.nil_subset _, rfl⟩
  | n + 1, used, free, ids, h, he => by
    rw [pickClusters] at he
    split at he
    · cases he
    · rename_i clusterId hsel
      obtain ⟨i, rfl, hused⟩ := selectIdleCluster_unused sel T hsel
      rw [hfirst] at he
      obtain ⟨used', hmark, he⟩ := bind_ok he
      obtain ⟨rest, hrest, he⟩ := bind_ok he
      cases he
      rw [mark_one hmark] at hrest
      exact h.taken_cons ((h.unused i).mp hused) (pickClusters_free hfirst (h.pick hused) hrest)

omit [Double D] in
/-- A cluster is found where one is not used and its count is not the largest number. -/
theorem selectIdleCluster_ok {nid : ℕ} {used : List Bool} (hnid : nid < T.numaNodeNum)
    (hlen : used.length ≤ T.clusterNum / T.numaNodeNum) {i : ℕ} (hi : used[i]? = some false)
    (hsum : sel.scclL3cSum (T.clusterNum / T.numaNodeNum * nid + i) < UInt64.ofNat (2 ^ 64 - 1)) :
    ∃ clusterId, sel.selectIdleCluster T nid used = some clusterId := by
  have hloop : ∀ (l : List (Bool × ℕ)) (best : UInt64 × Option ℕ),
      (best.2 = none → best.1 = UInt64.ofNat (2 ^ 64 - 1) ∧ (false, i) ∈ l) →
      (l.foldl (fun (best : UInt64 × Option ℕ) p =>
        let sum := sel.scclL3cSum (T.clusterNum / T.numaNodeNum * nid + p.2)
        if best.1 > sum && !p.1 then (sum, some (T.clusterNum / T.numaNodeNum * nid + p.2)) else best)
        best).2 ≠ none := by
    intro l
    induction l with
    | nil =>
      intro best hb hnone
      cases (hb hnone).2
    | cons p l ih =>
      intro best hb
      rw [List.foldl_cons]
      refine ih _ ?_
      dsimp only
      split
      · exact fun hnone => by cases hnone
      · rename_i hcond
        intro hnone
        obtain ⟨hmax, hmem⟩ := hb hnone
        refine ⟨hmax, (List.mem_cons.mp hmem).resolve_left ?_⟩
        rintro rfl
        rw [hmax] at hcond
        exact hcond (by simpa using hsum)
  have hq : T.clusterNum / T.numaNodeNum ≠ 0 := by
    have := Unused.lt_length hi
    omega
  have hseen : used.take (ClusterSelector.clustersSeen T used) = used := by
    rw [ClusterSelector.clustersSeen, if_neg hq, Nat.min_eq_right hlen, List.take_length]
  refine Option.ne_none_iff_exists'.mp ?_
  rw [ClusterSelector.selectIdleCluster, if_neg (not_le.mpr hnid), hseen]
  exact hloop used.zipIdx _ fun _ => ⟨rfl, List.mk_mem_zipIdx_iff_getElem?.mpr hi⟩

omit [Double D] in
/-- As many clusters are found as are not used. -/
theorem pickClusters_ok {nid first : ℕ} (hnid : nid < T.numaNodeNum)
    (hfirst : T.clusterNum / T.numaNodeNum * nid = first) : ∀ {n : ℕ} {used : List Bool} {free : List ℕ},
    Unused first used free → used.length ≤ T.clusterNum / T.numaNodeNum →
    (∀ c ∈ free, sel.scclL3cSum c < UInt64.ofNat (2 ^ 64 - 1)) → n ≤ free.length →
    ∃ ids, pickClusters sel T nid first n used = .ok ids
  | 0, _, _, _, _, _, _ => ⟨[], rfl⟩
  | n + 1, used, free, h, hlen, hsum, hn => by
    obtain ⟨i, hi⟩ := h.exists_of_length (Nat.lt_of_lt_of_le (Nat.succ_pos n) hn)
    obtain ⟨c, hsel⟩ := selectIdleCluster_ok sel T hnid hlen hi (hfirst ▸ hsum _ ((h.unused i).mp hi))
    obtain ⟨j, rfl, hj⟩ := selectIdleCluster_unused sel T hsel
    rw [hfirst] at hsel
    have hmark : mark first true [first + j] used = .ok (used.set j true) := by
      rw [mark, if_pos ⟨Nat.le_add_right _ _, by rw [Nat.add_sub_cancel_left]; exact Unused.lt_length hj⟩,
        Nat.add_sub_cancel_left, mark]
    obtain ⟨ids, hids⟩ := pickClusters_ok hnid hfirst (n := n) (h.pick hj) (by rwa [List.length_set])
      (fun c hc => hsum c (List.mem_of_mem_erase hc)) (by
        rw [List.length_erase_of_mem ((h.unused j).mp hj)]
        omega)
    refine ⟨(first + j) :: ids, ?_⟩
    simp only [pickClusters, hsel, hmark, hids, bind, Except.bind, pure, Except.pure]

end
end ClusterAffinity
end OeAware

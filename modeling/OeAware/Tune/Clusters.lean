import OeAware.Analysis.Isolation
import OeAware.Schemes.Run
import OeAware.Tune.Lending
import OeAware.Tune.Taking

/-! @src src/plugin/tune/docker/cluster_affinity/cluster_affinity_adapt.cpp |
    name:DockerOptimizeBindSchedule, DockerAddCpuLimitComm, DockerMinusCpuLimitComm, Update, Tune, Exit |
    scheme:pools

    Binding and a higher limit take cores and clusters for one container, a lower limit gives them back;
    nothing else that a `Tune` does touches them. So each step keeps everything in its place, as long as no
    container vanishes that is bound.

        bind, add   grow        minus   shrink        all else   still -/

namespace OeAware
open Schemes
open scoped List

namespace ClusterAffinity

section
variable {D : Type} [Double D] {T : Topology} {L : Layout T} {sel : ClusterSelector D} {s s' : State}

theorem mem_keys_of_bind {d : Str} (h : (s.place d).bindClusters ≠ []) : d ∈ s.dockerInfos.keys := by
  by_contra hd
  refine h ?_
  rw [State.place, place_of_not_mem hd]
  rfl

theorem place_setDocker {info : DockerResourceInfo} (d x : Str) :
    (s.setDocker d info).place x = if x = d then ⟨info.inited, info.optimizeBinded, info.currentCpuSet,
      info.currentMemSet, info.currentCpuLimit, info.bindClusters⟩ else s.place x := by
  unfold State.place
  rw [docker_setDocker]
  split <;> rfl

theorem OnlyPools.place (h : OnlyPools s s') (d : Str) : s'.place d = s.place d := by
  unfold State.place
  rw [h.docker]

theorem mem_keys_setDocker {info : DockerResourceInfo} {d : Str} (hd : d ∈ s.dockerInfos.keys) (x : Str) :
    x ∈ (s.setDocker d info).dockerInfos.keys ↔ x ∈ s.dockerInfos.keys := by
  unfold State.setDocker
  rw [UMap.mem_keys_insert, or_iff_right_of_imp]
  rintro rfl
  exact hd

/-- A container has taken cores and clusters of its node. -/
structure Grown (T : Topology) (s s' : State) (d : Str) (nid : ℕ) (cpus ids : List ℕ) : Prop where
  takes : Takes T s s' cpus
  occupies : Occupies s s' nid ids
  home : ∀ x ∈ cpus, x / T.oneClusterCpuNum ∈ (s.place d).bindClusters ++ ids
  mem : d ∈ s.dockerInfos.keys
  keys : ∀ x, x ∈ s'.dockerInfos.keys ↔ x ∈ s.dockerInfos.keys
  other : ∀ x, x ≠ d → s'.docker x = s.docker x

theorem Grown.place {d : Str} {nid : ℕ} {cpus ids : List ℕ} (h : Grown T s s' d nid cpus ids) {x : Str}
    (hx : x ≠ d) : s'.place x = s.place x := by
  unfold State.place
  rw [h.other x hx]

theorem back_mem {α : Type} {l : List α} {a : α} (h : back l = .ok a) : a ∈ l := by
  unfold back at h
  split at h
  · rename_i b hb
    cases h
    exact List.mem_of_getLast? hb
  · cases h

theorem head_of_front {α : Type} {l : List α} {a : α} (h : front l = .ok a) : l.head? = some a := by
  unfold front at h
  split at h
  · rename_i b hb
    cases h
    exact hb
  · cases h

theorem toSize_eq {n : ℤ} {m : ℕ} (h : toSize n = .ok m) : (m : ℤ) = n := by
  unfold toSize at h
  split at h
  · rename_i hn
    cases h
    exact Int.toNat_of_nonneg hn.1
  · cases h

/-- Who has a cluster is in its place, on the first of its nodes. -/
theorem Placement.placed_of_mem (hp : Placement L s) {d : Str} {c nid : ℕ} (hc : c ∈ (s.place d).bindClusters)
    (hnid : front (s.docker d).currentMemSet = .ok nid) :
    (s.place d).optimizeBinded = true ∧ Placed s (s.place d) nid := by
  cases hb : (s.place d).optimizeBinded with
  | false =>
    rw [hp.unbound d hb] at hc
    cases hc
  | true =>
    obtain ⟨i, hplaced⟩ := hp.bound d hb
    have hi : i = nid := Option.some_inj.mp (hplaced.node.symm.trans (head_of_front hnid))
    exact ⟨rfl, hi ▸ hplaced⟩

/-- `DockerAddCpuLimitComm` takes as many cores as the limit grows by, rounded up. -/
theorem grown_add {d : Str} {limit : ℚ} {updated b : Bool} (hk : 0 < T.oneClusterCpuNum)
    (hp : Placement L s) (hcalm : ∀ c, ∀ x ∈ (s.cluster c).freeCpuCores, sel.Calm x)
    (h : dockerAddCpuLimitComm sel T d limit updated s = .ok (s', b)) :
    ∃ nid cpus ids, Placed s (s.place d) nid ∧ Grown T s s' d nid cpus ids ∧
      (cpus.length : ℤ) = ⌈(s.place d).currentCpuLimit + limit⌉ - ⌈(s.place d).currentCpuLimit⌉ ∧
      (s.place d).optimizeBinded = true ∧
      s'.place d = { s.place d with
        currentCpuSet := (s.place d).currentCpuSet ++ cpus
        bindClusters := (s.place d).bindClusters ++ ids
        currentCpuLimit := (s.place d).currentCpuLimit + limit } := by
  obtain ⟨nid, hnid, h⟩ := bind_ok h
  obtain ⟨need, hneed, h⟩ := bind_ok h
  obtain ⟨clusterId, hid, h⟩ := bind_ok h
  rw [if_neg hk.ne'] at h
  obtain ⟨⟨cpus, ids, s1⟩, h1, h⟩ := bind_ok h
  have hmem : clusterId ∈ (s.place d).bindClusters := back_mem hid
  obtain ⟨hb, hplaced⟩ := hp.placed_of_mem hmem hnid
  obtain ⟨htakes, hocc, hlen, hhome⟩ := taken_addCpus hk hp hcalm (hplaced.occupied hmem) h1
  have hpools := onlyPools_addCpus h1
  have hd : d ∈ s.dockerInfos.keys := mem_keys_of_bind (List.ne_nil_of_mem hmem)
  cases h
  refine ⟨nid, cpus, ids, hplaced, ⟨htakes, hocc, fun x hx => ?_, hd, fun x => ?_, fun x hx => ?_⟩, ?_, hb, ?_⟩
  · rcases List.mem_cons.mp (hhome x hx) with hx | hx
    · exact List.mem_append_left _ (hx ▸ hmem)
    · exact List.mem_append_right _ hx
  · rw [mem_keys_setDocker (by rw [hpools.dockerInfos]; exact hd), hpools.dockerInfos]
  · rw [docker_setDocker, if_neg hx, hpools.docker]
  · rw [hlen]
    exact toSize_eq hneed
  · rw [place_setDocker, if_pos rfl]
    rfl

theorem Placement.add {d : Str} {limit : ℚ} {updated b : Bool} (hk : 0 < T.oneClusterCpuNum)
    (hp : Placement L s) (hcalm : ∀ c, ∀ x ∈ (s.cluster c).freeCpuCores, sel.Calm x)
    (h : dockerAddCpuLimitComm sel T d limit updated s = .ok (s', b)) : Placement L s' := by
  obtain ⟨nid, cpus, ids, hplaced, hg, -, hb, hplace⟩ := grown_add hk hp hcalm h
  refine hp.grow hg.takes hg.occupies ?_ hg.keys hg.mem (fun x hx => hg.place hx) ?_ ?_ ?_ ?_ ?_ hplaced.occupied
  · rw [hplace]
    exact hg.home
  · rw [hplace]
    exact hp.known d hg.mem
  · rw [hplace]
    exact hb
  · rw [hplace]
  · rw [hplace]
    exact hplaced.node
  · rw [hplace]
    exact List.append_ne_nil_of_left_ne_nil hplaced.some _

/-- A container has given back cores and clusters of its node. -/
structure Shrunk (T : Topology) (s s' : State) (d : Str) (nid : ℕ) (cpus ids : List ℕ) : Prop where
  takes : Takes T s' s cpus
  occupies : Occupies s' s nid ids
  home : ∀ x ∈ cpus, x / T.oneClusterCpuNum ∈ (s.place d).bindClusters
  gone : ∀ c ∈ ids, (s'.cluster c).occupiedCpuCores = []
  mem : d ∈ s.dockerInfos.keys
  keys : ∀ x, x ∈ s'.dockerInfos.keys ↔ x ∈ s.dockerInfos.keys
  other : ∀ x, x ≠ d → s'.docker x = s.docker x

theorem Shrunk.place {d : Str} {nid : ℕ} {cpus ids : List ℕ} (h : Shrunk T s s' d nid cpus ids) {x : Str}
    (hx : x ≠ d) : s'.place x = s.place x := by
  unfold State.place
  rw [h.other x hx]

/-- `DockerMinusCpuLimitComm` gives back as many cores as the limit falls by, rounded up. -/
theorem shrunk_minus {d : Str} {limit : ℚ} {updated b : Bool} (hp : Placement L s)
    (h : dockerMinusCpuLimitComm d limit updated s = .ok (s', b)) :
    ∃ (nid : ℕ) (cpus cpus' ids ids' : List ℕ), Placed s (s.place d) nid ∧ Shrunk T s s' d nid cpus ids ∧ cpus'.Perm cpus ∧
      (cpus.length : ℤ) = ⌈(s.place d).currentCpuLimit⌉ - ⌈(s.place d).currentCpuLimit - limit⌉ ∧
      (s.place d).optimizeBinded = true ∧ (s.place d).bindClusters = ids' ++ ids ∧ ids' ≠ [] ∧
      s'.place d = { s.place d with
        currentCpuSet := (s.place d).currentCpuSet.filter (· ∉ cpus')
        bindClusters := ids'
        currentCpuLimit := (s.place d).currentCpuLimit - limit } := by
  obtain ⟨nid, hnid, h⟩ := bind_ok h
  obtain ⟨need, hneed, h⟩ := bind_ok h
  obtain ⟨clusterId, hid, h⟩ := bind_ok h
  obtain ⟨⟨cpus, ids, s1⟩, h1, h⟩ := bind_ok h
  have hmem : clusterId ∈ (s.place d).bindClusters := back_mem hid
  obtain ⟨hb, hplaced⟩ := hp.placed_of_mem hmem hnid
  have hpools := onlyPools_returnCpus h1
  have hd : d ∈ s.dockerInfos.keys := mem_keys_of_bind (List.ne_nil_of_mem hmem)
  have hhome : ∀ c, ∀ x ∈ (s.cluster c).occupiedCpuCores, x / T.oneClusterCpuNum = c :=
    fun c x hx => L.cores_home c x ((hp.cores c).mem_all.mpr (.inr hx))
  obtain ⟨back, gone, hperm, hlen, hrev, hne, htakes, hocc, hback, hgone⟩ := returnCpus_back hhome
    ((hp.nodes nid).nodup (L.clusters_nodup nid)).of_append_right
    (fun c hc => hplaced.occupied (List.mem_reverse.mp hc)) (List.nodup_reverse.mpr hplaced.once)
    (fun hnil => hplaced.some (List.reverse_eq_nil_iff.mp hnil)) h1
  rw [List.reverse_reverse] at hrev
  cases h
  refine ⟨nid, back, cpus, gone, ids.reverse, hplaced,
    ⟨htakes, hocc, fun x hx => List.mem_reverse.mp (hback x hx), hgone, hd, fun x => ?_, fun x hx => ?_⟩,
    hperm, ?_, hb, hrev, fun hnil => hne (List.reverse_eq_nil_iff.mp hnil), ?_⟩
  · rw [mem_keys_setDocker (by rw [hpools.dockerInfos]; exact hd), hpools.dockerInfos]
  · rw [docker_setDocker, if_neg hx, hpools.docker]
  · rw [hlen]
    exact toSize_eq hneed
  · rw [place_setDocker, if_pos rfl]
    rfl

theorem Placement.minus {d : Str} {limit : ℚ} {updated b : Bool} (hp : Placement L s)
    (h : dockerMinusCpuLimitComm d limit updated s = .ok (s', b)) : Placement L s' := by
  obtain ⟨nid, cpus, cpus', ids, ids', hplaced, hsh, -, -, hb, hbind, hne, hplace⟩ := shrunk_minus hp h
  refine hp.shrink hsh.takes hsh.occupies hsh.gone hsh.keys (fun x hx => hsh.place hx) ?_ hb ?_ ?_ ?_ ?_
  · rw [hplace]
  · rw [hplace]
    exact hb
  · rw [hplace]
    exact hbind
  · rw [hplace]
  · rw [hplace]
    exact hne

/-! ### Binding -/

variable {env : TuneEnv D}

/-- `DockerBindClusters` takes as many cores as the limit says, rounded up. -/
theorem grown_bind {d : Str} {nid n : ℕ} (hk : 0 < T.oneClusterCpuNum) (hp : Placement L s)
    (hcalm : ∀ c, ∀ x ∈ (s.cluster c).freeCpuCores, env.sel.Calm x) (hd : d ∈ s.dockerInfos.keys)
    (hunbound : (s.place d).optimizeBinded = false) (hlimit : 0 < (s.docker d).initialCpuLimit)
    (hn : ceilDiv (s.docker d).initialCpuLimit (T.oneClusterCpuNum / T.sep) = .ok n)
    (hfree : n ≤ (s.numa nid).freeInfoVec.length) (h : dockerBindClusters T env d nid n s = .ok s') :
    ∃ cpus ids, Grown T s (s'.setDocker d { s'.docker d with optimizeBinded := true }) d nid cpus ids ∧
      cpus.length = ⌈(s.docker d).initialCpuLimit⌉₊ ∧ ids ≠ [] ∧
      s'.docker d = { s.docker d with
        bindClusters := ids
        currentCpuSet := if env.bound d then cpus else (s.docker d).currentCpuSet
        currentMemSet := if env.bound d then [nid] else (s.docker d).currentMemSet } := by
  obtain ⟨hpos, hle⟩ := le_of_ceilDiv hn
  have hn0 : 0 < n := by
    refine Nat.pos_of_ne_zero (fun h0 => ?_)
    rw [h0, Nat.zero_mul, Nat.le_zero, Nat.ceil_eq_zero] at hle
    exact absurd hlimit (not_lt.mpr hle)
  obtain ⟨c0, hc0⟩ := List.exists_mem_of_length_pos (Nat.lt_of_lt_of_le hn0 hfree)
  obtain ⟨⟨ids, s1⟩, h1, h⟩ := bind_ok h
  obtain ⟨⟨cpus, s2⟩, h2, h⟩ := bind_ok h
  have hpools := (onlyPools_takeClusters h1).trans (onlyPools_fillClusters h2)
  obtain ⟨hocc, hlen, hcluster⟩ := occupies_takeClusters (hp.nodes nid)
    (List.ne_nil_of_mem (hp.mem_clusters.mpr (.inl hc0))) h1
  have hnew : ∀ c ∈ ids, c ∈ (s.numa nid).freeInfoVec := fun c hc => hocc.mem_free.mpr (.inr ⟨rfl, hc⟩)
  have hwhole : ∀ c ∈ ids, T.oneClusterCpuNum / T.sep ≤ (s1.cluster c).freeCpuCores.length := by
    intro c hc
    have hparts := hp.cores c
    rw [hp.idle nid c (hnew c hc), Parts, List.append_nil] at hparts
    rw [hcluster, hparts.length_eq]
    exact L.enough nid c (hp.mem_clusters.mpr (.inl (hnew c hc)))
  have htakes1 : Takes T s s1 [] := by
    unfold Takes
    rw [hcluster]
    exact Takes.refl T s
  obtain ⟨taken, heq, hcount, htaken⟩ := taken_fillClusters hk (htakes1.housed hp.housed)
    (hocc.nodup_ids (hp.free_nodup nid)) (fun c hc x hx => hcalm c x (hcluster ▸ hx)) hwhole
    (by rw [hlen]; exact hle) (fun x hx => by cases hx) h2
  rw [List.nil_append] at heq
  subst heq
  have hbind : (s.docker d).bindClusters = [] := hp.unbound d hunbound
  cases h
  refine ⟨cpus, ids, ⟨?_, ?_, fun x hx => ?_, hd, fun x => ?_, fun x hx => ?_⟩, hcount, ?_, ?_⟩
  · exact htakes1.trans htaken.takes
  · have hsame := hocc.trans (.of_numa htaken.numa nid)
    rwa [List.append_nil] at hsame
  · exact List.mem_append_right _ (htaken.home x hx)
  · have hd2 : d ∈ s2.dockerInfos.keys := by
      rw [hpools.dockerInfos]
      exact hd
    rw [mem_keys_setDocker ((mem_keys_setDocker hd2 d).mpr hd2), mem_keys_setDocker hd2, hpools.dockerInfos]
  · rw [docker_setDocker, if_neg hx, docker_setDocker, if_neg hx, hpools.docker]
  · exact List.ne_nil_of_length_pos (by omega)
  · rw [docker_setDocker, if_pos rfl]
    dsimp only
    rw [hbind]
    split <;> rfl

/-- Where the command fails, the container must be on the first of its nodes already. -/
def Bindable (T : Topology) (env : TuneEnv D) (s : State) (d : Str) : Prop :=
  env.bound d = true ∨ ∀ nid, selectBindingNuma T env (s.docker d) = .ok (some nid) →
    (s.docker d).currentMemSet.head? = some nid

theorem Placement.bind {d : Str} {nid n : ℕ} (hk : 0 < T.oneClusterCpuNum) (hp : Placement L s)
    (hcalm : ∀ c, ∀ x ∈ (s.cluster c).freeCpuCores, env.sel.Calm x) (hd : d ∈ s.dockerInfos.keys)
    (hunbound : (s.place d).optimizeBinded = false) (hlimit : 0 < (s.docker d).initialCpuLimit)
    (hn : ceilDiv (s.docker d).initialCpuLimit (T.oneClusterCpuNum / T.sep) = .ok n)
    (hfree : n ≤ (s.numa nid).freeInfoVec.length) (hable : Bindable T env s d)
    (hnid : selectBindingNuma T env (s.docker d) = .ok (some nid))
    (h : dockerBindClusters T env d nid n s = .ok s') :
    Placement L (s'.setDocker d { s'.docker d with optimizeBinded := true }) := by
  obtain ⟨cpus, ids, hg, -, hne, hdocker⟩ := grown_bind hk hp hcalm hd hunbound hlimit hn hfree h
  have hbind : (s.place d).bindClusters = [] := hp.unbound d hunbound
  have hplace := @place_setDocker s' { s'.docker d with optimizeBinded := true } d d
  rw [if_pos rfl] at hplace
  refine hp.grow hg.takes hg.occupies ?_ hg.keys hg.mem (fun x hx => hg.place hx) ?_ ?_ ?_ ?_ ?_ ?_
  · rw [hplace, hdocker]
    simpa [hbind] using hg.home
  · rw [hplace, hdocker]
    exact hp.known d hd
  · rw [hplace]
  · rw [hplace, hdocker, hbind]
    rfl
  · rw [hplace, hdocker]
    dsimp only
    split
    · rfl
    · rename_i hb
      exact (hable.resolve_left hb) nid hnid
  · rw [hplace, hdocker]
    exact hne
  · rw [hbind]
    exact List.nil_subset _

/-! ### The loads -/

/-- The selector finds any core that is free, or will be when these containers lend. -/
structure Cool (calm : ℕ → Prop) (lenders : List Str) (s : State) : Prop where
  free : ∀ c, ∀ x ∈ (s.cluster c).freeCpuCores, calm x
  lent : ∀ d ∈ lenders, ∀ c ∈ (s.place d).bindClusters, ∀ x ∈ (s.cluster c).occupiedCpuCores, calm x

namespace Cool
variable {calm : ℕ → Prop} {lenders : List Str} {d : Str} {nid : ℕ} {cpus ids : List ℕ}

theorem grown (h : Cool calm lenders s) (hp : Placement L s) (hg : Grown T s s' d nid cpus ids)
    (hbind : (s'.place d).bindClusters = (s.place d).bindClusters ++ ids) : Cool calm lenders s' where
  free c x hx := h.free c x (hg.takes.mem_free.mpr (.inl hx))
  lent y hy c hc x hx := by
    rcases hg.takes.mem_occupied.mp hx with hx | ⟨hx, hxc⟩
    · by_cases hyd : y = d
      · subst hyd
        rw [hbind, List.mem_append] at hc
        rcases hc with hc | hc
        · exact h.lent y hy c hc x hx
        · rw [hp.idle nid c (hg.occupies.mem_free.mpr (.inr ⟨rfl, hc⟩))] at hx
          cases hx
      · rw [hg.place hyd] at hc
        exact h.lent y hy c hc x hx
    · exact h.free c x (hg.takes.mem_free.mpr (.inr ⟨hx, hxc⟩))

theorem shrunk (h : Cool calm lenders s) (hs : Shrunk T s s' d nid cpus ids) (hd : d ∈ lenders)
    (hbind : (s'.place d).bindClusters ⊆ (s.place d).bindClusters) : Cool calm lenders s' where
  free c x hx := by
    rcases hs.takes.mem_free.mp hx with hx | ⟨hx, hxc⟩
    · exact h.free c x hx
    · exact h.lent d hd c (hxc ▸ hs.home x hx) x (hs.takes.mem_occupied.mpr (.inr ⟨hx, hxc⟩))
  lent y hy c hc x hx := by
    refine h.lent y hy c ?_ x (hs.takes.mem_occupied.mpr (.inl hx))
    by_cases hyd : y = d
    · subst hyd
      exact hbind hc
    · rwa [hs.place hyd] at hc

theorem still (h : Cool calm lenders s) (hp : Placement L s) (hs : Still s s') : Cool calm lenders s' where
  free c x hx := by
    rw [hs.cluster] at hx
    exact h.free c x hx
  lent y hy c hc x hx := by
    rw [hp.bind_still hs] at hc
    rw [hs.cluster] at hx
    exact h.lent y hy c hc x hx

end Cool

/-! ### `Tune` -/

variable {lenders : List Str}

theorem bindClusters_other {d x : Str} {nid n : ℕ} (h : dockerBindClusters T env d nid n s = .ok s')
    (hx : x ≠ d) : s'.docker x = s.docker x := by
  obtain ⟨⟨ids, s1⟩, h1, h⟩ := bind_ok h
  obtain ⟨⟨cpus, s2⟩, h2, h⟩ := bind_ok h
  cases h
  rw [docker_setDocker, if_neg hx, ((onlyPools_takeClusters h1).trans (onlyPools_fillClusters h2)).docker]

/-- What is kept when one is bound holds after the loop; a container is met as it was at first. -/
theorem bindSchedule_invariant {P : State → Prop} (hk : 0 < T.oneClusterCpuNum) : ∀ {ids : List Str} {s s' : State},
    ids.Nodup → (∀ d nid n s1 s2, d ∈ ids → s1.docker d = s.docker d → (s.docker d).optimizeBinded = false →
      0 < (s.docker d).initialCpuLimit →
      ceilDiv (s.docker d).initialCpuLimit (T.oneClusterCpuNum / T.sep) = .ok n →
      n ≤ (s1.numa nid).freeInfoVec.length → selectBindingNuma T env (s.docker d) = .ok (some nid) → P s1 →
      dockerBindClusters T env d nid n s1 = .ok s2 →
      P (s2.setDocker d { s2.docker d with optimizeBinded := true })) →
    P s → dockerOptimizeBindSchedule T env ids s = .ok s' → P s'
  | [], _, _, _, _, hs, h => by
    cases h
    exact hs
  | d :: ids, s, s', hnd, hstep, hs, h => by
    obtain ⟨hdids, hnd⟩ := List.nodup_cons.mp hnd
    rw [dockerOptimizeBindSchedule] at h
    dsimp only at h
    split at h
    · exact bindSchedule_invariant hk hnd
        (fun x nid n s1 s2 hx => hstep x nid n s1 s2 (List.mem_cons_of_mem d hx)) hs h
    · rename_i hskip
      obtain ⟨hb, hlimit⟩ := not_or.mp hskip
      rw [if_neg hk.ne'] at h
      obtain ⟨n, hn, h⟩ := bind_ok h
      obtain ⟨nid, hnid, h⟩ := bind_ok h
      cases nid with
      | none =>
        cases h
        exact hs
      | some nid =>
        dsimp only at h
        split at h
        · cases h
          exact hs
        · rename_i hlen
          obtain ⟨s1, h1, h⟩ := bind_ok h
          have hother : ∀ x ∈ ids, (s1.setDocker d { s1.docker d with optimizeBinded := true }).docker x =
              s.docker x := by
            intro x hx
            have hne : x ≠ d := fun heq => hdids (heq ▸ hx)
            rw [docker_setDocker, if_neg hne, bindClusters_other h1 hne]
          refine bindSchedule_invariant hk hnd (fun x nid n s2 s3 hx => ?_)
            (hstep d nid n s s1 List.mem_cons_self rfl (Bool.eq_false_iff.mpr hb) (not_le.mp hlimit) hn
              (not_lt.mp hlen) hnid hs h1) h
          rw [hother x hx]
          exact hstep x nid n s2 s3 (List.mem_cons_of_mem d hx)

/-- Binding one after another. -/
theorem placement_bindSchedule (hk : 0 < T.oneClusterCpuNum)
    (hable : ∀ d ∈ s.dockerInfos.keys, (s.docker d).optimizeBinded = false → 0 < (s.docker d).initialCpuLimit →
      Bindable T env s d) (hp : Placement L s) (hc : Cool env.sel.Calm lenders s)
    (h : dockerOptimizeBindSchedule T env s.dockerInfos.keys s = .ok s') :
    Placement L s' ∧ Cool env.sel.Calm lenders s' := by
  have hall := bindSchedule_invariant
    (P := fun s' => (Placement L s' ∧ Cool env.sel.Calm lenders s') ∧ ∀ x, x ∈ s'.dockerInfos.keys ↔ x ∈ s.dockerInfos.keys)
    hk s.dockerInfos.nodup (fun d nid n s1 s2 hd hsame hb hlimit hn hlen hnid hs h1 => ?_)
    ⟨⟨hp, hc⟩, fun _ => Iff.rfl⟩ h
  · exact hall.1
  · obtain ⟨⟨hp1, hc1⟩, hkeys⟩ := hs
    have hable1 : Bindable T env s1 d := by
      unfold Bindable
      rw [hsame]
      exact hable d hd hb hlimit
    rw [← hsame] at hb hlimit hn hnid
    have hd1 := (hkeys d).mpr hd
    obtain ⟨cpus, new, hg, -, -, hdocker⟩ := grown_bind hk hp1 hc1.free hd1 hb hlimit hn hlen h1
    have hbind : (s1.place d).bindClusters = [] := hp1.unbound d hb
    refine ⟨⟨hp1.bind hk hc1.free hd1 hb hlimit hn hlen hable1 hnid h1, hc1.grown hp1 hg ?_⟩,
      fun x => (hg.keys x).trans (hkeys x)⟩
    rw [place_setDocker, if_pos rfl, hdocker, hbind]
    rfl

theorem still_setDocker {d : Str} (info : DockerResourceInfo) (hd : d ∈ s.dockerInfos.keys)
    (hinfo : (s.setDocker d info).place d = s.place d) : Still s (s.setDocker d info) := by
  refine .of_place (fun _ => rfl) (fun _ => rfl) (mem_keys_setDocker hd) (fun x => ?_)
  by_cases hx : x = d
  · subst hx
    exact hinfo
  · rw [place_setDocker, if_neg hx]

theorem still_offers (s : State) : Still s (offers s) := by
  refine .of_place (fun _ => rfl) (fun _ => rfl) (fun _ => Iff.rfl) (fun d => ?_)
  unfold State.place offers State.docker
  dsimp only
  rw [UMap.find_mapVal]
  cases s.dockerInfos.find d with
  | none => rfl
  | some info =>
    simp only [Option.map_some, Option.getD_some]
    split <;> rfl

theorem still_settleLoan (lender : Str) (r : State × UMap Str ℚ) (p : Str) :
    Still r.1 (settleLoan lender r p).1 := by
  unfold settleLoan
  dsimp only
  split
  · exact .refl r.1
  · rename_i limit hlimit
    refine still_setDocker _ ?_ ?_
    · by_contra hp
      rw [place_of_not_mem hp] at hlimit
      cases hlimit
    · rw [place_setDocker, if_pos rfl]
      rfl

theorem still_foldl {α β : Type} {f : State × β → α → State × β} (h : ∀ r a, Still r.1 (f r a).1) :
    ∀ (l : List α) (r : State × β), Still r.1 (l.foldl f r).1
  | [], r => .refl r.1
  | a :: l, r => (h r a).trans (still_foldl h l (f r a))

theorem still_settleLoans (lenders : List Str) (s : State) : Still s (settleLoans lenders s).1 := by
  refine still_foldl (fun r lender => ?_) lenders (s, (UMap.empty : UMap Str ℚ))
  exact still_foldl (still_settleLoan lender) r.1.dockerInfos.keys r

/-- One that borrows. -/
theorem placement_borrow {d : Str} {n : ℕ} {limit : ℚ} {ls : List Str} (hk : 0 < T.oneClusterCpuNum)
    (hp : Placement L s) (hc : Cool env.sel.Calm lenders s) (h : borrow T env ls n limit s d = .ok s') :
    Placement L s' ∧ Cool env.sel.Calm lenders s' := by
  obtain ⟨⟨s1, b⟩, h1, h⟩ := bind_ok h
  have hp1 := hp.add hk hc.free h1
  obtain ⟨nid, cpus, ids, -, hg, -, -, hplace⟩ := grown_add hk hp hc.free h1
  have hc1 := hc.grown hp hg (by rw [hplace])
  cases h
  have hstill := still_setDocker
    { s1.docker d with
      borrowDockerMap := ls.foldl (fun m lender => m.insert lender ((s1.docker lender).lendCpuLimit / n))
        (s1.docker d).borrowDockerMap }
    ((hg.keys d).mpr hg.mem) (by rw [place_setDocker, if_pos rfl]; rfl)
  exact ⟨hp1.still hstill, hc1.still hp1 hstill⟩

/-- One that has its own back. -/
theorem placement_takeBack {d : Str} (hk : 0 < T.oneClusterCpuNum) (hp : Placement L s)
    (hc : Cool env.sel.Calm lenders s) (h : takeBack T env s d = .ok s') :
    Placement L s' ∧ Cool env.sel.Calm lenders s' := by
  obtain ⟨⟨s1, b⟩, h1, h⟩ := bind_ok h
  have hp1 := hp.add hk hc.free h1
  obtain ⟨nid, cpus, ids, -, hg, -, -, hplace⟩ := grown_add hk hp hc.free h1
  have hc1 := hc.grown hp hg (by rw [hplace])
  cases h
  have hstill := still_setDocker { s1.docker d with dockerLended := false } ((hg.keys d).mpr hg.mem)
    (by rw [place_setDocker, if_pos rfl]; rfl)
  exact ⟨hp1.still hstill, hc1.still hp1 hstill⟩

/-- One that lends. -/
theorem placement_lend {d : Str} (hp : Placement L s) (hc : Cool env.sel.Calm lenders s) (hd : d ∈ lenders)
    (h : lend env s d = .ok s') : Placement L s' ∧ Cool env.sel.Calm lenders s' := by
  obtain ⟨⟨s1, b⟩, h1, h⟩ := bind_ok h
  have hp1 := hp.minus h1
  obtain ⟨nid, cpus, cpus', ids, ids', -, hs, -, -, -, hbind, -, hplace⟩ := shrunk_minus hp h1
  have hc1 := hc.shrunk hs hd (by rw [hplace, hbind]; exact List.subset_append_left _ _)
  dsimp only at h
  split at h
  · cases h
    have hstill := still_setDocker { s1.docker d with dockerLended := true } ((hs.keys d).mpr hs.mem)
      (by rw [place_setDocker, if_pos rfl]; rfl)
    exact ⟨hp1.still hstill, hc1.still hp1 hstill⟩
  · cases h
    exact ⟨hp1, hc1⟩

theorem couldLend_congr {info info' : DockerResourceInfo} (h : info'.account = info.account) :
    info'.couldLend = info.couldLend := by
  unfold DockerResourceInfo.account at h
  simp only [Account.mk.injEq] at h
  unfold DockerResourceInfo.couldLend
  simp only [h]

/-- After binding, the same containers could lend. -/
theorem mem_couldLendDockers_bound {d : Str}
    (h : dockerOptimizeBindSchedule T env s.dockerInfos.keys s = .ok s') :
    d ∈ couldLendDockers s' ↔ d ∈ couldLendDockers s := by
  have hch := changed_optimizeBind (fun _ a => a) (fun x hx => hx) h
  rw [mem_couldLendDockers, mem_couldLendDockers, hch.keys]
  exact and_congr_right (fun _ => by rw [couldLend_congr (congrFun hch.account_eq d)])

/-- A `Tune` moves cores and clusters, and keeps them in their places. -/
theorem Placement.tune (hk : 0 < T.oneClusterCpuNum) (hp : Placement L s)
    (hcool : Cool env.sel.Calm (couldLendDockers s) s)
    (hable : ∀ d ∈ s.dockerInfos.keys, (s.docker d).optimizeBinded = false →
      0 < (s.docker d).initialCpuLimit → Bindable T env s d)
    (h : tune T env s = .ok s') : Placement L s' := by
  obtain ⟨s1, h1, h⟩ := bind_ok h
  obtain ⟨hp1, hc1⟩ :=
    placement_bindSchedule hk hable hp hcool h1
  split at h
  · obtain ⟨s2, h2, h⟩ := bind_ok h
    have hborrow : Placement L s2 ∧ Cool env.sel.Calm (couldLendDockers s) s2 := by
      have hp0 := hp1.still (still_offers s1)
      have hc0 := hc1.still hp1 (still_offers s1)
      unfold tryBorrowCpuFromIdleDocker at h2
      dsimp only at h2
      split at h2
      · cases h2
        exact ⟨hp0, hc0⟩
      · obtain ⟨s3, h3, h2⟩ := bind_ok h2
        obtain ⟨hp3, hc3⟩ := foldlM_invariant
          (P := fun s => Placement L s ∧ Cool env.sel.Calm (couldLendDockers _) s)
          (fun _ _ _ _ hs hstep => placement_borrow hk hs.1 hs.2 hstep) ⟨hp0, hc0⟩ h3
        refine foldlM_invariant (P := fun s' => Placement L s' ∧ Cool env.sel.Calm (couldLendDockers s) s')
          (fun _ d _ hd hs hstep => ?_) ⟨hp3, hc3⟩ h2
        exact placement_lend hs.1 hs.2 ((mem_couldLendDockers_bound h1).mp hd) hstep
    obtain ⟨hp2, hc2⟩ := hborrow
    unfold tryReturnCpuToIdleDocker at h
    dsimp only at h
    split at h
    · cases h
      exact hp2
    · obtain ⟨s3, h3, h⟩ := bind_ok h
      have hstill := still_settleLoans (needReturnDockers s2) s2
      obtain ⟨hp3, -⟩ := foldlM_invariant
        (P := fun s => Placement L s ∧ Cool env.sel.Calm (couldLendDockers _) s)
        (fun _ _ _ _ hs hstep => placement_takeBack hk hs.1 hs.2 hstep)
        ⟨hp2.still hstill, hc2.still hp2 hstill⟩ h3
      refine foldlM_invariant (P := Placement L) (fun x d _ _ hs hstep => ?_) hp3 h
      obtain ⟨⟨s4, b⟩, h4, rfl⟩ := map_ok hstep
      exact hs.minus h4
  · cases h
    exact hp1

/-! ### `Update` and `Exit` -/

omit [Double D] in
/-- A container that is not bound goes. -/
theorem still_erase {d : Str} (hd : (s.place d).optimizeBinded = false) :
    Still s { s with dockerInfos := s.dockerInfos.erase d } := by
  have hplace : ∀ x, x ≠ d → State.place { s with dockerInfos := s.dockerInfos.erase d } x = s.place x := by
    intro x hx
    unfold State.place State.docker
    dsimp only
    rw [UMap.find_erase, if_neg hx]
  have hgone : State.docker { s with dockerInfos := s.dockerInfos.erase d } d = .new := by
    unfold State.docker
    dsimp only
    rw [UMap.find_erase, if_pos rfl, Option.getD_none]
  have hkeys : ∀ x, x ∈ (s.dockerInfos.erase d).keys ↔ x ≠ d ∧ x ∈ s.dockerInfos.keys :=
    UMap.mem_keys_erase s.dockerInfos d
  refine ⟨fun _ => rfl, fun _ => rfl, fun hk x hx => ?_, fun x hx => ?_, fun x hx => ?_⟩
  · obtain ⟨hxd, hx⟩ := (hkeys x).mp hx
    rw [hplace x hxd]
    exact hk x hx
  · have hxd : x ≠ d := by
      rintro rfl
      rw [hd] at hx
      cases hx
    exact ⟨hplace x hxd, fun hmem => (hkeys x).mpr ⟨hxd, hmem⟩⟩
  · by_cases hxd : x = d
    · subst hxd
      unfold State.place
      rw [hgone]
      exact ⟨rfl, rfl⟩
    · rwa [hplace x hxd]

/-- The containers that are bound are all there, so those that go are not. -/
theorem still_removeGone {collector : UMap Str DockerAdapt.Entry} {updated : Str → Bool}
    (hp : Placement L s)
    (hall : ∀ d ∈ s.dockerInfos.keys, (s.place d).optimizeBinded = true → collector.count d = true)
    (h : s.dockerInfos.keys.foldlM (removeGone T collector updated) s = .ok s') : Still s s' := by
  refine foldlM_invariant (P := Still s) (fun x d y hd hx hstep => ?_) (.refl s) h
  unfold removeGone at hstep
  split at hstep
  · cases hstep
    exact hx
  · rename_i hcount
    have hd0 : (s.place d).optimizeBinded = false := by
      by_contra hb
      exact hcount (hall d hd (Bool.not_eq_false _ ▸ hb))
    have hdx : (x.place d).optimizeBinded = false := (hx.unbound d ⟨hd0, hp.unbound d hd0⟩).1
    obtain ⟨z, hz, hstep⟩ := bind_ok hstep
    have hnot : (x.docker d).optimizeBinded = false := hdx
    simp only [recoverInitialBindStatus, hnot, Bool.false_eq_true, not_false_eq_true, true_or, if_true] at hz
    cases hz
    cases hstep
    exact hx.trans (still_erase hdx)

omit [Double D] in
theorem push_place (info : DockerResourceInfo) (usage : ℚ) (d x : Str) :
    (s.setDocker d (info.push usage)).place x = (s.setDocker d info).place x := by
  have hpush : ∃ queue sum, info.push usage = { info with cpuUsageQueue := queue, cpuUsageSum := sum } := by
    unfold DockerResourceInfo.push
    dsimp only
    split
    · exact ⟨_, _, rfl⟩
    · exact ⟨_, _, rfl⟩
  obtain ⟨queue, sum, hpush⟩ := hpush
  rw [place_setDocker, place_setDocker, hpush]

omit [Double D] in
/-- A container comes, or stays where it is. -/
theorem still_updateDocker {collector : UMap Str DockerAdapt.Entry} {d : Str} (hp : Placement L s)
    (h : updateDocker T collector s d = .ok s') : Still s s' := by
  unfold updateDocker at h
  split at h
  · rename_i pre c hpre hc
    dsimp only at h
    cases hin : (s.docker d).inited with
    | true =>
      rw [hin, if_pos rfl] at h
      obtain ⟨info, hinfo, h⟩ := bind_ok h
      cases hinfo
      obtain ⟨usage, -, h⟩ := bind_ok h
      cases h
      have hd : d ∈ s.dockerInfos.keys := by
        by_contra hd
        rw [place_of_not_mem hd] at hin
        cases hin
      refine still_setDocker _ hd ?_
      rw [push_place, place_setDocker, if_pos rfl]
      rfl
    | false =>
      have hd : d ∉ s.dockerInfos.keys := by
        intro hd
        have hk : (s.docker d).inited = true := hp.known d hd
        rw [hin] at hk
        cases hk
      rw [hin, if_neg Bool.false_ne_true] at h
      obtain ⟨info, hinfo, h⟩ := bind_ok h
      obtain ⟨usage, -, h⟩ := bind_ok h
      cases h
      obtain ⟨cpus, -, hinfo⟩ := bind_ok hinfo
      obtain ⟨mems, -, hinfo⟩ := bind_ok hinfo
      cases hinfo
      rw [place_of_not_mem hd]
      refine ⟨fun _ => rfl, fun _ => rfl, fun hk x hx => ?_, fun x hx => ?_, fun x hx => ?_⟩
      · rw [push_place, place_setDocker]
        split
        · rfl
        · rename_i hxd
          refine hk x ?_
          unfold State.setDocker at hx
          exact ((UMap.mem_keys_insert _ _ _ _).mp hx).resolve_left hxd
      · have hxd : x ≠ d := by
          rintro rfl
          rw [State.place, place_of_not_mem hd] at hx
          cases hx
        rw [push_place, place_setDocker, if_neg hxd]
        refine ⟨rfl, fun hmem => ?_⟩
        unfold State.setDocker
        exact (UMap.mem_keys_insert _ _ _ _).mpr (.inr hmem)
      · rw [push_place, place_setDocker]
        split
        · exact ⟨rfl, rfl⟩
        · exact hx
  · cases h
    exact .refl s

theorem Placement.still_update {data : List DockerAdapt.Entry} {updated : Str → Bool} {order : List Str}
    (hp : Placement L s)
    (hall : ∀ d ∈ s.dockerInfos.keys, (s.docker d).optimizeBinded = true → (collect data).count d = true)
    (h : update T data updated order s = .ok s') : Still s s' := by
  unfold ClusterAffinity.update at h
  dsimp only at h
  split at h
  · cases h
    exact ⟨fun _ => rfl, fun _ => rfl, fun hk => hk, fun _ _ => ⟨rfl, fun hd => hd⟩, fun _ hd => hd⟩
  · obtain ⟨s1, h1, h⟩ := bind_ok h
    obtain ⟨s2, h2, h⟩ := bind_ok h
    have hs1 := still_removeGone hp hall h1
    have hs2 := foldlM_invariant (P := Still s)
      (fun _ _ _ _ hx hstep => hx.trans (still_updateDocker (hp.still hx) hstep)) hs1 h2
    cases h
    refine hs2.trans (.of_place (fun _ => rfl) (fun _ => rfl) (fun d => UMap.mem_keys_reorder _ _ d) (fun d => ?_))
    unfold State.place State.docker
    rw [UMap.find_reorder]

theorem Placement.update {data : List DockerAdapt.Entry} {updated : Str → Bool} {order : List Str}
    (hp : Placement L s)
    (hall : ∀ d ∈ s.dockerInfos.keys, (s.docker d).optimizeBinded = true → (collect data).count d = true)
    (h : update T data updated order s = .ok s') : Placement L s' :=
  hp.still (hp.still_update hall h)

/-- After `Exit` there is nothing. -/
theorem placement_exit {updated : Str → Bool} (h : exit T updated s = .ok s') : Placement (Layout.none T) s' := by
  obtain ⟨s1, -, h⟩ := bind_ok h
  cases h
  refine ⟨fun c => ?_, fun i => ?_, fun i c hc => ?_, fun d hd => ?_, fun d _ => rfl, fun d hd => ?_,
    fun i c hc => ?_, fun d d' c hc => ?_⟩
  · exact List.Perm.refl []
  · exact List.Perm.refl []
  · cases hc
  · cases hd
  · cases hd
  · cases hc
  · cases hc

/-! ### Runs -/

/-- Each core and each cluster that there was at first is free or occupied, once, and each cluster that is
    occupied is that of one container. -/
structure Partitioned (s0 s : State) : Prop where
  cores : ∀ c, Parts (s0.cluster c).freeCpuCores (s.cluster c).freeCpuCores (s.cluster c).occupiedCpuCores ∧
    ((s.cluster c).freeCpuCores ++ (s.cluster c).occupiedCpuCores).Nodup
  clusters : ∀ i, Parts (s0.numa i).freeInfoVec (s.numa i).freeInfoVec (s.numa i).occupiedInfoVec ∧
    ((s.numa i).freeInfoVec ++ (s.numa i).occupiedInfoVec).Nodup
  owner : ∀ i, ∀ c ∈ (s.numa i).occupiedInfoVec,
    ∃! d, d ∈ s.dockerInfos.keys ∧ c ∈ (s.docker d).bindClusters

/-- There are no clusters any more. -/
def Cleared (s : State) : Prop := (∀ c, s.cluster c = ⟨[], []⟩) ∧ ∀ i, s.numa i = ⟨[], []⟩

/-- No container vanishes that is bound; a `Tune` finds the cores that are free or of a container that could
    lend not under full load, and the containers it binds are on the first of their nodes afterwards. -/
def Steady (T : Topology) (s : State) : Act D → Prop
  | .update data _ _ => ∀ d ∈ s.dockerInfos.keys, (s.docker d).optimizeBinded = true →
      (collect data).count d = true
  | .tune env => Cool env.sel.Calm (couldLendDockers s) s ∧ ∀ d ∈ s.dockerInfos.keys,
      (s.docker d).optimizeBinded = false → 0 < (s.docker d).initialCpuLimit → Bindable T env s d
  | .exit _ => True

theorem placement_init {dockerBorrowSwitch : Bool} (hT : Numbered T) (h : init T dockerBorrowSwitch = some s) :
    Placement hT.layout s ∧ ∀ c, (s.cluster c).freeCpuCores = hT.layout.cores c ∧
      ∀ i, (s.numa i).freeInfoVec = hT.layout.clusters i := by
  unfold init at h
  split at h
  · cases h
  · cases h
    have hpools := initSystemClusters_onlyPools T ⟨dockerBorrowSwitch, true, .empty, .empty, .empty, .empty⟩
    have hdocker : ∀ d, (initSystemClusters T ⟨dockerBorrowSwitch, true, .empty, .empty, .empty, .empty⟩).docker
        d = .new := fun d => hpools.docker d
    have hblocks : ∀ v ∈ T.cpuTopology, ∀ b ∈ blocks T v,
        b = List.range' (b.headD 0 / T.oneClusterCpuNum * T.oneClusterCpuNum) T.oneClusterCpuNum :=
      fun v hv b hb => hT.blocks_eq hv hb
    have hcluster : ∀ c, (initSystemClusters T ⟨dockerBorrowSwitch, true, .empty, .empty, .empty, .empty⟩).cluster
        c = ⟨hT.layout.cores c, []⟩ := by
      intro c
      simp only [Numbered.layout]
      rw [cluster_initSystemClusters hblocks, cluster_initSystemClusters hblocks]
      split <;> rfl
    have hnuma : ∀ i, (initSystemClusters T ⟨dockerBorrowSwitch, true, .empty, .empty, .empty, .empty⟩).numa
        i = ⟨hT.layout.clusters i, []⟩ := by
      intro i
      simp only [Numbered.layout]
      rw [numa_initSystemClusters T (fun _ => rfl), numa_initSystemClusters T (fun _ => rfl)]
    refine ⟨⟨fun c => ?_, fun i => ?_, fun i c _ => ?_, fun d hd => ?_, fun d _ => ?_, fun d hd => ?_,
      fun i c hc => ?_, fun d d' c hc => ?_⟩, fun c => ⟨?_, fun i => ?_⟩⟩
    · rw [hcluster, Parts, List.append_nil]
    · rw [hnuma, Parts, List.append_nil]
    · rw [hcluster]
    · rw [hpools.dockerInfos] at hd
      cases hd
    · rw [State.place, hdocker]
      rfl
    · rw [State.place, hdocker] at hd
      cases hd
    · rw [hnuma] at hc
      cases hc
    · rw [State.place, hdocker] at hc
      cases hc
    · rw [hcluster]
    · rw [hnuma]

theorem placement_of_runs {dockerBorrowSwitch : Bool} {s0 : State} (hT : Numbered T)
    (h0 : init T dockerBorrowSwitch = some s0) (hrun : Runs (step (D := D) T) s0 (Steady T) s) :
    Placement hT.layout s ∨ Placement (Layout.none T) s := by
  refine hrun.invariant (I := fun s => Placement hT.layout s ∨ Placement (Layout.none T) s)
    (.inl (placement_init hT h0).1) ?_
  intro s a s' hp hok hstep
  cases a with
  | update data updated order => exact hp.imp (fun hp => hp.update hok hstep) (fun hp => hp.update hok hstep)
  | tune env =>
    exact hp.imp (fun hp => hp.tune hT.pos hok.1 hok.2 hstep) (fun hp => hp.tune hT.pos hok.1 hok.2 hstep)
  | exit updated => exact .inr (placement_exit hstep)

end

/-! ### One container -/

/-- One with two CPUs, as it reports for the `i`-th time. -/
def sampleOne (i : ℕ) : List DockerAdapt.Entry := [sampleContainer "a" 200000 0 i]

def sampleBinding : State := initSystemClusters sampleTopology ⟨false, true, .empty, .empty, .empty, .empty⟩

theorem numbered_sample : Numbered sampleTopology := by
  refine ⟨by decide, rfl, fun i v hv => ?_, fun i v hv => ?_⟩
  · match i, hv with
    | 0, hv => cases hv; decide
  · match i, hv with
    | 0, hv => cases hv; decide

/-- Nobody goes who is bound. -/
def keepsBound (data : List DockerAdapt.Entry) (s : State) : Bool :=
  s.dockerInfos.keys.all (fun d => !(s.docker d).optimizeBinded || (collect data).count d)

theorem steady_of_keepsBound {T : Topology} {data : List DockerAdapt.Entry} {updated : Str → Bool}
    {order : List Str} {s : State} (h : keepsBound data s = true) :
    Steady T s (.update data updated order : Act ℚ) := by
  intro d hd hb
  have hall := (List.all_eq_true.mp h) d hd
  rwa [hb] at hall

theorem steady_sampleTune (s : State) : Steady sampleTopology s (sampleTune : Act ℚ) := by
  have hcalm : ∀ x, (⟨fun _ => Double.ofInt 0, fun _ => 0⟩ : ClusterSelector ℚ).Calm x := fun _ => rfl
  exact ⟨⟨fun _ x _ => hcalm x, fun _ _ _ _ x _ => hcalm x⟩, fun _ _ _ _ => .inl rfl⟩

/-- It is seen twice, and bound. -/
def sampleTuned : Except Fault State := do
  let s ← [0, 1].foldlM (fun s i => if keepsBound (sampleOne i) s
    then step sampleTopology s (sampleUpdate (sampleOne i) : Act ℚ) else .error .badIndex) sampleBinding
  step sampleTopology s (sampleTune : Act ℚ)

theorem sampleTuned_ok : sampleTuned.toOption.any (fun s =>
    (s.docker (str "a")).bindClusters = [0] && (s.cluster 0).occupiedCpuCores = [0, 1]) = true := by
  decide +kernel

/-- The same, and then it goes. -/
def sampleVanished : List (Act ℚ) :=
  [sampleUpdate (sampleOne 0), sampleUpdate (sampleOne 1), sampleTune, sampleUpdate []]

theorem sampleVanished_ok : (sampleVanished.foldlM (step sampleTopology) sampleBinding).toOption.any (fun s =>
    (s.cluster 0).freeCpuCores = [2, 3, 0, 1] && (s.cluster 0).occupiedCpuCores = [0, 1]) = true := by
  decide +kernel

end ClusterAffinity
end OeAware

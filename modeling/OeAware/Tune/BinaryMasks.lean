import OeAware.Tune.BinaryTune

/-! @src src/plugin/tune/system/binary/binary_tune.cpp | name:UpdateData, FindSpecialBin, BindCpuCore | scheme:shares

    The physical cores of a node are, in `phyNumaMask`, the even CPUs that the map says are on it. `BindCpuCore` counts
    instead: the cores of a node begin at its number times the CPUs of a node, and every second CPU is one.

        phyNumaMask[1]     { cpu even │ cpu2Numa[cpu] = 1 }
        BindCpuCore(1)     per │ per + 2 │ per + 4 …          first container: two cores, second: one, …

    The policy of a thread is that of the first thread in its container that has the same name. -/

namespace OeAware
open Schemes

namespace BinaryTune

/-! ### The map -/

/-- The physical cores of a node. -/
def phy (s : State) (node : ℤ) : CpuSet :=
  match vecAt s.phyNumaMask node with
  | .ok mask => mask
  | .error _ => ∅

/-- The CPU is one, by the map. -/
def IsCore (s : State) (node : ℤ) (cpu : ℕ) : Prop :=
  cpu < 1024 ∧ cpu % 2 = 0 ∧ s.cpu2Numa[cpu]? = some node

/-- The masks of the nodes are made of the map. -/
def Loaded (s : State) : Prop := ∀ node cpu, cpu ∈ phy s node ↔ IsCore s node cpu

theorem vecAt_ok {α : Type} {l : List α} {i : ℤ} {a : α} : vecAt l i = .ok a ↔ 0 ≤ i ∧ l[i.toNat]? = some a := by
  rw [vecAt]
  split
  · rename_i hi
    cases hget : l[i.toNat]? with
    | none =>
      refine ⟨fun h => ?_, fun h => ?_⟩
      · cases h
      · cases h.2
    | some b =>
      refine ⟨fun h => ⟨hi, ?_⟩, fun h => ?_⟩
      · cases h
        rfl
      · rw [Option.some.inj h.2]
  · rename_i hi
    refine ⟨fun h => ?_, fun h => absurd h.1 hi⟩
    cases h

theorem mem_CPU_SET {cpu : ℤ} {mask : CpuSet} {x : ℕ} :
    x ∈ CPU_SET cpu mask ↔ x ∈ mask ∨ ((x : ℤ) = cpu ∧ x < 1024) := by
  rw [CPU_SET]
  split
  · rename_i hcpu
    rw [Finset.mem_insert]
    constructor
    · rintro (rfl | hx)
      · exact .inr (by omega)
      · exact .inl hx
    · rintro (hx | ⟨heq, -⟩)
      · exact .inr hx
      · exact .inl (by omega)
  · rename_i hcpu
    refine ⟨.inl, ?_⟩
    rintro (hx | ⟨heq, hlt⟩)
    · exact hx
    · exact absurd (by omega) hcpu

theorem mem_phy {s : State} {node : ℤ} {cpu : ℕ} :
    cpu ∈ phy s node ↔ ∃ mask, vecAt s.phyNumaMask node = .ok mask ∧ cpu ∈ mask := by
  rw [phy]
  cases vecAt s.phyNumaMask node with
  | error e => simp
  | ok mask => simp

/-- One mask is replaced. -/
theorem phy_set {s s' : State} {node : ℤ} {mask newMask : CpuSet} (h : vecAt s.phyNumaMask node = .ok mask)
    (hs : s'.phyNumaMask = s.phyNumaMask.set node.toNat newMask) (m : ℤ) :
    phy s' m = if m = node then newMask else phy s m := by
  obtain ⟨hpos, hget⟩ := vecAt_ok.mp h
  obtain ⟨hlt, -⟩ := List.getElem?_eq_some_iff.mp hget
  rcases eq_or_ne m node with rfl | hne
  · have hnew : vecAt s'.phyNumaMask m = .ok newMask :=
      vecAt_ok.mpr ⟨hpos, by rw [hs, List.getElem?_set_self hlt]⟩
    rw [if_pos rfl, phy, hnew]
  · have hsame : vecAt s'.phyNumaMask m = vecAt s.phyNumaMask m := by
      rw [vecAt, vecAt, hs]
      rcases Int.lt_or_le m 0 with hneg | hm
      · rw [if_neg (not_le.mpr hneg), if_neg (not_le.mpr hneg)]
      · have hidx : node.toNat ≠ m.toNat := by omega
        rw [List.getElem?_set_ne hidx]
    rw [if_neg hne, phy, phy, hsame]

/-- What the loop over the CPUs has made of the first ones. -/
structure LoadedBelow (n : ℕ) (len : ℕ) (s : State) : Prop where
  length : s.cpu2Numa.length = len
  masks : ∀ node cpu, cpu ∈ phy s node ↔ cpu < n ∧ IsCore s node cpu

theorem LoadedBelow.step {data : EnvStaticInfo} {n len : ℕ} {s s' : State} (h : LoadedBelow n len s) (hn : n < len)
    (hs : addCpu data s n = .ok s') : LoadedBelow (n + 1) len s' := by
  obtain ⟨node, -, hs⟩ := bind_ok hs
  have hget : ∀ cpu, cpu ≠ n → (s.cpu2Numa.set n node.toInt32.toInt)[cpu]? = s.cpu2Numa[cpu]? := fun cpu hne =>
    List.getElem?_set_ne hne.symm
  have hself : (s.cpu2Numa.set n node.toInt32.toInt)[n]? = some node.toInt32.toInt :=
    List.getElem?_set_self (by rw [h.length]; exact hn)
  dsimp only at hs
  split at hs
  · rename_i heven
    obtain ⟨mask, hmask, hs⟩ := bind_ok hs
    cases hs
    refine ⟨by simpa using h.length, fun m cpu => ?_⟩
    rw [phy_set hmask rfl, IsCore]
    dsimp only
    rcases eq_or_ne cpu n with rfl | hne
    · -- the CPU of this round
      have hnot : ∀ m, cpu ∉ phy s m := fun m hmem => absurd ((h.masks m cpu).mp hmem).1 (lt_irrefl _)
      have hmaskNot : cpu ∉ mask := fun hmem => hnot _ (mem_phy.mpr ⟨mask, hmask, hmem⟩)
      rw [hself]
      split
      · rename_i heq
        rw [mem_CPU_SET]
        constructor
        · rintro (hmem | ⟨-, hlt⟩)
          · exact absurd hmem hmaskNot
          · exact ⟨Nat.lt_succ_self _, hlt, heven, by rw [heq]⟩
        · rintro ⟨-, hlt, -⟩
          exact .inr ⟨rfl, hlt⟩
      · rename_i heq
        exact ⟨fun hmem => absurd hmem (hnot m), fun hcore => absurd (Option.some.inj hcore.2.2.2).symm heq⟩
    · rw [hget cpu hne]
      have hold := h.masks m cpu
      rw [IsCore] at hold
      have hlt : cpu < n + 1 ↔ cpu < n := by omega
      rw [hlt, ← hold]
      split
      · rename_i heq
        have hsame : phy s m = mask := by rw [phy, heq, hmask]
        rw [mem_CPU_SET, hsame]
        refine ⟨fun hmem => hmem.resolve_right ?_, .inl⟩
        rintro ⟨heq, -⟩
        exact hne (Int.ofNat.inj heq)
      · rfl
  · rename_i hodd
    cases hs
    refine ⟨by simpa using h.length, fun m cpu => ?_⟩
    have hold := h.masks m cpu
    rcases eq_or_ne cpu n with rfl | hne
    · refine ⟨fun hmem => absurd (hold.mp hmem).1 (lt_irrefl _), fun hcore => absurd hcore.2.2.1 hodd⟩
    · rw [show phy { s with cpu2Numa := s.cpu2Numa.set n node.toInt32.toInt } m = phy s m from rfl, hold, IsCore, IsCore]
      dsimp only
      rw [hget cpu hne]
      have hlt : cpu < n ↔ cpu < n + 1 := by omega
      rw [hlt]

theorem loadedBelow_foldlM {data : EnvStaticInfo} {len : ℕ} {s s' : State} (h : LoadedBelow 0 len s) : ∀ {n : ℕ},
    n ≤ len → (List.range n).foldlM (addCpu data) s = .ok s' → LoadedBelow n len s'
  | 0, _, hrun => by
    cases hrun
    exact h
  | n + 1, hn, hrun => by
    rw [List.range_succ, List.foldlM_append] at hrun
    obtain ⟨s1, h1, h2⟩ := bind_ok hrun
    obtain ⟨s2, h2, hnil⟩ := bind_ok h2
    cases hnil
    exact (loadedBelow_foldlM h (Nat.le_of_succ_le hn) h1).step hn h2

/-- Whatever the map of the static info. -/
theorem loaded_updateStatic {data : EnvStaticInfo} {s s' : State} (hinit : s.envInit = false)
    (h : updateStatic data s = .ok s') : Loaded s' := by
  rw [updateStatic, hinit, if_neg Bool.false_ne_true] at h
  obtain ⟨s1, h1, h2⟩ := bind_ok h
  cases h2
  have hempty : LoadedBelow 0 (loops data.cpuNumConfig) { s with
      envInit := false
      numaNum := data.numaNum.toInt32.toInt
      cpuCoreNum := data.cpuNumConfig.toInt32.toInt
      cpu2Numa := s.cpu2Numa.takeD (loops data.cpuNumConfig) 0
      phyNumaMask := List.replicate (loops data.numaNum) ∅ } := by
    refine ⟨List.takeD_length _ _ _, fun node cpu => ⟨fun hmem => ?_, fun h => absurd h.1 (Nat.not_lt_zero _)⟩⟩
    obtain ⟨mask, hmask, hmem⟩ := mem_phy.mp hmem
    rw [List.eq_of_mem_replicate (List.mem_of_getElem? (vecAt_ok.mp hmask).2)] at hmem
    exact absurd hmem (Finset.notMem_empty _)
  have hall := loadedBelow_foldlM hempty le_rfl h1
  intro node cpu
  rw [show phy { s1 with envInit := true } node = phy s1 node from rfl, hall.masks]
  refine ⟨fun h => h.2, fun h => ⟨?_, h⟩⟩
  have hlt := (List.getElem?_eq_some_iff.mp h.2.2).1
  rwa [hall.length] at hlt

/-! ### Policies -/

variable {env : Env} {s : State}

/-- The policy of a thread's own executable, -1 where `/proc` does not lead to it. -/
def own (env : Env) (s : State) (tid : Int32) : Option Int32 :=
  match env.exe tid with
  | none => some (-1)
  | some filePath => (exePolicy env s filePath).toOption

/-- Where the first of the two threads has an executable, and both have one name, they have one policy. -/
def Agree (env : Env) (s : State) (i j : Int32) : Prop :=
  ∀ name, s.threads.find i = some name → s.threads.find j = some name → (env.exe i).isSome → own env s i = own env s j

/-- Each task that the loop does not pass over has its own policy, where those do that find one under their name, and
    all tasks agree with the ones behind. -/
theorem policies_own_iff : ∀ {tasks : List Int32} {threadPolicy : UMap Str Int32} {found : List (Int32 × Int32)},
    policies env s threadPolicy tasks = .ok found →
    ((∀ task ∈ found, own env s task.1 = some task.2) ↔
      (∀ j ∈ tasks, ∀ name policy, s.threads.find j = some name → threadPolicy.find name = some policy →
        own env s j = some policy) ∧ tasks.Pairwise (Agree env s))
  | [], _, found, h => by
    cases h
    simp
  | j :: tasks, threadPolicy, found, h => by
    rw [policies] at h
    rw [List.pairwise_cons, List.forall_mem_cons]
    cases hname : s.threads.find j with
    | none =>
      rw [hname] at h
      have hagree : ∀ k ∈ tasks, Agree env s j k := fun k _ name hj => by
        rw [hname] at hj
        cases hj
      rw [policies_own_iff h]
      exact ⟨fun ⟨hown, hpair⟩ => ⟨⟨nofun, hown⟩, hagree, hpair⟩,
        fun ⟨⟨_, hown⟩, _, hpair⟩ => ⟨hown, hpair⟩⟩
    | some name =>
      rw [hname] at h
      dsimp only at h
      cases hpolicy : threadPolicy.find name with
      | some policy =>
        rw [hpolicy] at h
        obtain ⟨found', hfound, h⟩ := bind_ok h
        cases h
        rw [List.forall_mem_cons, policies_own_iff hfound]
        constructor
        · rintro ⟨hj, hown, hpair⟩
          refine ⟨⟨fun name' policy' hn hp => ?_, hown⟩, fun k hk name' hn hk' _ => ?_, hpair⟩
          · cases hn
            rw [hpolicy] at hp
            cases hp
            exact hj
          · cases hname.symm.trans hn
            rw [hj, hown k hk name policy hk' hpolicy]
        · rintro ⟨⟨hj, hown⟩, -, hpair⟩
          exact ⟨hj name policy rfl hpolicy, hown, hpair⟩
      | none =>
        rw [hpolicy] at h
        dsimp only at h
        cases hexe : env.exe j with
        | none =>
          rw [hexe] at h
          have hagree : ∀ k ∈ tasks, Agree env s j k := fun k _ name _ _ hsome => by
            rw [hexe] at hsome
            cases hsome
          rw [policies_own_iff h]
          refine ⟨fun ⟨hown, hpair⟩ => ⟨⟨fun name' policy hn hp => ?_, hown⟩, hagree, hpair⟩,
            fun ⟨⟨_, hown⟩, _, hpair⟩ => ⟨hown, hpair⟩⟩
          cases hn
          rw [hpolicy] at hp
          cases hp
        | some filePath =>
          rw [hexe] at h
          obtain ⟨policy, hparse, h⟩ := bind_ok h
          obtain ⟨found', hfound, h⟩ := bind_ok h
          cases h
          have hown : own env s j = some policy := by
            rw [own, hexe]
            dsimp only
            rw [hparse]
            rfl
          -- from here on the name has this policy
          rw [List.forall_mem_cons, policies_own_iff hfound]
          constructor
          · rintro ⟨-, hrest, hpair⟩
            refine ⟨⟨fun name' policy' hn hp => ?_, fun k hk name' policy' hn hp => ?_⟩, fun k hk name' hn hk' _ => ?_, hpair⟩
            · cases hn
              rw [hpolicy] at hp
              cases hp
            · refine hrest k hk name' policy' hn ?_
              rw [UMap.find_insert, if_neg (by rintro rfl; rw [hpolicy] at hp; cases hp), hp]
            · cases hname.symm.trans hn
              rw [hown, hrest k hk name policy hk' (UMap.find_insert_self _ _ _)]
          · rintro ⟨⟨-, hrest⟩, hagree, hpair⟩
            refine ⟨hown, fun k hk name' policy' hn hp => ?_, hpair⟩
            rw [UMap.find_insert] at hp
            split at hp
            · rename_i heq
              cases hp
              rw [← hagree k hk name hname (heq ▸ hn) (by rw [hexe]; rfl), hown]
            · exact hrest k hk name' policy' hn hp

/-- The tasks that the loop finds are known, and all that are known and have an executable are found. -/
theorem mem_policies : ∀ {tasks : List Int32} {threadPolicy : UMap Str Int32} {found : List (Int32 × Int32)},
    policies env s threadPolicy tasks = .ok found →
    (∀ task ∈ found, task.1 ∈ tasks ∧ (s.threads.find task.1).isSome) ∧
    (∀ j ∈ tasks, (s.threads.find j).isSome → (env.exe j).isSome → ∃ policy, (j, policy) ∈ found)
  | [], _, found, h => by
    cases h
    exact ⟨nofun, nofun⟩
  | j :: tasks, threadPolicy, found, h => by
    have key : ∀ {threadPolicy : UMap Str Int32} {found' : List (Int32 × Int32)} {policy : Int32},
        policies env s threadPolicy tasks = .ok found' → (s.threads.find j).isSome → found = (j, policy) :: found' →
        (∀ task ∈ found, task.1 ∈ j :: tasks ∧ (s.threads.find task.1).isSome) ∧
        ∀ k ∈ j :: tasks, (s.threads.find k).isSome → (env.exe k).isSome → ∃ policy, (k, policy) ∈ found := by
      rintro threadPolicy found' policy hrest hknown rfl
      obtain ⟨hin, hall⟩ := mem_policies hrest
      refine ⟨fun task htask => ?_, fun k hk hkk hexe => ?_⟩
      · rcases List.mem_cons.mp htask with rfl | htask
        · exact ⟨List.mem_cons_self, hknown⟩
        · exact ⟨List.mem_cons_of_mem _ (hin task htask).1, (hin task htask).2⟩
      · rcases List.mem_cons.mp hk with rfl | hk
        · exact ⟨policy, List.mem_cons_self⟩
        · obtain ⟨p, hp⟩ := hall k hk hkk hexe
          exact ⟨p, List.mem_cons_of_mem _ hp⟩
    have skip : policies env s threadPolicy tasks = .ok found → (s.threads.find j = none ∨ env.exe j = none) →
        (∀ task ∈ found, task.1 ∈ j :: tasks ∧ (s.threads.find task.1).isSome) ∧
        ∀ k ∈ j :: tasks, (s.threads.find k).isSome → (env.exe k).isSome → ∃ policy, (k, policy) ∈ found := by
      intro hrest hskip
      obtain ⟨hin, hall⟩ := mem_policies hrest
      refine ⟨fun task htask => ⟨List.mem_cons_of_mem _ (hin task htask).1, (hin task htask).2⟩, fun k hk hkk hexe => ?_⟩
      rcases List.mem_cons.mp hk with rfl | hk
      · rcases hskip with hnone | hnone
        · rw [hnone] at hkk
          cases hkk
        · rw [hnone] at hexe
          cases hexe
      · exact hall k hk hkk hexe
    rw [policies] at h
    cases hname : s.threads.find j with
    | none =>
      rw [hname] at h
      exact skip h (.inl hname)
    | some name =>
      have hknown : (s.threads.find j).isSome := by rw [hname]; rfl
      rw [hname] at h
      dsimp only at h
      cases hpolicy : threadPolicy.find name with
      | some policy =>
        rw [hpolicy] at h
        obtain ⟨found', hfound, h⟩ := bind_ok h
        cases h
        exact key hfound hknown rfl
      | none =>
        rw [hpolicy] at h
        dsimp only at h
        cases hexe : env.exe j with
        | none =>
          rw [hexe] at h
          exact skip h (.inr hexe)
        | some filePath =>
          rw [hexe] at h
          obtain ⟨policy, -, h⟩ := bind_ok h
          obtain ⟨found', hfound, h⟩ := bind_ok h
          cases h
          exact key hfound hknown rfl

/-! ### What is waiting -/

/-- What the loop finds in a container. -/
def foundIn (env : Env) (s : State) (container : InternalContainer) : List (Int32 × Int32) :=
  match policies env s .empty container.tasks with
  | .ok found => found
  | .error _ => []

/-- The container has all CPUs of the node. -/
def OnNode (s : State) (node : ℤ) (container : InternalContainer) : Prop := fullNuma s container = .ok (some node)

instance (s : State) (node : ℤ) : DecidablePred (OnNode s node) := fun _ => inferInstanceAs (Decidable (_ = _))

def cores (container : InternalContainer) : Int64 := container.cfsQuotaUs / container.cfsPeriodUs

/-- The containers of the node with threads to be bound to some cores, and these. -/
def bindings (env : Env) (s : State) (node : ℤ) (containers : List InternalContainer) :
    List (InternalContainer × List Int32) :=
  (containers.filter (OnNode s node)).filterMap (fun container =>
    if withPolicy [2] (foundIn env s container) = [] then none
    else some (container, withPolicy [2] (foundIn env s container)))

/-- What the loop has put into the maps for the node. -/
structure Holding (env : Env) (s : State) (done : List InternalContainer) (w : Waiting) : Prop where
  load : ∀ node, w.dockerCpuOnNuma.find node =
    if (done.filter (OnNode s node)) = [] then none
    else some ((done.filter (OnNode s node)).foldl (fun load container => load + cores container) 0)
  byNuma : ∀ node, (w.threadWaitTuneByNuma.find node).getD [] =
    (done.filter (OnNode s node)).flatMap (fun container => withPolicy [1] (foundIn env s container))
  byCore : ∀ node, (w.threadWaitTuneByCore.find node).getD [] =
    (bindings env s node done).map (fun b => ((cores b.1).toInt32, b.2))

/-- What one container adds. -/
theorem addContainer_cases {outcome : Outcome} {r r' : Waiting × Affinities} {container : InternalContainer}
    (h : addContainer env outcome s r container = .ok r') :
    (∃ node, OnNode s node container ∧ r' = ({
      dockerCpuOnNuma := r.1.dockerCpuOnNuma.insert node ((r.1.dockerCpuOnNuma.find node).getD 0 + cores container)
      threadWaitTuneByNuma := r.1.threadWaitTuneByNuma.pushAll node (withPolicy [1] (foundIn env s container))
      threadWaitTuneByCore :=
        if withPolicy [2] (foundIn env s container) = [] then r.1.threadWaitTuneByCore
        else r.1.threadWaitTuneByCore.push node ((cores container).toInt32, withPolicy [2] (foundIn env s container)) },
      r.2)) ∨
    fullNuma s container = .ok none ∧
      r' = (r.1, bindAllCores outcome s r.2 (withPolicy [1, 2] (foundIn env s container))) := by
  obtain ⟨w, a⟩ := r
  obtain ⟨full, hfull, h⟩ := bind_ok h
  obtain ⟨found, hfound, h⟩ := bind_ok h
  have hin : foundIn env s container = found := by rw [foundIn, hfound]
  rw [hin]
  cases full with
  | some node =>
    dsimp only at h
    split at h
    · cases h
    · cases h
      exact .inl ⟨node, hfull, rfl⟩
  | none =>
    cases h
    exact .inr ⟨hfull, rfl⟩

/-- A container is on one node at most. -/
theorem OnNode.unique {node node' : ℤ} {container : InternalContainer} (h : OnNode s node container)
    (h' : OnNode s node' container) : node = node' :=
  Option.some.inj (Except.ok.inj (h.symm.trans h'))

theorem filter_onNode_append (node : ℤ) (done : List InternalContainer) (container : InternalContainer) :
    (done ++ [container]).filter (OnNode s node) =
      done.filter (OnNode s node) ++ if OnNode s node container then [container] else [] := by
  rw [List.filter_append, List.filter_singleton]
  congr 1
  split
  · rename_i h
    rw [decide_eq_true h]
    rfl
  · rename_i h
    rw [decide_eq_false h]
    rfl

theorem getD_pushAll {α : Type} (m : UMap ℤ (List α)) (k k' : ℤ) (xs : List α) :
    ((m.pushAll k xs).find k').getD [] = (m.find k').getD [] ++ if k' = k then xs else [] := by
  rcases eq_or_ne xs [] with rfl | hne
  · rw [UMap.pushAll_nil, ite_self, List.append_nil]
  · rw [UMap.find_pushAll m hne]
    rcases eq_or_ne k' k with rfl | hk
    · rw [if_pos rfl, if_pos rfl, Option.getD_some]
    · rw [if_neg hk, if_neg hk, List.append_nil]

theorem Holding.step {outcome : Outcome} {done : List InternalContainer} {r r' : Waiting × Affinities}
    {container : InternalContainer} (h : Holding env s done r.1) (hstep : addContainer env outcome s r container = .ok r') :
    Holding env s (done ++ [container]) r'.1 := by
  rcases addContainer_cases hstep with ⟨node, hon, rfl⟩ | ⟨hnone, rfl⟩
  · have hiff : ∀ m, OnNode s m container ↔ m = node := fun m => ⟨fun hm => hm.unique hon, fun heq => heq ▸ hon⟩
    refine ⟨fun m => ?_, fun m => ?_, fun m => ?_⟩
    · dsimp only
      rw [filter_onNode_append, UMap.find_insert, h.load]
      rcases eq_or_ne m node with rfl | hne
      · rw [if_pos rfl, if_pos hon, if_neg (List.append_ne_nil_of_right_ne_nil _ (List.cons_ne_nil _ _)),
          List.foldl_append]
        split
        · rename_i hnil
          rw [hnil]
          rfl
        · rfl
      · rw [if_neg hne, if_neg (fun hm => hne ((hiff m).mp hm)), List.append_nil]
        exact h.load m
    · dsimp only
      rw [filter_onNode_append, List.flatMap_append, getD_pushAll, h.byNuma]
      rcases eq_or_ne m node with rfl | hne
      · rw [if_pos rfl, if_pos hon, List.flatMap_singleton]
      · rw [if_neg hne, if_neg (fun hm => hne ((hiff m).mp hm))]
        rfl
    · dsimp only
      rw [bindings, filter_onNode_append, List.filterMap_append, List.map_append]
      have hold := h.byCore m
      rw [bindings] at hold
      rw [← hold]
      rcases eq_or_ne m node with rfl | hne
      · rw [if_pos hon]
        split
        · rename_i hnil
          simp [hnil]
        · rename_i hnil
          rw [UMap.find_push, if_pos rfl]
          simp [hnil]
      · rw [if_neg (fun hm => hne ((hiff m).mp hm))]
        split
        · simp
        · rw [UMap.find_push, if_neg hne]
          simp
  · have hnot : ∀ m, ¬ OnNode s m container := fun m hm => by
      have heq := hm.symm.trans hnone
      cases heq
    refine ⟨fun m => ?_, fun m => ?_, fun m => ?_⟩
    · rw [filter_onNode_append, if_neg (hnot m), List.append_nil]
      exact h.load m
    · rw [filter_onNode_append, if_neg (hnot m), List.append_nil]
      exact h.byNuma m
    · rw [bindings, filter_onNode_append, if_neg (hnot m), List.append_nil]
      exact h.byCore m

theorem holding_foldlM {outcome : Outcome} : ∀ {containers done : List InternalContainer} {r r' : Waiting × Affinities},
    Holding env s done r.1 → containers.foldlM (addContainer env outcome s) r = .ok r' →
    Holding env s (done ++ containers) r'.1
  | [], done, r, r', h, hrun => by
    cases hrun
    rwa [List.append_nil]
  | container :: containers, done, r, r', h, hrun => by
    rw [List.foldlM_cons] at hrun
    obtain ⟨r1, h1, h2⟩ := bind_ok hrun
    have h3 := holding_foldlM (h.step h1) h2
    rwa [List.append_assoc] at h3

/-- What `FindSpecialBin` finds. -/
theorem holding_findSpecialBin {outcome : Outcome} {a : Affinities} {r : Waiting × Affinities}
    (h : findSpecialBin env outcome s a = .ok r) : Holding env s s.containers r.1 := by
  obtain ⟨⟨w, a1⟩, h1, h2⟩ := bind_ok h
  cases h2
  have hnil : Holding env s [] ⟨.empty, .empty, .empty⟩ := ⟨fun _ => rfl, fun _ => rfl, fun _ => rfl⟩
  have hall := holding_foldlM (r := (⟨.empty, .empty, .empty⟩, a)) hnil h1
  rwa [List.nil_append] at hall

/-! ### Masks -/

/-- So many cores from the first on. -/
def maskOf (first : ℤ) (n : ℕ) : CpuSet :=
  ((Finset.range n).filter (fun i : ℕ => 0 ≤ first + 2 * (i : ℤ) ∧ first + 2 * (i : ℤ) < 1024)).image
    (fun i : ℕ => (first + 2 * (i : ℤ)).toNat)

theorem mem_maskOf {first : ℤ} {n x : ℕ} : x ∈ maskOf first n ↔ x < 1024 ∧ ∃ i < n, (x : ℤ) = first + 2 * (i : ℤ) := by
  simp only [maskOf, Finset.mem_image, Finset.mem_filter, Finset.mem_range]
  constructor
  · rintro ⟨i, ⟨hi, h0, hlt⟩, rfl⟩
    exact ⟨by omega, i, hi, by omega⟩
  · rintro ⟨hx, i, hi, heq⟩
    exact ⟨i, ⟨hi, by omega, by omega⟩, by omega⟩

theorem card_maskOf_le (first : ℤ) (n : ℕ) : (maskOf first n).card ≤ n :=
  Finset.card_image_le.trans ((Finset.card_filter_le _ _).trans (Finset.card_range n).le)

/-- A mask has all its cores where each is a CPU of the set. -/
theorem card_maskOf {first : ℤ} {n : ℕ} :
    (maskOf first n).card = n ↔ ∀ i < n, 0 ≤ first + 2 * (i : ℤ) ∧ first + 2 * (i : ℤ) < 1024 := by
  constructor
  · intro h i hi
    have hle : n ≤ ((Finset.range n).filter (fun i : ℕ => 0 ≤ first + 2 * (i : ℤ) ∧ first + 2 * (i : ℤ) < 1024)).card := by
      rw [← h, h]
      exact h.symm.le.trans Finset.card_image_le
    have hall := Finset.eq_of_subset_of_card_le (Finset.filter_subset _ _) ((Finset.card_range n).le.trans hle)
    have hmem := Finset.mem_range.mpr hi
    rw [← hall] at hmem
    exact (Finset.mem_filter.mp hmem).2
  · intro h
    rw [maskOf, Finset.card_image_of_injOn, Finset.filter_true_of_mem, Finset.card_range]
    · exact fun i hi => h i (Finset.mem_range.mp hi)
    · intro i hi j hj heq
      have hi := h i (Finset.mem_range.mp (Finset.mem_filter.mp hi).1)
      have hj := h j (Finset.mem_range.mp (Finset.mem_filter.mp hj).1)
      dsimp only at heq
      omega

/-- The loop over the cores where there are enough. -/
theorem takeCores_enough {endIndex : ℤ} : ∀ {n : ℕ} {first : ℤ} {mask : CpuSet},
    (n = 0 ∨ first + 2 * ((n : ℤ) - 1) < endIndex) →
    (takeCores endIndex n first mask).1 = first + 2 * (n : ℤ) ∧ (takeCores endIndex n first mask).2.1 = 0 ∧
      ∀ x, x ∈ (takeCores endIndex n first mask).2.2 ↔ x ∈ mask ∨ x ∈ maskOf first n
  | 0, first, mask, _ => by
    refine ⟨by simp [takeCores], rfl, fun x => ?_⟩
    simp [takeCores, maskOf]
  | n + 1, first, mask, h => by
    have hlast := h.resolve_left (Nat.succ_ne_zero n)
    have hlt : first < endIndex := by omega
    have hrest : n = 0 ∨ first + 2 + 2 * ((n : ℤ) - 1) < endIndex := .inr (by omega)
    obtain ⟨hnext, hmissing, hmask⟩ := @takeCores_enough endIndex n (first + 2) (CPU_SET first mask) hrest
    rw [takeCores, if_pos hlt]
    refine ⟨by rw [hnext]; push_cast; omega, hmissing, fun x => ?_⟩
    rw [hmask, mem_CPU_SET, mem_maskOf, mem_maskOf, or_assoc]
    refine or_congr_right ⟨?_, ?_⟩
    · rintro (⟨heq, hx⟩ | ⟨hx, i, hi, heq⟩)
      · exact ⟨hx, 0, Nat.succ_pos n, by push_cast; omega⟩
      · exact ⟨hx, i + 1, Nat.succ_lt_succ hi, by push_cast; omega⟩
    · rintro ⟨hx, i, hi, heq⟩
      rcases Nat.eq_zero_or_pos i with rfl | hpos
      · exact .inl ⟨by push_cast at heq; omega, hx⟩
      · exact .inr ⟨hx, i - 1, by omega, by omega⟩

/-- And where there are not. -/
theorem takeCores_short {endIndex : ℤ} : ∀ {n : ℕ} {first : ℤ} {mask : CpuSet}, 0 < n →
    endIndex ≤ first + 2 * ((n : ℤ) - 1) →
    endIndex ≤ (takeCores endIndex n first mask).1 ∧ 0 < (takeCores endIndex n first mask).2.1
  | n + 1, first, mask, _, h => by
    rw [takeCores]
    split
    · rename_i hlt
      push_cast at h
      rcases Nat.eq_zero_or_pos n with rfl | hpos
      · omega
      · exact takeCores_short hpos (by omega)
    · rename_i hge
      exact ⟨not_lt.mp hge, Nat.succ_pos n⟩

/-- The cores that a container asks for. -/
def amount (cores : Int32) : ℕ := cores.toInt.toNat

def total {α : Type} (items : List (Int32 × α)) : ℕ := (items.map (fun item => amount item.1)).sum

/-- The item with these before it is served: the cores up to its last are before the end. -/
def Served (endIndex first : ℤ) (before : ℕ) (cores : Int32) : Prop :=
  amount cores = 0 ∨ first + 2 * ((before + amount cores : ℕ) - 1 : ℤ) < endIndex

theorem coreMasks_cons {α : Type} (endIndex first : ℤ) (cores : Int32) (x : α) (items : List (Int32 × α)) :
    coreMasks endIndex first ((cores, x) :: items) =
      if 0 < (takeCores endIndex (amount cores) first ∅).2.1 then
        coreMasks endIndex (takeCores endIndex (amount cores) first ∅).1 items
      else (x, (takeCores endIndex (amount cores) first ∅).2.2) ::
        coreMasks endIndex (takeCores endIndex (amount cores) first ∅).1 items := rfl

/-- The masks of the items that are served. -/
theorem mem_coreMasks {α : Type} {endIndex : ℤ} {x : α} {mask : CpuSet} : ∀ {items : List (Int32 × α)} {first : ℤ},
    (x, mask) ∈ coreMasks endIndex first items ↔ ∃ before cores after, items = before ++ (cores, x) :: after ∧
      Served endIndex first (total before) cores ∧ mask = maskOf (first + 2 * (total before : ℤ)) (amount cores)
  | [], first => by
    constructor
    · intro h
      cases h
    · rintro ⟨before, cores, after, h, -⟩
      exact absurd h (by simp)
  | (cores0, x0) :: items, first => by
    have hsplit : (∃ before cores after, (cores0, x0) :: items = before ++ (cores, x) :: after ∧
        Served endIndex first (total before) cores ∧ mask = maskOf (first + 2 * (total before : ℤ)) (amount cores)) ↔
        (x = x0 ∧ Served endIndex first 0 cores0 ∧ mask = maskOf first (amount cores0)) ∨
        ∃ before cores after, items = before ++ (cores, x) :: after ∧
          Served endIndex first (amount cores0 + total before) cores ∧
          mask = maskOf (first + 2 * ((amount cores0 + total before : ℕ) : ℤ)) (amount cores) := by
      constructor
      · rintro ⟨before, cores, after, heq, hserved, hmask⟩
        cases before with
        | nil =>
          cases heq
          exact .inl ⟨rfl, hserved, by simpa [total] using hmask⟩
        | cons item before =>
          cases heq
          exact .inr ⟨before, cores, after, rfl, hserved, hmask⟩
      · rintro (⟨rfl, hserved, hmask⟩ | ⟨before, cores, after, rfl, hserved, hmask⟩)
        · exact ⟨[], cores0, items, rfl, hserved, by simpa [total] using hmask⟩
        · exact ⟨(cores0, x0) :: before, cores, after, rfl, hserved, hmask⟩
    rw [hsplit, coreMasks_cons]
    rcases em (Served endIndex first 0 cores0) with hserved | hshort
    · obtain ⟨hnext, hmissing, hmask⟩ := @takeCores_enough endIndex (amount cores0) first ∅
        (hserved.imp_right fun h => by push_cast at h; omega)
      have hmask : (takeCores endIndex (amount cores0) first ∅).2.2 = maskOf first (amount cores0) := by
        ext y
        rw [hmask]
        simp
      rw [hmissing, if_neg (lt_irrefl 0), List.mem_cons, mem_coreMasks, hmask, hnext, Prod.mk.injEq]
      refine or_congr ⟨fun h => ⟨h.1, hserved, h.2⟩, fun h => ⟨h.1, h.2.2⟩⟩ ?_
      refine exists_congr fun before => exists_congr fun cores => exists_congr fun after => and_congr_right fun _ => ?_
      have hfirst : first + 2 * (amount cores0 : ℤ) + 2 * (total before : ℤ) =
          first + 2 * ((amount cores0 + total before : ℕ) : ℤ) := by
        omega
      rw [hfirst]
      refine and_congr_left fun _ => or_congr_right ?_
      push_cast
      omega
    · obtain ⟨hpos, hend⟩ := not_or.mp hshort
      have hpos : 0 < amount cores0 := Nat.pos_of_ne_zero hpos
      rw [Nat.zero_add, not_lt] at hend
      obtain ⟨hnext, hmissing⟩ := @takeCores_short endIndex (amount cores0) first ∅ hpos hend
      rw [if_pos hmissing, mem_coreMasks]
      -- behind the end only those are served that ask for nothing
      constructor
      · rintro ⟨before, cores, after, heq, hserved, hmask⟩
        have hzero : amount cores = 0 := by
          rcases hserved with hzero | hlt
          · exact hzero
          · by_contra hne
            push_cast at hlt
            omega
        refine .inr ⟨before, cores, after, heq, .inl hzero, ?_⟩
        rw [hmask, hzero]
        rfl
      · rintro (⟨-, hserved, -⟩ | ⟨before, cores, after, heq, hserved, hmask⟩)
        · exact absurd hserved hshort
        · have hzero : amount cores = 0 := by
            rcases hserved with hzero | hlt
            · exact hzero
            · by_contra hne
              push_cast at hlt
              omega
          refine ⟨before, cores, after, heq, .inl hzero, ?_⟩
          rw [hmask, hzero]
          rfl

/-- Masks of different items have no core in common, and none of them has one before the first. -/
theorem coreMasks_disjoint {α : Type} {endIndex : ℤ} : ∀ {items : List (Int32 × α)} {first : ℤ},
    (coreMasks endIndex first items).Pairwise (fun b b' => Disjoint b.2 b'.2)
  | [], _ => List.Pairwise.nil
  | (cores0, x0) :: items, first => by
    rw [coreMasks_cons]
    split
    · exact coreMasks_disjoint
    · rename_i hmissing
      refine List.pairwise_cons.mpr ⟨fun b hb => ?_, coreMasks_disjoint⟩
      have henough : amount cores0 = 0 ∨ first + 2 * ((amount cores0 : ℤ) - 1) < endIndex := by
        by_contra hshort
        obtain ⟨hpos, hend⟩ := not_or.mp hshort
        exact hmissing (takeCores_short (Nat.pos_of_ne_zero hpos) (not_lt.mp hend)).2
      obtain ⟨hnext, -, hmask⟩ := @takeCores_enough endIndex (amount cores0) first ∅ henough
      obtain ⟨y, mask⟩ := b
      obtain ⟨before, cores, after, -, -, rfl⟩ := mem_coreMasks.mp hb
      refine Finset.disjoint_left.mpr fun z hz hz' => ?_
      rw [hmask, mem_maskOf] at hz
      rw [mem_maskOf, hnext] at hz'
      obtain ⟨-, i, hi, hzi⟩ := hz.resolve_left (Finset.notMem_empty z)
      obtain ⟨-, k, hk, hzk⟩ := hz'
      omega

/-- A mask is as large as the quota says and made of physical cores if and only if these are all cores that were
    asked for. -/
theorem mask_iff {node : ℤ} {cores : Int64} {first : ℤ} (hs : Loaded s) :
    (((maskOf first (amount cores.toInt32)).card : ℤ) = cores.toInt ∧ maskOf first (amount cores.toInt32) ⊆ phy s node) ↔
      cores.toInt = amount cores.toInt32 ∧
        ∀ i < amount cores.toInt32, ∃ cpu : ℕ, (cpu : ℤ) = first + 2 * (i : ℤ) ∧ IsCore s node cpu := by
  have hle := card_maskOf_le first (amount cores.toInt32)
  constructor
  · rintro ⟨hcard, hsub⟩
    have hquota : cores.toInt = amount cores.toInt32 := by
      have hlt := cores.toInt32.toInt_lt
      have hbmod := cores.toInt_toInt32
      rw [amount] at hle hcard ⊢
      rw [Int.bmod_eq_of_le_mul_two (by omega) (by omega)] at hbmod
      omega
    have hall := card_maskOf.mp (Int.ofNat.inj (hcard.trans hquota))
    refine ⟨hquota, fun i hi => ?_⟩
    obtain ⟨h0, hlt⟩ := hall i hi
    have hmem : (first + 2 * (i : ℤ)).toNat ∈ maskOf first (amount cores.toInt32) :=
      mem_maskOf.mpr ⟨by omega, i, hi, by omega⟩
    exact ⟨_, by omega, (hs node _).mp (hsub hmem)⟩
  · rintro ⟨hquota, hall⟩
    have hcard : (maskOf first (amount cores.toInt32)).card = amount cores.toInt32 := by
      refine card_maskOf.mpr fun i hi => ?_
      obtain ⟨cpu, heq, hcore⟩ := hall i hi
      have hlt := hcore.1
      omega
    refine ⟨by rw [hcard, hquota], fun x hx => ?_⟩
    obtain ⟨-, i, hi, hxi⟩ := mem_maskOf.mp hx
    obtain ⟨cpu, heq, hcore⟩ := hall i hi
    have hsame : x = cpu := by omega
    rw [hsame]
    exact (hs node cpu).mpr hcore

theorem coreMasks_map {α β : Type} (f : α → β) {endIndex : ℤ} : ∀ {items : List (Int32 × α)} {first : ℤ},
    coreMasks endIndex first (items.map (fun item => (item.1, f item.2))) =
      (coreMasks endIndex first items).map (fun b => (f b.1, b.2))
  | [], _ => rfl
  | (cores, x) :: items, first => by
    rw [List.map_cons, coreMasks_cons, coreMasks_cons, coreMasks_map f]
    split <;> rfl

/-! ### A node -/

/-- The number of CPUs of a node, as the code has it. -/
def perNuma (s : State) : ℤ := s.cpuCoreNum.tdiv s.numaNum

/-- The containers of the node that `BindCpuCore` binds, with their threads and the mask of these. -/
def bound (env : Env) (s : State) (node : ℤ) : List ((InternalContainer × List Int32) × CpuSet) :=
  coreMasks ((node + 1) * perNuma s) (node * perNuma s)
    ((bindings env s node s.containers).map (fun b => ((cores b.1).toInt32, b)))

/-- It asks for these masks, in this order. -/
theorem bindCpuCore_eq {outcome : Outcome} {w : Waiting} {a : Affinities} {node : ℤ}
    (h : Holding env s s.containers w) (hnuma : s.numaNum ≠ 0) :
    bindCpuCore outcome s node ((w.threadWaitTuneByCore.find node).getD []) a =
      .ok ((bound env s node).foldl (fun a b => b.1.2.foldl (setAffinity outcome b.2) a) a) := by
  have hmap : (bindings env s node s.containers).map (fun b => ((cores b.1).toInt32, b.2)) =
      ((bindings env s node s.containers).map (fun b => ((cores b.1).toInt32, b))).map
        (fun item => (item.1, item.2.2)) := by
    rw [List.map_map]
    rfl
  rw [bindCpuCore, coresPerNuma, if_neg hnuma, h.byCore, hmap]
  simp only [bind, Except.bind, coreMasks_map, List.foldl_map, pure, Except.pure]
  rfl

/-- The containers of the node that have a thread whose own executable has the policy 2. -/
def wants (env : Env) (s : State) (node : ℤ) : List InternalContainer :=
  s.containers.filter (fun container => OnNode s node container ∧
    ∃ j ∈ container.tasks, (s.threads.find j).isSome ∧ own env s j = some 2)

/-- The cores that containers ask for. -/
def asked (containers : List InternalContainer) : ℕ :=
  (containers.map (fun container => amount (cores container).toInt32)).sum

/-- What a node and the threads are given is theirs. -/
structure Given (env : Env) (s : State) (node : ℤ) : Prop where
  masks : ∀ b ∈ bound env s node, (b.2.card : ℤ) = (cores b.1.1).toInt ∧ b.2 ⊆ phy s node
  disjoint : (bound env s node).Pairwise (fun b b' => Disjoint b.2 b'.2)
  own : ∀ container ∈ s.containers, ∀ task ∈ foundIn env s container, own env s task.1 = some task.2

/-- In a container threads of one name have one policy; and the cores that are counted for a container that gets all it
    asks for are on the node by the map. -/
structure Orderly (env : Env) (s : State) (node : ℤ) : Prop where
  agree : ∀ container ∈ s.containers, container.tasks.Pairwise (Agree env s)
  cores : ∀ before container after, wants env s node = before ++ container :: after →
    Served ((node + 1) * perNuma s) (node * perNuma s) (asked before) (cores container).toInt32 →
    (cores container).toInt = amount (cores container).toInt32 ∧
      ∀ i < amount (cores container).toInt32, ∃ cpu : ℕ,
        (cpu : ℤ) = node * perNuma s + 2 * (asked before : ℤ) + 2 * (i : ℤ) ∧ IsCore s node cpu

/-- All containers could be looked at. -/
theorem policies_of_find {outcome : Outcome} {a : Affinities} {r : Waiting × Affinities}
    (h : findSpecialBin env outcome s a = .ok r) {container : InternalContainer} (hmem : container ∈ s.containers) :
    policies env s .empty container.tasks = .ok (foundIn env s container) := by
  obtain ⟨r1, h1, -⟩ := bind_ok h
  obtain ⟨r2, r3, hstep⟩ := foldlM_ok_of_mem h1 hmem
  obtain ⟨w, a1⟩ := r2
  obtain ⟨full, -, hstep⟩ := bind_ok hstep
  obtain ⟨found, hfound, -⟩ := bind_ok hstep
  rw [foundIn, hfound]

theorem own_iff {outcome : Outcome} {a : Affinities} {r : Waiting × Affinities}
    (h : findSpecialBin env outcome s a = .ok r) :
    (∀ container ∈ s.containers, ∀ task ∈ foundIn env s container, own env s task.1 = some task.2) ↔
      ∀ container ∈ s.containers, container.tasks.Pairwise (Agree env s) := by
  refine forall_congr' fun container => forall_congr' fun hmem => ?_
  rw [policies_own_iff (policies_of_find h hmem)]
  refine ⟨fun h => h.2, fun h => ⟨fun j _ name policy _ hp => ?_, h⟩⟩
  cases hp

theorem map_fst_filterMap {α β : Type} {p : α → Prop} [DecidablePred p] (f : α → β) (l : List α) :
    (l.filterMap (fun a => if p a then none else some (a, f a))).map (fun b => b.1) = l.filter (fun a => ¬ p a) := by
  rw [List.map_filterMap, ← List.filterMap_eq_filter]
  congr 1
  funext a
  rw [Option.guard]
  split <;> simp_all

/-- Where each thread has its own policy, the containers with threads to be bound are those that want it. -/
theorem bindings_fst {outcome : Outcome} {a : Affinities} {r : Waiting × Affinities} {node : ℤ}
    (h : findSpecialBin env outcome s a = .ok r)
    (hown : ∀ container ∈ s.containers, ∀ task ∈ foundIn env s container, own env s task.1 = some task.2) :
    (bindings env s node s.containers).map (fun b => b.1) = wants env s node := by
  have hwants : ∀ container ∈ s.containers, withPolicy [2] (foundIn env s container) ≠ [] ↔
      ∃ j ∈ container.tasks, (s.threads.find j).isSome ∧ own env s j = some 2 := by
    intro container hmem
    obtain ⟨hin, hall⟩ := mem_policies (policies_of_find h hmem)
    constructor
    · intro hne
      obtain ⟨j, hj⟩ := List.exists_mem_of_ne_nil _ hne
      obtain ⟨task, htask, rfl⟩ := List.mem_map.mp hj
      obtain ⟨htask, hpolicy⟩ := List.mem_filter.mp htask
      have hpolicy : task.2 = 2 := by simpa using hpolicy
      exact ⟨task.1, (hin task htask).1, (hin task htask).2, by rw [hown container hmem task htask, hpolicy]⟩
    · rintro ⟨j, hj, hknown, hj2⟩
      have hexe : (env.exe j).isSome := by
        rw [own] at hj2
        cases hnone : env.exe j with
        | none =>
          rw [hnone] at hj2
          exact absurd (Option.some.inj hj2) (by decide)
        | some filePath => rfl
      obtain ⟨policy, hfound⟩ := hall j hj hknown hexe
      have heq := hown container hmem _ hfound
      dsimp only at heq
      rw [hj2] at heq
      cases heq
      exact List.ne_nil_of_mem (List.mem_map.mpr ⟨(j, 2), List.mem_filter.mpr ⟨hfound, by simp⟩, rfl⟩)
  rw [bindings, wants, map_fst_filterMap, List.filter_filter]
  refine List.filter_congr fun container hmem => ?_
  rw [Bool.eq_iff_iff]
  simp only [Bool.and_eq_true, decide_eq_true_eq]
  rw [← hwants container hmem, and_comm]

theorem total_items (bs : List (InternalContainer × List Int32)) :
    total (bs.map (fun b => ((cores b.1).toInt32, b))) = asked (bs.map (fun b => b.1)) := by
  rw [total, asked, List.map_map, List.map_map]
  rfl

/-- WHERE COUNT AND MAP AGREE: `BindCpuCore` asks for masks of as many CPUs as the quotas say, all of them physical cores
    of the node and no one for two containers, and each thread is treated by the policy of its own executable, if and
    only if the containers are in order. -/
theorem given_iff {outcome : Outcome} {a a' : Affinities} {w : Waiting} (hs : Loaded s)
    (h : findSpecialBin env outcome s a = .ok (w, a')) (node : ℤ) :
    (s.numaNum ≠ 0 → ∀ a, bindCpuCore outcome s node ((w.threadWaitTuneByCore.find node).getD []) a =
      .ok ((bound env s node).foldl (fun a b => b.1.2.foldl (setAffinity outcome b.2) a) a)) ∧
    (Given env s node ↔ Orderly env s node) := by
  refine ⟨fun hnuma a => bindCpuCore_eq (holding_findSpecialBin h) hnuma, ?_⟩
  have hmasks : (∀ container ∈ s.containers, ∀ task ∈ foundIn env s container, own env s task.1 = some task.2) →
      ((∀ b ∈ bound env s node, (b.2.card : ℤ) = (cores b.1.1).toInt ∧ b.2 ⊆ phy s node) ↔
        ∀ before container after, wants env s node = before ++ container :: after →
          Served ((node + 1) * perNuma s) (node * perNuma s) (asked before) (cores container).toInt32 →
          (cores container).toInt = amount (cores container).toInt32 ∧
            ∀ i < amount (cores container).toInt32, ∃ cpu : ℕ,
              (cpu : ℤ) = node * perNuma s + 2 * (asked before : ℤ) + 2 * (i : ℤ) ∧ IsCore s node cpu) := by
    intro hown
    rw [← bindings_fst h hown]
    constructor
    · intro hall before container after hsplit hserved
      obtain ⟨bs, bs', hbs, rfl, hrest⟩ := List.map_eq_append_iff.mp hsplit
      obtain ⟨b, bs2, rfl, rfl, rfl⟩ := List.map_eq_cons_iff.mp hrest
      rw [← total_items] at hserved ⊢
      refine (mask_iff hs).mp (hall (b, _) (mem_coreMasks.mpr ⟨_, _, bs2.map (fun b => ((cores b.1).toInt32, b)), ?_, hserved, rfl⟩))
      rw [hbs, List.map_append, List.map_cons]
    · rintro hall ⟨b, mask⟩ hb
      obtain ⟨before, n, after, hsplit, hserved, rfl⟩ := mem_coreMasks.mp hb
      obtain ⟨bs, bs', hbs, rfl, hrest⟩ := List.map_eq_append_iff.mp hsplit
      obtain ⟨b', bs2, rfl, heq, rfl⟩ := List.map_eq_cons_iff.mp hrest
      cases heq
      rw [total_items] at hserved ⊢
      exact (mask_iff hs).mpr (hall _ b.1 (bs2.map (fun b => b.1)) (by rw [hbs, List.map_append, List.map_cons]) hserved)
  constructor
  · intro hgiven
    exact ⟨(own_iff h).mp hgiven.own, (hmasks hgiven.own).mp hgiven.masks⟩
  · intro horderly
    have hown := (own_iff h).mpr horderly.agree
    exact ⟨(hmasks hown).mpr horderly.cores, coreMasks_disjoint, hown⟩

/-! ### Four CPUs on two nodes -/

namespace Example

/-- The executables `one` and `two` are configured. -/
def sampleEnv : Env where
  sys := sys
  exe := fun tid => if tid = 1 then some (str "/one") else if tid = 2 then some (str "/two") else none
  file := fun _ => none

def config : UMap Str Int32 := (UMap.empty.insert (str "one") 1).insert (str "two") 2

def static (cpu2Node : List UInt32) : EnvStaticInfo := ⟨2, 4, 4096, 0, cpu2Node, []⟩

def loaded (cpu2Node : List UInt32) : State :=
  match updateStatic (static cpu2Node) (init config) with
  | .ok s => s
  | .error _ => init config

/-- A container with one CPU to use, and names for its threads. -/
def state (cpu2Node : List UInt32) (cpus : Str) (tasks : List Int32) (names : List ThreadInfo) : State :=
  { loaded cpu2Node with
    containers := [⟨[97], 100000, 100000, cpus, tasks⟩]
    threads := names.foldl (fun threads thread => threads.insert thread.tid.toInt32 thread.name) .empty }

/-- Each node has two CPUs in a row. -/
def inRow : State := state [0, 0, 1, 1] (str "2,3") [1, 2] [⟨1, 1, [120]⟩, ⟨2, 2, [121]⟩]

/-- The CPUs of the nodes alternate. -/
def alternating : State := state [0, 1, 0, 1] (str "1,3") [2] [⟨2, 2, [121]⟩]

/-- The threads have one name. -/
def sameName : State := state [0, 0, 1, 1] (str "2,3") [1, 2] [⟨1, 1, [120]⟩, ⟨2, 2, [120]⟩]

def noThreads : Affinities := ⟨.empty, fun _ => none, fun _ => 0, fun _ => none⟩

theorem loaded_inRow : Loaded inRow := by
  have h : updateStatic (static [0, 0, 1, 1]) (init config) = .ok (loaded [0, 0, 1, 1]) := rfl
  exact fun node cpu => loaded_updateStatic rfl h node cpu

theorem orderly_inRow : Orderly sampleEnv inRow 1 where
  agree container hmem := by
    rw [List.mem_singleton.mp hmem]
    refine List.pairwise_pair.mpr fun name h1 h2 => ?_
    cases h1
    cases h2
  cores before container after hsplit _ := by
    have hwants : wants sampleEnv inRow 1 = [⟨[97], 100000, 100000, str "2,3", [1, 2]⟩] := by decide +kernel
    rw [hwants] at hsplit
    obtain ⟨rfl, hcons⟩ | ⟨-, hcons⟩ := List.append_eq_singleton_iff.mp hsplit.symm
    · cases hcons
      have hone : amount (cores ⟨[97], 100000, 100000, str "2,3", [1, 2]⟩).toInt32 = 1 := by decide +kernel
      rw [hone]
      refine ⟨by decide +kernel, fun i hi => ⟨2, ?_, by unfold IsCore; decide +kernel⟩⟩
      rw [Nat.lt_one_iff.mp hi]
      decide +kernel
    · cases hcons

end Example

/-- The thread 2 of the container on the node 1 gets the one physical core that there is. -/
theorem given_iff_inRow : Given Example.sampleEnv Example.inRow 1 := by
  have hfind : ∃ r, findSpecialBin Example.sampleEnv (fun _ _ mask => some mask) Example.inRow Example.noThreads = .ok r :=
    ⟨_, rfl⟩
  obtain ⟨⟨w, a⟩, hfind⟩ := hfind
  exact (given_iff Example.loaded_inRow hfind 1).2.mpr Example.orderly_inRow

/-- Where the CPUs of the nodes alternate, the container on the node 1 gets a core of the node 0. And of two threads with
    one name the second is treated by the policy of the first. -/
theorem not_given : ¬ Given Example.sampleEnv Example.alternating 1 ∧ ¬ Given Example.sampleEnv Example.sameName 1 := by
  constructor
  · intro h
    have hmasks : ∀ b ∈ bound Example.sampleEnv Example.alternating 1, b.2 ⊆ phy Example.alternating 1 := fun b hb =>
      (h.masks b hb).2
    revert hmasks
    decide +kernel
  · intro h
    have hown := h.own _ List.mem_cons_self (2, 1) (by decide +kernel)
    revert hown
    decide +kernel

end BinaryTune
end OeAware

import Mathlib.Data.Rat.Floor
import OeAware.Analysis.Isolation
import OeAware.Schemes.Run
import OeAware.Tune.CpuLists
import OeAware.Tune.Effects

/-! @src src/plugin/tune/docker/cluster_affinity/cluster_affinity_adapt.cpp |
    name:RecoverInitialBindStatus, Update | scheme:state-machine

    What a container had before it was bound is kept from when it is seen for the second time, and written
    into three commands when it goes or the tuning ends. CPUs and nodes come back as they were; the limit
    is a quotient of integers before it becomes a `double`, and loses what is behind the point.

        cpus, mems ──▶ initialCpuSet, initialMemSet ──▶ --cpuset-cpus, --cpuset-mems
        quota / period ──▶ initialCpuLimit ─────────▶ --cpus -/

namespace OeAware
open Schemes

namespace ClusterAffinity

/-! ### The commands -/

/-- The nearest natural number, and of two the even one. -/
def roundEven (x : ℚ) : ℕ :=
  if x - ⌊x⌋₊ < 1 / 2 ∨ (x - ⌊x⌋₊ = 1 / 2 ∧ ⌊x⌋₊ % 2 = 0) then ⌊x⌋₊ else ⌊x⌋₊ + 1

/-- `std::to_string` of a `double`: six decimals. -/
def toStringDouble (x : ℚ) : Str :=
  let n := roundEven (|x| * 10 ^ 6)
  (if x < 0 then [45] else []) ++ toStr (n / 10 ^ 6) ++
    46 :: (List.range 6).map (fun i => UInt8.ofNat (48 + n / 10 ^ (5 - i) % 10))

/-- The commands of `RecoverInitialBindStatus` for a container that is bound. -/
def recoverCommands (dockerId : Str) (info : DockerResourceInfo) : List Str :=
  let cpusetStr := convertCpusetToString (info.initialCpuSet.map Int.ofNat)
  let memorysetStr := convertCpusetToString (info.initialMemSet.map Int.ofNat)
  let cpusStr := toStringDouble info.initialCpuLimit
  [str "docker update --cpus=" ++ cpusStr ++ str " " ++ dockerId,
    str "docker update --cpuset-cpus=" ++ cpusetStr ++ str " " ++ dockerId,
    str "docker update --cpuset-mems=" ++ memorysetStr ++ str " " ++ dockerId]

/-- The number that digits stand for. -/
def digits (s : Str) : ℤ := s.foldl (fun (n : ℤ) c => 10 * n + (c.toNat - 48)) 0

/-- What a decimal number with a point stands for. -/
def readDecimal (s : Str) : ℚ :=
  let whole := s.takeWhile (· ≠ 46)
  let decimals := (s.dropWhile (· ≠ 46)).drop 1
  digits whole + digits decimals / 10 ^ decimals.length

theorem roundEven_natCast (n : ℕ) : roundEven n = n := by
  rw [roundEven, Nat.floor_natCast, sub_self, if_pos (Or.inl (by norm_num))]

theorem roundEven_micro (n : ℕ) : roundEven (|(n : ℚ)| * 10 ^ 6) = n * 10 ^ 6 := by
  have hcast : |(n : ℚ)| * 10 ^ 6 = (n * 10 ^ 6 : ℕ) := by
    rw [Nat.abs_cast]
    push_cast
    rfl
  rw [hcast, roundEven_natCast]

theorem decimal_zero {n i : ℕ} (h : i ≤ 5) : n * 10 ^ 6 / 10 ^ (5 - i) % 10 = 0 := by
  have hpow : (10 : ℕ) ^ 6 = 10 ^ (5 - i) * (10 ^ i * 10) := by
    rw [← Nat.pow_succ, ← Nat.pow_add]
    congr 1
    omega
  have hpos : 0 < 10 ^ (5 - i) := Nat.pow_pos (by norm_num)
  rw [hpow, Nat.mul_left_comm, Nat.mul_div_cancel_left _ hpos, ← Nat.mul_assoc, Nat.mul_mod_left]

theorem toStringDouble_natCast (n : ℕ) :
    toStringDouble n = toStr n ++ 46 :: List.replicate 6 48 := by
  have hpad : ∀ i ∈ List.range 6, UInt8.ofNat (48 + n * 10 ^ 6 / 10 ^ (5 - i) % 10) = 48 := by
    intro i hi
    rw [decimal_zero (Nat.lt_succ_iff.mp (List.mem_range.mp hi))]
    decide
  have hneg : ¬ (n : ℚ) < 0 := not_lt.mpr (Nat.cast_nonneg n)
  unfold toStringDouble
  dsimp only
  rw [roundEven_micro, if_neg hneg, List.nil_append, Nat.mul_div_cancel n (by norm_num),
    List.map_congr_left hpad, List.map_const', List.length_range]

/-- A whole number is written as it is. -/
theorem readDecimal_toStringDouble (n : ℕ) : readDecimal (toStringDouble n) = n := by
  have hdot : ∀ c ∈ toStr n, decide (c ≠ 46) = true := by
    intro c hc
    rw [decide_eq_true_eq]
    rintro rfl
    exact not_mem_toStr (by decide) n hc
  have hdigits : digits (toStr n) = n := foldl_digits_toStr n
  have hzero : digits (List.replicate 6 48) = 0 := by decide
  have htake : (46 :: List.replicate 6 (48 : UInt8)).takeWhile (· ≠ 46) = [] := by decide
  have hdrop : ((46 :: List.replicate 6 (48 : UInt8)).dropWhile (· ≠ 46)).drop 1 =
      List.replicate 6 48 := by decide
  rw [toStringDouble_natCast, readDecimal, List.takeWhile_append_of_pos hdot,
    List.dropWhile_append_of_pos hdot, htake, hdrop, List.append_nil, hdigits, hzero]
  simp

/-! ### What a container was seen with -/

/-- What is kept of a container from when it was seen for the second time. -/
def DockerResourceInfo.initials (info : DockerResourceInfo) : Bool × List ℕ × List ℕ × ℚ :=
  (info.inited, info.initialCpuSet, info.initialMemSet, info.initialCpuLimit)

/-- Every container keeps it, and is bound only with a limit. -/
structure Settled (s s' : State) : Prop where
  initials : ∀ d, (s'.docker d).initials = (s.docker d).initials
  bound : ∀ d, (s'.docker d).optimizeBinded = true →
    (s.docker d).optimizeBinded = true ∨ 0 < (s.docker d).initialCpuLimit

namespace Settled
variable {s s' s'' : State}

theorem refl (s : State) : Settled s s := ⟨fun _ => rfl, fun _ => Or.inl⟩

theorem limit (h : Settled s s') (d : Str) :
    (s'.docker d).initialCpuLimit = (s.docker d).initialCpuLimit :=
  congrArg (fun i => i.2.2.2) (h.initials d)

theorem inited (h : Settled s s') (d : Str) : (s'.docker d).inited = (s.docker d).inited :=
  congrArg (fun i => i.1) (h.initials d)

theorem trans (h : Settled s s') (h' : Settled s' s'') : Settled s s'' where
  initials d := (h'.initials d).trans (h.initials d)
  bound d hb := by
    rcases h'.bound d hb with hb | hlim
    · exact h.bound d hb
    · exact Or.inr (h.limit d ▸ hlim)

theorem of_docker (h : ∀ d, s'.docker d = s.docker d) : Settled s s' where
  initials d := by rw [h]
  bound d hb := Or.inl (h d ▸ hb)

theorem of_onlyPools (h : OnlyPools s s') : Settled s s' := .of_docker h.docker

theorem of_charged {d : Str} {limit : ℚ} (h : Charged s s' d limit) : Settled s s' := by
  obtain ⟨cpus, ids, hd⟩ := h.docker
  refine ⟨fun x => ?_, fun x hb => ?_⟩
  · rw [hd]
    split
    · rename_i hx
      subst hx
      rfl
    · rfl
  · rw [hd] at hb
    split at hb
    · rename_i hx
      subst hx
      exact Or.inl hb
    · exact Or.inl hb

/-- An entry is written that keeps it. -/
theorem setDocker {d : Str} {info : DockerResourceInfo} (hi : info.initials = (s.docker d).initials)
    (hb : info.optimizeBinded = true →
      (s.docker d).optimizeBinded = true ∨ 0 < (s.docker d).initialCpuLimit) :
    Settled s (s.setDocker d info) := by
  refine ⟨fun x => ?_, fun x hx => ?_⟩
  · rw [docker_setDocker]
    split
    · rename_i hx
      rw [hx, hi]
    · rfl
  · rw [docker_setDocker] at hx
    split at hx
    · rename_i hxd
      rw [hxd]
      exact hb hx
    · exact Or.inl hx

theorem foldlM {f : State → Str → Except Fault State} {l : List Str}
    (hf : ∀ s a s', f s a = .ok s' → Settled s s') (h : l.foldlM f s = .ok s') : Settled s s' :=
  foldlM_invariant (fun s1 a s2 _ h1 h2 => trans h1 (hf s1 a s2 h2)) (refl s) h

end Settled

section
variable {D : Type} [Double D] {sel : ClusterSelector D} {T : Topology} {env : TuneEnv D} {s s' : State}

theorem settled_add {d : Str} {limit : ℚ} {updated b : Bool}
    (h : dockerAddCpuLimitComm sel T d limit updated s = .ok (s', b)) : Settled s s' := by
  by_cases h0 : T.oneClusterCpuNum = 0
  · obtain ⟨nid, -, h⟩ := bind_ok h
    obtain ⟨need, -, h⟩ := bind_ok h
    obtain ⟨clusterId, -, h⟩ := bind_ok h
    rw [if_pos h0] at h
    cases h
    exact .refl s
  · exact .of_charged (charged_add h0 h)

theorem settled_minus {d : Str} {limit : ℚ} {updated : Bool}
    (h : (dockerMinusCpuLimitComm d limit updated s).map (·.1) = .ok s') : Settled s s' := by
  obtain ⟨r, hm, rfl⟩ := map_ok h
  exact .of_charged (charged_minus hm)

theorem settled_recover {d : Str} {updated : Bool}
    (h : recoverInitialBindStatus T d updated s = .ok s') : Settled s s' := by
  unfold recoverInitialBindStatus at h
  dsimp only at h
  split at h
  · cases h
    exact .refl s
  · have hnuma := onlyPools_foldl (fun s a =>
      onlyPools_setNuma s a _) (f := releaseClusters (s.docker d).bindClusters)
        (s.docker d).currentMemSet s
    split at h
    · cases h
      exact .of_onlyPools hnuma
    · refine (Settled.of_onlyPools ((hnuma.trans (onlyPools_foldl (fun s a =>
        onlyPools_setCluster s _ _) _ _)).trans (onlyPools_foldl (fun s a =>
          onlyPools_setCluster s _ _) _ _))).trans (.foldlM (fun s1 p s2 h1 => ?_) h)
      rw [returnTo] at h1
      split at h1
      · cases h1
        exact .refl s1
      · exact settled_minus h1

theorem settled_bindClusters {d : Str} {nid n : ℕ}
    (h : dockerBindClusters T env d nid n s = .ok s') : Settled s s' := by
  obtain ⟨⟨ids, s1⟩, h1, h⟩ := bind_ok h
  obtain ⟨⟨cpus, s2⟩, h2, h⟩ := bind_ok h
  cases h
  have hpools := (onlyPools_takeClusters h1).trans (onlyPools_fillClusters h2)
  refine (Settled.of_onlyPools hpools).trans (.setDocker ?_ (fun hb => Or.inl ?_))
  · rw [hpools.docker]
    split <;> rfl
  · rw [hpools.docker]
    split at hb <;> exact hb

theorem settled_optimizeBind : ∀ {ids : List Str} {s s' : State},
    dockerOptimizeBindSchedule T env ids s = .ok s' → Settled s s'
  | [], s, s', h => by
    cases h
    exact .refl s
  | d :: ids, s, s', h => by
    rw [dockerOptimizeBindSchedule] at h
    dsimp only at h
    split at h
    · exact settled_optimizeBind h
    · rename_i hcond
      split at h
      · cases h
        exact .refl s
      · obtain ⟨need, -, h⟩ := bind_ok h
        obtain ⟨nid, -, h⟩ := bind_ok h
        cases nid with
        | none =>
          cases h
          exact .refl s
        | some nid =>
          dsimp only at h
          split at h
          · cases h
            exact .refl s
          · obtain ⟨s1, h1, h⟩ := bind_ok h
            have hs1 := settled_bindClusters h1
            have hpos : 0 < (s1.docker d).initialCpuLimit := by
              rw [hs1.limit]
              exact not_le.mp (fun hle => hcond (Or.inr hle))
            have hs2 : Settled s1 (s1.setDocker d { s1.docker d with optimizeBinded := true }) :=
              .setDocker rfl (fun _ => Or.inr hpos)
            exact (hs1.trans hs2).trans (settled_optimizeBind h)

theorem settled_borrow {lenders : List Str} {n : ℕ} {limit : ℚ} {d : Str}
    (h : borrow T env lenders n limit s d = .ok s') : Settled s s' := by
  obtain ⟨⟨s1, b⟩, h1, h⟩ := bind_ok h
  cases h
  exact (settled_add h1).trans (.setDocker rfl Or.inl)

omit [Double D] in
theorem settled_lend {d : Str} (h : lend env s d = .ok s') : Settled s s' := by
  obtain ⟨⟨s1, b⟩, h1, h⟩ := bind_ok h
  have hs1 : Settled s s1 := .of_charged (charged_minus h1)
  dsimp only at h
  split at h
  · cases h
    exact hs1.trans (.setDocker rfl Or.inl)
  · cases h
    exact hs1

theorem settled_offers (s : State) : Settled s (offers s) := by
  have hd : ∀ d, (offers s).docker d = (s.docker d) ∨
      (offers s).docker d = { s.docker d with lendCpuLimit := (s.docker d).offer } := by
    intro d
    unfold offers State.docker
    rw [UMap.find_mapVal]
    cases s.dockerInfos.find d with
    | none => exact Or.inl rfl
    | some info =>
      simp only [Option.map_some, Option.getD_some]
      split
      · exact Or.inr rfl
      · exact Or.inl rfl
  refine ⟨fun d => ?_, fun d hb => ?_⟩
  · rcases hd d with h | h <;> rw [h]
    rfl
  · rcases hd d with h | h <;> rw [h] at hb <;> exact Or.inl hb

theorem settled_tryBorrow (h : tryBorrowCpuFromIdleDocker T env s = .ok s') : Settled s s' := by
  unfold tryBorrowCpuFromIdleDocker at h
  dsimp only at h
  split at h
  · cases h
    exact settled_offers s
  · obtain ⟨s1, h1, h⟩ := bind_ok h
    exact ((settled_offers s).trans (.foldlM (fun _ _ _ hb => settled_borrow hb) h1)).trans
      (.foldlM (fun _ _ _ hl => settled_lend hl) h)

theorem settled_settleLoan (lender : Str) (r : State × UMap Str ℚ) (p : Str) :
    Settled r.1 (settleLoan lender r p).1 := by
  unfold settleLoan
  dsimp only
  split
  · exact .refl r.1
  · exact .setDocker rfl Or.inl

theorem settled_settleLoans (lenders : List Str) (s : State) : Settled s (settleLoans lenders s).1 := by
  have hfold : ∀ {α : Type} (f : State × UMap Str ℚ → α → State × UMap Str ℚ)
      (_ : ∀ r a, Settled r.1 (f r a).1) (l : List α) (r : State × UMap Str ℚ),
      Settled r.1 (l.foldl f r).1 := by
    intro α f hf l
    induction l with
    | nil => exact fun r => .refl r.1
    | cons a l ih => exact fun r => (hf r a).trans (ih (f r a))
  exact hfold _ (fun r lender => hfold _ (settled_settleLoan lender) _ r) lenders (s, .empty)

theorem settled_tryReturn (h : tryReturnCpuToIdleDocker T env s = .ok s') : Settled s s' := by
  unfold tryReturnCpuToIdleDocker at h
  dsimp only at h
  split at h
  · cases h
    exact .refl s
  · obtain ⟨s1, h1, h⟩ := bind_ok h
    refine ((settled_settleLoans (needReturnDockers s) s).trans (.foldlM (fun s2 d s3 h2 => ?_) h1)).trans
      (.foldlM (fun s2 d s3 h2 => settled_minus h2) h)
    obtain ⟨⟨s4, b⟩, h4, h2⟩ := bind_ok h2
    cases h2
    exact (settled_add h4).trans (.setDocker rfl Or.inl)

theorem settled_tune (h : tune T env s = .ok s') : Settled s s' := by
  obtain ⟨s1, h1, h⟩ := bind_ok h
  have hs1 := settled_optimizeBind h1
  split at h
  · obtain ⟨s2, h2, h⟩ := bind_ok h
    exact (hs1.trans (settled_tryBorrow h2)).trans (settled_tryReturn h)
  · cases h
    exact hs1

/-! ### Where it comes from -/

/-- The tuning, and for each container what it reported when it was seen for the second time. -/
structure Watched where
  state : State
  before : Str → Option DockerAdapt.Entry

/-- What is noted of a container that was not known so far. -/
def noted (data : List DockerAdapt.Entry) (s : State) (before : Str → Option DockerAdapt.Entry) (d : Str) :
    Option DockerAdapt.Entry :=
  if (s.docker d).inited then before d else (collect data).find d

/-- One step; it is noted what is seen. -/
def Watched.step (T : Topology) (w : Watched) (a : Act D) : Except Fault Watched := do
  let s ← ClusterAffinity.step T w.state a
  match a with
  | .update data _ _ => return ⟨s, noted data w.state w.before⟩
  | _ => return ⟨s, w.before⟩

/-- CPUs and nodes are reported as the kernel lists them. -/
def Readable (_ : Watched) : Act D → Prop
  | .update data _ _ => ∀ c ∈ data, (∃ v, Lists c.cpus v) ∧ ∃ v, Lists c.mems v
  | _ => True

/-- The limit that is kept. -/
def limitOf (c : DockerAdapt.Entry) : ℚ :=
  if c.cfs_period_us > 0 then toDouble (c.cfs_quota_us / c.cfs_period_us).toInt else 0

/-- What is kept is what `c` reports. -/
structure SeenWith (c : DockerAdapt.Entry) (info : DockerResourceInfo) : Prop where
  cpus : Lists c.cpus info.initialCpuSet
  mems : Lists c.mems info.initialMemSet
  limit : info.initialCpuLimit = limitOf c

/-- A container is known by what it reported, or not known and not bound. -/
def Known (before : Str → Option DockerAdapt.Entry) (info : DockerResourceInfo) (d : Str) : Prop :=
  (info.inited = true ∧ ∃ c, before d = some c ∧ SeenWith c info) ∨
    (info.inited = false ∧ info.initialCpuLimit = 0 ∧ info.optimizeBinded = false)

theorem known_new (before : Str → Option DockerAdapt.Entry) (d : Str) : Known before .new d :=
  Or.inr ⟨rfl, rfl, rfl⟩

theorem Settled.known {before : Str → Option DockerAdapt.Entry} {d : Str} (h : Settled s s')
    (hk : Known before (s.docker d) d) : Known before (s'.docker d) d := by
  have hi := h.initials d
  simp only [DockerResourceInfo.initials, Prod.mk.injEq] at hi
  obtain ⟨h1, h2, h3, h4⟩ := hi
  rcases hk with ⟨hin, c, hc, hseen⟩ | ⟨hin, hlim, hb⟩
  · exact Or.inl ⟨h1 ▸ hin, c, hc, ⟨h2 ▸ hseen.cpus, h3 ▸ hseen.mems, h4 ▸ hseen.limit⟩⟩
  · refine Or.inr ⟨h1 ▸ hin, h4 ▸ hlim, Bool.eq_false_iff.mpr (fun hb' => ?_)⟩
    rcases h.bound d hb' with hb' | hpos
    · rw [hb] at hb'
      cases hb'
    · rw [hlim] at hpos
      exact lt_irrefl _ hpos

theorem find_collect {data : List DockerAdapt.Entry} {d : Str} {c : DockerAdapt.Entry}
    (h : (collect data).find d = some c) : c ∈ data := by
  have hfold : ∀ (l : List DockerAdapt.Entry) (m : UMap Str DockerAdapt.Entry),
      (∀ c, m.find d = some c → c ∈ data) → l ⊆ data →
      ∀ c, (l.foldl (fun m c => m.insert c.id c) m).find d = some c → c ∈ data := by
    intro l
    induction l with
    | nil => exact fun m hm _ => hm
    | cons x l ih =>
      intro m hm hl
      obtain ⟨hx, hl⟩ := List.cons_subset.mp hl
      refine ih _ (fun c hc => ?_) hl
      rw [UMap.find_insert] at hc
      split at hc
      · cases hc
        exact hx
      · exact hm c hc
  exact hfold data .empty (fun c hc => by cases hc) (List.Subset.refl data) c h

/-- A container that is seen for the second time is known by what it reports then. -/
theorem seenWith_initInfo {c : DockerAdapt.Entry} {info info' : DockerResourceInfo}
    (hc : (∃ v, Lists c.cpus v) ∧ ∃ v, Lists c.mems v) (h : initInfo c info = .ok info') :
    SeenWith c info' ∧ info'.inited = true := by
  obtain ⟨⟨v, hv⟩, ⟨w, hw⟩⟩ := hc
  rw [initInfo, transformStrToVec_of_lists hv, transformStrToVec_of_lists hw] at h
  cases h
  exact ⟨⟨hv, hw, rfl⟩, rfl⟩

/-- Half way through `Update`: who is still there is known, and who was known before is. -/
structure Following (collector : UMap Str DockerAdapt.Entry) (before : Str → Option DockerAdapt.Entry)
    (s0 s : State) : Prop where
  known : ∀ d, Known before (s.docker d) d
  still : ∀ d, collector.count d = true → (s0.docker d).inited = true → (s.docker d).inited = true

theorem Following.removeGone {collector : UMap Str DockerAdapt.Entry} {updated : Str → Bool} {d : Str}
    {before : Str → Option DockerAdapt.Entry} {s0 : State} (hf : Following collector before s0 s)
    (h : removeGone T collector updated s d = .ok s') : Following collector before s0 s' := by
  unfold ClusterAffinity.removeGone at h
  split at h
  · cases h
    exact hf
  · rename_i hgone
    obtain ⟨s1, h1, h⟩ := bind_ok h
    cases h
    have hs1 := settled_recover h1
    have hd : ∀ x, ({ s1 with dockerInfos := s1.dockerInfos.erase d } : State).docker x =
        if x = d then .new else s1.docker x := by
      intro x
      unfold State.docker
      rw [UMap.find_erase]
      split <;> rfl
    refine ⟨fun x => ?_, fun x hx hin => ?_⟩
    · rw [hd]
      split
      · exact known_new before x
      · exact hs1.known (hf.known x)
    · have hne : x ≠ d := by
        rintro rfl
        exact hgone hx
      rw [hd, if_neg hne, hs1.inited]
      exact hf.still x hx hin

omit [Double D] in
theorem Following.updateDocker {data : List DockerAdapt.Entry} {d : Str} {s0 : State}
    {before : Str → Option DockerAdapt.Entry}
    (hdata : ∀ c ∈ data, (∃ v, Lists c.cpus v) ∧ ∃ v, Lists c.mems v)
    (hf : Following (collect data) (noted data s0 before) s0 s)
    (h : updateDocker T (collect data) s d = .ok s') :
    Following (collect data) (noted data s0 before) s0 s' := by
  unfold ClusterAffinity.updateDocker at h
  split at h
  · rename_i pre c hpre hc
    have hcount : (collect data).count d = true := by
      rw [UMap.count, hc]
      rfl
    -- what is kept is what was kept, or what is reported now
    obtain ⟨info, usage, hknown, hin, h⟩ : ∃ info usage, Known (noted data s0 before) info d ∧
        info.inited = true ∧ s.setDocker d (info.push usage) = s' := by
      dsimp only at h
      split at h
      · rename_i hin
        obtain ⟨info, hinfo, h⟩ := bind_ok h
        obtain ⟨usage, -, h⟩ := bind_ok h
        cases hinfo
        exact ⟨_, usage, hf.known d, hin, Except.ok.inj h⟩
      · rename_i hnot
        obtain ⟨info, hinfo, h⟩ := bind_ok h
        obtain ⟨usage, -, h⟩ := bind_ok h
        obtain ⟨hseen, hin⟩ := seenWith_initInfo (hdata c (find_collect hc)) hinfo
        refine ⟨info, usage, Or.inl ⟨hin, c, ?_, hseen⟩, hin, Except.ok.inj h⟩
        rw [noted, if_neg (fun h0 => hnot (hf.still d hcount h0)), hc]
    subst h
    have hpush : ∀ u, (info.push u).initials = info.initials ∧
        (info.push u).optimizeBinded = info.optimizeBinded := by
      intro u
      unfold DockerResourceInfo.push
      dsimp only
      split <;> exact ⟨rfl, rfl⟩
    obtain ⟨hi, hb⟩ := hpush usage
    simp only [DockerResourceInfo.initials, Prod.mk.injEq] at hi
    obtain ⟨h1, h2, h3, h4⟩ := hi
    refine ⟨fun x => ?_, fun x hx hin0 => ?_⟩
    · rw [docker_setDocker]
      split
      · rename_i hx
        subst hx
        rcases hknown with ⟨hin, c', hc', hseen⟩ | ⟨hout, -⟩
        · exact Or.inl ⟨h1 ▸ hin, c', hc', ⟨h2 ▸ hseen.cpus, h3 ▸ hseen.mems, h4 ▸ hseen.limit⟩⟩
        · rw [hin] at hout
          cases hout
      · exact hf.known x
    · rw [docker_setDocker]
      split
      · rw [h1]
        exact hin
      · exact hf.still x hx hin0
  · cases h
    exact hf

/-- Every step leaves everyone known. -/
theorem known_step {w w' : Watched} {a : Act D} (hk : ∀ d, Known w.before (w.state.docker d) d)
    (hok : Readable w a) (h : w.step T a = .ok w') : ∀ d, Known w'.before (w'.state.docker d) d := by
  obtain ⟨s', hs, h⟩ := bind_ok h
  cases a with
  | tune env =>
    cases h
    exact fun d => (settled_tune hs).known (hk d)
  | exit updated =>
    cases h
    obtain ⟨s1, -, hs⟩ := bind_ok hs
    cases hs
    exact fun d => known_new _ d
  | update data updated order =>
    cases h
    have hstart : Following (collect data) (noted data w.state w.before) w.state w.state := by
      refine ⟨fun d => ?_, fun d _ hin => hin⟩
      rcases hk d with ⟨hin, c, hc, hseen⟩ | hnot
      · exact Or.inl ⟨hin, c, by rw [noted, if_pos hin, hc], hseen⟩
      · exact Or.inr hnot
    unfold ClusterAffinity.step update at hs
    dsimp only at hs
    split at hs
    · cases hs
      exact hstart.known
    · obtain ⟨s1, h1, hs⟩ := bind_ok hs
      obtain ⟨s2, h2, hs⟩ := bind_ok hs
      cases hs
      have hf1 := foldlM_invariant (fun _ _ _ _ hf hstep => hf.removeGone hstep) hstart h1
      have hf2 := foldlM_invariant (fun _ _ _ _ hf hstep => hf.updateDocker hok hstep) hf1 h2
      intro d
      have hd : ({ s2 with
          collectorPre := collect data
          dockerInfos := s2.dockerInfos.reorder order } : State).docker d = s2.docker d := by
        unfold State.docker
        rw [UMap.find_reorder]
      rw [hd]
      exact hf2.known d

/-! ### What comes back -/

/-- The two strings list the same. -/
def SameSet (s s' : Str) : Prop := ∃ v v', Lists s v ∧ Lists s' v' ∧ ∀ x, x ∈ v' ↔ x ∈ v

/-- The commands give a container what it had. -/
def Restores (c : DockerAdapt.Entry) (dockerId : Str) (commands : List Str) : Prop :=
  ∃ cpus cpuset mems, commands =
      [str "docker update --cpus=" ++ cpus ++ str " " ++ dockerId,
        str "docker update --cpuset-cpus=" ++ cpuset ++ str " " ++ dockerId,
        str "docker update --cpuset-mems=" ++ mems ++ str " " ++ dockerId] ∧
    readDecimal cpus = (c.cfs_quota_us.toInt : ℚ) / c.cfs_period_us.toInt ∧
    SameSet c.cpus cpuset ∧ SameSet c.mems mems

/-- The limit is a whole number that a `double` holds. -/
def WholeLimit (c : DockerAdapt.Entry) : Prop :=
  c.cfs_period_us.toInt ∣ c.cfs_quota_us.toInt ∧
    toDouble (c.cfs_quota_us.toInt / c.cfs_period_us.toInt) =
      (c.cfs_quota_us.toInt / c.cfs_period_us.toInt : ℤ)

theorem toDouble_whole {n : ℤ} (h : 0 ≤ n) : ∃ m : ℕ, toDouble n = m := by
  unfold toDouble
  dsimp only
  rcases h.eq_or_lt with rfl | hpos
  · exact ⟨0, by simp⟩
  · rw [Int.sign_eq_one_of_pos hpos, Int.cast_one, one_mul]
    exact ⟨_, rfl⟩

theorem limitOf_eq {c : DockerAdapt.Entry} (hq : 0 < c.cfs_quota_us) (hp : 0 < c.cfs_period_us) :
    0 < c.cfs_quota_us.toInt ∧ 0 < c.cfs_period_us.toInt ∧
      limitOf c = toDouble (c.cfs_quota_us.toInt / c.cfs_period_us.toInt) := by
  have hq' : 0 < c.cfs_quota_us.toInt := Int64.lt_iff_toInt_lt.mp hq
  have hp' : 0 < c.cfs_period_us.toInt := Int64.lt_iff_toInt_lt.mp hp
  have hmin : c.cfs_quota_us ≠ Int64.minValue := by
    intro h
    rw [h] at hq'
    exact absurd hq' (by decide)
  refine ⟨hq', hp', ?_⟩
  rw [limitOf, if_pos hp, Int64.toInt_div_of_ne_left _ _ hmin, Int.tdiv_eq_ediv_of_nonneg hq'.le]

theorem mul_of_whole {quota period : ℤ} {m : ℕ} (hp : 0 < period) :
    ((m : ℚ) = (quota : ℚ) / period) ↔ period ∣ quota ∧ (m : ℤ) = quota / period := by
  have hne : (period : ℚ) ≠ 0 := by exact_mod_cast hp.ne'
  rw [eq_div_iff hne]
  constructor
  · intro h
    have h : (m : ℤ) * period = quota := by exact_mod_cast h
    exact ⟨⟨m, by rw [← h, mul_comm]⟩, by rw [← h, Int.mul_ediv_cancel _ hp.ne']⟩
  · rintro ⟨hdvd, hm⟩
    have h : (m : ℤ) * period = quota := by rw [hm, Int.ediv_mul_cancel hdvd]
    exact_mod_cast h

theorem lists_lt {s : Str} {v : List ℕ} (h : Lists s v) : ∀ x ∈ v, x < 2 ^ 31 - 1 := by
  obtain ⟨rs, hrs, -, rfl⟩ := h
  intro x hx
  obtain ⟨l, hl, hx⟩ := List.mem_flatten.mp hx
  obtain ⟨r, hr, rfl⟩ := List.mem_map.mp hl
  have := hrs r hr
  have := List.mem_range'_1.mp hx
  omega

theorem sameSet_convert {s : Str} {v : List ℕ} (h : Lists s v) :
    SameSet s (convertCpusetToString (v.map Int.ofNat)) :=
  ⟨v, v, h, lists_convert (lists_lt h), fun _ => Iff.rfl⟩

/-- The commands for a container that is known by what it reported. -/
theorem restores_iff {c : DockerAdapt.Entry} {info : DockerResourceInfo} {dockerId : Str}
    (h : SeenWith c info) (hq : 0 < c.cfs_quota_us) (hp : 0 < c.cfs_period_us) :
    Restores c dockerId (recoverCommands dockerId info) ↔ WholeLimit c := by
  obtain ⟨hq', hp', hlimit⟩ := limitOf_eq hq hp
  obtain ⟨m, hm⟩ := toDouble_whole (Int.ediv_nonneg hq'.le hp'.le)
  have hcpus : readDecimal (toStringDouble info.initialCpuLimit) = m := by
    rw [h.limit, hlimit, hm, readDecimal_toStringDouble]
  have hwhole : WholeLimit c ↔ (m : ℚ) = (c.cfs_quota_us.toInt : ℚ) / c.cfs_period_us.toInt := by
    rw [mul_of_whole hp', WholeLimit, hm]
    refine and_congr_right (fun _ => ?_)
    rw [← Int.cast_natCast, Int.cast_inj]
  rw [hwhole, ← hcpus]
  constructor
  · rintro ⟨cpus, cpuset, mems, hcmd, hread, -⟩
    have hfirst : str "docker update --cpus=" ++ toStringDouble info.initialCpuLimit ++ str " " ++
        dockerId = str "docker update --cpus=" ++ cpus ++ str " " ++ dockerId :=
      (List.cons.inj hcmd).1
    have hfirst := List.append_cancel_right (List.append_cancel_right hfirst)
    rw [List.append_cancel_left hfirst, hread]
  · intro hread
    exact ⟨_, _, _, rfl, hread, sameSet_convert h.cpus, sameSet_convert h.mems⟩

/-- A vector reads back exactly if it has no negative elements. -/
theorem convert_roundTrip_iff {v : List ℤ} (h : ∀ x ∈ v, x < 2 ^ 31 - 1) :
    (transformStrToVec (convertCpusetToString v)).map (List.map Int.ofNat) = .ok v ↔ ∀ x ∈ v, 0 ≤ x := by
  constructor
  · intro hr
    cases hw : transformStrToVec (convertCpusetToString v) with
    | error e => rw [hw] at hr; cases hr
    | ok w =>
      rw [hw] at hr
      cases hr
      intro x hx
      obtain ⟨n, -, rfl⟩ := List.mem_map.mp hx
      exact Int.natCast_nonneg n
  · intro hpos
    have hv : (v.map Int.toNat).map Int.ofNat = v := by
      rw [List.map_map]
      exact (List.map_congr_left (fun x hx => Int.toNat_of_nonneg (hpos x hx))).trans (List.map_id v)
    have hlt : ∀ n ∈ v.map Int.toNat, n < 2 ^ 31 - 1 := by
      intro n hn
      obtain ⟨x, hx, rfl⟩ := List.mem_map.mp hn
      have := h x hx
      have := hpos x hx
      omega
    have hread := transformStrToVec_convert hlt
    rw [hv] at hread
    rw [hread]
    exact congrArg Except.ok hv

/-- In every run, every container is known. -/
theorem known_of_runs {dockerBorrowSwitch : Bool} {s0 : State} {w : Watched}
    (h0 : init T dockerBorrowSwitch = some s0)
    (h : Runs (Watched.step (D := D) T) ⟨s0, fun _ => none⟩ Readable w) (d : Str) :
    Known w.before (w.state.docker d) d := by
  have hstart : ∀ d, Known (fun _ => none) (s0.docker d) d := by
    intro d
    have hnew : s0.docker d = .new := by
      have hinit := (initSystemClusters_onlyPools T
        ⟨dockerBorrowSwitch, true, .empty, .empty, .empty, .empty⟩).docker d
      unfold init at h0
      split at h0
      · cases h0
      · cases h0
        exact hinit
    rw [hnew]
    exact known_new _ d
  exact h.invariant (I := fun w => ∀ d, Known w.before (w.state.docker d) d) hstart
    (fun _ _ _ hk hok hs => known_step hk hok hs) d

/-- A container that is bound has been seen. -/
theorem seenWith_of_bound {before : Str → Option DockerAdapt.Entry} {info : DockerResourceInfo} {d : Str}
    (h : Known before info d) (hb : info.optimizeBinded = true) :
    ∃ c, before d = some c ∧ SeenWith c info := by
  rcases h with ⟨-, c, hc, hseen⟩ | ⟨-, -, hno⟩
  · exact ⟨c, hc, hseen⟩
  · rw [hb] at hno
    cases hno

end

/-! ### A container that is bound -/

/-- It is seen twice and bound. -/
def sampleBound (quota : ℕ) : List (Act ℚ) :=
  [sampleUpdate [sampleContainer "a" quota 0 0], sampleUpdate [sampleContainer "a" quota 0 1], sampleTune]

def sampleStart : State := initSystemClusters sampleTopology ⟨false, true, .empty, .empty, .empty, .empty⟩

theorem init_sampleStart : init sampleTopology false = some sampleStart := rfl

theorem lists_sample (quota used now : ℕ) : (∃ v, Lists (sampleContainer "a" quota used now).cpus v) ∧
    ∃ v, Lists (sampleContainer "a" quota used now).mems v :=
  have hcpus : str "0-7" = [44].intercalate ([(0, 7)].map showRange) := by decide
  have hmems : str "0" = [44].intercalate ([(0, 0)].map showRange) := by decide
  ⟨⟨_, [(0, 7)], by decide, hcpus, rfl⟩, ⟨_, [(0, 0)], by decide, hmems, rfl⟩⟩

theorem readable_sampleBound (quota : ℕ) : ∀ a ∈ sampleBound quota, ∀ w, Readable w a := by
  intro a ha w
  simp only [sampleBound, List.mem_cons, List.not_mem_nil, or_false] at ha
  rcases ha with rfl | rfl | rfl
  · exact List.forall_mem_singleton.mpr (lists_sample quota 0 0)
  · exact List.forall_mem_singleton.mpr (lists_sample quota 0 1)
  · trivial

/-- What is seen of the container when it is bound. -/
def sampleSeen (quota : ℕ) : Option (Bool × Option (Int64 × Int64)) :=
  match (sampleBound quota).foldlM (Watched.step sampleTopology) ⟨sampleStart, fun _ => none⟩ with
  | .ok w => some ((w.state.docker (str "a")).optimizeBinded,
      (w.before (str "a")).map (fun c => (c.cfs_quota_us, c.cfs_period_us)))
  | .error _ => none

theorem runs_of_sampleSeen {quota : ℕ} {b : Bool} {c : Option (Int64 × Int64)}
    (h : sampleSeen quota = some (b, c)) :
    ∃ w, Runs (Watched.step (D := ℚ) sampleTopology) ⟨sampleStart, fun _ => none⟩ Readable w ∧
      (w.state.docker (str "a")).optimizeBinded = b ∧
      (w.before (str "a")).map (fun c => (c.cfs_quota_us, c.cfs_period_us)) = c := by
  unfold sampleSeen at h
  split at h
  · rename_i w hw
    cases h
    exact ⟨w, .of_foldlM (readable_sampleBound quota) .start hw, rfl, rfl⟩
  · cases h

end ClusterAffinity
end OeAware

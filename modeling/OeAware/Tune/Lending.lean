import OeAware.Analysis.Isolation
import OeAware.Schemes.Loans
import OeAware.Schemes.Run
import OeAware.Tune.Effects

/-! @src src/plugin/tune/docker/cluster_affinity/cluster_affinity_adapt.cpp |
    name:TryBorrowCpuFromIdleDocker, TryReturnCpuToIdleDocker, Update | scheme:loans

    The containers' limits are a ledger: who lends has less, who borrows has more, and `borrowDockerMap` says
    by whom. Binding leaves it alone, borrowing and returning keep its balance, and so does a container that
    comes or goes, unless one that stays owes to it.

        Update   join · leave        Tune   lend · repay -/

namespace OeAware
open Schemes
open scoped BigOperators

namespace ClusterAffinity

/-! ### Accounts -/

/-- What matters of a container for the loans. -/
structure Account where
  inited : Bool
  dockerLended : Bool
  cpuUsageQueue : List ℚ
  cpuUsageSum : ℚ
  borrowDockerMap : UMap Str ℚ
  initialCpuLimit : ℚ
  lendCpuLimit : ℚ
  currentCpuLimit : ℚ

def DockerResourceInfo.account (info : DockerResourceInfo) : Account :=
  ⟨info.inited, info.dockerLended, info.cpuUsageQueue, info.cpuUsageSum, info.borrowDockerMap,
    info.initialCpuLimit, info.lendCpuLimit, info.currentCpuLimit⟩

def State.account (s : State) (d : Str) : Account := (s.docker d).account

/-- The accounts of some containers are changed, and no container comes or goes. -/
structure Changed (s s' : State) (ds : List Str) (f : Str → Account → Account) : Prop where
  keys : ∀ d, d ∈ s'.dockerInfos.keys ↔ d ∈ s.dockerInfos.keys
  account : ∀ d, s'.account d = if d ∈ ds then f d (s.account d) else s.account d

namespace Changed
variable {s s' s'' : State} {d : Str} {ds : List Str} {f : Str → Account → Account}

theorem refl (s : State) (f : Str → Account → Account) : Changed s s [] f :=
  ⟨fun _ => Iff.rfl, fun _ => rfl⟩

theorem of_docker (hkeys : s'.dockerInfos.keys = s.dockerInfos.keys) (h : ∀ d, s'.docker d = s.docker d)
    (f : Str → Account → Account) : Changed s s' [] f :=
  ⟨fun d => by rw [hkeys], fun d => congrArg DockerResourceInfo.account (h d)⟩

theorem of_onlyPools (h : OnlyPools s s') (f : Str → Account → Account) : Changed s s' [] f :=
  .of_docker (by rw [h.dockerInfos]) h.docker f

/-- Nothing has changed but that. -/
theorem after_none (h : Changed s s' [] f) (h' : Changed s' s'' ds f) : Changed s s'' ds f where
  keys x := (h'.keys x).trans (h.keys x)
  account x := by rw [h'.account, h.account, if_neg List.not_mem_nil]

theorem cons (hd : d ∉ ds) (h : Changed s s' [d] f) (h' : Changed s' s'' ds f) :
    Changed s s'' (d :: ds) f where
  keys x := (h'.keys x).trans (h.keys x)
  account x := by
    rw [h'.account, h.account]
    by_cases hx : x = d
    · subst hx
      simp [hd]
    · simp [hx]

/-- One after another is changed, and something is kept meanwhile. -/
theorem foldlM {g : State → Str → Except Fault State} {Keep : State → Prop} :
    ∀ {ds : List Str} {s s' : State}, ds.Nodup →
    (∀ s d s', d ∈ ds → d ∈ s.dockerInfos.keys → Keep s → g s d = .ok s' → Changed s s' [d] f ∧ Keep s') →
    (∀ d ∈ ds, d ∈ s.dockerInfos.keys) → Keep s → ds.foldlM g s = .ok s' → Changed s s' ds f
  | [], s, s', _, _, _, _, h => by
    cases h
    exact .refl s f
  | d :: ds, s, s', hnd, hstep, hkeys, hk, h => by
    obtain ⟨hd, hnd⟩ := List.nodup_cons.mp hnd
    rw [List.foldlM_cons] at h
    obtain ⟨s1, h1, h⟩ := bind_ok h
    obtain ⟨hc, hk1⟩ := hstep s d s1 List.mem_cons_self (hkeys d List.mem_cons_self) hk h1
    refine .cons hd hc (foldlM hnd (fun s x s' hx => hstep s x s' (List.mem_cons_of_mem d hx))
      (fun x hx => (hc.keys x).mpr (hkeys x (List.mem_cons_of_mem d hx))) hk1 h)

/-- An entry that is there is written. -/
theorem setDocker {info : DockerResourceInfo} (hd : d ∈ s.dockerInfos.keys)
    (hinfo : info.account = f d (s.account d)) : Changed s (s.setDocker d info) [d] f where
  keys x := by
    unfold State.setDocker
    rw [UMap.mem_keys_insert, or_iff_right_of_imp]
    rintro rfl
    exact hd
  account x := by
    rw [State.account, docker_setDocker]
    by_cases hx : x = d
    · subst hx
      simp [hinfo]
    · simp [hx, State.account]

end Changed

/-- A limit has been changed. -/
theorem changed_charged {s s' : State} {d : Str} {limit : ℚ} (hd : d ∈ s.dockerInfos.keys)
    (h : Charged s s' d limit) :
    Changed s s' [d] (fun _ a => { a with currentCpuLimit := a.currentCpuLimit + limit }) where
  keys x := by
    rw [h.keys]
    unfold State.setDocker
    rw [UMap.mem_keys_insert, or_iff_right_of_imp]
    rintro rfl
    exact hd
  account x := by
    obtain ⟨cpus, ids, hdocker⟩ := h.docker
    rw [State.account, hdocker]
    by_cases hx : x = d
    · subst hx
      simp [State.account, DockerResourceInfo.account, DockerResourceInfo.charge]
    · simp [hx, State.account]

section
variable {D : Type} [Double D] {T : Topology} {env : TuneEnv D} {s s' : State}

/-- An entry that is there is written, and the accounts stay. -/
theorem Changed.setPlace {info : DockerResourceInfo} {d : Str} (hd : d ∈ s.dockerInfos.keys)
    (hinfo : info.account = s.account d) (f : Str → Account → Account) :
    Changed s (s.setDocker d info) [] f := by
  have h := Changed.setDocker (f := fun _ a => a) hd hinfo
  exact ⟨h.keys, fun x => (h.account x).trans (ite_self _)⟩

/-- Binding leaves the accounts alone. -/
theorem changed_bindClusters {d : Str} {nid n : ℕ} (f : Str → Account → Account)
    (hd : d ∈ s.dockerInfos.keys) (h : dockerBindClusters T env d nid n s = .ok s') :
    Changed s s' [] f := by
  obtain ⟨⟨ids, s1⟩, h1, h⟩ := bind_ok h
  obtain ⟨⟨cpus, s2⟩, h2, h⟩ := bind_ok h
  cases h
  have hpools := (onlyPools_takeClusters h1).trans (onlyPools_fillClusters h2)
  refine (Changed.of_onlyPools hpools f).after_none (.setPlace ?_ ?_ f)
  · rw [hpools.dockerInfos]
    exact hd
  · rw [State.account, hpools.docker]
    split <;> rfl

theorem changed_optimizeBind (f : Str → Account → Account) : ∀ {ids : List Str} {s s' : State},
    (∀ d ∈ ids, d ∈ s.dockerInfos.keys) → dockerOptimizeBindSchedule T env ids s = .ok s' →
    Changed s s' [] f
  | [], s, s', _, h => by
    cases h
    exact .refl s f
  | d :: ids, s, s', hkeys, h => by
    obtain ⟨hd, hids⟩ := List.forall_mem_cons.mp hkeys
    rw [dockerOptimizeBindSchedule] at h
    dsimp only at h
    split at h
    · exact changed_optimizeBind f hids h
    · split at h
      · cases h
        exact .refl s f
      · obtain ⟨need, -, h⟩ := bind_ok h
        obtain ⟨nid, -, h⟩ := bind_ok h
        cases nid with
        | none =>
          cases h
          exact .refl s f
        | some nid =>
          dsimp only at h
          split at h
          · cases h
            exact .refl s f
          · obtain ⟨s1, h1, h⟩ := bind_ok h
            have hs1 := changed_bindClusters f hd h1
            have hs2 : Changed s1 (s1.setDocker d { s1.docker d with optimizeBinded := true }) [] f :=
              .setPlace ((hs1.keys d).mpr hd) (by rfl) f
            refine hs1.after_none (hs2.after_none (changed_optimizeBind f (fun x hx => ?_) h))
            exact (hs2.keys x).mpr ((hs1.keys x).mpr (hids x hx))

/-! ### Borrowing -/

/-- What a borrower has afterwards. -/
def Account.borrow (lenders : List Str) (lendCpuLimit : Str → ℚ) (n : ℕ) (limit : ℚ) (a : Account) : Account :=
  { a with
    currentCpuLimit := a.currentCpuLimit + limit
    borrowDockerMap := lenders.foldl (fun m lender => m.insert lender (lendCpuLimit lender / n))
      a.borrowDockerMap }

/-- What a lender has. -/
def Account.lend (a : Account) : Account :=
  { a with currentCpuLimit := a.currentCpuLimit - a.lendCpuLimit, dockerLended := true }

/-- What one offers that could lend. -/
def Account.offering (a : Account) (lendCpuLimit : ℚ) : Account := { a with lendCpuLimit }

theorem Changed.trans_one {s'' : State} {d : Str} {f g e : Str → Account → Account}
    (h : Changed s s' [d] f) (h' : Changed s' s'' [d] g) (he : ∀ a, e d a = g d (f d a)) :
    Changed s s'' [d] e where
  keys x := (h'.keys x).trans (h.keys x)
  account x := by
    rw [h'.account, h.account]
    by_cases hx : x = d
    · subst hx
      simp [he]
    · simp [hx]

theorem changed_borrow {lenders : List Str} {n : ℕ} {limit : ℚ} {d : Str} {offer : Str → ℚ}
    (h0 : T.oneClusterCpuNum ≠ 0) (hd : d ∈ s.dockerInfos.keys)
    (hoffer : ∀ l, (s.account l).lendCpuLimit = offer l) (h : borrow T env lenders n limit s d = .ok s') :
    Changed s s' [d] (fun _ a => a.borrow lenders offer n limit) ∧
      ∀ l, (s'.account l).lendCpuLimit = offer l := by
  obtain ⟨⟨s1, b⟩, h1, h⟩ := bind_ok h
  cases h
  have hadd := changed_charged hd (charged_add h0 h1)
  have hoffer1 : ∀ l, (s1.account l).lendCpuLimit = offer l := by
    intro l
    rw [hadd.account, ← hoffer]
    split <;> rfl
  have hfun : (fun (m : UMap Str ℚ) lender => m.insert lender ((s1.docker lender).lendCpuLimit / n)) =
      fun m lender => m.insert lender (offer lender / n) := by
    funext m lender
    rw [← hoffer1]
    rfl
  have hset : Changed s1 (s1.setDocker d { s1.docker d with
      borrowDockerMap := lenders.foldl
        (fun m lender => m.insert lender ((s1.docker lender).lendCpuLimit / n))
        (s1.docker d).borrowDockerMap }) [d] (fun _ a => { a with
      borrowDockerMap := lenders.foldl (fun m lender => m.insert lender (offer lender / n))
        a.borrowDockerMap }) := by
    refine .setDocker ((hadd.keys d).mpr hd) ?_
    rw [hfun]
    rfl
  have hboth := hadd.trans_one hset (fun _ => rfl) (e := fun _ a => a.borrow lenders offer n limit)
  refine ⟨hboth, fun l => ?_⟩
  rw [hboth.account, ← hoffer]
  split <;> rfl

omit [Double D] in
theorem changed_lend {d : Str} (hd : d ∈ s.dockerInfos.keys) (hlent : env.lent d = true)
    (h : lend env s d = .ok s') : Changed s s' [d] (fun _ a => a.lend) := by
  obtain ⟨⟨s1, b⟩, h1, h⟩ := bind_ok h
  have hb : b = env.lent d := by
    obtain ⟨nid, -, h1⟩ := bind_ok h1
    obtain ⟨need, -, h1⟩ := bind_ok h1
    obtain ⟨clusterId, -, h1⟩ := bind_ok h1
    obtain ⟨⟨cpus, ids, s2⟩, -, h1⟩ := bind_ok h1
    cases h1
    rfl
  have hminus := changed_charged hd (charged_minus h1)
  rw [hb, hlent] at h
  cases h
  have hset : Changed s1 (s1.setDocker d { s1.docker d with dockerLended := true }) [d]
      (fun _ a => { a with dockerLended := true }) := .setDocker ((hminus.keys d).mpr hd) (by rfl)
  refine ⟨fun x => (hset.keys x).trans (hminus.keys x), fun x => ?_⟩
  rw [hset.account, hminus.account]
  by_cases hx : x = d
  · subst hx
    simp only [List.mem_singleton, if_true, ← sub_eq_add_neg]
    rfl
  · simp [hx]

end

/-! ### The ledger -/

def State.members (s : State) : Finset Str := s.dockerInfos.keys.toFinset

def ledger (a : Str → Account) : Ledger Str where
  initial d := (a d).initialCpuLimit
  lent d := if (a d).dockerLended then (a d).lendCpuLimit else 0
  owed d l := (a d).borrowDockerMap.value l
  current d := (a d).currentCpuLimit

/-- The ledger is balanced, who is owed something has lent, and usage is what has been measured. -/
structure Sound (s : State) : Prop where
  known : ∀ d ∈ s.dockerInfos.keys, (s.account d).inited = true
  balanced : (ledger s.account).Balanced s.members
  lender : ∀ d l, (s.account d).borrowDockerMap.count l = true →
    l ∈ s.dockerInfos.keys ∧ (s.account l).dockerLended = true
  usage : ∀ d, (∀ u ∈ (s.account d).cpuUsageQueue, 0 ≤ u) ∧
    (s.account d).cpuUsageSum = (s.account d).cpuUsageQueue.sum

section
variable {D : Type} [Double D] {T : Topology} {env : TuneEnv D} {s s' : State}

theorem mem_members {d : Str} : d ∈ s.members ↔ d ∈ s.dockerInfos.keys := List.mem_toFinset

theorem Changed.members {ds : List Str} {f : Str → Account → Account} (h : Changed s s' ds f) :
    s'.members = s.members := by
  ext d
  rw [mem_members, mem_members, h.keys]

theorem Changed.account_eq {f : Str → Account → Account} (h : Changed s s' [] f) : s'.account = s.account :=
  funext (fun d => by rw [h.account, if_neg List.not_mem_nil])

theorem Sound.same {f : Str → Account → Account} (hs : Sound s) (h : Changed s s' [] f) : Sound s' := by
  have hacc := h.account_eq
  refine ⟨fun d hd => ?_, ?_, fun d l hl => ?_, fun d => ?_⟩
  · rw [hacc]
    exact hs.known d ((h.keys d).mp hd)
  · rw [hacc, h.members]
    exact hs.balanced
  · rw [hacc] at hl ⊢
    obtain ⟨h1, h2⟩ := hs.lender d l hl
    exact ⟨(h.keys l).mpr h1, h2⟩
  · rw [hacc]
    exact hs.usage d

/-- Nobody owes anything to one who has not lent. -/
theorem Sound.value_eq_zero (hs : Sound s) {d l : Str} (h : (s.account l).dockerLended = false) :
    (s.account d).borrowDockerMap.value l = 0 := by
  unfold UMap.value
  cases hf : (s.account d).borrowDockerMap.find l with
  | none => rfl
  | some v =>
    have hlent := (hs.lender d l (by rw [UMap.count, hf]; rfl)).2
    rw [h] at hlent
    cases hlent

theorem find_foldl_insert (g : Str → ℚ) (x : Str) : ∀ (lenders : List Str) (m : UMap Str ℚ),
    (lenders.foldl (fun m lender => m.insert lender (g lender)) m).find x =
      if x ∈ lenders then some (g x) else m.find x
  | [], _ => rfl
  | l :: lenders, m => by
    rw [List.foldl_cons, find_foldl_insert g x lenders, UMap.find_insert]
    by_cases hx : x = l
    · subst hx
      simp
    · simp [hx]

theorem value_foldl_insert (g : Str → ℚ) (x : Str) (lenders : List Str) (m : UMap Str ℚ) :
    (lenders.foldl (fun m lender => m.insert lender (g lender)) m).value x =
      if x ∈ lenders then g x else m.value x := by
  unfold UMap.value
  rw [find_foldl_insert]
  split <;> rfl

theorem count_foldl_insert (g : Str → ℚ) (x : Str) (lenders : List Str) (m : UMap Str ℚ) :
    (lenders.foldl (fun m lender => m.insert lender (g lender)) m).count x = true ↔
      x ∈ lenders ∨ m.count x = true := by
  unfold UMap.count
  rw [find_foldl_insert]
  split <;> simp [*]

/-- What a container could lend is half of its limit, and no less than nothing. -/
theorem offer_nonneg {info : DockerResourceInfo} (hc : info.couldLend = true)
    (hu : (∀ u ∈ info.cpuUsageQueue, 0 ≤ u) ∧ info.cpuUsageSum = info.cpuUsageQueue.sum) :
    0 ≤ info.offer := by
  have hsum : 0 ≤ info.cpuUsageSum := hu.2 ▸ List.sum_nonneg hu.1
  simp only [DockerResourceInfo.couldLend, CPU_USAGE_QUEUE_LENGTH, Bool.and_eq_true] at hc
  have hle := of_decide_eq_true hc.2
  unfold DockerResourceInfo.offer CPU_USAGE_QUEUE_LENGTH
  have hdiv : 0 ≤ info.cpuUsageSum / (30 : ℕ) := div_nonneg hsum (Nat.cast_nonneg _)
  refine le_min ?_ ?_
  · linarith
  · linarith

theorem mem_couldLendDockers {d : Str} :
    d ∈ couldLendDockers s ↔ d ∈ s.dockerInfos.keys ∧ (s.docker d).couldLend = true :=
  List.mem_filter

theorem mem_needBorrowDockers {d : Str} (h : d ∈ needBorrowDockers s) :
    d ∈ s.dockerInfos.keys ∧ (s.docker d).couldLend = false := by
  obtain ⟨hd, hb⟩ := List.mem_filter.mp h
  rw [Bool.and_eq_true, Bool.not_eq_true'] at hb
  exact ⟨hd, hb.1⟩

theorem changed_offers (s : State) : Changed s (offers s) (couldLendDockers s)
    (fun d a => a.offering (s.docker d).offer) where
  keys _ := Iff.rfl
  account d := by
    have hd : (offers s).docker d =
        if d ∈ couldLendDockers s then { s.docker d with lendCpuLimit := (s.docker d).offer }
        else s.docker d := by
      have hmem : d ∈ couldLendDockers s ↔ (s.dockerInfos.find d).any (·.couldLend) = true := by
        rw [mem_couldLendDockers, UMap.mem_keys, State.docker]
        cases s.dockerInfos.find d <;> simp
      simp only [hmem]
      unfold offers State.docker
      rw [UMap.find_mapVal]
      cases s.dockerInfos.find d with
      | none => simp
      | some info => simp
    rw [State.account, hd]
    split <;> rfl

theorem not_lended_of_couldLend {d : Str} (h : d ∈ couldLendDockers s) :
    (s.account d).dockerLended = false := by
  have hc := (mem_couldLendDockers.mp h).2
  simp only [DockerResourceInfo.couldLend, Bool.and_eq_true, Bool.not_eq_true'] at hc
  exact hc.1.1.1

theorem sound_offers (hs : Sound s) : Sound (offers s) := by
  have hch := changed_offers s
  have hacc : ∀ d, ∃ v, (offers s).account d = { s.account d with lendCpuLimit := v } ∧
      ((s.account d).dockerLended = true → v = (s.account d).lendCpuLimit) := by
    intro d
    rw [hch.account]
    split
    · rename_i hd
      refine ⟨_, rfl, fun hl => ?_⟩
      rw [not_lended_of_couldLend hd] at hl
      cases hl
    · exact ⟨_, rfl, fun _ => rfl⟩
  refine ⟨fun d hd => ?_, ?_, fun d l hl => ?_, fun d => ?_⟩
  · obtain ⟨v, hv, -⟩ := hacc d
    rw [hv]
    exact hs.known d ((hch.keys d).mp hd)
  · rw [hch.members]
    refine hs.balanced.congr ?_ ?_ ?_ ?_
    · intro d _
      obtain ⟨v, hv, -⟩ := hacc d
      simp only [ledger, hv]
    · intro d _
      obtain ⟨v, hv, hsame⟩ := hacc d
      simp only [ledger, hv]
      split
      · rename_i hl
        exact hsame hl
      · rfl
    · intro d _ l
      obtain ⟨v, hv, -⟩ := hacc d
      simp only [ledger, hv]
    · intro d _
      obtain ⟨v, hv, -⟩ := hacc d
      simp only [ledger, hv]
  · obtain ⟨v, hv, -⟩ := hacc d
    obtain ⟨w, hw, -⟩ := hacc l
    rw [hv] at hl
    rw [hw]
    obtain ⟨h1, h2⟩ := hs.lender d l hl
    exact ⟨(hch.keys l).mpr h1, h2⟩
  · obtain ⟨v, hv, -⟩ := hacc d
    rw [hv]
    exact hs.usage d

/-- What borrowing and lending do to the ledger. -/
theorem ledger_lend {lenders borrowers : List Str} {offer : Str → ℚ} {a a' : Str → Account}
    (hl : lenders.Nodup) (hb : borrowers.Nodup) (hdisj : ∀ d ∈ borrowers, d ∉ lenders)
    (hoffer : ∀ l, (a l).lendCpuLimit = offer l)
    (hlent : ∀ l ∈ lenders, (a l).dockerLended = false)
    (howed : ∀ l ∈ lenders, ∀ d, (a d).borrowDockerMap.value l = 0)
    (h : ∀ d, a' d = if d ∈ lenders then (a d).lend
      else if d ∈ borrowers then (a d).borrow lenders offer borrowers.length
        ((lenders.map offer).sum / borrowers.length) else a d) :
    ledger a' = (ledger a).lend lenders.toFinset borrowers.toFinset offer := by
  have hcard : borrowers.toFinset.card = borrowers.length := List.toFinset_card_of_nodup hb
  have hsum : ∑ l ∈ lenders.toFinset, offer l = (lenders.map offer).sum := List.sum_toFinset _ hl
  simp only [ledger, Ledger.lend, Ledger.mk.injEq, List.mem_toFinset, hcard, hsum]
  refine ⟨funext fun d => ?_, funext fun l => ?_, funext fun d => funext fun l => ?_, funext fun d => ?_⟩
  · rw [h]
    split
    · rfl
    · split <;> rfl
  · rw [h]
    split
    · rename_i hmem
      rw [hlent l hmem, ← hoffer l]
      simp [Account.lend]
    · rw [add_zero]
      split <;> rfl
  · rw [h]
    split
    · rename_i hmem
      have hnot : d ∉ borrowers := fun hd => hdisj d hd hmem
      simp [Account.lend, hnot]
    · split
      · rename_i hd
        simp only [Account.borrow, hd, true_and]
        rw [value_foldl_insert (fun l => offer l / borrowers.length)]
        split
        · rename_i hmem
          rw [howed l hmem, zero_add]
        · rw [add_zero]
      · rename_i hd
        simp [hd]
  · rw [h]
    split
    · rename_i hmem
      have hnot : d ∉ borrowers := fun hd => hdisj d hd hmem
      simp [Account.lend, hnot, hoffer]
    · split
      · rename_i hd
        simp [Account.borrow]
      · simp

theorem sound_tryBorrow (h0 : T.oneClusterCpuNum ≠ 0) (hs : Sound s) (hlent : ∀ d, env.lent d = true)
    (h : tryBorrowCpuFromIdleDocker T env s = .ok s') : Sound s' := by
  have hoffers := changed_offers s
  have hs1 := sound_offers hs
  unfold tryBorrowCpuFromIdleDocker at h
  dsimp only at h
  split at h
  · cases h
    exact hs1
  rename_i hgo
  obtain ⟨s2, h2, h⟩ := bind_ok h
  have hne : needBorrowDockers s ≠ [] := fun hn => hgo (Or.inr hn)
  have hbnd : (needBorrowDockers s).Nodup := s.dockerInfos.nodup.filter _
  have hlnd : (couldLendDockers s).Nodup := s.dockerInfos.nodup.filter _
  have hkeysB : ∀ d ∈ needBorrowDockers s, d ∈ (offers s).dockerInfos.keys :=
    fun d hd => (mem_needBorrowDockers hd).1
  have hkeysL : ∀ d ∈ couldLendDockers s, d ∈ (offers s).dockerInfos.keys :=
    fun d hd => (mem_couldLendDockers.mp hd).1
  have hdisj : ∀ d ∈ needBorrowDockers s, d ∉ couldLendDockers s := by
    intro d hd hl
    rw [mem_couldLendDockers, (mem_needBorrowDockers hd).2] at hl
    cases hl.2
  obtain ⟨offer, hoffer⟩ : ∃ offer : Str → ℚ, ∀ l, ((offers s).account l).lendCpuLimit = offer l :=
    ⟨_, fun _ => rfl⟩
  have hmap : ((couldLendDockers s).map (fun d => ((offers s).docker d).lendCpuLimit)).sum =
      ((couldLendDockers s).map offer).sum := by
    congr 1
    exact List.map_congr_left (fun d _ => hoffer d)
  rw [hmap] at h2
  have hborrow := @Changed.foldlM _ _ (fun s => ∀ l, (s.account l).lendCpuLimit = offer l) _ _ _ hbnd
    (fun _ d _ _ hk hf hstep => changed_borrow h0 hk hf hstep) hkeysB hoffer h2
  have hlend := @Changed.foldlM (fun _ a => a.lend) _ (fun _ => True) _ _ _ hlnd
    (fun _ d _ _ hk _ hstep => ⟨changed_lend hk (hlent d) hstep, trivial⟩)
    (fun d hd => (hborrow.keys d).mpr (hkeysL d hd)) trivial h
  have hkeys : ∀ d, d ∈ s'.dockerInfos.keys ↔ d ∈ (offers s).dockerInfos.keys := fun d =>
    (hlend.keys d).trans (hborrow.keys d)
  have hacc : ∀ d, s'.account d = if d ∈ couldLendDockers s then ((offers s).account d).lend
      else if d ∈ needBorrowDockers s then
        ((offers s).account d).borrow (couldLendDockers s) offer (needBorrowDockers s).length
          (((couldLendDockers s).map offer).sum / (needBorrowDockers s).length)
      else (offers s).account d := by
    intro d
    rw [hlend.account, hborrow.account]
    by_cases hl : d ∈ couldLendDockers s
    · have hb : d ∉ needBorrowDockers s := fun hb => hdisj d hb hl
      simp [hl, hb]
    · simp [hl]
  have hnot : ∀ l ∈ couldLendDockers s, ((offers s).account l).dockerLended = false := by
    intro l hl
    rw [hoffers.account, if_pos hl]
    exact not_lended_of_couldLend hl
  have hledger := ledger_lend hlnd hbnd hdisj hoffer hnot
    (fun l hl d => hs1.value_eq_zero (hnot l hl)) hacc
  have hmembers : s'.members = (offers s).members := by
    ext d
    rw [mem_members, mem_members, hkeys]
  refine ⟨fun d hd => ?_, ?_, fun d l hl => ?_, fun d => ?_⟩
  · have hk := hs1.known d ((hkeys d).mp hd)
    rw [hacc]
    split
    · exact hk
    · split <;> exact hk
  · rw [hledger, hmembers]
    refine hs1.balanced.lend ?_ ?_ ?_ ?_
    · exact fun l hl => mem_members.mpr (hkeysL l (List.mem_toFinset.mp hl))
    · exact fun d hd => mem_members.mpr (hkeysB d (List.mem_toFinset.mp hd))
    · obtain ⟨d, hd⟩ := List.exists_mem_of_ne_nil _ hne
      exact ⟨d, List.mem_toFinset.mpr hd⟩
    · intro l hl
      have hl := List.mem_toFinset.mp hl
      rw [← hoffer, hoffers.account, if_pos hl]
      exact offer_nonneg (mem_couldLendDockers.mp hl).2 (hs.usage l)
  · have hl' : l ∈ couldLendDockers s ∨ ((offers s).account d).borrowDockerMap.count l = true := by
      rw [hacc] at hl
      split at hl
      · exact Or.inr hl
      · split at hl
        · exact (count_foldl_insert (fun l => offer l / (needBorrowDockers s).length) l _ _).mp hl
        · exact Or.inr hl
    rcases hl' with hl' | hl'
    · refine ⟨(hkeys l).mpr (hkeysL l hl'), ?_⟩
      rw [hacc, if_pos hl']
      rfl
    · obtain ⟨h1, h2⟩ := hs1.lender d l hl'
      refine ⟨(hkeys l).mpr h1, ?_⟩
      rw [hacc]
      split
      · rfl
      · split <;> exact h2
  · have hu := hs1.usage d
    rw [hacc]
    split
    · exact hu
    · split <;> exact hu

/-! ### Returning -/

/-- A lender goes from the books. -/
def Account.settle (a : Account) (lender : Str) : Account :=
  { a with borrowDockerMap := a.borrowDockerMap.erase lender }

/-- A lender has its own back. -/
def Account.takeBack (a : Account) : Account :=
  { a with currentCpuLimit := a.currentCpuLimit + a.lendCpuLimit, dockerLended := false }

theorem account_of_not_mem {d : Str} (h : d ∉ s.dockerInfos.keys) :
    s.account d = DockerResourceInfo.new.account := by
  rw [UMap.mem_keys, Option.not_isSome_iff_eq_none] at h
  rw [State.account, State.docker, h]
  rfl

/-- What a borrower returns is in the second map. -/
structure Settled1 (lender : Str) (ps : List Str) (r r' : State × UMap Str ℚ) : Prop where
  changed : Changed r.1 r'.1 ps (fun _ a => a.settle lender)
  value : ∀ x, r'.2.value x = r.2.value x +
    if x ∈ ps then (r.1.account x).borrowDockerMap.value lender else 0
  keys : ∀ x ∈ r'.2.keys, x ∈ r.2.keys ∨ x ∈ ps

theorem settleLoan_one (lender : Str) (r : State × UMap Str ℚ) {p : Str} (hp : p ∈ r.1.dockerInfos.keys) :
    Settled1 lender [p] r (settleLoan lender r p) := by
  unfold settleLoan
  dsimp only
  split
  · rename_i hnone
    have hsame : (r.1.account p).settle lender = r.1.account p := by
      have hnone : (r.1.account p).borrowDockerMap.find lender = none := hnone
      unfold Account.settle
      rw [UMap.erase_of_none hnone]
    have hvalue : (r.1.account p).borrowDockerMap.value lender = 0 := by
      have hnone : (r.1.account p).borrowDockerMap.find lender = none := hnone
      rw [UMap.value, hnone]
      rfl
    refine ⟨⟨fun _ => Iff.rfl, fun x => ?_⟩, fun x => ?_, fun x hx => Or.inl hx⟩
    · split
      · rename_i hx
        rw [List.mem_singleton.mp hx, hsame]
      · rfl
    · split
      · rename_i hx
        rw [List.mem_singleton.mp hx, hvalue, add_zero]
      · rw [add_zero]
  · rename_i limit hsome
    have hvalue : (r.1.account p).borrowDockerMap.value lender = limit := by
      have hsome : (r.1.account p).borrowDockerMap.find lender = some limit := hsome
      rw [UMap.value, hsome]
      rfl
    refine ⟨.setDocker hp (by rfl), fun x => ?_, fun x hx => ?_⟩
    · unfold UMap.value
      rw [UMap.find_insert]
      by_cases hx : x = p
      · subst hx
        rw [if_pos rfl, if_pos List.mem_cons_self, Option.getD_some]
        exact congrArg _ hvalue.symm
      · rw [if_neg hx, if_neg (by simpa using hx), add_zero]
    · rcases (UMap.mem_keys_insert _ _ _ _).mp hx with rfl | hx
      · exact Or.inr List.mem_cons_self
      · exact Or.inl hx

theorem settleLoan_all (lender : Str) : ∀ (ps : List Str) (r : State × UMap Str ℚ), ps.Nodup →
    (∀ p ∈ ps, p ∈ r.1.dockerInfos.keys) → Settled1 lender ps r (ps.foldl (settleLoan lender) r)
  | [], r, _, _ => ⟨.refl _ _, fun _ => by simp, fun _ hx => Or.inl hx⟩
  | p :: ps, r, hnd, hkeys => by
    obtain ⟨hp, hnd⟩ := List.nodup_cons.mp hnd
    obtain ⟨hk, hkeys⟩ := List.forall_mem_cons.mp hkeys
    have h1 := settleLoan_one lender r hk
    have h2 := settleLoan_all lender ps (settleLoan lender r p) hnd
      (fun x hx => (h1.changed.keys x).mpr (hkeys x hx))
    refine ⟨.cons hp h1.changed h2.changed, fun x => ?_, fun x hx => ?_⟩
    · rw [List.foldl_cons, h2.value, h1.value, h1.changed.account]
      by_cases hx : x = p
      · subst hx
        simp [hp]
      · simp [hx]
    · rcases h2.keys x hx with hx | hx
      · rcases h1.keys x hx with hx | hx
        · exact Or.inl hx
        · exact Or.inr (List.mem_cons.mpr (Or.inl (List.mem_singleton.mp hx)))
      · exact Or.inr (List.mem_cons_of_mem p hx)

/-- All loans of some lenders are settled. -/
structure SettledAll (lenders : List Str) (r r' : State × UMap Str ℚ) : Prop where
  keys : ∀ x, x ∈ r'.1.dockerInfos.keys ↔ x ∈ r.1.dockerInfos.keys
  account : ∀ x, r'.1.account x = { r.1.account x with
    borrowDockerMap := lenders.foldl UMap.erase (r.1.account x).borrowDockerMap }
  value : ∀ x, r'.2.value x =
    r.2.value x + (lenders.map (fun l => (r.1.account x).borrowDockerMap.value l)).sum
  returns : ∀ x ∈ r'.2.keys, x ∈ r.2.keys ∨ x ∈ r.1.dockerInfos.keys

theorem value_erase (m : UMap Str ℚ) (k x : Str) :
    (m.erase k).value x = if x = k then 0 else m.value x := by
  unfold UMap.value
  rw [UMap.find_erase]
  split <;> rfl

theorem settleLoans_all : ∀ (lenders : List Str) (r : State × UMap Str ℚ), lenders.Nodup →
    SettledAll lenders r
      (lenders.foldl (fun r lender => r.1.dockerInfos.keys.foldl (settleLoan lender) r) r)
  | [], r, _ => ⟨fun _ => Iff.rfl, fun _ => rfl, fun _ => by simp, fun _ hx => Or.inl hx⟩
  | l :: lenders, r, hnd => by
    obtain ⟨hl, hnd⟩ := List.nodup_cons.mp hnd
    have h1 := settleLoan_all l r.1.dockerInfos.keys r r.1.dockerInfos.nodup (fun _ hp => hp)
    have h2 := settleLoans_all lenders (r.1.dockerInfos.keys.foldl (settleLoan l) r) hnd
    have hacc : ∀ x, (r.1.dockerInfos.keys.foldl (settleLoan l) r).1.account x =
        (r.1.account x).settle l := by
      intro x
      rw [h1.changed.account]
      split
      · rfl
      · rename_i hx
        rw [account_of_not_mem hx]
        unfold Account.settle
        rw [UMap.erase_of_none rfl]
    have hval : ∀ x, (r.1.dockerInfos.keys.foldl (settleLoan l) r).2.value x =
        r.2.value x + (r.1.account x).borrowDockerMap.value l := by
      intro x
      rw [h1.value]
      split
      · rfl
      · rename_i hx
        rw [account_of_not_mem hx]
        rfl
    refine ⟨fun x => (h2.keys x).trans (h1.changed.keys x), fun x => ?_, fun x => ?_, fun x hx => ?_⟩
    · rw [List.foldl_cons, h2.account, hacc]
      rfl
    · have hrest : lenders.map (fun k => ((r.1.account x).settle l).borrowDockerMap.value k) =
          lenders.map (fun k => (r.1.account x).borrowDockerMap.value k) := by
        refine List.map_congr_left (fun k hk => ?_)
        have hne : k ≠ l := by
          rintro rfl
          exact hl hk
        unfold Account.settle
        rw [value_erase, if_neg hne]
      rw [List.foldl_cons, h2.value, hval, hacc, hrest, List.map_cons, List.sum_cons, add_assoc]
    · rcases h2.returns x hx with hx | hx
      · rcases h1.keys x hx with hx | hx
        · exact Or.inl hx
        · exact Or.inr hx
      · exact Or.inr ((h1.changed.keys x).mp hx)

theorem find_foldl_erase (x : Str) : ∀ (lenders : List Str) (m : UMap Str ℚ),
    (lenders.foldl UMap.erase m).find x = if x ∈ lenders then none else m.find x
  | [], _ => rfl
  | l :: lenders, m => by
    rw [List.foldl_cons, find_foldl_erase x lenders, UMap.find_erase]
    by_cases hx : x = l
    · subst hx
      simp
    · simp [hx]

theorem changed_takeBack {d : Str} (h0 : T.oneClusterCpuNum ≠ 0) (hd : d ∈ s.dockerInfos.keys)
    (h : takeBack T env s d = .ok s') : Changed s s' [d] (fun _ a => a.takeBack) := by
  obtain ⟨⟨s1, b⟩, h1, h⟩ := bind_ok h
  cases h
  have hadd := changed_charged hd (charged_add h0 h1)
  have hset : Changed s1 (s1.setDocker d { s1.docker d with dockerLended := false }) [d]
      (fun _ a => { a with dockerLended := false }) := .setDocker ((hadd.keys d).mpr hd) (by rfl)
  refine ⟨fun x => (hset.keys x).trans (hadd.keys x), fun x => ?_⟩
  rw [hset.account, hadd.account]
  by_cases hx : x = d
  · subst hx
    simp only [List.mem_singleton, if_true]
    rfl
  · simp [hx]

omit [Double D] in
theorem mem_needReturnDockers {d : Str} (h : d ∈ needReturnDockers s) :
    d ∈ s.dockerInfos.keys ∧ (s.account d).dockerLended = true := by
  obtain ⟨hd, hb⟩ := List.mem_filter.mp h
  rw [Bool.and_eq_true] at hb
  exact ⟨hd, hb.1⟩

/-- What returning does to the ledger. -/
theorem ledger_repay {lenders : List Str} {a a' : Str → Account} (hl : lenders.Nodup)
    (hlent : ∀ l ∈ lenders, (a l).dockerLended = true)
    (h : ∀ d, a' d = { a d with
      dockerLended := if d ∈ lenders then false else (a d).dockerLended
      borrowDockerMap := lenders.foldl UMap.erase (a d).borrowDockerMap
      currentCpuLimit := (a d).currentCpuLimit + (if d ∈ lenders then (a d).lendCpuLimit else 0) -
        (lenders.map (fun l => (a d).borrowDockerMap.value l)).sum }) :
    ledger a' = (ledger a).repay lenders.toFinset := by
  simp only [ledger, Ledger.repay, Ledger.mk.injEq, List.mem_toFinset]
  refine ⟨funext fun d => ?_, funext fun l => ?_, funext fun d => funext fun l => ?_, funext fun d => ?_⟩
  · rw [h]
  · rw [h]
    dsimp only
    split <;> simp
  · rw [h]
    dsimp only
    unfold UMap.value
    rw [find_foldl_erase]
    split <;> rfl
  · rw [h, List.sum_toFinset _ hl]
    dsimp only
    split
    · rename_i hd
      rw [if_pos (hlent d hd)]
    · rfl

theorem sound_tryReturn (h0 : T.oneClusterCpuNum ≠ 0) (hs : Sound s)
    (h : tryReturnCpuToIdleDocker T env s = .ok s') : Sound s' := by
  unfold tryReturnCpuToIdleDocker at h
  dsimp only at h
  split at h
  · cases h
    exact hs
  obtain ⟨s2, h2, h⟩ := bind_ok h
  have hnd : (needReturnDockers s).Nodup := s.dockerInfos.nodup.filter _
  have hkeys0 : ∀ d ∈ needReturnDockers s, d ∈ s.dockerInfos.keys := fun d hd => (mem_needReturnDockers hd).1
  have hlent0 : ∀ d ∈ needReturnDockers s, (s.account d).dockerLended = true :=
    fun d hd => (mem_needReturnDockers hd).2
  obtain ⟨lenders, hlenders⟩ : ∃ lenders, needReturnDockers s = lenders := ⟨_, rfl⟩
  rw [hlenders] at h h2 hnd hkeys0 hlent0
  have hsettled := settleLoans_all lenders (s, .empty) hnd
  obtain ⟨r, hr⟩ : ∃ r, settleLoans lenders s = r := ⟨_, rfl⟩
  rw [show lenders.foldl (fun r lender => r.1.dockerInfos.keys.foldl (settleLoan lender) r)
    ((s, .empty) : State × UMap Str ℚ) = r from hr] at hsettled
  rw [hr] at h h2
  have htake := @Changed.foldlM (fun _ a => a.takeBack) _ (fun _ => True) _ _ _ hnd
    (fun _ d _ _ hk _ hstep => ⟨changed_takeBack h0 hk hstep, trivial⟩)
    (fun d hd => (hsettled.keys d).mpr (hkeys0 d hd)) trivial h2
  have hminus := @Changed.foldlM
    (fun p a => { a with currentCpuLimit := a.currentCpuLimit + -r.2.value p }) _ (fun _ => True) _ _ _
    (r.2.reorder env.order).nodup
    (fun s1 d s1' _ hk _ hstep => by
      obtain ⟨⟨s3, b⟩, h3, rfl⟩ : ∃ x, dockerMinusCpuLimitComm d (r.2.value d) true s1 = .ok x ∧
          x.1 = s1' := by
        cases hm : dockerMinusCpuLimitComm d (r.2.value d) true s1 with
        | error e => rw [hm] at hstep; cases hstep
        | ok x => rw [hm] at hstep; exact ⟨x, rfl, Except.ok.inj hstep⟩
      have hc := changed_charged hk (charged_minus h3)
      refine ⟨⟨hc.keys, fun x => ?_⟩, trivial⟩
      rw [hc.account]
      by_cases hx : x = d
      · subst hx
        simp
      · simp [hx])
    (fun d hd => by
      rw [UMap.mem_keys_reorder] at hd
      rcases hsettled.returns d hd with hd | hd
      · cases hd
      · exact (htake.keys d).mpr ((hsettled.keys d).mpr hd)) trivial h
  have hkeys : ∀ d, d ∈ s'.dockerInfos.keys ↔ d ∈ s.dockerInfos.keys := fun d =>
    ((hminus.keys d).trans (htake.keys d)).trans (hsettled.keys d)
  have hvalue : ∀ d, r.2.value d = (lenders.map (fun l => (s.account d).borrowDockerMap.value l)).sum := by
    intro d
    rw [hsettled.value]
    exact zero_add _
  have hacc : ∀ d, s'.account d = { s.account d with
      dockerLended := if d ∈ lenders then false else (s.account d).dockerLended
      borrowDockerMap := lenders.foldl UMap.erase (s.account d).borrowDockerMap
      currentCpuLimit :=
        (s.account d).currentCpuLimit + (if d ∈ lenders then (s.account d).lendCpuLimit else 0) -
        (lenders.map (fun l => (s.account d).borrowDockerMap.value l)).sum } := by
    intro d
    have hback : s2.account d = { s.account d with
        dockerLended := if d ∈ lenders then false else (s.account d).dockerLended
        borrowDockerMap := lenders.foldl UMap.erase (s.account d).borrowDockerMap
        currentCpuLimit :=
          (s.account d).currentCpuLimit + if d ∈ lenders then (s.account d).lendCpuLimit else 0 } := by
      rw [htake.account, hsettled.account]
      split
      · rfl
      · rw [add_zero]
    rw [hminus.account, hback, ← hvalue]
    split
    · dsimp only
      rw [← sub_eq_add_neg]
    · rename_i hd
      have hzero : r.2.value d = 0 := by
        rw [UMap.mem_keys_reorder, UMap.mem_keys, Option.not_isSome_iff_eq_none] at hd
        rw [UMap.value, hd]
        rfl
      rw [hzero, sub_zero]
  refine ⟨fun d hd => ?_, ?_, fun d l hl => ?_, fun d => ?_⟩
  · rw [hacc]
    exact hs.known d ((hkeys d).mp hd)
  · have hmembers : s'.members = s.members := by
      ext d
      rw [mem_members, mem_members, hkeys]
    rw [ledger_repay hnd hlent0 hacc, hmembers]
    exact hs.balanced.repay (fun l hl => mem_members.mpr (hkeys0 l (List.mem_toFinset.mp hl)))
  · rw [hacc] at hl
    unfold UMap.count at hl
    rw [find_foldl_erase] at hl
    split at hl
    · cases hl
    · rename_i hnot
      obtain ⟨h1, h2⟩ := hs.lender d l hl
      refine ⟨(hkeys l).mpr h1, ?_⟩
      rw [hacc]
      dsimp only
      rw [if_neg hnot]
      exact h2
  · rw [hacc]
    exact hs.usage d

/-- `Tune` keeps the balance. -/
theorem sound_tune (h0 : T.oneClusterCpuNum ≠ 0) (hs : Sound s) (hlent : ∀ d, env.lent d = true)
    (h : tune T env s = .ok s') : Sound s' := by
  obtain ⟨s1, h1, h⟩ := bind_ok h
  have hs1 := hs.same (changed_optimizeBind (fun _ a => a) (fun _ hd => hd) h1)
  split at h
  · obtain ⟨s2, h2, h⟩ := bind_ok h
    exact sound_tryReturn h0 (sound_tryBorrow h0 hs1 hlent h2) h
  · cases h
    exact hs1

/-! ### Coming and going -/

/-- Nobody is touched who owes nothing to the container that is recovered. -/
structure Spares (d : Str) (s s' : State) : Prop where
  keys : ∀ x, x ∈ s'.dockerInfos.keys ↔ x ∈ s.dockerInfos.keys
  account : ∀ x, (s.account x).borrowDockerMap.find d = none → s'.account x = s.account x

omit [Double D] in
theorem spares_returnTo {d p : Str} {s0 : State} (h0 : Spares d s0 s) (hp : p ∈ s.dockerInfos.keys)
    (h : returnTo d s p = .ok s') : Spares d s0 s' := by
  unfold returnTo at h
  split at h
  · cases h
    exact h0
  · rename_i limit hsome
    cases hm : dockerMinusCpuLimitComm p limit true s with
    | error e => rw [hm] at h; cases h
    | ok r =>
      rw [hm] at h
      cases h
      have hc := changed_charged hp (charged_minus hm)
      refine ⟨fun x => (hc.keys x).trans (h0.keys x), fun x hx => ?_⟩
      have hne : x ≠ p := by
        rintro rfl
        have hsame : (s.account x).borrowDockerMap.find d = none := by rw [h0.account x hx, hx]
        rw [show (s.account x).borrowDockerMap = (s.docker x).borrowDockerMap from rfl, hsome] at hsame
        cases hsame
      rw [hc.account, if_neg (by simpa using hne), h0.account x hx]

omit [Double D] in
theorem spares_recover {d : Str} {updated : Bool} (h : recoverInitialBindStatus T d updated s = .ok s') :
    Spares d s s' := by
  have hpools : ∀ {s1 : State}, OnlyPools s s1 → Spares d s s1 := fun hs1 =>
    ⟨fun x => by rw [hs1.dockerInfos], fun x _ => congrArg DockerResourceInfo.account (hs1.docker x)⟩
  unfold recoverInitialBindStatus at h
  dsimp only at h
  split at h
  · cases h
    exact hpools (.refl s)
  · have hnuma := onlyPools_foldl (fun s a => onlyPools_setNuma s a _)
      (f := releaseClusters (s.docker d).bindClusters) (s.docker d).currentMemSet s
    split at h
    · cases h
      exact hpools hnuma
    · have hall := (hnuma.trans (onlyPools_foldl (fun s a => onlyPools_setCluster s _ _)
        (f := releaseCpu T) (s.docker d).currentCpuSet _)).trans
        (onlyPools_foldl (fun s a => onlyPools_setCluster s _ _)
          (f := filterOccupied (s.docker d).currentCpuSet)
          ((s.docker d).currentCpuSet.map (· / T.oneClusterCpuNum)).dedup _)
      obtain ⟨s1, hs1⟩ : ∃ s1, (((s.docker d).currentCpuSet.map (· / T.oneClusterCpuNum)).dedup.foldl
          (filterOccupied (s.docker d).currentCpuSet) ((s.docker d).currentCpuSet.foldl (releaseCpu T)
            ((s.docker d).currentMemSet.foldl (releaseClusters (s.docker d).bindClusters) s))) = s1 :=
        ⟨_, rfl⟩
      rw [hs1] at h hall
      have hstart := hpools hall
      refine foldlM_invariant (P := Spares d s) (fun s2 p s3 hp h2 hstep => ?_) hstart h
      exact spares_returnTo h2 ((h2.keys p).mpr ((hstart.keys p).mp hp)) hstep

/-- In each `Update`, no container goes to which one that stays owes something. -/
def Honoured (s : State) : Act D → Prop
  | .update data _ _ => s.isFirstUpdate = false → ∀ l ∈ s.dockerInfos.keys, (collect data).count l = false →
      ∀ d ∈ s.dockerInfos.keys, (collect data).count d = true → (s.docker d).borrowDockerMap.count l = false
  | .tune env => ∀ d, env.lent d = true
  | .exit _ => True

/-- Half way through those that have gone: who stays is as before. -/
structure Leaving (collector : UMap Str DockerAdapt.Entry) (s0 : State) (rest : List Str) (s : State) : Prop where
  old : ∀ x ∈ s.dockerInfos.keys, x ∈ s0.dockerInfos.keys
  stays : ∀ x ∈ s0.dockerInfos.keys, collector.count x = true →
    x ∈ s.dockerInfos.keys ∧ s.account x = s0.account x
  goes : ∀ x ∈ s.dockerInfos.keys, collector.count x = false → x ∈ rest

omit [Double D] in
theorem Leaving.removeGone {collector : UMap Str DockerAdapt.Entry} {updated : Str → Bool} {s0 : State}
    {d : Str} {rest : List Str}
    (hfree : collector.count d = false → ∀ x ∈ s0.dockerInfos.keys, collector.count x = true →
      (s0.docker x).borrowDockerMap.count d = false)
    (hs : Leaving collector s0 (d :: rest) s) (h : removeGone T collector updated s d = .ok s') :
    Leaving collector s0 rest s' := by
  unfold ClusterAffinity.removeGone at h
  split at h
  · rename_i hstay
    cases h
    refine ⟨hs.old, hs.stays, fun x hx hgone => ?_⟩
    rcases List.mem_cons.mp (hs.goes x hx hgone) with rfl | hx
    · rw [hstay] at hgone
      cases hgone
    · exact hx
  · rename_i hgone
    have hgone := Bool.eq_false_iff.mpr hgone
    obtain ⟨s1, h1, h⟩ := bind_ok h
    cases h
    have hsp := spares_recover h1
    have hacc : ∀ x, x ≠ d →
        ({ s1 with dockerInfos := s1.dockerInfos.erase d } : State).account x = s1.account x := by
      intro x hx
      unfold State.account State.docker
      rw [UMap.find_erase, if_neg hx]
    have hmem : ∀ x, x ∈ (s1.dockerInfos.erase d).keys ↔ x ≠ d ∧ x ∈ s.dockerInfos.keys := by
      intro x
      rw [← hsp.keys, UMap.mem_keys, UMap.mem_keys, UMap.find_erase]
      split <;> simp [*]
    refine ⟨fun x hx => hs.old x ((hmem x).mp hx).2, fun x hx hstay => ?_, fun x hx hgo => ?_⟩
    · have hne : x ≠ d := by
        rintro rfl
        rw [hgone] at hstay
        cases hstay
      obtain ⟨hxs, hsame⟩ := hs.stays x hx hstay
      have hnone : (s.account x).borrowDockerMap.find d = none := by
        rw [hsame]
        exact Option.not_isSome_iff_eq_none.mp (Bool.eq_false_iff.mp (hfree hgone x hx hstay))
      exact ⟨(hmem x).mpr ⟨hne, hxs⟩, (hacc x hne).trans ((hsp.account x hnone).trans hsame)⟩
    · obtain ⟨hne, hxs⟩ := (hmem x).mp hx
      exact (List.mem_cons.mp (hs.goes x hxs hgo)).resolve_left hne

/-- When all have left to whom nobody owes anything, the balance is kept. -/
theorem sound_left {collector : UMap Str DockerAdapt.Entry} {s0 : State} (h0 : Sound s0)
    (hfree : ∀ l ∈ s0.dockerInfos.keys, collector.count l = false → ∀ x ∈ s0.dockerInfos.keys,
      collector.count x = true → (s0.docker x).borrowDockerMap.count l = false)
    (hs : Leaving collector s0 [] s) : Sound s := by
  have hstay : ∀ x ∈ s.dockerInfos.keys, collector.count x = true := by
    intro x hx
    by_contra hgo
    exact List.not_mem_nil (hs.goes x hx (Bool.eq_false_iff.mpr hgo))
  have hacc : ∀ x ∈ s.dockerInfos.keys, s.account x = s0.account x :=
    fun x hx => (hs.stays x (hs.old x hx) (hstay x hx)).2
  have hlender : ∀ d ∈ s.dockerInfos.keys, ∀ l, (s0.account d).borrowDockerMap.count l = true →
      l ∈ s.dockerInfos.keys := by
    intro d hd l hl
    have hl0 := (h0.lender d l hl).1
    by_contra hnot
    have hgo : collector.count l = false := by
      by_contra hst
      exact hnot (hs.stays l hl0 (by simpa using hst)).1
    have := hfree l hl0 hgo d (hs.old d hd) (hstay d hd)
    rw [show (s0.docker d).borrowDockerMap = (s0.account d).borrowDockerMap from rfl, hl] at this
    cases this
  refine ⟨fun d hd => ?_, ?_, fun d l hl => ?_, fun d => ?_⟩
  · rw [hacc d hd]
    exact h0.known d (hs.old d hd)
  · have hsub : s.members ⊆ s0.members := fun d hd =>
      mem_members.mpr (hs.old d (mem_members.mp hd))
    have hleft := h0.balanced.leave hsub (fun d hd l _ hl => ?_)
    · refine hleft.congr (fun d hd => ?_) (fun d hd => ?_) (fun d hd l => ?_) (fun d hd => ?_)
      · simp only [ledger, hacc d (mem_members.mp hd)]
      · simp only [ledger, hacc d (mem_members.mp hd)]
      · simp only [ledger, hacc d (mem_members.mp hd)]
      · simp only [ledger, hacc d (mem_members.mp hd)]
    · unfold ledger UMap.value
      dsimp only
      cases hf : (s0.account d).borrowDockerMap.find l with
      | none => rfl
      | some v =>
        refine absurd (mem_members.mpr (hlender d (mem_members.mp hd) l ?_)) hl
        rw [UMap.count, hf]
        rfl
  · by_cases hd : d ∈ s.dockerInfos.keys
    · rw [hacc d hd] at hl
      have hls := hlender d hd l hl
      exact ⟨hls, by rw [hacc l hls]; exact (h0.lender d l hl).2⟩
    · rw [account_of_not_mem hd] at hl
      cases hl
  · by_cases hd : d ∈ s.dockerInfos.keys
    · rw [hacc d hd]
      exact h0.usage d
    · rw [account_of_not_mem hd]
      refine ⟨fun u hu => ?_, rfl⟩
      cases hu

/-- The usage that is pushed is in the sum, and what leaves the queue is out of it. -/
theorem usage_push {info : DockerResourceInfo} {u : ℚ} (hu : 0 ≤ u)
    (h : (∀ u ∈ info.cpuUsageQueue, 0 ≤ u) ∧ info.cpuUsageSum = info.cpuUsageQueue.sum) :
    (∀ v ∈ (info.push u).cpuUsageQueue, 0 ≤ v) ∧
      (info.push u).cpuUsageSum = (info.push u).cpuUsageQueue.sum := by
  obtain ⟨hpos, hsum⟩ := h
  have hall : ∀ v ∈ info.cpuUsageQueue ++ [u], 0 ≤ v := by
    intro v hv
    rcases List.mem_append.mp hv with hv | hv
    · exact hpos v hv
    · rwa [List.mem_singleton.mp hv]
  have htotal : info.cpuUsageSum + u = (info.cpuUsageQueue ++ [u]).sum := by
    rw [List.sum_append, List.sum_singleton, hsum]
  unfold DockerResourceInfo.push
  dsimp only
  split
  · refine ⟨fun v hv => hall v (List.mem_of_mem_drop hv), ?_⟩
    dsimp only
    rw [htotal]
    cases info.cpuUsageQueue ++ [u] with
    | nil => simp
    | cons v l => simp
  · exact ⟨hall, htotal⟩

/-- Nothing else of the account changes. -/
theorem account_push (info : DockerResourceInfo) (u : ℚ) : (info.push u).account = { info.account with
    cpuUsageQueue := (info.push u).cpuUsageQueue
    cpuUsageSum := (info.push u).cpuUsageSum } := by
  unfold DockerResourceInfo.push
  dsimp only
  split <;> rfl

omit [Double D] in
theorem cpuUtilization_nonneg {pre c : DockerAdapt.Entry} {u : ℚ} (h : cpuUtilization T pre c = .ok u) :
    0 ≤ u := by
  unfold cpuUtilization at h
  dsimp only at h
  split at h
  · cases h
  · cases h
    positivity

/-- A container that is there has one more usage. -/
theorem sound_push {d : Str} {u : ℚ} (hs : Sound s) (hd : d ∈ s.dockerInfos.keys) (hu : 0 ≤ u) :
    Sound (s.setDocker d ((s.docker d).push u)) := by
  obtain ⟨queue, hq⟩ : ∃ queue, ((s.docker d).push u).cpuUsageQueue = queue := ⟨_, rfl⟩
  obtain ⟨sum, hsum⟩ : ∃ sum, ((s.docker d).push u).cpuUsageSum = sum := ⟨_, rfl⟩
  have hc : Changed s (s.setDocker d ((s.docker d).push u)) [d]
      (fun _ a => { a with cpuUsageQueue := queue, cpuUsageSum := sum }) := by
    refine .setDocker hd ?_
    rw [account_push, hq, hsum]
    rfl
  have hacc : ∀ x, ∃ q v, (s.setDocker d ((s.docker d).push u)).account x =
      { s.account x with cpuUsageQueue := q, cpuUsageSum := v } := by
    intro x
    rw [hc.account]
    split
    · exact ⟨_, _, rfl⟩
    · exact ⟨_, _, rfl⟩
  refine ⟨fun x hx => ?_, ?_, fun x l hl => ?_, fun x => ?_⟩
  · obtain ⟨q, v, hx'⟩ := hacc x
    rw [hx']
    exact hs.known x ((hc.keys x).mp hx)
  · rw [hc.members]
    refine hs.balanced.congr ?_ ?_ ?_ ?_
    all_goals
      intro x _
      obtain ⟨q, v, hx⟩ := hacc x
      simp only [ledger, hx, implies_true]
  · obtain ⟨q, v, hx⟩ := hacc x
    obtain ⟨q', v', hl'⟩ := hacc l
    rw [hx] at hl
    rw [hl']
    obtain ⟨h1, h2⟩ := hs.lender x l hl
    exact ⟨(hc.keys l).mpr h1, h2⟩
  · rw [hc.account]
    split
    · rename_i hx
      rw [List.mem_singleton.mp hx, ← hq, ← hsum]
      exact usage_push hu (hs.usage d)
    · exact hs.usage x

/-- A container comes that has what is its own. -/
theorem sound_join {d : Str} {u : ℚ} {info : DockerResourceInfo} (hs : Sound s)
    (hd : d ∉ s.dockerInfos.keys) (hu : 0 ≤ u)
    (hin : info.inited = true ∧ info.dockerLended = false ∧ info.borrowDockerMap = .empty ∧
      info.currentCpuLimit = info.initialCpuLimit ∧ info.cpuUsageQueue = [] ∧ info.cpuUsageSum = 0) :
    Sound (s.setDocker d (info.push u)) := by
  obtain ⟨hin, hlent, hmap, hcur, hqueue, hsum⟩ := hin
  have hacc : ∀ x, (s.setDocker d (info.push u)).account x =
      if x = d then (info.push u).account else s.account x := by
    intro x
    rw [State.account, docker_setDocker]
    split <;> rfl
  have hother : ∀ x ∈ s.dockerInfos.keys, (s.setDocker d (info.push u)).account x = s.account x := by
    intro x hx
    rw [hacc, if_neg]
    rintro rfl
    exact hd hx
  have hown : (s.setDocker d (info.push u)).account d = (info.push u).account := by rw [hacc, if_pos rfl]
  have hkeys : ∀ x, x ∈ (s.setDocker d (info.push u)).dockerInfos.keys ↔ x = d ∨ x ∈ s.dockerInfos.keys :=
    fun x => UMap.mem_keys_insert _ _ _ _
  refine ⟨fun x hx => ?_, ?_, fun x l hl => ?_, fun x => ?_⟩
  · rcases (hkeys x).mp hx with rfl | hx
    · rw [hown, account_push]
      exact hin
    · rw [hother x hx]
      exact hs.known x hx
  · have hmembers : (s.setDocker d (info.push u)).members = insert d s.members := by
      ext x
      rw [Finset.mem_insert, mem_members, mem_members, hkeys]
    rw [hmembers]
    refine Ledger.Balanced.join (hs.balanced.congr ?_ ?_ ?_ ?_) (fun hm => hd (mem_members.mp hm)) ?_ ?_ ?_ ?_
    · exact fun x hx => by simp only [ledger, hother x (mem_members.mp hx)]
    · exact fun x hx => by simp only [ledger, hother x (mem_members.mp hx)]
    · exact fun x hx l => by simp only [ledger, hother x (mem_members.mp hx)]
    · exact fun x hx => by simp only [ledger, hother x (mem_members.mp hx)]
    · simp only [ledger, hown, account_push]
      exact hcur
    · simp only [ledger, hown, account_push]
      rw [DockerResourceInfo.account, hlent]
      rfl
    · intro l
      simp only [ledger, hown, account_push]
      rw [DockerResourceInfo.account, hmap, UMap.value_empty]
    · intro x
      simp only [ledger, hacc]
      split
      · rw [account_push, DockerResourceInfo.account, hmap, UMap.value_empty]
      · refine hs.value_eq_zero ?_
        rw [account_of_not_mem hd]
        rfl
  · rw [hacc] at hl
    split at hl
    · rw [account_push, DockerResourceInfo.account, hmap] at hl
      cases hl
    · obtain ⟨h1, h2⟩ := hs.lender x l hl
      exact ⟨(hkeys l).mpr (Or.inr h1), by rw [hother l h1]; exact h2⟩
  · rw [hacc]
    split
    · refine usage_push hu ⟨?_, ?_⟩
      · rw [hqueue]
        exact fun u hu => by cases hu
      · rw [hqueue, hsum]
        rfl
    · exact hs.usage x

omit [Double D] in
theorem sound_updateDocker {collector : UMap Str DockerAdapt.Entry} {d : Str} (hs : Sound s)
    (h : updateDocker T collector s d = .ok s') : Sound s' := by
  unfold updateDocker at h
  split at h
  · rename_i pre c hpre hc
    dsimp only at h
    split at h
    · rename_i hin
      obtain ⟨info, hinfo, h⟩ := bind_ok h
      obtain ⟨usage, husage, h⟩ := bind_ok h
      cases hinfo
      cases h
      refine sound_push hs ?_ (cpuUtilization_nonneg husage)
      by_contra hd
      have hnew := account_of_not_mem hd
      rw [State.account] at hnew
      have := congrArg Account.inited hnew
      rw [show (s.docker d).account.inited = (s.docker d).inited from rfl, hin] at this
      cases this
    · rename_i hout
      obtain ⟨info, hinfo, h⟩ := bind_ok h
      obtain ⟨usage, husage, h⟩ := bind_ok h
      cases h
      have hd : d ∉ s.dockerInfos.keys := fun hd => hout (hs.known d hd)
      have hnew : s.docker d = .new := by
        rw [UMap.mem_keys, Option.not_isSome_iff_eq_none] at hd
        rw [State.docker, hd]
        rfl
      refine sound_join hs hd (cpuUtilization_nonneg husage) ?_
      rw [hnew] at hinfo
      obtain ⟨cpus, -, hinfo⟩ := bind_ok hinfo
      obtain ⟨mems, -, hinfo⟩ := bind_ok hinfo
      cases hinfo
      exact ⟨rfl, rfl, rfl, rfl, rfl, rfl⟩
  · cases h
    exact hs

theorem sound_empty (h : s.dockerInfos = .empty) : Sound s := by
  have hnone : ∀ d, d ∉ s.dockerInfos.keys := by
    rw [h]
    exact fun d => List.not_mem_nil
  refine ⟨fun d hd => absurd hd (hnone d), ⟨fun d hd => ?_, fun d hd => ?_, fun d hd => ?_⟩,
    fun d l hl => ?_, fun d => ?_⟩
  · exact absurd (mem_members.mp hd) (hnone d)
  · exact absurd (mem_members.mp hd) (hnone d)
  · exact absurd (mem_members.mp hd) (hnone d)
  · rw [account_of_not_mem (hnone d)] at hl
    cases hl
  · rw [account_of_not_mem (hnone d)]
    refine ⟨fun u hu => ?_, rfl⟩
    cases hu

omit [Double D] in
/-- `Update` keeps the balance. -/
theorem sound_update {data : List DockerAdapt.Entry} {updated : Str → Bool} {order : List Str} (hs : Sound s)
    (hok : Honoured s (.update data updated order : Act D)) (h : update T data updated order s = .ok s') :
    Sound s' := by
  unfold update at h
  dsimp only at h
  split at h
  · cases h
    exact hs.same (f := fun _ a => a) ⟨fun _ => Iff.rfl, fun _ => rfl⟩
  · rename_i hfirst
    have hfree := hok (Bool.eq_false_iff.mpr hfirst)
    obtain ⟨s1, h1, h⟩ := bind_ok h
    obtain ⟨s2, h2, h⟩ := bind_ok h
    cases h
    have hleft : Leaving (collect data) s [] s1 := by
      refine foldlM_induct (P := fun rest s1 => Leaving (collect data) s rest s1 ∧
        ∀ l ∈ rest, l ∈ s.dockerInfos.keys) (fun l rest s2 s3 hP hstep => ?_) ⟨?_, fun l hl => hl⟩ h1 |>.1
      · obtain ⟨hl, hrest⟩ := List.forall_mem_cons.mp hP.2
        exact ⟨hP.1.removeGone (hfree l hl) hstep, hrest⟩
      · exact ⟨fun x hx => hx, fun x hx _ => ⟨hx, rfl⟩, fun x hx _ => hx⟩
    have hs2 := foldlM_invariant (fun _ _ _ _ hs hstep => sound_updateDocker hs hstep)
      (sound_left hs hfree hleft) h2
    refine hs2.same (f := fun _ a => a) ⟨fun x => UMap.mem_keys_reorder _ _ _, fun x => ?_⟩
    rw [if_neg List.not_mem_nil]
    unfold State.account State.docker
    rw [UMap.find_reorder]

theorem sound_step (h0 : T.oneClusterCpuNum ≠ 0) {a : Act D} (hs : Sound s) (hok : Honoured s a)
    (h : step T s a = .ok s') : Sound s' := by
  cases a with
  | update data updated order => exact sound_update hs hok h
  | tune env => exact sound_tune h0 hs hok h
  | exit updated =>
    obtain ⟨s1, -, h⟩ := bind_ok h
    cases h
    exact sound_empty rfl

/-! ### What follows -/

/-- The sum of a map. -/
def total (m : UMap Str ℚ) : ℚ := (m.keys.map m.value).sum

/-- Everyone's limit is what is its own, less what it has lent, and what it has borrowed; it has borrowed of
    containers that are there and have lent; and together they have no more than at first. -/
structure Accounted (s : State) : Prop where
  limit : ∀ d ∈ s.dockerInfos.keys, (s.docker d).currentCpuLimit = (s.docker d).initialCpuLimit -
    (if (s.docker d).dockerLended then (s.docker d).lendCpuLimit else 0) + total (s.docker d).borrowDockerMap
  lender : ∀ d ∈ s.dockerInfos.keys, ∀ l ∈ (s.docker d).borrowDockerMap.keys,
    l ∈ s.dockerInfos.keys ∧ (s.docker l).dockerLended = true
  total : (s.dockerInfos.keys.map (fun d => (s.docker d).currentCpuLimit)).sum ≤
    (s.dockerInfos.keys.map (fun d => (s.docker d).initialCpuLimit)).sum

omit [Double D] in
theorem total_eq {m : UMap Str ℚ} {members : Finset Str} (h : ∀ l ∈ m.keys, l ∈ members) :
    total m = ∑ l ∈ members, m.value l := by
  rw [total, ← List.sum_toFinset _ m.nodup]
  refine Finset.sum_subset (fun l hl => h l (List.mem_toFinset.mp hl)) (fun l _ hl => ?_)
  rw [List.mem_toFinset, UMap.mem_keys, Option.not_isSome_iff_eq_none] at hl
  rw [UMap.value, hl]
  rfl

omit [Double D] in
theorem Sound.accounted (hs : Sound s) : Accounted s := by
  have hlender : ∀ d, ∀ l ∈ (s.docker d).borrowDockerMap.keys,
      l ∈ s.dockerInfos.keys ∧ (s.docker l).dockerLended = true := fun d l hl =>
    hs.lender d l ((UMap.mem_keys _ l).mp hl)
  refine ⟨fun d hd => ?_, fun d _ => hlender d, ?_⟩
  · rw [total_eq (fun l hl => mem_members.mpr (hlender d l hl).1)]
    exact hs.balanced.limit d (mem_members.mpr hd)
  · rw [← List.sum_toFinset _ s.dockerInfos.nodup, ← List.sum_toFinset _ s.dockerInfos.nodup]
    exact hs.balanced.total_le

/-- THE BOOKS ARE RIGHT IN EVERY STATE, in runs where the commands of lenders succeed and no container goes to
    which one that stays owes something. -/
theorem accounted_of_runs {dockerBorrowSwitch : Bool} {s0 : State} (h0 : init T dockerBorrowSwitch = some s0)
    (h : Runs (step (D := D) T) s0 Honoured s) : Accounted s := by
  unfold init at h0
  split at h0
  · cases h0
  · rename_i hT
    cases h0
    have hstart : Sound (initSystemClusters T
        ⟨dockerBorrowSwitch, true, .empty, .empty, .empty, .empty⟩) :=
      sound_empty (initSystemClusters_onlyPools T _).dockerInfos
    exact (h.invariant (I := Sound) hstart
      (fun _ _ _ hs hok hstep => sound_step (fun hk => hT (Or.inl hk)) hs hok hstep)).accounted

end

/-! ### Two containers -/

/-- One with four CPUs that does nothing, and one with two that are busy, as they report for the `i`-th time. -/
def samplePair (i : ℕ) : List DockerAdapt.Entry :=
  [sampleContainer "a" 400000 0 i, sampleContainer "b" 200000 (i * 20000000) i]

def sampleLending : State := initSystemClusters sampleTopology ⟨true, true, .empty, .empty, .empty, .empty⟩

/-- Nobody goes to whom one that stays owes something. -/
def leavesNone (data : List DockerAdapt.Entry) (s : State) : Bool :=
  s.dockerInfos.keys.all (fun l => (collect data).count l || s.dockerInfos.keys.all (fun d =>
    !(collect data).count d || !(s.docker d).borrowDockerMap.count l))

theorem honoured_of_leavesNone {D : Type} {data : List DockerAdapt.Entry} {updated : Str → Bool}
    {order : List Str} {s : State} (h : leavesNone data s = true) :
    Honoured s (.update data updated order : Act D) := by
  intro _ l hl hgo d hd hstay
  have hall := (List.all_eq_true.mp h) l hl
  rw [hgo, Bool.false_or] at hall
  have hboth := (List.all_eq_true.mp hall) d hd
  rw [hstay] at hboth
  simpa using hboth

/-- Both report until the first can lend, and the tuning runs. -/
def sampleLent : Except Fault State := do
  let s ← (List.range 31).foldlM (fun s i => if leavesNone (samplePair i) s
    then step sampleTopology s (sampleUpdate (samplePair i) : Act ℚ) else .error .badIndex) sampleLending
  step sampleTopology s (sampleTune : Act ℚ)

theorem sampleLent_ok : sampleLent.toOption.any (fun s => (s.docker (str "a")).dockerLended) = true := by
  decide +kernel

/-- The books are right where one has lent to the other. -/
theorem accounted_of_runs_lent : ∃ s, (s.docker (str "a")).dockerLended = true ∧ Accounted s := by
  cases hs : sampleLent with
  | error e =>
    have hok := sampleLent_ok
    rw [hs] at hok
    cases hok
  | ok s =>
    have hok := sampleLent_ok
    rw [hs] at hok
    obtain ⟨s1, h1, h2⟩ := bind_ok hs
    have hinit : init sampleTopology true = some sampleLending := rfl
    have hrun : Runs (step (D := ℚ) sampleTopology) sampleLending Honoured s1 := by
      refine foldlM_invariant (P := Runs (step (D := ℚ) sampleTopology) sampleLending Honoured)
        (fun s i s' _ hr hstep => ?_) .start h1
      split at hstep
      · rename_i hnone
        exact hr.next (honoured_of_leavesNone hnone) hstep
      · cases hstep
    exact ⟨s, hok, accounted_of_runs hinit (hrun.next (a := sampleTune) (fun _ => rfl) h2)⟩

/-- Only updates and tunings, all of whose commands succeed. -/
def Succeeds {D : Type} (_ : State) : Act D → Prop
  | .update _ updated _ => ∀ d, updated d = true
  | .tune env => (∀ d, env.bound d = true) ∧ ∀ d, env.lent d = true
  | .exit _ => False

/-- The same, and then the lender goes. -/
def sampleGone : List (Act ℚ) := (List.range 31).map (fun i => sampleUpdate (samplePair i)) ++
  [sampleTune, sampleUpdate [sampleContainer "b" 200000 800000000 40]]

theorem sampleGone_ok : ((sampleGone.foldlM (step sampleTopology) sampleLending).toOption.any (fun s =>
    s.dockerInfos.count (str "b") && !s.dockerInfos.count (str "a") &&
      (s.docker (str "b")).borrowDockerMap.count (str "a"))) = true := by
  decide +kernel

/-- What has been borrowed of a lender that has gone stays in the books. -/
theorem accounted_not_gone : ∃ s, Runs (step (D := ℚ) sampleTopology) sampleLending Succeeds s ∧ ¬ Accounted s := by
  cases hs : sampleGone.foldlM (step sampleTopology) sampleLending with
  | error e =>
    have hok := sampleGone_ok
    rw [hs] at hok
    cases hok
  | ok s =>
    have hok := sampleGone_ok
    rw [hs] at hok
    simp only [Except.toOption, Option.any_some, Bool.and_eq_true, Bool.not_eq_true'] at hok
    obtain ⟨⟨hb, ha⟩, hmap⟩ := hok
    refine ⟨s, .of_foldlM (fun a hmem s => ?_) .start hs, fun h => ?_⟩
    · rcases List.mem_append.mp hmem with hmem | hmem
      · obtain ⟨i, -, rfl⟩ := List.mem_map.mp hmem
        exact fun _ => rfl
      · rcases List.mem_cons.mp hmem with rfl | hmem
        · exact ⟨fun _ => rfl, fun _ => rfl⟩
        · cases List.mem_singleton.mp hmem
          exact fun _ => rfl
    · have hin := (h.lender _ ((UMap.mem_keys _ _).mpr hb) _ ((UMap.mem_keys _ _).mpr hmap)).1
      rw [UMap.mem_keys] at hin
      rw [UMap.count] at ha
      rw [hin] at ha
      cases ha

end ClusterAffinity
end OeAware

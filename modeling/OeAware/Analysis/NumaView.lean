import OeAware.Analysis.Shared
import OeAware.Analysis.TableViews

/-! @src src/plugin/scenario/analysis/numa_analysis/numa_analysis.cpp | name:NumaAnalysis | scheme:isolation

    `numa` keeps of a topic whether it is open and has reported. The analysis time, the threshold, the
    clock and all counters are members: they are set by the topic that is opened last, and `Reset` once
    a topic has been reported.

        openTopic A ──▶ time, beginTime ◀── openTopic B
        Run ──▶ A: Analysis · Publish · Reset ──▶ B: Analysis of nothing -/

namespace OeAware
open Schemes

variable {D : Type} [Double D]

namespace NumaAnalysis

/-- A topic of the instance. -/
def topic (params : Str) : Topic := ⟨str "numa_analysis", str "numa_analysis", params⟩

/-- The threshold is missing or in range. -/
def valid (params : Str) : Bool := (thresholdParam params 0).isSome

/-- Nothing is counted that a report would show, and the features that are known are there still. -/
def Uncounted (s : State D) (env : Env) : Prop :=
  s.threadCreatedCount = 0 ∧ s.timeWindowMs = DEFAULT_TIME_WINDOW_MS ∧ s.totalOpsNum = 0 ∧
    s.isNumaBottleneck = false ∧
    (isSupportNumaSchedParal s.schedFeatues = true → isSupportNumaSchedParal env.features = true)

/-- A topic is opened only if no other one is open, it has not reported if it is open itself, and the
    analysis time, the threshold and the counters are as on a new instance. One that is refused leaves
    the analysis time to the one that is open. And the instance is disabled only when no topic is open. -/
def Allowed (D : Type) [Double D] : (numaAnalysis D).service.Condition
  | s, o, .openTopic x env => x.1 = str "numa_analysis" →
      if valid x.2 then
        (topic x.2).Named ∧ (∀ k, o k = true → k = (topic x.2).getType) ∧
        (status s (topic x.2).getType).isPublish = false ∧
        timeParam x.2 s.time = timeParam x.2 (init : State D).time ∧
        thresholdParam x.2 s.threadThreshold = thresholdParam x.2 (init : State D).threadThreshold ∧
        Uncounted s env
      else ∀ k, o k = true → timeParam x.2 s.time = s.time
  | _, o, .reset => ∀ k, o k = false
  | _, _, _ => True

structure Inv (s : State D) (o : Str → Bool) : Prop where
  isOpen : ∀ k, o k = (status s k).isOpen
  only : ∀ k k', o k = true → o k' = true → k = k'
  named : ∀ k, o k = true → ∃ params, k = (topic params).getType ∧ (topic params).Named ∧
    valid params = true

/-- The members without what no report shows. -/
def norm (s : State D) : State D :=
  { s with
    subTopics := []
    topicStatus := .empty
    schedFeatues := bif isSupportNumaSchedParal s.schedFeatues then [str "PARAL"] else []
    threadDestroyedCount := 0
    totalRxOuter := 0
    totalRxSccl := 0
    remoteAccessRatio := if s.isNumaBottleneck then s.remoteAccessRatio else Double.ofInt 0 }

/-- What is seen of a topic: its entry, and the members. -/
def look (s : State D) (k : Str) : NumaStatus × State D := (status s k, norm s)

@[simp] theorem paral_norm (b : Bool) :
    isSupportNumaSchedParal (bif b then [str "PARAL"] else []) = b := by
  cases b <;> decide

/-- A report shows no more. -/
theorem shown_norm (s : State D) : shown (norm s) = shown s := by
  cases hb : s.isNumaBottleneck <;> simp [shown, norm, hb]

theorem check_norm {s s' : State D} (ho : s'.totalRxOuter = s.totalRxOuter)
    (hs : s'.totalRxSccl = s.totalRxSccl) (hn : s'.totalOpsNum = s.totalOpsNum)
    (ht : s'.timeWindowMs = s.timeWindowMs) :
    (checkNumaBottleneck s').1 = (checkNumaBottleneck s).1 ∧
      ((checkNumaBottleneck s).1 = true →
        (checkNumaBottleneck s').2 = (checkNumaBottleneck s).2) := by
  unfold checkNumaBottleneck
  rw [ho, hs, hn, ht]
  split
  · exact ⟨rfl, fun h => by cases h⟩
  · split
    · exact ⟨rfl, fun _ => rfl⟩
    · exact ⟨rfl, fun h => by cases h⟩

/-- The members with the counts of `uncore`. -/
def counted (counts : List UInt64) (s : State D) : State D :=
  let hhaNum := counts.length / 3
  { s with
    totalRxOuter := (counts.take hhaNum).sum
    totalRxSccl := ((counts.drop hhaNum).take hhaNum).sum
    totalOpsNum := ((counts.drop (2 * hhaNum)).take hhaNum).sum }

theorem norm_checked (counts : List UInt64) (s : State D) :
    norm { counted counts (norm s) with
        isNumaBottleneck := (checkNumaBottleneck (counted counts (norm s))).1
        remoteAccessRatio := (checkNumaBottleneck (counted counts (norm s))).2 } =
      norm { counted counts s with
        isNumaBottleneck := (checkNumaBottleneck (counted counts s)).1
        remoteAccessRatio := (checkNumaBottleneck (counted counts s)).2 } := by
  obtain ⟨hcheck, hratio⟩ := @check_norm D _ (counted counts s) (counted counts (norm s))
    rfl rfl rfl rfl
  revert hcheck hratio
  generalize checkNumaBottleneck (counted counts (norm s)) = c'
  generalize checkNumaBottleneck (counted counts s) = c
  intro hcheck hratio
  simp only [norm, counted, paral_norm, hcheck]
  split
  · rename_i hb
    rw [hratio hb]
  · rfl

/-- What data changes of what is seen can be seen. -/
theorem norm_updateData (data : NumaData) (s : State D) :
    norm (updateData data (norm s)) = norm (updateData data s) := by
  cases data with
  | counting topicName counts interval =>
    cases hb : s.isNumaBottleneck <;> unfold updateData <;> simp only <;> split <;>
      (try split) <;> simp [norm, hb]
  | uncore counts =>
    unfold updateData
    simp only
    split
    · cases hb : s.isNumaBottleneck <;> simp [norm, hb]
    · exact norm_checked counts s
  | other => cases hb : s.isNumaBottleneck <;> simp [updateData, norm, hb]

theorem status_updateData (data : NumaData) (s : State D) :
    status (updateData data s) = status s := by
  cases data with
  | counting topicName counts interval =>
    unfold updateData
    simp only
    split
    · rfl
    · split <;> rfl
  | uncore counts =>
    unfold updateData
    simp only
    split <;> rfl
  | other => rfl

theorem norm_reset (s : State D) : norm (reset (norm s)) = norm (reset s) := by
  simp [norm, reset]

/-! ### One topic at a time -/

omit [Double D] in
theorem status_insert {s s' : State D} {type : Str} {st : NumaStatus}
    (h : s'.topicStatus = s.topicStatus.insert type st) :
    status s' = Function.update (status s) type st := by
  funext k
  unfold status
  rw [h]
  by_cases hk : k = type <;> simp [UMap.find_insert, hk]

omit [Double D] in
theorem due_open {now : ℤ} {s : State D} {st : NumaStatus} (h : due now s st = true) :
    st.isOpen = true ∧ st.isPublish = false := by
  simp only [due, decide_eq_true_eq, Bool.not_eq_true] at h
  exact ⟨h.1, h.2.1⟩

theorem runTopic_shut {now : ℤ} {type : Str} {s : State D} (h : (status s type).isOpen = false) :
    runTopic now type s = (s, []) := by
  refine if_neg (fun hd => ?_)
  rw [(due_open hd).1] at h
  cases h

theorem status_runTopic (now : ℤ) (type : Str) (s : State D) {k : Str} (hk : k ≠ type) :
    status (runTopic now type s).1 k = status s k := by
  unfold runTopic
  split
  · rw [status_insert (s := s) rfl]
    exact Function.update_of_ne hk _ _
  · rfl

theorem isOpen_runTopic (now : ℤ) (type : Str) (s : State D) (k : Str) :
    (status (runTopic now type s).1 k).isOpen = (status s k).isOpen := by
  by_cases hk : k = type
  · subst hk
    unfold runTopic
    split
    · rw [status_insert (s := s) rfl, Function.update_self]
    · rfl
  · rw [status_runTopic now type s hk]

theorem isOpen_runTopics (now : ℤ) (k : Str) : ∀ (types : List Str) (s : State D),
    (status (runTopics now types s).1 k).isOpen = (status s k).isOpen
  | [], _ => rfl
  | type :: types, s =>
    (isOpen_runTopics now k types _).trans (isOpen_runTopic now type s k)

theorem runTopics_shut (now : ℤ) : ∀ (types : List Str) (s : State D),
    (∀ t ∈ types, (status s t).isOpen = false) → runTopics now types s = (s, [])
  | [], _, _ => rfl
  | type :: types, s, h => by
    have ih := runTopics_shut now types s (fun t ht => h t (List.mem_cons_of_mem _ ht))
    rw [runTopics, runTopic_shut (h type List.mem_cons_self)]
    simp only
    rw [ih]
    rfl

/-- With one topic open, `Run` is about that one. -/
theorem runTopics_one (now : ℤ) {k : Str} : ∀ (types : List Str) (s : State D), types.Nodup →
    k ∈ types → (∀ t, t ≠ k → (status s t).isOpen = false) →
    runTopics now types s = runTopic now k s
  | [], _, _, hk, _ => by cases hk
  | type :: types, s, hnd, hk, h => by
    obtain ⟨hnot, hnd⟩ := List.nodup_cons.mp hnd
    rw [runTopics]
    by_cases he : type = k
    · subst he
      have hshut := runTopics_shut now types (runTopic now type s).1 (fun t ht => by
        have hne : t ≠ type := fun he => hnot (he ▸ ht)
        rw [status_runTopic now type s hne]
        exact h t hne)
      rw [hshut, List.append_nil]
    · rw [runTopic_shut (h type he)]
      exact runTopics_one now types s hnd
        ((List.mem_cons.mp hk).resolve_left (fun he' => he he'.symm)) h

/-! ### The view -/

theorem isSome_thresholdParam (params : Str) (old : Int32) :
    (thresholdParam params old).isSome = valid params := by
  unfold valid thresholdParam
  cases param params (str "threshold") with
  | none => rfl
  | some t => rfl

theorem accepted (x : Str × Str) (env : Env) (s : State D) :
    ((numaAnalysis D).service.openTopic x env s).2 = true ↔
      x.1 = str "numa_analysis" ∧ valid x.2 = true := by
  rw [← isSome_thresholdParam x.2 s.threadThreshold]
  change (!(openTopic ⟨_, x.1, x.2⟩ env s).2.1.failed) = true ↔ _
  unfold openTopic
  by_cases hx : x.1 = str "numa_analysis"
  · cases hv : thresholdParam x.2 s.threadThreshold <;>
      simp [hx, hv, failure, resultOk, Result.failed, OK, FAILED]
  · simp [hx, notSupport, failure, Result.failed, FAILED]

theorem open_other {x : Str × Str} (hx : x.1 ≠ str "numa_analysis") (env : Env) (s : State D) :
    ((numaAnalysis D).service.openTopic x env s).1 = s :=
  congrArg Prod.fst (if_pos hx : openTopic ⟨_, x.1, x.2⟩ env s = _)

theorem open_refused {params : Str} (h : valid params = false) (env : Env) (s : State D) :
    ((numaAnalysis D).service.openTopic (str "numa_analysis", params) env s).1 =
      { s with time := timeParam params s.time } := by
  rw [← isSome_thresholdParam params s.threadThreshold] at h
  change (openTopic (topic params) env s).1 = _
  simp [openTopic, topic, Option.isNone_iff_eq_none.mp (Option.isSome_eq_false_iff.mp h)]

/-- What `OpenTopic` makes of the members. -/
def opened (params : Str) (env : Env) (threadThreshold : Int32) (s : State D) : State D :=
  { s with
    time := timeParam params s.time
    threadThreshold
    topicStatus := s.topicStatus.insert (topic params).getType
      { status s (topic params).getType with isOpen := true }
    beginTime := env.now
    subTopics := s.subTopics ++ collectors
    schedFeatues := s.schedFeatues ++ env.features }

theorem open_eq {params : Str} {s : State D} {threadThreshold : Int32}
    (h : thresholdParam params s.threadThreshold = some threadThreshold) (env : Env) :
    ((numaAnalysis D).service.openTopic (str "numa_analysis", params) env s).1 =
      opened params env threadThreshold s := by
  change (openTopic (topic params) env s).1 = _
  simp [openTopic, topic, h, opened, status]

omit [Double D] in
theorem status_opened (params : Str) (env : Env) (threadThreshold : Int32) (s : State D) :
    status (opened params env threadThreshold s) = Function.update (status s) (topic params).getType
      { status s (topic params).getType with isOpen := true } :=
  status_insert rfl

/-- Under the condition, opening a topic leaves nothing to be seen of what was before. -/
theorem norm_opened {params : Str} {env : Env} {threadThreshold : Int32} {s : State D}
    (htime : timeParam params s.time = timeParam params (init : State D).time)
    (h : Uncounted s env) :
    norm (opened params env threadThreshold s) = norm (opened params env threadThreshold init) := by
  obtain ⟨hthreads, hwindow, hops, hb, hparal⟩ := h
  have hany : isSupportNumaSchedParal (s.schedFeatues ++ env.features) =
      isSupportNumaSchedParal env.features := by
    simp only [isSupportNumaSchedParal, List.any_append] at hparal ⊢
    exact Bool.or_eq_right_iff_imp.mpr hparal
  simp [norm, opened, htime, hthreads, hwindow, hops, hb, hany, init, DEFAULT_TIME_WINDOW_MS]

theorem Inv.step {s : State D} {o : Str → Bool} (h : Inv s o) :
    ∀ (c : (numaAnalysis D).service.Call), Allowed D s o c →
      Inv ((numaAnalysis D).service.step s c) ((numaAnalysis D).service.openStep s o c)
  | .openTopic ⟨topicName, params⟩ env, hok => by
    simp only [Service.step, Service.openStep]
    by_cases hx : topicName = str "numa_analysis"
    · subst hx
      cases hv : valid params with
      | true =>
        obtain ⟨threadThreshold, ht⟩ := Option.isSome_iff_exists.mp
          ((isSome_thresholdParam params s.threadThreshold).trans hv)
        obtain ⟨hnamed, hall, -⟩ := (if_pos hv).mp (hok rfl)
        rw [if_pos ((accepted _ _ _).mpr ⟨rfl, hv⟩), open_eq ht]
        change Inv _ (Function.update o (topic params).getType true)
        have honly : ∀ k, Function.update o (topic params).getType true k = true →
            k = (topic params).getType := by
          intro k hk
          by_contra hne
          rw [Function.update_of_ne hne] at hk
          exact hne (hall k hk)
        refine ⟨fun k => ?_, fun k k' hk hk' => (honly k hk).trans (honly k' hk').symm,
          fun k hk => ⟨params, honly k hk, hnamed, hv⟩⟩
        rw [status_opened]
        by_cases he : k = (topic params).getType
        · simp [he]
        · simp [he, h.isOpen]
      | false =>
        rw [if_neg (fun ha => by rw [((accepted _ _ _).mp ha).2] at hv; cases hv), open_refused hv]
        exact ⟨h.isOpen, h.only, h.named⟩
    · rw [if_neg (fun ha => hx ((accepted _ _ _).mp ha).1), open_other hx]
      exact h
  | .closeTopic x, _ => by
    have hstatus : status ((numaAnalysis D).service.closeTopic x s) = _ := status_insert rfl
    have hopen : ∀ k, Function.update o ((numaAnalysis D).service.key x) false k = true → o k = true := by
      intro k hk
      by_cases he : k = (numaAnalysis D).service.key x
      · simp [he] at hk
      · simpa [he] using hk
    refine ⟨fun k => ?_, fun k k' hk hk' => h.only k k' (hopen k hk) (hopen k' hk'),
      fun k hk => h.named k (hopen k hk)⟩
    simp only [Service.step, hstatus]
    by_cases he : k = (numaAnalysis D).service.key x
    · simp [Service.openStep, he]
    · simp [Service.openStep, he, h.isOpen]
  | .reset, hok => ⟨fun k => (hok k).symm.trans (h.isOpen k), fun _ _ hk => by (cases hk),
      fun _ hk => by (cases hk)⟩
  | .feed data, _ => by
    refine ⟨fun k => ?_, h.only, h.named⟩
    change o k = (status (updateData data s) k).isOpen
    rw [status_updateData]
    exact h.isOpen k
  | .run env, _ => by
    refine ⟨fun k => ?_, h.only, h.named⟩
    exact (h.isOpen k).trans (isOpen_runTopics env.now k s.topicStatus.keys s).symm

/-- What is reported, by what is seen. -/
def reports (env : Env) (k : Str) (v : NumaStatus × State D) :
    List (Topic × Option AnalysisResultItem) :=
  if due env.now v.2 v.1 then [(publishTopic k, some (analysis (shown v.2)))] else []

/-- What `Run` makes of what is seen. -/
def ran (env : Env) (v : NumaStatus × State D) : NumaStatus × State D :=
  if due env.now v.2 v.1 then ({ v.1 with isPublish := true }, norm (reset v.2)) else v

theorem runTopic_look (env : Env) (k : Str) (s : State D) :
    look (runTopic env.now k s).1 k = ran env (look s k) ∧
      publications none (runTopic env.now k s).2 = reports env k (look s k) := by
  have hdue : due env.now (norm s) (status s k) = due env.now s (status s k) := rfl
  unfold runTopic ran reports look
  simp only [hdue, shown_norm, norm_reset]
  cases due env.now s (status s k) with
  | true =>
    simp only [if_true]
    rw [status_insert (s := s) rfl, Function.update_self]
    exact ⟨rfl, rfl⟩
  | false => exact ⟨rfl, rfl⟩

/-- With `k` open, `Run` is about that topic. -/
theorem Inv.run_open {s : State D} {o : Str → Bool} (h : Inv s o) {k : Str} (hk : o k = true)
    (env : Env) : run env s = runTopic env.now k s := by
  refine runTopics_one env.now s.topicStatus.keys s s.topicStatus.nodup ?_ (fun t ht => ?_)
  · rw [s.topicStatus.mem_keys]
    rw [h.isOpen, status] at hk
    cases hf : s.topicStatus.find k with
    | none =>
      rw [hf] at hk
      cases hk
    | some _ => rfl
  · rw [← h.isOpen]
    refine Bool.eq_false_iff.mpr (fun hot => ht (h.only t k hot hk))

/-- Of a topic, its entry and the members are seen. -/
def view (D : Type) [Double D] : (numaAnalysis D).service.View (Allowed D) where
  V := NumaStatus × State D
  look := look
  feedV data v := (v.1, norm (updateData data v.2))
  runV env _ := ran env
  report := reports
  done v := v.1.isPublish = true
  inv := Inv
  inv_init := ⟨fun _ => rfl, fun _ _ h => by (cases h), fun _ h => by (cases h)⟩
  inv_step c h := h.step c
  opened {s o x env} h hok ha := by
    obtain ⟨topicName, params⟩ := x
    obtain ⟨hx, hv⟩ := (accepted _ _ _).mp ha
    obtain rfl : topicName = str "numa_analysis" := hx
    obtain ⟨hnamed, hall, hpub, htime, hthreshold, hcount⟩ := (if_pos hv).mp (hok rfl)
    obtain ⟨threadThreshold, ht⟩ := Option.isSome_iff_exists.mp
      ((isSome_thresholdParam params s.threadThreshold).trans hv)
    have ht0 := hthreshold.symm.trans ht
    refine ⟨fun _ => (if_pos hv).mpr ⟨hnamed, fun _ hk => by (cases hk), rfl, rfl, rfl, rfl, rfl, rfl,
      rfl, fun hp => by (cases hp)⟩, (accepted _ _ _).mpr ⟨rfl, hv⟩, ?_, ?_,
      fun k hk hne => absurd (hall k hk) hne⟩
    · rw [open_eq ht, open_eq ht0]
      change look _ (topic params).getType = look _ (topic params).getType
      rw [look, look, status_opened, status_opened, norm_opened htime hcount, Function.update_self,
        Function.update_self]
      exact Prod.ext (congrArg (NumaStatus.mk true) hpub) rfl
    · rw [open_eq ht0]
      change ¬ (look _ (topic params).getType).1.isPublish = true
      rw [look, status_opened, Function.update_self]
      exact Bool.false_ne_true
  refused {s o x env} h hok ha k hk := by
    obtain ⟨topicName, params⟩ := x
    by_cases hx : topicName = str "numa_analysis"
    · subst hx
      cases hv : valid params with
      | true =>
        rw [(accepted _ _ _).mpr ⟨rfl, hv⟩] at ha
        cases ha
      | false =>
        have htime := (if_neg (by rw [hv]; exact Bool.false_ne_true)).mp (hok rfl) k hk
        rw [open_refused hv, htime]
    · rw [open_other hx]
  closed {s o x} h hok k hk hne := by
    have hstatus : status ((numaAnalysis D).service.closeTopic x s) = _ := status_insert rfl
    rw [look, hstatus, Function.update_of_ne hne]
    rfl
  fed {s o data} h hok k hk :=
    Prod.ext (congrFun (status_updateData data s) k) (norm_updateData data s).symm
  ran {s o env} h hok k hk := by
    change look (run env s).1 k = _
    rw [h.run_open hk]
    exact (runTopic_look env k s).1
  allowed h hk := ⟨fun _ => trivial, fun _ => trivial⟩
  reports {s o env} h hok := by
    by_cases hany : ∃ k, o k = true
    · obtain ⟨k, hk⟩ := hany
      refine ⟨[k], List.nodup_singleton k, fun k' => ?_, .of_eq ?_⟩
      · rw [List.mem_singleton]
        exact ⟨fun he => he ▸ hk, fun hk' => h.only k' k hk' hk⟩
      · change publications none (run env s).2 = _
        rw [h.run_open hk, (runTopic_look env k s).2, List.flatMap_singleton]
    · have hshut : ∀ k, o k = false := fun k => Bool.eq_false_iff.mpr (fun hk => hany ⟨k, hk⟩)
      refine ⟨[], List.nodup_nil, fun k => by simp [hshut], .of_eq ?_⟩
      change publications none (run env s).2 = _
      rw [run, runTopics_shut env.now _ s (fun t _ => (h.isOpen t).symm.trans (hshut t))]
      rfl
  about {s o env k r} h hk hr := by
    obtain ⟨params, rfl, hnamed, -⟩ := h.named k hk
    unfold reports at hr
    split at hr
    · rw [List.mem_singleton] at hr
      rw [hr]
      exact congrArg Topic.getType hnamed
    · cases hr
  once env k v := by
    unfold reports ran
    split
    · exact ⟨le_rfl, fun _ => rfl⟩
    · exact ⟨Nat.zero_le 1, fun hne => absurd rfl hne⟩
  done_feed data v hd := hd
  done_run env k v hd := by
    have hnot : ¬ due env.now v.2 v.1 = true := by
      intro hdue
      rw [(due_open hdue).2] at hd
      cases hd
    rw [reports, ran, if_neg hnot, if_neg hnot]
    exact ⟨rfl, hd⟩

end NumaAnalysis

end OeAware

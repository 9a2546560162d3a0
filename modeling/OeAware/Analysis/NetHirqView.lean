import OeAware.Analysis.Shared
import OeAware.Analysis.TableViews

/-! @src src/plugin/scenario/analysis/net_hirq/net_hirq_analysis.cpp | name:NetHirqAnalysis | scheme:isolation

    `net_hirq` has one topic, under whatever parameters. What was received is never cleared, and
    `Run` does not look whether the topic is open. -/

namespace OeAware
open Schemes

namespace NetHirqAnalysis
variable {F : Type} [Double F] {fixed : F → Str}

/-- A topic of the instance. -/
def topic (params : Str) : Topic := ⟨OE_NET_HIRQ_ANALYSIS, OE_NET_HIRQ_ANALYSIS, params⟩

/-- The topic is opened before anything was received and under a name that comes through; a topic of its
    name is closed only if it is the one that is open. While it is closed the instance is run only if
    nothing is due, and while it is open the instance is not disabled. -/
def Allowed (F : Type) [Double F] (fixed : F → Str) : (netHirqAnalysis F fixed).service.Condition
  | s, _, .openTopic x _ => x.1 = OE_NET_HIRQ_ANALYSIS → s.topicCtl.isOpen = false →
      setDataListTopic (topic x.2) = topic x.2 ∧ s.netRxSum = .empty ∧ s.netRxSumTrace = .empty ∧
      s.result = .empty
  | s, _, .closeTopic x => s.topicCtl.isOpen = true → (x.1 = OE_NET_HIRQ_ANALYSIS ↔
      (netHirqAnalysis F fixed).service.key x = (topic s.topicCtl.openParams).getType)
  | s, _, .reset => s.topicCtl.isOpen = false
  | _, _, .feed _ => True
  | s, _, .run env => s.topicCtl.isOpen = false → due env.now s = false

structure Inv (s : State F) (o : Str → Bool) : Prop where
  isOpen : ∀ k, o k = true ↔ s.topicCtl.isOpen = true ∧ k = (topic s.topicCtl.openParams).getType
  shut : s.topicCtl.isOpen = false → s.topicCtl.analysisTime = 0 ∧ s.topicCtl.hasPublished = false
  named : s.topicCtl.isOpen = true →
    setDataListTopic (topic s.topicCtl.openParams) = topic s.topicCtl.openParams

theorem accepted (x : Str × Str) (env : Env) (s : State F) :
    ((netHirqAnalysis F fixed).service.openTopic x env s).2 = true ↔
      x.1 = OE_NET_HIRQ_ANALYSIS ∧ s.topicCtl.isOpen = false := by
  change (!(openTopic ⟨_, x.1, x.2⟩ env s).2.1.failed) = true ↔ _
  unfold openTopic
  by_cases hx : x.1 = OE_NET_HIRQ_ANALYSIS <;> cases s.topicCtl.isOpen <;>
    simp [hx, failure, resultOk, Result.failed, OK, FAILED]

theorem open_refused {x : Str × Str} {env : Env} {s : State F}
    (h : ((netHirqAnalysis F fixed).service.openTopic x env s).2 = false) :
    ((netHirqAnalysis F fixed).service.openTopic x env s).1 = s := by
  have hnot : ¬ (x.1 = OE_NET_HIRQ_ANALYSIS ∧ s.topicCtl.isOpen = false) := by
    rw [← accepted x env s, h]
    exact Bool.false_ne_true
  change (openTopic ⟨_, x.1, x.2⟩ env s).1 = s
  unfold openTopic
  by_cases hx : x.1 = OE_NET_HIRQ_ANALYSIS
  · have ho : s.topicCtl.isOpen = true := Bool.not_eq_false _ ▸ fun ho => hnot ⟨hx, ho⟩
    simp [hx, ho]
  · simp [hx]

/-- What `OpenTopic` makes of the one entry there is. -/
def opened (params : Str) (now : ℤ) (ctl : TopicCtl) : TopicCtl :=
  { ctl with
    analysisTime := ((param params (str "t")).map (fun t => Int32.ofInt (atoi t))).getD ctl.analysisTime
    beginTime := now
    isOpen := true
    openParams := params }

theorem open_eq {params : Str} {env : Env} {s : State F} (h : s.topicCtl.isOpen = false) :
    ((netHirqAnalysis F fixed).service.openTopic (OE_NET_HIRQ_ANALYSIS, params) env s).1 =
      { s with topicCtl := opened params env.now s.topicCtl } := by
  change (openTopic (topic params) env s).1 = _
  simp [openTopic, topic, h, opened]

/-- A topic that is closed: nothing happens, or it is the one that is open. -/
theorem close_eq {s : State F} {o : Str → Bool} (h : Inv s o) {x : Str × Str}
    (hok : Allowed F fixed s o (.closeTopic x)) :
    (netHirqAnalysis F fixed).service.closeTopic x s = s ∧ o ((netHirqAnalysis F fixed).service.key x) = false ∨
    s.topicCtl.isOpen = true ∧
      (netHirqAnalysis F fixed).service.key x = (topic s.topicCtl.openParams).getType ∧
      (netHirqAnalysis F fixed).service.closeTopic x s = { s with topicCtl := { s.topicCtl with
        isOpen := false, analysisTime := 0, openParams := [], hasPublished := false } } := by
  obtain ⟨topicName, params⟩ := x
  have hshut : s.topicCtl.isOpen = false →
      o ((netHirqAnalysis F fixed).service.key (topicName, params)) = false := by
    intro ho
    refine Bool.eq_false_iff.mpr (fun hk => ?_)
    rw [((h.isOpen _).mp hk).1] at ho
    cases ho
  by_cases hx : topicName = OE_NET_HIRQ_ANALYSIS
  · cases ho : s.topicCtl.isOpen with
    | true =>
      refine .inr ⟨rfl, (hok ho).mp hx, ?_⟩
      change (closeTopic ⟨_, topicName, params⟩ s).1 = _
      simp [closeTopic, hx, ho]
    | false =>
      refine .inl ⟨?_, hshut ho⟩
      change (closeTopic ⟨_, topicName, params⟩ s).1 = _
      simp [closeTopic, ho]
  · refine .inl ⟨?_, Bool.eq_false_iff.mpr (fun hk => hx ?_)⟩
    · change (closeTopic ⟨_, topicName, params⟩ s).1 = _
      simp [closeTopic, hx]
    · obtain ⟨ho, hkey⟩ := (h.isOpen _).mp hk
      exact (hok ho).mpr hkey

theorem Inv.step {s : State F} {o : Str → Bool} (h : Inv s o) :
    ∀ (c : (netHirqAnalysis F fixed).service.Call), Allowed F fixed s o c →
      Inv ((netHirqAnalysis F fixed).service.step s c)
        ((netHirqAnalysis F fixed).service.openStep s o c)
  | .openTopic ⟨topicName, params⟩ env, hok => by
    cases ha : ((netHirqAnalysis F fixed).service.openTopic (topicName, params) env s).2 with
    | true =>
      obtain ⟨hx, ho⟩ := (accepted _ _ _).mp ha
      obtain rfl : topicName = OE_NET_HIRQ_ANALYSIS := hx
      simp only [Service.step, Service.openStep]
      rw [if_pos ha, open_eq ho]
      refine ⟨fun k => ?_, fun hopen => (by cases hopen), fun _ => (hok rfl ho).1⟩
      change Function.update o (topic params).getType true k = true ↔
        true = true ∧ k = (topic params).getType
      by_cases he : k = (topic params).getType
      · simp [he]
      · have := h.isOpen k
        simp [he, ho] at this ⊢
        exact this
    | false =>
      have hnot : ¬ ((netHirqAnalysis F fixed).service.openTopic (topicName, params) env s).2 = true := by
        rw [ha]
        exact Bool.false_ne_true
      simp only [Service.step, Service.openStep]
      rw [if_neg hnot, open_refused ha]
      exact h
  | .closeTopic x, hok => by
    change Inv ((netHirqAnalysis F fixed).service.closeTopic x s)
      (Function.update o ((netHirqAnalysis F fixed).service.key x) false)
    rcases close_eq h hok with ⟨hs, hk⟩ | ⟨ho, hk, hs⟩
    · rw [hs, ← hk, Function.update_eq_self]
      exact h
    · rw [hs, hk]
      refine ⟨fun k => ?_, fun _ => ⟨rfl, rfl⟩, fun hopen => (by cases hopen)⟩
      by_cases he : k = (topic s.topicCtl.openParams).getType
      · simp [he]
      · have := h.isOpen k
        simp [he] at this ⊢
        exact this
  | .reset, (hok : s.topicCtl.isOpen = false) => by
    have hnone : o = fun _ => false := funext fun k => Bool.eq_false_iff.mpr (fun hk => by
      rw [((h.isOpen k).mp hk).1] at hok
      cases hok)
    simp only [Service.openStep]
    rw [← hnone]
    exact h
  | .feed data, _ => by
    cases data with
    | none => exact h
    | some data => exact ⟨h.isOpen, h.shut, h.named⟩
  | .run env, hok => by
    change Inv (run fixed env s).1 o
    unfold run
    cases hd : due env.now s with
    | true =>
      refine ⟨h.isOpen, fun ho => ?_, h.named⟩
      rw [hok ho] at hd
      cases hd
    | false => exact ⟨h.isOpen, h.shut, h.named⟩

/-- What is reported. -/
def reports (fixed : F → Str) (env : Env) (s : State F) : List (Topic × Option AnalysisResultItem) :=
  if due env.now s then
    [(setDataListTopic (topic s.topicCtl.openParams), some (genPublishData fixed (results env s)))]
  else []

theorem run_reports (env : Env) (s : State F) :
    ((netHirqAnalysis F fixed).service.run env s).2 = reports fixed env s := by
  change publications none (run fixed env s).2 = _
  unfold run reports
  cases due env.now s <;> rfl

/-- Of the topic, all members are seen. -/
def view (F : Type) [Double F] (fixed : F → Str) :
    (netHirqAnalysis F fixed).service.View (Allowed F fixed) where
  V := State F
  look s _ := s
  feedV := updateData
  runV env _ s := (run fixed env s).1
  report env _ := reports fixed env
  done s := s.topicCtl.hasPublished = true
  inv := Inv
  inv_init := ⟨fun _ => ⟨fun h => (by cases h), fun h => (by cases h.1)⟩, fun _ => ⟨rfl, rfl⟩,
    fun h => (by cases h)⟩
  inv_step c h := h.step c
  opened {s o x env} h hok ha := by
    obtain ⟨topicName, params⟩ := x
    obtain ⟨hx, ho⟩ := (accepted _ _ _).mp ha
    obtain rfl : topicName = OE_NET_HIRQ_ANALYSIS := hx
    obtain ⟨hnamed, hsum, htrace, hresult⟩ := hok rfl ho
    obtain ⟨htime, hpub⟩ := h.shut ho
    have hinit : (init : State F).topicCtl.isOpen = false := rfl
    refine ⟨fun _ _ => ⟨hnamed, rfl, rfl, rfl⟩, (accepted _ _ _).mpr ⟨rfl, rfl⟩, ?_, ?_, fun k hk _ => ?_⟩
    · rw [open_eq ho, open_eq hinit]
      simp [opened, init, htime, hpub, hsum, htrace, hresult]
    · rw [open_eq hinit]
      exact Bool.false_ne_true
    · rw [((h.isOpen k).mp hk).1] at ho
      cases ho
  refused h hok ha k hk := open_refused ha
  closed {s o x} h hok k hk hne := by
    rcases close_eq h hok with ⟨hs, _⟩ | ⟨ho, hkey, hs⟩
    · exact hs
    · exact absurd (((h.isOpen k).mp hk).2.trans hkey.symm) hne
  fed h hok k hk := rfl
  ran h hok k hk := rfl
  allowed {s o k} h hk := ⟨fun _ => trivial, fun _ ho => by
    rw [((h.isOpen k).mp hk).1] at ho
    cases ho⟩
  reports {s o env} h hok := by
    cases ho : s.topicCtl.isOpen with
    | true =>
      refine ⟨[(topic s.topicCtl.openParams).getType], List.nodup_singleton _, fun k => ?_, ?_⟩
      · rw [h.isOpen, List.mem_singleton]
        exact ⟨fun hk => ⟨ho, hk⟩, And.right⟩
      · rw [run_reports, List.flatMap_singleton]
    | false =>
      refine ⟨[], List.nodup_nil, fun k => ?_, .of_eq ?_⟩
      · simp [h.isOpen, ho]
      · rw [run_reports, reports, hok ho]
        rfl
  about {s o env k r} h hk hr := by
    obtain ⟨ho, rfl⟩ := (h.isOpen k).mp hk
    unfold reports at hr
    split at hr
    · rw [List.mem_singleton] at hr
      rw [hr]
      exact congrArg Topic.getType (h.named ho)
    · cases hr
  once env k s := by
    unfold reports run
    split
    · exact ⟨le_rfl, fun _ => rfl⟩
    · exact ⟨Nat.zero_le 1, fun hne => absurd rfl hne⟩
  done_feed data s hd := by
    cases data <;> exact hd
  done_run env k s hd := by
    have hnot : due env.now s = false := by
      simp [due, hd]
    rw [reports, run, hnot]
    exact ⟨rfl, hd⟩

end NetHirqAnalysis

end OeAware

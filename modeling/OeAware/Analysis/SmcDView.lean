import OeAware.Analysis.Shared
import OeAware.Analysis.TableViews

/-! @src src/plugin/scenario/analysis/smc_d_scenario/smc_d_analysis.cpp | name:SmcDAnalysis | scheme:isolation

    `smc_d` keeps nothing by topic. The topic that was opened last is saved, and `CloseTopic` does
    nothing at all: it is reported when it is due, open or not. -/

namespace OeAware
open Schemes

variable {D : Type} [Double D]

namespace SmcDAnalysis

/-- A topic of the instance. -/
def topic (params : Str) : Topic := ⟨str "smc_d_analysis", str "smc_d", params⟩

/-- The members that a report shows are as on a new instance. -/
def Fresh (params : Str) (s : State D) : Prop :=
  s.curTime = 0 ∧ s.netFlow = 0 ∧ s.prevEstablishedCount = 0 ∧ s.prevCloseWaitCount = 0 ∧
    s.totalEstablishedDelta = 0 ∧ s.totalCloseWaitDelta = 0 ∧
    intParam params (str "t") s.analysisTime = intParam params (str "t") (init : State D).analysisTime ∧
    doubleParam params (str "threshold1") s.changeRateThreshold =
      doubleParam params (str "threshold1") (init : State D).changeRateThreshold ∧
    intParam params (str "threshold2") s.netFlowThreshold =
      intParam params (str "threshold2") (init : State D).netFlowThreshold

/-- A topic is opened only if no other one is open and all members are as on a new instance, and under a
    name that comes through. With no topic open the instance is run only if nothing is due. -/
def Allowed (D : Type) [Double D] : (smcDAnalysis D).service.Condition
  | s, o, .openTopic x _ => x.1 = str "smc_d" → setDataListTopic (topic x.2) = topic x.2 ∧
      (∀ k, o k = true → k = (topic x.2).getType) ∧ Fresh x.2 s
  | s, o, .run env => (∀ k, o k = false) → due env.now s = false
  | _, _, _ => True

/-- Only the topic that was saved can be open. -/
def Inv (s : State D) (o : Str → Bool) : Prop :=
  ∀ k, o k = true → k = s.saveTopic.getType ∧ setDataListTopic s.saveTopic = s.saveTopic

theorem accepted (x : Str × Str) (env : Env) (s : State D) :
    ((smcDAnalysis D).service.openTopic x env s).2 = true ↔ x.1 = str "smc_d" := by
  change (!(openTopic ⟨_, x.1, x.2⟩ env s).2.1.failed) = true ↔ _
  unfold openTopic
  by_cases hx : x.1 = str "smc_d" <;>
    simp [hx, notSupport, failure, resultOk, Result.failed, OK, FAILED]

theorem open_other {x : Str × Str} (hx : x.1 ≠ str "smc_d") (env : Env) (s : State D) :
    ((smcDAnalysis D).service.openTopic x env s).1 = s :=
  congrArg Prod.fst (if_pos hx : openTopic ⟨_, x.1, x.2⟩ env s = _)

/-- What `OpenTopic` makes of the members. -/
def opened (params : Str) (now : ℤ) (s : State D) : State D :=
  { s with
    analysisTime := intParam params (str "t") s.analysisTime
    changeRateThreshold := doubleParam params (str "threshold1") s.changeRateThreshold
    netFlowThreshold := intParam params (str "threshold2") s.netFlowThreshold
    beginTime := now
    isPublished := false
    saveTopic := topic params }

theorem open_eq (params : Str) (env : Env) (s : State D) :
    ((smcDAnalysis D).service.openTopic (str "smc_d", params) env s).1 = opened params env.now s :=
  congrArg Prod.fst (if_neg (fun h => h rfl) : openTopic (topic params) env s = _)

/-- Under the condition nothing is left of what was before. -/
theorem opened_fresh {params : Str} {now : ℤ} {s : State D} (h : Fresh params s) :
    opened params now s = opened params now init := by
  obtain ⟨h1, h2, h3, h4, h5, h6, h7, h8, h9⟩ := h
  simp only [opened, h1, h2, h3, h4, h5, h6, h7, h8, h9]
  rfl

omit [Double D] in
theorem due_detect (env : Env) (s : State D) (now : ℤ) :
    due now (detectTcpConnectionMode env s) = due now s := by
  unfold detectTcpConnectionMode
  simp only
  split <;> rfl

omit [Double D] in
theorem saveTopic_detect (env : Env) (s : State D) :
    (detectTcpConnectionMode env s).saveTopic = s.saveTopic := by
  unfold detectTcpConnectionMode
  simp only
  split <;> rfl

theorem saveTopic_run (env : Env) (s : State D) : (run env s).1.saveTopic = s.saveTopic := by
  unfold run
  simp only
  split <;> exact saveTopic_detect env s

theorem isPublished_run (env : Env) (s : State D) :
    (run env s).1.isPublished = (due env.now s || s.isPublished) := by
  have hd : (detectTcpConnectionMode env s).isPublished = s.isPublished := by
    unfold detectTcpConnectionMode
    simp only
    split <;> rfl
  unfold run
  simp only [due_detect]
  cases due env.now s with
  | true => rfl
  | false => exact hd

/-- What is reported. -/
def reports (env : Env) (s : State D) : List (Topic × Option AnalysisResultItem) :=
  if due env.now s then
    [(setDataListTopic s.saveTopic, some (getResult env.genNlOpen (detectTcpConnectionMode env s)))]
  else []

theorem run_reports (env : Env) (s : State D) :
    ((smcDAnalysis D).service.run env s).2 = reports env s := by
  change publications none (run env s).2 = _
  unfold run reports
  simp only [due_detect, saveTopic_detect]
  cases due env.now s <;> rfl

theorem Inv.step {s : State D} {o : Str → Bool} (h : Inv s o) :
    ∀ (c : (smcDAnalysis D).service.Call), Allowed D s o c →
      Inv ((smcDAnalysis D).service.step s c) ((smcDAnalysis D).service.openStep s o c)
  | .openTopic ⟨topicName, params⟩ env, hok => by
    simp only [Service.step, Service.openStep]
    by_cases hx : topicName = str "smc_d"
    · subst hx
      obtain ⟨hnamed, hall, _⟩ := hok rfl
      rw [if_pos ((accepted _ _ _).mpr rfl), open_eq]
      intro k hk
      refine ⟨?_, hnamed⟩
      change Function.update o (topic params).getType true k = true at hk
      change k = (topic params).getType
      by_contra hne
      rw [Function.update_of_ne hne] at hk
      exact hne (hall k hk)
    · rw [if_neg (fun ha => hx ((accepted _ _ _).mp ha)), open_other hx]
      exact h
  | .closeTopic x, _ => by
    intro k hk
    refine h k ?_
    by_cases he : k = (smcDAnalysis D).service.key x
    · simp [Service.openStep, he] at hk
    · simpa [Service.openStep, he] using hk
  | .reset, _ => fun k hk => by cases hk
  | .feed _, _ => h
  | .run env, _ => by
    intro k hk
    have hs : ((smcDAnalysis D).service.step s (.run env)).saveTopic = s.saveTopic :=
      saveTopic_run env s
    rw [hs]
    exact h k hk

/-- Of the topic, all members are seen. -/
def view (D : Type) [Double D] : (smcDAnalysis D).service.View (Allowed D) where
  V := State D
  look s _ := s
  feedV _ := id
  runV env _ s := (run env s).1
  report env _ := reports env
  done s := s.isPublished = true
  inv := Inv
  inv_init := fun _ h => by cases h
  inv_step c h := h.step c
  opened {s o x env} h hok ha := by
    obtain ⟨topicName, params⟩ := x
    obtain rfl : topicName = str "smc_d" := (accepted _ _ _).mp ha
    obtain ⟨hnamed, hall, hfresh⟩ := hok rfl
    refine ⟨fun _ => ⟨hnamed, fun _ hk => by (cases hk), rfl, rfl, rfl, rfl, rfl, rfl, rfl, rfl, rfl⟩,
      (accepted _ _ _).mpr rfl, ?_, ?_, fun k hk hne => absurd (hall k hk) hne⟩
    · rw [open_eq, open_eq]
      exact opened_fresh hfresh
    · rw [open_eq]
      exact Bool.false_ne_true
  refused {s o x env} h hok ha k hk := by
    by_cases hx : x.1 = str "smc_d"
    · rw [(accepted _ _ _).mpr hx] at ha
      cases ha
    · exact open_other hx env s
  closed h hok k hk hne := rfl
  fed h hok k hk := rfl
  ran h hok k hk := rfl
  allowed {s o k} h hk := ⟨fun _ => trivial, fun _ hnone => by
    rw [hnone k] at hk
    cases hk⟩
  reports {s o env} h hok := by
    by_cases hany : ∃ k, o k = true
    · obtain ⟨k, hk⟩ := hany
      refine ⟨[k], List.nodup_singleton k, fun k' => ?_, ?_⟩
      · rw [List.mem_singleton]
        exact ⟨fun he => he ▸ hk, fun hk' => (h k' hk').1.trans (h k hk).1.symm⟩
      · rw [run_reports, List.flatMap_singleton]
    · have hshut : ∀ k, o k = false := fun k => Bool.eq_false_iff.mpr (fun hk => hany ⟨k, hk⟩)
      refine ⟨[], List.nodup_nil, fun k => by simp [hshut], .of_eq ?_⟩
      rw [run_reports, reports, hok hshut]
      rfl
  about {s o env k r} h hk hr := by
    obtain ⟨rfl, hnamed⟩ := h k hk
    unfold reports at hr
    split at hr
    · rw [List.mem_singleton] at hr
      rw [hr]
      exact congrArg Topic.getType hnamed
    · cases hr
  once env k s := by
    rw [isPublished_run, reports]
    cases due env.now s with
    | true => exact ⟨le_rfl, fun _ => rfl⟩
    | false => exact ⟨Nat.zero_le 1, fun hne => absurd rfl hne⟩
  done_feed data s hd := hd
  done_run env k s hd := by
    have hnot : due env.now s = false := by
      simp [due, hd]
    rw [isPublished_run, reports, hnot, hd]
    exact ⟨rfl, rfl⟩

end SmcDAnalysis

end OeAware

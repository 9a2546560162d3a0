import OeAware.Analysis.Shared
import OeAware.Analysis.TableViews

/-! @src src/plugin/scenario/analysis/xcall/xcall_analysis.cpp | name:XcallAnalysis | scheme:isolation

    `xcall` keeps an entry for each topic that is open and drops it when the topic is closed. The
    threshold is a member: opening any topic may set it, for all topics and for good. -/

namespace OeAware
open Schemes

variable {D : Type} [Double D]

namespace XcallAnalysis

/-- A topic of the instance. -/
def topic (params : Str) : Topic := ⟨str "xcall_analysis", str "xcall", params⟩

/-- The threshold after opening a topic. -/
def thresholdAfter (params : Str) (threshold : D) : D := doubleParam params (str "threshold") threshold

/-- A topic is opened with the threshold it would find on a new instance, which is that of the other
    topics as well; a topic that is open only as long as nothing was counted for it. And the instance
    is disabled only when no topic is open. -/
def Allowed (D : Type) [Double D] : (xcallAnalysis D).service.Condition
  | s, o, .openTopic x _ => x.1 = str "xcall" → (topic x.2).Named ∧
      thresholdAfter x.2 s.threshold = thresholdAfter x.2 THRESHOLD ∧
      (∀ k, o k = true → k ≠ (topic x.2).getType → thresholdAfter x.2 s.threshold = s.threshold) ∧
      ∀ status, s.topicStatus.find (topic x.2).getType = some status →
        status.own = ⟨0, Double.ofInt 0⟩
  | _, o, .reset => ∀ k, o k = false
  | _, _, _ => True

structure Inv (s : State D) (o : Str → Bool) : Prop where
  isOpen : ∀ k, o k = (s.topicStatus.find k).isSome
  named : ∀ k, o k = true → ∃ params, k = (topic params).getType ∧ (topic params).Named
  entry : ∀ k status, s.topicStatus.find k = some status → status.isOpen = true

/-- What is seen of a topic: its entry, and the threshold. -/
def look (s : State D) (k : Str) : TopicStatus (XcallUsage D) × D :=
  ((s.topicStatus.find k).getD fresh, s.threshold)

theorem accepted (x : Str × Str) (now : ℤ) (s : State D) :
    ((xcallAnalysis D).service.openTopic x now s).2 = true ↔ x.1 = str "xcall" := by
  change (!(openTopic ⟨_, x.1, x.2⟩ now s).2.1.failed) = true ↔ _
  unfold openTopic
  by_cases hx : x.1 = str "xcall" <;>
    simp [hx, notSupport, failure, resultOk, Result.failed, OK, FAILED]

theorem open_other {x : Str × Str} (hx : x.1 ≠ str "xcall") (now : ℤ) (s : State D) :
    ((xcallAnalysis D).service.openTopic x now s).1 = s :=
  congrArg Prod.fst (if_pos hx : openTopic ⟨_, x.1, x.2⟩ now s = _)

/-- What `OpenTopic` makes of the entry of a topic. -/
def opened (params : Str) (now : ℤ) (status : TopicStatus (XcallUsage D)) :
    TopicStatus (XcallUsage D) :=
  { status with
    isOpen := true
    time := ((param params (str "t")).map (fun t => Int32.ofInt (atoi t))).getD 0
    beginTime := now
    isPublish := false }

theorem open_eq (params : Str) (now : ℤ) (s : State D) :
    ((xcallAnalysis D).service.openTopic (str "xcall", params) now s).1 =
      ⟨s.topicStatus.insert (topic params).getType
          (opened params now ((s.topicStatus.find (topic params).getType).getD fresh)),
        thresholdAfter params s.threshold⟩ :=
  congrArg Prod.fst (if_neg (fun h => h rfl) : openTopic (topic params) now s = _)

omit [Double D] in
theorem due_reported {now : ℤ} {status : TopicStatus (XcallUsage D)} (h : due now status = true) :
    status.isPublish = false := by
  simp only [due, decide_eq_true_eq, Bool.not_eq_true] at h
  exact h.1

/-- What is reported, by what is seen. -/
def reports (now : ℤ) (k : Str) (v : TopicStatus (XcallUsage D) × D) :
    List (Topic × Option AnalysisResultItem) :=
  publications none (report v.2 now k v.1)

theorem reports_due {now : ℤ} {k : Str} {v : TopicStatus (XcallUsage D) × D} (h : due now v.1 = true) :
    reports now k v = [(publishTopic k, some (analysis v.2 v.1.own))] := by
  rw [reports, report, if_pos h]
  rfl

theorem reports_not_due {now : ℤ} {k : Str} {v : TopicStatus (XcallUsage D) × D}
    (h : due now v.1 = false) : reports now k v = [] := by
  rw [reports, report, if_neg (by rw [h]; exact Bool.false_ne_true)]
  rfl

theorem run_reports (s : State D) (now : ℤ) :
    ((xcallAnalysis D).service.run now s).2 =
      s.topicStatus.keys.flatMap (fun k => reports now k (look s k)) := by
  have hwhole : ∀ k, Whole ((s.topicStatus.find k).elim [] (report s.threshold now k)) := by
    intro k
    cases s.topicStatus.find k with
    | none => exact Whole.nil
    | some status => exact Whole.ite _ _ _
  refine (publications_flatMap hwhole s.topicStatus.keys none).trans ?_
  refine List.flatMap_congr (fun k hk => ?_)
  obtain ⟨status, hf⟩ := Option.isSome_iff_exists.mp ((s.topicStatus.mem_keys k).mp hk)
  simp only [look, hf]
  rfl

/-- What `UpdateData` makes of what is seen. -/
def fed (data : XcallData) (v : TopicStatus (XcallUsage D) × D) : TopicStatus (XcallUsage D) × D :=
  ({ v.1 with own := update data v.1.own }, v.2)

/-- And `Run`. -/
def ran (now : ℤ) (v : TopicStatus (XcallUsage D) × D) : TopicStatus (XcallUsage D) × D :=
  (if due now v.1 then v.1.reported else v.1, v.2)

omit [Double D] in
theorem Inv.map {s : State D} {o : Str → Bool} (h : Inv s o)
    {f : TopicStatus (XcallUsage D) → TopicStatus (XcallUsage D)}
    (hf : ∀ status, (f status).isOpen = status.isOpen) :
    Inv { s with topicStatus := s.topicStatus.mapVal (fun _ => f) } o where
  isOpen k := by
    rw [UMap.find_mapVal, Option.isSome_map]
    exact h.isOpen k
  named := h.named
  entry k status hk := by
    obtain ⟨status', hk', rfl⟩ := Option.map_eq_some_iff.mp hk
    exact (hf _).trans (h.entry k status' hk')

theorem Inv.step {s : State D} {o : Str → Bool} (h : Inv s o) :
    ∀ (c : (xcallAnalysis D).service.Call), Allowed D s o c →
      Inv ((xcallAnalysis D).service.step s c) ((xcallAnalysis D).service.openStep s o c)
  | .openTopic ⟨topicName, params⟩ now, hok => by
    simp only [Service.step, Service.openStep]
    by_cases hx : topicName = str "xcall"
    · subst hx
      rw [if_pos ((accepted _ _ _).mpr rfl), open_eq]
      change Inv _ (Function.update o (topic params).getType true)
      refine ⟨fun k => ?_, fun k hk => ?_, fun k status hk => ?_⟩
      · by_cases he : k = (topic params).getType
        · simp [he]
        · simp [he, UMap.find_insert, h.isOpen]
      · by_cases he : k = (topic params).getType
        · exact ⟨params, he, (hok rfl).1⟩
        · exact h.named k (by simpa [he] using hk)
      · by_cases he : k = (topic params).getType
        · subst he
          rw [UMap.find_insert_self] at hk
          cases hk
          rfl
        · exact h.entry k status (by simpa [UMap.find_insert, he] using hk)
    · rw [if_neg (fun ha => hx ((accepted _ _ _).mp ha)), open_other hx]
      exact h
  | .closeTopic x, _ => by
    change Inv ⟨s.topicStatus.erase ((xcallAnalysis D).service.key x), s.threshold⟩
      (Function.update o ((xcallAnalysis D).service.key x) false)
    refine ⟨fun k => ?_, fun k hk => ?_, fun k status hk => ?_⟩
    · by_cases he : k = (xcallAnalysis D).service.key x
      · simp [he, UMap.find_erase]
      · simp [he, UMap.find_erase, h.isOpen]
    · by_cases he : k = (xcallAnalysis D).service.key x
      · simp [he] at hk
      · exact h.named k (by simpa [he] using hk)
    · by_cases he : k = (xcallAnalysis D).service.key x
      · simp [he, UMap.find_erase] at hk
      · exact h.entry k status (by simpa [UMap.find_erase, he] using hk)
  | .reset, hok => ⟨fun k => (hok k).symm.trans (h.isOpen k), fun _ hk => by (cases hk), h.entry⟩
  | .feed data, _ => by
    refine h.map (fun status => ?_)
    split <;> rfl
  | .run now, _ => by
    refine h.map (fun status => ?_)
    split <;> rfl

/-- Of a topic, its entry and the threshold are seen. -/
def view (D : Type) [Double D] : (xcallAnalysis D).service.View (Allowed D) where
  V := TopicStatus (XcallUsage D) × D
  look := look
  feedV := fed
  runV now _ := ran now
  report := reports
  done v := v.1.isPublish = true
  inv := Inv
  inv_init := ⟨fun _ => rfl, fun _ h => by (cases h), fun _ _ h => by (cases h)⟩
  inv_step c h := h.step c
  opened {s o x now} h hok ha := by
    obtain ⟨topicName, params⟩ := x
    obtain rfl : topicName = str "xcall" := (accepted _ _ _).mp ha
    obtain ⟨hnamed, hfresh, hothers, hentry⟩ := hok rfl
    refine ⟨fun _ => ⟨hnamed, rfl, fun _ hk => by (cases hk), fun _ hk => by (cases hk)⟩,
      (accepted _ _ _).mpr rfl, ?_, ?_, fun k hk hne => ?_⟩
    · rw [open_eq, open_eq]
      change look _ (topic params).getType = look _ (topic params).getType
      simp only [look, UMap.find_insert_self, hfresh]
      cases hf : s.topicStatus.find (topic params).getType with
      | none => rfl
      | some status =>
        simp only [opened, Option.getD_some, hentry status hf]
        rfl
    · rw [open_eq]
      change ¬ (look _ (topic params).getType).1.isPublish = true
      simp [look, opened]
    · rw [open_eq]
      simp only [look, UMap.find_insert, hothers k hk hne]
      rw [if_neg (show k ≠ (topic params).getType from hne)]
  refused {s o x now} h hok ha k hk := by
    by_cases hx : x.1 = str "xcall"
    · rw [(accepted _ _ _).mpr hx] at ha
      cases ha
    · rw [open_other hx]
  closed {s o x} h hok k hk hne := by
    change look ⟨s.topicStatus.erase ((xcallAnalysis D).service.key x), s.threshold⟩ k = _
    simp only [look, UMap.find_erase, if_neg hne]
  fed {s o data} h hok k hk := by
    rw [h.isOpen] at hk
    obtain ⟨status, hf⟩ := Option.isSome_iff_exists.mp hk
    change look (updateData data s) k = _
    simp [look, updateData, hf, h.entry k status hf, XcallAnalysis.fed]
  ran {s o now} h hok k hk := by
    rw [h.isOpen] at hk
    obtain ⟨status, hf⟩ := Option.isSome_iff_exists.mp hk
    change look (run now s).1 k = _
    simp [look, run, hf, XcallAnalysis.ran]
  allowed h hk := ⟨fun _ => trivial, fun _ => trivial⟩
  reports {s o now} h hok := ⟨s.topicStatus.keys, s.topicStatus.nodup,
    fun k => by rw [s.topicStatus.mem_keys, h.isOpen], .of_eq (run_reports s now)⟩
  about {s o now k r} h hk hr := by
    obtain ⟨params, rfl, hnamed⟩ := h.named k hk
    cases hd : due now (look s (topic params).getType).1 with
    | true =>
      rw [reports_due hd, List.mem_singleton] at hr
      rw [hr]
      exact congrArg Topic.getType hnamed
    | false =>
      rw [reports_not_due hd] at hr
      cases hr
  once now k v := by
    cases hd : due now v.1 with
    | true =>
      rw [reports_due hd, ran, if_pos hd]
      exact ⟨le_rfl, fun _ => rfl⟩
    | false =>
      rw [reports_not_due hd]
      exact ⟨Nat.zero_le 1, fun hne => absurd rfl hne⟩
  done_feed data v hd := hd
  done_run now k v hd := by
    have hnot : due now v.1 = false := by
      refine Bool.eq_false_iff.mpr (fun hdue => ?_)
      rw [due_reported hdue] at hd
      cases hd
    rw [reports_not_due hnot, ran, hnot]
    exact ⟨rfl, hd⟩

end XcallAnalysis

end OeAware

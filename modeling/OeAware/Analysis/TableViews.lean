import OeAware.Analysis.Tables

/-! @src src/plugin/scenario/analysis/hugepage/hugepage_analysis.cpp, dynamic_smt/dynamic_smt_analysis.cpp,
    docker_coordination_burst/docker_coordination_burst_analysis.cpp |
    name:OpenTopic, CloseTopic, UpdateData, Run | scheme:isolation

    In an instance that keeps all it knows in its table, a topic's entry is all that its reports depend
    on. `CloseTopic` leaves the entry in the table; what `OpenTopic` makes of such an entry is what it
    makes of a new one, as each of the instances sees to it in its own way. -/

namespace OeAware
open Schemes

/-! ### What is published -/

/-- What is published is what was written last; nothing of what came before is needed for it. -/
def Whole {ρ : Type} (es : List (Effect ρ)) : Prop :=
  ∀ b es', ∃ b', publications b (es ++ es') = publications none es ++ publications b' es'

theorem Whole.nil {ρ : Type} : Whole ([] : List (Effect ρ)) := fun b _ => ⟨b, rfl⟩

theorem Whole.ite {ρ : Type} (c : Prop) [Decidable c] (item : ρ) (topic : Topic) :
    Whole (if c then [.write item, .publish topic] else []) := by
  split
  · exact fun b es' => ⟨some item, rfl⟩
  · exact Whole.nil

theorem publications_flatMap {α ρ : Type} {f : α → List (Effect ρ)} (h : ∀ a, Whole (f a)) :
    ∀ (l : List α) (b : Option ρ),
      publications b (l.flatMap f) = l.flatMap (fun a => publications none (f a))
  | [], _ => rfl
  | a :: l, b => by
    obtain ⟨b', hb⟩ := h a b (l.flatMap f)
    rw [List.flatMap_cons, List.flatMap_cons, hb, publications_flatMap h l b']

/-! ### Entries of a table -/

namespace Table
variable {α : Type}

theorem status_set (s : Table α) (own : α) (type : Str) (status : TopicStatus α) :
    (s.set type status).status own = Function.update (s.status own) type status := by
  funext k
  by_cases hk : k = type <;> simp [Table.status, set, UMap.find_insert, hk]

theorem status_insert {s s' : Table α} {own : α} {type : Str} {status : TopicStatus α}
    (h : s'.topicStatus = s.topicStatus.insert type status) :
    s'.status own = Function.update (s.status own) type status := by
  rw [← status_set]
  unfold Table.status
  rw [h]
  rfl

theorem status_map {s : Table α} {own : α} {f : TopicStatus α → TopicStatus α}
    (hf : f (.new own) = .new own) (k : Str) : (s.map f).status own k = f (s.status own k) := by
  simp only [Table.status, map, UMap.find_mapVal]
  cases s.topicStatus.find k with
  | none => exact hf.symm
  | some status => rfl

end Table

theorem flatMap_filter_of_nil {α β : Type} (p : α → Bool) (f : α → List β) :
    ∀ l : List α, (∀ a ∈ l, p a = false → f a = []) → l.flatMap f = (l.filter p).flatMap f
  | [], _ => rfl
  | a :: l, h => by
    have ih := flatMap_filter_of_nil p f l (fun a ha => h a (List.mem_cons_of_mem _ ha))
    rw [List.flatMap_cons, ih]
    cases hp : p a with
    | true => rw [List.filter_cons_of_pos hp, List.flatMap_cons]
    | false =>
      rw [List.filter_cons_of_neg (by rw [hp]; exact Bool.false_ne_true), h a List.mem_cons_self hp,
        List.nil_append]

/-- The type of a topic tells its parameters. -/
theorem getType_params {i t p p' : Str} (h : (Topic.mk i t p).getType = (Topic.mk i t p').getType) :
    p = p' := by
  rw [getType_eq, getType_eq] at h
  simpa using h

/-! ### What the instances make of entries -/

/-- The analysis time is the one that the parameters give. -/
def TopicStatus.Timed {α : Type} (params : Str) (status : TopicStatus α) : Prop :=
  param params (str "t") = none → status.time = 0

theorem TopicStatus.Timed.setTime {α : Type} {params : Str} {status : TopicStatus α}
    (h : status.Timed params) : (status.setTime params).Timed params := by
  unfold TopicStatus.setTime
  split
  · rename_i t ht
    intro hnone
    rw [ht] at hnone
    cases hnone
  · exact h

/-- `OpenTopic` and `CloseTopic` of an instance, by what they make of the entry of a topic. -/
structure TableKind.Rules (K : TableKind) where
  topicName : Str
  /-- The parameters are accepted. -/
  valid : Str → Bool
  openStatus : Str → ℤ → TopicStatus K.Own → TopicStatus K.Own
  closeStatus : TopicStatus K.Own → TopicStatus K.Own
  /-- What is kept of a topic that is not open, or as it was when it was opened. -/
  ready : Str → K.Own → Prop
  ready_new : ∀ params, ready params K.own
  opens : ∀ topic now s, (K.openTopic topic now s).1.topicStatus =
    if topic.topicName = topicName then
      s.topicStatus.insert topic.getType (openStatus topic.params now (s.status K.own topic.getType))
    else s.topicStatus
  accepts : ∀ topic now s, (K.openTopic topic now s).2.1.failed = false ↔
    topic.topicName = topicName ∧ valid topic.params = true
  closes : ∀ topic s, (K.closeTopic topic s).1.topicStatus =
    s.topicStatus.insert topic.getType (closeStatus (s.status K.own topic.getType))
  open_ready : ∀ {params now status}, valid params = true → ready params status.own →
    status.isPublish = false → status.Timed params →
    openStatus params now status = openStatus params now (.new K.own)
  open_timed : ∀ {params now status}, status.Timed params → (openStatus params now status).Timed params
  open_publish : ∀ {params now status}, (openStatus params now status).isPublish = status.isPublish
  open_open : ∀ {params now status}, valid params = true → (openStatus params now status).isOpen = true
  open_refused : ∀ {params now status}, valid params = false →
    (openStatus params now status).isOpen = status.isOpen ∧
      ready params (openStatus params now status).own
  close_shut : ∀ status, (closeStatus status).isOpen = false ∧ (closeStatus status).isPublish = false ∧
    (closeStatus status).time = status.time ∧ ∀ params, ready params (closeStatus status).own

namespace TableKind
variable {K : TableKind} (R : K.Rules)

/-- The topic with some parameters. -/
def Rules.topic (params : Str) : Topic := ⟨K.name, R.topicName, params⟩

/-- No topic is opened whose name does not come through, and none that is open already, unless it has
    not reported and what is kept of it is as it was when it was opened. -/
def Rules.Allowed : K.toInstance.service.Condition
  | s, o, .openTopic x _ => x.1 = R.topicName → R.valid x.2 = true →
      (R.topic x.2).Named ∧ (o (R.topic x.2).getType = true →
        (s.status K.own (R.topic x.2).getType).isPublish = false ∧
          R.ready x.2 (s.status K.own (R.topic x.2).getType).own)
  | _, _, _ => True

/-- What holds of the table and the topics that are open. -/
structure Rules.Inv (s : Table K.Own) (o : Str → Bool) : Prop where
  isOpen : ∀ k, o k = (s.status K.own k).isOpen
  named : ∀ k, o k = true → ∃ params, k = (R.topic params).getType ∧ (R.topic params).Named ∧
    R.valid params = true
  timed : ∀ params, (s.status K.own (R.topic params).getType).Timed params
  ready : ∀ params, o (R.topic params).getType = false →
    (s.status K.own (R.topic params).getType).isPublish = false ∧
      R.ready params (s.status K.own (R.topic params).getType).own

variable {R}

theorem Rules.Inv.init : R.Inv (K.toInstance.init) (fun _ => false) where
  isOpen _ := rfl
  named _ h := by cases h
  timed _ _ := rfl
  ready params _ := ⟨rfl, R.ready_new params⟩

/-- The entry of one topic is written. -/
theorem Rules.Inv.set {s s' : Table K.Own} {o : Str → Bool} (h : R.Inv s o) {type : Str}
    {status : TopicStatus K.Own} (hs : s'.status K.own = Function.update (s.status K.own) type status)
    {o' : Str → Bool} (ho : o' = Function.update o type status.isOpen)
    (hnamed : status.isOpen = true → ∃ params, type = (R.topic params).getType ∧
      (R.topic params).Named ∧ R.valid params = true)
    (htimed : ∀ params, type = (R.topic params).getType → status.Timed params)
    (hready : ∀ params, type = (R.topic params).getType → status.isOpen = false →
      status.isPublish = false ∧ R.ready params status.own) : R.Inv s' o' := by
  subst ho
  refine ⟨fun k => ?_, fun k hk => ?_, fun params => ?_, fun params hp => ?_⟩
  · rw [hs]
    by_cases he : k = type
    · subst he
      simp
    · simp [he, h.isOpen]
  · by_cases he : k = type
    · subst he
      exact hnamed (by simpa using hk)
    · exact h.named k (by simpa [he] using hk)
  · rw [hs]
    by_cases he : (R.topic params).getType = type
    · subst he
      simpa using htimed params rfl
    · simpa [he] using h.timed params
  · rw [hs]
    by_cases he : (R.topic params).getType = type
    · subst he
      simpa using hready params rfl (by simpa using hp)
    · simpa [he] using h.ready params (by simpa [he] using hp)

/-- Each entry is rewritten, and none is opened or closed. -/
theorem Rules.Inv.map {s : Table K.Own} {o : Str → Bool} (h : R.Inv s o)
    {f : TopicStatus K.Own → TopicStatus K.Own} (hopen : ∀ status, (f status).isOpen = status.isOpen)
    (htime : ∀ status, (f status).time = status.time)
    (hshut : ∀ status, status.isOpen = false → f status = status) : R.Inv (s.map f) o := by
  have hs : ∀ k, (s.map f).status K.own k = f (s.status K.own k) :=
    Table.status_map (hshut _ rfl)
  refine ⟨fun k => ?_, h.named, fun params hp => ?_, fun params hp => ?_⟩
  · rw [hs, hopen]
    exact h.isOpen k
  · rw [hs, htime]
    exact h.timed params hp
  · rw [hs, hshut _ ((h.isOpen _).symm.trans hp)]
    exact h.ready params hp

/-! ### The view of a topic -/

theorem Rules.status_open (params : Str) (env : ℤ × K.Env) (s : Table K.Own) :
    (K.toInstance.service.openTopic (R.topicName, params) env s).1.status K.own =
      Function.update (s.status K.own) (R.topic params).getType
        (R.openStatus params env.1 (s.status K.own (R.topic params).getType)) :=
  Table.status_insert ((R.opens (R.topic params) env.1 s).trans (if_pos rfl))

theorem Rules.status_opened (params : Str) (env : ℤ × K.Env) (s : Table K.Own) :
    (K.toInstance.service.openTopic (R.topicName, params) env s).1.status K.own
        (R.topic params).getType =
      R.openStatus params env.1 (s.status K.own (R.topic params).getType) := by
  rw [R.status_open]
  exact Function.update_self ..

theorem Rules.accepted (x : Str × Str) (env : ℤ × K.Env) (s : Table K.Own) :
    (K.toInstance.service.openTopic x env s).2 = true ↔ x.1 = R.topicName ∧ R.valid x.2 = true :=
  (Bool.not_eq_true' _).to_iff.trans (R.accepts ⟨K.name, x.1, x.2⟩ env.1 s)

theorem Rules.status_other {x : Str × Str} (hx : x.1 ≠ R.topicName) (env : ℤ × K.Env)
    (s : Table K.Own) :
    (K.toInstance.service.openTopic x env s).1.status K.own = s.status K.own := by
  have h := (R.opens ⟨K.name, x.1, x.2⟩ env.1 s).trans (if_neg hx)
  unfold Table.status
  exact funext fun k => congrArg (fun m => (UMap.find m k).getD _) h

theorem Rules.status_close (x : Str × Str) (s : Table K.Own) :
    (K.toInstance.service.closeTopic x s).status K.own =
      Function.update (s.status K.own) (K.toInstance.service.key x)
        (R.closeStatus (s.status K.own (K.toInstance.service.key x))) :=
  Table.status_insert (R.closes ⟨K.name, x.1, x.2⟩ s)

/-- An entry that `OpenTopic` may find. -/
theorem Rules.Inv.at_open {s : Table K.Own} {o : Str → Bool} (h : R.Inv s o) {params : Str}
    {env : ℤ × K.Env} (hok : R.Allowed s o (.openTopic (R.topicName, params) env))
    (hv : R.valid params = true) :
    R.openStatus params env.1 (s.status K.own (R.topic params).getType) =
      R.openStatus params env.1 (.new K.own) := by
  have hready : (s.status K.own (R.topic params).getType).isPublish = false ∧
      R.ready params (s.status K.own (R.topic params).getType).own := by
    cases ho : o (R.topic params).getType with
    | true => exact (hok rfl hv).2 ho
    | false => exact h.ready params ho
  exact R.open_ready hv hready.2 hready.1 (h.timed params)

theorem Rules.Inv.congr {s s' : Table K.Own} {o : Str → Bool} (h : R.Inv s o)
    (hs : s'.status K.own = s.status K.own) : R.Inv s' o where
  isOpen := by rw [hs]; exact h.isOpen
  named := h.named
  timed := by rw [hs]; exact h.timed
  ready := by rw [hs]; exact h.ready

theorem Rules.Inv.opened {s : Table K.Own} {o : Str → Bool} (h : R.Inv s o) {x : Str × Str}
    {env : ℤ × K.Env} (hok : R.Allowed s o (.openTopic x env)) :
    R.Inv (K.toInstance.service.openTopic x env s).1
      (K.toInstance.service.openStep s o (.openTopic x env)) := by
  obtain ⟨topicName, params⟩ := x
  simp only [Service.openStep]
  by_cases hx : topicName = R.topicName
  · subst hx
    have hstatus := R.status_open params env s
    have htimed := h.timed params
    cases hv : R.valid params with
    | true =>
      rw [if_pos ((R.accepted _ _ _).mpr ⟨rfl, hv⟩)]
      refine h.set hstatus (by rw [R.open_open hv]; rfl)
        (fun _ => ⟨params, rfl, (hok rfl hv).1, hv⟩) (fun params' hp => ?_) (fun params' hp hopen => ?_)
      · cases getType_params hp
        exact R.open_timed htimed
      · rw [R.open_open hv] at hopen
        cases hopen
    | false =>
      have hshut := @Rules.open_refused _ R params env.1 (s.status K.own (R.topic params).getType) hv
      rw [if_neg (fun ha => by rw [((R.accepted _ _ _).mp ha).2] at hv; cases hv)]
      refine h.set hstatus ?_ (fun hopen => ?_) (fun params' hp => ?_) (fun params' hp hopen => ?_)
      · rw [hshut.1, ← h.isOpen, Function.update_eq_self]
      · exact h.named _ ((h.isOpen _).trans (hshut.1.symm.trans hopen))
      · cases getType_params hp
        exact R.open_timed htimed
      · cases getType_params hp
        rw [hshut.1, ← h.isOpen] at hopen
        exact ⟨R.open_publish.trans (h.ready params hopen).1, hshut.2⟩
  · rw [if_neg (fun ha => hx ((R.accepted _ _ _).mp ha).1)]
    exact h.congr (R.status_other hx env s)

theorem Rules.Inv.closed {s : Table K.Own} {o : Str → Bool} (h : R.Inv s o) (x : Str × Str) :
    R.Inv (K.toInstance.service.closeTopic x s)
      (Function.update o (K.toInstance.service.key x) false) := by
  obtain ⟨hopen, hpub, htime, hready⟩ := R.close_shut (s.status K.own (K.toInstance.service.key x))
  refine h.set (R.status_close x s) (by rw [hopen]) (fun ho => ?_) (fun params hp => ?_)
    (fun params _ _ => ⟨hpub, hready params⟩)
  · rw [hopen] at ho
    cases ho
  · have := h.timed params
    rw [← hp] at this
    exact fun hnone => htime.trans (this hnone)

/-- What `UpdateData` makes of an entry. -/
def fed (K : TableKind) (data : K.Data) (status : TopicStatus K.Own) : TopicStatus K.Own :=
  if status.isOpen then { status with own := K.update data status.own } else status

/-- And `Run`. -/
def ran (now : ℤ) (status : TopicStatus K.Own) : TopicStatus K.Own :=
  if status.due now then status.reported else status

theorem due_open {α : Type} {status : TopicStatus α} {now : ℤ} (h : status.due now = true) :
    status.isOpen = true ∧ status.isPublish = false := by
  simp only [TopicStatus.due, decide_eq_true_eq, Bool.not_eq_true] at h
  exact ⟨h.1, h.2.1⟩

theorem fed_shut {data : K.Data} {status : TopicStatus K.Own} (h : status.isOpen = false) :
    K.fed data status = status := by
  rw [fed, h]
  rfl

theorem ran_shut {now : ℤ} {status : TopicStatus K.Own} (h : status.isOpen = false) :
    ran now status = status := by
  refine if_neg (fun hd => ?_)
  rw [(due_open hd).1] at h
  cases h

theorem Rules.Inv.fed {s : Table K.Own} {o : Str → Bool} (h : R.Inv s o) (data : K.Data) :
    R.Inv (K.toInstance.service.feed data s) o := by
  refine h.map (f := K.fed data) (fun status => ?_) (fun status => ?_) (fun status => fed_shut)
  · unfold TableKind.fed
    split <;> rfl
  · unfold TableKind.fed
    split <;> rfl

theorem Rules.Inv.ran {s : Table K.Own} {o : Str → Bool} (h : R.Inv s o) (env : ℤ × K.Env) :
    R.Inv (K.toInstance.service.run env s).1 o := by
  refine h.map (f := TableKind.ran env.1) (fun status => ?_) (fun status => ?_)
    (fun status => ran_shut)
  · unfold TableKind.ran
    split <;> rfl
  · unfold TableKind.ran
    split <;> rfl

/-- What is reported for an entry. -/
def reports (K : TableKind) (env : ℤ × K.Env) (type : Str) (status : TopicStatus K.Own) :
    List (Topic × Option AnalysisResultItem) :=
  publications none (Table.report (K.analysis env.2) env.1 type status)

theorem reports_due {env : ℤ × K.Env} {type : Str} {status : TopicStatus K.Own}
    (h : status.due env.1 = true) :
    K.reports env type status = [(publishTopic type, some (K.analysis env.2 status.own))] := by
  rw [reports, Table.report, if_pos h]
  rfl

theorem reports_not_due {env : ℤ × K.Env} {type : Str} {status : TopicStatus K.Own}
    (h : status.due env.1 = false) : K.reports env type status = [] := by
  rw [reports, Table.report, if_neg (by rw [h]; exact Bool.false_ne_true)]
  rfl

theorem run_reports {s : Table K.Own} {o : Str → Bool} (h : R.Inv s o) (env : ℤ × K.Env) :
    (K.toInstance.service.run env s).2 =
      (s.topicStatus.keys.filter o).flatMap (fun k => K.reports env k (s.status K.own k)) := by
  have hwhole : ∀ k, Whole ((s.topicStatus.find k).elim []
      (Table.report (K.analysis env.2) env.1 k)) := by
    intro k
    cases s.topicStatus.find k with
    | none => exact Whole.nil
    | some status => exact Whole.ite _ _ _
  refine (publications_flatMap hwhole s.topicStatus.keys none).trans ?_
  rw [← flatMap_filter_of_nil o]
  · refine List.flatMap_congr (fun k hk => ?_)
    obtain ⟨status, hf⟩ := Option.isSome_iff_exists.mp ((s.topicStatus.mem_keys k).mp hk)
    simp only [Table.status, hf]
    rfl
  · intro k _ hk
    refine reports_not_due (Bool.eq_false_iff.mpr (fun hd => ?_))
    rw [h.isOpen, (due_open hd).1] at hk
    cases hk

/-- Of a topic, its entry is seen. -/
def Rules.view (R : K.Rules) : K.toInstance.service.View R.Allowed where
  V := TopicStatus K.Own
  look s k := s.status K.own k
  feedV := K.fed
  runV env _ := ran env.1
  report := K.reports
  done status := status.isPublish = true
  inv := R.Inv
  inv_init := Rules.Inv.init
  inv_step c h hok := by
    cases c with
    | openTopic x env => exact h.opened hok
    | closeTopic x => exact h.closed x
    | reset => exact Rules.Inv.init.congr rfl
    | feed data => exact h.fed data
    | run env => exact h.ran env
  opened {s o x env} h hok ha := by
    obtain ⟨hx, hv⟩ := (R.accepted _ _ _).mp ha
    obtain ⟨topicName, params⟩ := x
    cases hx
    refine ⟨fun hx hv => ⟨(hok hx hv).1, fun ho => by cases ho⟩, (R.accepted _ _ _).mpr ⟨rfl, hv⟩,
      ?_, ?_, fun k _ hk => ?_⟩
    · exact (R.status_opened params env s).trans
        ((h.at_open hok hv).trans (R.status_opened params env K.toInstance.service.init).symm)
    · intro hdone
      have hnew := congrArg TopicStatus.isPublish (R.status_opened params env K.toInstance.service.init)
      rw [R.open_publish] at hnew
      cases hnew.symm.trans hdone
    · rw [R.status_open]
      exact Function.update_of_ne hk _ _
  refused {s o x env} h hok ha k ho := by
    obtain ⟨topicName, params⟩ := x
    by_cases hx : topicName = R.topicName
    · subst hx
      rw [R.status_open]
      refine Function.update_of_ne (fun hk => ?_) _ _
      obtain ⟨params', hk', -, hv⟩ := h.named k ho
      rw [hk] at hk'
      cases getType_params hk'
      rw [(R.accepted _ _ _).mpr ⟨rfl, hv⟩] at ha
      cases ha
    · exact congrFun (R.status_other hx env s) k
  closed {s o x} h hok k ho hk := by
    rw [R.status_close]
    exact Function.update_of_ne hk _ _
  fed {s o data} h hok k ho := Table.status_map (fed_shut rfl) k
  ran {s o env} h hok k ho := Table.status_map (ran_shut rfl) k
  allowed h ho := ⟨fun _ => trivial, fun _ => trivial⟩
  reports {s o env} h hok := by
    refine ⟨s.topicStatus.keys.filter o, s.topicStatus.nodup.filter _, fun k => ?_,
      .of_eq (run_reports h env)⟩
    rw [List.mem_filter, s.topicStatus.mem_keys]
    refine ⟨And.right, fun ho => ⟨?_, ho⟩⟩
    rw [h.isOpen, Table.status] at ho
    cases hf : s.topicStatus.find k with
    | none =>
      rw [hf] at ho
      cases ho
    | some status => rfl
  about {s o env k r} h ho hr := by
    obtain ⟨params, rfl, hnamed, -⟩ := h.named k ho
    cases hd : (s.status K.own (R.topic params).getType).due env.1 with
    | true =>
      rw [reports_due hd, List.mem_singleton] at hr
      rw [hr]
      exact congrArg Topic.getType hnamed
    | false =>
      rw [reports_not_due hd] at hr
      cases hr
  once env k status := by
    cases hd : status.due env.1 with
    | true =>
      rw [reports_due hd, ran, if_pos hd]
      exact ⟨le_rfl, fun _ => rfl⟩
    | false =>
      rw [reports_not_due hd]
      exact ⟨Nat.zero_le 1, fun hne => absurd rfl hne⟩
  done_feed data status hd := by
    unfold TableKind.fed
    split <;> exact hd
  done_run env k status hd := by
    have hnot : status.due env.1 = false := by
      refine Bool.eq_false_iff.mpr (fun hdue => ?_)
      rw [(due_open hdue).2] at hd
      cases hd
    rw [reports_not_due hnot, ran, hnot]
    exact ⟨rfl, hd⟩

end TableKind
/-! ### Three of the instances -/

section setTime
variable {α : Type} (status : TopicStatus α) (params : Str)

@[simp] theorem isOpen_setTime : (status.setTime params).isOpen = status.isOpen := by
  unfold TopicStatus.setTime
  split <;> rfl

@[simp] theorem isPublish_setTime : (status.setTime params).isPublish = status.isPublish := by
  unfold TopicStatus.setTime
  split <;> rfl

@[simp] theorem beginTime_setTime : (status.setTime params).beginTime = status.beginTime := by
  unfold TopicStatus.setTime
  split <;> rfl

@[simp] theorem own_setTime : (status.setTime params).own = status.own := by
  unfold TopicStatus.setTime
  split <;> rfl

theorem setTime_own (own : α) :
    ({ status with own } : TopicStatus α).setTime params = { status.setTime params with own } := by
  unfold TopicStatus.setTime
  split <;> rfl

theorem TopicStatus.Timed.time_eq {status status' : TopicStatus α} {params : Str}
    (h : status.Timed params) (h' : status'.Timed params) :
    (status.setTime params).time = (status'.setTime params).time := by
  unfold TopicStatus.setTime
  cases ht : param params (str "t") with
  | none => exact (h ht).trans (h' ht).symm
  | some t => rfl

end setTime

variable {D : Type} [Double D]

theorem doubleParam_self (params key : Str) (old : D) :
    doubleParam params key (doubleParam params key old) = doubleParam params key old := by
  unfold doubleParam
  cases param params key <;> rfl

namespace TableKind
variable {K : TableKind}

/-- `OpenTopic` of an instance that takes any parameters. -/
structure Accepting (topicName : Str)
    (openStatus : Str → ℤ → TopicStatus K.Own → TopicStatus K.Own) : Prop where
  openTopic : ∀ topic now s, K.openTopic topic now s =
    if topic.topicName ≠ topicName then (s, notSupport topic, [])
    else (s.set topic.getType (openStatus topic.params now (s.status K.own topic.getType)), resultOk,
      s.subscribeTopics.map .subscribe)

variable {topicName : Str} {openStatus : Str → ℤ → TopicStatus K.Own → TopicStatus K.Own}

theorem Accepting.opens (h : Accepting topicName openStatus) (topic : Topic) (now : ℤ)
    (s : Table K.Own) : (K.openTopic topic now s).1.topicStatus = if topic.topicName = topicName then
      s.topicStatus.insert topic.getType (openStatus topic.params now (s.status K.own topic.getType))
    else s.topicStatus := by
  rw [h.openTopic]
  by_cases ht : topic.topicName = topicName <;> simp [ht, Table.set]

theorem Accepting.accepts (h : Accepting topicName openStatus) (topic : Topic) (now : ℤ)
    (s : Table K.Own) :
    (K.openTopic topic now s).2.1.failed = false ↔ topic.topicName = topicName ∧ true = true := by
  rw [h.openTopic]
  by_cases ht : topic.topicName = topicName <;>
    simp [ht, notSupport, failure, resultOk, Result.failed, OK, FAILED]

end TableKind

/-- A topic's thresholds are those of its parameters, before any count. -/
def hugePageRules (K : TlbKind D) : (hugePageAnalysis K).Rules where
  topicName := str "hugepage"
  valid _ := true
  openStatus := HugePageAnalysis.openStatus K
  closeStatus := HugePageAnalysis.closeStatus K
  ready params own := own = HugePageAnalysis.fresh K ∨
    own = (HugePageAnalysis.openStatus K params 0 (.new (HugePageAnalysis.fresh K))).own
  ready_new _ := .inl rfl
  opens := TableKind.Accepting.opens ⟨fun _ _ _ => rfl⟩
  accepts := TableKind.Accepting.accepts ⟨fun _ _ _ => rfl⟩
  closes _ _ := rfl
  open_ready {params now status} _ hready hpub htime := by
    refine TopicStatus.ext ?_ ?_ ?_ ?_ ?_
    · simp [HugePageAnalysis.openStatus]
    · simp [HugePageAnalysis.openStatus, hpub, TopicStatus.new]
    · exact TopicStatus.Timed.time_eq htime (fun _ => rfl)
    · simp [HugePageAnalysis.openStatus]
    · rcases hready with hown | hown
      · simp [HugePageAnalysis.openStatus, hown, TopicStatus.new, hugePageAnalysis]
      · simp [HugePageAnalysis.openStatus, hown, TopicStatus.new, hugePageAnalysis, doubleParam_self]
  open_timed htime := TopicStatus.Timed.setTime htime
  open_publish := isPublish_setTime _ _
  open_open _ := isOpen_setTime _ _
  open_refused h := by cases h
  close_shut _ := ⟨rfl, rfl, rfl, fun _ => .inl rfl⟩

/-- Likewise its threshold. -/
def dynamicSmtRules (D : Type) [Double D] : (dynamicSmtAnalysis D).Rules where
  topicName := str "dynamic_smt"
  valid _ := true
  openStatus := DynamicSmtAnalysis.openStatus
  closeStatus := DynamicSmtAnalysis.closeStatus
  ready params own := own = DynamicSmtAnalysis.fresh ∨
    own = (DynamicSmtAnalysis.openStatus params 0 (.new DynamicSmtAnalysis.fresh)).own
  ready_new _ := .inl rfl
  opens := TableKind.Accepting.opens ⟨fun _ _ _ => rfl⟩
  accepts := TableKind.Accepting.accepts ⟨fun _ _ _ => rfl⟩
  closes _ _ := rfl
  open_ready {params now status} _ hready hpub htime := by
    refine TopicStatus.ext ?_ ?_ ?_ ?_ ?_
    · simp [DynamicSmtAnalysis.openStatus]
    · simp [DynamicSmtAnalysis.openStatus, hpub, TopicStatus.new]
    · exact TopicStatus.Timed.time_eq htime (fun _ => rfl)
    · simp [DynamicSmtAnalysis.openStatus]
    · rcases hready with hown | hown
      · simp [DynamicSmtAnalysis.openStatus, hown, TopicStatus.new, dynamicSmtAnalysis]
      · simp [DynamicSmtAnalysis.openStatus, hown, TopicStatus.new, dynamicSmtAnalysis, doubleParam_self]
  open_timed htime := TopicStatus.Timed.setTime htime
  open_publish := isPublish_setTime _ _
  open_open _ := isOpen_setTime _ _
  open_refused h := by cases h
  close_shut _ := ⟨rfl, rfl, rfl, fun _ => .inl rfl⟩

namespace DockerCoordinationBurstAnalysis

/-- Both thresholds are there and in range. -/
def valid (D : Type) [Double D] (params : Str) : Bool :=
  (percentParam params (str "hostCpuUsageThreshold") : Option D).isSome &&
    (percentParam params (str "dockerCpuUsageThreshold") : Option D).isSome

variable (params : Str) (now : ℤ) (status : TopicStatus (DockerBurstStatus D))

/-- What `ParseConfig` makes of what `Reset` leaves of a topic. -/
def parsed (D : Type) [Double D] (params : Str) : DockerBurstStatus D :=
  (parseConfig params (.new fresh)).1.own

/-- All else that it changes is the analysis time. -/
theorem parseConfig_eq : parseConfig params { status with own := fresh } =
    ({ status.setTime params with own := parsed D params }, valid D params) := by
  unfold parsed parseConfig valid
  rw [setTime_own]
  cases (percentParam params (str "hostCpuUsageThreshold") : Option D) with
  | none => simp [TopicStatus.new]
  | some host =>
    cases (percentParam params (str "dockerCpuUsageThreshold") : Option D) <;> simp [TopicStatus.new]

theorem openStatus_eq : openStatus params now status =
    if valid D params then
      ({ status.setTime params with isOpen := true, beginTime := now, own := parsed D params }, true)
    else ({ status.setTime params with own := parsed D params }, false) := by
  unfold openStatus
  rw [parseConfig_eq]
  cases valid D params <;> rfl

theorem openTopic_eq (topic : Topic) (s : Table (DockerBurstStatus D)) :
    (openTopic topic now s).1.topicStatus = (if topic.topicName = str "docker_coordination_burst" then
      s.topicStatus.insert topic.getType
        (openStatus topic.params now (s.status fresh topic.getType)).1
    else s.topicStatus) ∧
    ((openTopic topic now s).2.1.failed = false ↔
      topic.topicName = str "docker_coordination_burst" ∧ valid D topic.params = true) := by
  unfold openTopic
  rw [openStatus_eq]
  by_cases ht : topic.topicName = str "docker_coordination_burst" <;>
    cases hv : valid D topic.params <;>
      simp [ht, Table.set, notSupport, failure, resultOk, Result.failed, OK, FAILED]

variable {params now status}

theorem openStatus_ready (hv : valid D params = true) (hpub : status.isPublish = false)
    (htime : status.Timed params) :
    (openStatus params now status).1 = (openStatus params now (.new fresh)).1 := by
  rw [openStatus_eq, openStatus_eq, if_pos hv, if_pos hv]
  refine TopicStatus.ext rfl ?_ ?_ rfl rfl
  · simp [hpub, TopicStatus.new]
  · exact TopicStatus.Timed.time_eq htime (fun _ => rfl)

theorem openStatus_timed (htime : status.Timed params) :
    (openStatus params now status).1.Timed params := by
  have htime' := TopicStatus.Timed.setTime htime
  rw [openStatus_eq]
  cases valid D params <;> exact htime'

theorem openStatus_publish : (openStatus params now status).1.isPublish = status.isPublish := by
  rw [openStatus_eq]
  cases valid D params <;> exact isPublish_setTime _ _

theorem openStatus_open (hv : valid D params = true) :
    (openStatus params now status).1.isOpen = true := by
  rw [openStatus_eq, if_pos hv]

theorem openStatus_refused (hv : valid D params = false) :
    (openStatus params now status).1.isOpen = status.isOpen := by
  rw [openStatus_eq, hv]
  exact isOpen_setTime _ _

end DockerCoordinationBurstAnalysis

open DockerCoordinationBurstAnalysis in
/-- `OpenTopic` begins with a `Reset`. -/
def dockerCoordinationBurstRules (D : Type) [Double D] (hostCpuNum : Int32) :
    (dockerCoordinationBurstAnalysis D hostCpuNum).Rules where
  topicName := str "docker_coordination_burst"
  valid := valid D
  openStatus params now status := (openStatus params now status).1
  closeStatus := closeStatus
  ready _ _ := True
  ready_new _ := trivial
  opens topic now s := (openTopic_eq now topic s).1
  accepts topic now s := (openTopic_eq now topic s).2
  closes _ _ := rfl
  open_ready hv _ := openStatus_ready hv
  open_timed := openStatus_timed
  open_publish := openStatus_publish
  open_open := openStatus_open
  open_refused hv := ⟨openStatus_refused hv, trivial⟩
  close_shut _ := ⟨rfl, rfl, rfl, fun _ => trivial⟩

end OeAware

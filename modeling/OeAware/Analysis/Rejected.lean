import OeAware.Analysis.Publishing
import OeAware.Schemes.Responses

/-! @src src/plugin/scenario/analysis | name:OpenTopic, ParseConfig | scheme:responses

    An `OpenTopic` that is rejected should have left no trace. The instances that reject a name have none. Three read
    the parameters and may find them bad:

        numa           time := t · threshold bad ──▶ rejected          the time is that of all topics
        docker burst   entry := fresh · a threshold bad ──▶ rejected   the entry is of this topic only, and stays closed
        micro-arch     open · SUBSCRIBE · config bad ──▶ rejected      the topic is open                              -/

namespace OeAware
open Schemes

/-! ### Calls and answers -/

namespace AnalysisInstance
variable (I : AnalysisInstance)

/-- What comes back from a call: the result of an `OpenTopic`, and what the instance does. -/
abbrev Answer := Option Result × List (Effect AnalysisResultItem)

def respond (c : AnalysisCall I) (s : I.State) : I.State × Answer :=
  match c with
  | .openTopic x env =>
    let r := I.openTopic (I.topic x) env s
    (r.1, some r.2.1, r.2.2)
  | .closeTopic x =>
    let r := I.closeTopic (I.topic x) s
    (r.1, none, r.2)
  | .updateData data => (I.updateData data s, none, [])
  | .disable =>
    let r := I.disable s
    (r.1, none, r.2)
  | .run env =>
    let r := I.run env s
    (r.1, none, r.2)

/-- What an instance keeps for its topics. -/
structure Keeping where
  /-- The topic of the type counts as open. -/
  isOpen : I.State → Str → Bool
  /-- Thresholds, times and status of all topics but one are the same in two states. -/
  Others : Str → I.State → I.State → Prop

variable {I}

/-- The call to open the topic has left no trace. -/
structure Unnoticed (K : I.Keeping) (x : Str × Str) (env : I.Env) (s : I.State) : Prop where
  isOpen : ∀ type, K.isOpen (I.openTopic (I.topic x) env s).1 type = K.isOpen s type
  quiet : ∀ topic, Effect.subscribe topic ∉ (I.openTopic (I.topic x) env s).2.2
  others : K.Others (I.topic x).getType s (I.openTopic (I.topic x) env s).1
  later : ∀ calls, responses I.respond (I.openTopic (I.topic x) env s).1 calls = responses I.respond s calls

/-- Where the state is as before and nothing was done, there is none. -/
theorem unnoticed_of_same {K : I.Keeping} {x : Str × Str} {env : I.Env} {s : I.State}
    (hothers : ∀ type, K.Others type s s) (hstate : (I.openTopic (I.topic x) env s).1 = s)
    (hnone : (I.openTopic (I.topic x) env s).2.2 = []) : Unnoticed K x env s := by
  refine ⟨fun type => by rw [hstate], fun topic => ?_, ?_, fun calls => by rw [hstate]⟩
  · rw [hnone]
    exact List.not_mem_nil
  · rw [hstate]
    exact hothers _

end AnalysisInstance

/-! ### Tables -/

/-- The entries. -/
def TableKind.keeping (K : TableKind) : K.toInstance.Keeping where
  isOpen s type := (s.status K.own type).isOpen
  Others type s s' := ∀ t, t ≠ type → s'.topicStatus.find t = s.topicStatus.find t

/-- All but an entry that is not open is the same. -/
structure Table.Beside {α : Type} (type : Str) (s s' : Table α) : Prop where
  topics : s'.subscribeTopics = s.subscribeTopics
  keys : s'.topicStatus.keys.filter (fun t => t ≠ type) = s.topicStatus.keys.filter (fun t => t ≠ type)
  find : ∀ t, t ≠ type → s'.topicStatus.find t = s.topicStatus.find t
  shut : ∀ status, s.topicStatus.find type = some status → status.isOpen = false
  shut' : ∀ status, s'.topicStatus.find type = some status → status.isOpen = false

namespace Table
variable {α : Type} {type : Str} {s s' : Table α}

theorem Beside.status (h : s.Beside type s') {own : α} {k : Str} (hk : k ≠ type) : s'.status own k = s.status own k := by
  rw [Table.status, Table.status, h.find k hk]

theorem status_shut {own : α} (h : ∀ status, s.topicStatus.find type = some status → status.isOpen = false) :
    (s.status own type).isOpen = false := by
  rw [Table.status]
  cases hfind : s.topicStatus.find type with
  | none => rfl
  | some status => exact h status hfind

/-- The entry itself is set. -/
theorem Beside.set_type (h : s.Beside type s') {st st' : TopicStatus α} (hst : st.isOpen = false) (hst' : st'.isOpen = false) :
    (s.set type st).Beside type (s'.set type st') := by
  refine ⟨h.topics, ?_, fun t ht => ?_, fun status hs => ?_, fun status hs => ?_⟩
  · rw [Table.set, Table.set, UMap.filter_keys_insert, UMap.filter_keys_insert, if_pos rfl, if_pos rfl, h.keys]
  · rw [Table.set, Table.set, UMap.find_insert, UMap.find_insert, if_neg ht, if_neg ht, h.find t ht]
  · rw [Table.set, UMap.find_insert_self] at hs
    exact Option.some.inj hs ▸ hst
  · rw [Table.set, UMap.find_insert_self] at hs
    exact Option.some.inj hs ▸ hst'

/-- Another entry is. -/
theorem Beside.set_other (h : s.Beside type s') {k : Str} (hk : k ≠ type) (st : TopicStatus α) :
    (s.set k st).Beside type (s'.set k st) := by
  refine ⟨h.topics, ?_, fun t ht => ?_, fun status hs => ?_, fun status hs => ?_⟩
  · rw [Table.set, Table.set, UMap.filter_keys_insert, UMap.filter_keys_insert, if_neg hk, if_neg hk, h.keys]
  · rw [Table.set, Table.set, UMap.find_insert, UMap.find_insert, h.find t ht]
  · rw [Table.set, UMap.find_insert, if_neg hk.symm] at hs
    exact h.shut status hs
  · rw [Table.set, UMap.find_insert, if_neg hk.symm] at hs
    exact h.shut' status hs

/-- Each entry is changed, and none is opened. -/
theorem Beside.map (h : s.Beside type s') {f : TopicStatus α → TopicStatus α}
    (hf : ∀ status, status.isOpen = false → (f status).isOpen = false) : (s.map f).Beside type (s'.map f) := by
  refine ⟨h.topics, h.keys, fun t ht => ?_, fun status hs => ?_, fun status hs => ?_⟩
  · rw [Table.map, Table.map, UMap.find_mapVal, UMap.find_mapVal, h.find t ht]
  · rw [Table.map, UMap.find_mapVal] at hs
    obtain ⟨st, hst, rfl⟩ := Option.map_eq_some_iff.mp hs
    exact hf st (h.shut st hst)
  · rw [Table.map, UMap.find_mapVal] at hs
    obtain ⟨st, hst, rfl⟩ := Option.map_eq_some_iff.mp hs
    exact hf st (h.shut' st hst)

/-- An entry that is not open is not reported. -/
theorem reports_filter {analysis : α → AnalysisResultItem} {now : ℤ} (hshut : ∀ status,
    s.topicStatus.find type = some status → status.isOpen = false) :
    (Table.run analysis now s).2 = (s.topicStatus.keys.filter (fun t => t ≠ type)).flatMap
      (fun t => (s.topicStatus.find t).elim [] (report analysis now t)) := by
  refine flatMap_filter_of_nil _ _ _ fun t _ ht => ?_
  have heq : t = type := by simpa using ht
  rw [heq]
  cases hfind : s.topicStatus.find type with
  | none => rfl
  | some status =>
    rw [Option.elim_some, report, TopicStatus.due, hshut status hfind]
    rfl

theorem Beside.run (h : s.Beside type s') (analysis : α → AnalysisResultItem) (now : ℤ) :
    (Table.run analysis now s').2 = (Table.run analysis now s).2 ∧
      (Table.run analysis now s).1.Beside type (Table.run analysis now s').1 := by
  constructor
  · rw [reports_filter h.shut, reports_filter h.shut', h.keys]
    refine List.flatMap_congr fun t ht => ?_
    rw [h.find t (by simpa using (List.mem_filter.mp ht).2)]
  · refine h.map fun status hst => ?_
    split
    · exact hst
    · exact hst

end Table

/-! ### Docker coordination burst -/

namespace DockerCoordinationBurstAnalysis
variable {D : Type} [Double D] {hostCpuNum : Int32} {s s' : Table (DockerBurstStatus D)} {type : Str}

theorem openTopic_other {topic : Topic} {now : ℤ} (hname : topic.topicName ≠ str "docker_coordination_burst") :
    openTopic topic now s = (s, notSupport topic, []) := by
  rw [openTopic, if_pos hname]

theorem openTopic_invalid {topic : Topic} {now : ℤ} (hname : topic.topicName = str "docker_coordination_burst")
    (hv : valid D topic.params = false) : openTopic topic now s =
      (s.set topic.getType (openStatus topic.params now (s.status fresh topic.getType)).1,
        failure (str "topic " ++ topic.getType ++ str " open failed! Invalid config!"), []) := by
  rw [openTopic, if_neg (fun h => h hname), openStatus_eq, hv]
  rfl

theorem openTopic_valid {topic : Topic} {now : ℤ} (hname : topic.topicName = str "docker_coordination_burst")
    (hv : valid D topic.params = true) : openTopic topic now s =
      ({ s.set topic.getType (openStatus topic.params now (s.status fresh topic.getType)).1 with
          subscribeTopics := s.subscribeTopics ++ collectors }, resultOk,
        (s.subscribeTopics ++ collectors).map .subscribe) := by
  rw [openTopic, if_neg (fun h => h hname), openStatus_eq, hv]
  rfl

/-- The type of a topic with bad parameters, under the instance's name. -/
def Bad (D : Type) [Double D] (hostCpuNum : Int32) (type : Str) : Prop :=
  ∃ params, valid D params = false ∧
    type = ((dockerCoordinationBurstAnalysis D hostCpuNum).toInstance.topic (str "docker_coordination_burst", params)).getType

theorem Bad.invalid (h : Bad D hostCpuNum type) {params : Str} (htype : ((dockerCoordinationBurstAnalysis D
    hostCpuNum).toInstance.topic (str "docker_coordination_burst", params)).getType = type) : valid D params = false := by
  obtain ⟨params', hv, rfl⟩ := h
  have hsame : params = params' := getType_params htype
  rw [hsame]
  exact hv

/-- The entry of a topic that cannot be opened is not open. -/
def BadShut (hostCpuNum : Int32) (s : Table (DockerBurstStatus D)) : Prop :=
  ∀ type status, Bad D hostCpuNum type → s.topicStatus.find type = some status → status.isOpen = false

theorem BadShut.set (h : BadShut hostCpuNum s) {k : Str} {st : TopicStatus (DockerBurstStatus D)}
    (hst : Bad D hostCpuNum k → st.isOpen = false) : BadShut hostCpuNum (s.set k st) := by
  intro type status hbad hfind
  rw [Table.set, UMap.find_insert] at hfind
  split at hfind
  · rename_i heq
    exact Option.some.inj hfind ▸ hst (heq ▸ hbad)
  · exact h type status hbad hfind

theorem BadShut.map (h : BadShut hostCpuNum s) {f : TopicStatus (DockerBurstStatus D) → TopicStatus (DockerBurstStatus D)}
    (hf : ∀ status, status.isOpen = false → (f status).isOpen = false) : BadShut hostCpuNum (s.map f) := by
  intro type status hbad hfind
  rw [Table.map, UMap.find_mapVal] at hfind
  obtain ⟨st, hst, rfl⟩ := Option.map_eq_some_iff.mp hfind
  exact hf st (h type st hbad hst)

theorem isOpen_update (data : DockerBurstData) (status : TopicStatus (DockerBurstStatus D)) (h : status.isOpen = false) :
    (if status.isOpen then { status with own := update hostCpuNum data status.own } else status).isOpen = false := by
  rw [if_neg (by rw [h]; exact Bool.false_ne_true)]
  exact h

theorem badShut_respond (c : AnalysisCall (dockerCoordinationBurstAnalysis D hostCpuNum).toInstance)
    (s : Table (DockerBurstStatus D)) (h : BadShut hostCpuNum s) :
    BadShut hostCpuNum ((dockerCoordinationBurstAnalysis D hostCpuNum).toInstance.respond c s).1 := by
  cases c with
  | openTopic x env =>
    show BadShut hostCpuNum (openTopic _ env.1 s).1
    rcases eq_or_ne x.1 (str "docker_coordination_burst") with hname | hname
    · obtain ⟨name, params⟩ := x
      dsimp only at hname
      subst hname
      have htopic : ((dockerCoordinationBurstAnalysis D hostCpuNum).toInstance.topic
          (str "docker_coordination_burst", params)).topicName = str "docker_coordination_burst" := rfl
      cases hv : valid D params with
      | true =>
        rw [openTopic_valid htopic hv]
        exact h.set fun hbad => absurd (hbad.invalid rfl) (by rw [hv]; exact Bool.true_eq_false_eq_False)
      | false =>
        rw [openTopic_invalid htopic hv]
        exact h.set fun hbad => (openStatus_refused hv).trans (Table.status_shut (h _ · hbad))
    · rw [openTopic_other hname]
      exact h
  | closeTopic x => exact h.set fun _ => rfl
  | updateData data => exact h.map (isOpen_update data)
  | disable => exact fun _ _ _ hfind => by cases hfind
  | run env =>
    refine h.map fun status hst => ?_
    split
    · exact hst
    · exact hst

theorem beside_openTopic (hbad : Bad D hostCpuNum type) (h : s.Beside type s') (x : Str × Str) (now : ℤ) :
    (openTopic ((dockerCoordinationBurstAnalysis D hostCpuNum).toInstance.topic x) now s').2 =
      (openTopic ((dockerCoordinationBurstAnalysis D hostCpuNum).toInstance.topic x) now s).2 ∧
    (openTopic ((dockerCoordinationBurstAnalysis D hostCpuNum).toInstance.topic x) now s).1.Beside type
      (openTopic ((dockerCoordinationBurstAnalysis D hostCpuNum).toInstance.topic x) now s').1 := by
  rcases eq_or_ne x.1 (str "docker_coordination_burst") with hname | hname
  · obtain ⟨name, params⟩ := x
    dsimp only at hname
    subst hname
    have htopic : ((dockerCoordinationBurstAnalysis D hostCpuNum).toInstance.topic
        (str "docker_coordination_burst", params)).topicName = str "docker_coordination_burst" := rfl
    rcases eq_or_ne ((dockerCoordinationBurstAnalysis D hostCpuNum).toInstance.topic
      (str "docker_coordination_burst", params)).getType type with htype | htype
    · -- its own topic is rejected again
      have hv := hbad.invalid htype
      rw [openTopic_invalid htopic hv, openTopic_invalid htopic hv, htype]
      exact ⟨rfl, h.set_type ((openStatus_refused hv).trans (Table.status_shut h.shut))
        ((openStatus_refused hv).trans (Table.status_shut h.shut'))⟩
    · cases hv : valid D params with
      | false =>
        rw [openTopic_invalid htopic hv, openTopic_invalid htopic hv, h.status htype]
        exact ⟨rfl, h.set_other htype _⟩
      | true =>
        rw [openTopic_valid htopic hv, openTopic_valid htopic hv, h.status htype, h.topics]
        exact ⟨rfl, { h.set_other htype _ with topics := rfl }⟩
  · rw [openTopic_other hname, openTopic_other hname]
    exact ⟨rfl, h⟩

theorem beside_closeTopic (h : s.Beside type s') (topic : Topic) : (closeTopic topic s').2 = (closeTopic topic s).2 ∧
    (closeTopic topic s).1.Beside type (closeTopic topic s').1 := by
  rw [closeTopic, closeTopic, h.topics]
  refine ⟨rfl, ?_⟩
  rcases eq_or_ne topic.getType type with htype | htype
  · rw [htype]
    exact h.set_type rfl rfl
  · rw [h.status htype]
    exact h.set_other htype _

/-- Whatever is called, an entry that cannot be opened makes no difference. -/
theorem beside_respond (hbad : Bad D hostCpuNum type)
    (c : AnalysisCall (dockerCoordinationBurstAnalysis D hostCpuNum).toInstance)
    (s s' : Table (DockerBurstStatus D)) (h : s.Beside type s') :
    ((dockerCoordinationBurstAnalysis D hostCpuNum).toInstance.respond c s').2 =
      ((dockerCoordinationBurstAnalysis D hostCpuNum).toInstance.respond c s).2 ∧
    ((dockerCoordinationBurstAnalysis D hostCpuNum).toInstance.respond c s).1.Beside type
      ((dockerCoordinationBurstAnalysis D hostCpuNum).toInstance.respond c s').1 := by
  cases c with
  | openTopic x env =>
    obtain ⟨hsame, hnext⟩ := beside_openTopic hbad h x env.1
    exact ⟨congrArg (fun r => (some r.1, r.2)) hsame, hnext⟩
  | closeTopic x =>
    obtain ⟨hsame, hnext⟩ := beside_closeTopic h
      ((dockerCoordinationBurstAnalysis D hostCpuNum).toInstance.topic x)
    exact ⟨congrArg (fun es => (none, es)) hsame, hnext⟩
  | updateData data => exact ⟨rfl, h.map (isOpen_update data)⟩
  | disable => exact ⟨rfl, h.topics, rfl, fun _ _ => rfl, nofun, nofun⟩
  | run env =>
    obtain ⟨hsame, hnext⟩ := h.run (analysis env.2) env.1
    exact ⟨congrArg (fun es => (none, es)) hsame, hnext⟩

/-- A rejected topic leaves an entry that cannot be opened. -/
theorem unnoticed (hs : BadShut hostCpuNum s) {x : Str × Str} {env : ℤ × Bool}
    (h : (openTopic ((dockerCoordinationBurstAnalysis D hostCpuNum).toInstance.topic x) env.1 s).2.1.failed = true) :
    AnalysisInstance.Unnoticed (dockerCoordinationBurstAnalysis D hostCpuNum).keeping x env s := by
  obtain ⟨name, params⟩ := x
  rcases eq_or_ne name (str "docker_coordination_burst") with hname | hname
  · subst hname
    have htopic : ((dockerCoordinationBurstAnalysis D hostCpuNum).toInstance.topic
        (str "docker_coordination_burst", params)).topicName = str "docker_coordination_burst" := rfl
    have hv : valid D params = false := by
      cases hv : valid D params with
      | false => rfl
      | true =>
        rw [openTopic_valid htopic hv] at h
        cases h
    let topic := (dockerCoordinationBurstAnalysis D hostCpuNum).toInstance.topic (str "docker_coordination_burst", params)
    have hbad : Bad D hostCpuNum topic.getType := ⟨params, hv, rfl⟩
    have heq : openTopic topic env.1 s = _ := openTopic_invalid htopic hv
    have hold : (s.status fresh topic.getType).isOpen = false := Table.status_shut (hs _ · hbad)
    have hnew : (openStatus params env.1 (s.status fresh topic.getType)).1.isOpen = false :=
      (openStatus_refused hv).trans hold
    have hbeside : s.Beside topic.getType (s.set topic.getType (openStatus params env.1 (s.status fresh topic.getType)).1) := by
      refine ⟨rfl, ?_, fun t ht => ?_, (hs _ · hbad), fun status hfind => ?_⟩
      · rw [Table.set, UMap.filter_keys_insert, if_pos rfl]
      · rw [Table.set, UMap.find_insert, if_neg ht]
      · rw [Table.set, UMap.find_insert_self] at hfind
        exact Option.some.inj hfind ▸ hnew
    have hstate : (openTopic topic env.1 s).1 = s.set topic.getType (openStatus params env.1 (s.status fresh topic.getType)).1 := by
      rw [heq]
      rfl
    refine ⟨fun type => ?_, fun t => ?_, ?_, fun calls => ?_⟩
    · show ((openTopic topic env.1 s).1.status fresh type).isOpen = (s.status fresh type).isOpen
      rw [hstate, Table.status_set]
      rcases eq_or_ne type topic.getType with rfl | hne
      · rw [Function.update_self, hnew, hold]
      · rw [Function.update_of_ne hne]
    · show Effect.subscribe t ∉ (openTopic topic env.1 s).2.2
      rw [heq]
      exact List.not_mem_nil
    · show ∀ t, t ≠ topic.getType → (openTopic topic env.1 s).1.topicStatus.find t = s.topicStatus.find t
      rw [hstate]
      exact hbeside.find
    · show responses _ (openTopic topic env.1 s).1 calls = _
      rw [hstate]
      exact responses_eq (fun c s s' => beside_respond hbad c s s') calls hbeside
  · have heq : openTopic ((dockerCoordinationBurstAnalysis D hostCpuNum).toInstance.topic (name, params)) env.1 s =
        (s, notSupport ((dockerCoordinationBurstAnalysis D hostCpuNum).toInstance.topic (name, params)), []) :=
      openTopic_other hname
    exact AnalysisInstance.unnoticed_of_same (fun _ _ _ => rfl) (congrArg (fun r => r.1) heq)
      (congrArg (fun r => r.2.2) heq)

end DockerCoordinationBurstAnalysis

/-! ### Micro-architecture -/

/-- The topic is open, and subscribed to, before its parameters are looked at. -/
theorem MicroarchTidNoCmpAnalysis.unnoticed_iff {yaml : Yaml} {x : Str × Str} {env : ℤ × Str} {s : Table MicroarchStatus} :
    AnalysisInstance.Unnoticed (microarchTidNoCmpAnalysis yaml).keeping x env s ↔ x.1 ≠ str "microarch_tidnocmp" := by
  let topic := (microarchTidNoCmpAnalysis yaml).toInstance.topic x
  constructor
  · intro hunnoticed hname
    have hnot : Effect.subscribe ⟨str "thread_collector", str "thread_collector", []⟩ ∉
        (openTopic yaml topic env.1 s).2.2 := hunnoticed.quiet _
    rw [openTopic.eq_def, if_neg (fun hne => hne hname)] at hnot
    exact hnot (List.mem_map_of_mem (List.mem_append_right _ (List.mem_singleton.mpr rfl)))
  · intro hname
    have heq : openTopic yaml topic env.1 s = (s, notSupport topic, []) := if_pos hname
    exact AnalysisInstance.unnoticed_of_same (fun _ _ _ => rfl) (congrArg (fun r => r.1) heq)
      (congrArg (fun r => r.2.2) heq)

/-! ### The instances -/

/-- The analysis instances; `D` and `F` are `double` and `float`. -/
inductive OpeningKind where
  | numa
  | xcall
  | smcD
  | netHirq
  | hugePage (riscv : Bool)
  | dynamicSmt
  | dockerBurst (hostCpuNum : Int32)
  | microarch (yaml : MicroarchTidNoCmpAnalysis.Yaml)
  | hwprobe (header : HwprobeHeader)

namespace OpeningKind
variable (D F : Type) [Double D] [Double F] (fixed : F → Str)

def toInstance : OpeningKind → AnalysisInstance
  | numa => numaAnalysis D
  | xcall => xcallAnalysis D
  | smcD => smcDAnalysis D
  | netHirq => netHirqAnalysis F fixed
  | hugePage riscv => (hugePageAnalysis (AnalysisKind.tlb D riscv)).toInstance
  | dynamicSmt => (dynamicSmtAnalysis D).toInstance
  | dockerBurst hostCpuNum => (dockerCoordinationBurstAnalysis D hostCpuNum).toInstance
  | microarch yaml => (microarchTidNoCmpAnalysis yaml).toInstance
  | hwprobe header => hwprobeAnalysis header

/-- Where the members are shared by all topics, the others have these, too. -/
def keeping : (i : OpeningKind) → (i.toInstance D F fixed).Keeping
  | numa => {
      isOpen := fun s type => (NumaAnalysis.status s type).isOpen
      Others := fun type s s' => (∀ t, t ≠ type → s'.topicStatus.find t = s.topicStatus.find t) ∧
        s'.time = s.time ∧ s'.beginTime = s.beginTime ∧ s'.threadThreshold = s.threadThreshold }
  | xcall => {
      isOpen := fun s type => ((s.topicStatus.find type).getD XcallAnalysis.fresh).isOpen
      Others := fun type s s' => (∀ t, t ≠ type → s'.topicStatus.find t = s.topicStatus.find t) ∧
        s'.threshold = s.threshold }
  | smcD => {
      isOpen := fun s type => s.saveTopic.getType = type
      Others := fun _ s s' => s' = s }
  | netHirq => {
      isOpen := fun s _ => s.topicCtl.isOpen
      Others := fun _ s s' => s' = s }
  | hugePage riscv => (hugePageAnalysis (AnalysisKind.tlb D riscv)).keeping
  | dynamicSmt => (dynamicSmtAnalysis D).keeping
  | dockerBurst hostCpuNum => (dockerCoordinationBurstAnalysis D hostCpuNum).keeping
  | microarch yaml => (microarchTidNoCmpAnalysis yaml).keeping
  | hwprobe _ => {
      isOpen := fun s type => (HwprobeAnalysis.status s type).isOpen
      Others := fun type s s' => ∀ t, t ≠ type → s'.topicStatus.find t = s.topicStatus.find t }

/-- For `numa` with a bad threshold, the time that comes with it is the one that there is; for `micro-arch`, it is the
    name that is rejected. -/
def Clean : (i : OpeningKind) → Str × Str → (i.toInstance D F fixed).State → Prop
  | numa => fun x s => x.1 = str "numa_analysis" → NumaAnalysis.timeParam x.2 s.time = s.time
  | microarch _ => fun x _ => x.1 ≠ str "microarch_tidnocmp"
  | _ => fun _ _ => True

variable {D F fixed}

/-- An instance that only rejects names. -/
theorem same_of_failed {σ : Type} {c : Prop} [Decidable c] {s s' : σ} {bad : Result} {es : List (Effect AnalysisResultItem)}
    {r : σ × Result × List (Effect AnalysisResultItem)} (hr : r = if c then (s, bad, []) else (s', resultOk, es))
    (h : r.2.1.failed = true) : r.1 = s ∧ r.2.2 = [] := by
  subst hr
  split
  · exact ⟨rfl, rfl⟩
  · rename_i hno
    rw [if_neg hno] at h
    cases h

omit [Double F] in
theorem netHirq_same {topic : Topic} {env : NetHirqAnalysis.Env} {s : NetHirqAnalysis.State F}
    (h : (NetHirqAnalysis.openTopic topic env s).2.1.failed = true) :
    (NetHirqAnalysis.openTopic topic env s).1 = s ∧ (NetHirqAnalysis.openTopic topic env s).2.2 = [] := by
  rw [NetHirqAnalysis.openTopic] at h ⊢
  split
  · exact ⟨rfl, rfl⟩
  · rename_i hname
    rw [if_neg hname] at h
    exact same_of_failed rfl h

omit [Double D] in
/-- All that a rejected call leaves of a topic of `numa` is its time. -/
theorem numa_rejected {topic : Topic} {env : NumaAnalysis.Env} {s : NumaAnalysis.State D}
    (h : (NumaAnalysis.openTopic topic env s).2.1.failed = true) :
    (NumaAnalysis.openTopic topic env s).1 = (if topic.topicName = str "numa_analysis" then
      { s with time := NumaAnalysis.timeParam topic.params s.time } else s) ∧
    (NumaAnalysis.openTopic topic env s).2.2 = [] := by
  rw [NumaAnalysis.openTopic] at h ⊢
  rcases eq_or_ne topic.topicName (str "numa_analysis") with hname | hname
  · rw [if_neg (fun hne => hne hname)] at h ⊢
    rw [if_pos hname]
    dsimp only at h ⊢
    split
    · exact ⟨rfl, rfl⟩
    · rename_i hsome
      rw [hsome] at h
      cases h
  · rw [if_pos hname, if_neg hname]
    exact ⟨rfl, rfl⟩

theorem numa_iff {x : Str × Str} {env : NumaAnalysis.Env} {s : NumaAnalysis.State D}
    (h : ((numa.toInstance D F fixed).openTopic ((numa.toInstance D F fixed).topic x) env s).2.1.failed = true) :
    AnalysisInstance.Unnoticed (numa.keeping D F fixed) x env s ↔
      (x.1 = str "numa_analysis" → NumaAnalysis.timeParam x.2 s.time = s.time) := by
  obtain ⟨hstate, hnone⟩ := @numa_rejected D ((numa.toInstance D F fixed).topic x) env s h
  constructor
  · intro hunnoticed hname
    have hname' : ((numa.toInstance D F fixed).topic x).topicName = str "numa_analysis" := hname
    have htime : ((numa.toInstance D F fixed).openTopic ((numa.toInstance D F fixed).topic x) env s).1.time = s.time :=
      hunnoticed.others.2.1
    rw [show ((numa.toInstance D F fixed).openTopic ((numa.toInstance D F fixed).topic x) env s).1 = _ from hstate,
      if_pos hname'] at htime
    exact htime
  · intro hclean
    refine AnalysisInstance.unnoticed_of_same (fun _ => ⟨fun _ _ => rfl, rfl, rfl, rfl⟩) (hstate.trans ?_) hnone
    split
    · rename_i hname
      rw [show NumaAnalysis.timeParam ((numa.toInstance D F fixed).topic x).params s.time = s.time from hclean hname]
    · rfl

/-- NO TRACE OF A REJECTED CALL: wherever calls lead, an `OpenTopic` that is rejected opens no topic, subscribes to
    nothing, leaves the other topics alone and is not observed later, if and only if it is a clean one. -/
theorem rejected_iff (i : OpeningKind) (calls : List (AnalysisCall (i.toInstance D F fixed))) (x : Str × Str)
    (env : (i.toInstance D F fixed).Env)
    (h : ((i.toInstance D F fixed).openTopic ((i.toInstance D F fixed).topic x) env
      (reached (i.toInstance D F fixed).respond (i.toInstance D F fixed).init calls)).2.1.failed = true) :
    AnalysisInstance.Unnoticed (i.keeping D F fixed) x env
        (reached (i.toInstance D F fixed).respond (i.toInstance D F fixed).init calls) ↔
      i.Clean D F fixed x (reached (i.toInstance D F fixed).respond (i.toInstance D F fixed).init calls) := by
  cases i with
  | numa => exact numa_iff h
  | microarch yaml => exact MicroarchTidNoCmpAnalysis.unnoticed_iff
  | dockerBurst hostCpuNum =>
    have hs := invariant_reached DockerCoordinationBurstAnalysis.badShut_respond calls
      (s := ⟨.empty, (dockerCoordinationBurstAnalysis D hostCpuNum).subscribeTopics⟩) fun _ _ _ hfind => by cases hfind
    exact iff_of_true (DockerCoordinationBurstAnalysis.unnoticed hs h) trivial
  | xcall =>
    obtain ⟨hstate, hnone⟩ := same_of_failed rfl h
    exact iff_of_true (AnalysisInstance.unnoticed_of_same (fun _ => ⟨fun _ _ => rfl, rfl⟩) hstate hnone) trivial
  | smcD =>
    obtain ⟨hstate, hnone⟩ := same_of_failed rfl h
    exact iff_of_true (AnalysisInstance.unnoticed_of_same (fun _ => rfl) hstate hnone) trivial
  | netHirq =>
    obtain ⟨hstate, hnone⟩ := netHirq_same h
    exact iff_of_true (AnalysisInstance.unnoticed_of_same (fun _ => rfl) hstate hnone) trivial
  | hugePage riscv =>
    obtain ⟨hstate, hnone⟩ := same_of_failed rfl h
    exact iff_of_true (AnalysisInstance.unnoticed_of_same (fun _ _ _ => rfl) hstate hnone) trivial
  | dynamicSmt =>
    obtain ⟨hstate, hnone⟩ := same_of_failed rfl h
    exact iff_of_true (AnalysisInstance.unnoticed_of_same (fun _ _ _ => rfl) hstate hnone) trivial
  | hwprobe header =>
    obtain ⟨hstate, hnone⟩ := same_of_failed rfl h
    exact iff_of_true (AnalysisInstance.unnoticed_of_same (fun _ _ _ => rfl) hstate hnone) trivial

/-! ### Samples -/

/-- A topic with both thresholds, and one with none. -/
def sampleGood : Str × Str :=
  (str "docker_coordination_burst", str "t:1,hostCpuUsageThreshold:45,dockerCpuUsageThreshold:95")
def sampleBad : Str × Str := (str "docker_coordination_burst", str "t:2,hostCpuUsageThreshold:45")

abbrev sampleBurst : AnalysisInstance := (dockerBurst 4).toInstance ℚ ℚ Double.toStr

/-- Beside an open topic one is rejected. -/
theorem rejected_iff_dockerBurst : AnalysisInstance.Unnoticed ((dockerBurst 4).keeping ℚ ℚ Double.toStr) sampleBad (0, true)
    (reached sampleBurst.respond sampleBurst.init [.openTopic sampleGood (0, true)]) :=
  (rejected_iff (D := ℚ) (F := ℚ) (dockerBurst 4) [.openTopic sampleGood (0, true)] sampleBad (0, true)
    (by decide +kernel)).mpr trivial

/-- The time of a rejected topic of `numa` is that of all of them; and a topic of `micro-arch` without a configuration is
    open though it is rejected. -/
theorem not_rejected :
    (∃ calls x env, ((numaAnalysis ℚ).openTopic ((numaAnalysis ℚ).topic x) env
        (reached (numaAnalysis ℚ).respond (numaAnalysis ℚ).init calls)).2.1.failed = true ∧
      ¬ AnalysisInstance.Unnoticed (numa.keeping ℚ ℚ Double.toStr) x env
        (reached (numaAnalysis ℚ).respond (numaAnalysis ℚ).init calls)) ∧
    ∃ calls x env, ((microarchTidNoCmpAnalysis (fun _ => none)).toInstance.openTopic
        ((microarchTidNoCmpAnalysis (fun _ => none)).toInstance.topic x) env
        (reached (microarchTidNoCmpAnalysis (fun _ => none)).toInstance.respond
          (microarchTidNoCmpAnalysis (fun _ => none)).toInstance.init calls)).2.1.failed = true ∧
      ¬ AnalysisInstance.Unnoticed ((microarch (fun _ => none)).keeping ℚ ℚ Double.toStr) x env
        (reached (microarchTidNoCmpAnalysis (fun _ => none)).toInstance.respond
          (microarchTidNoCmpAnalysis (fun _ => none)).toInstance.init calls) := by
  constructor
  · refine ⟨[], (str "numa_analysis", str "t:1,threshold:0"), ⟨0, []⟩, by decide +kernel, fun h => ?_⟩
    have htime := h.others.2.1
    revert htime
    decide +kernel
  · refine ⟨[], (str "microarch_tidnocmp", str "t:5"), (0, []), by decide +kernel, fun h => ?_⟩
    have hopen := h.isOpen (str "microarch_tidnocmp_analysis::microarch_tidnocmp::t:5")
    revert hopen
    decide +kernel

end OpeningKind

end OeAware

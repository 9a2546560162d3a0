import OeAware.Analysis.Hwprobe
import OeAware.Analysis.Isolation
import OeAware.Collect.DockerAdapt
import OeAware.Collect.EnvInfo

/-! @src src/plugin/scenario/analysis, src/plugin/collect/system/env_info.cpp,
    src/plugin/collect/docker/docker_adapt.cpp, include/oeaware/interface.h | name:Publish, PublishData |
    scheme:pointers

    `Publish(dataList, false)` queues pointers to what the publisher goes on using. An analysis instance
    has one `analysisResultItem` for all of its topics: whatever it writes there, it writes for every
    message that the scheduler has not handled yet.

        Run ──▶ Analysis A · Publish A ──▶ Analysis B · Publish B ──▶ handled: B, B -/

namespace OeAware
open Schemes

/-! ### The analysis instances -/

/-- What an effect does with the instance's one `analysisResultItem`. -/
def Effect.deed {ρ : Type} : Effect ρ → Option (Deed Unit ρ Topic)
  | .write item => some (.write () (some item))
  | .free => some (.write () none)
  | .publish topic => some (.post topic [()])
  | _ => none

inductive AnalysisCall (I : AnalysisInstance) where
  | openTopic (x : Str × Str) (env : I.Env)
  | closeTopic (x : Str × Str)
  | updateData (data : I.Data)
  | disable
  | run (env : I.Env)

namespace AnalysisInstance
variable (I : AnalysisInstance)

/-- What a call does. -/
def call : AnalysisCall I → I.State → I.State × List (Effect AnalysisResultItem)
  | .openTopic x env, s => let r := I.openTopic (I.topic x) env s; (r.1, r.2.2)
  | .closeTopic x, s => I.closeTopic (I.topic x) s
  | .updateData data, s => (I.updateData data s, [])
  | .disable, s => I.disable s
  | .run env, s => I.run env s

/-- The instance as a sender with one cell. -/
@[reducible] def sender : Sender where
  State := I.State
  Call := AnalysisCall I
  Cell := Unit
  Content := AnalysisResultItem
  Topic := Topic
  init := I.init
  content _ := none
  call c s := ((I.call c s).1, (I.call c s).2.filterMap Effect.deed)

end AnalysisInstance

/-- So many reports, each posted as soon as it is written. -/
inductive Reports : ℕ → List (Effect AnalysisResultItem) → Prop
  | nil : Reports 0 []
  | cons {n : ℕ} {es : List (Effect AnalysisResultItem)} (item : AnalysisResultItem) (topic : Topic) :
      Reports n es → Reports (n + 1) (.write item :: .publish topic :: es)

/-- An instance that writes a report for each topic that is due, and leaves its `analysisResultItem` alone
    till `Disable` else. -/
structure Reporting (I : AnalysisInstance) where
  due : I.Env → I.State → List Str
  openTopic (x : Str × Str) (env : I.Env) (s : I.State) :
    (I.openTopic (I.topic x) env s).2.2.filterMap Effect.deed = []
  closeTopic (x : Str × Str) (s : I.State) :
    (I.closeTopic (I.topic x) s).2.filterMap Effect.deed = []
  disable (s : I.State) : (I.disable s).2.filterMap Effect.deed = [.write () none]
  run (env : I.Env) (s : I.State) : Reports (due env s).length (I.run env s).2

namespace Reporting
variable {I : AnalysisInstance} (R : Reporting I)

/-- One topic at most is due in a `Run`, and none while a message is waiting; none is waiting at a
    `Disable`. -/
def Allowed (x : I.sender.Sending) : AnalysisCall I → Prop
  | .run env => (R.due env x.inst).length ≤ 1 ∧ (R.due env x.inst ≠ [] → x.mail.queue = [])
  | .disable => x.mail.queue = []
  | _ => True

theorem unread_of_empty {κ ρ τ : Type} {mail : Mail κ ρ τ} (h : mail.queue = []) (c : κ) :
    mail.Unread c := by
  intro m hm
  rw [h] at hm
  cases hm

theorem careful : Sender.Careful R.Allowed := by
  intro x c hc
  cases c with
  | openTopic t env =>
    rw [show (I.sender.call (.openTopic t env) x.inst).2 = [] from R.openTopic t env x.inst]
    trivial
  | closeTopic t =>
    rw [show (I.sender.call (.closeTopic t) x.inst).2 = [] from R.closeTopic t x.inst]
    trivial
  | updateData data => trivial
  | disable =>
    rw [show (I.sender.call .disable x.inst).2 = [.write () none] from R.disable x.inst]
    exact ⟨unread_of_empty hc (), trivial⟩
  | run env =>
    obtain ⟨hone, hnone⟩ := hc
    have hrun := R.run env x.inst
    change x.mail.GentleAll ((I.run env x.inst).2.filterMap Effect.deed)
    generalize (I.run env x.inst).2 = es at hrun
    generalize hn : (R.due env x.inst).length = n at hone hrun
    cases hrun with
    | nil => trivial
    | cons item topic h =>
      have hq := hnone (List.ne_nil_of_length_eq_add_one hn)
      cases h with
      | nil => exact ⟨unread_of_empty hq (), trivial, trivial⟩
      | cons item topic h => omega

end Reporting

theorem Reports.append {n n' : ℕ} {es es' : List (Effect AnalysisResultItem)} (h : Reports n es)
    (h' : Reports n' es') : Reports (n + n') (es ++ es') := by
  induction h with
  | nil => simpa using h'
  | cons item topic _ ih =>
    rw [Nat.add_right_comm]
    exact .cons item topic ih

/-- What is said of each topic by itself. -/
theorem reports_flatMap {p : Str → Bool} {f : Str → List (Effect AnalysisResultItem)}
    (h : ∀ t, Reports (if p t then 1 else 0) (f t)) : ∀ types : List Str,
    Reports (types.filter p).length (types.flatMap f)
  | [] => .nil
  | t :: types => by
    have ih := (h t).append (reports_flatMap h types)
    rw [List.flatMap_cons, List.filter_cons]
    split
    · rename_i hp
      rwa [if_pos hp, Nat.add_comm] at ih
    · rename_i hp
      rwa [if_neg hp, Nat.zero_add] at ih

/-- What is said of one topic after another, where saying it leaves the others as due as they were. -/
theorem reports_loop {σ : Type} {due : σ → Str → Bool}
    {f : Str → σ → σ × List (Effect AnalysisResultItem)}
    {g : List Str → σ → σ × List (Effect AnalysisResultItem)}
    (hnil : ∀ s, (g [] s).2 = [])
    (hcons : ∀ t types s, (g (t :: types) s).2 = (f t s).2 ++ (g types (f t s).1).2)
    (hone : ∀ t s, Reports (if due s t then 1 else 0) (f t s).2)
    (hkeep : ∀ t t' s, t' ≠ t → due (f t s).1 t' = due s t') : ∀ (types : List Str) (s : σ),
    types.Nodup → Reports (types.filter (due s)).length (g types s).2
  | [], s, _ => by
    rw [hnil s]
    exact .nil
  | t :: types, s, hnd => by
    rw [List.nodup_cons] at hnd
    have ih := (hone t s).append
      (reports_loop hnil hcons hone hkeep types (f t s).1 hnd.2)
    rw [List.filter_congr (fun t' ht' => hkeep t t' s (ne_of_mem_of_not_mem ht' hnd.1)),
      ← hcons] at ih
    rw [List.filter_cons]
    split
    · rename_i hdue
      rwa [if_pos hdue, Nat.add_comm] at ih
    · rename_i hdue
      rwa [if_neg hdue, Nat.zero_add] at ih

theorem deeds_subscribe : ∀ topics : List Topic,
    (topics.map Effect.subscribe : List (Effect AnalysisResultItem)).filterMap Effect.deed = []
  | [] => rfl
  | _ :: topics => deeds_subscribe topics

theorem deeds_unsubscribe : ∀ topics : List Topic,
    (topics.map Effect.unsubscribe : List (Effect AnalysisResultItem)).filterMap Effect.deed = []
  | [] => rfl
  | _ :: topics => deeds_unsubscribe topics

/-- The topics of a table that are due. -/
def Table.due {α : Type} (now : ℤ) (s : Table α) : List Str :=
  s.topicStatus.keys.filter (fun type => (s.topicStatus.find type).any (·.due now))

theorem Table.reports {α : Type} (analysis : α → AnalysisResultItem) (now : ℤ) (s : Table α) :
    Reports (s.due now).length (s.run analysis now).2 := by
  refine reports_flatMap (fun type => ?_) s.topicStatus.keys
  cases s.topicStatus.find type with
  | none => exact .nil
  | some status =>
    simp only [Option.any_some, Option.elim_some, Table.report]
    split
    · exact .cons _ _ .nil
    · exact .nil

/-- An instance with a table, whose `OpenTopic` and `CloseTopic` do nothing but subscribe and unsubscribe. -/
def TableKind.reporting (K : TableKind)
    (hopen : ∀ topic now s, (K.openTopic topic now s).2.2.filterMap Effect.deed = [])
    (hclose : ∀ topic s, (K.closeTopic topic s).2.filterMap Effect.deed = []) :
    Reporting K.toInstance where
  due env s := s.due env.1
  openTopic _ env s := hopen _ env.1 s
  closeTopic _ s := hclose _ s
  disable _ := rfl
  run env s := s.reports (K.analysis env.2) env.1

section
variable {D : Type} [Double D]

def hugePageReporting (K : TlbKind D) : Reporting (hugePageAnalysis K).toInstance :=
  (hugePageAnalysis K).reporting
    (fun topic now s => by
      simp only [HugePageAnalysis.openTopic]
      split
      · rfl
      · exact deeds_subscribe _)
    (fun _ _ => deeds_unsubscribe _)

def dynamicSmtReporting (D : Type) [Double D] : Reporting (dynamicSmtAnalysis D).toInstance :=
  (dynamicSmtAnalysis D).reporting
    (fun topic now s => by
      simp only [DynamicSmtAnalysis.openTopic]
      split
      · rfl
      · exact deeds_subscribe _)
    (fun _ _ => deeds_unsubscribe _)

def dockerBurstReporting (D : Type) [Double D] (hostCpuNum : Int32) :
    Reporting (dockerCoordinationBurstAnalysis D hostCpuNum).toInstance :=
  (dockerCoordinationBurstAnalysis D hostCpuNum).reporting
    (fun topic now s => by
      simp only [DockerCoordinationBurstAnalysis.openTopic]
      split
      · rfl
      · split
        · exact deeds_subscribe _
        · rfl)
    (fun _ _ => deeds_unsubscribe _)

def microarchReporting (yaml : MicroarchTidNoCmpAnalysis.Yaml) :
    Reporting (microarchTidNoCmpAnalysis yaml).toInstance :=
  (microarchTidNoCmpAnalysis yaml).reporting
    (fun topic now s => by
      simp only [MicroarchTidNoCmpAnalysis.openTopic]
      split
      · rfl
      · exact deeds_subscribe _)
    (fun _ _ => deeds_unsubscribe _)

/-- The topics of `xcall` that are due. -/
def XcallAnalysis.dueTopics (now : ℤ) (s : XcallAnalysis.State D) : List Str :=
  s.topicStatus.keys.filter (fun type => (s.topicStatus.find type).any (due now))

def xcallReporting (D : Type) [Double D] : Reporting (xcallAnalysis D) where
  due now s := XcallAnalysis.dueTopics now s
  openTopic x env s := by
    simp only [XcallAnalysis.openTopic]
    split <;> rfl
  closeTopic x s := rfl
  disable s := congrArg (List.cons _) (deeds_unsubscribe _)
  run now s := by
    refine reports_flatMap (fun type => ?_) s.topicStatus.keys
    cases s.topicStatus.find type with
    | none => exact .nil
    | some status =>
      simp only [Option.any_some, Option.elim_some, XcallAnalysis.report]
      split
      · exact .cons _ _ .nil
      · exact .nil

def netHirqReporting (F : Type) [Double F] (fixed : F → Str) : Reporting (netHirqAnalysis F fixed) where
  due env s := if NetHirqAnalysis.due env.now s then [NetHirqAnalysis.OE_NET_HIRQ_ANALYSIS] else []
  openTopic x env s := by
    simp only [NetHirqAnalysis.openTopic]
    split
    · rfl
    · split <;> rfl
  closeTopic x s := by
    simp only [NetHirqAnalysis.closeTopic]
    split <;> rfl
  disable s := congrArg (List.cons _) (deeds_unsubscribe _)
  run env s := by
    simp only [NetHirqAnalysis.run]
    split
    · exact .cons _ _ .nil
    · exact .nil

/-- The topics of `numa` that are due. -/
def NumaAnalysis.dueTopics (now : ℤ) (s : NumaAnalysis.State D) (types : List Str) : List Str :=
  types.filter (fun type => due now s (status s type))

/-- What is due stays so while the others are reported. -/
theorem NumaAnalysis.due_runTopic (now : ℤ) {type t : Str} (ht : t ≠ type) (s : NumaAnalysis.State D) :
    due now (runTopic now type s).1 (status (runTopic now type s).1 t) = due now s (status s t) := by
  rw [status_runTopic now type s ht]
  unfold runTopic
  split <;> rfl

theorem NumaAnalysis.reports_runTopic (now : ℤ) (type : Str) (s : NumaAnalysis.State D) :
    Reports (if due now s (status s type) then 1 else 0) (runTopic now type s).2 := by
  unfold runTopic
  split
  · exact .cons _ _ .nil
  · exact .nil

def numaReporting (D : Type) [Double D] : Reporting (numaAnalysis D) where
  due env s := NumaAnalysis.dueTopics env.now s s.topicStatus.keys
  openTopic x env s := by
    simp only [NumaAnalysis.openTopic]
    split
    · rfl
    · split
      · rfl
      · exact deeds_subscribe _
  closeTopic x s := deeds_unsubscribe _
  disable s := rfl
  run env s := reports_loop (g := NumaAnalysis.runTopics env.now) (fun _ => rfl) (fun _ _ _ => rfl)
    (NumaAnalysis.reports_runTopic env.now) (fun _ _ s ht => NumaAnalysis.due_runTopic env.now ht s)
    _ s s.topicStatus.nodup

end

namespace HwprobeAnalysis

/-- The topics of `hwprobe` that are due. -/
def dueTopics (now : ℤ) (s : State) (types : List Str) : List Str :=
  types.filter (fun type => (status s type).due now)

theorem status_runTopic (h : HwprobeHeader) (env : Env) {type t : Str} (ht : t ≠ type) (s : State) :
    status (runTopic h env type s).1 t = status s t := by
  unfold runTopic
  split
  · rw [status, UMap.find_insert, if_neg ht, status]
  · rfl

theorem reports_runTopic (h : HwprobeHeader) (env : Env) (type : Str) (s : State) :
    Reports (if (status s type).due env.now then 1 else 0) (runTopic h env type s).2 := by
  unfold runTopic
  split
  · exact .cons _ _ .nil
  · exact .nil

end HwprobeAnalysis

def hwprobeReporting (h : HwprobeHeader) : Reporting (hwprobeAnalysis h) where
  due env s := HwprobeAnalysis.dueTopics env.now s s.topicStatus.keys
  openTopic x env s := by
    simp only [HwprobeAnalysis.openTopic]
    split <;> rfl
  closeTopic x s := rfl
  disable s := rfl
  run env s := reports_loop (g := HwprobeAnalysis.runTopics h env) (fun _ => rfl) (fun _ _ _ => rfl)
    (HwprobeAnalysis.reports_runTopic h env)
    (fun _ _ s ht => by rw [HwprobeAnalysis.status_runTopic h env ht s]) _ s s.topicStatus.nodup

/-! ### Publishers -/

/-- Whoever calls `Publish` with `isFree = false`; `D` and `F` are `double` and `float`. -/
inductive PublisherKind where
  | hugePage (riscv : Bool)
  | dynamicSmt
  | dockerBurst (hostCpuNum : Int32)
  | microarch (yaml : MicroarchTidNoCmpAnalysis.Yaml)
  | hwprobe (header : HwprobeHeader)
  | numa
  | xcall
  | netHirq
  | envInfo
  | docker

namespace PublisherKind
variable (D F : Type) [Double D] [Double F] (fixed : F → Str)

def toSender : PublisherKind → Sender
  | hugePage riscv => (hugePageAnalysis (AnalysisKind.tlb D riscv)).toInstance.sender
  | dynamicSmt => (dynamicSmtAnalysis D).toInstance.sender
  | dockerBurst hostCpuNum => (dockerCoordinationBurstAnalysis D hostCpuNum).toInstance.sender
  | microarch yaml => (microarchTidNoCmpAnalysis yaml).toInstance.sender
  | hwprobe header => (hwprobeAnalysis header).sender
  | numa => (numaAnalysis D).sender
  | xcall => (xcallAnalysis D).sender
  | netHirq => (netHirqAnalysis F fixed).sender
  | envInfo => OeAware.envInfo
  | docker => dockerAdapt

/-- The calls that write nothing that a message is waiting for. -/
def Allowed : (i : PublisherKind) → (i.toSender D F fixed).Sending → (i.toSender D F fixed).Call → Prop
  | hugePage riscv => (hugePageReporting (AnalysisKind.tlb D riscv)).Allowed
  | dynamicSmt => (dynamicSmtReporting D).Allowed
  | dockerBurst hostCpuNum => (dockerBurstReporting D hostCpuNum).Allowed
  | microarch yaml => (microarchReporting yaml).Allowed
  | hwprobe header => (hwprobeReporting header).Allowed
  | numa => (numaReporting D).Allowed
  | xcall => (xcallReporting D).Allowed
  | netHirq => (netHirqReporting F fixed).Allowed
  | envInfo => EnvInfo.Allowed
  | docker => DockerAdapt.Allowed

theorem careful : (i : PublisherKind) → Sender.Careful (i.Allowed D F fixed)
  | hugePage riscv => (hugePageReporting (AnalysisKind.tlb D riscv)).careful
  | dynamicSmt => (dynamicSmtReporting D).careful
  | dockerBurst hostCpuNum => (dockerBurstReporting D hostCpuNum).careful
  | microarch yaml => (microarchReporting yaml).careful
  | hwprobe header => (hwprobeReporting header).careful
  | numa => (numaReporting D).careful
  | xcall => (xcallReporting D).careful
  | netHirq => (netHirqReporting F fixed).careful
  | envInfo => EnvInfo.careful
  | docker => DockerAdapt.careful

/-- Two topics of `hugepage`: the miss rate is too high for the second one, whatever it is. -/
def sampleHigh : Str × Str := (str "hugepage", str "t:1,threshold1:0")
def sampleLow : Str × Str := (str "hugepage", str "t:1")

abbrev hugePages : Sender := (hugePage false).toSender ℚ ℚ Double.toStr

end PublisherKind
end OeAware

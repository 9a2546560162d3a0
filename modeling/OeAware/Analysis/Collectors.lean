import OeAware.Analysis.Isolation
import OeAware.System.Names

/-! @src src/plugin/scenario/analysis, include/oeaware/interface.h, src/plugin_mgr/instance_run_handler.cpp |
    name:Subscribe, Unsubscribe, OpenTopic, CloseTopic | scheme:state-machine

    Five of the analysis instances subscribe to their collectors when a topic is opened and unsubscribe
    when one is closed. The calls only queue messages; the scheduler handles them one by one, among
    those of others. It keeps the instance's name in a set for each collector's topic: there is one
    name, however many topics are open.

        OpenTopic A ──▶ SUBSCRIBE c ╮
        OpenTopic B ──▶ SUBSCRIBE c ├─▶ subscibers[c] = { name } ──▶ { name } ──▶ { }
        CloseTopic A ▶ UNSUBSCRIBE c╯                    B is open, and nothing comes for it -/

namespace OeAware
open Schemes

/-! ### The instance, the queue and the scheduler -/

/-- The message that an effect queues. -/
def Effect.message {ρ : Type} (name : Str) : Effect ρ → Option InstanceRunMessage
  | .subscribe topic => some (.SUBSCRIBE topic name)
  | .unsubscribe topic => some (.UNSUBSCRIBE topic name)
  | _ => none

/-- An instance, its messages that are still to be handled, and the scheduler. `isOpen` are the topics
    for which `OpenTopic` has returned `OK` and that have not been closed since. -/
structure Collecting (I : AnalysisInstance) where
  inst : I.State
  isOpen : Str → Bool
  queue : List InstanceRunMessage
  manager : State

inductive CollectAct (I : AnalysisInstance) where
  | openTopic (x : Str × Str) (env : I.Env)
  | closeTopic (x : Str × Str)
  /-- The scheduler handles the instance's oldest message. -/
  | handle (ans : Answers)
  /-- It does anything else, with no message of the instance's. -/
  | other (a : Action)

namespace Collecting
variable {I : AnalysisInstance}

def init (I : AnalysisInstance) : Collecting I := ⟨I.init, fun _ => false, [], State.init⟩

/-- The instance has been called. -/
def called (x : Collecting I) (inst : I.State) (isOpen : Str → Bool)
    (es : List (Effect AnalysisResultItem)) : Collecting I :=
  { x with inst, isOpen, queue := x.queue ++ es.filterMap (Effect.message I.name) }

/-- One step; `none` if somebody else uses the instance's name. -/
def step (x : Collecting I) : CollectAct I → Except (Option Fault) (Collecting I)
  | .openTopic t env =>
    let r := I.openTopic (I.topic t) env x.inst
    .ok (x.called r.1 (if r.2.1.failed then x.isOpen
      else Function.update x.isOpen (I.topic t).getType true) r.2.2)
  | .closeTopic t =>
    let r := I.closeTopic (I.topic t) x.inst
    .ok (x.called r.1 (Function.update x.isOpen (I.topic t).getType false) r.2)
  | .handle ans =>
    match x.queue with
    | [] => .ok x
    | m :: queue =>
      match x.manager.handle m ans with
      | .error e => .error (some e)
      | .ok (manager, _) => .ok { x with queue, manager }
  | .other a =>
    if a.names I.name then .error none
    else
      match OeAware.step x.manager a with
      | .error e => .error (some e)
      | .ok manager => .ok { x with manager }

end Collecting

/-! ### What the queue will come to -/

/-- Whether `name` is subscribed under `type` once a message has been handled. -/
def settleOne (name type : Str) (subscribed : Prop) : InstanceRunMessage → Prop
  | .SUBSCRIBE topic x => type = topic.getType ∧ name = x ∨ subscribed
  | .UNSUBSCRIBE topic x => subscribed ∧ ¬ (type = topic.getType ∧ name = x)
  | _ => subscribed

/-- Once all of them have. -/
def settle (name type : Str) (subscribed : Prop) (queue : List InstanceRunMessage) : Prop :=
  queue.foldl (settleOne name type) subscribed

theorem settle_append (name type : Str) (p : Prop) (ms ms' : List InstanceRunMessage) :
    settle name type p (ms ++ ms') = settle name type (settle name type p ms) ms' :=
  List.foldl_append

theorem settle_subscribe (name type : Str) : ∀ (topics : List Topic) (p : Prop),
    settle name type p (topics.map (.SUBSCRIBE · name)) ↔ (∃ t ∈ topics, type = t.getType) ∨ p
  | [], p => by simp [settle]
  | t :: topics, p => by
    have ih := settle_subscribe name type topics (type = t.getType ∧ name = name ∨ p)
    rw [List.map_cons, settle, List.foldl_cons]
    refine ih.trans ?_
    simp only [and_true, List.exists_mem_cons_iff]
    exact or_left_comm.trans (or_assoc.symm)

theorem settle_unsubscribe (name type : Str) : ∀ (topics : List Topic) (p : Prop),
    settle name type p (topics.map (.UNSUBSCRIBE · name)) ↔ p ∧ ¬ ∃ t ∈ topics, type = t.getType
  | [], p => by simp [settle]
  | t :: topics, p => by
    have ih := settle_unsubscribe name type topics (p ∧ ¬ (type = t.getType ∧ name = name))
    rw [List.map_cons, settle, List.foldl_cons]
    refine ih.trans ?_
    simp only [and_true, List.exists_mem_cons_iff, not_or, and_assoc]

/-- What a `Subscribe` needs to be accepted: the instance is there, it is enabled or can be, and the topic
    is open or can be opened. -/
def State.accepts (s : State) (type : Str) (ans : Answers) : Bool :=
  (s.getInstance (getTopicFromType type).instanceName).any (fun p =>
    (s.enabled p || !ans.enable.failed) &&
      (s.flag (getTopicFromType type) || !ans.openTopic.failed))

theorem State.accepts_iff {s : State} {type : Str} {ans : Answers} : s.accepts type ans = true ↔
    ∃ p, s.getInstance (getTopicFromType type).instanceName = some p ∧
      (s.enabled p = true ∨ ans.enable.failed = false) ∧
      (s.flag (getTopicFromType type) = true ∨ ans.openTopic.failed = false) := by
  simp [accepts, Option.any_eq_true]

theorem subs_subscribe {s : State} (hs : StoreOk s) {type : Str} {ans : Answers}
    (h : s.accepts type ans = true) (x type' y : Str) :
    y ∈ (s.subscribe type x ans).1.subs type' ↔ (type' = type ∧ y = x) ∨ y ∈ s.subs type' := by
  obtain ⟨q, hq, henable, hopen⟩ := State.accepts_iff.mp h
  have ho := subscribe_outcome hs type x ans
  generalize s.subscribe type x ans = res at ho
  cases ho with
  | missing text hp => rw [hq] at hp; cases hp
  | notEnabled p hp he hf =>
    obtain rfl : q = p := Option.some.inj (hq.symm.trans hp)
    rcases henable with h1 | h1
    · rw [he] at h1; cases h1
    · rw [hf] at h1; cases h1
  | refused p s1 _ _ hflag hf =>
    rcases hopen with h1 | h1
    · rw [hflag] at h1; cases h1
    · rw [hf] at h1; cases h1
  | known p s1 r _ h1 =>
    rw [(topics_subscribed _ p _ type x).2]
    have hsame : (s1.touch (getTopicFromType type)).subscibers = s.subscibers := h1.same.subscibers
    rw [subs_congr hsame]
  | opened p s1 _ h1 =>
    rw [(topics_subscribed _ p _ type x).2]
    have hsame : (((s1.touch (getTopicFromType type)).openTopic p (getTopicFromType type)
        ans.openTopic).setFlag (getTopicFromType type) true).subscibers = s.subscibers :=
      (topics_openTopic _ _ _ _).2.trans h1.same.subscibers
    rw [subs_congr hsame]

/-! ### What an instance subscribes to -/

/-- An instance that lists its collectors. `late` are the topics that it refuses when it has subscribed
    already. -/
structure Collects (I : AnalysisInstance) where
  collectors : List Topic
  /-- What it unsubscribes from when a topic is closed. -/
  listed : I.State → List Topic
  late : Str × Str → Prop
  inv : I.State → Prop
  init : inv I.init
  openTopic (x : Str × Str) (env : I.Env) (s : I.State) : inv s →
    inv (I.openTopic (I.topic x) env s).1 ∧
    (((I.openTopic (I.topic x) env s).2.1.failed = true ∧
        (I.openTopic (I.topic x) env s).2.2 = [] ∧
        listed (I.openTopic (I.topic x) env s).1 = listed s) ∨
      (((I.openTopic (I.topic x) env s).2.1.failed = true → late x) ∧
        (I.openTopic (I.topic x) env s).2.2 =
          (listed (I.openTopic (I.topic x) env s).1).map .subscribe ∧
        collectors ⊆ listed (I.openTopic (I.topic x) env s).1))
  closeTopic (x : Str × Str) (s : I.State) : inv s →
    inv (I.closeTopic (I.topic x) s).1 ∧
      (I.closeTopic (I.topic x) s).2 = (listed s).map .unsubscribe

theorem messages_subscribe {ρ : Type} (name : Str) : ∀ topics : List Topic,
    (topics.map Effect.subscribe : List (Effect ρ)).filterMap (Effect.message name) =
      topics.map (.SUBSCRIBE · name)
  | [] => rfl
  | _ :: topics => congrArg (List.cons _) (messages_subscribe name topics)

theorem messages_unsubscribe {ρ : Type} (name : Str) : ∀ topics : List Topic,
    (topics.map Effect.unsubscribe : List (Effect ρ)).filterMap (Effect.message name) =
      topics.map (.UNSUBSCRIBE · name)
  | [] => rfl
  | _ :: topics => congrArg (List.cons _) (messages_unsubscribe name topics)

namespace Collecting
variable {I : AnalysisInstance}

/-- Some topic of the instance is open. -/
def someOpen (x : Collecting I) : Prop := ∃ k, x.isOpen k = true

/-- What is asked of a collector, it does. -/
def answered (x : Collecting I) : CollectAct I → Bool
  | .handle ans =>
    match x.queue with
    | .SUBSCRIBE topic _ :: _ => x.manager.accepts topic.getType ans
    | _ => true
  | _ => true

/-- The steps that leave the other sessions what they have subscribed to. -/
def Kept (C : Collects I) (x : Collecting I) : CollectAct I → Prop
  | .openTopic t _ => C.late t → x.someOpen
  | .closeTopic t => ∀ k, x.isOpen k = true → k = (I.topic t).getType
  | a => x.answered a = true

/-- The queue and the scheduler together have what the open topics need. -/
structure Collected (C : Collects I) (x : Collecting I) : Prop where
  store : StoreOk x.manager
  inv : C.inv x.inst
  listed : x.someOpen → C.collectors ⊆ C.listed x.inst
  own : ∀ m ∈ x.queue, ∃ topic, m = .SUBSCRIBE topic I.name ∨ m = .UNSUBSCRIBE topic I.name
  settled : ∀ c ∈ C.collectors,
    settle I.name c.getType (I.name ∈ x.manager.subs c.getType) x.queue ↔ x.someOpen

variable {C : Collects I} {x x' : Collecting I}

theorem collected_init (C : Collects I) : Collected C (init I) where
  store := storeOk_init
  inv := C.init
  listed := by rintro ⟨k, hk⟩; cases hk
  own m hm := by cases hm
  settled c hc := iff_of_false List.not_mem_nil (by rintro ⟨k, hk⟩; cases hk)

theorem someOpen_update (t : Str) (inst : I.State) (es : List (Effect AnalysisResultItem)) :
    (x.called inst (Function.update x.isOpen t true) es).someOpen :=
  ⟨t, Function.update_self ..⟩

theorem not_someOpen_update {t : Str} (h : ∀ k, x.isOpen k = true → k = t) (inst : I.State)
    (es : List (Effect AnalysisResultItem)) :
    ¬ (x.called inst (Function.update x.isOpen t false) es).someOpen := by
  rintro ⟨k, hk⟩
  change Function.update x.isOpen t false k = true at hk
  by_cases hkt : k = t
  · rw [hkt, Function.update_self] at hk
    cases hk
  · rw [Function.update_of_ne hkt] at hk
    exact hkt (h k hk)

theorem Collected.openTopic (h : Collected C x) {t : Str × Str} {env : I.Env}
    (ha : Kept C x (.openTopic t env)) (he : x.step (.openTopic t env) = .ok x') :
    Collected C x' := by
  cases he
  obtain ⟨hinv, ⟨hf, hes, hl⟩ | ⟨hlate, hes, hl⟩⟩ := C.openTopic t env x.inst h.inv
  · rw [if_pos hf, hes]
    refine ⟨h.store, hinv, fun ho => hl ▸ h.listed ho, ?_, ?_⟩
    · simpa [called] using h.own
    · simpa [called, someOpen] using h.settled
  · rw [hes]
    have hopen : (x.called (I.openTopic (I.topic t) env x.inst).1
        (if (I.openTopic (I.topic t) env x.inst).2.1.failed then x.isOpen
          else Function.update x.isOpen (I.topic t).getType true)
        ((C.listed (I.openTopic (I.topic t) env x.inst).1).map .subscribe)).someOpen := by
      split
      · rename_i hf
        exact ha (hlate hf)
      · exact someOpen_update ..
    refine ⟨h.store, hinv, fun _ => hl, ?_, ?_⟩
    · rw [called, messages_subscribe]
      intro m hm
      rcases List.mem_append.mp hm with hm | hm
      · exact h.own m hm
      · obtain ⟨topic, _, rfl⟩ := List.mem_map.mp hm
        exact ⟨topic, .inl rfl⟩
    · intro c hc
      refine iff_of_true ?_ hopen
      rw [called, messages_subscribe, settle_append, settle_subscribe]
      exact .inl ⟨c, hl hc, rfl⟩

theorem Collected.closeTopic (h : Collected C x) {t : Str × Str}
    (ha : Kept C x (.closeTopic t)) (he : x.step (.closeTopic t) = .ok x') : Collected C x' := by
  cases he
  obtain ⟨hinv, hes⟩ := C.closeTopic t x.inst h.inv
  rw [hes]
  have hclosed := not_someOpen_update ha (I.closeTopic (I.topic t) x.inst).1
    ((C.listed x.inst).map .unsubscribe)
  refine ⟨h.store, hinv, fun ho => absurd ho hclosed, ?_, ?_⟩
  · rw [called, messages_unsubscribe]
    intro m hm
    rcases List.mem_append.mp hm with hm | hm
    · exact h.own m hm
    · obtain ⟨topic, _, rfl⟩ := List.mem_map.mp hm
      exact ⟨topic, .inr rfl⟩
  · intro c hc
    refine iff_of_false ?_ hclosed
    rw [called, messages_unsubscribe, settle_append, settle_unsubscribe]
    rintro ⟨hsub, hno⟩
    -- it was subscribed only because a topic was open, and then it is listed
    exact hno ⟨c, h.listed ((h.settled c hc).mp hsub) hc, rfl⟩

theorem Collected.handle (h : Collected C x) {ans : Answers} (ha : Kept C x (.handle ans))
    (he : x.step (.handle ans) = .ok x') : Collected C x' := by
  rw [step] at he
  split at he
  · cases he
    exact h
  · rename_i m queue hq
    split at he
    · cases he
    · rename_i s' r hm
      cases he
      have hsettle : ∀ type, I.name ∈ s'.subs type ↔
          settleOne I.name type (I.name ∈ x.manager.subs type) m := by
        intro type
        obtain ⟨topic, rfl | rfl⟩ := h.own m (hq ▸ List.mem_cons_self)
        · have ha : x.manager.accepts topic.getType ans = true := by
            simpa [Kept, answered, hq] using ha
          have hs' : (x.manager.subscribe topic.getType I.name ans).1 = s' :=
            congrArg Prod.fst (Except.ok.inj hm)
          rw [← hs']
          exact subs_subscribe h.store ha I.name type I.name
        · obtain ⟨s1, h1, heq⟩ := map_ok hm
          cases heq
          exact mem_subs_unsubscribe h1 type I.name
      have hstore : OeAware.step x.manager (.message m ans) = .ok s' := by
        rw [OeAware.step, hm]; rfl
      refine ⟨storeOk_step h.store hstore, h.inv, h.listed, ?_, ?_⟩
      · exact fun m' hm' => h.own m' (hq ▸ List.mem_cons_of_mem m hm')
      · intro c hc
        rw [propext (hsettle c.getType)]
        have := h.settled c hc
        rwa [hq] at this

theorem Collected.other (h : Collected C x) {a : Action} (he : x.step (.other a) = .ok x') :
    Collected C x' := by
  rw [step] at he
  split at he
  · cases he
  · rename_i hn
    split at he
    · cases he
    · rename_i s' hs'
      cases he
      have hname : ∀ m ans, a = .message m ans → I.name ∉ m.names := by
        rintro m ans rfl hm
        exact hn (decide_eq_true hm)
      refine ⟨storeOk_step h.store hs', h.inv, h.listed, h.own, ?_⟩
      intro c hc
      rw [propext (step_other_name h.store hname hs' c.getType)]
      exact h.settled c hc

theorem Collected.step (h : Collected C x) {a : CollectAct I} (ha : Kept C x a)
    (he : x.step a = .ok x') : Collected C x' := by
  cases a with
  | openTopic t env => exact h.openTopic ha he
  | closeTopic t => exact h.closeTopic ha he
  | handle ans => exact h.handle ha he
  | other a => exact h.other he

/-- A run, each of whose steps is kept. -/
abbrev RunsKept (C : Collects I) : Collecting I → Prop :=
  Runs step (init I) (Kept C)

theorem collected_runs (h : RunsKept C x) : Collected C x :=
  Runs.invariant (collected_init C) (fun _ _ _ hx ha he => hx.step ha he) h

/-- With nothing left to be handled, the instance is subscribed to all its collectors or to none. -/
theorem Collected.subscribed (h : Collected C x) (hq : x.queue = []) :
    ∀ c ∈ C.collectors, I.name ∈ x.manager.subs c.getType ↔ x.someOpen := by
  intro c hc
  have := h.settled c hc
  rwa [hq] at this

end Collecting

/-! ### The five instances -/

section
variable {D : Type} [Double D]

/-- The list is made by the constructor. -/
def hugePageCollects (K : TlbKind D) : Collects (hugePageAnalysis K).toInstance where
  collectors := (hugePageAnalysis K).subscribeTopics
  listed s := s.subscribeTopics
  late _ := False
  inv s := s.subscribeTopics = (hugePageAnalysis K).subscribeTopics
  init := rfl
  openTopic x env s hs := by
    simp only [HugePageAnalysis.openTopic]
    split
    · exact ⟨hs, .inl ⟨rfl, rfl, rfl⟩⟩
    · exact ⟨hs, .inr ⟨(nomatch ·), rfl, hs ▸ List.Subset.refl _⟩⟩
  closeTopic x s hs := ⟨hs, rfl⟩

/-- The list is made by the constructor. -/
def dynamicSmtCollects (D : Type) [Double D] : Collects (dynamicSmtAnalysis D).toInstance where
  collectors := (dynamicSmtAnalysis D).subscribeTopics
  listed s := s.subscribeTopics
  late _ := False
  inv s := s.subscribeTopics = (dynamicSmtAnalysis D).subscribeTopics
  init := rfl
  openTopic x env s hs := by
    simp only [DynamicSmtAnalysis.openTopic]
    split
    · exact ⟨hs, .inl ⟨rfl, rfl, rfl⟩⟩
    · exact ⟨hs, .inr ⟨(nomatch ·), rfl, hs ▸ List.Subset.refl _⟩⟩
  closeTopic x s hs := ⟨hs, rfl⟩

/-- Each `OpenTopic` puts the collectors on the list once more. -/
def dockerBurstCollects (D : Type) [Double D] (hostCpuNum : Int32) :
    Collects (dockerCoordinationBurstAnalysis D hostCpuNum).toInstance where
  collectors := DockerCoordinationBurstAnalysis.collectors
  listed s := s.subscribeTopics
  late _ := False
  inv _ := True
  init := trivial
  openTopic x env s _ := by
    simp only [DockerCoordinationBurstAnalysis.openTopic]
    split
    · exact ⟨trivial, .inl ⟨rfl, rfl, rfl⟩⟩
    · split
      · exact ⟨trivial, .inr ⟨(nomatch ·), rfl, List.subset_append_right ..⟩⟩
      · exact ⟨trivial, .inl ⟨rfl, rfl, rfl⟩⟩
  closeTopic x s _ := ⟨trivial, rfl⟩

/-- And each `CloseTopic` empties it. -/
def numaCollects (D : Type) [Double D] : Collects (numaAnalysis D) where
  collectors := NumaAnalysis.collectors
  listed s := s.subTopics
  late _ := False
  inv _ := True
  init := trivial
  openTopic x env s _ := by
    simp only [NumaAnalysis.openTopic]
    split
    · exact ⟨trivial, .inl ⟨rfl, rfl, rfl⟩⟩
    · split
      · exact ⟨trivial, .inl ⟨rfl, rfl, rfl⟩⟩
      · exact ⟨trivial, .inr ⟨(nomatch ·), rfl, List.subset_append_right ..⟩⟩
  closeTopic x s _ := ⟨trivial, rfl⟩

/-- The instance has subscribed before it finds that its configuration is invalid. -/
def microarchCollects (yaml : MicroarchTidNoCmpAnalysis.Yaml) :
    Collects (microarchTidNoCmpAnalysis yaml).toInstance where
  collectors := [⟨str "thread_collector", str "thread_collector", []⟩]
  listed s := s.subscribeTopics
  late x := x.1 = str "microarch_tidnocmp" ∧ MicroarchTidNoCmpAnalysis.valid yaml x.2 = false
  inv _ := True
  init := trivial
  openTopic x env s _ := by
    simp only [MicroarchTidNoCmpAnalysis.openTopic, MicroarchTidNoCmpAnalysis.parseConfig_snd]
    split
    · exact ⟨trivial, .inl ⟨rfl, rfl, rfl⟩⟩
    · rename_i hname
      refine ⟨trivial, .inr ⟨fun hf => ⟨not_not.mp hname, ?_⟩, rfl, List.subset_append_right ..⟩⟩
      cases hvalid : MicroarchTidNoCmpAnalysis.valid yaml x.2 with
      | false => rfl
      | true => simp [AnalysisInstance.topic, hvalid, resultOk, Result.failed, OK] at hf
  closeTopic x s _ := ⟨trivial, rfl⟩

end

/-- The instances that subscribe when a topic is opened. -/
inductive CollectingKind where
  | hugePage (riscv : Bool)
  | dynamicSmt
  | dockerBurst (hostCpuNum : Int32)
  | numa
  | microarch (yaml : MicroarchTidNoCmpAnalysis.Yaml)

namespace CollectingKind
variable (D : Type) [Double D]

def toInstance : CollectingKind → AnalysisInstance
  | hugePage riscv => (hugePageAnalysis (AnalysisKind.tlb D riscv)).toInstance
  | dynamicSmt => (dynamicSmtAnalysis D).toInstance
  | dockerBurst hostCpuNum => (dockerCoordinationBurstAnalysis D hostCpuNum).toInstance
  | numa => numaAnalysis D
  | microarch yaml => (microarchTidNoCmpAnalysis yaml).toInstance

def collects : (i : CollectingKind) → Collects (i.toInstance D)
  | hugePage riscv => hugePageCollects (AnalysisKind.tlb D riscv)
  | dynamicSmt => dynamicSmtCollects D
  | dockerBurst hostCpuNum => dockerBurstCollects D hostCpuNum
  | numa => numaCollects D
  | microarch yaml => microarchCollects yaml

/-- SUBSCRIBED WHILE OPEN: in every run whose steps leave the other sessions what they have subscribed
    to, once the messages are handled, an instance is subscribed to all its collectors while one of
    its topics is open, and to none when none is. -/
theorem subscribed_while_open (i : CollectingKind) {x : Collecting (i.toInstance D)}
    (h : Collecting.RunsKept (i.collects D) x) (hq : x.queue = []) :
    (x.someOpen → ∀ c ∈ (i.collects D).collectors,
      (i.toInstance D).name ∈ x.manager.subs c.getType) ∧
    (¬ x.someOpen → ∀ c ∈ (i.collects D).collectors,
      (i.toInstance D).name ∉ x.manager.subs c.getType) :=
  have hs := (Collecting.collected_runs h).subscribed hq
  ⟨fun ho c hc => (hs c hc).mpr ho, fun hn c hc hm => hn ((hs c hc).mp hm)⟩

/-! ### Samples -/

/-- A plugin with the collector that `dynamic_smt` subscribes to. -/
def sampleCollector : Action :=
  let topic : Topic := ⟨str "env_info_collector", str "cpu_util", []⟩
  .load (str "a.so") ⟨true, true, some [⟨topic.instanceName, [topic], 0, 1, 20⟩]⟩

abbrev smt : AnalysisInstance := dynamicSmt.toInstance ℚ

def sampleSession (params : String) : Str × Str := (str "dynamic_smt", str params)

/-- A session opens, and is subscribed to the collector. -/
theorem subscribed_while_open_smt : ∃ x : Collecting smt,
    Collecting.RunsKept (dynamicSmt.collects ℚ) x ∧ x.queue = [] ∧ x.someOpen ∧
      ∀ c ∈ (dynamicSmt.collects ℚ).collectors, smt.name ∈ x.manager.subs c.getType := by
  have h1 : Collecting.RunsKept (dynamicSmt.collects ℚ) _ :=
    .next (a := .other sampleCollector) .start rfl rfl
  have h2 : Collecting.RunsKept (dynamicSmt.collects ℚ) _ :=
    .next (a := .openTopic (sampleSession "t:1") (0, true)) h1 (fun h => h.elim) rfl
  have h3 : Collecting.RunsKept (dynamicSmt.collects ℚ) _ :=
    .next (a := .handle accepting) h2 rfl rfl
  refine ⟨_, h3, rfl, ?_, (dynamicSmt.subscribed_while_open ℚ h3 rfl).1 ?_⟩ <;>
    exact ⟨(smt.topic (sampleSession "t:1")).getType, by decide⟩

/-- Of two sessions of `dynamic_smt` the first is closed: the other one is left without its collector. -/
theorem not_subscribed_while_open :
    ¬ ∀ (i : CollectingKind) (x : Collecting (i.toInstance ℚ)),
      Runs Collecting.step (Collecting.init _) (fun x a => x.answered a = true) x → x.queue = [] →
      (x.someOpen → ∀ c ∈ (i.collects ℚ).collectors,
        (i.toInstance ℚ).name ∈ x.manager.subs c.getType) ∧
      (¬ x.someOpen → ∀ c ∈ (i.collects ℚ).collectors,
        (i.toInstance ℚ).name ∉ x.manager.subs c.getType) := by
  intro h
  have hr : Runs Collecting.step (Collecting.init smt) (fun x a => x.answered a = true) _ :=
    Runs.of_runAll (fun (x : Collecting smt) a => x.answered a = true)
      [.other sampleCollector, .openTopic (sampleSession "t:1") (0, true),
        .openTopic (sampleSession "t:2") (0, true), .closeTopic (sampleSession "t:1"),
        .handle accepting, .handle accepting, .handle accepting] .start rfl
  have hsub := (h dynamicSmt _ hr rfl).1
    ⟨(smt.topic (sampleSession "t:2")).getType, by decide⟩ _ List.mem_cons_self
  revert hsub
  decide

end CollectingKind

end OeAware

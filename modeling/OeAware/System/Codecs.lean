import OeAware.Manager.Views
import OeAware.System.Threads

/-! @src src/common/data_register.cpp, src/plugin_mgr/instance_run_handler.cpp, src/plugin |
    name:DataListSerialize, DataListDeserialize, Register::InitRegisterData | scheme:state-machine

    When a codec is called that nobody has registered. `PublishData` encodes once for every subscriber
    it takes for a connection, `Publish` decodes what a client has sent before it looks at the name in
    it. Both look up the topic in a registry that was written by hand beside the plugins, and call what
    they have found without looking.

        plugin ──PUBLISH_DATA──▶ subscibers ──SDK──▶ se (instance::topic | instance | null)
        client ──PUBLISH──▶ de (instance::topic | instance | null) ──▶ instance exists? -/

namespace OeAware
open Schemes

/-! ### What the plugins offer -/

/-- The topics that the instances of the shipped plugins support, by the build for a processor: each
    instance with the names in its `supportTopics`. -/
def shippedTopics (arch : Arch) : List (String × List String) :=
  let counting := ["cycles", "net:netif_rx", "L1-dcache-load-misses", "L1-dcache-loads",
    "L1-icache-load-misses", "L1-icache-loads", "branch-load-misses", "branch-loads",
    "dTLB-load-misses", "dTLB-loads", "iTLB-load-misses", "iTLB-loads", "cache-references",
    "cache-misses"] ++
    (if arch = .riscv64 then [] else
      ["l2d_tlb_refill", "l2d_cache_refill", "l1d_tlb_refill", "l1d_cache_refill", "l1d_tlb", "l1i_tlb",
        "l1i_tlb_refill", "l2d_tlb", "l2i_tlb", "l2i_tlb_refill", "inst_retired"]) ++
    ["instructions", "sched:sched_process_fork", "sched:sched_process_exit"]
  (if arch = .x86_64 then [] else
    -- collect/pmu
    [("pmu_counting_collector", counting),
      ("pmu_sampling_collector",
        ["cycles", "skb:skb_copy_datagram_iovec", "net:napi_gro_receive_entry"]),
      ("pmu_spe_collector", ["spe"]), ("pmu_uncore_collector", ["uncore"]),
      ("pmu_l3c_collector", ["l3c"]),
      -- collect/docker, tune/docker
      ("docker_collector", ["docker_collector"]), ("docker_cpu_burst", ["docker_cpu_burst"]),
      ("docker_burst", ["docker_burst"]),
      ("load_based_scheduling_tune", ["load_based_scheduling_tune"]),
      ("docker_cluster_affinity", ["docker_cluster_affinity"]),
      -- scenario/analysis
      ("hugepage_analysis", ["hugepage"]), ("dynamic_smt_analysis", ["dynamic_smt"]),
      ("smc_d_analysis", ["smc_d"]), ("net_hirq_analysis", ["net_hirq_analysis"]),
      ("numa_analysis", ["numa_analysis"]),
      ("docker_coordination_burst_analysis", ["docker_coordination_burst"])]) ++
  (if arch = .aarch64 then
    [("xcall_analysis", ["xcall"]), ("microarch_tidnocmp_analysis", ["microarch_tidnocmp"])]
    else []) ++
  (if arch = .riscv64 then [("hwprobe_analysis", ["hwprobe_analysis"])] else []) ++
  -- collect/system, scenario/thread_aware, tune/system
  [("thread_collector", ["thread_collector"]),
    ("kernel_config", ["get_kernel_config", "get_cmd", "set_kernel_config"]),
    ("command_collector", ["mpstat", "iostat", "vmstat", "sar", "pidstat"]),
    ("env_info_collector", ["static", "realtime", "cpu_util"]),
    ("net_interface_info", ["base", "driver", "local_net_affinity", "net_thread_que_data"]),
    ("thread_scenario", ["thread_scenario"]), ("binary_tune", ["binary_tune"]),
    ("net_hard_irq_tune", ["net_hardirq_tune_debug_info"])]

/-- The instances among them for which `InitRegisterData` has no key. -/
def unregistered : List String :=
  ["pmu_l3c_collector", "docker_collector", "docker_cpu_burst", "docker_burst",
    "load_based_scheduling_tune", "docker_cluster_affinity", "binary_tune"]

theorem shipped_registered (arch : Arch) : ∀ e ∈ shippedTopics arch,
    if e.1 ∈ unregistered then str e.1 ∉ initRegisterData arch ∧
      ∀ t ∈ e.2, str e.1 ++ 58 :: 58 :: str t ∉ initRegisterData arch
    else str e.1 ∈ initRegisterData arch ∨
      ∀ t ∈ e.2, str e.1 ++ 58 :: 58 :: str t ∈ initRegisterData arch := by
  -- the names as lists of characters, which are far cheaper to compare than strings
  obtain ⟨topics, htopics⟩ : ∃ topics, topics =
      (shippedTopics arch).map (fun e => (e.1.toList, e.2.map String.toList)) := ⟨_, rfl⟩
  obtain ⟨names, hnames⟩ : ∃ names, names = unregistered.map String.toList := ⟨_, rfl⟩
  obtain ⟨keys, hkeys⟩ : ∃ keys, keys = initRegisterData arch := ⟨_, rfl⟩
  let bytes : List Char → Str := List.map (fun c => UInt8.ofNat c.toNat)
  have hall : ∀ e ∈ topics,
      if e.1 ∈ names then bytes e.1 ∉ keys ∧ ∀ t ∈ e.2, bytes e.1 ++ 58 :: 58 :: bytes t ∉ keys
      else bytes e.1 ∈ keys ∨ ∀ t ∈ e.2, bytes e.1 ++ 58 :: 58 :: bytes t ∈ keys := by
    simp -index only [unregistered, List.map_cons, List.map_nil, String.toList_ofList] at hnames
    cases arch <;>
    · simp -index only [shippedTopics, reduceCtorEq, if_false, if_true, List.cons_append, List.nil_append,
        List.append_nil, List.map_cons, List.map_nil, String.toList_ofList] at htopics
      simp -index only [initRegisterData, str, reduceCtorEq, or_false, or_true, if_false, if_true, List.cons_append,
        List.nil_append, List.map_cons, List.map_nil, String.toList_ofList] at hkeys
      subst hnames htopics hkeys
      decide +kernel
  rintro e he
  have h := hall (e.1.toList, e.2.map String.toList) (htopics ▸ List.mem_map_of_mem he)
  simp only [hnames, hkeys, List.mem_map_of_injective @String.toList_injective, List.forall_mem_map] at h
  exact h

theorem lookup_shipped (arch : Arch) (entry : Str → RegisterEntry) {e : String × List String}
    (he : e ∈ shippedTopics arch) {t : String} (ht : t ∈ e.2) (params : Str) :
    ((Register.ofArch arch entry).lookup ⟨str e.1, str t, params⟩).isSome = true ↔
      e.1 ∉ unregistered := by
  have hkey : concat [str e.1, str t] (str "::") = str e.1 ++ 58 :: 58 :: str t := by
    simp [concat, str_colons, List.intercalate, List.intersperse]
  have hreg := shipped_registered arch e he
  rw [lookup_ofArch]
  simp only [hkey]
  split at hreg
  · rename_i hu
    exact iff_of_false (not_or.mpr ⟨hreg.2 t ht, hreg.1⟩) (fun h => h hu)
  · rename_i hu
    exact iff_of_true (hreg.elim Or.inr (fun h => Or.inl (h t ht))) hu

/-! ### What is asked of the registry -/

/-- The message brings no topic without a codec: a string that will be taken for a connection
    subscribes only to a type whose topics have one, and a `PUBLISH` that has elements names a topic
    that has one. -/
def RunMessage.Known (reg : Register) (junk : ℕ) : RunMessage → Prop
  | .run (.SUBSCRIBE topic x) => State.isSdk x = true →
      ∀ t : Topic, t.getType = topic.getType → (reg.lookup t).isSome = true
  | .publish (bytes :: _) => ∀ t rest, Topic.deserialize ⟨bytes, true⟩ = some (t, rest) →
      (rest.readU64 junk).1 ≠ 0 →
      (reg.lookup ⟨cStr t.instanceName, cStr t.topicName, cStr t.params⟩).isSome = true
  | _ => True

/-- Every message that the scheduler takes is `Known`. -/
def CodecsKnown (reg : Register) (s : System) : Act → Prop
  | .handle _ junk => ∀ e ∈ s.recvQueue.head?, e.1.Known reg junk
  | _ => True

/-- Connections are subscribed only to what can be encoded. -/
def KnownSubs (reg : Register) (s : State) : Prop :=
  ∀ type x, x ∈ s.subs type → State.isSdk x = true →
    ∀ t : Topic, t.getType = type → (reg.lookup t).isSome = true

/-! ### One step -/

section
variable {reg : Register} {s s' : System}

theorem KnownSubs.step {a : Act} (hs : StoreOk s.state) (h : KnownSubs reg s.state)
    (hok : CodecsKnown reg s a) (he : s.step reg a = .ok s') : KnownSubs reg s'.state := by
  have hst := System.step_state he
  cases ha : s.action reg a with
  | none => rw [ha] at hst; rw [hst]; exact h
  | some b =>
    rw [ha] at hst
    intro type x hx hsdk
    rcases step_subs hs hst hx with hx | ⟨topic, ans, rfl, rfl⟩
    · exact h type x hx hsdk
    · obtain ⟨junk, msg, mine, rest, rfl, hq, hm⟩ := System.action_message ha
      rcases System.decoded_inv hm with rfl | ⟨d, hd⟩
      · exact hok (.run (.SUBSCRIBE topic x), mine) (by rw [hq]; rfl) hsdk
      · cases hd

theorem deliverWith_nullCodec (d : DataList) : ∀ (l : List Str) {s : State},
    s.deliverWith reg d l = .error .nullCodec →
      d.encodesNull reg = true ∧ ∃ x ∈ l, State.isSdk x = true
  | [], s, h => by rw [State.deliverWith] at h; cases h
  | x :: l, s, h => by
    rw [State.deliverWith] at h
    split at h
    · rename_i hx
      split at h
      · rename_i hn
        exact ⟨hn, x, List.mem_cons_self .., hx⟩
      · obtain ⟨hn, y, hy, hsdk⟩ := deliverWith_nullCodec d l h
        exact ⟨hn, y, List.mem_cons_of_mem _ hy, hsdk⟩
    · split at h
      · cases h
      · obtain ⟨hn, y, hy, hsdk⟩ := deliverWith_nullCodec d l h
        exact ⟨hn, y, List.mem_cons_of_mem _ hy, hsdk⟩

theorem deserialize_nullCodec {junk : ℕ} {bytes : Str}
    (h : dataListDeserialize reg junk bytes = .nullCodec) :
    ∃ t rest, Topic.deserialize ⟨bytes, true⟩ = some (t, rest) ∧ (rest.readU64 junk).1 ≠ 0 ∧
      reg.lookup ⟨cStr t.instanceName, cStr t.topicName, cStr t.params⟩ = none := by
  unfold dataListDeserialize at h
  split at h
  · cases h
  · rename_i t rest ht
    dsimp only at h
    split at h
    · cases h
    · split at h
      · cases h
      · rename_i hn
        split at h
        · cases h
        · rename_i hsize
          exact ⟨t, rest, ht, hsize, hn⟩

theorem mapError_handler {α : Type} {x : Except Fault α} :
    x.mapError SystemFault.handler ≠ .error .nullCodec := by
  cases x <;> nofun

/-- A null codec is called for a `PUBLISH` with elements, or for data that a connection awaits. -/
theorem handleQueued_nullCodec {s : State} {msg : RunMessage} {ans : Answers} {junk : ℕ}
    (hsubs : KnownSubs reg s) (hk : msg.Known reg junk) :
    s.handleQueued reg msg ans junk ≠ .error .nullCodec := by
  intro h
  unfold State.handleQueued at h
  split at h
  · cases h
  · rename_i bytes rest
    split at h
    · cases h
    · rename_i hd
      obtain ⟨t, in', ht, hsize, hn⟩ := deserialize_nullCodec hd
      have := hk t in' ht hsize
      rw [hn] at this
      cases this
    · exact mapError_handler h
  · rename_i d
    cases hp : s.publishDataWith reg d with
    | ok s1 => rw [hp] at h; cases h
    | error e =>
      rw [hp] at h
      cases h
      obtain ⟨hn, x, hx, hsdk⟩ := deliverWith_nullCodec d _ hp
      rw [subs_touchSubs] at hx
      have hsome := hsubs _ x hx hsdk d.topic rfl
      simp only [DataList.encodesNull, Bool.and_eq_true, Option.isNone_iff_eq_none] at hn
      rw [hn.2] at hsome
      cases hsome
  · exact mapError_handler h

theorem KnownSubs.step_ne {a : Act} (h : KnownSubs reg s.state) (hok : CodecsKnown reg s a) :
    s.step reg a ≠ .error .nullCodec := by
  intro he
  cases a with
  | handle ans junk =>
    simp only [System.step] at he
    split at he
    · rename_i msg mine rest hq
      unfold System.handle at he
      cases hh : s.state.handleQueued reg msg ans junk with
      | ok res => rw [hh] at he; cases he
      | error e =>
        rw [hh] at he
        cases he
        exact handleQueued_nullCodec h (hok (msg, mine) (by rw [hq]; rfl)) hh
    · cases he
  | manage out =>
    simp only [System.step] at he
    split at he
    · unfold System.manage at he
      dsimp only at he
      split at he
      · cases he
      · split at he <;> cases he
    · cases he
  | tick =>
    simp only [System.step] at he
    split at he <;> cases he
  | respond sent | push | finish out | data =>
    simp only [System.step] at he
    split at he <;> cases he
  | accept | request | hangUp | internal | plugin | reorder => cases he

theorem knownSubs_runs (h : SystemRuns reg (CodecsKnown reg) s) : KnownSubs reg s.state := by
  have : StoreOk s.state ∧ KnownSubs reg s.state := by
    refine Runs.invariant (I := fun s => StoreOk s.state ∧ KnownSubs reg s.state)
      ⟨storeOk_init, fun _ _ hx => absurd hx List.not_mem_nil⟩ ?_ h
    intro s a s' hs hok he
    exact ⟨System.storeOk hs.1 he, hs.2.step hs.1 hok he⟩
  exact this.2

end

/-- NO NULL CODEC: in every run in which what is taken for a connection subscribes only to types whose
    topics have a codec, and a `PUBLISH` with elements names a topic that has one, no step of any thread
    calls a null codec. Of the topics that the shipped plugins support, those of the instances in
    `unregistered` have none, and all others have one. -/
theorem codecs_found (arch : Arch) (entry : Str → RegisterEntry) :
    (∀ s a, SystemRuns (Register.ofArch arch entry) (CodecsKnown (Register.ofArch arch entry)) s →
      CodecsKnown (Register.ofArch arch entry) s a →
      s.step (Register.ofArch arch entry) a ≠ .error .nullCodec) ∧
    ∀ e ∈ shippedTopics arch, ∀ t ∈ e.2, ∀ params,
      ((Register.ofArch arch entry).lookup ⟨str e.1, str t, params⟩).isSome = true ↔
        e.1 ∉ unregistered :=
  ⟨fun _ _ h ha => (knownSubs_runs h).step_ne ha,
    fun _ he _ ht params => lookup_shipped arch entry he ht params⟩

/-! ### Concrete runs -/

/-- A topic of a shipped instance, without parameters. -/
def shippedTopic (name topicName : String) : Topic := ⟨str name, str topicName, []⟩

/-- The registry of the `aarch64` build; what the codecs read does not matter here. -/
def sampleRegister : Register := .ofArch .aarch64 (fun _ => ⟨fun s => (none, s)⟩)

/-- The registry with its names as lists of characters, on which a run is far cheaper to evaluate. -/
theorem sampleRegister_eq : ∃ keys : List Str, keys = initRegisterData .aarch64 ∧
    sampleRegister = fun key => if key ∈ keys then some ⟨fun s => (none, s)⟩ else none :=
  ⟨_, rfl, rfl⟩

/-- A plugin that exports one of its instances. -/
def exporting (t : Topic) : Outside :=
  { sampleOut with file := ⟨true, true, some [⟨t.instanceName, [t], 0, 0, 100⟩]⟩ }

/-- An SDK client subscribes to a topic, and the instance publishes one element on it. -/
def published (t : Topic) : List Act :=
  [.internal (.load (str "a.so")), .manage (exporting t), .accept 7 true true true,
    .request 7 ⟨Opt.SUBSCRIBE.toInt, [serStr t.instanceName ++ serStr t.topicName ++ serStr t.params]⟩,
    .manage (exporting t), .push, .handle accepting 0, .plugin 0 (.publish ⟨t, [[1]]⟩)]

/-- A type without further colons is that of one topic only. -/
theorem eq_of_getType_eq {t u : Topic} (hu : u.NoColon) (h : t.getType = u.getType) : t = u := by
  have hcount := congrArg (List.count 58) h
  simp only [getType_eq, List.count_append, List.count_cons_self,
    List.count_eq_zero_of_not_mem hu.1, List.count_eq_zero_of_not_mem hu.2.1,
    List.count_eq_zero_of_not_mem hu.2.2] at hcount
  have ht : t.NoColon :=
    ⟨List.count_eq_zero.mp (by omega), List.count_eq_zero.mp (by omega),
      List.count_eq_zero.mp (by omega)⟩
  rw [← getTopicFromType_getType t ht, h, getTopicFromType_getType u hu]

/-- The scheduler's next message subscribes to a topic of a registered instance without colons, or is
    no request. -/
def PlainSubscribe (s : System) : Act → Bool
  | .handle _ _ =>
    match s.recvQueue.head? with
    | some (.run (.SUBSCRIBE topic _), _) =>
      topic.NoColon ∧ (sampleRegister.lookup topic).isSome = true
    | some (.publish _, _) => false
    | _ => true
  | _ => true

theorem PlainSubscribe.known {s : System} {a : Act} (h : PlainSubscribe s a = true) :
    CodecsKnown sampleRegister s a := by
  cases a with
  | handle ans junk =>
    rintro ⟨msg, mine⟩ he
    simp only [PlainSubscribe, Option.mem_def.mp he] at h
    cases msg with
    | publish payload => cases h
    | run m =>
      cases m with
      | SUBSCRIBE topic x =>
        obtain ⟨hn, hk⟩ := of_decide_eq_true h
        intro _ t ht
        rw [eq_of_getType_eq hn ht]
        exact hk
      | _ => trivial
  | _ => trivial

/-- Data for a client that has subscribed to `thread_collector` is encoded and queued. -/
theorem codecs_found_thread :
    ∃ s s', SystemRuns sampleRegister (CodecsKnown sampleRegister) s ∧
      s.step sampleRegister (.handle accepting 0) ≠ .error .nullCodec ∧
      s.step sampleRegister (.handle accepting 0) = .ok s' ∧ s'.state.recvData.length = 1 := by
  have hrun : (runAll (System.step sampleRegister) (fun s a => PlainSubscribe s a = true) System.init
      (published (shippedTopic "thread_collector" "thread_collector"))).any (fun s =>
        PlainSubscribe s (.handle accepting 0) && (s.step sampleRegister (.handle accepting 0)).toOption.any
          (fun s' => s'.state.recvData.length == 1)) = true := by
    obtain ⟨keys, hkeys, hreg⟩ := sampleRegister_eq
    unfold PlainSubscribe
    rw [hreg]
    simp -index only [initRegisterData, str, reduceCtorEq, or_false, if_false, if_true, List.cons_append,
      List.nil_append, List.map_cons, List.map_nil, String.toList_ofList] at hkeys
    subst hkeys
    decide +kernel
  obtain ⟨s, hs, hrun⟩ := (Option.any_eq_true _ _).mp hrun
  obtain ⟨hplain, hqueued⟩ := Bool.and_eq_true_iff.mp hrun
  have h : SystemRuns sampleRegister (CodecsKnown sampleRegister) s :=
    (Runs.of_runAll _ _ .start hs).mono (fun _ _ => PlainSubscribe.known)
  have hfound := (codecs_found .aarch64 _).1 s _ h (PlainSubscribe.known hplain)
  cases hs' : s.step sampleRegister (.handle accepting 0) with
  | error e => simp [hs', Except.toOption] at hqueued
  | ok s' =>
    simp only [hs', Except.toOption, Option.any_some, beq_iff_eq] at hqueued
    exact ⟨s, s', h, hfound, hs', hqueued⟩

/-- Data for a client that has subscribed to `docker_collector`, which has no key. -/
theorem codecs_not_found : ("docker_collector", ["docker_collector"]) ∈ shippedTopics .aarch64 ∧
    ∃ s, SystemRuns sampleRegister (fun _ _ => True) s ∧
      s.step sampleRegister (.handle accepting 0) = .error .nullCodec := by
  have hrun : (runAll (System.step sampleRegister) (fun _ _ => True) System.init
      (published (shippedTopic "docker_collector" "docker_collector"))).any (fun s =>
        match s.step sampleRegister (.handle accepting 0) with
        | .error .nullCodec => true
        | _ => false) = true := by
    obtain ⟨keys, hkeys, hreg⟩ := sampleRegister_eq
    rw [hreg]
    simp -index only [initRegisterData, str, reduceCtorEq, or_false, if_false, if_true, List.cons_append,
      List.nil_append, List.map_cons, List.map_nil, String.toList_ofList] at hkeys
    subst hkeys
    decide +kernel
  obtain ⟨s, hs, hrun⟩ := (Option.any_eq_true _ _).mp hrun
  refine ⟨by decide +kernel, s, Runs.of_runAll _ _ .start hs, ?_⟩
  split at hrun
  · assumption
  · cases hrun

end OeAware

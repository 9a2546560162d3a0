import OeAware.Common.Message

/-! @src src/common/data_register.cpp | name:Register, DataListSerialize, DataListDeserialize

    Published data is an array of plain pointers; what they point to is known to the codec that was
    registered for the topic, under `instance::topic` or else under `instance`. Neither direction
    looks whether a codec was found: with nothing to encode or decode that goes well, with the first
    element a null function is called. -/

namespace OeAware

/-- The codec of one kind of data: `de` reads one element, as the bytes its `se` writes for it, and
    fails where the function returns something else than `0`. -/
structure RegisterEntry where
  de : InStream → Option Str × InStream

/-- `Register::registerEntry`. -/
abbrev Register := Str → Option RegisterEntry

/-- The lookup of the codec for a topic: `GetDataSerialize` and `GetDataDeserialize` look up the same
    keys, first `instance::topic`, then `instance`. -/
def Register.lookup (reg : Register) (topic : Topic) : Option RegisterEntry :=
  (reg (concat [topic.instanceName, topic.topicName] (str "::"))).or (reg topic.instanceName)

/-- A `std::string` passed on as a `char *` ends at its first `NUL`. -/
def cStr (s : Str) : Str := s.takeWhile (· ≠ 0)

/-- `TopicSerialize`. -/
def topicSerialize (topic : Topic) : Str :=
  serStr topic.instanceName ++ serStr topic.topicName ++ serStr topic.params

/-- `Topic::Deserialize`; `none` when a length makes it throw. -/
def Topic.deserialize (s : InStream) : Option (Topic × InStream) := do
  let (instanceName, s) ← s.readStr
  let (topicName, s) ← s.readStr
  let (params, s) ← s.readStr
  pure (⟨instanceName, topicName, params⟩, s)

/-- Strings that a `std::string` can hold. -/
def Topic.Fits (t : Topic) : Prop :=
  t.instanceName.length ≤ stringMaxSize ∧ t.topicName.length ≤ stringMaxSize ∧
    t.params.length ≤ stringMaxSize

instance (t : Topic) : Decidable t.Fits := inferInstanceAs (Decidable (_ ∧ _ ∧ _))

/-- A topic that was written is read back. -/
theorem deserialize_topic {t : Topic} (h : t.Fits) (rest : Str) :
    Topic.deserialize ⟨serStr t.instanceName ++ serStr t.topicName ++ serStr t.params ++ rest, true⟩ =
      some (t, ⟨rest, true⟩) := by
  obtain ⟨hi, ht, hp⟩ := h
  rw [List.append_assoc, List.append_assoc, Topic.deserialize, readStr_ser _ _ hi]
  simp [readStr_ser _ _ ht, readStr_ser _ _ hp]

/-- A `uint64_t` read into a variable that holds `old`. -/
def InStream.readU64 (s : InStream) (old : ℕ) : ℕ × InStream :=
  let (bytes, s) := s.read (leBytes 8 old)
  (leVal bytes, s)

/-- The longest array of pointers that can be asked for; `new` throws for a longer one. -/
def maxArrayLength : ℕ := 2 ^ 60 - 1

/-- The loop of `DataListDeserialize`. It ends with the first element that cannot be read; the
    pointers from there on are null or uninitialised, `[]` here. -/
def RegisterEntry.readAll (entry : RegisterEntry) : ℕ → InStream → List Str
  | 0, _ => []
  | n + 1, s =>
    match entry.de s with
    | (some x, s) => x :: entry.readAll n s
    | (none, _) => List.replicate (n + 1) []

inductive Decoded where
  | ok (dataList : DataList)
  /-- The codec is a null pointer, and it is called. -/
  | nullCodec
  /-- A length is beyond what can be allocated. -/
  | throws
  deriving DecidableEq

/-- `DataListDeserialize`; `junk` is what the uninitialised `size` holds. -/
def dataListDeserialize (reg : Register) (junk : ℕ) (payload : Str) : Decoded :=
  match Topic.deserialize ⟨payload, true⟩ with
  | none => .throws
  | some (t, s) =>
    let topic : Topic := ⟨cStr t.instanceName, cStr t.topicName, cStr t.params⟩
    let (size, s) := s.readU64 junk
    if maxArrayLength < size then .throws
    else
      match reg.lookup topic with
      | some entry => .ok ⟨topic, entry.readAll size s⟩
      | none => if size = 0 then .ok ⟨topic, []⟩ else .nullCodec

/-- `DataListSerialize` calls a null codec. -/
def DataList.encodesNull (reg : Register) (d : DataList) : Bool :=
  !d.data.isEmpty && (reg.lookup d.topic).isNone

/-! ### What `Main` registers -/

/-- The processors the program is built for. -/
inductive Arch where
  | x86_64 | aarch64 | riscv64
  deriving DecidableEq

/-- The keys that `InitRegisterData` registers. -/
def initRegisterData (arch : Arch) : List Str :=
  (if arch = .riscv64 then ["hwprobe_analysis"] else []).map str ++
  (if arch = .aarch64 ∨ arch = .riscv64 then
    ["pmu_counting_collector", "pmu_sampling_collector", "pmu_spe_collector",
      "pmu_uncore_collector", "smc_d_analysis", "hugepage_analysis", "dynamic_smt_analysis",
      "xcall_analysis", "net_hirq_analysis", "numa_analysis", "microarch_tidnocmp_analysis",
      "docker_coordination_burst_analysis"] else []).map str ++
  ["thread_collector", "kernel_config", "thread_scenario", "command_collector",
    "env_info_collector::static", "env_info_collector::realtime", "env_info_collector::cpu_util",
    "net_interface_info::base", "net_interface_info::driver",
    "net_interface_info::local_net_affinity", "net_hard_irq_tune::net_hardirq_tune_debug_info",
    "net_interface_info::net_thread_que_data"].map str

/-- The registry after `InitRegisterData`, over given codecs. -/
def Register.ofArch (arch : Arch) (entry : Str → RegisterEntry) : Register :=
  fun key => if key ∈ initRegisterData arch then some (entry key) else none

/-! ### When a codec is missing -/

theorem lookup_ofArch (arch : Arch) (entry : Str → RegisterEntry) (t : Topic) :
    ((Register.ofArch arch entry).lookup t).isSome = true ↔
      concat [t.instanceName, t.topicName] (str "::") ∈ initRegisterData arch ∨
        t.instanceName ∈ initRegisterData arch := by
  unfold Register.lookup Register.ofArch
  by_cases h1 : concat [t.instanceName, t.topicName] (str "::") ∈ initRegisterData arch <;>
    by_cases h2 : t.instanceName ∈ initRegisterData arch <;> simp [h1, h2]

end OeAware

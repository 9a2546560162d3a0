import Mathlib.Data.List.Forall2
import OeAware.Data.Plain
import OeAware.Data.Pmu

/-! @src src/common/data_register.cpp |
    name:TopicSerialize, TopicDeserialize, DataListSerialize, DataListDeserialize, InitRegisterData |
    scheme:wire

    A list of data names its topic, and the topic names the codec: `instance::topic` is looked up first,
    `instance` after it. The elements are pointers without a type, so writing them is right only if they
    are of the type that the codec is for. What is read is of the type that the codec of the other
    direction is for; that the two are the same is a property of the table.

        [instanceName][topicName][params][len][x₁]..[xₙ]
              └────── codec ──────┘ -/

namespace OeAware
open Schemes

/-- The types that codecs are registered for. -/
inductive Kind where
  | pmu (p : PmuKind)
  | threadInfo | kernelData | commandData | envStatic | envRealTime | envCpuUtil
  | analysisResultItem | netIntfBase | netIntfDriver | netLocalAffi | netHirqTuneDebug | netThreadQue
  deriving DecidableEq

/-- What the decoders find around them: the secure C library, uninitialised memory, and new arrays of
    records. -/
structure Host (k : Kperf) where
  lib : Securec
  mem : Memory
  old : ∀ p : PmuKind, PmuData k (p.Last k)

namespace Kind
variable {k : Kperf}

def Data (k : Kperf) : Kind → Type
  | .pmu p => PmuList k (p.Last k)
  | .threadInfo => ThreadInfo
  | .kernelData => KernelData
  | .commandData => CommandData
  | .envStatic => EnvStaticInfo
  | .envRealTime => EnvRealTimeInfo
  | .envCpuUtil => EnvCpuUtilParam
  | .analysisResultItem => AnalysisResultItem
  | .netIntfBase => NetIntfBaseDataList
  | .netIntfDriver => NetIntfDriverDataList
  | .netLocalAffi => ProcessNetAffinityDataList
  | .netHirqTuneDebug => NetHirqTuneDebugInfo
  | .netThreadQue => NetThreadQueDataList

/-- The encoder; none if it follows a null pointer. -/
def se : (kind : Kind) → kind.Data k → Option Str
  | .pmu p => p.serialize
  | .threadInfo => fun d => some d.serialize
  | .kernelData => fun d => some d.serialize
  | .commandData => fun d => some d.serialize
  | .envStatic => fun d => some d.serialize
  | .envRealTime => fun d => some d.serialize
  | .envCpuUtil => fun d => some d.serialize
  | .analysisResultItem => fun d => some d.serialize
  | .netIntfBase => fun d => some d.serialize
  | .netIntfDriver => fun d => some d.serialize
  | .netLocalAffi => fun d => some d.serialize
  | .netHirqTuneDebug => fun d => some d.serialize
  | .netThreadQue => fun d => some d.serialize

def de (host : Host k) : (kind : Kind) → Decoder (kind.Data k)
  | .pmu p => p.deserialize host.lib host.mem (host.old p)
  | .threadInfo => ThreadInfo.deserialize host.lib host.mem
  | .kernelData => KernelData.deserialize host.lib
  | .commandData => CommandData.deserialize host.lib
  | .envStatic => EnvStaticInfo.deserialize host.mem
  | .envRealTime => EnvRealTimeInfo.deserialize host.mem
  | .envCpuUtil => EnvCpuUtilParam.deserialize host.mem
  | .analysisResultItem => AnalysisResultItem.deserialize host.lib host.mem
  | .netIntfBase => NetIntfBaseDataList.deserialize host.mem
  | .netIntfDriver => NetIntfDriverDataList.deserialize
  | .netLocalAffi => ProcessNetAffinityDataList.deserialize host.mem
  | .netHirqTuneDebug => NetHirqTuneDebugInfo.deserialize host.lib host.mem
  | .netThreadQue => NetThreadQueDataList.deserialize host.mem

/-- Counts are the lengths of their arrays, strings are C strings, and records have a call stack. -/
def Ok (lib : Securec) : (kind : Kind) → kind.Data k → Prop
  | .pmu p => fun (d : PmuList k (p.Last k)) =>
    d.Ok lib ∧ ∀ r ∈ d.pmuData, r.stack ≠ [] ∧ r.stack.length < 2 ^ 32
  | .threadInfo => ThreadInfo.Ok lib
  | .kernelData => KernelData.Ok lib
  | .commandData => CommandData.Ok lib
  | .envStatic => EnvStaticInfo.Ok
  | .envRealTime => EnvRealTimeInfo.Ok
  | .envCpuUtil => EnvCpuUtilParam.Ok
  | .analysisResultItem => AnalysisResultItem.Ok lib
  | .netIntfBase => NetIntfBaseDataList.Ok
  | .netIntfDriver => NetIntfDriverDataList.Ok
  | .netLocalAffi => ProcessNetAffinityDataList.Ok
  | .netHirqTuneDebug => NetHirqTuneDebugInfo.Ok lib
  | .netThreadQue => NetThreadQueDataList.Ok

/-- Every codec reads back what it has written. -/
theorem reads (host : Host k) : ∀ (kind : Kind) (d : kind.Data k), kind.Ok host.lib d →
    ∃ bytes, kind.se d = some bytes ∧ ReadsAs (kind.de host) bytes d
  | .pmu p, d, h => by
    obtain ⟨bytes, hb, hreads⟩ := p.reads host.lib host.mem (host.old p) h.1
    rw [(PmuList.shown_eq_iff h.1).mpr h.2] at hreads
    exact ⟨bytes, hb, hreads⟩
  | .threadInfo, _, h => ⟨_, rfl, ThreadInfo.reads _ _ h⟩
  | .kernelData, _, h => ⟨_, rfl, KernelData.reads _ h⟩
  | .commandData, _, h => ⟨_, rfl, CommandData.reads _ h⟩
  | .envStatic, _, h => ⟨_, rfl, EnvStaticInfo.reads _ h⟩
  | .envRealTime, _, h => ⟨_, rfl, EnvRealTimeInfo.reads _ h⟩
  | .envCpuUtil, _, h => ⟨_, rfl, EnvCpuUtilParam.reads _ h⟩
  | .analysisResultItem, _, h => ⟨_, rfl, AnalysisResultItem.reads _ _ h⟩
  | .netIntfBase, _, h => ⟨_, rfl, NetIntfBaseDataList.reads _ h⟩
  | .netIntfDriver, _, h => ⟨_, rfl, NetIntfDriverDataList.reads h⟩
  | .netLocalAffi, _, h => ⟨_, rfl, ProcessNetAffinityDataList.reads _ h⟩
  | .netHirqTuneDebug, _, h => ⟨_, rfl, NetHirqTuneDebugInfo.reads _ _ h⟩
  | .netThreadQue, _, h => ⟨_, rfl, NetThreadQueDataList.reads _ h⟩

end Kind

/-! ### The table -/

/-- The codecs of an entry, each known by the type that it is for. -/
structure Codec where
  se : Kind
  de : Kind
  deriving DecidableEq

/-- `AnalysisResultItemSerialize` and `AnalysisResultItemDeserialize`. -/
def analysisCodec : Codec := ⟨.analysisResultItem, .analysisResultItem⟩

/-- `InitRegisterData`: the codecs under the keys of `initRegisterData`. -/
def initRegisterCodecs (arch : Arch) : List (Str × Codec) :=
  (if arch = .riscv64 then [(str "hwprobe_analysis", analysisCodec)] else []) ++
  (if arch = .aarch64 ∨ arch = .riscv64 then
    [(str "pmu_counting_collector", ⟨.pmu .counting, .pmu .counting⟩),
      (str "pmu_sampling_collector", ⟨.pmu .sampling, .pmu .sampling⟩),
      (str "pmu_spe_collector", ⟨.pmu .spe, .pmu .spe⟩),
      (str "pmu_uncore_collector", ⟨.pmu .uncore, .pmu .uncore⟩),
      (str "smc_d_analysis", analysisCodec), (str "hugepage_analysis", analysisCodec),
      (str "dynamic_smt_analysis", analysisCodec), (str "xcall_analysis", analysisCodec),
      (str "net_hirq_analysis", analysisCodec), (str "numa_analysis", analysisCodec),
      (str "microarch_tidnocmp_analysis", analysisCodec),
      (str "docker_coordination_burst_analysis", analysisCodec)] else []) ++
  [(str "thread_collector", ⟨.threadInfo, .threadInfo⟩),
    (str "kernel_config", ⟨.kernelData, .kernelData⟩),
    (str "thread_scenario", ⟨.threadInfo, .threadInfo⟩),
    (str "command_collector", ⟨.commandData, .commandData⟩),
    (str "env_info_collector::static", ⟨.envStatic, .envStatic⟩),
    (str "env_info_collector::realtime", ⟨.envRealTime, .envRealTime⟩),
    (str "env_info_collector::cpu_util", ⟨.envCpuUtil, .envCpuUtil⟩),
    (str "net_interface_info::base", ⟨.netIntfBase, .netIntfBase⟩),
    (str "net_interface_info::driver", ⟨.netIntfDriver, .netIntfDriver⟩),
    (str "net_interface_info::local_net_affinity", ⟨.netLocalAffi, .netLocalAffi⟩),
    (str "net_hard_irq_tune::net_hardirq_tune_debug_info", ⟨.netHirqTuneDebug, .netHirqTuneDebug⟩),
    (str "net_interface_info::net_thread_que_data", ⟨.netThreadQue, .netThreadQue⟩)]

theorem initRegisterCodecs_keys (arch : Arch) :
    (initRegisterCodecs arch).map Prod.fst = initRegisterData arch := by
  cases arch <;> simp [initRegisterCodecs, initRegisterData]

/-- The two codecs of an entry are for the same type. -/
theorem initRegisterCodecs_same (arch : Arch) : ∀ x ∈ initRegisterCodecs arch, x.2.se = x.2.de := by
  cases arch <;> simp [initRegisterCodecs, analysisCodec]

section
variable (arch : Arch)

/-- `GetDataSerialize`. -/
def getDataSerialize (name : Str) : Option Kind := ((initRegisterCodecs arch).lookup name).map Codec.se

/-- `GetDataDeserialize`. -/
def getDataDeserialize (name : Str) : Option Kind :=
  ((initRegisterCodecs arch).lookup name).map Codec.de

/-- The encoder that `DataListSerialize` takes for a topic. -/
def encoderOf (t : Topic) : Option Kind :=
  (getDataSerialize arch (concat [t.instanceName, t.topicName] (str "::"))).or
    (getDataSerialize arch t.instanceName)

/-- The decoder that `DataListDeserialize` takes for a topic. -/
def decoderOf (t : Topic) : Option Kind :=
  (getDataDeserialize arch (concat [t.instanceName, t.topicName] (str "::"))).or
    (getDataDeserialize arch t.instanceName)

end

theorem getData_same (arch : Arch) (name : Str) :
    getDataSerialize arch name = getDataDeserialize arch name := by
  rw [getDataSerialize, getDataDeserialize]
  cases h : (initRegisterCodecs arch).lookup name with
  | none => rfl
  | some c =>
    obtain ⟨l₁, l₂, hl, _⟩ := List.lookup_eq_some_iff.mp h
    exact congrArg some (initRegisterCodecs_same arch (name, c) (by simp [hl]))

/-- Both directions choose the codec of one type. -/
theorem encoderOf_eq (arch : Arch) (t : Topic) : encoderOf arch t = decoderOf arch t := by
  rw [encoderOf, decoderOf, getData_same, getData_same]

/-! ### Lists of data -/

/-- What a pointer of a list points to. -/
structure Element (k : Kperf) where
  kind : Kind
  data : kind.Data k

/-- `DataList`, with the elements themselves. -/
structure Listed (k : Kperf) where
  topic : Topic
  data : List (Element k)

/-- The copies that `TopicDeserialize` makes; it returns at the first that fails, and what it returns is
    not looked at. -/
def Securec.copiedTopic (lib : Securec) (mem : Memory) (t : Topic) : Topic :=
  match lib.strcpy_s (t.instanceName.length + 1) t.instanceName with
  | .error _ => ⟨mem.str, mem.str, mem.str⟩
  | .ok instanceName =>
    match lib.strcpy_s (t.topicName.length + 1) t.topicName with
    | .error _ => ⟨instanceName, mem.str, mem.str⟩
    | .ok topicName => ⟨instanceName, topicName, lib.copied mem t.params⟩

section
variable {k : Kperf} (host : Host k) (arch : Arch)

/-- `TopicDeserialize`. -/
def topicDeserialize : Decoder Topic := do
  let instanceName ← Decoder.string
  let topicName ← Decoder.string
  let params ← Decoder.string
  pure (host.lib.copiedTopic host.mem ⟨instanceName, topicName, params⟩)

/-- `func(dataList->data[i], out)`; none if `func` is null, or is for another type. -/
def writeElement (func : Option Kind) (x : Element k) : Option Str :=
  if func = some x.kind then x.kind.se x.data else none

/-- `func(&(dataList->data[i]), in)`. -/
def readElement : Option Kind → Decoder (Element k)
  | none => fun _ => .error .nullCodec
  | some kind => do
    let data ← kind.de host
    pure ⟨kind, data⟩

/-- `new void* [size]`. -/
def allocPointers (size : UInt64) : Decoder Unit := fun s =>
  if maxArrayLength < size.toNat then .error .throws else .ok ((), s)

/-- `DataListSerialize`. -/
def Listed.serialize (d : Listed k) : Option Str :=
  (d.data.mapM (writeElement (encoderOf arch d.topic))).map
    (fun elements => topicSerialize d.topic ++ serLong (UInt64.ofNat d.data.length) ++ elements.flatten)

/-- `DataListDeserialize`. -/
def Listed.deserialize : Decoder (Listed k) := do
  let topic ← topicDeserialize host
  let size ← Decoder.long host.mem.long
  allocPointers size
  let data ← times (readElement host (decoderOf arch topic)) size.toNat
  pure ⟨topic, data⟩

/-- The parts of the topic are C strings. -/
def TopicOk (lib : Securec) (t : Topic) : Prop :=
  CStr lib t.instanceName ∧ CStr lib t.topicName ∧ CStr lib t.params

/-- A list that an array of pointers can hold, each to data of the type `kind`. -/
structure Listed.Ok (lib : Securec) (kind : Kind) (d : Listed k) : Prop where
  topic : TopicOk lib d.topic
  len : d.data.length ≤ maxArrayLength
  kind : ∀ x ∈ d.data, x.kind = kind
  data : ∀ x ∈ d.data, x.kind.Ok lib x.data

theorem reads_topic {t : Topic} (h : TopicOk host.lib t) :
    ReadsAs (topicDeserialize host) (topicSerialize t) t := by
  obtain ⟨hi, ht, hp⟩ := h
  rw [topicSerialize, List.append_assoc]
  refine hi.reads.bind (ht.reads.bind (hp.reads.andThen ?_))
  simp only [Securec.copiedTopic, host.lib.copies _ hi.1 hi.2, host.lib.copies _ ht.1 ht.2, hp.copied]
  exact Reads.pure _

theorem reads_element {x : Element k} (h : x.kind.Ok host.lib x.data) :
    ∃ bytes, writeElement (some x.kind) x = some bytes ∧
      ReadsAs (readElement host (some x.kind)) bytes x := by
  obtain ⟨bytes, hb, hreads⟩ := x.kind.reads host x.data h
  exact ⟨bytes, by rw [writeElement, if_pos rfl, hb], hreads.andThen (Reads.pure _)⟩

theorem reads_elements {kind : Kind} : ∀ (l : List (Element k)), (∀ x ∈ l, x.kind = kind) →
    (∀ x ∈ l, x.kind.Ok host.lib x.data) →
    ∃ elements, l.mapM (writeElement (some kind)) = some elements ∧
      ReadsAs (times (readElement host (some kind)) l.length) elements.flatten l
  | [], _, _ => ⟨[], rfl, Reads.pure _⟩
  | x :: l, hkind, h => by
    obtain ⟨bytes, hb, hx⟩ := reads_element host (h x (List.mem_cons_self ..))
    rw [hkind x (List.mem_cons_self ..)] at hb hx
    obtain ⟨elements, he, hl⟩ := reads_elements l (fun y hy => hkind y (List.mem_cons_of_mem _ hy))
      (fun y hy => h y (List.mem_cons_of_mem _ hy))
    refine ⟨bytes :: elements, by simp [List.mapM_cons, hb, he], ?_⟩
    exact hx.bind (hl.andThen (Reads.pure _))

end

/-- READ BACK: a list of data whose topic has a codec is written, and reading what was written returns
    the same list, its elements of the same type, and takes exactly those bytes. -/
theorem listed_reads_back {k : Kperf} (host : Host k) (arch : Arch) {kind : Kind} {d : Listed k}
    (hcodec : encoderOf arch d.topic = some kind) (h : d.Ok host.lib kind) :
    ∃ bytes, d.serialize arch = some bytes ∧ decoderOf arch d.topic = some kind ∧
      ReadsAs (Listed.deserialize host arch) bytes d := by
  obtain ⟨elements, he, hl⟩ := reads_elements host d.data h.kind h.data
  have hde : decoderOf arch d.topic = some kind := by rw [← encoderOf_eq, hcodec]
  have hlen : (UInt64.ofNat d.data.length).toNat = d.data.length :=
    UInt64.toNat_ofNat_of_lt' (lt_of_le_of_lt h.len (by decide))
  refine ⟨_, by rw [Listed.serialize, hcodec, he]; rfl, hde, ?_⟩
  simp only [List.append_assoc]
  refine (reads_topic host h.topic).bind ((reads_long _ _).bind ?_)
  have halloc : ReadsAs (allocPointers (UInt64.ofNat d.data.length)) [] () := by
    intro rest
    rw [allocPointers, hlen, if_neg (Nat.not_lt.mpr h.len)]
    rfl
  refine halloc.bind ?_
  rw [hde, hlen]
  exact hl.andThen (Reads.pure _)

def sampleHost : Host sampleKperf where
  lib := sampleSecurec
  mem := sampleMemory
  old
    | .counting | .uncore => sampleRecord [] sampleCounted
    | .sampling => sampleRecord [] ()
    | .spe => sampleRecord [] sampleExt

/-- The times of one CPU, and those of all together. -/
def sampleCpuUtil : EnvCpuUtilParam := ⟨1, 1, [List.replicate 11 4, List.replicate 11 4]⟩

def sampleListed : Listed sampleKperf :=
  ⟨⟨str "env_info_collector", str "cpu_util", []⟩, [⟨.envCpuUtil, sampleCpuUtil⟩]⟩

theorem ok_sampleListed : sampleListed.Ok sampleSecurec .envCpuUtil where
  topic := ⟨⟨by decide, by decide⟩, ⟨by decide, by decide⟩, ⟨by decide, by decide⟩⟩
  len := by decide
  kind x hx := by rw [List.mem_singleton.mp hx]
  data x hx := by
    rw [List.mem_singleton.mp hx]
    refine ⟨rfl, fun row hrow => ?_⟩
    have : row = List.replicate 11 4 := by simpa [sampleCpuUtil] using hrow
    rw [this]
    rfl

/-- CPU times go out and come back, the extra row with them. -/
theorem listed_reads_back_cpu_util :
    encoderOf .x86_64 sampleListed.topic = some .envCpuUtil ∧
      ∃ bytes, sampleListed.serialize .x86_64 = some bytes ∧
        ReadsAs (Listed.deserialize sampleHost .x86_64) bytes sampleListed := by
  have hcodec : encoderOf .x86_64 sampleListed.topic = some .envCpuUtil := by decide
  obtain ⟨bytes, hb, _, hreads⟩ := listed_reads_back sampleHost .x86_64 hcodec ok_sampleListed
  exact ⟨hcodec, bytes, hb, hreads⟩

/-! ### The registry of the plugin manager -/

section
variable {k : Kperf} (host : Host k) (arch : Arch)

/-- A codec where elements are known by their bytes only. -/
def Codec.entry (c : Codec) : RegisterEntry where
  de s :=
    match c.de.de host s with
    | .ok (x, s) => (c.de.se x, s)
    | .error _ => (none, s)

/-- The registry that the plugin manager decodes with. -/
def registry : Register := fun key => ((initRegisterCodecs arch).lookup key).map (Codec.entry host)

/-- It has the keys that are registered. -/
theorem registry_isSome (key : Str) :
    (registry host arch key).isSome = true ↔ key ∈ initRegisterData arch := by
  rw [← initRegisterCodecs_keys, registry, Option.isSome_map, List.lookup_isSome_iff, List.mem_map]
  refine exists_congr (fun x => and_congr_right (fun _ => ?_))
  rw [beq_iff_eq, eq_comm]

theorem lookup_registry (t : Topic) : ∀ {kind : Kind}, decoderOf arch t = some kind →
    ∃ c, c.de = kind ∧ (registry host arch).lookup t = some (Codec.entry host c) := by
  intro kind h
  rw [Register.lookup, registry, registry]
  rw [decoderOf, getDataDeserialize, getDataDeserialize] at h
  cases h₁ : (initRegisterCodecs arch).lookup (concat [t.instanceName, t.topicName] (str "::")) with
  | some c =>
    rw [h₁] at h
    exact ⟨c, by simpa using h, rfl⟩
  | none =>
    rw [h₁] at h
    cases h₂ : (initRegisterCodecs arch).lookup t.instanceName with
    | some c =>
      rw [h₂] at h
      exact ⟨c, by simpa using h, rfl⟩
    | none =>
      rw [h₂] at h
      simp at h

/-- One after the other, the elements are taken off as their bytes. -/
theorem readAll_elements (c : Codec) : ∀ (l : List (Element k)), (∀ x ∈ l, x.kind = c.de) →
    (∀ x ∈ l, x.kind.Ok host.lib x.data) → ∃ elements,
      l.mapM (writeElement (some c.de)) = some elements ∧ elements.length = l.length ∧
        ∀ rest, (c.entry host).readAll l.length ⟨elements.flatten ++ rest, true⟩ = elements
  | [], _, _ => ⟨[], rfl, rfl, fun _ => rfl⟩
  | ⟨kind, x⟩ :: l, hkind, h => by
    have hk : kind = c.de := hkind _ (List.mem_cons_self ..)
    subst hk
    obtain ⟨bytes, hb, hreads⟩ := c.de.reads host x (h _ (List.mem_cons_self ..))
    obtain ⟨elements, he, hlen, hl⟩ := readAll_elements c l
      (fun y hy => hkind y (List.mem_cons_of_mem _ hy)) (fun y hy => h y (List.mem_cons_of_mem _ hy))
    have hw : writeElement (some c.de) ⟨c.de, x⟩ = some bytes := by rw [writeElement, if_pos rfl, hb]
    refine ⟨bytes :: elements, by simp [List.mapM_cons, hw, he], by simp [hlen], fun rest => ?_⟩
    have hde : (c.entry host).de ⟨(bytes :: elements).flatten ++ rest, true⟩ =
        (some bytes, ⟨elements.flatten ++ rest, true⟩) := by
      rw [List.flatten_cons, List.append_assoc, Codec.entry]
      simp only [hreads (elements.flatten ++ rest), hb]
    rw [List.length_cons, RegisterEntry.readAll, hde]
    simp only [hl rest]

/-- The lists that the plugin manager passes on are those the codecs are about: it takes what was
    written for a list as the bytes of the elements. -/
theorem dataListDeserialize_listed {kind : Kind} {d : Listed k}
    (hcodec : encoderOf arch d.topic = some kind) (h : d.Ok host.lib kind) (junk : ℕ) :
    ∃ elements, d.serialize arch = some (DataList.serialize ⟨d.topic, elements⟩) ∧
      dataListDeserialize (registry host arch) junk (DataList.serialize ⟨d.topic, elements⟩) =
        .ok ⟨d.topic, elements⟩ := by
  obtain ⟨c, rfl, hlookup⟩ := lookup_registry host arch d.topic (by rw [← encoderOf_eq, hcodec])
  obtain ⟨elements, he, hlen, hl⟩ := readAll_elements host c d.data h.kind h.data
  have hlt : d.data.length < 2 ^ 64 := lt_of_le_of_lt h.len (by decide)
  obtain ⟨hi, ht, hp⟩ := h.topic
  refine ⟨elements, ?_, ?_⟩
  · rw [Listed.serialize, hcodec, he]
    simp only [Option.map_some, DataList.serialize, topicSerialize, serLong, serSize, hlen]
    rw [UInt64.toNat_ofNat_of_lt' hlt]
  · have hread := deserialize_topic (t := d.topic) ⟨hi.le, ht.le, hp.le⟩
      (serSize elements.length ++ elements.flatten)
    rw [dataListDeserialize, DataList.serialize, List.append_assoc, hread]
    have hsize : InStream.readU64 ⟨serSize d.data.length ++ elements.flatten, true⟩ junk =
        (d.data.length, ⟨elements.flatten, true⟩) := by
      rw [InStream.readU64, serSize, read_append _ _ _ (by simp)]
      simp only [leVal_leBytes, Nat.mod_eq_of_lt (show d.data.length < 256 ^ 8 from hlt)]
    simp only [hsize, cStr_self hi.1, cStr_self ht.1, cStr_self hp.1, hlookup, hlen,
      if_neg (Nat.not_lt.mpr h.len)]
    have := hl []
    rw [List.append_nil] at this
    rw [this]

end

end OeAware

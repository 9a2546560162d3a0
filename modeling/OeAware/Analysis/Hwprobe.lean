import OeAware.Analysis.Instance

/-! @src src/plugin/scenario/analysis/hwprobe/hwprobe_analysis.cpp | name:HwprobeAnalysis |
    scheme:isolation

    The analysis of the RISC-V build reports what the kernel says of the processor. The numbers of the
    keys and of their values are those of the kernel's own header. That there was `Zbb` once, it
    remembers. -/

namespace OeAware
open Schemes

/-- What `<asm/hwprobe.h>` defines. -/
structure HwprobeHeader where
  KEY_MVENDORID : Int64
  KEY_MARCHID : Int64
  KEY_MIMPID : Int64
  KEY_BASE_BEHAVIOR : Int64
  BASE_BEHAVIOR_IMA : UInt64
  KEY_IMA_EXT_0 : Int64
  IMA_FD : UInt64
  IMA_C : UInt64
  IMA_V : UInt64
  EXT_ZBA : UInt64
  EXT_ZBB : UInt64
  EXT_ZBS : UInt64
  KEY_CPUPERF_0 : Int64
  MISALIGNED_UNKNOWN : UInt64
  MISALIGNED_EMULATED : UInt64
  MISALIGNED_SLOW : UInt64
  MISALIGNED_FAST : UInt64
  MISALIGNED_UNSUPPORTED : UInt64

/-- `to_hex`. -/
def to_hex (v : UInt64) : Str := str (String.ofList (Nat.toDigits 16 v.toNat))

def DATA_TYPE_HWPROBE : UInt32 := 4

namespace HwprobeAnalysis

structure State where
  topicStatus : UMap Str (TopicStatus Unit)
  /-- `ExtSupport.zbb`. -/
  zbb : Bool

def init : State := ⟨.empty, false⟩

/-- What `TopicStatus()` makes. -/
def fresh : TopicStatus Unit := { TopicStatus.new () with time := 1 }

def status (s : State) (type : Str) : TopicStatus Unit := (s.topicStatus.find type).getD fresh

/-- What a `Run` reads: the clock, and the name, key and value of each of the keys of the header; or the
    text of the error of the system call. -/
structure Env where
  now : ℤ
  probe : Except Str (List (Str × Int64 × UInt64))

variable (h : HwprobeHeader)

/-- `extension_map`, in the order of the masks. -/
def extension_map : List (UInt64 × String) :=
  [(h.IMA_FD, "F/D (Single/Double Float)"), (h.IMA_C, "C (Compressed)"), (h.IMA_V, "V (Vector)"),
    (h.EXT_ZBA, "Zba (Address Generation)"), (h.EXT_ZBB, "Zbb (Basic Bit-Manipulation)"),
    (h.EXT_ZBS, "Zbs (Single-Bit Operations)")]

def perf_map : List (UInt64 × String) :=
  [(h.MISALIGNED_UNKNOWN, "Unknown"), (h.MISALIGNED_EMULATED, "Emulated (very slow)"),
    (h.MISALIGNED_SLOW, "Slow (slower than byte accesses)"),
    (h.MISALIGNED_FAST, "Fast (faster than byte accesses)"),
    (h.MISALIGNED_UNSUPPORTED, "Unsupported (will fault)")]

/-- `ParseHwprobeNote`, but for the flag that it sets. -/
def parseHwprobeNote (key : Int64) (value : UInt64) : Str :=
  if key = h.KEY_MVENDORID then str "Manufacturer ID "
  else if key = h.KEY_MARCHID then str "Architecture ID"
  else if key = h.KEY_MIMPID then str "Implementation ID"
  else if key = h.KEY_BASE_BEHAVIOR then
    str "Base behavior: " ++ if value &&& h.BASE_BEHAVIOR_IMA ≠ 0
      then str "IMA (Integer, Multiply/Divide, Atomic) " else []
  else if key = h.KEY_IMA_EXT_0 then
    ((extension_map h).filter (fun e => value &&& e.1 ≠ 0)).foldl
      (fun desc e => desc ++ str e.2 ++ str " ") (str "IMA extensions: ")
  else if key = h.KEY_CPUPERF_0 then
    str "Misaligned scalar access performance: " ++
      str ((((perf_map h).find? (fun e => e.1 = value)).map (·.2)).getD "Not specified")
  else str "Unknown key value " ++ to_hex key.toUInt64

/-- And the flag. -/
def setsZbb (key : Int64) (value : UInt64) : Bool :=
  key = h.KEY_IMA_EXT_0 ∧ value &&& h.EXT_ZBB ≠ 0

/-- What there is to say of a processor. -/
def metrics : Except Str (List (Str × Int64 × UInt64)) → List Metric
  | .error errno => [⟨DATA_TYPE_HWPROBE, str "syscall", str "failed", errno⟩]
  | .ok pairs => (pairs.filter (fun p => p.2.2 ≠ 0)).map (fun p =>
      ⟨DATA_TYPE_HWPROBE, p.1, str "0x" ++ to_hex p.2.2, parseHwprobeNote h p.2.1 p.2.2⟩)

/-- `ExtSupport.zbb` after `Analysis`. -/
def zbb (env : Env) (s : State) : Bool :=
  match env.probe with
  | .error _ => s.zbb
  | .ok pairs => s.zbb || (pairs.filter (fun p => p.2.2 ≠ 0)).any (fun p => setsZbb h p.2.1 p.2.2)

def analysis (env : Env) (s : State) : AnalysisResultItem :=
  let conclusion := str "RISC-V hwprobe analysis finished."
  if zbb h env s then
    createAnalysisResultItem (metrics h env.probe)
      (conclusion ++
        str " Hardware supports Zbb extension. Enabling hwprobe_ext_zbb_tune is recommended.")
      (some ⟨str "Zbb extension detected, enable tuning for better performance",
        str "oeawarectl -e hwprobe_ext_zbb_tune",
        str "This enables optimized utilization of Zbb bit-manipulation instructions."⟩)
  else createAnalysisResultItem (metrics h env.probe) conclusion none

def openTopic (topic : Topic) (env : Env) (s : State) :
    State × Result × List (Effect AnalysisResultItem) :=
  if topic.topicName ≠ str "hwprobe_analysis" then (s, notSupport topic, [])
  else
    let status := { status s topic.getType with isOpen := true, beginTime := env.now }
    ({ s with topicStatus := s.topicStatus.insert topic.getType (status.setTime topic.params) },
      resultOk, [])

def closeTopic (topic : Topic) (s : State) : State × List (Effect AnalysisResultItem) :=
  let status := { status s topic.getType with isOpen := false, isPublish := false }
  ({ s with topicStatus := s.topicStatus.insert topic.getType status }, [])

def disable (s : State) : State × List (Effect AnalysisResultItem) :=
  ({ s with topicStatus := .empty }, [.free])

/-- The body of the loop in `Run`. -/
def runTopic (env : Env) (type : Str) (s : State) : State × List (Effect AnalysisResultItem) :=
  if (status s type).due env.now then
    (⟨s.topicStatus.insert type (status s type).reported, zbb h env s⟩,
      [.write (analysis h env s), .publish (publishTopic type)])
  else (s, [])

def runTopics (env : Env) : List Str → State → State × List (Effect AnalysisResultItem)
  | [], s => (s, [])
  | type :: types, s =>
    let r := runTopic h env type s
    let r' := runTopics env types r.1
    (r'.1, r.2 ++ r'.2)

def run (env : Env) (s : State) : State × List (Effect AnalysisResultItem) :=
  runTopics h env s.topicStatus.keys s

end HwprobeAnalysis

/-- `HwprobeAnalysis`. -/
@[reducible] def hwprobeAnalysis (h : HwprobeHeader) : AnalysisInstance where
  State := HwprobeAnalysis.State
  Env := HwprobeAnalysis.Env
  Data := Unit
  name := str "hwprobe_analysis"
  init := HwprobeAnalysis.init
  openTopic := HwprobeAnalysis.openTopic
  closeTopic := HwprobeAnalysis.closeTopic
  updateData _ s := s
  disable := HwprobeAnalysis.disable
  run := HwprobeAnalysis.run h

end OeAware

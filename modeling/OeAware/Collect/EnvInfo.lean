import Mathlib.Data.UInt
import OeAware.Data.Plain
import OeAware.Manager.State
import OeAware.Schemes.Pointers

/-! @src src/plugin/collect/system/env_info.cpp | name:EnvInfo | scheme:pointers

    The collector has one structure for each of its topics and publishes a pointer to it. `Run` fills
    `realtime` and `cpu_util` anew each time, `CloseTopic` gives back what they hold; `static` is filled
    by `Enable` and emptied by `Disable`.

        Run ──▶ write realtime · post [realtime] ──▶ write cpu_util · post [cpu_util] -/

namespace OeAware
open Schemes

namespace EnvInfo

/-- The structures that messages point to. -/
inductive Buffer where
  | envStaticInfo
  | envRealTimeInfo
  | envCpuUtilInfo
  deriving DecidableEq

inductive Info where
  | static (info : EnvStaticInfo)
  | realtime (info : EnvRealTimeInfo)
  | cpuUtil (info : EnvCpuUtilParam)
  deriving DecidableEq

def ENV_DATA_NOT_READY : UInt32 := 0
def ENV_DATA_READY : UInt32 := 1
def CPU_TIME_SUM : ℕ := 10

def OE_ENV_INFO : Str := str "env_info_collector"

/-- `topicStr`, each with its structure. -/
def topicStr : List (Str × Buffer) :=
  [(str "static", .envStaticInfo), (str "realtime", .envRealTimeInfo), (str "cpu_util", .envCpuUtilInfo)]

structure State where
  /-- `topicParams[name].open`. -/
  topicParams : Str → Bool
  envStaticInfo : EnvStaticInfo
  envRealTimeInfo : EnvRealTimeInfo
  envCpuUtilInfo : EnvCpuUtilParam
  cpuTime : List (List UInt64)

def init : State := ⟨fun _ => false, ⟨0, 0, 0, 0, [], []⟩, ⟨0, 0, 0, []⟩, ⟨0, 0, []⟩, []⟩

/-- What the system says when the collector is enabled; `cpu2Node` and `numaDistance` are as filled in. -/
structure StaticEnv where
  numaNum : Int32
  cpuNumConfig : Int32
  pageSize : Int32
  cpu2Node : List UInt32
  numaDistance : List (List UInt32)

/-- What is found when a topic is opened: new arrays hold anything, and `UpdateProcStat` reads the times of
    the CPUs, as far as it gets. -/
structure OpenEnv where
  cpuOnLine : List UInt32
  times : List (List UInt64)
  procStat : List (List UInt64) → List (List UInt64) × Bool

/-- And what `Run` finds. -/
structure RunEnv where
  cpuNumOnline : Int32
  onlineCpus : Option (List ℕ)
  procStat : List (List UInt64) → List (List UInt64) × Bool

abbrev Deeds : Type := List (Deed Buffer Info Topic)

def writeStatic (s : State) : Deed Buffer Info Topic :=
  .write .envStaticInfo (some (.static s.envStaticInfo))

def writeRealtime (s : State) : Deed Buffer Info Topic :=
  .write .envRealTimeInfo (some (.realtime s.envRealTimeInfo))

def writeCpuUtil (s : State) : Deed Buffer Info Topic :=
  .write .envCpuUtilInfo (some (.cpuUtil s.envCpuUtilInfo))

/-- `GetPageMask`. -/
def getPageMask (pageSize : Int32) : UInt64 :=
  if pageSize > 0 then ~~~(UInt64.ofNat pageSize.toNatClampNeg - 1) else ~~~0xFFF

/-- `Enable`, which is `InitEnvStaticInfo`. -/
def enable (env : StaticEnv) (s : State) : State × Deeds :=
  let info := { s.envStaticInfo with
    numaNum := env.numaNum.toUInt32, cpuNumConfig := env.cpuNumConfig.toUInt32 }
  let info :=
    if env.numaNum < 0 ∨ env.cpuNumConfig ≤ 0 then info
    else { info with
      pageSize := env.pageSize.toUInt32
      pageMask := getPageMask env.pageSize
      cpu2Node := env.cpu2Node
      numaDistance := env.numaDistance }
  let s := { s with envStaticInfo := info }
  (s, [writeStatic s])

/-- `Disable`, which is `ResetEnvStaticInfo`. -/
def disable (s : State) : State × Deeds :=
  let s := { s with envStaticInfo := ⟨0, 0, 0, 0, [], []⟩ }
  (s, [writeStatic s])

/-- `InitEnvRealTimeInfo`. -/
def initEnvRealTimeInfo (env : OpenEnv) (s : State) : State :=
  { s with envRealTimeInfo := ⟨ENV_DATA_NOT_READY, s.envStaticInfo.cpuNumConfig, 0, env.cpuOnLine⟩ }

/-- `InitEnvCpuUtilInfo`. -/
def initEnvCpuUtilInfo (env : OpenEnv) (s : State) : State :=
  let cpuTime := List.replicate (s.envStaticInfo.cpuNumConfig.toNat + 1) (List.replicate CPU_TIME_SUM 0)
  { s with
    envCpuUtilInfo := { s.envCpuUtilInfo with
      cpuNumConfig := s.envStaticInfo.cpuNumConfig, times := env.times }
    cpuTime := (env.procStat cpuTime).1 }

/-- `OpenTopic`, when the topic is one of the collector's own and not open. -/
def openNew (name : Str) (b : Buffer) (env : OpenEnv) (s : State) : State × Deeds :=
  let s := { s with topicParams := Function.update s.topicParams name true }
  match b with
  | .envStaticInfo => (s, [])
  | .envRealTimeInfo => (initEnvRealTimeInfo env s, [writeRealtime (initEnvRealTimeInfo env s)])
  | .envCpuUtilInfo => (initEnvCpuUtilInfo env s, [writeCpuUtil (initEnvCpuUtilInfo env s)])

def openTopic (topic : Topic) (env : OpenEnv) (s : State) : State × Deeds :=
  if topic.instanceName ≠ OE_ENV_INFO ∨ topic.params ≠ [] then (s, [])
  else
    match topicStr.lookup topic.topicName with
    | none => (s, [])
    | some b => if s.topicParams topic.topicName then (s, []) else openNew topic.topicName b env s

def closeTopic (topic : Topic) (s : State) : State × Deeds :=
  if ¬ s.topicParams topic.topicName then (s, [])
  else
    let s := { s with topicParams := Function.update s.topicParams topic.topicName false }
    match topicStr.lookup topic.topicName with
    | some .envRealTimeInfo =>
      let s := { s with envRealTimeInfo := ⟨ENV_DATA_NOT_READY, 0, 0, []⟩ }
      (s, [writeRealtime s])
    | some .envCpuUtilInfo =>
      let s := { s with envCpuUtilInfo := ⟨ENV_DATA_NOT_READY, 0, []⟩ }
      (s, [writeCpuUtil s])
    | _ => (s, [])

/-- `GetEnvRealtimeInfo`. -/
def getEnvRealtimeInfo (env : RunEnv) (s : State) : State :=
  let info := { s.envRealTimeInfo with cpuNumOnline := env.cpuNumOnline.toUInt32 }
  let info :=
    if env.cpuNumOnline ≤ 0 ∨ env.cpuNumOnline > s.envStaticInfo.cpuNumConfig.toInt32 then
      { info with dataReady := ENV_DATA_NOT_READY }
    else
      match env.onlineCpus with
      | none => { info with dataReady := ENV_DATA_NOT_READY }
      | some onlineCpus => { info with
          dataReady := ENV_DATA_READY
          cpuOnLine := onlineCpus.foldl (fun cpuOnLine cpu => cpuOnLine.set cpu 1)
            (List.replicate info.cpuNumConfig.toNat 0) }
  { s with envRealTimeInfo := info }

/-- One row of `UpdateCpuDiffTime`, the sum at its end. -/
def diffRow (old new : List UInt64) : List UInt64 :=
  let diff := List.zipWith (· - ·) new old
  diff ++ [diff.sum]

/-- `GetEnvCpuUtilInfo`. -/
def getEnvCpuUtilInfo (env : RunEnv) (s : State) : State :=
  let r := env.procStat s.cpuTime
  let rows := (List.zipWith diffRow s.cpuTime r.1).take (s.envStaticInfo.cpuNumConfig.toNat + 1)
  { s with
    cpuTime := r.1
    envCpuUtilInfo := { s.envCpuUtilInfo with
      dataReady := if r.2 then ENV_DATA_READY else ENV_DATA_NOT_READY
      times := rows ++ s.envCpuUtilInfo.times.drop rows.length } }

/-- The body of the loop in `Run`. -/
def runTopic (env : RunEnv) (name : Str) (b : Buffer) (s : State) : State × Deeds :=
  let topic : Topic := ⟨OE_ENV_INFO, name, []⟩
  if ¬ s.topicParams name then (s, [])
  else
    match b with
    | .envStaticInfo => (s, [.post topic [.envStaticInfo]])
    | .envRealTimeInfo =>
      let s := getEnvRealtimeInfo env s
      (s, [writeRealtime s, .post topic [.envRealTimeInfo]])
    | .envCpuUtilInfo =>
      let s := getEnvCpuUtilInfo env s
      (s, [writeCpuUtil s, .post topic [.envCpuUtilInfo]])

def runTopics (env : RunEnv) : List (Str × Buffer) → State → State × Deeds
  | [], s => (s, [])
  | (name, b) :: topics, s =>
    let r := runTopic env name b s
    let r' := runTopics env topics r.1
    (r'.1, r.2 ++ r'.2)

inductive Call where
  | enable (env : StaticEnv)
  | disable
  | openTopic (topic : Topic) (env : OpenEnv)
  | closeTopic (topic : Topic)
  | run (env : RunEnv)

def call : Call → State → State × Deeds
  | .enable env => enable env
  | .disable => disable
  | .openTopic topic env => openTopic topic env
  | .closeTopic topic => closeTopic topic
  | .run env => runTopics env topicStr

end EnvInfo

/-- `EnvInfo`. -/
@[reducible] def envInfo : Sender where
  State := EnvInfo.State
  Call := EnvInfo.Call
  Cell := EnvInfo.Buffer
  Content := EnvInfo.Info
  Topic := Topic
  init := EnvInfo.init
  content
    | .envStaticInfo => some (.static EnvInfo.init.envStaticInfo)
    | .envRealTimeInfo => some (.realtime EnvInfo.init.envRealTimeInfo)
    | .envCpuUtilInfo => some (.cpuUtil EnvInfo.init.envCpuUtilInfo)
  call := EnvInfo.call

namespace EnvInfo

/-- No message is waiting that points to what the topic publishes, if that is ever filled anew. -/
def Unread (x : envInfo.Sending) (name : Str) : Prop :=
  ∀ b, topicStr.lookup name = some b → b ≠ .envStaticInfo → x.mail.Unread b

/-- The calls that fill nothing anew that a message is waiting for. -/
def Allowed (x : envInfo.Sending) : Call → Prop
  | .enable _ | .disable => x.mail.Unread .envStaticInfo
  | .openTopic topic _ => topic.instanceName = OE_ENV_INFO → topic.params = [] →
    x.inst.topicParams topic.topicName = false → Unread x topic.topicName
  | .closeTopic topic => x.inst.topicParams topic.topicName = true → Unread x topic.topicName
  | .run _ => ∀ e ∈ topicStr, x.inst.topicParams e.1 = true → Unread x e.1

variable {mail : Mail Buffer Info Topic}

theorem topicParams_runTopic (env : RunEnv) (name : Str) (b : Buffer) (s : State) :
    (runTopic env name b s).1.topicParams = s.topicParams := by
  unfold runTopic
  split
  · rfl
  · cases b <;> rfl

theorem gentle_runTopic (env : RunEnv) {name : Str} {b : Buffer} {s : State}
    (h : s.topicParams name = true → b ≠ .envStaticInfo → mail.Unread b) :
    mail.GentleAll (runTopic env name b s).2 := by
  unfold runTopic
  split
  · trivial
  · rename_i hopen
    have h := h (not_not.mp hopen)
    cases b with
    | envStaticInfo => exact ⟨trivial, trivial⟩
    | envRealTimeInfo => exact ⟨h nofun, trivial, trivial⟩
    | envCpuUtilInfo => exact ⟨h nofun, trivial, trivial⟩

/-- A topic posts pointers to its own structure only. -/
theorem unread_runTopic (env : RunEnv) (name : Str) {b b' : Buffer} (hne : b' ≠ b) (s : State) :
    (mail.performAll (runTopic env name b s).2).Unread b' ↔ mail.Unread b' := by
  unfold runTopic
  split
  · rfl
  · cases b <;> simp [Mail.performAll, writeRealtime, writeCpuUtil, hne]

theorem gentle_runTopics (env : RunEnv) : ∀ (topics : List (Str × Buffer)) (s : State)
    (mail : Mail Buffer Info Topic), (topics.map Prod.snd).Nodup →
    (∀ e ∈ topics, s.topicParams e.1 = true → e.2 ≠ .envStaticInfo → mail.Unread e.2) →
    mail.GentleAll (runTopics env topics s).2
  | [], _, _, _, _ => trivial
  | (name, b) :: topics, s, mail, hnd, h => by
    rw [List.map_cons, List.nodup_cons] at hnd
    refine (Mail.gentleAll_append ..).mpr ⟨gentle_runTopic env (h (name, b) List.mem_cons_self), ?_⟩
    refine gentle_runTopics env topics _ _ hnd.2 (fun e he hopen hb => ?_)
    rw [topicParams_runTopic] at hopen
    have hne : e.2 ≠ b := fun heq => hnd.1 (List.mem_map.mpr ⟨e, he, heq⟩)
    exact (unread_runTopic env name hne s).mpr (h e (List.mem_cons_of_mem _ he) hopen hb)

theorem careful : Sender.Careful (P := envInfo) Allowed := by
  intro x c hc
  cases c with
  | enable env => exact ⟨hc, trivial⟩
  | disable => exact ⟨hc, trivial⟩
  | openTopic topic env =>
    simp only [call, openTopic]
    split
    · trivial
    · rename_i hown
      obtain ⟨hname, hparams⟩ := not_or.mp hown
      split
      · trivial
      · rename_i b hb
        split
        · trivial
        · rename_i hopen
          have hu := hc (not_not.mp hname) (not_not.mp hparams) (Bool.eq_false_iff.mpr hopen) b hb
          cases b with
          | envStaticInfo => trivial
          | envRealTimeInfo => exact ⟨hu nofun, trivial⟩
          | envCpuUtilInfo => exact ⟨hu nofun, trivial⟩
  | closeTopic topic =>
    simp only [call, closeTopic]
    split
    · trivial
    · rename_i hopen
      have hu := hc (not_not.mp hopen)
      split
      · rename_i hb
        exact ⟨hu _ hb nofun, trivial⟩
      · rename_i hb
        exact ⟨hu _ hb nofun, trivial⟩
      · trivial
  | run env =>
    have hown : ∀ e ∈ topicStr, topicStr.lookup e.1 = some e.2 := by decide
    exact gentle_runTopics env topicStr _ _ (by decide)
      (fun e he hopen hb => hc e he hopen e.2 (hown e he) hb)

end EnvInfo
end OeAware

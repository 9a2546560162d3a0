import OeAware.Analysis.Instance
import OeAware.Common.Numbers
import OeAware.Schemes.Restore
import OeAware.Schemes.Run
import OeAware.System.CpuNodes

/-! @src src/plugin/tune/system/network/hardirq_tune/hardirq_tune.cpp, src/common/utils.cpp |
    name:NetHardIrq, IrqSetSmpAffinity, IrqGetSmpAffinity | scheme:run, restore

    `Enable` notes where each interrupt may be served and stops `irqbalance`; every `Run` binds interrupts of busy
    queues to one CPU each; `Disable` writes back what was noted, for those that have been bound.

        Enable   smp_affinity_list ──▶ originAffinity     irqbalance ──▶ irqbalanceStatus, stop
        Run      netQueue ──▶ irqId ──▶ smp_affinity_list      isTuned
        Disable  originAffinity ──▶ smp_affinity_list     irqbalanceStatus ──▶ start

    What the system answers is part of each call. Both ways of counting the packets of a queue come down to adding
    to `numaRxTimes`, and what they add is given. -/

namespace OeAware
open Schemes

namespace NetHardIrq

/-! ### State -/

def INVAILD_IRQ_ID : ℤ := -1

/-- What `smp_affinity_list` of each interrupt says, nothing where it cannot be opened, and whether `irqbalance` is
    active. -/
@[ext] structure Machine where
  smpAffinity : ℤ → Str
  irqbalance : Bool

/-- What is used of a CPU's times. -/
structure CpuTimes where
  idle : ℕ
  irq : ℕ
  softirq : ℕ
  sum : ℕ

/-- An entry of the source's `irqInfo` is what `originAffinity` and `core.irqInfo` say of it; one that the latter
    has not is not tuned. In the same way `numaRxTimes` is kept beside the queues. -/
structure Tuner where
  core : State
  numaRxTimes : Str → ℤ → List ℤ
  cpuTimeDiff : List CpuTimes
  originAffinity : ℤ → Str
  irqbalanceStatus : Bool
  highNoiseSample : Bool
  showVerbose : Bool
  envInit : Bool
  subscribeTopics : List Topic

def Tuner.new : Tuner where
  core := ⟨.empty, .empty, 0, [], []⟩
  numaRxTimes := fun _ _ => []
  cpuTimeDiff := []
  originAffinity := fun _ => []
  irqbalanceStatus := false
  highNoiseSample := false
  showVerbose := false
  envInit := false
  subscribeTopics := []

variable (t : Tuner) (m : Machine)

/-! ### Enable -/

/-- `IrqSetSmpAffinity`, where the system takes what is written or does not; whether all went well. -/
def irqSetSmpAffinity (irqNum : ℤ) (preferredCpu : Str) (taken : Bool) (m : Machine) : Machine × Bool :=
  if irqNum < 0 then (m, false)
  else if taken then ({ m with smpAffinity := Function.update m.smpAffinity irqNum preferredCpu }, true)
  else (m, false)

/-- `Init`, with the numbers that `/proc/irq` lists. -/
def init (listed : List ℕ) : Tuner :=
  { t with
    showVerbose := false
    originAffinity := fun irqNum =>
      if 0 ≤ irqNum ∧ irqNum.toNat ∈ listed then m.smpAffinity irqNum else t.originAffinity irqNum }

def resolveNetdata (paramsMap : UMap Str Str) : Tuner :=
  match paramsMap.find (str "netdata") with
  | some type =>
    if type = str "thread_recv_que" then { t with highNoiseSample := false }
    else if type = str "skb_copy" then { t with highNoiseSample := true }
    -- another type is only logged
    else t
  | none => t

def resolveCmd (param : Str) : Tuner × Bool :=
  if param = [] then (t, true)
  else
    let paramsMap := getKeyValueFromString param
    if ¬ paramsMap.keys.all (fun key => key = str "netdata" ∨ key = str "verbose") then (t, false)
    else
      match paramsMap.find (str "verbose") with
      | some verbose =>
        if verbose = str "on" then (resolveNetdata { t with showVerbose := true } paramsMap, true)
        else if verbose = str "off" then (resolveNetdata { t with showVerbose := false } paramsMap, true)
        else (t, false)
      | none => (resolveNetdata t paramsMap, true)

/-- What `Enable` subscribes to. -/
def topics (highNoiseSample : Bool) : List Topic :=
  [⟨str "env_info_collector", str "static", []⟩, ⟨str "env_info_collector", str "cpu_util", []⟩,
    ⟨str "net_interface_info", str "base", str "operstate_up"⟩,
    ⟨str "net_interface_info", str "driver", str "operstate_up"⟩] ++
  if highNoiseSample then
    [⟨str "pmu_sampling_collector", str "skb:skb_copy_datagram_iovec", []⟩,
      ⟨str "pmu_sampling_collector", str "net:napi_gro_receive_entry", []⟩]
  else
    [⟨str "net_interface_info", str "net_thread_que_data", str "thread_recv_que_cnt"⟩,
      ⟨str "pmu_sampling_collector", str "cycles", []⟩]

/-- What `/proc/irq` lists, whether the configuration can be read, `systemctl` can be asked, and stops the service. -/
structure EnableEnv where
  listed : List ℕ
  conf : Bool
  asked : Bool
  stopped : Bool

/-- `Enable`: the state, the machine, and whether it has succeeded. -/
def enable (param : Str) (env : EnableEnv) : Tuner × Machine × Bool :=
  let t := init { t with irqbalanceStatus := false } m env.listed
  let (t, resolved) := resolveCmd t param
  if ¬ resolved then (t, m, false)
  else if ¬ env.conf then (t, m, false)
  else
    let t := { t with irqbalanceStatus := env.asked && m.irqbalance, subscribeTopics := topics t.highNoiseSample }
    let m := if t.irqbalanceStatus then { m with irqbalance := m.irqbalance && !env.stopped } else m
    (t, m, true)

/-! ### Run -/

/-- `UpdateSystemInfo` with the topic `static`, which counts once. -/
def updateStatic (data : EnvStaticInfo) : Option Tuner :=
  if t.envInit then some t
  else (updateSystemInfo data t.core).map (fun core => { t with core := core, envInit := true })

/-- `UpdateCpuInfo`, with a row for each CPU and one for all of them. There is no result where it reads beyond. -/
def updateCpuInfo (times : List CpuTimes) : Option Tuner :=
  if t.cpuTimeDiff.length ≤ times.length then some { t with cpuTimeDiff := times } else none

def calCpuUtil : Tuner :=
  let util : ℕ → ℕ → ℚ := fun time sum => if sum = 0 then 0 else (time * 100 : ℚ) / sum
  { t with core := { t.core with
      cpuUtil := t.cpuTimeDiff.map (fun c => ⟨util c.idle c.sum, util c.irq c.sum, util c.softirq c.sum⟩) } }

/-- Packets of a queue that have been read on a node. -/
structure Received where
  dev : Str
  queueId : ℤ
  node : ℕ
  times : ℤ

/-- `QueueInfo &info = netQueue[dev][queueId]`, and what is counted there. -/
def receive (r : Received) : Option Tuner :=
  let queues := (t.core.netQueue.find r.dev).getD .empty
  let info := (queues.find r.queueId).getD .new
  let rx := t.numaRxTimes r.dev r.queueId
  let rx := rx ++ List.replicate (t.core.numaNum - rx.length) 0
  if r.node < rx.length then
    some { t with
      core := { t.core with netQueue := t.core.netQueue.insert r.dev (queues.insert r.queueId info) }
      numaRxTimes := fun dev queueId =>
        if dev = r.dev ∧ queueId = r.queueId then rx.modify r.node (· + r.times) else t.numaRxTimes dev queueId }
  else none

/-- `AddIrqToQueueInfo`, where `eth` has `que2Irq` of each device. -/
def addIrqToQueueInfo (eth : UMap Str (UMap ℤ ℤ)) : Tuner :=
  { t with core := { t.core with netQueue := t.core.netQueue.mapVal (fun dev queues =>
      match eth.find dev with
      | none => queues
      | some que2Irq => queues.mapVal (fun queueId info =>
        match que2Irq.find queueId with
        | none => info
        | some irqId => { info with irqId := irqId, queueId := queueId })) } }

def clearInvalidQueueInfo : Tuner :=
  let netQueue := (t.core.netQueue.mapVal
    (fun _ queues => queues.keep (fun _ info => info.irqId ≠ INVAILD_IRQ_ID))).keep (fun _ queues => queues.keys ≠ [])
  { t with
    core := { t.core with netQueue := netQueue }
    numaRxTimes := fun dev queueId =>
      if ((netQueue.find dev).bind (·.find queueId)).isSome then t.numaRxTimes dev queueId else [] }

/-- The last of the nodes with the most packets. -/
def maxNode (numaRxTimes : List ℤ) : ℕ :=
  (numaRxTimes.zipIdx.foldl (fun (best : ℕ × ℤ) x => if best.2 ≤ x.1 then (x.2, x.1) else best) (0, 0)).1

def tunePreprocessing : Tuner :=
  { t with core := { t.core with netQueue := t.core.netQueue.mapVal (fun dev queues => queues.mapVal (fun queueId info =>
      { info with
        rxSum := (t.numaRxTimes dev queueId).sum
        rxMaxNode := maxNode (t.numaRxTimes dev queueId) })) } }

/-- `Tune`, and what it binds. -/
def tune (eth : UMap Str (UMap ℤ ℤ)) (choice : Choice) : Option (List NewBind × Tuner) := do
  let t := tunePreprocessing (clearInvalidQueueInfo (addIrqToQueueInfo t eth))
  let (binds, core) ← migrateHardIrq t.core choice
  return (binds, { t with core := core })

/-- `ResetNetQueue` and `ResetCpuInfo`. -/
def reset : Tuner :=
  { t with
    numaRxTimes := fun dev queueId => (t.numaRxTimes dev queueId).map (fun _ => 0)
    cpuTimeDiff := t.cpuTimeDiff.map (fun _ => ⟨0, 0, 0, 0⟩) }

/-- What has been received since the last run, which interrupt is that of which queue, and what is left open. -/
structure RunEnv where
  received : List Received
  ethQueData : UMap Str (UMap ℤ ℤ)
  choice : Choice

/-- `Run`: nothing before the nodes of the CPUs are known. -/
def run (env : RunEnv) : Option (List NewBind × Tuner) := do
  if ¬ t.envInit then return ([], t)
  let t ← env.received.foldlM receive (calCpuUtil t)
  let (binds, t) ← tune t env.ethQueData env.choice
  return (binds, reset t)

/-- What is bound is written. -/
def bindAll (m : Machine) (binds : List NewBind) : Machine :=
  binds.foldl (fun m b => (irqSetSmpAffinity b.irqId (toStr b.cpu) true m).1) m

/-! ### Disable -/

structure DisableEnv where
  started : Bool
  taken : ℤ → Bool

/-- The interrupts that have been bound. -/
def tuned : List ℤ := t.core.irqInfo.keys.filter (fun irq => (t.core.irqInfo.find irq).any (·.isTuned))

def disable (env : DisableEnv) : Tuner × Machine :=
  let m := if t.irqbalanceStatus then { m with irqbalance := m.irqbalance || env.started } else m
  let m := (tuned t).foldl (fun m irq => (irqSetSmpAffinity irq (t.originAffinity irq) (env.taken irq) m).1) m
  ({ t with
      core := { t.core with netQueue := .empty, irqInfo := .empty, cpu2Numa := [] }
      numaRxTimes := fun _ _ => []
      originAffinity := fun _ => []
      envInit := false
      subscribeTopics := []
      highNoiseSample := false }, m)

/-! ### Runs -/

/-- The tuning on its machine, whether it is enabled, and what it is subscribed to. -/
structure World where
  tuner : Tuner
  machine : Machine
  enabled : Bool
  subscribed : List Topic

def World.new (m : Machine) : World := ⟨.new, m, false, []⟩

inductive Act where
  | enable (param : Str) (env : EnableEnv)
  | updateStatic (data : EnvStaticInfo)
  | updateCpuUtil (times : List CpuTimes)
  | run (env : RunEnv)
  | disable (env : DisableEnv)

def step (w : World) : Act → Except Unit World
  | .enable param env =>
    let (t, m, ok) := enable w.tuner w.machine param env
    .ok ⟨t, m, w.enabled || ok, if ok then w.subscribed ++ t.subscribeTopics else w.subscribed⟩
  | .updateStatic data =>
    match updateStatic w.tuner data with
    | none => .error ()
    | some t => .ok { w with tuner := t }
  | .updateCpuUtil times =>
    match updateCpuInfo w.tuner times with
    | none => .error ()
    | some t => .ok { w with tuner := t }
  | .run env =>
    match run w.tuner env with
    | none => .error ()
    | some (binds, t) => .ok { w with tuner := t, machine := bindAll w.machine binds }
  | .disable env =>
    let (t, m) := disable w.tuner w.machine env
    .ok ⟨t, m, false, w.tuner.subscribeTopics.foldl (fun l topic => l.erase topic) w.subscribed⟩

/-- An interrupt of the machine. -/
def IsIrq (irqs : List ℕ) (irqId : ℤ) : Prop := 0 ≤ irqId ∧ irqId.toNat ∈ irqs

instance decidableIsIrq (irqs : List ℕ) (irqId : ℤ) : Decidable (IsIrq irqs irqId) :=
  inferInstanceAs (Decidable (0 ≤ irqId ∧ irqId.toNat ∈ irqs))

/-- `Enable` and `Disable` take turns, and the tuning runs in between; the machine has these interrupts all the time,
    and takes what is written back. -/
def Orderly (irqs : List ℕ) (w : World) : Act → Prop
  | .enable _ env => w.enabled = false ∧ ∀ irq ∈ irqs, irq ∈ env.listed
  | .run env => w.enabled = true ∧ ∀ que2Irq ∈ env.ethQueData.values, ∀ irqId ∈ que2Irq.values, IsIrq irqs irqId
  | .disable env => w.enabled = true ∧ env.started = true ∧ ∀ irq ∈ irqs, env.taken irq = true
  | _ => True

instance decidableOrderly (irqs : List ℕ) (w : World) : ∀ act, Decidable (Orderly irqs w act)
  | .enable _ env => inferInstanceAs (Decidable (w.enabled = false ∧ ∀ irq ∈ irqs, irq ∈ env.listed))
  | .run env => inferInstanceAs (Decidable (w.enabled = true ∧
      ∀ que2Irq ∈ env.ethQueData.values, ∀ irqId ∈ que2Irq.values, IsIrq irqs irqId))
  | .disable env => inferInstanceAs (Decidable (w.enabled = true ∧ env.started = true ∧
      ∀ irq ∈ irqs, env.taken irq = true))
  | .updateStatic _ => isTrue trivial
  | .updateCpuUtil _ => isTrue trivial

/-- The CPU an interrupt has been bound to. -/
def boundTo (irqInfo : UMap ℤ IrqInfo) (irqId : ℤ) : Option ℤ :=
  ((irqInfo.find irqId).filter (·.isTuned)).map (·.lastAffinity)

/-- What the interrupts are to say: the CPUs they are bound to, and what they said before. -/
def affinities (m : Machine) (irqInfo : UMap ℤ IrqInfo) (irqId : ℤ) : Str :=
  ((boundTo irqInfo irqId).map (fun cpu => toStr cpu.toNat)).getD (m.smpAffinity irqId)

/-! ### What is bound -/

/-- Every queue has an interrupt of the machine, or none yet. -/
def Listed (irqs : List ℕ) (netQueue : UMap Str (UMap ℤ QueueInfo)) : Prop :=
  ∀ dev queues, netQueue.find dev = some queues → ∀ queueId info, queues.find queueId = some info →
    info.irqId = INVAILD_IRQ_ID ∨ IsIrq irqs info.irqId

/-- What is noted of some interrupts. -/
def note (binds : List NewBind) (irqInfo : UMap ℤ IrqInfo) : UMap ℤ IrqInfo :=
  binds.foldl (fun irqInfo b => irqInfo.insert b.irqId ⟨b.cpu, true⟩) irqInfo

section
variable {t : Tuner} {m : Machine} {irqs : List ℕ}

theorem Listed.insert {netQueue : UMap Str (UMap ℤ QueueInfo)} (h : Listed irqs netQueue) {dev : Str} {queueId : ℤ}
    {info : QueueInfo}
    (hinfo : info.irqId = (((((netQueue.find dev).getD .empty).find queueId).getD .new).irqId)) :
    Listed irqs (netQueue.insert dev (((netQueue.find dev).getD .empty).insert queueId info)) := by
  have hold : ∀ queueId info, ((netQueue.find dev).getD .empty).find queueId = some info →
      info.irqId = INVAILD_IRQ_ID ∨ IsIrq irqs info.irqId := by
    intro queueId' info' hfind
    cases hdev : netQueue.find dev with
    | none =>
      rw [hdev] at hfind
      cases hfind
    | some queues =>
      rw [hdev] at hfind
      exact h dev queues hdev queueId' info' hfind
  intro dev' queues hdev' queueId' info' hque'
  rw [UMap.find_insert] at hdev'
  split at hdev'
  · cases hdev'
    rw [UMap.find_insert] at hque'
    split at hque'
    · cases hque'
      rw [hinfo]
      cases hque : ((netQueue.find dev).getD .empty).find queueId with
      | none => exact .inl rfl
      | some old => exact hold queueId old hque
    · exact hold queueId' info' hque'
  · exact h dev' queues hdev' queueId' info' hque'

theorem exists_of_ite_bind {α β : Type} {c : Prop} [Decidable c] {x y : Option α} {f : α → Option β} {r : β}
    (h : (if c then x.bind f else y.bind f) = some r) : ∃ a, f a = some r := by
  split at h
  · obtain ⟨a, -, ha⟩ := Option.bind_eq_some_iff.mp h
    exact ⟨a, ha⟩
  · obtain ⟨a, -, ha⟩ := Option.bind_eq_some_iff.mp h
    exact ⟨a, ha⟩

/-- What the loop binds is what it notes, and the interrupts are those of its units. -/
theorem bindUnits_noted {choice : Choice} {lists : List (List CpuSort)} :
    ∀ {ps : List (HardIrqMigUint × ℕ)} {cnt : ℤ → ℕ} {s s' : State} {binds : List NewBind},
    Listed irqs s.netQueue → bindUnits choice lists ps cnt s = some (binds, s') →
    s'.irqInfo = note binds s.irqInfo ∧ (∀ b ∈ binds, ∃ p ∈ ps, p.1.irqId = b.irqId) ∧ Listed irqs s'.netQueue
  | [], _, _, _, _, hl, h => by
    rw [bindUnits] at h
    cases h
    exact ⟨rfl, fun b hb => absurd hb List.not_mem_nil, hl⟩
  | (unit, i) :: ps, cnt, s, s', binds, hl, h => by
    rw [bindUnits] at h
    obtain ⟨bound, h⟩ := exists_of_ite_bind h
    -- a unit that is skipped or refused
    have hskip : ∀ {cnt}, bindUnits choice lists ps cnt s = some (binds, s') →
        s'.irqInfo = note binds s.irqInfo ∧ (∀ b ∈ binds, ∃ p ∈ (unit, i) :: ps, p.1.irqId = b.irqId) ∧
          Listed irqs s'.netQueue := by
      intro cnt h
      obtain ⟨hnote, hunits, hl'⟩ := bindUnits_noted hl h
      refine ⟨hnote, fun b hb => ?_, hl'⟩
      obtain ⟨p, hp, heq⟩ := hunits b hb
      exact ⟨p, List.mem_cons_of_mem _ hp, heq⟩
    cases bound with
    | true => exact hskip h
    | false =>
      beta_reduce at h
      rw [if_neg Bool.false_ne_true, Option.bind_eq_bind, Option.bind_eq_some_iff] at h
      obtain ⟨sortedList, -, h⟩ := h
      rw [Option.bind_eq_bind, Option.bind_eq_some_iff] at h
      obtain ⟨preferred, -, h⟩ := h
      cases hupd : choice.updated i with
      | false =>
        rw [hupd, if_neg Bool.false_ne_true] at h
        exact hskip h
      | true =>
        rw [hupd, if_pos rfl, Option.bind_eq_bind, Option.bind_eq_some_iff] at h
        obtain ⟨⟨rest, s1⟩, hrest, h⟩ := h
        cases h
        have hl1 : Listed irqs (noteBind unit preferred.cpu s).netQueue := Listed.insert hl rfl
        obtain ⟨hnote, hunits, hl'⟩ := bindUnits_noted hl1 hrest
        refine ⟨hnote, fun b hb => ?_, hl'⟩
        rcases List.mem_cons.mp hb with rfl | hb
        · exact ⟨(unit, i), List.mem_cons_self, rfl⟩
        · obtain ⟨p, hp, heq⟩ := hunits b hb
          exact ⟨p, List.mem_cons_of_mem _ hp, heq⟩

theorem mem_busyQueues {s : State} {q : Str × QueueInfo} (h : q ∈ busyQueues s) :
    ∃ queues queueId, s.netQueue.find q.1 = some queues ∧ queues.find queueId = some q.2 := by
  obtain ⟨dev, hdev, hq⟩ := List.mem_flatMap.mp h
  obtain ⟨info, hinfo, rfl⟩ := List.mem_map.mp hq
  obtain ⟨queues, hqueues⟩ := Option.isSome_iff_exists.mp ((s.netQueue.mem_keys dev).mp hdev)
  rw [hqueues] at hinfo
  obtain ⟨queueId, hque⟩ := UMap.mem_values.mp (List.mem_filter.mp hinfo).1
  exact ⟨queues, queueId, hqueues, hque⟩

/-- `MigrateHardIrq` where every queue has its interrupt. -/
theorem migrateHardIrq_noted {choice : Choice} {s s' : State} {binds : List NewBind}
    (hl : Listed irqs s.netQueue)
    (hvalid : ∀ dev queues, s.netQueue.find dev = some queues → ∀ queueId info, queues.find queueId = some info →
      info.irqId ≠ INVAILD_IRQ_ID)
    (h : migrateHardIrq s choice = some (binds, s')) :
    s'.irqInfo = note binds s.irqInfo ∧ (∀ b ∈ binds, IsIrq irqs b.irqId) ∧ Listed irqs s'.netQueue := by
  rw [migrateHardIrq, Option.bind_eq_bind, Option.bind_eq_some_iff] at h
  obtain ⟨units, hunits, h⟩ := h
  rw [Option.bind_eq_bind, Option.bind_eq_some_iff] at h
  obtain ⟨lists, -, h⟩ := h
  obtain ⟨-, rfl⟩ := (mapM_eq_some_iff (migUnit_eq_some (s := s))).mp hunits
  obtain ⟨hnote, hfrom, hl'⟩ := bindUnits_noted hl h
  refine ⟨hnote, fun b hb => ?_, hl'⟩
  obtain ⟨p, hp, heq⟩ := hfrom b hb
  have hmem := List.mem_of_getElem? (List.mk_mem_zipIdx_iff_getElem?.mp hp)
  obtain ⟨q, hq, hunit⟩ := List.mem_map.mp ((sort_perm _ _ _).mem_iff.mp hmem)
  obtain ⟨queues, queueId, hdev, hque⟩ := mem_busyQueues hq
  rw [← heq, ← hunit]
  exact (hl _ _ hdev _ _ hque).resolve_left (hvalid _ _ hdev _ _ hque)

/-! ### One run -/

/-- What a run leaves as it is. -/
structure Beside (t t' : Tuner) : Prop where
  origin : t'.originAffinity = t.originAffinity
  balance : t'.irqbalanceStatus = t.irqbalanceStatus
  topics : t'.subscribeTopics = t.subscribeTopics

theorem Beside.refl : Beside t t := ⟨rfl, rfl, rfl⟩

theorem Beside.trans {t' t'' : Tuner} (h : Beside t t') (h' : Beside t' t'') : Beside t t'' :=
  ⟨h'.origin.trans h.origin, h'.balance.trans h.balance, h'.topics.trans h.topics⟩

theorem receive_all : ∀ {received : List Received} {t t' : Tuner}, received.foldlM receive t = some t' →
    Listed irqs t.core.netQueue →
    t'.core.irqInfo = t.core.irqInfo ∧ Listed irqs t'.core.netQueue ∧ Beside t t'
  | [], _, _, h, hl => by
    cases h
    exact ⟨rfl, hl, .refl⟩
  | r :: received, t, t', h, hl => by
    rw [List.foldlM_cons, Option.bind_eq_bind, Option.bind_eq_some_iff] at h
    obtain ⟨t1, h1, h⟩ := h
    unfold receive at h1
    dsimp only at h1
    split at h1
    · cases h1
      obtain ⟨hinfo, hl', hbeside⟩ := receive_all h (Listed.insert hl rfl)
      exact ⟨hinfo, hl', hbeside.origin, hbeside.balance, hbeside.topics⟩
    · cases h1

theorem Listed.addIrq {eth : UMap Str (UMap ℤ ℤ)} (hl : Listed irqs t.core.netQueue)
    (heth : ∀ que2Irq ∈ eth.values, ∀ irqId ∈ que2Irq.values, IsIrq irqs irqId) :
    Listed irqs (addIrqToQueueInfo t eth).core.netQueue := by
  intro dev queues hdev queueId info hque
  obtain ⟨old, hold, rfl⟩ := Option.map_eq_some_iff.mp hdev
  beta_reduce at hque
  cases heth' : eth.find dev with
  | none =>
    rw [heth'] at hque
    exact hl dev old hold queueId info hque
  | some que2Irq =>
    rw [heth'] at hque
    obtain ⟨oldInfo, holdInfo, rfl⟩ := Option.map_eq_some_iff.mp hque
    beta_reduce
    cases hirq : que2Irq.find queueId with
    | none => exact hl dev old hold queueId oldInfo holdInfo
    | some irqId => exact .inr (heth _ (UMap.mem_values.mpr ⟨dev, heth'⟩) _ (UMap.mem_values.mpr ⟨queueId, hirq⟩))

/-- What is left after the invalid queues are cleared was there before, with an interrupt. -/
theorem find_clearInvalid {dev : Str} {queues : UMap ℤ QueueInfo} {queueId : ℤ} {info : QueueInfo}
    (hdev : (clearInvalidQueueInfo t).core.netQueue.find dev = some queues) (hque : queues.find queueId = some info) :
    (∃ old, t.core.netQueue.find dev = some old ∧ old.find queueId = some info) ∧ info.irqId ≠ INVAILD_IRQ_ID := by
  obtain ⟨hmap, -⟩ := Option.filter_eq_some_iff.mp hdev
  obtain ⟨old, hold, rfl⟩ := Option.map_eq_some_iff.mp hmap
  obtain ⟨hinfo, hirq⟩ := Option.filter_eq_some_iff.mp hque
  exact ⟨⟨old, hold, hinfo⟩, by simpa using hirq⟩

theorem find_tunePreprocessing {dev : Str} {queues : UMap ℤ QueueInfo} {queueId : ℤ} {info : QueueInfo}
    (hdev : (tunePreprocessing t).core.netQueue.find dev = some queues) (hque : queues.find queueId = some info) :
    ∃ old oldInfo, t.core.netQueue.find dev = some old ∧ old.find queueId = some oldInfo ∧
      info.irqId = oldInfo.irqId := by
  obtain ⟨old, hold, rfl⟩ := Option.map_eq_some_iff.mp hdev
  obtain ⟨oldInfo, holdInfo, rfl⟩ := Option.map_eq_some_iff.mp hque
  exact ⟨old, oldInfo, hold, holdInfo, rfl⟩

/-- `Tune` notes what it binds, which are interrupts of the machine. -/
theorem tune_noted {eth : UMap Str (UMap ℤ ℤ)} {choice : Choice} {binds : List NewBind} {t' : Tuner}
    (hl : Listed irqs t.core.netQueue)
    (heth : ∀ que2Irq ∈ eth.values, ∀ irqId ∈ que2Irq.values, IsIrq irqs irqId)
    (h : tune t eth choice = some (binds, t')) :
    t'.core.irqInfo = note binds t.core.irqInfo ∧ (∀ b ∈ binds, IsIrq irqs b.irqId) ∧
      Listed irqs t'.core.netQueue ∧ Beside t t' := by
  rw [tune, Option.bind_eq_bind, Option.bind_eq_some_iff] at h
  obtain ⟨⟨binds', core⟩, hmigrate, h⟩ := h
  cases h
  have hadd := hl.addIrq heth
  have hvalid : ∀ dev queues,
      (tunePreprocessing (clearInvalidQueueInfo (addIrqToQueueInfo t eth))).core.netQueue.find dev = some queues →
      ∀ queueId info, queues.find queueId = some info →
        info.irqId ≠ INVAILD_IRQ_ID ∧ (info.irqId = INVAILD_IRQ_ID ∨ IsIrq irqs info.irqId) := by
    intro dev queues hdev queueId info hque
    obtain ⟨kept, keptInfo, hkept, hkeptInfo, heq⟩ := find_tunePreprocessing hdev hque
    obtain ⟨⟨old, hold, hinfo⟩, hne⟩ := find_clearInvalid hkept hkeptInfo
    rw [heq]
    exact ⟨hne, hadd dev old hold queueId keptInfo hinfo⟩
  obtain ⟨hnote, hirqs, hl'⟩ := migrateHardIrq_noted
    (fun dev queues hdev queueId info hque => (hvalid dev queues hdev queueId info hque).2)
    (fun dev queues hdev queueId info hque => (hvalid dev queues hdev queueId info hque).1) hmigrate
  exact ⟨hnote, hirqs, hl', ⟨rfl, rfl, rfl⟩⟩

/-- A run notes what it binds. -/
theorem run_noted {env : RunEnv} {binds : List NewBind} {t' : Tuner} (hl : Listed irqs t.core.netQueue)
    (heth : ∀ que2Irq ∈ env.ethQueData.values, ∀ irqId ∈ que2Irq.values, IsIrq irqs irqId)
    (h : run t env = some (binds, t')) :
    t'.core.irqInfo = note binds t.core.irqInfo ∧ (∀ b ∈ binds, IsIrq irqs b.irqId) ∧
      Listed irqs t'.core.netQueue ∧ Beside t t' := by
  unfold run at h
  split at h
  · cases h
    exact ⟨rfl, fun b hb => absurd hb List.not_mem_nil, hl, .refl⟩
  · rw [Option.bind_eq_bind, Option.bind_eq_some_iff] at h
    obtain ⟨t1, hrecv, h⟩ := h
    rw [Option.bind_eq_bind, Option.bind_eq_some_iff] at h
    obtain ⟨⟨binds', t2⟩, htune, h⟩ := h
    cases h
    obtain ⟨hinfo1, hl1, hbeside1⟩ := receive_all (t := calCpuUtil t) hrecv hl
    obtain ⟨hnote, hirqs, hl2, hbeside2⟩ := tune_noted hl1 heth htune
    have hinfo : t1.core.irqInfo = t.core.irqInfo := hinfo1
    rw [← hinfo]
    have hstart : Beside t t1 := ⟨hbeside1.origin, hbeside1.balance, hbeside1.topics⟩
    exact ⟨hnote, hirqs, hl2, hstart.trans ⟨hbeside2.origin, hbeside2.balance, hbeside2.topics⟩⟩

/-! ### The machine -/

theorem irqSetSmpAffinity_taken {irqId : ℤ} (h : 0 ≤ irqId) (cpu : Str) :
    (irqSetSmpAffinity irqId cpu true m).1 = { m with smpAffinity := Function.update m.smpAffinity irqId cpu } := by
  rw [irqSetSmpAffinity, if_neg (not_lt.mpr h), if_pos rfl]

theorem affinities_insert (m0 : Machine) (irqInfo : UMap ℤ IrqInfo) (irqId : ℤ) (cpu : ℕ) :
    affinities m0 (irqInfo.insert irqId ⟨cpu, true⟩) = Function.update (affinities m0 irqInfo) irqId (toStr cpu) := by
  funext irqId'
  rcases eq_or_ne irqId' irqId with rfl | hne
  · rw [Function.update_self, affinities, boundTo, UMap.find_insert_self]
    rfl
  · rw [Function.update_of_ne hne, affinities, boundTo, UMap.find_insert, if_neg hne]
    rfl

/-- The interrupts say what is noted of them. -/
theorem bindAll_noted {m0 : Machine} : ∀ {binds : List NewBind} {irqInfo : UMap ℤ IrqInfo} {m : Machine},
    (∀ b ∈ binds, IsIrq irqs b.irqId) → m.smpAffinity = affinities m0 irqInfo →
    (bindAll m binds).smpAffinity = affinities m0 (note binds irqInfo) ∧ (bindAll m binds).irqbalance = m.irqbalance
  | [], _, _, _, h => ⟨h, rfl⟩
  | b :: binds, irqInfo, m, hirqs, h => by
    obtain ⟨hb, hbinds⟩ := List.forall_mem_cons.mp hirqs
    have hone : (irqSetSmpAffinity b.irqId (toStr b.cpu) true m).1.smpAffinity =
        affinities m0 (irqInfo.insert b.irqId ⟨b.cpu, true⟩) := by
      rw [irqSetSmpAffinity_taken hb.1, affinities_insert, h]
    obtain ⟨hall, hbalance⟩ := bindAll_noted hbinds hone
    refine ⟨hall, hbalance.trans ?_⟩
    rw [irqSetSmpAffinity_taken hb.1]

/-- Only interrupts of the machine are noted, as tuned. -/
def Noted (irqs : List ℕ) (irqInfo : UMap ℤ IrqInfo) : Prop :=
  ∀ irqId info, irqInfo.find irqId = some info → info.isTuned = true ∧ IsIrq irqs irqId

theorem Noted.note : ∀ {binds : List NewBind} {irqInfo : UMap ℤ IrqInfo}, (∀ b ∈ binds, IsIrq irqs b.irqId) →
    Noted irqs irqInfo → Noted irqs (note binds irqInfo)
  | [], _, _, h => h
  | b :: binds, irqInfo, hirqs, h => by
    obtain ⟨hb, hbinds⟩ := List.forall_mem_cons.mp hirqs
    have hone : Noted irqs (irqInfo.insert b.irqId ⟨b.cpu, true⟩) := by
      intro irqId info hfind
      rw [UMap.find_insert] at hfind
      split at hfind
      · rename_i heq
        cases hfind
        exact ⟨rfl, heq ▸ hb⟩
      · exact h irqId info hfind
    have hall := Noted.note hbinds hone
    exact hall

/-- The loop of `Disable` on the interrupts of the machine. -/
theorem restore_eq {taken : ℤ → Bool} {origin : ℤ → Str} : ∀ {ids : List ℤ} {m : Machine},
    (∀ irqId ∈ ids, IsIrq irqs irqId) → (∀ irq ∈ irqs, taken irq = true) →
    ids.foldl (fun m irq => (irqSetSmpAffinity irq (origin irq) (taken irq) m).1) m =
      { m with smpAffinity := ids.foldl (fun s irq => Function.update s irq (origin irq)) m.smpAffinity }
  | [], _, _, _ => rfl
  | irqId :: ids, m, hids, htaken => by
    obtain ⟨hid, hids⟩ := List.forall_mem_cons.mp hids
    have htake : taken irqId = true := by
      rw [← Int.toNat_of_nonneg hid.1]
      exact htaken _ hid.2
    rw [List.foldl_cons, List.foldl_cons, htake, irqSetSmpAffinity_taken hid.1, restore_eq hids htaken]

theorem mem_tuned {irqId : ℤ} : irqId ∈ tuned t ↔ (boundTo t.core.irqInfo irqId).isSome = true := by
  unfold tuned boundTo
  rw [List.mem_filter, UMap.mem_keys]
  cases t.core.irqInfo.find irqId with
  | none => simp
  | some info => cases hinfo : info.isTuned <;> simp [Option.filter, hinfo]

/-! ### Whole runs -/

theorem resolveNetdata_eq (paramsMap : UMap Str Str) :
    ∃ high, resolveNetdata t paramsMap = { t with highNoiseSample := high } := by
  unfold resolveNetdata
  split
  · split
    · exact ⟨false, rfl⟩
    · split
      · exact ⟨true, rfl⟩
      · exact ⟨t.highNoiseSample, rfl⟩
  · exact ⟨t.highNoiseSample, rfl⟩

/-- The parameters say how to sample, and what to say. -/
theorem resolveCmd_eq (param : Str) :
    ∃ high verbose, (resolveCmd t param).1 = { t with highNoiseSample := high, showVerbose := verbose } := by
  unfold resolveCmd
  split
  · exact ⟨_, _, rfl⟩
  · dsimp only
    split
    · exact ⟨_, _, rfl⟩
    · split
      · split
        · obtain ⟨high, h⟩ := resolveNetdata_eq (t := { t with showVerbose := true }) (getKeyValueFromString param)
          exact ⟨high, true, h⟩
        · split
          · obtain ⟨high, h⟩ := resolveNetdata_eq (t := { t with showVerbose := false }) (getKeyValueFromString param)
            exact ⟨high, false, h⟩
          · exact ⟨_, _, rfl⟩
      · obtain ⟨high, h⟩ := resolveNetdata_eq (t := t) (getKeyValueFromString param)
        exact ⟨high, t.showVerbose, h⟩

/-- `Enable` fails and leaves the machine as it is, or stops an active `irqbalance`; it has noted the affinities. -/
theorem enable_cases (param : Str) (env : EnableEnv) :
    ∃ t', ((enable t m param env = (t', m, false) ∧ t'.irqbalanceStatus = false) ∨
        ∃ m', enable t m param env = (t', m', true) ∧ m'.smpAffinity = m.smpAffinity ∧
          (t'.irqbalanceStatus = true → m.irqbalance = true) ∧
          (t'.irqbalanceStatus = false → m'.irqbalance = m.irqbalance)) ∧
      t'.core = t.core ∧ t'.originAffinity = (init t m env.listed).originAffinity := by
  obtain ⟨high, verbose, hresolve⟩ := resolveCmd_eq (t := init { t with irqbalanceStatus := false } m env.listed) param
  unfold enable
  dsimp only
  rw [hresolve]
  split
  · exact ⟨_, .inl ⟨rfl, rfl⟩, rfl, rfl⟩
  · split
    · exact ⟨_, .inl ⟨rfl, rfl⟩, rfl, rfl⟩
    · refine ⟨_, .inr ⟨_, rfl, ?_, ?_, ?_⟩, rfl, rfl⟩
      · split <;> rfl
      · exact fun h => (Bool.and_eq_true_iff.mp h).2
      · intro h
        split
        · rename_i hs
          exact absurd (h.symm.trans hs) Bool.false_ne_true
        · rfl

/-- What holds between the calls, on a machine that was `m0` at first. -/
structure Held (irqs : List ℕ) (m0 : Machine) (w : World) : Prop where
  affinity : w.machine.smpAffinity = affinities m0 w.tuner.core.irqInfo
  noted : Noted irqs w.tuner.core.irqInfo
  listed : Listed irqs w.tuner.core.netQueue
  origin : w.enabled = true → ∀ irqId, IsIrq irqs irqId → w.tuner.originAffinity irqId = m0.smpAffinity irqId
  stopped : w.enabled = true → w.tuner.irqbalanceStatus = true → m0.irqbalance = true
  balance : w.enabled = false ∨ w.tuner.irqbalanceStatus = false → w.machine.irqbalance = m0.irqbalance
  subscribed : w.subscribed = if w.enabled then w.tuner.subscribeTopics else []
  off : w.enabled = false → w.tuner.core.irqInfo = .empty

variable {m0 : Machine} {w w' : World}

theorem affinities_empty : affinities m0 .empty = m0.smpAffinity := rfl

theorem Held.new : Held irqs m0 (World.new m0) where
  affinity := rfl
  noted irqId info h := by cases h
  listed dev queues h := by cases h
  origin h := by cases h
  stopped h := by cases h
  balance _ := rfl
  subscribed := rfl
  off _ := rfl

theorem Held.machine_off (h : Held irqs m0 w) (hoff : w.enabled = false) : w.machine = m0 := by
  have haff := h.affinity
  rw [h.off hoff, affinities_empty] at haff
  exact Machine.ext haff (h.balance (.inl hoff))

theorem Held.enable (h : Held irqs m0 w) {param : Str} {env : EnableEnv} (hok : Orderly irqs w (.enable param env))
    (hstep : step w (.enable param env) = .ok w') : Held irqs m0 w' := by
  obtain ⟨hoff, hlisted⟩ := hok
  have hmachine := h.machine_off hoff
  have hinfo := h.off hoff
  have hsub := h.subscribed
  rw [hoff] at hsub
  obtain ⟨t', hcases, hcore, horigin⟩ := enable_cases (t := w.tuner) (m := w.machine) param env
  have hnoted : ∀ irqId, IsIrq irqs irqId → t'.originAffinity irqId = m0.smpAffinity irqId := by
    intro irqId hirq
    rw [horigin, ← hmachine]
    exact if_pos ⟨hirq.1, hlisted _ hirq.2⟩
  unfold step at hstep
  dsimp only at hstep
  rcases hcases with ⟨he, hstatus⟩ | ⟨m', he, haff, hstopped, hbalance⟩
  · rw [he] at hstep
    cases hstep
    refine ⟨?_, hcore ▸ h.noted, hcore ▸ h.listed, fun _ => hnoted, fun _ hs => ?_, fun _ => ?_, ?_, fun _ => ?_⟩
    · exact h.affinity.trans (by rw [hcore])
    · rw [hstatus] at hs
      cases hs
    · rw [hmachine]
    · simp [hoff, hsub]
    · rw [hcore, hinfo]
  · rw [he] at hstep
    cases hstep
    refine ⟨?_, hcore ▸ h.noted, hcore ▸ h.listed, fun _ => hnoted, fun _ hs => ?_, fun hor => ?_, ?_, fun hen => ?_⟩
    · exact (haff.trans h.affinity).trans (by rw [hcore])
    · rw [← hmachine]
      exact hstopped hs
    · rcases hor with hen | hs
      · rw [Bool.or_true] at hen
        cases hen
      · rw [hbalance hs, hmachine]
    · simp [hsub]
    · rw [Bool.or_true] at hen
      cases hen

/-- A step that changes neither the machine nor what is known of it. -/
theorem Held.still (h : Held irqs m0 w) {t' : Tuner} (hinfo : t'.core.irqInfo = w.tuner.core.irqInfo)
    (hqueue : t'.core.netQueue = w.tuner.core.netQueue) (hbeside : Beside w.tuner t') :
    Held irqs m0 { w with tuner := t' } where
  affinity := h.affinity.trans (by rw [hinfo])
  noted := hinfo ▸ h.noted
  listed := hqueue ▸ h.listed
  origin hen irqId hirq := by
    rw [hbeside.origin]
    exact h.origin hen irqId hirq
  stopped hen hs := h.stopped hen (hbeside.balance ▸ hs)
  balance hor := h.balance (hor.imp_right fun hs => hbeside.balance ▸ hs)
  subscribed := h.subscribed.trans (by rw [hbeside.topics])
  off hoff := hinfo.trans (h.off hoff)

theorem Held.run (h : Held irqs m0 w) {env : RunEnv} (hok : Orderly irqs w (.run env))
    (hstep : step w (.run env) = .ok w') : Held irqs m0 w' := by
  obtain ⟨hon, heth⟩ := hok
  unfold step at hstep
  dsimp only at hstep
  split at hstep
  · cases hstep
  · rename_i binds t' hrun
    cases hstep
    obtain ⟨hnote, hirqs, hlisted, hbeside⟩ := run_noted h.listed heth hrun
    obtain ⟨haff, hbalance⟩ := bindAll_noted hirqs h.affinity
    refine ⟨haff.trans (by rw [hnote]), hnote ▸ h.noted.note hirqs, hlisted, fun hen irqId hirq => ?_, fun hen hs => ?_,
      fun hor => ?_, h.subscribed.trans (by rw [hbeside.topics]), fun hoff => ?_⟩
    · rw [hbeside.origin]
      exact h.origin hen irqId hirq
    · exact h.stopped hen (hbeside.balance ▸ hs)
    · exact hbalance.trans (h.balance (hor.imp_right fun hs => hbeside.balance ▸ hs))
    · rw [hon] at hoff
      cases hoff

theorem foldl_erase_self {α : Type} [DecidableEq α] : ∀ (l : List α), l.foldl (fun l a => l.erase a) l = []
  | [] => rfl
  | a :: l => by
    rw [List.foldl_cons, List.erase_cons_head]
    exact foldl_erase_self l

theorem Held.disable (h : Held irqs m0 w) {env : DisableEnv} (hok : Orderly irqs w (.disable env))
    (hstep : step w (.disable env) = .ok w') : Held irqs m0 w' := by
  obtain ⟨hon, hstarted, htaken⟩ := hok
  have hids : ∀ irqId ∈ tuned w.tuner, IsIrq irqs irqId := by
    intro irqId hmem
    rw [tuned, List.mem_filter, UMap.mem_keys] at hmem
    obtain ⟨info, hinfo⟩ := Option.isSome_iff_exists.mp hmem.1
    exact (h.noted irqId info hinfo).2
  have hback : (tuned w.tuner).foldl (fun s irq => Function.update s irq (w.tuner.originAffinity irq))
      w.machine.smpAffinity = m0.smpAffinity := by
    have halike : AlikeBut (fun p => ∃ irqId ∈ tuned w.tuner, id irqId = p) w.machine.smpAffinity m0.smpAffinity := by
      intro irqId hno
      have hnone : boundTo w.tuner.core.irqInfo irqId = none := by
        cases hbound : boundTo w.tuner.core.irqInfo irqId with
        | none => rfl
        | some cpu => exact absurd ⟨irqId, mem_tuned.mpr (by rw [hbound]; rfl), rfl⟩ hno
      rw [h.affinity, affinities, hnone]
      rfl
    exact foldl_update_back (fun irqId hmem => h.origin hon irqId (hids irqId hmem)) halike
  unfold step NetHardIrq.disable at hstep
  dsimp only at hstep
  rw [restore_eq hids htaken] at hstep
  cases hstep
  have hsub := h.subscribed
  rw [hon, if_pos rfl] at hsub
  refine ⟨?_, fun irqId info hf => ?_, fun dev queues hf => ?_, fun hen => ?_, fun hen => ?_, fun _ => ?_, ?_, fun _ => rfl⟩
  · have hsame : ∀ m : Machine, (if w.tuner.irqbalanceStatus = true then
        { w.machine with irqbalance := w.machine.irqbalance || env.started } else w.machine).smpAffinity =
        w.machine.smpAffinity := fun _ => by split <;> rfl
    dsimp only
    rw [hsame m0, hback, affinities_empty]
  · cases hf
  · cases hf
  · cases hen
  · cases hen
  · cases hs : w.tuner.irqbalanceStatus with
    | true => simp [hstarted, h.stopped hon hs]
    | false => simpa using h.balance (.inr hs)
  · rw [hsub]
    exact foldl_erase_self _

theorem Held.step (h : Held irqs m0 w) {act : Act} (hok : Orderly irqs w act)
    (hstep : NetHardIrq.step w act = .ok w') : Held irqs m0 w' := by
  cases act with
  | enable param env => exact h.enable hok hstep
  | updateStatic data =>
    unfold NetHardIrq.step updateStatic updateSystemInfo at hstep
    dsimp only at hstep
    split at hstep
    · cases hstep
    · rename_i t' ht
      cases hstep
      split at ht
      · cases ht
        exact h
      · split at ht
        · cases ht
          exact h.still rfl rfl ⟨rfl, rfl, rfl⟩
        · cases ht
  | updateCpuUtil times =>
    unfold NetHardIrq.step updateCpuInfo at hstep
    dsimp only at hstep
    split at hstep
    · cases hstep
    · rename_i t' ht
      cases hstep
      split at ht
      · cases ht
        exact h.still rfl rfl ⟨rfl, rfl, rfl⟩
      · cases ht
  | run env => exact h.run hok hstep
  | disable env => exact h.disable hok hstep

end

/-- PUT BACK: at any time an interrupt says the CPU it has been bound to, or what it said at first; once the tuning is
    disabled all of them do, `irqbalance` is what it was, and nothing is subscribed to. -/
theorem affinities_put_back {irqs : List ℕ} {m0 : Machine} {w : World}
    (h : Runs step (World.new m0) (Orderly irqs) w) :
    (∀ irqId, w.machine.smpAffinity irqId = affinities m0 w.tuner.core.irqInfo irqId) ∧
    (∀ irqId, boundTo w.tuner.core.irqInfo irqId ≠ none → w.enabled = true ∧ IsIrq irqs irqId) ∧
    (w.enabled = false → w.machine = m0 ∧ w.subscribed = []) := by
  have hheld : Held irqs m0 w := Runs.invariant Held.new (fun _ _ _ hheld hok hstep => hheld.step hok hstep) h
  refine ⟨congrFun hheld.affinity, fun irqId hbound => ?_, fun hoff => ⟨hheld.machine_off hoff, ?_⟩⟩
  · cases hinfo : w.tuner.core.irqInfo.find irqId with
    | none =>
      rw [boundTo, hinfo] at hbound
      exact absurd rfl hbound
    | some info =>
      refine ⟨?_, (hheld.noted irqId info hinfo).2⟩
      by_contra hoff
      rw [hheld.off (Bool.eq_false_iff.mpr hoff)] at hinfo
      cases hinfo
  · rw [hheld.subscribed, hoff]
    rfl

/-- One card with one queue, on two nodes with two CPUs each. -/
def sampleMachine : Machine := ⟨fun _ => str "0-3", true⟩

def sampleActs : List Act :=
  [.enable (str "verbose:on") ⟨[24], true, true, true⟩,
    .updateStatic ⟨2, 4, 4096, 0, [0, 0, 1, 1], []⟩,
    .updateCpuUtil [⟨80, 0, 0, 100⟩, ⟨80, 0, 0, 100⟩, ⟨50, 0, 0, 100⟩, ⟨70, 10, 0, 100⟩, ⟨70, 2, 0, 100⟩],
    .run ⟨[⟨str "eth0", 0, 1, 12⟩, ⟨str "eth0", 0, 0, 3⟩], UMap.empty.insert (str "eth0") (UMap.empty.insert 0 24),
      ⟨[], fun node => if node = 0 then [⟨0, 20⟩, ⟨1, 20⟩] else [⟨3, 20⟩, ⟨2, 50⟩], fun _ => true⟩⟩]

def sampleRun (acts : List Act) : World :=
  (runAll step (Orderly [24]) (World.new sampleMachine) acts).getD (World.new sampleMachine)

/-- The interrupt of the queue is bound to the less used of the CPUs on the node, and unbound in the end. -/
theorem affinities_put_back_queue :
    (sampleRun sampleActs).machine.smpAffinity 24 = str "3" ∧
      (sampleRun sampleActs).machine.irqbalance = false ∧
      (sampleRun (sampleActs ++ [.disable ⟨true, fun _ => true⟩])).machine = sampleMachine := by
  have hsome : (runAll step (Orderly [24]) (World.new sampleMachine)
      (sampleActs ++ [.disable ⟨true, fun _ => true⟩])).isSome = true := by decide +kernel
  have h : Runs step (World.new sampleMachine) (Orderly [24])
      (sampleRun (sampleActs ++ [.disable ⟨true, fun _ => true⟩])) :=
    Runs.of_runAll _ (sampleActs ++ [.disable ⟨true, fun _ => true⟩]) .start
      (by rw [sampleRun, ← Option.get_eq_getD _ (h := hsome), Option.some_get])
  exact ⟨by decide +kernel, by decide +kernel, ((affinities_put_back h).2.2 (by decide +kernel)).1⟩

end NetHardIrq
end OeAware

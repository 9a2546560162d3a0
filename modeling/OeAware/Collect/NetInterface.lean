import Mathlib.Algebra.Group.Prod
import Mathlib.Data.UInt
import OeAware.Schemes.Container
import OeAware.Schemes.Deltas

/-! @src src/plugin/collect/system/net_interface/net_interface.cpp, ebpf/net_flow_kernel.c |
    name:ReadFlow, ReadNetQueue | scheme:deltas

    The kernel side counts what each socket moves; the collector walks through its two maps again and
    again and publishes what has come since the walk before. A counter that is not above the remembered
    one is taken for a new socket on the same 4-tuple, whose counter began at zero. An idle socket is
    taken for one as well: its whole counter is an increment once more.

        flow   0 ──▶ 700 ──▶ 700 ──▶ 900
        diff        700     700     200         700 + 700 + 200 ≠ 900 -/

namespace OeAware
open Schemes

structure SockKey where
  localIp : UInt32
  remoteIp : UInt32
  localPort : UInt16
  remotePort : UInt16
  deriving DecidableEq

structure ThreadData where
  pid : UInt32
  tid : UInt32
  deriving DecidableEq

/-- An entry of `flowStats`. -/
structure SockInfo where
  client : ThreadData
  server : ThreadData
  flow : UInt64
  deriving DecidableEq

/-- An entry of `rcvQueStatus`. -/
structure QueueInfo where
  td : ThreadData
  queueId : Int32
  ifIdx : Int32
  times : UInt64
  len : UInt64
  deriving DecidableEq

structure ThreadQueKey where
  tid : UInt32
  ifindex : Int32
  queueId : Int32
  deriving DecidableEq

/-- What `NetFlowCtl` remembers of the last walk. -/
structure NetFlowCtl where
  lastSockFlow : UMap SockKey UInt64
  lastQueTimes : UMap SockKey UInt64
  lastQueLen : UMap SockKey UInt64

def NetFlowCtl.new : NetFlowCtl := ⟨.empty, .empty, .empty⟩

/-- A walk through a map: the keys as they come, with what is found under each. -/
abbrev Walk (α : Type) := List (SockKey × Option α)

/-- The entries up to the first key that has gone in the meantime. -/
def seen {α : Type} : Walk α → List (SockKey × α)
  | (key, some value) :: rest => (key, value) :: seen rest
  | _ => []

/-! ### `ReadFlow` -/

/-- The key of two processes, in whatever order. -/
def pidPair (pid1 pid2 : UInt32) : UInt64 :=
  if pid1 < pid2 then pid1.toUInt64 <<< 32 ||| pid2.toUInt64
  else pid2.toUInt64 <<< 32 ||| pid1.toUInt64

/-- `diffFlow`. -/
def diffFlow (lastFlow flow : UInt64) : UInt64 := if flow > lastFlow then flow - lastFlow else flow

def readFlow : Walk SockInfo → NetFlowCtl → UMap UInt64 UInt64 → NetFlowCtl × UMap UInt64 UInt64
  | [], ctl, flowData => (ctl, flowData)
  | (_, none) :: _, ctl, flowData => (ctl, flowData)
  | (key, some value) :: rest, ctl, flowData =>
    if value.flow = 0 ∨ value.client.pid = 0 ∨ value.server.pid = 0 ∨
        value.client.pid = value.server.pid then
      readFlow rest ctl flowData
    else
      let lastFlow := ctl.lastSockFlow.value key
      let pair := pidPair value.server.pid value.client.pid
      readFlow rest { ctl with lastSockFlow := ctl.lastSockFlow.insert key value.flow }
        (flowData.insert pair (flowData.value pair + diffFlow lastFlow value.flow))

/-! ### `ReadNetQueue` -/

/-- The counters of an entry. -/
def QueueInfo.counters (q : QueueInfo) : UInt64 × UInt64 := (q.times, q.len)

def QueueInfo.queKey (q : QueueInfo) : ThreadQueKey := ⟨q.td.tid, q.ifIdx, q.queueId⟩

/-- The increments, made where the counters are. -/
def diffQueue (last counters : UInt64 × UInt64) : UInt64 × UInt64 :=
  if counters.1 > last.1 then (counters.1 - last.1, counters.2 - last.2) else counters

/-- The elements of the same thread and queue are made one. -/
def aggregate (threadQueMap : UMap ThreadQueKey QueueInfo) (queInfo : QueueInfo) :
    UMap ThreadQueKey QueueInfo :=
  match threadQueMap.find queInfo.queKey with
  | none => threadQueMap.insert queInfo.queKey queInfo
  | some q => threadQueMap.insert queInfo.queKey
      { q with times := q.times + queInfo.times, len := q.len + queInfo.len }

/-- The loop, up to the aggregated `threadQueMap`. -/
def queueLoop : Walk QueueInfo → NetFlowCtl → UMap ThreadQueKey QueueInfo →
    NetFlowCtl × UMap ThreadQueKey QueueInfo
  | [], ctl, threadQueMap => (ctl, threadQueMap)
  | (_, none) :: _, ctl, threadQueMap => (ctl, threadQueMap)
  | (key, some queInfo) :: rest, ctl, threadQueMap =>
    if queInfo.ifIdx ≤ 0 then queueLoop rest ctl threadQueMap
    else
      let last := (ctl.lastQueTimes.value key, ctl.lastQueLen.value key)
      let ctl := { ctl with
        lastQueTimes := ctl.lastQueTimes.insert key queInfo.times
        lastQueLen := ctl.lastQueLen.insert key queInfo.len }
      let diff := diffQueue last queInfo.counters
      queueLoop rest ctl (aggregate threadQueMap { queInfo with times := diff.1, len := diff.2 })

/-- `ReadNetQueue` into an empty vector. -/
def readNetQueue (map : Walk QueueInfo) (ctl : NetFlowCtl) : NetFlowCtl × List QueueInfo :=
  let (ctl, threadQueMap) := queueLoop map ctl .empty
  (ctl, threadQueMap.keys.filterMap threadQueMap.find)

/-! ### Successive calls -/

inductive NetCall where
  | readFlow (flowStats : Walk SockInfo)
  | readNetQueue (rcvQueStatus : Walk QueueInfo)

/-- The entries of `flowStats` that the calls come across. -/
def flowsSeen (calls : List NetCall) : List (SockKey × SockInfo) :=
  calls.flatMap (fun
    | .readFlow flowStats => seen flowStats
    | .readNetQueue _ => [])

/-- The entries of `rcvQueStatus` that the calls come across. -/
def queuesSeen (calls : List NetCall) : List (SockKey × QueueInfo) :=
  calls.flatMap (fun
    | .readFlow _ => []
    | .readNetQueue rcvQueStatus => seen rcvQueStatus)

/-- The increments that the calls attribute to a pair of processes. -/
def flowTotal (pair : UInt64) : NetFlowCtl → List NetCall → UInt64
  | _, [] => 0
  | ctl, .readFlow flowStats :: calls =>
    let (ctl, flowData) := readFlow flowStats ctl .empty
    flowData.value pair + flowTotal pair ctl calls
  | ctl, .readNetQueue rcvQueStatus :: calls => flowTotal pair (readNetQueue rcvQueStatus ctl).1 calls

/-- What the elements of a vector hold for a queue of a thread. -/
def attributed (key : ThreadQueKey) (threadQueData : List QueueInfo) : UInt64 × UInt64 :=
  ((threadQueData.filter (·.queKey = key)).map QueueInfo.counters).sum

/-- The increments that the calls attribute to a queue of a thread. -/
def queueTotal (key : ThreadQueKey) : NetFlowCtl → List NetCall → UInt64 × UInt64
  | _, [] => 0
  | ctl, .readFlow flowStats :: calls => queueTotal key (readFlow flowStats ctl .empty).1 calls
  | ctl, .readNetQueue rcvQueStatus :: calls =>
    let (ctl, threadQueData) := readNetQueue rcvQueStatus ctl
    attributed key threadQueData + queueTotal key ctl calls

/-! ### The readings of the two maps -/

/-- A socket's processes and its counter, unless `ReadFlow` passes it over. -/
def SockInfo.reading (value : SockInfo) : Option (UInt64 × UInt64) :=
  if value.flow = 0 ∨ value.client.pid = 0 ∨ value.server.pid = 0 ∨
      value.client.pid = value.server.pid then none
  else some (pidPair value.server.pid value.client.pid, value.flow)

/-- A socket's queue and its counters, unless `ReadNetQueue` passes it over. -/
def QueueInfo.reading (q : QueueInfo) : Option (ThreadQueKey × (UInt64 × UInt64)) :=
  if q.ifIdx ≤ 0 then none else some (q.queKey, q.counters)

/-- The memory of a walk through `rcvQueStatus`. -/
def NetFlowCtl.lastQue (ctl : NetFlowCtl) (key : SockKey) : UInt64 × UInt64 :=
  (ctl.lastQueTimes.value key, ctl.lastQueLen.value key)

/-- `ReadFlow` credits its readings by `diffFlow`, and remembers them. -/
theorem readFlow_spec : ∀ (w : Walk SockInfo) (ctl : NetFlowCtl) (flowData : UMap UInt64 UInt64),
    (readFlow w ctl flowData).1.lastSockFlow.value =
        remembered ctl.lastSockFlow.value (readings SockInfo.reading (seen w)) ∧
      (readFlow w ctl flowData).1.lastQue = ctl.lastQue ∧
      ∀ pair, (readFlow w ctl flowData).2.value pair = flowData.value pair +
        credited diffFlow pair (visits ctl.lastSockFlow.value (readings SockInfo.reading (seen w)))
  | [], ctl, flowData => ⟨rfl, rfl, fun pair => (add_zero _).symm⟩
  | (_, none) :: _, ctl, flowData => ⟨rfl, rfl, fun pair => (add_zero _).symm⟩
  | (key, some value) :: rest, ctl, flowData => by
    rw [readFlow, seen, readings_cons, SockInfo.reading]
    split
    · exact readFlow_spec rest ctl flowData
    · obtain ⟨hlast, hque, hdata⟩ := readFlow_spec rest
        { ctl with lastSockFlow := ctl.lastSockFlow.insert key value.flow }
        (flowData.insert (pidPair value.server.pid value.client.pid)
          (flowData.value (pidPair value.server.pid value.client.pid) +
            diffFlow (ctl.lastSockFlow.value key) value.flow))
      rw [UMap.value_insert] at hlast
      refine ⟨hlast, hque, fun pair => (hdata pair).trans ?_⟩
      rw [UMap.value_insert, visits, credited_cons, UMap.value_insert, ← add_assoc]
      congr 1
      by_cases hp : pidPair value.server.pid value.client.pid = pair
      · subst hp
        rw [Function.update_self, if_pos rfl]
      · rw [Function.update_of_ne (Ne.symm hp), if_neg hp, add_zero]

/-- Each entry of `threadQueMap` is under its own key. -/
def Keyed (m : UMap ThreadQueKey QueueInfo) : Prop := ∀ k q, m.find k = some q → q.queKey = k

/-- The counters under a key of `threadQueMap`. -/
def countersAt (m : UMap ThreadQueKey QueueInfo) (k : ThreadQueKey) : UInt64 × UInt64 :=
  (m.find k).elim 0 QueueInfo.counters

theorem countersAt_insert (m : UMap ThreadQueKey QueueInfo) (k : ThreadQueKey) (q : QueueInfo) :
    countersAt (m.insert k q) = Function.update (countersAt m) k q.counters := by
  funext k'
  by_cases hk : k' = k <;> simp [countersAt, UMap.find_insert, hk]

theorem keyed_insert {m : UMap ThreadQueKey QueueInfo} (h : Keyed m) {k : ThreadQueKey} {q : QueueInfo}
    (hq : q.queKey = k) : Keyed (m.insert k q) := by
  intro k' q' hf
  rw [UMap.find_insert] at hf
  split at hf
  · rename_i hk
    cases hf
    rw [hq, hk]
  · exact h k' q' hf

theorem keyed_aggregate {m : UMap ThreadQueKey QueueInfo} (h : Keyed m) (q : QueueInfo) :
    Keyed (aggregate m q) := by
  rw [aggregate]
  cases hf : m.find q.queKey with
  | none => exact keyed_insert h rfl
  | some q₀ =>
    have hq : q₀.queKey = q.queKey := h _ _ hf
    exact keyed_insert h hq

theorem countersAt_aggregate (m : UMap ThreadQueKey QueueInfo) (q : QueueInfo) :
    countersAt (aggregate m q) =
      Function.update (countersAt m) q.queKey (countersAt m q.queKey + q.counters) := by
  rw [aggregate]
  cases hf : m.find q.queKey with
  | none => rw [countersAt_insert, countersAt, hf, Option.elim_none, zero_add]
  | some q₀ =>
    simp only [countersAt_insert, countersAt, hf, Option.elim_some]
    rfl

theorem lastQue_insert (ctl : NetFlowCtl) (key : SockKey) (q : QueueInfo) :
    NetFlowCtl.lastQue { ctl with
      lastQueTimes := ctl.lastQueTimes.insert key q.times
      lastQueLen := ctl.lastQueLen.insert key q.len } =
    Function.update ctl.lastQue key q.counters := by
  funext key'
  by_cases hk : key' = key <;> simp [NetFlowCtl.lastQue, UMap.value_insert, hk, QueueInfo.counters]

theorem keyed_empty : Keyed .empty := by
  rintro k q ⟨⟩

/-- `ReadNetQueue` credits its readings by `diffQueue`, and remembers them. -/
theorem queueLoop_spec : ∀ (w : Walk QueueInfo) (ctl : NetFlowCtl) (m : UMap ThreadQueKey QueueInfo),
    Keyed m → (queueLoop w ctl m).1.lastSockFlow = ctl.lastSockFlow ∧
      (queueLoop w ctl m).1.lastQue = remembered ctl.lastQue (readings QueueInfo.reading (seen w)) ∧
      Keyed (queueLoop w ctl m).2 ∧ ∀ key, countersAt (queueLoop w ctl m).2 key = countersAt m key +
        credited diffQueue key (visits ctl.lastQue (readings QueueInfo.reading (seen w)))
  | [], ctl, m, hm => ⟨rfl, rfl, hm, fun key => (add_zero _).symm⟩
  | (_, none) :: _, ctl, m, hm => ⟨rfl, rfl, hm, fun key => (add_zero _).symm⟩
  | (key, some q) :: rest, ctl, m, hm => by
    rw [queueLoop, seen, readings_cons, QueueInfo.reading]
    split
    · exact queueLoop_spec rest ctl m hm
    · obtain ⟨hflow, hlast, hkeyed, hdata⟩ := queueLoop_spec rest
        { ctl with
          lastQueTimes := ctl.lastQueTimes.insert key q.times
          lastQueLen := ctl.lastQueLen.insert key q.len }
        _ (keyed_aggregate hm { q with
          times := (diffQueue (ctl.lastQue key) q.counters).1
          len := (diffQueue (ctl.lastQue key) q.counters).2 })
      rw [lastQue_insert] at hlast
      refine ⟨hflow, hlast, hkeyed, fun key' => (hdata key').trans ?_⟩
      rw [lastQue_insert, countersAt_aggregate, visits, credited_cons, ← add_assoc]
      congr 1
      by_cases hk : q.queKey = key'
      · subst hk
        rw [if_pos rfl]
        exact Function.update_self ..
      · rw [if_neg hk, add_zero]
        exact Function.update_of_ne (Ne.symm hk) ..

/-- With keys that occur once each, what a vector holds for a key is what is under it. -/
theorem attributed_values {m : UMap ThreadQueKey QueueInfo} (h : Keyed m) (key : ThreadQueKey) :
    ∀ (ks : List ThreadQueKey), ks.Nodup →
      attributed key (ks.filterMap m.find) = if key ∈ ks then countersAt m key else 0
  | [], _ => rfl
  | k :: ks, hnd => by
    obtain ⟨hk, hks⟩ := List.nodup_cons.mp hnd
    have ih := attributed_values h key ks hks
    rw [List.filterMap_cons]
    cases hf : m.find k with
    | none =>
      by_cases he : key = k
      · subst he
        simp [ih, hk, countersAt, hf]
      · simp [ih, he]
    | some q =>
      have hq := h k q hf
      rw [attributed] at ih ⊢
      by_cases he : key = k
      · subst he
        simp [hq, ih, hk, countersAt, hf]
      · simp [hq, Ne.symm he, ih, he]

theorem attributed_readNetQueue (w : Walk QueueInfo) (ctl : NetFlowCtl) (key : ThreadQueKey) :
    attributed key (readNetQueue w ctl).2 =
      credited diffQueue key (visits ctl.lastQue (readings QueueInfo.reading (seen w))) := by
  obtain ⟨_, _, hkeyed, hdata⟩ := queueLoop_spec w ctl .empty keyed_empty
  have hd := hdata key
  rw [show countersAt .empty key = 0 from rfl, zero_add] at hd
  rw [← hd, readNetQueue, attributed_values hkeyed key _ (UMap.nodup _)]
  split
  · rfl
  · rename_i hk
    rw [UMap.mem_keys, Bool.not_eq_true, Option.isSome_eq_false_iff, Option.isNone_iff_eq_none] at hk
    rw [countersAt, hk]
    rfl

theorem flowTotal_eq (pair : UInt64) : ∀ (calls : List NetCall) (ctl : NetFlowCtl),
    flowTotal pair ctl calls = credited diffFlow pair
      (visits ctl.lastSockFlow.value (readings SockInfo.reading (flowsSeen calls)))
  | [], _ => rfl
  | .readFlow w :: calls, ctl => by
    obtain ⟨hlast, _, hdata⟩ := readFlow_spec w ctl .empty
    simp only [flowTotal, flowTotal_eq pair calls, hlast, hdata, UMap.value_empty, zero_add]
    rw [← credited_append, ← visits_append]
    simp [flowsSeen, readings]
  | .readNetQueue w :: calls, ctl => by
    have hflow := (queueLoop_spec w ctl .empty keyed_empty).1
    rw [flowTotal, flowTotal_eq pair calls, readNetQueue, hflow]
    rfl

theorem queueTotal_eq (key : ThreadQueKey) : ∀ (calls : List NetCall) (ctl : NetFlowCtl),
    queueTotal key ctl calls = credited diffQueue key
      (visits ctl.lastQue (readings QueueInfo.reading (queuesSeen calls)))
  | [], _ => rfl
  | .readFlow w :: calls, ctl => by
    rw [queueTotal, queueTotal_eq key calls, (readFlow_spec w ctl .empty).2.1]
    rfl
  | .readNetQueue w :: calls, ctl => by
    have hlast := (queueLoop_spec w ctl .empty keyed_empty).2.1
    simp only [queueTotal, queueTotal_eq key calls, attributed_readNetQueue]
    rw [readNetQueue, hlast, ← credited_append, ← visits_append]
    simp [queuesSeen, readings]

/-! ### What is asked of them -/

/-- A socket of the pair: its processes are known, they are not the same, and they are these two. -/
def SockInfo.Of (a b : UInt32) (value : SockInfo) : Prop :=
  value.client.pid ≠ 0 ∧ value.server.pid ≠ 0 ∧ value.client.pid ≠ value.server.pid ∧
    (value.client.pid = a ∧ value.server.pid = b ∨ value.client.pid = b ∧ value.server.pid = a)

instance (a b : UInt32) (value : SockInfo) : Decidable (value.Of a b) :=
  inferInstanceAs (Decidable (_ ∧ _ ∧ _ ∧ _))

/-- The final counters of the sockets of a pair. -/
def finalFlow (a b : UInt32) (l : List (SockKey × SockInfo)) : UInt64 :=
  ∑ k ∈ (l.map Prod.fst).toFinset,
    (lastOf k l).elim 0 (fun value => if value.Of a b then value.flow else 0)

/-- The final counters of the sockets of a queue of a thread, those whose interface is known. -/
def finalQueue (key : ThreadQueKey) (l : List (SockKey × QueueInfo)) : UInt64 × UInt64 :=
  ∑ k ∈ (l.map Prod.fst).toFinset,
    (lastOf k l).elim 0 (fun q => if 0 < q.ifIdx ∧ q.queKey = key then q.counters else 0)

/-- The counters of a socket do not decrease, and its processes do not change once they are known. -/
def SteadyFlows (l : List (SockKey × SockInfo)) : Prop :=
  l.Pairwise (fun e e' => e.1 = e'.1 → e.2.flow ≤ e'.2.flow ∧
    (e.2.client.pid ≠ 0 ∧ e.2.server.pid ≠ 0 →
      e'.2.client.pid = e.2.client.pid ∧ e'.2.server.pid = e.2.server.pid))

/-- The counters of a socket do not decrease, its thread does not change, and it receives by one queue
    once that is known. -/
def SteadyQueues (l : List (SockKey × QueueInfo)) : Prop :=
  l.Pairwise (fun e e' => e.1 = e'.1 → e.2.times ≤ e'.2.times ∧ e.2.len ≤ e'.2.len ∧
    (0 < e.2.ifIdx → e'.2.queKey = e.2.queKey))

/-- The increments add up to the final counters, in 64 bits as they do, and a socket that has moved
    nothing since it was last read is credited nothing. -/
structure FlowsExact (calls : List NetCall) : Prop where
  sums : ∀ a b, flowTotal (pidPair a b) .new calls = finalFlow a b (flowsSeen calls)
  idle : ∀ k, (valuesOf k (readings SockInfo.reading (flowsSeen calls))).IsChain
    (fun last flow => last = flow → diffFlow last flow = 0)

structure QueuesExact (calls : List NetCall) : Prop where
  sums : ∀ key, queueTotal key .new calls = finalQueue key (queuesSeen calls)
  idle : ∀ k, (valuesOf k (readings QueueInfo.reading (queuesSeen calls))).IsChain
    (fun last counters => last.1 = counters.1 → diffQueue last counters = 0)

/-- No socket that is counted is read twice with the same counter. -/
def FlowsGrow (l : List (SockKey × SockInfo)) : Prop :=
  l.Pairwise (fun e e' => e.1 = e'.1 → e.2.reading.isSome → e.2.flow ≠ e'.2.flow)

/-- No socket that is counted is read twice with the same number of packets, unless it has none. -/
def QueuesGrow (l : List (SockKey × QueueInfo)) : Prop :=
  l.Pairwise (fun e e' => e.1 = e'.1 → 0 < e.2.ifIdx →
    e.2.times ≠ e'.2.times ∨ e.2.counters = 0 ∧ e'.2.counters = 0)

/-! ### Flows -/

theorem toNat_pidPair (x y : UInt32) : (pidPair x y).toNat =
    min x.toNat y.toNat * 2 ^ 32 + max x.toNat y.toNat := by
  have pack : ∀ a b : UInt32, (a.toUInt64 <<< 32 ||| b.toUInt64).toNat = a.toNat * 2 ^ 32 + b.toNat := by
    intro a b
    have ha : a.toNat < 2 ^ 32 := a.toNat_lt
    have hb : b.toNat < 2 ^ 32 := b.toNat_lt
    rw [UInt64.toNat_or, UInt64.toNat_shiftLeft, UInt32.toNat_toUInt64, UInt32.toNat_toUInt64,
      show (32 : UInt64).toNat % 64 = 32 from rfl, Nat.mod_eq_of_lt (by rw [Nat.shiftLeft_eq]; omega),
      ← Nat.shiftLeft_add_eq_or_of_lt hb, Nat.shiftLeft_eq]
  rw [pidPair]
  split
  · rename_i h
    rw [UInt32.lt_iff_toNat_lt] at h
    rw [pack, min_eq_left h.le, max_eq_right h.le]
  · rename_i h
    rw [UInt32.lt_iff_toNat_lt, not_lt] at h
    rw [pack, min_eq_right h, max_eq_left h]

/-- A packed pair names its two processes, in whatever order. -/
theorem pidPair_inj (x y a b : UInt32) :
    pidPair x y = pidPair a b ↔ x = a ∧ y = b ∨ x = b ∧ y = a := by
  have hx := x.toNat_lt
  have hy := y.toNat_lt
  have ha := a.toNat_lt
  have hb := b.toNat_lt
  simp only [← UInt64.toNat_inj, ← UInt32.toNat_inj, toNat_pidPair]
  omega

theorem SockInfo.reading_eq_some {value : SockInfo} {x : UInt64 × UInt64} :
    value.reading = some x ↔ (value.flow ≠ 0 ∧ value.client.pid ≠ 0 ∧ value.server.pid ≠ 0 ∧
      value.client.pid ≠ value.server.pid) ∧
      (pidPair value.server.pid value.client.pid, value.flow) = x := by
  rw [SockInfo.reading]
  split
  · rename_i h
    simp only [reduceCtorEq, false_iff]
    rintro ⟨⟨h1, h2, h3, h4⟩, _⟩
    simp [h1, h2, h3, h4] at h
  · rename_i h
    simp only [not_or] at h
    simp [h]

theorem SteadyFlows.keeps {l : List (SockKey × SockInfo)} (h : SteadyFlows l) :
    Keeps SockInfo.reading l := by
  refine h.imp (fun {e e'} he hk g a hr => ?_)
  obtain ⟨hflow, hpids⟩ := he hk
  obtain ⟨⟨hne, hc, hs, hcs⟩, hx⟩ := SockInfo.reading_eq_some.mp hr
  obtain ⟨hc', hs'⟩ := hpids ⟨hc, hs⟩
  have hne' : e'.2.flow ≠ 0 := by
    intro h0
    rw [h0, UInt64.le_zero_iff] at hflow
    exact hne hflow
  refine ⟨e'.2.flow, SockInfo.reading_eq_some.mpr ⟨?_, ?_⟩⟩
  · rw [hc', hs']
    exact ⟨hne', hc, hs, hcs⟩
  · rw [hc', hs', Prod.mk.injEq]
    exact ⟨congrArg Prod.fst hx, rfl⟩

/-- The last readings of a pair are the final counters of its sockets. -/
theorem finalSum_flow (a b : UInt32) (l : List (SockKey × SockInfo)) :
    finalSum SockInfo.reading (pidPair a b) l = finalFlow a b l := by
  refine Finset.sum_congr rfl (fun k _ => ?_)
  rw [finalOf]
  cases lastOf k l with
  | none => rfl
  | some value =>
    simp only [Option.bind_some, Option.elim_some]
    cases hr : value.reading with
    | some x =>
      obtain ⟨⟨_, hc, hs, hcs⟩, rfl⟩ := SockInfo.reading_eq_some.mp hr
      have hof : pidPair value.server.pid value.client.pid = pidPair a b ↔ value.Of a b := by
        rw [pidPair_inj, SockInfo.Of]
        tauto
      simp [hof]
    | none =>
      -- passed over: it has moved nothing, or it is not of the pair
      rw [Option.elim_none]
      split
      · rename_i hof
        by_contra hne
        have hsome := SockInfo.reading_eq_some.mpr
          ⟨⟨Ne.symm hne, hof.1, hof.2.1, hof.2.2.1⟩, rfl⟩
        rw [hr] at hsome
        cases hsome
      · rfl

instance transLt : @Trans UInt64 UInt64 UInt64 (· < ·) (· < ·) (· < ·) := ⟨UInt64.lt_trans⟩

theorem diffFlow_zero (a : UInt64) : diffFlow 0 a = a := by
  rw [diffFlow]
  split <;> simp

theorem diffFlow_of_lt {a b : UInt64} (h : a < b) : diffFlow a b = b - a := if_pos h

theorem SteadyFlows.steady {l : List (SockKey × SockInfo)} (h : SteadyFlows l) (k : SockKey) :
    (valuesOf k (readings SockInfo.reading l)).Pairwise (fun a b => a ≤ b ∧ b ≠ 0) := by
  refine (forall_pairwise_valuesOf SockInfo.reading).mpr (h.imp (fun {e e'} he hk x hx y hy => ?_)) k
  obtain ⟨_, rfl⟩ := SockInfo.reading_eq_some.mp hx
  obtain ⟨⟨hne, _⟩, rfl⟩ := SockInfo.reading_eq_some.mp hy
  exact ⟨(he hk).1, hne⟩

/-- The flows are exact just if each counter has grown whenever it is read again. -/
theorem flowsExact_iff {calls : List NetCall} (h : SteadyFlows (flowsSeen calls)) :
    FlowsExact calls ↔ FlowsGrow (flowsSeen calls) := by
  constructor
  · intro hexact
    have hgrows : ∀ k, (valuesOf k (readings SockInfo.reading (flowsSeen calls))).Pairwise
        (· < ·) := by
      refine fun k => grows_of_idle (fun a b hab hzero => ?_) (h.steady k) (hexact.idle k)
      refine UInt64.lt_of_le_of_ne hab.1 (fun heq => hab.2 ?_)
      have hdiff := hzero heq
      rwa [diffFlow, if_neg (heq ▸ UInt64.lt_irrefl a)] at hdiff
    refine (h.keeps.and ((forall_pairwise_valuesOf SockInfo.reading).mp hgrows)).imp (fun {e e'} he hk hsome heq => ?_)
    obtain ⟨x, hx⟩ := Option.isSome_iff_exists.mp hsome
    obtain ⟨a', hy⟩ := he.1 hk x.1 x.2 hx
    have hlt := he.2 hk x hx _ hy
    obtain ⟨_, rfl⟩ := SockInfo.reading_eq_some.mp hx
    obtain ⟨_, hy⟩ := SockInfo.reading_eq_some.mp hy
    rw [← congrArg Prod.snd hy, ← heq] at hlt
    exact UInt64.lt_irrefl _ hlt
  · intro hgrow
    have hgrows : ∀ k, (valuesOf k (readings SockInfo.reading (flowsSeen calls))).IsChain
        (· < ·) := by
      refine fun k => ((forall_pairwise_valuesOf SockInfo.reading).mpr ((List.Pairwise.and h hgrow).imp
        (fun {e e'} he hk x hx y hy => ?_)) k).isChain
      obtain ⟨_, rfl⟩ := SockInfo.reading_eq_some.mp hx
      obtain ⟨_, rfl⟩ := SockInfo.reading_eq_some.mp hy
      exact UInt64.lt_of_le_of_ne (he.1 hk).1 (he.2 hk (by rw [hx]; rfl))
    refine ⟨fun a b => ?_, fun k => (hgrows k).imp (fun a b hlt heq => ?_)⟩
    · rw [flowTotal_eq, ← finalSum_flow]
      exact credited_eq_finalSum diffFlow_zero h.keeps
        (fun k => (hgrows k).imp (fun a b hlt => diffFlow_of_lt hlt)) _
    · rw [heq] at hlt
      exact absurd hlt (UInt64.lt_irrefl _)

/-! ### Queues -/

theorem QueueInfo.reading_eq_some {q : QueueInfo} {x : ThreadQueKey × (UInt64 × UInt64)} :
    q.reading = some x ↔ 0 < q.ifIdx ∧ (q.queKey, q.counters) = x := by
  rw [QueueInfo.reading]
  split
  · rename_i h
    simp [Int32.not_lt.mpr h]
  · rename_i h
    simp [Int32.not_le.mp h]

theorem SteadyQueues.keeps {l : List (SockKey × QueueInfo)} (h : SteadyQueues l) :
    Keeps QueueInfo.reading l := by
  refine h.imp (fun {e e'} he hk g a hr => ?_)
  obtain ⟨hif, hx⟩ := QueueInfo.reading_eq_some.mp hr
  have hkey := (he hk).2.2 hif
  have hif' : e'.2.ifIdx = e.2.ifIdx := congrArg ThreadQueKey.ifindex hkey
  refine ⟨e'.2.counters, QueueInfo.reading_eq_some.mpr ⟨hif' ▸ hif, ?_⟩⟩
  rw [hkey, Prod.mk.injEq]
  exact ⟨congrArg Prod.fst hx, rfl⟩

theorem finalSum_queue (key : ThreadQueKey) (l : List (SockKey × QueueInfo)) :
    finalSum QueueInfo.reading key l = finalQueue key l := by
  refine Finset.sum_congr rfl (fun k _ => ?_)
  rw [finalOf]
  cases lastOf k l with
  | none => rfl
  | some q =>
    simp only [Option.bind_some, Option.elim_some]
    rw [QueueInfo.reading]
    split
    · rename_i hif
      rw [if_neg (fun h => Int32.not_le.mpr h.1 hif)]
      rfl
    · rename_i hif
      simp [Int32.not_le.mp hif]

/-- One value of the counters after another: more packets, or nothing at all in both. -/
def QueueGrows (a b : UInt64 × UInt64) : Prop := a.1 < b.1 ∨ a = 0 ∧ b = 0

instance : @Trans (UInt64 × UInt64) (UInt64 × UInt64) (UInt64 × UInt64) QueueGrows QueueGrows
    QueueGrows where
  trans := by
    rintro a b c (hab | ⟨rfl, rfl⟩) (hbc | ⟨hb, rfl⟩)
    · exact .inl (UInt64.lt_trans hab hbc)
    · subst hb
      exact absurd hab UInt64.not_lt_zero
    · exact .inl hbc
    · exact .inr ⟨rfl, rfl⟩

theorem diffQueue_zero (a : UInt64 × UInt64) : diffQueue 0 a = a := by
  rw [diffQueue]
  split <;> simp

theorem QueueGrows.diff {a b : UInt64 × UInt64} (h : QueueGrows a b) : diffQueue a b = b - a := by
  rcases h with h | ⟨rfl, rfl⟩
  · exact if_pos h
  · rfl

theorem SteadyQueues.steady {l : List (SockKey × QueueInfo)} (h : SteadyQueues l) (k : SockKey) :
    (valuesOf k (readings QueueInfo.reading l)).Pairwise (fun a b => a.1 ≤ b.1 ∧ a.2 ≤ b.2) := by
  refine (forall_pairwise_valuesOf QueueInfo.reading).mpr
    (h.imp (fun {e e'} he hk x hx y hy => ?_)) k
  obtain ⟨_, rfl⟩ := QueueInfo.reading_eq_some.mp hx
  obtain ⟨_, rfl⟩ := QueueInfo.reading_eq_some.mp hy
  exact ⟨(he hk).1, (he hk).2.1⟩

/-- The queues are exact just if each socket has received something whenever it is read again. -/
theorem queuesExact_iff {calls : List NetCall} (h : SteadyQueues (queuesSeen calls)) :
    QueuesExact calls ↔ QueuesGrow (queuesSeen calls) := by
  constructor
  · intro hexact
    have hgrows : ∀ k, (valuesOf k (readings QueueInfo.reading (queuesSeen calls))).Pairwise
        QueueGrows := by
      refine fun k => grows_of_idle (fun a b hab hzero => ?_) (h.steady k) (hexact.idle k)
      rcases UInt64.lt_or_eq_of_le hab.1 with hlt | heq
      · exact .inl hlt
      · -- no packet, so the whole counters were credited, and they are zero
        have hb := hzero heq
        rw [diffQueue, if_neg (heq ▸ UInt64.lt_irrefl a.1)] at hb
        subst hb
        exact .inr ⟨Prod.ext (UInt64.le_zero_iff.mp hab.1) (UInt64.le_zero_iff.mp hab.2), rfl⟩
    refine (h.keeps.and ((forall_pairwise_valuesOf QueueInfo.reading).mp hgrows)).imp
      (fun {e e'} he hk hif => ?_)
    have hx := QueueInfo.reading_eq_some.mpr ⟨hif, rfl⟩
    obtain ⟨a', hy⟩ := he.1 hk _ _ hx
    have hg := he.2 hk _ hx _ hy
    obtain ⟨_, hy⟩ := QueueInfo.reading_eq_some.mp hy
    rw [← congrArg Prod.snd hy] at hg
    rcases hg with hlt | hzero
    · refine .inl (fun heq => ?_)
      rw [QueueInfo.counters, QueueInfo.counters, heq] at hlt
      exact UInt64.lt_irrefl _ hlt
    · exact .inr hzero
  · intro hgrow
    have hgrows : ∀ k, (valuesOf k (readings QueueInfo.reading (queuesSeen calls))).IsChain
        QueueGrows := by
      refine fun k => ((forall_pairwise_valuesOf QueueInfo.reading).mpr
        ((List.Pairwise.and h hgrow).imp (fun {e e'} he hk x hx y hy => ?_)) k).isChain
      obtain ⟨hif, rfl⟩ := QueueInfo.reading_eq_some.mp hx
      obtain ⟨_, rfl⟩ := QueueInfo.reading_eq_some.mp hy
      rcases he.2 hk hif with hne | hzero
      · exact .inl (UInt64.lt_of_le_of_ne (he.1 hk).1 hne)
      · exact .inr hzero
    refine ⟨fun key => ?_, fun k => (hgrows k).imp (fun a b hg heq => ?_)⟩
    · rw [queueTotal_eq, ← finalSum_queue]
      exact credited_eq_finalSum diffQueue_zero h.keeps
        (fun k => (hgrows k).imp (fun a b hg => hg.diff)) _
    · rcases hg with hlt | ⟨rfl, rfl⟩
      · rw [heq] at hlt
        exact absurd hlt (UInt64.lt_irrefl _)
      · rfl

/-- INCREMENTS: over any calls, the increments that are attributed to two processes, or to a queue of a
    thread, are the final counters of their sockets, and an idle socket adds nothing, just if no socket
    that is counted is idle between two readings. -/
theorem increments_exact_iff (calls : List NetCall) (hflows : SteadyFlows (flowsSeen calls))
    (hqueues : SteadyQueues (queuesSeen calls)) :
    (FlowsExact calls ↔ FlowsGrow (flowsSeen calls)) ∧
      (QueuesExact calls ↔ QueuesGrow (queuesSeen calls)) :=
  ⟨flowsExact_iff hflows, queuesExact_iff hqueues⟩

def sampleKey : SockKey := ⟨1, 2, 3, 4⟩

/-- A walk past one socket between the processes 10 and 20. -/
def sampleFlow (flow : UInt64) : NetCall := .readFlow [(sampleKey, some ⟨⟨10, 10⟩, ⟨20, 20⟩, flow⟩)]

/-- A walk past one socket of the thread 7, at queue 3 of interface 2. -/
def sampleQueue (times len : UInt64) : NetCall :=
  .readNetQueue [(sampleKey, some ⟨⟨7, 7⟩, 3, 2, times, len⟩)]

/-- A socket that moves something before every walk. -/
theorem increments_exact_busy :
    let calls := [sampleFlow 700, sampleQueue 1 60, sampleFlow 900, sampleQueue 3 180]
    FlowsExact calls ∧ QueuesExact calls := by
  intro calls
  have h := increments_exact_iff calls (by unfold SteadyFlows; decide) (by unfold SteadyQueues; decide)
  exact ⟨h.1.mpr (by unfold FlowsGrow; decide), h.2.mpr (by unfold QueuesGrow; decide)⟩

/-- A socket that is idle before the second walk is credited its counters twice. -/
theorem increments_not_exact :
    let calls := [sampleFlow 700, sampleQueue 1 60, sampleFlow 700, sampleQueue 1 60]
    SteadyFlows (flowsSeen calls) ∧ SteadyQueues (queuesSeen calls) ∧
      flowTotal (pidPair 10 20) .new calls = 1400 ∧ finalFlow 10 20 (flowsSeen calls) = 700 ∧
      queueTotal ⟨7, 2, 3⟩ .new calls = (2, 120) ∧ finalQueue ⟨7, 2, 3⟩ (queuesSeen calls) = (1, 60) ∧
      ¬ FlowsExact calls ∧ ¬ QueuesExact calls := by
  intro calls
  have hf : flowTotal (pidPair 10 20) .new calls = 1400 := by decide
  have hf' : finalFlow 10 20 (flowsSeen calls) = 700 := by decide
  have hq : queueTotal ⟨7, 2, 3⟩ .new calls = (2, 120) := by decide
  have hq' : finalQueue ⟨7, 2, 3⟩ (queuesSeen calls) = (1, 60) := by decide
  refine ⟨by unfold SteadyFlows; decide, by unfold SteadyQueues; decide, hf, hf', hq, hq', ?_, ?_⟩
  · intro h
    have := h.sums 10 20
    rw [hf, hf'] at this
    cases this
  · intro h
    have := h.sums ⟨7, 2, 3⟩
    rw [hq, hq'] at this
    cases this

end OeAware

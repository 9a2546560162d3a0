import OeAware.Collect.NetInterface
import OeAware.Common.Topic
import OeAware.Schemes.Run

/-! @src src/plugin/collect/system/net_interface/ebpf/net_flow_kernel.c, net_flow_comm.h | name:tcp_connect,
    inet_csk_accept_exit, tcp_close, tcp_set_state, tc_ingress | scheme:run

    Five probes keep two maps. A connection is known by the 4-tuple of the end that connects; the end that accepts sees
    its reverse. What connects writes an entry, what accepts completes it, a packet adds its length, and the end of either
    side deletes. The change to `ESTABLISHED` writes the whole entry anew, on either side.

        tcp_connect ──▶ ⟨client, ·, 0⟩ ──▶ inet_csk_accept ──▶ ⟨client, server, flow⟩
                                                                     │ tcp_set_state: ESTABLISHED
                                           ⟨client, ·, 0⟩ ◀──────────┘                             -/

namespace OeAware
open Schemes

/-- `keyReversed`. -/
def SockKey.reverse (key : SockKey) : SockKey := ⟨key.remoteIp, key.localIp, key.remotePort, key.localPort⟩

@[simp] theorem SockKey.reverse_reverse (key : SockKey) : key.reverse.reverse = key := rfl

namespace NetFlowKernel

/-- `ThreadData`, with the name of the thread. -/
structure ThreadData where
  pid : UInt32
  tid : UInt32
  comm : Str
  deriving DecidableEq

def ThreadData.zero : ThreadData := ⟨0, 0, List.replicate 16 0⟩

structure SockInfo where
  client : ThreadData
  server : ThreadData
  flow : UInt64
  deriving DecidableEq

structure QueueInfo where
  td : ThreadData
  queueId : Int32
  ifIdx : Int32
  times : UInt64
  len : UInt64
  deriving DecidableEq

/-- The two maps; neither is ever full. -/
structure Maps where
  flowStats : SockKey → Option SockInfo
  rcvQueStatus : SockKey → Option QueueInfo

/-- `Strncmp`; behind the end of a text there are zeros. -/
def strncmp : Str → Str → ℕ → ℤ
  | _, _, 0 => 0
  | s1, s2, n + 1 =>
    if s1.headD 0 ≠ s2.headD 0 then if s1.headD 0 < s2.headD 0 then -1 else 1
    else if s1.headD 0 = 0 then 0
    else strncmp s1.tail s2.tail n

def isValidData (td : ThreadData) : Bool := td.pid ≠ 0 ∧ strncmp td.comm (str "ksoftirqd") 9 ≠ 0

/-! ### The probes -/

/-- Both keys of both maps are deleted. -/
def deleteBoth (key : SockKey) (m : Maps) : Maps where
  flowStats := Function.update (Function.update m.flowStats key none) key.reverse none
  rcvQueStatus := Function.update (Function.update m.rcvQueStatus key none) key.reverse none

/-- A new `SockInfo` of the current thread. -/
def updateClient (td : ThreadData) (key : SockKey) (m : Maps) : Maps :=
  if isValidData td then { m with flowStats := Function.update m.flowStats key (some ⟨td, .zero, 0⟩) } else m

def tcpConnect (td : ThreadData) (key : SockKey) (m : Maps) : Maps := updateClient td key m

/-- The first half of `inet_csk_accept_exit`. -/
def acceptFlow (td : ThreadData) (keyReversed : SockKey) (m : Maps) : Maps :=
  match m.flowStats keyReversed with
  | some info =>
    let m := { m with flowStats := Function.update m.flowStats keyReversed (some { info with server := td }) }
    if isValidData td then m else { m with flowStats := Function.update m.flowStats keyReversed none }
  | none => m

/-- The second half. -/
def acceptQueue (td : ThreadData) (keyReversed : SockKey) (m : Maps) : Maps :=
  if isValidData td then
    { m with rcvQueStatus := Function.update m.rcvQueStatus keyReversed (some ⟨td, 0, 0, 0, 0⟩) }
  else m

def inetCskAcceptExit (td : ThreadData) (key : SockKey) (m : Maps) : Maps :=
  acceptQueue td key.reverse (acceptFlow td key.reverse m)

def tcpClose (key : SockKey) (m : Maps) : Maps := deleteBoth key m

inductive TcpState where
  | established
  | synSent
  | synRecv
  | finWait1
  | finWait2
  | timeWait
  | close
  | closeWait
  | lastAck
  | listen
  | closing
  | newSynRecv
  deriving DecidableEq

def tcpSetState (td : ThreadData) (key : SockKey) (oldState newState : TcpState) (m : Maps) : Maps :=
  if oldState = .synSent ∧ newState = .established then updateClient td key m
  else if oldState = .synRecv ∧ newState = .established then updateClient td key.reverse m
  else if (oldState = .established ∧ newState = .finWait1) ∨ newState = .close then deleteBoth key m
  else m

def ETH_P_IP : UInt16 := 0x0800
def IPPROTO_TCP : UInt8 := 6

/-- What `tc_ingress` reads of a packet, numbers in the order of the host; `dataLen` is what lies between `data` and
    `data_end`. -/
structure SkBuff where
  dataLen : ℕ
  h_proto : UInt16
  protocol : UInt8
  ihl : ℕ
  saddr : UInt32
  daddr : UInt32
  source : UInt16
  dest : UInt16
  len : UInt32
  ifindex : Int32
  queue_mapping : Int32

/-- The key of a packet, if it is one of TCP over IPv4 with all its headers. -/
def SkBuff.key (skb : SkBuff) : Option SockKey :=
  if 14 ≤ skb.dataLen ∧ skb.h_proto = ETH_P_IP ∧ 34 ≤ skb.dataLen ∧ skb.protocol = IPPROTO_TCP ∧
      14 + skb.ihl * 4 + 20 ≤ skb.dataLen then
    some ⟨skb.saddr, skb.daddr, skb.source, skb.dest⟩
  else none

/-- `info->flow += skb->len`. -/
def addFlow (len : UInt32) (key : SockKey) (m : Maps) : Maps :=
  match m.flowStats key with
  | some info => { m with
      flowStats := Function.update m.flowStats key (some { info with flow := info.flow + len.toUInt64 }) }
  | none => m

/-- The last part of `tc_ingress`. -/
def addQueue (skb : SkBuff) (key : SockKey) (m : Maps) : Maps :=
  if skb.ifindex ≤ 0 then m
  else
    match m.rcvQueStatus key with
    | some queInfo => { m with rcvQueStatus := Function.update m.rcvQueStatus key (some { queInfo with
        ifIdx := skb.ifindex
        queueId := skb.queue_mapping
        len := queInfo.len + skb.len.toUInt64
        times := queInfo.times + 1 }) }
    | none => m

def tcIngress (skb : SkBuff) (m : Maps) : Maps :=
  match skb.key with
  | none => m
  | some key => addQueue skb key (addFlow skb.len key.reverse (addFlow skb.len key m))

/-! ### Events -/

/-- The end of a connection that a socket is. -/
inductive End where
  | connecting
  | accepting
  deriving DecidableEq

/-- What `ReadIpAndPort` reads at an end of the connection `c`. -/
def End.key (c : SockKey) : End → SockKey
  | .connecting => c
  | .accepting => c.reverse

inductive Event where
  | connect (c : SockKey) (td : ThreadData)
  | accept (c : SockKey) (td : ThreadData)
  | setState (c : SockKey) (e : End) (oldState newState : TcpState) (td : ThreadData)
  | close (c : SockKey) (e : End)
  | ingress (skb : SkBuff)

def Event.run : Event → Maps → Maps
  | .connect c td, m => tcpConnect td (End.key c .connecting) m
  | .accept c td, m => inetCskAcceptExit td (End.key c .accepting) m
  | .setState c e oldState newState td, m => tcpSetState td (e.key c) oldState newState m
  | .close c e, m => tcpClose (e.key c) m
  | .ingress skb, m => tcIngress skb m

/-! ### What has been seen -/

/-- The length of what has been seen of a connection since its entry was created, and the two threads of a connection
    from the `accept` that records the server until an end closes. -/
structure History where
  total : SockKey → ℕ
  served : SockKey → Option (ThreadData × ThreadData)

structure World where
  maps : Maps
  history : History

/-- `tcp_close` and what `tcp_set_state` takes for an end. -/
def Closing (oldState newState : TcpState) : Prop :=
  (oldState = .established ∧ newState = .finWait1) ∨ newState = .close

instance (oldState newState : TcpState) : Decidable (Closing oldState newState) :=
  inferInstanceAs (Decidable (_ ∨ _))

/-- An entry is written; whether one that was there is thereby created anew is left open. -/
def History.write (anew : Bool) (c : SockKey) (m : Maps) (h : History) : History :=
  if anew = true ∨ m.flowStats c = none then { h with total := Function.update h.total c 0 } else h

def History.forget (c : SockKey) (h : History) : History := { h with served := Function.update h.served c none }

def History.note (anew : Bool) (m : Maps) (h : History) : Event → History
  | .connect c td => if isValidData td then h.write anew c m else h
  | .accept c td =>
    match m.flowStats c with
    | some info =>
      if isValidData td then
        { h with served := Function.update h.served c (some ((h.served c).getD (info.client, td))) }
      else h
    | none => h
  | .setState c _ oldState newState td =>
    if (oldState = .synSent ∨ oldState = .synRecv) ∧ newState = .established then
      if isValidData td then h.write anew c m else h
    else if Closing oldState newState then h.forget c
    else h
  | .close c _ => h.forget c
  | .ingress skb =>
    match skb.key with
    | some key => { h with
        total := fun k => if k = key ∨ k = key.reverse then h.total k + skb.len.toNat else h.total k }
    | none => h

def World.next (anew : Bool) (w : World) (ev : Event) : World := ⟨ev.run w.maps, w.history.note anew w.maps ev⟩

def step (anew : Bool) (w : World) (ev : Event) : Except Empty World := .ok (w.next anew ev)

def init : World := ⟨⟨fun _ => none, fun _ => none⟩, ⟨fun _ => 0, fun _ => none⟩⟩

/-! ### What is asked -/

/-- What is asked of a state: no tuple next to its reverse, every entry with its total, and what has been recorded kept. -/
structure Right (w : World) : Prop where
  single : ∀ k, w.maps.flowStats k = none ∨ w.maps.flowStats k.reverse = none
  flow : ∀ k info, w.maps.flowStats k = some info → info.flow.toNat = w.history.total k
  served : ∀ c client server, w.history.served c = some (client, server) →
    ∃ flow, w.maps.flowStats c = some ⟨client, server, flow⟩

/-- Neither map has an entry of the connection. -/
def Gone (c : SockKey) (m : Maps) : Prop :=
  ∀ k, k = c ∨ k = c.reverse → m.flowStats k = none ∧ m.rcvQueStatus k = none

/-- After the end of either side. -/
def Clean (m : Maps) : Event → Prop
  | .close c _ => Gone c m
  | .setState c _ _ newState _ => newState = .close → Gone c m
  | _ => True

/-- The event is one of the connection. -/
def Event.Concerns (c : SockKey) : Event → Prop
  | .connect c' _ => c' = c
  | .accept c' _ => c' = c
  | .setState c' _ _ _ _ => c' = c
  | .close c' _ => c' = c
  | .ingress skb => skb.key = some c ∨ skb.key = some c.reverse

/-- The entries of the other connections are as they were. -/
def Aside (conns : SockKey → Prop) (ev : Event) (m m' : Maps) : Prop :=
  ∀ c, conns c → ¬ ev.Concerns c → ∀ k, k = c ∨ k = c.reverse →
    m'.flowStats k = m.flowStats k ∧ m'.rcvQueStatus k = m.rcvQueStatus k

/-- An event of one of the connections, the end that connects going through `SYN_SENT` and the other through `SYN_RECV`;
    packets may be any. -/
def Proper (conns : SockKey → Prop) : Event → Prop
  | .connect c _ => conns c
  | .accept c _ => conns c
  | .setState c e oldState _ _ => conns c ∧ (e = .connecting → oldState ≠ .synRecv) ∧
      (e = .accepting → oldState ≠ .synSent)
  | .close c _ => conns c
  | .ingress _ => True

/-- An entry may be written: no server has been recorded, and where this is not to be a new entry nothing has been
    counted. -/
def Free (anew : Bool) (w : World) (c : SockKey) : Prop :=
  w.history.served c = none ∧ (anew = false → ∀ info, w.maps.flowStats c = some info → info.flow = 0)

/-- The events that keep it right. -/
def Admitted (anew : Bool) (w : World) : Event → Prop
  | .connect c td => isValidData td = true → Free anew w c
  | .accept c td => ∀ info, w.maps.flowStats c = some info →
      if isValidData td then ∀ client server, w.history.served c = some (client, server) → server = td
      else w.history.served c = none
  | .setState c _ oldState newState td => (oldState = .synSent ∨ oldState = .synRecv) ∧ newState = .established →
      isValidData td = true → Free anew w c
  | .close _ _ => True
  | .ingress skb => ∀ key, skb.key = some key → ∀ k, k = key ∨ k = key.reverse →
      ∀ info, w.maps.flowStats k = some info → info.flow.toNat + skb.len.toNat < 2 ^ 64

/-! ### What the probes do -/

section
variable {anew : Bool} {conns : SockKey → Prop} {m : Maps} {w : World} {c : SockKey} {td : ThreadData}

theorem flowStats_deleteBoth (k : SockKey) :
    (deleteBoth c m).flowStats k = if k = c ∨ k = c.reverse then none else m.flowStats k := by
  simp only [deleteBoth, Function.update_apply]
  by_cases h1 : k = c <;> by_cases h2 : k = c.reverse <;> simp [h1, h2]

theorem rcvQueStatus_deleteBoth (k : SockKey) :
    (deleteBoth c m).rcvQueStatus k = if k = c ∨ k = c.reverse then none else m.rcvQueStatus k := by
  simp only [deleteBoth, Function.update_apply]
  by_cases h1 : k = c <;> by_cases h2 : k = c.reverse <;> simp [h1, h2]

/-- Either end deletes the same. -/
theorem deleteBoth_key (e : End) : deleteBoth (e.key c) m = deleteBoth c m := by
  cases e with
  | connecting => rfl
  | accepting =>
    have hor : ∀ k, k = c.reverse ∨ k = c.reverse.reverse ↔ k = c ∨ k = c.reverse := fun k => or_comm
    refine Maps.mk.injEq .. ▸ ⟨funext fun k => ?_, funext fun k => ?_⟩
    · exact (flowStats_deleteBoth k).trans ((if_congr (hor k) rfl rfl).trans (flowStats_deleteBoth k).symm)
    · exact (rcvQueStatus_deleteBoth k).trans ((if_congr (hor k) rfl rfl).trans (rcvQueStatus_deleteBoth k).symm)

theorem gone_deleteBoth : Gone c (deleteBoth c m) := fun k hk =>
  ⟨by rw [flowStats_deleteBoth, if_pos hk], by rw [rcvQueStatus_deleteBoth, if_pos hk]⟩

/-- A change of state at either end of a connection. -/
theorem run_setState {e : End} {oldState newState : TcpState} (hp : Proper conns (.setState c e oldState newState td)) :
    (Event.setState c e oldState newState td).run m =
      if (oldState = .synSent ∨ oldState = .synRecv) ∧ newState = .established then updateClient td c m
      else if Closing oldState newState then deleteBoth c m
      else m := by
  obtain ⟨-, hconn, hacc⟩ := hp
  simp only [Event.run, tcpSetState, deleteBoth_key]
  cases e with
  | connecting =>
    have hne := hconn rfl
    by_cases h : oldState = .synSent ∧ newState = .established
    · simp [h, End.key]
    · simp only [h, hne, or_false, false_and, if_false]
      rfl
  | accepting =>
    have hne := hacc rfl
    by_cases h : oldState = .synRecv ∧ newState = .established
    · simp [h, End.key]
    · simp only [h, hne, false_or, false_and, if_false]
      rfl

/-! ### One event -/

/-- Only the tuples of connections have entries, and only valid threads are recorded. -/
structure Sound (conns : SockKey → Prop) (w : World) : Prop where
  keys : ∀ k info, w.maps.flowStats k = some info → conns k
  valid : ∀ c client server, w.history.served c = some (client, server) → isValidData server = true

theorem isValidData_zero : isValidData .zero = false := by decide

/-- The entries of connections are never next to their reverse. -/
theorem single_of_keys (hconns : ∀ c, conns c → ¬ conns c.reverse) (h : ∀ k info, m.flowStats k = some info → conns k)
    (k : SockKey) : m.flowStats k = none ∨ m.flowStats k.reverse = none := by
  cases hk : m.flowStats k with
  | none => exact Or.inl rfl
  | some info =>
    cases hr : m.flowStats k.reverse with
    | none => exact Or.inr rfl
    | some info' => exact absurd (h _ _ hr) (hconns k (h _ _ hk))

/-- A tuple that is its own reverse has none. -/
theorem none_of_reverse (hconns : ∀ c, conns c → ¬ conns c.reverse)
    (h : ∀ k info, m.flowStats k = some info → conns k) {key : SockKey} (heq : key.reverse = key) :
    m.flowStats key = none := by
  have hor := single_of_keys hconns h key
  rwa [heq, or_self] at hor

theorem served_write : (w.history.write anew c m).served = w.history.served := by
  unfold History.write
  split <;> rfl

theorem total_write {k : SockKey} (hne : k ≠ c) : (w.history.write anew c m).total k = w.history.total k := by
  unfold History.write
  split
  · exact Function.update_of_ne hne _ _
  · rfl

theorem updateClient_valid (hv : isValidData td = true) :
    updateClient td c m = { m with flowStats := Function.update m.flowStats c (some ⟨td, .zero, 0⟩) } := if_pos hv

/-- An entry is written. -/
theorem right_write_iff (hs : Sound conns w) (h : Right w) (hv : isValidData td = true)
    (hsingle : ∀ k, (updateClient td c w.maps).flowStats k = none ∨ (updateClient td c w.maps).flowStats k.reverse = none) :
    Right ⟨updateClient td c w.maps, w.history.write anew c w.maps⟩ ↔ Free anew w c := by
  have hself : (updateClient td c w.maps).flowStats c = some ⟨td, .zero, 0⟩ := by
    rw [updateClient_valid hv]
    exact Function.update_self ..
  have hother : ∀ {k}, k ≠ c → (updateClient td c w.maps).flowStats k = w.maps.flowStats k := by
    intro k hne
    rw [updateClient_valid hv]
    exact Function.update_of_ne hne _ _
  constructor
  · intro hr
    refine ⟨?_, fun hanew info hinfo => ?_⟩
    · by_contra hsome
      obtain ⟨⟨client, server⟩, hserved⟩ := Option.ne_none_iff_exists'.mp hsome
      obtain ⟨flow, hflow⟩ := hr.served c client server (by rw [served_write, hserved])
      rw [hself] at hflow
      cases hflow
      have := hs.valid c _ _ hserved
      rw [isValidData_zero] at this
      cases this
    · have htotal := hr.flow c _ hself
      have hsame : w.history.write anew c w.maps = w.history := if_neg (by rw [hanew, hinfo]; simp)
      rw [hsame, ← h.flow c info hinfo] at htotal
      exact UInt64.toNat_inj.mp htotal.symm
  · rintro ⟨hnone, hzero⟩
    refine ⟨hsingle, fun k info hk => ?_, fun c' client server hserved => ?_⟩
    · rcases eq_or_ne k c with rfl | hne
      · rw [hself] at hk
        cases hk
        unfold History.write
        split
        · exact (Function.update_self k 0 w.history.total).symm
        · rename_i hold
          obtain ⟨hanew, hsome⟩ := not_or.mp hold
          obtain ⟨info, hinfo⟩ := Option.ne_none_iff_exists'.mp hsome
          rw [← h.flow k info hinfo, hzero (Bool.eq_false_of_not_eq_true hanew) info hinfo]
      · rw [hother hne] at hk
        exact (h.flow k info hk).trans (total_write hne).symm
    · rw [served_write] at hserved
      rcases eq_or_ne c' c with rfl | hne
      · rw [hnone] at hserved
        cases hserved
      · obtain ⟨flow, hflow⟩ := h.served c' client server hserved
        exact ⟨flow, by rw [hother hne, hflow]⟩

/-- The end of a connection. -/
theorem right_delete (hconns : ∀ c, conns c → ¬ conns c.reverse) (hs : Sound conns w) (h : Right w) (hc : conns c) :
    Right ⟨deleteBoth c w.maps, w.history.forget c⟩ where
  single k := by
    rw [flowStats_deleteBoth, flowStats_deleteBoth]
    rcases h.single k with hk | hk
    · exact Or.inl (by rw [hk, ite_self])
    · exact Or.inr (by rw [hk, ite_self])
  flow k info hk := by
    rw [flowStats_deleteBoth] at hk
    split at hk
    · cases hk
    · exact h.flow k info hk
  served c' client server hserved := by
    change Function.update w.history.served c none c' = _ at hserved
    rcases eq_or_ne c' c with rfl | hne
    · rw [Function.update_self] at hserved
      cases hserved
    · rw [Function.update_of_ne hne] at hserved
      obtain ⟨flow, hflow⟩ := h.served c' client server hserved
      refine ⟨flow, ?_⟩
      rw [flowStats_deleteBoth, if_neg, hflow]
      rintro (heq | rfl)
      · exact hne heq
      · exact hconns c hc (hs.keys _ _ hflow)

theorem flowStats_acceptQueue (k : SockKey) : (acceptQueue td c m).flowStats k = m.flowStats k := by
  unfold acceptQueue
  split <;> rfl

/-- What `accept` makes of the entry. -/
theorem flowStats_accept (k : SockKey) : ((Event.accept c td).run m).flowStats k =
    if k = c then (m.flowStats c).bind (fun info => if isValidData td then some { info with server := td } else none)
    else m.flowStats k := by
  change (acceptQueue td c (acceptFlow td c m)).flowStats k = _
  rw [flowStats_acceptQueue, acceptFlow]
  cases hc : m.flowStats c with
  | none =>
    dsimp only
    split
    · rename_i heq
      rw [heq, hc]
      rfl
    · rfl
  | some info =>
    dsimp only
    split
    · rename_i hv
      simp [Function.update_apply]
    · rename_i hv
      simp only [Function.update_apply, Option.bind_some]
      by_cases heq : k = c <;> simp [heq]

theorem right_accept_iff (h : Right w)
    (hsingle : ∀ k, ((Event.accept c td).run w.maps).flowStats k = none ∨
      ((Event.accept c td).run w.maps).flowStats k.reverse = none) :
    Right ⟨(Event.accept c td).run w.maps, w.history.note anew w.maps (.accept c td)⟩ ↔
      Admitted anew w (.accept c td) := by
  have hother : ∀ {k}, k ≠ c → ((Event.accept c td).run w.maps).flowStats k = w.maps.flowStats k := fun hne => by
    rw [flowStats_accept, if_neg hne]
  have hself := (@flowStats_accept w.maps c td c).trans (if_pos rfl)
  cases hinfo : w.maps.flowStats c with
  | none =>
    have hnote : w.history.note anew w.maps (.accept c td) = w.history := by simp only [History.note, hinfo]
    have hsame : ∀ k, ((Event.accept c td).run w.maps).flowStats k = w.maps.flowStats k := by
      intro k
      rcases eq_or_ne k c with rfl | hne
      · rw [hself, hinfo]
        rfl
      · exact hother hne
    refine iff_of_true ?_ fun info hsome => by rw [hinfo] at hsome; cases hsome
    rw [hnote]
    exact ⟨hsingle, fun k info hk => h.flow k info (hsame k ▸ hk), fun c' client server hserved => by
      obtain ⟨flow, hflow⟩ := h.served c' client server hserved
      exact ⟨flow, (hsame c').trans hflow⟩⟩
  | some info =>
    have hadm : Admitted anew w (.accept c td) ↔
        if isValidData td then ∀ client server, w.history.served c = some (client, server) → server = td
        else w.history.served c = none := by
      simp only [Admitted, hinfo, Option.some.injEq, forall_eq']
    rw [hinfo, Option.bind_some] at hself
    rw [hadm]
    cases hv : isValidData td with
    | true =>
      have hnote : w.history.note anew w.maps (.accept c td) = { w.history with
          served := Function.update w.history.served c (some ((w.history.served c).getD (info.client, td))) } := by
        simp only [History.note, hinfo, hv, if_true]
      rw [hv, if_pos rfl] at hself
      rw [hnote, if_pos rfl]
      constructor
      · intro hr client server hserved
        obtain ⟨flow, hflow⟩ := hr.served c client server (by
          change Function.update _ c _ c = _
          rw [Function.update_self, hserved]
          rfl)
        rw [hself] at hflow
        cases hflow
        rfl
      · intro hsame
        refine ⟨hsingle, fun k info' hk => ?_, fun c' client server hserved => ?_⟩
        · rcases eq_or_ne k c with rfl | hne
          · rw [hself] at hk
            cases hk
            exact h.flow k info hinfo
          · exact h.flow k info' (hother hne ▸ hk)
        · change Function.update _ c _ c' = _ at hserved
          rcases eq_or_ne c' c with rfl | hne
          · rw [Function.update_self] at hserved
            cases hold : w.history.served c' with
            | none =>
              rw [hold] at hserved
              cases hserved
              exact ⟨info.flow, hself⟩
            | some pair =>
              rw [hold] at hserved
              cases hserved
              obtain ⟨flow, hflow⟩ := h.served c' client server hold
              rw [hinfo] at hflow
              cases hflow
              obtain rfl := hsame client server hold
              exact ⟨flow, hself⟩
          · rw [Function.update_of_ne hne] at hserved
            obtain ⟨flow, hflow⟩ := h.served c' client server hserved
            exact ⟨flow, (hother hne).trans hflow⟩
    | false =>
      have hnote : w.history.note anew w.maps (.accept c td) = w.history := by
        simp [History.note, hinfo, hv]
      rw [hv, if_neg Bool.false_ne_true] at hself
      rw [hnote, if_neg Bool.false_ne_true]
      constructor
      · intro hr
        by_contra hsome
        obtain ⟨⟨client, server⟩, hserved⟩ := Option.ne_none_iff_exists'.mp hsome
        obtain ⟨flow, hflow⟩ := hr.served c client server hserved
        rw [hself] at hflow
        cases hflow
      · intro hnone
        refine ⟨hsingle, fun k info' hk => ?_, fun c' client server hserved => ?_⟩
        · rcases eq_or_ne k c with rfl | hne
          · rw [hself] at hk
            cases hk
          · exact h.flow k info' (hother hne ▸ hk)
        · rcases eq_or_ne c' c with rfl | hne
          · rw [hnone] at hserved
            cases hserved
          · obtain ⟨flow, hflow⟩ := h.served c' client server hserved
            exact ⟨flow, (hother hne).trans hflow⟩

/-! ### One packet -/

def SockInfo.add (len : UInt32) (info : SockInfo) : SockInfo := { info with flow := info.flow + len.toUInt64 }

theorem flowStats_addFlow (len : UInt32) (key k : SockKey) :
    (addFlow len key m).flowStats k = if k = key then (m.flowStats k).map (SockInfo.add len) else m.flowStats k := by
  unfold addFlow
  cases hinfo : m.flowStats key with
  | none =>
    dsimp only
    split
    · rename_i heq
      rw [heq, hinfo]
      rfl
    · rfl
  | some info =>
    dsimp only
    rw [Function.update_apply]
    split
    · rename_i heq
      rw [heq, hinfo]
      rfl
    · rfl

theorem flowStats_addQueue (skb : SkBuff) (key k : SockKey) : (addQueue skb key m).flowStats k = m.flowStats k := by
  unfold addQueue
  split
  · rfl
  · split <;> rfl

/-- A packet is counted once, whichever way it goes. -/
theorem flowStats_ingress {skb : SkBuff} {key : SockKey} (hkey : skb.key = some key)
    (hnone : key.reverse = key → m.flowStats key = none) (k : SockKey) :
    ((Event.ingress skb).run m).flowStats k =
      if k = key ∨ k = key.reverse then (m.flowStats k).map (SockInfo.add skb.len) else m.flowStats k := by
  have hrun : (Event.ingress skb).run m = addQueue skb key (addFlow skb.len key.reverse (addFlow skb.len key m)) := by
    simp only [Event.run, tcIngress, hkey]
  rw [hrun, flowStats_addQueue, flowStats_addFlow, flowStats_addFlow]
  by_cases hk : k = key
  · by_cases hr : k = key.reverse
    · rw [if_pos hr, if_pos hk, if_pos (Or.inl hk), hk, hnone (hr.symm.trans hk)]
      rfl
    · rw [if_neg hr, if_pos hk, if_pos (Or.inl hk)]
  · by_cases hr : k = key.reverse
    · rw [if_pos hr, if_neg hk, if_pos (Or.inr hr)]
    · rw [if_neg hr, if_neg hk, if_neg (fun h => h.elim hk hr)]

theorem right_ingress_iff (hconns : ∀ c, conns c → ¬ conns c.reverse) (hs : Sound conns w) (h : Right w)
    {skb : SkBuff}
    (hsingle : ∀ k, ((Event.ingress skb).run w.maps).flowStats k = none ∨
      ((Event.ingress skb).run w.maps).flowStats k.reverse = none) :
    Right ⟨(Event.ingress skb).run w.maps, w.history.note anew w.maps (.ingress skb)⟩ ↔
      Admitted anew w (.ingress skb) := by
  cases hkey : skb.key with
  | none =>
    have hrun : (Event.ingress skb).run w.maps = w.maps := by simp only [Event.run, tcIngress, hkey]
    have hnote : w.history.note anew w.maps (.ingress skb) = w.history := by simp only [History.note, hkey]
    rw [hrun, hnote]
    exact iff_of_true h fun key hsome => by rw [hkey] at hsome; cases hsome
  | some key =>
    have hflow := flowStats_ingress hkey (none_of_reverse hconns hs.keys)
    have htotal : ∀ k, (w.history.note anew w.maps (.ingress skb)).total k =
        if k = key ∨ k = key.reverse then w.history.total k + skb.len.toNat else w.history.total k := by
      intro k
      simp only [History.note, hkey]
    have hserved : (w.history.note anew w.maps (.ingress skb)).served = w.history.served := by
      simp only [History.note, hkey]
    have hsum : ∀ info : SockInfo, (info.add skb.len).flow.toNat = (info.flow.toNat + skb.len.toNat) % 2 ^ 64 := by
      intro info
      rw [SockInfo.add, UInt64.toNat_add, UInt32.toNat_toUInt64]
    constructor
    · intro hr key' hkey' k hk info hinfo
      rw [hkey] at hkey'
      cases hkey'
      have heq := hr.flow k (info.add skb.len) (by rw [hflow, if_pos hk, hinfo]; rfl)
      rw [htotal, if_pos hk, ← h.flow k info hinfo, hsum] at heq
      rw [← heq]
      exact Nat.mod_lt _ (by decide)
    · intro hadm
      refine ⟨hsingle, fun k info' hk => ?_, fun c' client server hc' => ?_⟩
      · rw [htotal]
        rw [hflow] at hk
        split at hk
        · rename_i hmine
          obtain ⟨info, hinfo, rfl⟩ := Option.map_eq_some_iff.mp hk
          rw [if_pos hmine, hsum, Nat.mod_eq_of_lt (hadm key hkey k hmine info hinfo), h.flow k info hinfo]
        · rename_i hother
          rw [if_neg hother]
          exact h.flow k info' hk
      · rw [hserved] at hc'
        obtain ⟨flow, hc⟩ := h.served c' client server hc'
        rw [hflow, hc]
        split
        · exact ⟨_, rfl⟩
        · exact ⟨flow, rfl⟩

/-! ### Runs -/

theorem keys_updateClient (hc : conns c) (h : ∀ k info, m.flowStats k = some info → conns k) (k : SockKey)
    (info : SockInfo) (hk : (updateClient td c m).flowStats k = some info) : conns k := by
  unfold updateClient at hk
  split at hk
  · rcases eq_or_ne k c with rfl | hne
    · exact hc
    · change Function.update _ _ _ _ = _ at hk
      rw [Function.update_of_ne hne] at hk
      exact h k info hk
  · exact h k info hk

theorem keys_deleteBoth (h : ∀ k info, m.flowStats k = some info → conns k) (k : SockKey)
    (info : SockInfo) (hk : (deleteBoth c m).flowStats k = some info) : conns k := by
  rw [flowStats_deleteBoth] at hk
  split at hk
  · cases hk
  · exact h k info hk

theorem Sound.keys_run (h : Sound conns w) {ev : Event} (hp : Proper conns ev)
    (hconns : ∀ c, conns c → ¬ conns c.reverse) (k : SockKey) (info : SockInfo)
    (hk : (ev.run w.maps).flowStats k = some info) : conns k := by
  cases ev with
  | connect c td => exact keys_updateClient hp h.keys k info hk
  | accept c td =>
    rw [flowStats_accept] at hk
    split at hk
    · rename_i heq
      exact heq ▸ hp
    · exact h.keys k info hk
  | setState c e oldState newState td =>
    rw [run_setState hp] at hk
    split at hk
    · exact keys_updateClient hp.1 h.keys k info hk
    · split at hk
      · exact keys_deleteBoth h.keys k info hk
      · exact h.keys k info hk
  | close c e =>
    change (deleteBoth (e.key c) w.maps).flowStats k = _ at hk
    rw [deleteBoth_key] at hk
    exact keys_deleteBoth h.keys k info hk
  | ingress skb =>
    cases hkey : skb.key with
    | none =>
      simp only [Event.run, tcIngress, hkey] at hk
      exact h.keys k info hk
    | some key =>
      rw [flowStats_ingress hkey (none_of_reverse hconns h.keys)] at hk
      split at hk
      · obtain ⟨info, hinfo, -⟩ := Option.map_eq_some_iff.mp hk
        exact h.keys k info hinfo
      · exact h.keys k info hk

theorem valid_forget (h : Sound conns w) (c' : SockKey) (client server : ThreadData)
    (hserved : (w.history.forget c).served c' = some (client, server)) : isValidData server = true := by
  change Function.update _ _ _ _ = _ at hserved
  rcases eq_or_ne c' c with rfl | hne
  · rw [Function.update_self] at hserved
    cases hserved
  · rw [Function.update_of_ne hne] at hserved
    exact h.valid c' client server hserved

theorem Sound.valid_note (h : Sound conns w) (ev : Event) (c' : SockKey) (client server : ThreadData)
    (hserved : (w.history.note anew w.maps ev).served c' = some (client, server)) : isValidData server = true := by
  cases ev with
  | connect c td =>
    simp only [History.note] at hserved
    split at hserved
    · rw [served_write] at hserved
      exact h.valid c' client server hserved
    · exact h.valid c' client server hserved
  | accept c td =>
    simp only [History.note] at hserved
    split at hserved
    · split at hserved
      · rename_i hv
        change Function.update _ _ _ _ = _ at hserved
        rcases eq_or_ne c' c with rfl | hne
        · rw [Function.update_self] at hserved
          cases hold : w.history.served c' with
          | none =>
            rw [hold] at hserved
            cases hserved
            exact hv
          | some pair =>
            rw [hold] at hserved
            cases hserved
            exact h.valid c' client server hold
        · rw [Function.update_of_ne hne] at hserved
          exact h.valid c' client server hserved
      · exact h.valid c' client server hserved
    · exact h.valid c' client server hserved
  | setState c e oldState newState td =>
    simp only [History.note] at hserved
    split at hserved
    · split at hserved
      · rw [served_write] at hserved
        exact h.valid c' client server hserved
      · exact h.valid c' client server hserved
    · split at hserved
      · exact valid_forget h c' client server hserved
      · exact h.valid c' client server hserved
  | close c e => exact valid_forget h c' client server hserved
  | ingress skb =>
    simp only [History.note] at hserved
    split at hserved
    · exact h.valid c' client server hserved
    · exact h.valid c' client server hserved

theorem Sound.next (h : Sound conns w) (hconns : ∀ c, conns c → ¬ conns c.reverse) {ev : Event}
    (hp : Proper conns ev) : Sound conns (w.next anew ev) :=
  ⟨h.keys_run hp hconns, h.valid_note ev⟩

theorem right_next_iff (hconns : ∀ c, conns c → ¬ conns c.reverse) (hs : Sound conns w) (h : Right w) {ev : Event}
    (hp : Proper conns ev) : Right (w.next anew ev) ↔ Admitted anew w ev := by
  have hsingle := single_of_keys hconns (hs.keys_run hp hconns)
  unfold World.next
  cases ev with
  | connect c td =>
    have hrun : (Event.connect c td).run w.maps = updateClient td c w.maps := rfl
    simp only [hrun, History.note, Admitted] at hsingle ⊢
    cases hv : isValidData td with
    | true => exact (right_write_iff hs h hv hsingle).trans ⟨fun hf _ => hf, fun hf => hf rfl⟩
    | false =>
      have hsame : updateClient td c w.maps = w.maps := if_neg (by rw [hv]; exact Bool.false_ne_true)
      rw [hsame]
      exact iff_of_true h fun hf => absurd hf Bool.false_ne_true
  | accept c td => exact right_accept_iff h hsingle
  | setState c e oldState newState td =>
    simp only [run_setState hp, History.note, Admitted] at hsingle ⊢
    by_cases hest : (oldState = .synSent ∨ oldState = .synRecv) ∧ newState = .established
    · simp only [if_pos hest] at hsingle ⊢
      cases hv : isValidData td with
      | true => exact (right_write_iff hs h hv hsingle).trans ⟨fun hf _ _ => hf, fun hf => hf hest rfl⟩
      | false =>
        have hsame : updateClient td c w.maps = w.maps := if_neg (by rw [hv]; exact Bool.false_ne_true)
        rw [hsame]
        exact iff_of_true h fun _ hf => absurd hf Bool.false_ne_true
    · simp only [if_neg hest]
      refine iff_of_true ?_ fun hyes => absurd hyes hest
      by_cases hclosing : Closing oldState newState
      · rw [if_pos hclosing, if_pos hclosing]
        exact right_delete hconns hs h hp.1
      · rw [if_neg hclosing, if_neg hclosing]
        exact h
  | close c e =>
    refine iff_of_true ?_ trivial
    have hrun : (Event.close c e).run w.maps = deleteBoth c w.maps := deleteBoth_key e
    rw [hrun]
    exact right_delete hconns hs h hp
  | ingress skb => exact right_ingress_iff hconns hs h hsingle

/-- The end of a connection leaves nothing of it. -/
theorem clean_run {ev : Event} (hp : Proper conns ev) : Clean (ev.run m) ev := by
  cases ev with
  | close c e =>
    have hrun : (Event.close c e).run m = deleteBoth c m := deleteBoth_key e
    rw [hrun]
    exact gone_deleteBoth
  | setState c e oldState newState td =>
    rintro rfl
    rw [run_setState hp, if_neg (fun h => absurd h.2 (by decide)), if_pos (show Closing oldState .close from Or.inr rfl)]
    exact gone_deleteBoth
  | connect c td => trivial
  | accept c td => trivial
  | ingress skb => trivial

/-- The tuples of two connections have nothing in common. -/
theorem ne_of_conns (hconns : ∀ c, conns c → ¬ conns c.reverse) {c c' k : SockKey} (hc : conns c) (hc' : conns c')
    (hne : c' ≠ c) (hk : k = c ∨ k = c.reverse) : k ≠ c' ∧ k ≠ c'.reverse := by
  rcases hk with rfl | rfl
  · exact ⟨hne.symm, fun heq => hconns c' hc' (heq ▸ hc)⟩
  · refine ⟨fun heq => hconns c hc (heq ▸ hc'), fun heq => hne ?_⟩
    rw [← SockKey.reverse_reverse c', ← heq, SockKey.reverse_reverse]

theorem same_updateClient {k : SockKey} (hne : k ≠ c) : (updateClient td c m).flowStats k = m.flowStats k ∧
    (updateClient td c m).rcvQueStatus k = m.rcvQueStatus k := by
  unfold updateClient
  split
  · exact ⟨Function.update_of_ne hne _ _, rfl⟩
  · exact ⟨rfl, rfl⟩

theorem same_deleteBoth {k : SockKey} (hne : k ≠ c ∧ k ≠ c.reverse) : (deleteBoth c m).flowStats k = m.flowStats k ∧
    (deleteBoth c m).rcvQueStatus k = m.rcvQueStatus k := by
  have hno : ¬ (k = c ∨ k = c.reverse) := not_or.mpr hne
  exact ⟨by rw [flowStats_deleteBoth, if_neg hno], by rw [rcvQueStatus_deleteBoth, if_neg hno]⟩

theorem rcvQueStatus_addFlow (len : UInt32) (key : SockKey) : (addFlow len key m).rcvQueStatus = m.rcvQueStatus := by
  unfold addFlow
  split <;> rfl

theorem rcvQueStatus_addQueue {skb : SkBuff} {key k : SockKey} (hne : k ≠ key) :
    (addQueue skb key m).rcvQueStatus k = m.rcvQueStatus k := by
  unfold addQueue
  split
  · rfl
  · split
    · exact Function.update_of_ne hne _ _
    · rfl

theorem rcvQueStatus_accept {k : SockKey} (hne : k ≠ c) :
    ((Event.accept c td).run m).rcvQueStatus k = m.rcvQueStatus k := by
  have hflow : (acceptFlow td c m).rcvQueStatus = m.rcvQueStatus := by
    unfold acceptFlow
    split
    · dsimp only
      split <;> rfl
    · rfl
  change (acceptQueue td c (acceptFlow td c m)).rcvQueStatus k = _
  rw [← hflow, acceptQueue]
  split
  · exact Function.update_of_ne hne _ _
  · rfl

/-- Events stay with their connection. -/
theorem aside_run (hconns : ∀ c, conns c → ¬ conns c.reverse) {ev : Event} (hp : Proper conns ev) :
    Aside conns ev m (ev.run m) := by
  intro c hc hother k hk
  cases ev with
  | connect c' td => exact same_updateClient (ne_of_conns hconns hc hp hother hk).1
  | accept c' td =>
    obtain ⟨hne, -⟩ := ne_of_conns hconns hc hp hother hk
    exact ⟨by rw [flowStats_accept, if_neg hne], rcvQueStatus_accept hne⟩
  | setState c' e oldState newState td =>
    have hne := ne_of_conns hconns hc hp.1 hother hk
    rw [run_setState hp]
    split
    · exact same_updateClient hne.1
    · split
      · exact same_deleteBoth hne
      · exact ⟨rfl, rfl⟩
  | close c' e =>
    have hrun : (Event.close c' e).run m = deleteBoth c' m := deleteBoth_key e
    rw [hrun]
    exact same_deleteBoth (ne_of_conns hconns hc hp hother hk)
  | ingress skb =>
    cases hkey : skb.key with
    | none =>
      simp only [Event.run, tcIngress, hkey]
      exact ⟨trivial, trivial⟩
    | some key =>
      have hno : k ≠ key ∧ k ≠ key.reverse := by
        constructor
        · rintro rfl
          exact hother (hk.imp (fun heq => hkey.trans (congrArg some heq)) fun heq => hkey.trans (congrArg some heq))
        · rintro heq
          refine hother ?_
          have hrev : key = k.reverse := by rw [heq, SockKey.reverse_reverse]
          rcases hk with rfl | rfl
          · exact Or.inr (hkey.trans (congrArg some hrev))
          · exact Or.inl (hkey.trans (congrArg some hrev))
      simp only [Event.run, tcIngress, hkey, flowStats_addQueue, flowStats_addFlow, if_neg hno.1, if_neg hno.2,
        rcvQueStatus_addQueue hno.1, rcvQueStatus_addFlow]
      exact ⟨trivial, trivial⟩

theorem right_init : Right init where
  single k := Or.inl rfl
  flow k info h := by cases h
  served c client server h := by cases h

theorem sound_init : Sound conns init where
  keys k info h := by cases h
  valid c client server h := by cases h

/-- ATTRIBUTED: along every run of admitted events the maps are right, and there the next event keeps them right exactly
    where it is admitted; in any run the end of a connection leaves nothing of it and no event goes beyond its own
    connection. -/
theorem right_iff_admitted (anew : Bool) (conns : SockKey → Prop) (hconns : ∀ c, conns c → ¬ conns c.reverse) :
    (∀ w, Runs (step anew) init (fun w ev => Proper conns ev ∧ Admitted anew w ev) w → Right w ∧
      ∀ ev, Proper conns ev → (Right (w.next anew ev) ↔ Admitted anew w ev)) ∧
    ∀ w, Runs (step anew) init (fun _ ev => Proper conns ev) w →
      (∀ k, w.maps.flowStats k = none ∨ w.maps.flowStats k.reverse = none) ∧
      ∀ ev, Proper conns ev → Clean (ev.run w.maps) ev ∧ Aside conns ev w.maps (ev.run w.maps) := by
  constructor
  · intro w hw
    have h : Sound conns w ∧ Right w := by
      refine hw.invariant (I := fun w => Sound conns w ∧ Right w) ⟨sound_init, right_init⟩ ?_
      rintro w ev w' ⟨hs, hr⟩ ⟨hp, hadm⟩ hstep
      cases hstep
      exact ⟨hs.next hconns hp, (right_next_iff hconns hs hr hp).mpr hadm⟩
    exact ⟨h.2, fun ev hp => right_next_iff hconns h.1 h.2 hp⟩
  · intro w hw
    have hs : Sound conns w := by
      refine hw.invariant (I := Sound conns) sound_init ?_
      intro w ev w' hs hp hstep
      cases hstep
      exact hs.next hconns hp
    exact ⟨single_of_keys hconns hs.keys, fun ev hp => ⟨clean_run hp, aside_run hconns hp⟩⟩

end

namespace Example

/-- A connection over the loopback device. -/
def tuple : SockKey := ⟨0x0100007F, 0x0100007F, 40000, 6379⟩

def conns (c : SockKey) : Prop := c = tuple

theorem conns_single (c : SockKey) (hc : conns c) : ¬ conns c.reverse := by
  rw [show c = tuple from hc]
  exact fun h => absurd (show tuple.reverse = tuple from h) (by decide)

def client : ThreadData := ⟨100, 101, str "redis-cli"⟩
def server : ThreadData := ⟨200, 200, str "redis-server"⟩

/-- The server accepts before the change of state of its socket is seen, which happens in a softirq on the client's
    thread. -/
def early : List Event :=
  [.connect tuple client, .setState tuple .connecting .synSent .established client, .accept tuple server,
    .setState tuple .accepting .synRecv .established client]

def reached : World := early.foldl (World.next true) init

theorem runs_early : Runs (step true) init (fun _ ev => Proper conns ev) reached := by
  refine .next (.next (.next (.next .start ?_ rfl) ?_ rfl) ?_ rfl) ?_ rfl
  · exact rfl
  · exact ⟨rfl, fun _ => by decide, nofun⟩
  · exact rfl
  · exact ⟨rfl, nofun, fun _ => by decide⟩

end Example

theorem right_iff_admitted_loopback :
    (∀ w, Runs (step true) init (fun w ev => Proper Example.conns ev ∧ Admitted true w ev) w → Right w ∧
      ∀ ev, Proper Example.conns ev → (Right (w.next true ev) ↔ Admitted true w ev)) ∧
    ∀ w, Runs (step true) init (fun _ ev => Proper Example.conns ev) w →
      (∀ k, w.maps.flowStats k = none ∨ w.maps.flowStats k.reverse = none) ∧
      ∀ ev, Proper Example.conns ev → Clean (ev.run w.maps) ev ∧ Aside Example.conns ev w.maps (ev.run w.maps) :=
  right_iff_admitted true Example.conns Example.conns_single

/-- The server that `accept` has recorded is gone with the change of state. -/
theorem not_right_early :
    ¬ ∀ w, Runs (step true) init (fun _ ev => Proper Example.conns ev) w → Right w := by
  intro h
  have hserved : Example.reached.history.served Example.tuple = some (Example.client, Example.server) := by
    decide +kernel
  have hentry : Example.reached.maps.flowStats Example.tuple = some ⟨Example.client, .zero, 0⟩ := by decide +kernel
  obtain ⟨flow, hflow⟩ := (h _ Example.runs_early).served _ _ _ hserved
  rw [hentry] at hflow
  exact absurd (SockInfo.mk.inj (Option.some.inj hflow)).2.1 (by decide +kernel)

end NetFlowKernel

end OeAware

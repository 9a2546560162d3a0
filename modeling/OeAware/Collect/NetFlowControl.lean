import OeAware.Common.Topic
import OeAware.Schemes.Container
import OeAware.Schemes.Loops
import OeAware.Schemes.Run

/-! @src src/plugin/collect/system/net_interface/net_interface.cpp | name:NetInterface::OpenTopic, CloseTopic, Run |
    scheme:run

    Two topics share one BPF object; `openTopic` says which of them use it. It is loaded with the first and released with
    the last, and its tc program goes to every interface that is known, then and in each `Run`.

        load ──▶ attach ──▶ tc to each interface ──▶ skel
          │        │              │ none
          ✗        ✗ (stays)      ✗ destroy

    The kernel knows which objects are loaded, which have their probes attached, and which program is on which interface;
    what is on an interface goes with it. -/

namespace OeAware
open Schemes

namespace NetFlowControl

def OE_NETWORK_INTERFACE_BASE_TOPIC : Str := str "base"
def OE_NETWORK_INTERFACE_DRIVER_TOPIC : Str := str "driver"
def OE_LOCAL_NET_AFFINITY : Str := str "local_net_affinity"
def OE_PARA_LOC_NET_AFFI_USER_DEBUG : Str := str "local_net_affinity_usr_debug"
def OE_PARA_LOC_NET_AFFI_KERN_DEBUG : Str := str "local_net_affinity_kern_debug"
def OE_PARA_PROCESS_AFFINITY : Str := str "process_affinity"
def OE_NET_THREAD_QUE_DATA : Str := str "net_thread_que_data"
def OE_PARA_NET_RECV_QUE_USER_DEBUG : Str := str "net_thread_que_data_usr_debug"
def OE_PARA_NET_RECV_QUE_KERN_DEBUG : Str := str "lnet_thread_que_data_kern_debug"
def OE_PARA_THREAD_RECV_QUE_CNT : Str := str "thread_recv_que_cnt"

def topicStr : List Str :=
  [OE_NETWORK_INTERFACE_BASE_TOPIC, OE_NETWORK_INTERFACE_DRIVER_TOPIC, OE_LOCAL_NET_AFFINITY, OE_NET_THREAD_QUE_DATA]

/-- `InitTopicInfo`. -/
def supportParams (topicName : Str) : List Str :=
  if topicName = OE_NETWORK_INTERFACE_BASE_TOPIC ∨ topicName = OE_NETWORK_INTERFACE_DRIVER_TOPIC then
    [str "operstate_up", str "operstate_all"]
  else if topicName = OE_LOCAL_NET_AFFINITY then
    [OE_PARA_PROCESS_AFFINITY, OE_PARA_LOC_NET_AFFI_USER_DEBUG, OE_PARA_LOC_NET_AFFI_KERN_DEBUG]
  else if topicName = OE_NET_THREAD_QUE_DATA then
    [OE_PARA_THREAD_RECV_QUE_CNT, OE_PARA_NET_RECV_QUE_USER_DEBUG, OE_PARA_NET_RECV_QUE_KERN_DEBUG]
  else []

/-- `NetIntfBaseInfo`. -/
structure NetIntfBaseInfo where
  ifindex : Int32
  name : Str
  operstate : Int32

def IF_OPER_UNKNOWN : Int32 := 0
def IF_OPER_DOWN : Int32 := 2

/-- The collector; of a hook only its interface is kept, the rest is the same for all. -/
structure State where
  openedParams : Str → USet Str
  debugCtl : Str → Bool
  netIntfBaseInfo : UMap Int32 NetIntfBaseInfo
  skel : Option ℕ
  netDevHooks : USet Int32
  openTopic : USet Str

structure Kernel where
  /-- The number of the next object. -/
  next : ℕ
  loaded : List ℕ
  linked : List ℕ
  /-- Which object's program is on which interface. -/
  tc : List (ℕ × Int32)
  present : Int32 → Bool

structure World where
  state : State
  kernel : Kernel

/-- What the calls into libbpf return while one of ours runs. -/
structure Env where
  load : Bool
  attach : Bool
  hookCreate : Int32 → ℤ
  tcAttach : Int32 → ℤ
  tcDetach : Int32 → ℤ
  hookDestroy : Int32 → ℤ

def EEXIST : ℤ := 17
def ENODEV : ℤ := 19

/-- A null pointer is followed. -/
inductive Fault where
  | nullSkel
  deriving DecidableEq

/-! ### The BPF object -/

/-- `bpf_tc_attach`, which fails where there is no such interface. -/
def bpfTcAttach (env : Env) (k : Kernel) (ifindex : Int32) : ℤ :=
  if k.present ifindex then env.tcAttach ifindex else -ENODEV

/-- `AttachTcProgram`, whose result is only logged. -/
def attachTcProgram (env : Env) (obj : ℕ) (item : NetIntfBaseInfo) (w : World) : World :=
  let ifindex := item.ifindex
  if ifindex ∈ w.state.netDevHooks.elems then w
  else if ((w.state.netIntfBaseInfo.find ifindex).map NetIntfBaseInfo.operstate).getD IF_OPER_UNKNOWN = IF_OPER_DOWN then w
  else if env.hookCreate ifindex ≠ 0 ∧ env.hookCreate ifindex ≠ -EEXIST then w
  else if bpfTcAttach env w.kernel ifindex ≠ 0 then w
  else ⟨{ w.state with netDevHooks := w.state.netDevHooks.insert ifindex },
    { w.kernel with tc := (obj, ifindex) :: w.kernel.tc }⟩

/-- The loop over `netIntfBaseInfo`. -/
def attachAll (env : Env) (obj : ℕ) (w : World) : World :=
  (w.state.netIntfBaseInfo.keys.filterMap w.state.netIntfBaseInfo.find).foldl
    (fun w item => attachTcProgram env obj item w) w

/-- `net_flow_kernel__destroy`. -/
def destroy (obj : ℕ) (k : Kernel) : Kernel := { k with loaded := k.loaded.erase obj, linked := k.linked.erase obj }

def openNetFlow (topicName : Str) (env : Env) (w : World) : World × Bool :=
  if w.state.openTopic.elems ≠ [] then
    (⟨{ w.state with openTopic := w.state.openTopic.insert topicName }, w.kernel⟩, true)
  else if ¬ env.load then (w, false)
  else
    let obj := w.kernel.next
    let w : World := ⟨w.state, { w.kernel with next := obj + 1, loaded := obj :: w.kernel.loaded }⟩
    if ¬ env.attach then (w, false)
    else
      let w := attachAll env obj ⟨w.state, { w.kernel with linked := obj :: w.kernel.linked }⟩
      if w.state.netDevHooks.elems = [] then (⟨w.state, destroy obj w.kernel⟩, false)
      else (⟨{ w.state with skel := some obj, openTopic := w.state.openTopic.insert topicName }, w.kernel⟩, true)

/-- `bpf_tc_detach` and `bpf_tc_hook_destroy`, each of which takes the program off the interface. -/
def detachTc (env : Env) (tc : List (ℕ × Int32)) (ifindex : Int32) : List (ℕ × Int32) :=
  if env.tcDetach ifindex = 0 ∨ env.hookDestroy ifindex = 0 then tc.filter (fun p => p.2 ≠ ifindex) else tc

def closeNetFlow (topicName : Str) (env : Env) (w : World) : World :=
  let openTopic := w.state.openTopic.erase topicName
  if openTopic.elems ≠ [] then ⟨{ w.state with openTopic }, w.kernel⟩
  else
    let kernel := { w.kernel with tc := w.state.netDevHooks.elems.foldl (detachTc env) w.kernel.tc }
    ⟨{ w.state with openTopic, netDevHooks := .empty, skel := none },
      match w.state.skel with
      | some obj => destroy obj kernel
      | none => kernel⟩

/-! ### The calls -/

/-- The parameter of a topic that needs the object. -/
def needs (topicName : Str) : Option Str :=
  if topicName = OE_LOCAL_NET_AFFINITY then some OE_PARA_PROCESS_AFFINITY
  else if topicName = OE_NET_THREAD_QUE_DATA then some OE_PARA_THREAD_RECV_QUE_CNT
  else none

/-- The parameters that switch debugging. -/
def debugParams (topicName : Str) : List Str :=
  if topicName = OE_LOCAL_NET_AFFINITY then [OE_PARA_LOC_NET_AFFI_USER_DEBUG, OE_PARA_LOC_NET_AFFI_KERN_DEBUG]
  else if topicName = OE_NET_THREAD_QUE_DATA then [OE_PARA_NET_RECV_QUE_USER_DEBUG, OE_PARA_NET_RECV_QUE_KERN_DEBUG]
  else []

/-- `debugCtl[topic.params] = on`, where it is such a parameter. -/
def switchDebug (topic : Topic) (on : Bool) (s : State) : State :=
  if topic.params ∈ debugParams topic.topicName then
    { s with debugCtl := Function.update s.debugCtl topic.params on }
  else s

def setOpened (topicName : Str) (params : USet Str) (s : State) : State :=
  { s with openedParams := Function.update s.openedParams topicName params }

def openTopic (topic : Topic) (env : Env) (w : World) : World × Result :=
  if topic.topicName ∉ topicStr then (w, ⟨some FAILED, str "topic not register"⟩)
  else if topic.params ∉ supportParams topic.topicName then (w, ⟨some FAILED, str "topic not support params"⟩)
  else if topic.params ∈ (w.state.openedParams topic.topicName).elems then
    (w, ⟨some FAILED, str "topic already opened"⟩)
  else
    let r := if needs topic.topicName = some topic.params then openNetFlow topic.topicName env w else (w, true)
    if ¬ r.2 then (r.1, ⟨some FAILED, str "open net flow failed"⟩)
    else
      let s := switchDebug topic true r.1.state
      (⟨setOpened topic.topicName ((s.openedParams topic.topicName).insert topic.params) s, r.1.kernel⟩, ⟨some OK, []⟩)

def closeTopic (topic : Topic) (env : Env) (w : World) : World :=
  if topic.topicName ∉ topicStr then w
  else if topic.params ∉ supportParams topic.topicName then w
  else if topic.params ∉ (w.state.openedParams topic.topicName).elems then w
  else
    let w : World :=
      ⟨setOpened topic.topicName ((w.state.openedParams topic.topicName).erase topic.params) w.state, w.kernel⟩
    let w := if needs topic.topicName = some topic.params then closeNetFlow topic.topicName env w else w
    ⟨switchDebug topic false w.state, w.kernel⟩

/-- `PublishLocalNetAffiInfo` and `PublishNetQueueInfo`, up to the reading of the maps, which follows the object. -/
def publish (env : Env) (topicName params : Str) (w : World) : Except Fault World :=
  if needs topicName = some params then
    match w.state.skel with
    | some obj => .ok (attachAll env obj w)
    | none => .error .nullSkel
  else .ok w

/-- `UpdateNetIntfBaseInfo`, with what the system has. -/
def updateNetIntfBaseInfo (found : List NetIntfBaseInfo) (info : UMap Int32 NetIntfBaseInfo) :
    UMap Int32 NetIntfBaseInfo :=
  found.foldl (fun info item => info.insert item.ifindex item) info

def setInfo (info : UMap Int32 NetIntfBaseInfo) (w : World) : World :=
  ⟨{ w.state with netIntfBaseInfo := info }, w.kernel⟩

/-- The order in which `netTopicInfo` is walked through. -/
def arrange (order : List Str) : List Str := if order.Perm topicStr then order else topicStr

def runTopic (env : Str → Env) (w : World) (topicName : Str) : Except Fault World :=
  (w.state.openedParams topicName).elems.foldlM (fun w params => publish (env topicName) topicName params w) w

def run (order : List Str) (env : Str → Env) (found : List NetIntfBaseInfo) (w : World) : Except Fault World := do
  let w ← (arrange order).foldlM (runTopic env) w
  return setInfo (updateNetIntfBaseInfo found .empty) w

/-- The calls, and what becomes of the interfaces between them. -/
inductive Call where
  | enable (found : List NetIntfBaseInfo)
  | openTopic (topic : Topic) (env : Env)
  | closeTopic (topic : Topic) (env : Env)
  | run (order : List Str) (env : Str → Env) (found : List NetIntfBaseInfo)
  | appear (ifindex : Int32)
  | vanish (ifindex : Int32)

def step (w : World) : Call → Except Fault World
  | .enable found => .ok (setInfo (updateNetIntfBaseInfo found w.state.netIntfBaseInfo) w)
  | .openTopic topic env => .ok (openTopic topic env w).1
  | .closeTopic topic env => .ok (closeTopic topic env w)
  | .run order env found => run order env found w
  | .appear ifindex =>
    .ok ⟨w.state, { w.kernel with present := Function.update w.kernel.present ifindex true }⟩
  | .vanish ifindex =>
    .ok ⟨w.state, { w.kernel with
      tc := w.kernel.tc.filter (fun p => p.2 ≠ ifindex)
      present := Function.update w.kernel.present ifindex false }⟩

def init (present : Int32 → Bool) : World :=
  ⟨⟨fun _ => .empty, fun _ => false, .empty, none, .empty, .empty⟩, ⟨0, [], [], [], present⟩⟩

/-! ### What is asked -/

/-- The object that `skel` has is the only one, and its program is where `netDevHooks` says. -/
structure Owned (w : World) : Prop where
  one : ∀ obj, w.state.skel = some obj → w.kernel.loaded = [obj] ∧ w.kernel.linked = [obj]
  gone : w.state.skel = none → w.kernel.loaded = [] ∧ w.kernel.linked = [] ∧ w.state.netDevHooks.elems = []
  hooks : ∀ obj ifindex, (obj, ifindex) ∈ w.kernel.tc ↔
    w.state.skel = some obj ∧ ifindex ∈ w.state.netDevHooks.elems

/-- What is asked of a state: and it has one exactly while one of the two parameters is open. -/
structure Right (w : World) : Prop extends Owned w where
  users : w.state.skel ≠ none ↔ OE_PARA_PROCESS_AFFINITY ∈ (w.state.openedParams OE_LOCAL_NET_AFFINITY).elems ∨
    OE_PARA_THREAD_RECV_QUE_CNT ∈ (w.state.openedParams OE_NET_THREAD_QUE_DATA).elems

/-- Nothing of this is changed. -/
structure Same (w w' : World) : Prop where
  skel : w'.state.skel = w.state.skel
  hooks : w'.state.netDevHooks = w.state.netDevHooks
  loaded : w'.kernel.loaded = w.kernel.loaded
  linked : w'.kernel.linked = w.kernel.linked
  tc : w'.kernel.tc = w.kernel.tc

/-- What is asked of a call. -/
def Good (w : World) : Call → World → Prop
  | .openTopic topic env, w' => (openTopic topic env w).2.code = some FAILED → Same w w'
  | _, _ => True

/-- The call is the first to need the object. -/
def Opens (w : World) (topic : Topic) : Prop :=
  needs topic.topicName = some topic.params ∧ topic.params ∉ (w.state.openedParams topic.topicName).elems ∧
    w.state.openTopic.elems = []

/-- The call is the last to have needed it. -/
def Closes (w : World) (topic : Topic) : Prop :=
  needs topic.topicName = some topic.params ∧ topic.params ∈ (w.state.openedParams topic.topicName).elems ∧
    (w.state.openTopic.erase topic.topicName).elems = []

/-- The calls and events that keep it right: a loaded object can be attached, the program can be taken off every interface,
    and no interface goes while it carries one. -/
def Admitted (w : World) : Call → Prop
  | .openTopic topic env => Opens w topic → env.load = true → env.attach = true
  | .closeTopic topic env => Closes w topic →
      ∀ ifindex ∈ w.state.netDevHooks.elems, env.tcDetach ifindex = 0 ∨ env.hookDestroy ifindex = 0
  | .vanish ifindex => ifindex ∉ w.state.netDevHooks.elems
  | _ => True

/-! ### The users -/

/-- `openTopic` has the topics with the parameter that needs the object, and there is one as long as it has any. -/
structure Kept (w : World) : Prop where
  topics : ∀ t, t ∈ w.state.openTopic.elems ↔ ∃ p, needs t = some p ∧ p ∈ (w.state.openedParams t).elems
  skel : w.state.skel = none ↔ w.state.openTopic.elems = []

section
variable {w w' : World}

theorem needs_eq_some {t p : Str} : needs t = some p ↔ t = OE_LOCAL_NET_AFFINITY ∧ p = OE_PARA_PROCESS_AFFINITY ∨
    t = OE_NET_THREAD_QUE_DATA ∧ p = OE_PARA_THREAD_RECV_QUE_CNT := by
  have hne : OE_NET_THREAD_QUE_DATA ≠ OE_LOCAL_NET_AFFINITY := by decide +kernel
  unfold needs
  constructor
  · intro h
    split at h
    · rename_i ht
      exact Or.inl ⟨ht, (Option.some.inj h).symm⟩
    · split at h
      · rename_i ht
        exact Or.inr ⟨ht, (Option.some.inj h).symm⟩
      · cases h
  · rintro (⟨rfl, rfl⟩ | ⟨rfl, rfl⟩)
    · rw [if_pos rfl]
    · rw [if_neg hne, if_pos rfl]

/-- A parameter that needs the object is one of its topic. -/
theorem supported_of_needs {t p : Str} (h : needs t = some p) : t ∈ topicStr ∧ p ∈ supportParams t := by
  rcases needs_eq_some.mp h with ⟨rfl, rfl⟩ | ⟨rfl, rfl⟩
  · decide +kernel
  · decide +kernel

theorem Kept.users (h : Kept w) : w.state.skel ≠ none ↔
    OE_PARA_PROCESS_AFFINITY ∈ (w.state.openedParams OE_LOCAL_NET_AFFINITY).elems ∨
    OE_PARA_THREAD_RECV_QUE_CNT ∈ (w.state.openedParams OE_NET_THREAD_QUE_DATA).elems := by
  rw [Ne, h.skel]
  constructor
  · intro hne
    obtain ⟨t, ht⟩ := List.exists_mem_of_ne_nil _ hne
    obtain ⟨p, hp, hmem⟩ := (h.topics t).mp ht
    rcases needs_eq_some.mp hp with ⟨rfl, rfl⟩ | ⟨rfl, rfl⟩
    · exact Or.inl hmem
    · exact Or.inr hmem
  · rintro (hmem | hmem)
    · exact List.ne_nil_of_mem ((h.topics _).mpr ⟨_, needs_eq_some.mpr (Or.inl ⟨rfl, rfl⟩), hmem⟩)
    · exact List.ne_nil_of_mem ((h.topics _).mpr ⟨_, needs_eq_some.mpr (Or.inr ⟨rfl, rfl⟩), hmem⟩)

theorem Kept.congr (h : Kept w) (hparams : w'.state.openedParams = w.state.openedParams)
    (hskel : w'.state.skel = w.state.skel) (htopic : w'.state.openTopic = w.state.openTopic) : Kept w' where
  topics t := by rw [htopic, hparams]; exact h.topics t
  skel := by rw [hskel, htopic]; exact h.skel

/-! ### The program on the interfaces -/

variable {env : Env} {obj : ℕ}

/-- What can become of an interface. -/
theorem attachTcProgram_cases (item : NetIntfBaseInfo) : attachTcProgram env obj item w = w ∨
    attachTcProgram env obj item w = ⟨{ w.state with netDevHooks := w.state.netDevHooks.insert item.ifindex },
      { w.kernel with tc := (obj, item.ifindex) :: w.kernel.tc }⟩ := by
  unfold attachTcProgram
  dsimp only
  split
  · exact Or.inl rfl
  · split
    · exact Or.inl rfl
    · split
      · exact Or.inl rfl
      · split
        · exact Or.inl rfl
        · exact Or.inr rfl

/-- Only hooks come, and programs of the object. -/
theorem attachTcProgram_shape (item : NetIntfBaseInfo) : ∃ hooks tc, attachTcProgram env obj item w =
    ⟨{ w.state with netDevHooks := hooks }, { w.kernel with tc := tc }⟩ := by
  rcases @attachTcProgram_cases w env obj item with h | h
  · exact ⟨_, _, h⟩
  · exact ⟨_, _, h⟩

theorem foldl_shape : ∀ (items : List NetIntfBaseInfo) (w : World), ∃ hooks tc,
    items.foldl (fun w item => attachTcProgram env obj item w) w =
      ⟨{ w.state with netDevHooks := hooks }, { w.kernel with tc := tc }⟩
  | [], w => ⟨_, _, rfl⟩
  | item :: items, w => by
    obtain ⟨hooks, tc, h⟩ := @attachTcProgram_shape w env obj item
    obtain ⟨hooks', tc', h'⟩ := foldl_shape items (attachTcProgram env obj item w)
    exact ⟨hooks', tc', by rw [List.foldl_cons, h', h]⟩

theorem attachAll_shape : ∃ hooks tc, attachAll env obj w =
    ⟨{ w.state with netDevHooks := hooks }, { w.kernel with tc := tc }⟩ := foldl_shape _ w

/-- The hooks are where the program of the object is. -/
def Hooked (obj : ℕ) (w : World) : Prop :=
  ∀ o ifindex, (o, ifindex) ∈ w.kernel.tc ↔ o = obj ∧ ifindex ∈ w.state.netDevHooks.elems

theorem Hooked.attachTcProgram (h : Hooked obj w) (item : NetIntfBaseInfo) :
    Hooked obj (attachTcProgram env obj item w) := by
  rcases @attachTcProgram_cases w env obj item with heq | heq
  · rwa [heq]
  · rw [heq]
    intro o ifindex
    rw [List.mem_cons, Prod.mk.injEq, h o ifindex, USet.mem_insert]
    constructor
    · rintro (⟨rfl, rfl⟩ | ⟨rfl, hmem⟩)
      · exact ⟨rfl, Or.inl rfl⟩
      · exact ⟨rfl, Or.inr hmem⟩
    · rintro ⟨rfl, rfl | hmem⟩
      · exact Or.inl ⟨rfl, rfl⟩
      · exact Or.inr ⟨rfl, hmem⟩

theorem Hooked.foldl : ∀ (items : List NetIntfBaseInfo) {w : World}, Hooked obj w →
    Hooked obj (items.foldl (fun w item => NetFlowControl.attachTcProgram env obj item w) w)
  | [], _, h => h
  | item :: items, _, h => Hooked.foldl items (h.attachTcProgram item)

theorem Hooked.attachAll (h : Hooked obj w) : Hooked obj (attachAll env obj w) := Hooked.foldl _ h

theorem mem_foldl_detachTc {p : ℕ × Int32} : ∀ (ids : List Int32) {tc : List (ℕ × Int32)},
    p ∈ ids.foldl (detachTc env) tc ↔
      p ∈ tc ∧ ∀ ifindex ∈ ids, p.2 = ifindex → env.tcDetach ifindex ≠ 0 ∧ env.hookDestroy ifindex ≠ 0
  | [], tc => by simp
  | ifindex :: ids, tc => by
    rw [List.foldl_cons, mem_foldl_detachTc ids, List.forall_mem_cons, ← and_assoc]
    refine and_congr_left fun _ => ?_
    unfold detachTc
    split
    · rename_i hok
      rw [List.mem_filter, decide_eq_true_eq]
      refine and_congr_right fun _ => ⟨fun hne heq => absurd heq hne, fun himp heq => ?_⟩
      obtain ⟨h1, h2⟩ := himp heq
      exact hok.elim h1 h2
    · rename_i hfail
      obtain ⟨h1, h2⟩ := not_or.mp hfail
      exact ⟨fun hmem => ⟨hmem, fun _ => ⟨h1, h2⟩⟩, And.left⟩

/-! ### The object -/

theorem Owned.congr (h : Owned w) (hs : Same w w') : Owned w' where
  one obj ho := by rw [hs.loaded, hs.linked]; exact h.one obj (hs.skel ▸ ho)
  gone hn := by rw [hs.loaded, hs.linked, hs.hooks]; exact h.gone (hs.skel ▸ hn)
  hooks obj ifindex := by rw [hs.tc, hs.skel, hs.hooks]; exact h.hooks obj ifindex

theorem Owned.hooked (h : Owned w) (hskel : w.state.skel = some obj) : Hooked obj w := by
  intro o ifindex
  rw [h.hooks, hskel, Option.some.injEq, eq_comm]

/-- While there is an object, its program may go to more interfaces. -/
theorem Owned.attachAll (h : Owned w) (hskel : w.state.skel = some obj) : Owned (attachAll env obj w) := by
  have hh := @Hooked.attachAll w env obj (h.hooked hskel)
  obtain ⟨hooks, tc, heq⟩ := @attachAll_shape w env obj
  rw [heq] at hh ⊢
  refine ⟨h.one, fun hn => ?_, fun o ifindex => ?_⟩
  · rw [hskel] at hn
    cases hn
  · rw [hh o ifindex, hskel, Option.some.injEq, eq_comm]

/-- What the first to need the object finds. -/
structure Bare (w : World) : Prop where
  skel : w.state.skel = none
  loaded : w.kernel.loaded = []
  linked : w.kernel.linked = []
  hooks : w.state.netDevHooks.elems = []
  tc : w.kernel.tc = []

theorem Owned.bare (h : Owned w) (hskel : w.state.skel = none) : Bare w := by
  obtain ⟨hl, hk, hh⟩ := h.gone hskel
  refine ⟨hskel, hl, hk, hh, List.eq_nil_iff_forall_not_mem.mpr fun p hp => ?_⟩
  rw [((h.hooks p.1 p.2).mp hp).1] at hskel
  cases hskel

/-- The first opening: nothing has changed, or the object is there with its program on some interface. -/
theorem openNetFlow_first {t : Str} (hb : Bare w) (ht : w.state.openTopic.elems = [])
    (hok : env.load = true → env.attach = true) :
    ((openNetFlow t env w).2 = false ∧ Same w (openNetFlow t env w).1 ∧ ∃ hooks,
      (openNetFlow t env w).1.state = { w.state with netDevHooks := hooks }) ∨
    ((openNetFlow t env w).2 = true ∧ Owned (openNetFlow t env w).1 ∧ ∃ hooks,
      (openNetFlow t env w).1.state = { w.state with
        netDevHooks := hooks, skel := some w.kernel.next, openTopic := w.state.openTopic.insert t }) := by
  cases hload : env.load with
  | false =>
    have heq : openNetFlow t env w = (w, false) := by
      rw [openNetFlow, if_neg (not_not.mpr ht), if_pos (by rw [hload]; exact Bool.false_ne_true)]
    rw [heq]
    exact Or.inl ⟨rfl, ⟨rfl, rfl, rfl, rfl, rfl⟩, _, rfl⟩
  | true =>
    have hattach := hok hload
    set w1 : World := ⟨w.state, { w.kernel with
      next := w.kernel.next + 1
      loaded := w.kernel.next :: w.kernel.loaded
      linked := w.kernel.next :: w.kernel.linked }⟩ with hw1
    have hh : Hooked w.kernel.next (attachAll env w.kernel.next w1) := by
      refine Hooked.attachAll fun o ifindex => ?_
      rw [hw1]
      dsimp only
      rw [hb.tc, hb.hooks]
      simp
    have heq : openNetFlow t env w = if (attachAll env w.kernel.next w1).state.netDevHooks.elems = [] then
        (⟨(attachAll env w.kernel.next w1).state, destroy w.kernel.next (attachAll env w.kernel.next w1).kernel⟩, false)
      else (⟨{ (attachAll env w.kernel.next w1).state with
        skel := some w.kernel.next
        openTopic := (attachAll env w.kernel.next w1).state.openTopic.insert t },
          (attachAll env w.kernel.next w1).kernel⟩, true) := by
      simp only [openNetFlow, ht, hload, hattach, ne_eq, not_true_eq_false, if_false]
      rfl
    rw [heq]
    obtain ⟨hooks, tc, hshape⟩ := @attachAll_shape w1 env w.kernel.next
    rw [hshape] at hh ⊢
    split
    · rename_i hnone
      refine Or.inl ⟨rfl, ⟨rfl, ?_, ?_, ?_, ?_⟩, hooks, rfl⟩
      · exact (USet.eq_empty hnone).trans (USet.eq_empty hb.hooks).symm
      · exact (List.erase_cons_head ..).trans rfl
      · exact (List.erase_cons_head ..).trans rfl
      · refine (List.eq_nil_iff_forall_not_mem.mpr fun p hp => ?_).trans hb.tc.symm
        have hmem := ((hh p.1 p.2).mp hp).2
        rw [show hooks.elems = [] from hnone] at hmem
        cases hmem
    · refine Or.inr ⟨rfl, ⟨fun obj hobj => ?_, nofun, fun o ifindex => ?_⟩, hooks, rfl⟩
      · cases hobj
        exact ⟨by rw [hw1, hb.loaded], by rw [hw1, hb.linked]⟩
      · refine (hh o ifindex).trans (and_congr_left fun _ => ?_)
        exact ⟨fun heq => by rw [heq], fun heq => (Option.some.inj heq).symm⟩

/-- An object that cannot be attached stays. -/
theorem openNetFlow_leak {t : Str} (ht : w.state.openTopic.elems = []) (hload : env.load = true)
    (hattach : env.attach = false) : openNetFlow t env w =
      (⟨w.state, { w.kernel with next := w.kernel.next + 1, loaded := w.kernel.next :: w.kernel.loaded }⟩, false) := by
  simp only [openNetFlow, ht, hload, hattach, ne_eq, not_true_eq_false, if_false, Bool.false_eq_true, not_false_eq_true,
    if_true]

/-! ### One call -/

theorem switchDebug_eq (topic : Topic) (on : Bool) (s : State) : ∃ debugCtl,
    switchDebug topic on s = { s with debugCtl := debugCtl } := by
  unfold switchDebug
  split <;> exact ⟨_, rfl⟩

/-- A parameter is opened for which `openNetFlow`, where it is needed, has succeeded. -/
def opened (topic : Topic) (w : World) : World :=
  ⟨setOpened topic.topicName (((switchDebug topic true w.state).openedParams topic.topicName).insert topic.params)
    (switchDebug topic true w.state), w.kernel⟩

theorem same_opened (topic : Topic) : Same w (opened topic w) := by
  obtain ⟨debugCtl, h⟩ := switchDebug_eq topic true w.state
  unfold opened
  rw [h]
  exact ⟨rfl, rfl, rfl, rfl, rfl⟩

theorem mem_opened (topic : Topic) (t p : Str) : p ∈ ((opened topic w).state.openedParams t).elems ↔
    (t = topic.topicName ∧ p = topic.params) ∨ p ∈ (w.state.openedParams t).elems := by
  obtain ⟨debugCtl, h⟩ := switchDebug_eq topic true w.state
  unfold opened setOpened
  rw [h]
  dsimp only
  rcases eq_or_ne t topic.topicName with rfl | hne
  · rw [Function.update_self, USet.mem_insert]
    simp
  · rw [Function.update_of_ne hne]
    simp [hne]

/-- A parameter without the object is opened. -/
theorem Kept.opened {topic : Topic} (h : Kept w) (hno : needs topic.topicName ≠ some topic.params) :
    Kept (opened topic w) := by
  have hs := same_opened (w := w) topic
  obtain ⟨debugCtl, hd⟩ := switchDebug_eq topic true w.state
  have htopic : (NetFlowControl.opened topic w).state.openTopic = w.state.openTopic := by
    unfold NetFlowControl.opened setOpened
    rw [hd]
  refine ⟨fun t => ?_, by rw [hs.skel, htopic]; exact h.skel⟩
  rw [htopic, h.topics t]
  refine exists_congr fun p => and_congr_right fun hp => ?_
  rw [mem_opened]
  refine (or_iff_right ?_).symm
  rintro ⟨rfl, rfl⟩
  exact hno hp

/-- A parameter with the object is opened once the topic is among the users. -/
theorem Kept.opened_user {topic : Topic} {hooks : USet Int32} {skel : Option ℕ} {kernel : Kernel} (h : Kept w)
    (hneeds : needs topic.topicName = some topic.params) (hskel : skel ≠ none) :
    Kept (NetFlowControl.opened topic ⟨{ w.state with
      netDevHooks := hooks, skel := skel, openTopic := w.state.openTopic.insert topic.topicName }, kernel⟩) := by
  set w1 : World := ⟨{ w.state with
    netDevHooks := hooks, skel := skel, openTopic := w.state.openTopic.insert topic.topicName }, kernel⟩ with hw1
  have hs := same_opened (w := w1) topic
  obtain ⟨debugCtl, hd⟩ := switchDebug_eq topic true w1.state
  have htopic : (NetFlowControl.opened topic w1).state.openTopic = w.state.openTopic.insert topic.topicName := by
    unfold NetFlowControl.opened setOpened
    rw [hd]
  have hmine : topic.topicName ∈ (w.state.openTopic.insert topic.topicName).elems := USet.mem_insert.mpr (Or.inl rfl)
  refine ⟨fun t => ?_, iff_of_false (fun hn => ?_) (fun hn => ?_)⟩
  · rw [htopic, USet.mem_insert, h.topics t]
    constructor
    · rintro (rfl | ⟨p, hp, hmem⟩)
      · exact ⟨_, hneeds, (mem_opened topic _ _).mpr (Or.inl ⟨rfl, rfl⟩)⟩
      · exact ⟨p, hp, (mem_opened topic t p).mpr (Or.inr hmem)⟩
    · rintro ⟨p, hp, hmem⟩
      rcases (mem_opened topic t p).mp hmem with ⟨rfl, -⟩ | hmem
      · exact Or.inl rfl
      · exact Or.inr ⟨p, hp, hmem⟩
  · rw [hs.skel] at hn
    exact hskel hn
  · rw [htopic] at hn
    rw [hn] at hmine
    cases hmine

theorem right_of (hk : Kept w) (ho : Owned w) : Right w := ⟨ho, hk.users⟩

/-- The topic and the parameter are known, and it is not open. -/
def Passes (w : World) (topic : Topic) : Prop :=
  topic.topicName ∈ topicStr ∧ topic.params ∈ supportParams topic.topicName ∧
    topic.params ∉ (w.state.openedParams topic.topicName).elems

theorem openTopic_refused {topic : Topic} (h : ¬ Passes w topic) : (openTopic topic env w).1 = w := by
  unfold openTopic
  split
  · rfl
  · rename_i h1
    split
    · rfl
    · rename_i h2
      split
      · rfl
      · rename_i h3
        exact absurd ⟨not_not.mp h1, not_not.mp h2, h3⟩ h

theorem openTopic_passed {topic : Topic} (h : Passes w topic) : openTopic topic env w =
    if needs topic.topicName = some topic.params then
      if (openNetFlow topic.topicName env w).2 then (opened topic (openNetFlow topic.topicName env w).1, ⟨some OK, []⟩)
      else ((openNetFlow topic.topicName env w).1, ⟨some FAILED, str "open net flow failed"⟩)
    else (opened topic w, ⟨some OK, []⟩) := by
  obtain ⟨h1, h2, h3⟩ := h
  unfold openTopic
  rw [if_neg (not_not.mpr h1), if_neg (not_not.mpr h2), if_neg h3]
  dsimp only
  split
  · rw [ite_not]
    rfl
  · rfl

theorem passes_of_opens {topic : Topic} (h : Opens w topic) : Passes w topic :=
  ⟨(supported_of_needs h.1).1, (supported_of_needs h.1).2, h.2.1⟩

theorem ok_ne_failed : (some OK : Option ℤ) ≠ some FAILED := by decide

/-- `OpenTopic` where it is admitted. -/
theorem openTopic_right {topic : Topic} (hk : Kept w) (ho : Owned w)
    (hadm : Opens w topic → env.load = true → env.attach = true) :
    (Kept (openTopic topic env w).1 ∧ Owned (openTopic topic env w).1) ∧
      ((openTopic topic env w).2.code = some FAILED → Same w (openTopic topic env w).1) := by
  by_cases hp : Passes w topic
  · rw [openTopic_passed hp]
    by_cases hneeds : needs topic.topicName = some topic.params
    · rw [if_pos hneeds]
      by_cases hfirst : w.state.openTopic.elems = []
      · have hskel := hk.skel.mpr hfirst
        rcases @openNetFlow_first w env topic.topicName (ho.bare hskel) hfirst (hadm ⟨hneeds, hp.2.2, hfirst⟩) with
          ⟨hno, hsame, hooks, hstate⟩ | ⟨hyes, howned, hooks, hstate⟩
        · rw [hno, if_neg Bool.false_ne_true]
          exact ⟨⟨hk.congr (by rw [hstate]) (by rw [hstate]) (by rw [hstate]), ho.congr hsame⟩, fun _ => hsame⟩
        · rw [hyes, if_pos rfl]
          refine ⟨⟨?_, howned.congr (same_opened topic)⟩, fun hfail => absurd hfail ok_ne_failed⟩
          have hw1 : (openNetFlow topic.topicName env w).1 =
              ⟨{ w.state with
                netDevHooks := hooks
                skel := some w.kernel.next
                openTopic := w.state.openTopic.insert topic.topicName }, (openNetFlow topic.topicName env w).1.kernel⟩ := by
            rw [← hstate]
          rw [hw1]
          exact hk.opened_user hneeds (Option.some_ne_none _)
      · have heq : openNetFlow topic.topicName env w =
            (⟨{ w.state with openTopic := w.state.openTopic.insert topic.topicName }, w.kernel⟩, true) := if_pos hfirst
        rw [heq, if_pos rfl]
        refine ⟨⟨hk.opened_user hneeds (fun hn => hfirst (hk.skel.mp hn)), ?_⟩, fun hfail => absurd hfail ok_ne_failed⟩
        have hmore : Owned (⟨{ w.state with openTopic := w.state.openTopic.insert topic.topicName }, w.kernel⟩ : World) :=
          ho.congr ⟨rfl, rfl, rfl, rfl, rfl⟩
        exact hmore.congr (same_opened topic)
    · rw [if_neg hneeds]
      exact ⟨⟨hk.opened hneeds, ho.congr (same_opened topic)⟩, fun hfail => absurd hfail ok_ne_failed⟩
  · rw [openTopic_refused hp]
    exact ⟨⟨hk, ho⟩, fun _ => ⟨rfl, rfl, rfl, rfl, rfl⟩⟩

/-- And where it is not. -/
theorem openTopic_leaks {topic : Topic} (hk : Kept w) (hopens : Opens w topic) (hload : env.load = true)
    (hattach : env.attach = false) : ¬ Owned (openTopic topic env w).1 := by
  intro h
  rw [openTopic_passed (passes_of_opens hopens), if_pos hopens.1, openNetFlow_leak hopens.2.2 hload hattach,
    if_neg Bool.false_ne_true] at h
  exact List.cons_ne_nil _ _ (h.gone (hk.skel.mpr hopens.2.2)).1

/-! ### `CloseTopic` -/

/-- The parameter is given back before anything else. -/
def closed (topic : Topic) (w : World) : World :=
  ⟨setOpened topic.topicName ((w.state.openedParams topic.topicName).erase topic.params) w.state, w.kernel⟩

theorem mem_closed (topic : Topic) (t p : Str) : p ∈ ((closed topic w).state.openedParams t).elems ↔
    ¬ (t = topic.topicName ∧ p = topic.params) ∧ p ∈ (w.state.openedParams t).elems := by
  unfold closed setOpened
  dsimp only
  rcases eq_or_ne t topic.topicName with rfl | hne
  · rw [Function.update_self, USet.mem_erase]
    simp
  · rw [Function.update_of_ne hne]
    simp [hne]

/-- Debugging aside, which nothing here depends on. -/
theorem closeTopic_eq (topic : Topic) : (closeTopic topic env w = w ∧ ¬ Closes w topic) ∨ ∃ debugCtl,
    topic.params ∈ (w.state.openedParams topic.topicName).elems ∧
    closeTopic topic env w =
      (let w1 := if needs topic.topicName = some topic.params then closeNetFlow topic.topicName env (closed topic w)
        else closed topic w
      ⟨{ w1.state with debugCtl := debugCtl }, w1.kernel⟩) := by
  unfold closeTopic
  split
  · rename_i h
    exact Or.inl ⟨rfl, fun hc => h (supported_of_needs hc.1).1⟩
  · split
    · rename_i h
      exact Or.inl ⟨rfl, fun hc => h (supported_of_needs hc.1).2⟩
    · split
      · rename_i h
        exact Or.inl ⟨rfl, fun hc => h hc.2.1⟩
      · rename_i hopen
        obtain ⟨debugCtl, hd⟩ := switchDebug_eq topic false (if needs topic.topicName = some topic.params then
          closeNetFlow topic.topicName env (closed topic w) else closed topic w).state
        refine Or.inr ⟨debugCtl, not_not.mp hopen, ?_⟩
        dsimp only
        rw [← hd]
        rfl

/-- A parameter without the object is closed. -/
theorem Kept.closed {topic : Topic} (h : Kept w) (hno : needs topic.topicName ≠ some topic.params) :
    Kept (closed topic w) where
  topics t := by
    refine (h.topics t).trans (exists_congr fun p => and_congr_right fun hp => ?_)
    rw [mem_closed]
    refine (and_iff_right ?_).symm
    rintro ⟨rfl, rfl⟩
    exact hno hp
  skel := h.skel

/-- The users once the topic is none of them any more. -/
theorem Kept.topics_closed {topic : Topic} (h : Kept w) (hneeds : needs topic.topicName = some topic.params) (t : Str) :
    t ∈ (w.state.openTopic.erase topic.topicName).elems ↔
      ∃ p, needs t = some p ∧ p ∈ ((NetFlowControl.closed topic w).state.openedParams t).elems := by
  rw [USet.mem_erase, h.topics t]
  constructor
  · rintro ⟨hne, p, hp, hmem⟩
    exact ⟨p, hp, (mem_closed topic t p).mpr ⟨fun hmine => hne hmine.1, hmem⟩⟩
  · rintro ⟨p, hp, hmem⟩
    obtain ⟨hother, hmem⟩ := (mem_closed topic t p).mp hmem
    refine ⟨?_, p, hp, hmem⟩
    rintro rfl
    rw [hneeds] at hp
    cases hp
    exact hother ⟨rfl, rfl⟩

/-- What the last user leaves. -/
theorem closeNetFlow_last {t : Str} (hlast : (w.state.openTopic.erase t).elems = []) :
    closeNetFlow t env w = ⟨{ w.state with
        openTopic := w.state.openTopic.erase t, netDevHooks := .empty, skel := none },
      match w.state.skel with
      | some obj => destroy obj { w.kernel with tc := w.state.netDevHooks.elems.foldl (detachTc env) w.kernel.tc }
      | none => { w.kernel with tc := w.state.netDevHooks.elems.foldl (detachTc env) w.kernel.tc }⟩ :=
  if_neg (not_not.mpr hlast)

theorem closeNetFlow_more {t : Str} (hmore : (w.state.openTopic.erase t).elems ≠ []) :
    closeNetFlow t env w = ⟨{ w.state with openTopic := w.state.openTopic.erase t }, w.kernel⟩ := if_pos hmore

/-- It is right exactly if the program is off every interface. -/
theorem owned_last {t : Str} (ho : Owned w) (hlast : (w.state.openTopic.erase t).elems = []) :
    Owned (closeNetFlow t env w) ↔
      ∀ ifindex ∈ w.state.netDevHooks.elems, env.tcDetach ifindex = 0 ∨ env.hookDestroy ifindex = 0 := by
  have htc : (closeNetFlow t env w).kernel.tc = w.state.netDevHooks.elems.foldl (detachTc env) w.kernel.tc := by
    rw [closeNetFlow_last hlast]
    cases w.state.skel <;> rfl
  have hskel : (closeNetFlow t env w).state.skel = none := by rw [closeNetFlow_last hlast]
  constructor
  · intro h ifindex hmem
    by_contra hfail
    obtain ⟨h1, h2⟩ := not_or.mp hfail
    cases hw : w.state.skel with
    | none =>
      rw [(ho.gone hw).2.2] at hmem
      cases hmem
    | some obj =>
      have hstays : (obj, ifindex) ∈ (closeNetFlow t env w).kernel.tc := by
        rw [htc, mem_foldl_detachTc]
        refine ⟨(ho.hooks obj ifindex).mpr ⟨hw, hmem⟩, fun i _ heq => ?_⟩
        obtain rfl : ifindex = i := heq
        exact ⟨h1, h2⟩
      have hsome := ((h.hooks obj ifindex).mp hstays).1
      rw [hskel] at hsome
      cases hsome
  · intro hok
    have hnone : ∀ p, p ∉ (closeNetFlow t env w).kernel.tc := by
      intro p hp
      rw [htc, mem_foldl_detachTc] at hp
      obtain ⟨hp, hfail⟩ := hp
      have hmem := ((ho.hooks p.1 p.2).mp hp).2
      obtain ⟨h1, h2⟩ := hfail p.2 hmem rfl
      exact (hok p.2 hmem).elim h1 h2
    refine ⟨fun obj hobj => ?_, fun _ => ?_, fun obj ifindex => iff_of_false (hnone _) fun hh => ?_⟩
    · rw [hskel] at hobj
      cases hobj
    · rw [closeNetFlow_last hlast]
      cases hw : w.state.skel with
      | none => exact ⟨(ho.gone hw).1, (ho.gone hw).2.1, rfl⟩
      | some obj =>
        obtain ⟨hl, hk⟩ := ho.one obj hw
        refine ⟨?_, ?_, rfl⟩
        · exact (congrArg (List.erase · obj) hl).trans (List.erase_cons_head ..)
        · exact (congrArg (List.erase · obj) hk).trans (List.erase_cons_head ..)
    · rw [hskel] at hh
      cases hh.1

theorem owned_debug {debugCtl : Str → Bool} : Owned ⟨{ w.state with debugCtl := debugCtl }, w.kernel⟩ ↔ Owned w :=
  ⟨fun h => h.congr ⟨rfl, rfl, rfl, rfl, rfl⟩, fun h => h.congr ⟨rfl, rfl, rfl, rfl, rfl⟩⟩

/-- `CloseTopic`: the users are right in any case, the object where the call is admitted. -/
theorem closeTopic_iff {topic : Topic} (hk : Kept w) (ho : Owned w) : Kept (closeTopic topic env w) ∧
    (Owned (closeTopic topic env w) ↔ (Closes w topic →
      ∀ ifindex ∈ w.state.netDevHooks.elems, env.tcDetach ifindex = 0 ∨ env.hookDestroy ifindex = 0)) := by
  rcases @closeTopic_eq w env topic with ⟨heq, hno⟩ | ⟨debugCtl, hopen, heq⟩
  · rw [heq]
    exact ⟨hk, iff_of_true ho fun hc => absurd hc hno⟩
  · have hclosed : Owned (closed topic w) := ho.congr ⟨rfl, rfl, rfl, rfl, rfl⟩
    rw [heq]
    by_cases hneeds : needs topic.topicName = some topic.params
    · rw [if_pos hneeds]
      by_cases hlast : (w.state.openTopic.erase topic.topicName).elems = []
      · refine ⟨Kept.congr (w := closeNetFlow topic.topicName env (closed topic w)) ⟨fun t => ?_, ?_⟩ rfl rfl rfl,
          owned_debug.trans ((owned_last hclosed hlast).trans ?_)⟩
        · rw [@closeNetFlow_last (closed topic w) env _ hlast]
          exact hk.topics_closed hneeds t
        · rw [@closeNetFlow_last (closed topic w) env _ hlast]
          exact iff_of_true rfl hlast
        · exact ⟨fun hoff _ => hoff, fun hoff => hoff ⟨hneeds, hopen, hlast⟩⟩
      · rw [@closeNetFlow_more (closed topic w) env _ hlast]
        refine ⟨⟨fun t => hk.topics_closed hneeds t, ?_⟩, iff_of_true (hclosed.congr ⟨rfl, rfl, rfl, rfl, rfl⟩)
          fun hc => absurd hc.2.2 hlast⟩
        refine iff_of_false (fun hn => hlast ?_) hlast
        rw [List.eq_nil_iff_forall_not_mem]
        intro t ht
        have hnil := hk.skel.mp hn
        rw [USet.mem_erase, hnil] at ht
        cases ht.2
    · rw [if_neg hneeds]
      exact ⟨(hk.closed hneeds).congr rfl rfl rfl, iff_of_true (owned_debug.mpr hclosed) fun hc => absurd hc.1 hneeds⟩

/-! ### `Run` -/

/-- Only the hooks, the programs and what is known of the interfaces have changed. -/
structure Only (w w' : World) : Prop where
  params : w'.state.openedParams = w.state.openedParams
  skel : w'.state.skel = w.state.skel
  topics : w'.state.openTopic = w.state.openTopic
  owned : Owned w → Owned w'

theorem publish_ok (hk : Kept w) {t p : Str} (hmem : p ∈ (w.state.openedParams t).elems) :
    ∃ w', publish env t p w = .ok w' ∧ Only w w' := by
  unfold publish
  split
  · rename_i hneeds
    cases hskel : w.state.skel with
    | none =>
      have hnil := hk.skel.mp hskel
      have hin := (hk.topics t).mpr ⟨p, hneeds, hmem⟩
      rw [hnil] at hin
      cases hin
    | some obj =>
      obtain ⟨hooks, tc, heq⟩ := @attachAll_shape w env obj
      exact ⟨_, rfl, by rw [heq], by rw [heq], by rw [heq], fun ho => ho.attachAll hskel⟩
  · exact ⟨w, rfl, rfl, rfl, rfl, id⟩

theorem Only.trans {w w' w'' : World} (h : Only w w') (h' : Only w' w'') : Only w w'' :=
  ⟨h'.params.trans h.params, h'.skel.trans h.skel, h'.topics.trans h.topics, h'.owned ∘ h.owned⟩

theorem Only.kept (h : Only w w') (hk : Kept w) : Kept w' := hk.congr h.params h.skel h.topics

/-- The parameters of a topic; all that are still to come are open. -/
theorem runTopic_ok {env : Str → Env} (hk : Kept w) (t : Str) : ∃ w', runTopic env w t = .ok w' ∧ Only w w' := by
  have hround : ∀ p ps w1, (∀ q ∈ p :: ps, q ∈ (w.state.openedParams t).elems) ∧ Only w w1 →
      ∃ w2, publish (env t) t p w1 = .ok w2 ∧ (∀ q ∈ ps, q ∈ (w.state.openedParams t).elems) ∧ Only w w2 := by
    rintro p ps w1 ⟨hmem, honly⟩
    obtain ⟨hp, hps⟩ := List.forall_mem_cons.mp hmem
    obtain ⟨w2, hw2, h2⟩ := @publish_ok w1 (env t) (honly.kept hk) t p (by rw [honly.params]; exact hp)
    exact ⟨w2, hw2, hps, honly.trans h2⟩
  obtain ⟨w', hrun, -, honly⟩ := foldlM_succeeds (f := fun w params => publish (env t) t params w)
    (P := fun ps w1 => (∀ q ∈ ps, q ∈ (w.state.openedParams t).elems) ∧ Only w w1) hround
    ⟨fun q hq => hq, rfl, rfl, rfl, id⟩
  exact ⟨w', hrun, honly⟩

theorem run_ok {order : List Str} {env : Str → Env} {found : List NetIntfBaseInfo} (hk : Kept w) :
    ∃ w', run order env found w = .ok w' ∧ Only w w' := by
  have hround : ∀ t (_ : List Str) w1, Only w w1 → ∃ w2, runTopic env w1 t = .ok w2 ∧ Only w w2 := by
    intro t _ w1 h
    obtain ⟨w2, hw2, h2⟩ := @runTopic_ok w1 env (h.kept hk) t
    exact ⟨w2, hw2, h.trans h2⟩
  obtain ⟨w1, hrun, honly⟩ := foldlM_succeeds (P := fun _ w1 => Only w w1) (l := arrange order) hround
    ⟨rfl, rfl, rfl, id⟩
  refine ⟨setInfo (updateNetIntfBaseInfo found .empty) w1, ?_, honly.trans ⟨rfl, rfl, rfl, fun ho => ?_⟩⟩
  · rw [run, hrun]
    rfl
  · exact ho.congr ⟨rfl, rfl, rfl, rfl, rfl⟩

/-! ### Runs -/

theorem kept_init (present : Int32 → Bool) : Kept (init present) where
  topics _ := iff_of_false List.not_mem_nil fun ⟨_, _, h⟩ => List.not_mem_nil h
  skel := iff_of_true rfl rfl

theorem owned_init (present : Int32 → Bool) : Owned (init present) where
  one obj h := by cases h
  gone _ := ⟨rfl, rfl, rfl⟩
  hooks obj ifindex := iff_of_false List.not_mem_nil fun h => by cases h.1

/-- An interface that goes takes its program with it. -/
theorem owned_vanish (ho : Owned w) (ifindex : Int32) : Owned ⟨w.state, { w.kernel with
      tc := w.kernel.tc.filter (fun p => p.2 ≠ ifindex)
      present := Function.update w.kernel.present ifindex false }⟩ ↔ ifindex ∉ w.state.netDevHooks.elems := by
  constructor
  · intro h hmem
    cases hskel : w.state.skel with
    | none =>
      rw [(ho.gone hskel).2.2] at hmem
      cases hmem
    | some obj =>
      have hin := (h.hooks obj ifindex).mpr ⟨hskel, hmem⟩
      exact absurd rfl (of_decide_eq_true (List.mem_filter.mp hin).2)
  · intro hno
    refine ⟨ho.one, ho.gone, fun obj i => ?_⟩
    rw [List.mem_filter, ho.hooks]
    refine ⟨And.left, fun h => ⟨h, decide_eq_true ?_⟩⟩
    rintro rfl
    exact hno h.2

/-- One call or event: it does what is asked, without a fault, exactly where it is admitted, and then the users are
    right again. -/
theorem step_iff (hk : Kept w) (ho : Owned w) (a : Call) :
    ((∃ w', step w a = .ok w' ∧ Right w' ∧ Good w a w') ↔ Admitted w a) ∧
      ∀ w', step w a = .ok w' → Admitted w a → Kept w' ∧ Owned w' := by
  have hsum : ∀ {w' : World}, step w a = .ok w' → Kept w' → ((Owned w' ∧ Good w a w') ↔ Admitted w a) →
      ((∃ w', step w a = .ok w' ∧ Right w' ∧ Good w a w') ↔ Admitted w a) ∧
        ∀ w', step w a = .ok w' → Admitted w a → Kept w' ∧ Owned w' := by
    intro w' hs hk' hiff
    refine ⟨⟨?_, fun hadm => ?_⟩, fun w'' hs' hadm => ?_⟩
    · rintro ⟨w'', hs', hr, hg⟩
      rw [hs] at hs'
      cases hs'
      exact hiff.mp ⟨hr.toOwned, hg⟩
    · obtain ⟨ho', hg⟩ := hiff.mpr hadm
      exact ⟨w', hs, right_of hk' ho', hg⟩
    · rw [hs] at hs'
      cases hs'
      exact ⟨hk', (hiff.mpr hadm).1⟩
  cases a with
  | enable found =>
    refine hsum rfl (hk.congr rfl rfl rfl) (iff_of_true ⟨ho.congr ⟨rfl, rfl, rfl, rfl, rfl⟩, trivial⟩ trivial)
  | openTopic topic env =>
    by_cases hadm : Admitted w (.openTopic topic env)
    · obtain ⟨⟨hk', ho'⟩, hg⟩ := openTopic_right hk ho hadm
      exact hsum rfl hk' (iff_of_true ⟨ho', hg⟩ hadm)
    · obtain ⟨hopens, hno⟩ := Classical.not_imp.mp hadm
      obtain ⟨hload, hattach⟩ := Classical.not_imp.mp hno
      have hleak := openTopic_leaks hk hopens hload (eq_false_of_ne_true hattach)
      refine ⟨iff_of_false ?_ hadm, fun _ _ h => absurd h hadm⟩
      rintro ⟨w', hs, hr, -⟩
      cases hs
      exact hleak hr.toOwned
  | closeTopic topic env =>
    obtain ⟨hk', hiff⟩ := @closeTopic_iff w env topic hk ho
    exact hsum rfl hk' ((and_iff_left trivial).trans hiff)
  | run order env found =>
    obtain ⟨w', hrun, honly⟩ := @run_ok w order env found hk
    exact hsum hrun (honly.kept hk) (iff_of_true ⟨honly.owned ho, trivial⟩ trivial)
  | appear ifindex =>
    exact hsum rfl (hk.congr rfl rfl rfl) (iff_of_true ⟨ho.congr ⟨rfl, rfl, rfl, rfl, rfl⟩, trivial⟩ trivial)
  | vanish ifindex =>
    exact hsum rfl (hk.congr rfl rfl rfl) ((and_iff_left trivial).trans (owned_vanish ho ifindex))

/-- ONE OBJECT: along every run of admitted calls and events the object, its users and its hooks are right, and there the
    next one keeps them so, and leaves them alone where it fails, exactly where it is admitted. -/
theorem right_of_admitted (present : Int32 → Bool) (hw : Runs step (init present) Admitted w) :
    Right w ∧ ∀ a, (∃ w', step w a = .ok w' ∧ Right w' ∧ Good w a w') ↔ Admitted w a := by
  have h : Kept w ∧ Owned w := by
    refine hw.invariant (I := fun w => Kept w ∧ Owned w) ⟨kept_init present, owned_init present⟩ ?_
    rintro w a w' ⟨hk, ho⟩ hadm hs
    exact (step_iff hk ho a).2 w' hs hadm
  exact ⟨right_of h.1 h.2, fun a => (step_iff h.1 h.2 a).1⟩

end

namespace Example

def eth0 : NetIntfBaseInfo := ⟨2, str "eth0", 6⟩

/-- What happens where the object is loaded, and `tc` says when the program is taken off. -/
def env (attach : Bool) (tc : ℤ) : Env := ⟨true, attach, fun _ => -EEXIST, fun _ => 0, fun _ => tc, fun _ => tc⟩

def affinity : Topic := ⟨str "net_interface_collector", OE_LOCAL_NET_AFFINITY, OE_PARA_PROCESS_AFFINITY⟩
def queues : Topic := ⟨str "net_interface_collector", OE_NET_THREAD_QUE_DATA, OE_PARA_THREAD_RECV_QUE_CNT⟩

def start : World := init (fun ifindex => ifindex = 2)

/-- The system has one interface, and process affinity is open. -/
def opening : List Call := [.enable [eth0], .openTopic affinity (env true 0)]

theorem exists_run {calls : List Call} {ok : World → Call → Prop} {P : World → Bool}
    (hok : ∀ a ∈ calls, ∀ w, ok w a) (h : (calls.foldlM step start).toOption.any P = true) :
    ∃ w, Runs step start ok w ∧ P w = true := by
  cases hw : calls.foldlM step start with
  | error fault =>
    rw [hw] at h
    cases h
  | ok w =>
    rw [hw] at h
    exact ⟨w, .of_foldlM hok .start hw, h⟩

end Example

/-- Both parameters are open, and the one that was opened first is closed again. -/
theorem right_of_admitted_queues : ∃ w, w.state.skel = some 0 ∧ Right w ∧
    ∀ a, (∃ w', step w a = .ok w' ∧ Right w' ∧ Good w a w') ↔ Admitted w a := by
  obtain ⟨w, hw, hskel⟩ := @Example.exists_run
    (Example.opening ++ [.openTopic Example.queues (Example.env true 0),
      .run topicStr (fun _ => Example.env true 0) [Example.eth0], .closeTopic Example.affinity (Example.env true 0)])
    Admitted (fun w => w.state.skel = some 0)
    (by simp [Example.opening, Admitted, Example.env]) (by decide +kernel)
  exact ⟨w, of_decide_eq_true hskel, right_of_admitted _ hw⟩

/-- An object that cannot be attached stays loaded though the call fails; an interface that vanishes stays among the hooks;
    and a program that cannot be taken off stays when nobody needs it any more. -/
theorem not_right_leaked :
    (∃ w a w', Runs step Example.start (fun _ _ => True) w ∧ step w a = .ok w' ∧ ¬ Good w a w' ∧ ¬ Right w') ∧
    (∃ w, Runs step Example.start (fun _ _ => True) w ∧ w.state.skel ≠ none ∧ ¬ Right w) ∧
    ∃ w, Runs step Example.start (fun _ _ => True) w ∧ w.state.skel = none ∧ ¬ Right w := by
  refine ⟨?_, ?_, ?_⟩
  · refine ⟨Example.start, .openTopic Example.affinity (Example.env false 0), _, .start, rfl, fun h => ?_, fun h => ?_⟩
    · exact absurd (h (by decide +kernel)).loaded (by decide +kernel)
    · exact absurd (h.gone (by decide +kernel)).1 (by decide +kernel)
  · obtain ⟨w, hw, hp⟩ := @Example.exists_run (Example.opening ++ [.vanish 2]) (fun _ _ => True)
      (fun w => decide (w.state.skel = some 0 ∧ 2 ∈ w.state.netDevHooks.elems ∧ (0, 2) ∉ w.kernel.tc))
      (fun _ _ _ => trivial) (by decide +kernel)
    obtain ⟨hskel, hmem, hno⟩ := of_decide_eq_true hp
    exact ⟨w, hw, by simp [hskel], fun h => hno ((h.hooks 0 2).mpr ⟨hskel, hmem⟩)⟩
  · obtain ⟨w, hw, hp⟩ := @Example.exists_run
      (Example.opening ++ [.closeTopic Example.affinity (Example.env true (-22))]) (fun _ _ => True)
      (fun w => decide (w.state.skel = none ∧ (0, 2) ∈ w.kernel.tc)) (fun _ _ _ => trivial) (by decide +kernel)
    obtain ⟨hskel, hmem⟩ := of_decide_eq_true hp
    refine ⟨w, hw, hskel, fun h => ?_⟩
    rw [((h.hooks 0 2).mp hmem).1] at hskel
    cases hskel

end NetFlowControl

end OeAware

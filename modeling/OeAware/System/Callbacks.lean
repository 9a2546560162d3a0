import OeAware.Data.Lists
import OeAware.Protocol.Sending
import OeAware.Sdk.Client
import OeAware.System.Histories

/-! @src src/plugin_mgr/message_manager.cpp, src/sdk/oe_client.cpp, src/common/data_register.cpp |
    name:TcpMessageHandler::Start, GetMessageFromDataEvent, Impl::HandleRecv | scheme:broker

    Published data on its whole way. `PublishData` writes the list with its codec and queues it under the name of
    the connection, the data thread makes a frame of each event, `recv` cuts the frames as it likes, and the
    receiving thread of the client reads the list back and calls what is registered for its topic.

        PublishData ─codec─▶ recvData ─frame─▶ ~~ recv ~~ ─▶ RecvMessage ─codec─▶ callbacks -/

namespace OeAware
open Schemes

/-- `GetMessageFromDataEvent`. -/
def getMessageFromDataEvent (event : Event) : Message := ⟨Opt.DATA.toInt, (event.payload[1]?).toList⟩

/-- The frames that `Start` makes of the events for a connection. -/
def dataFrames (events : List Event) : List MessageProtocol :=
  events.map (fun e => toRemote (getMessageFromDataEvent e))

section
variable {k : Kperf} (host : Host k) (arch : Arch)

/-- The callbacks that a round of `HandleRecv` calls, with the list each is given; `handles` are those registered
    under a key of `topicHandle`. None if the list is not read to its end. -/
def recvCallbacks (handles : Str → List ℕ) (m : Message) : Option (List (ℕ × Listed k)) :=
  if m.opt = Opt.DATA.toInt then
    match m.payload with
    | [] => none
    | bytes :: _ =>
      match Listed.deserialize host arch ⟨bytes, true⟩ with
      | .ok (d, _) => some ((handles (topicKey d.topic)).map (·, d))
      | .error _ => none
  else some []

/-- The rounds of `HandleRecv` for messages that come one after the other. -/
def recvAllCallbacks (handles : Str → List ℕ) (ms : List Message) : Option (List (ℕ × Listed k)) :=
  (ms.mapM (recvCallbacks host arch handles)).map List.flatten

variable {arch}

/-- What a list has been written as is read as that list. -/
theorem deserialize_of_serialize {kind : Kind} {d : Listed k} {bytes : Str}
    (hcodec : encoderOf arch d.topic = some kind) (h : d.Ok host.lib kind)
    (hbytes : d.serialize arch = some bytes) :
    Listed.deserialize host arch ⟨bytes, true⟩ = .ok (d, ⟨[], true⟩) := by
  obtain ⟨elements, he, hl⟩ := reads_elements host d.data h.kind h.data
  have hlen : (UInt64.ofNat d.data.length).toNat = d.data.length :=
    UInt64.toNat_ofNat_of_lt' (lt_of_le_of_lt h.len (by decide))
  have halloc : ReadsAs (allocPointers (UInt64.ofNat d.data.length)) [] () := fun rest => by
    rw [allocPointers, hlen, if_neg (Nat.not_lt.mpr h.len)]
    rfl
  have hdata : ReadsAs (times (readElement host (decoderOf arch d.topic))
      (UInt64.ofNat d.data.length).toNat) elements.flatten d.data := by
    rw [← encoderOf_eq, hcodec, hlen]
    exact hl
  have hreads : ReadsAs (Listed.deserialize host arch) (topicSerialize d.topic ++
      (serLong (UInt64.ofNat d.data.length) ++ elements.flatten)) d :=
    (reads_topic host h.topic).bind ((reads_long _ _).bind
      (halloc.bind (hdata.andThen (Reads.pure d))))
  rw [Listed.serialize, hcodec, he, Option.map_some, Option.some.injEq, List.append_assoc] at hbytes
  have := hreads []
  rwa [List.append_nil, hbytes] at this

/-- Each message of the data thread makes the client call what is registered for the topic of its list. -/
theorem recvAllCallbacks_data (handles : Str → List ℕ) : ∀ {lists : List (Listed k)}
    {messages : List Message}, (∀ d ∈ lists, ∃ kind, encoderOf arch d.topic = some kind ∧
      d.Ok host.lib kind) →
    List.Forall₂ (fun d (m : Message) => ∃ bytes, d.serialize arch = some bytes ∧
      m = ⟨Opt.DATA.toInt, [bytes]⟩) lists messages →
    recvAllCallbacks host arch handles messages =
      some (lists.flatMap (fun d => (handles (topicKey d.topic)).map (·, d)))
  | [], _, _, hm => by
    cases hm
    rfl
  | d :: lists, _, hok, hm => by
    obtain ⟨m, ms, ⟨bytes, hb, rfl⟩, hms, rfl⟩ := List.forall₂_cons_left_iff.mp hm
    obtain ⟨⟨kind, hcodec, hd⟩, hlists⟩ := List.forall_mem_cons.mp hok
    have ih := recvAllCallbacks_data handles hlists hms
    have hone : recvCallbacks host arch handles ⟨Opt.DATA.toInt, [bytes]⟩ =
        some ((handles (topicKey d.topic)).map (·, d)) := by
      simp only [recvCallbacks, if_pos, deserialize_of_serialize host hcodec hd hb]
    rw [recvAllCallbacks, Option.map_eq_some_iff] at ih
    obtain ⟨rest, hrest, hflat⟩ := ih
    rw [recvAllCallbacks, List.mapM_cons, hone, hrest, List.flatMap_cons, ← hflat]
    rfl

end

/-- FROM `Publish` TO THE CALLBACK: let data be published in a run of the server, each list with a codec for its
    topic. However `recv` cuts what the data thread writes for the connection `x`, if only the lengths in front of
    each frame come in one piece, the client receives every frame and calls, in order, what it has registered for
    the topic of each list that was published while `x` was subscribed, with the very list. -/
theorem callbacks_by_history {k : Kperf} (host : Host k) (arch : Arch)
    {log : List (TopicRequest Str Str DataList)} {s : State} (h : History log s)
    {x : Str} (hx : State.isSdk x = true) {lists : List (Listed k)}
    (hlists : List.Forall₂ (fun l d => l.serialize arch = some d.serialize) lists (deliveries x log))
    (hok : ∀ l ∈ lists, ∃ kind, encoderOf arch l.topic = some kind ∧ l.Ok host.lib kind)
    {junks : List Junk} {cs : List Str} (hj : junks.length = (s.inbox x).length)
    (hcs : cs.flatten = frames (dataFrames (s.inbox x))) (hsol : ∀ c ∈ cs, c ≠ [])
    (hlen : ∀ m ∈ dataFrames (s.inbox x), m.getProtocolStr.length < 2 ^ 31)
    (hwhole : PrefixWhole 0 (dataFrames (s.inbox x)) cs)
    (hrecv : Receivable 0 (dataFrames (s.inbox x)) cs) (handles : Str → List ℕ) :
    ∃ ms rest, recvMessages junks (.new cs) = (some ms, rest) ∧ rest.unread = [] ∧
      recvAllCallbacks host arch handles (ms.map (·.message)) =
        some (lists.flatMap (fun l => (handles (topicKey l.topic)).map (·, l))) := by
  have hinbox : s.inbox x = (deliveries x log).map (fun d => State.dataEvent d x) := h.tells.2 x hx
  have hn : (dataFrames (s.inbox x)).length = (s.inbox x).length := List.length_map _
  obtain ⟨rest, hms, hrest⟩ := inTurn_of_prefixWhole (s := .new cs) (hj.trans hn.symm) hlen hsol hcs
    hwhole hrecv _ (Nat.le_refl _)
  rw [hn, List.take_of_length_le hj.le, List.take_of_length_le hn.le] at hms
  rw [List.drop_length] at hrest
  refine ⟨_, rest, hms, hrest, recvAllCallbacks_data host handles hok ?_⟩
  -- the message of an event is the list that was published
  rw [hinbox, dataFrames, List.map_map, List.map_map, List.forall₂_map_right_iff]
  exact hlists.imp (fun l d hl => ⟨_, hl, rfl⟩)

/-- The times of the CPUs, as `PublishData` gets them. -/
def sampleTimes : DataList := ⟨(sampleListed : Listed sampleKperf).topic, [sampleCpuUtil.serialize]⟩

/-- The frame in which they are sent to a connection. -/
def timesFrame : MessageProtocol := toRemote ⟨Opt.DATA.toInt, [sampleTimes.serialize]⟩

/-- A run in which `7` subscribes to the times of the CPUs and they are published. -/
def sampleTimesRun : Option (List (TopicRequest Str Str DataList) × State) :=
  recordAll step State.asked ([], State.init)
    [.load (str "c.so") ⟨true, true,
        some [⟨sampleTimes.topic.instanceName, [sampleTimes.topic], 0, 1, 20⟩]⟩,
      .message (.SUBSCRIBE sampleTimes.topic (str "7")) accepting,
      .message (.PUBLISH_DATA sampleTimes) accepting]

/-- The frame comes in two pieces; of the two callbacks one is registered for the topic. -/
theorem callbacks_by_history_cpu_util :
    ∃ log s ms rest, History log s ∧
      recvMessages [⟨0, 0⟩] (.new [timesFrame.getProtocolStr.take 30,
        timesFrame.getProtocolStr.drop 30]) = (some ms, rest) ∧ rest.unread = [] ∧
      recvAllCallbacks sampleHost .x86_64
        (fun key => if key = str "env_info_collector::cpu_util::" then [1] else [2])
        (ms.map (·.message)) = some [(1, sampleListed)] := by
  obtain ⟨log, s, hrun, hinbox, hdata⟩ : ∃ log s, sampleTimesRun = some (log, s) ∧
      s.inbox (str "7") = [State.dataEvent sampleTimes (str "7")] ∧
      deliveries (str "7") log = [sampleTimes] :=
    ⟨_, _, rfl, by decide +kernel, by decide +kernel⟩
  have h : History log s := Recorded.of_recordAll (y := (log, s)) _ .start hrun
  have hframes : dataFrames (s.inbox (str "7")) = [timesFrame] := by rw [hinbox]; rfl
  have hcodec : encoderOf .x86_64 sampleListed.topic = some .envCpuUtil := by decide
  obtain ⟨ms, rest, hms, hrest, hcalls⟩ := @callbacks_by_history _ sampleHost .x86_64 log s h
    (str "7") (by decide) [sampleListed] (hdata ▸ .cons (by decide +kernel) .nil)
    (fun l hl => by rw [List.mem_singleton.mp hl]; exact ⟨_, hcodec, ok_sampleListed⟩)
    [⟨0, 0⟩] [timesFrame.getProtocolStr.take 30, timesFrame.getProtocolStr.drop 30]
    (by rw [hinbox]; rfl) (by rw [hframes]; decide +kernel) (by decide +kernel)
    (by rw [hframes]; decide +kernel) (by rw [hframes]; decide +kernel)
    (by rw [hframes]; decide +kernel)
    (fun key => if key = str "env_info_collector::cpu_util::" then [1] else [2])
  exact ⟨log, s, ms, rest, h, hms, hrest, hcalls⟩

end OeAware

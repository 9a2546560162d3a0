import OeAware.Protocol.Server
import OeAware.Schemes.Run

/-! @src src/common/message_protocol.cpp, src/plugin_mgr/message_manager.cpp, src/sdk/oe_client.cpp |
    name:SocketStream::Write, SendMessage, TcpMessageHandler::Start, Impl::HandleRequest | scheme:run

    `SendMessage` makes one call of `send` and returns the number of bytes accepted as a `bool`. A part of a
    frame counts as success like the whole of it, and so does the `-1` of an error; what is missing is never
    sent. The answers of `HandleMessage` and the data of `Start` go to one socket, one after the other.

        send =  length   ──▶ true    whole frame
        send =  1 … < length ──▶ true    the peer takes the next frame for the rest of this one
        send =  0        ──▶ false   nothing
        send = -1        ──▶ true    nothing -/

namespace OeAware
open Schemes

/-- `SocketStream::Write` where `send` returns `n`: the result and the bytes that were accepted. -/
def write (bytes : Str) (n : ℤ) : ℤ × Str := (n, bytes.take n.toNat)

/-- `SendMessage`. -/
def sendMessage (m : MessageProtocol) (n : ℤ) : Bool × Str :=
  ((write m.getProtocolStr n).1 != 0, (write m.getProtocolStr n).2)

/-- The message that `SendMessageToRemote` makes a frame of. -/
def toRemote (message : Message) : MessageProtocol := ⟨⟨MessageType.RESPONSE.toInt⟩, message⟩

/-- `send` has accepted the whole frame, or returned `0`. -/
def AllOrZero (m : MessageProtocol) (n : ℤ) : Prop := n = 0 ∨ (m.getProtocolStr.length : ℤ) ≤ n

theorem sendMessage_iff (m : MessageProtocol) (n : ℤ) :
    ((sendMessage m n).1 = true → (sendMessage m n).2 = m.getProtocolStr) ↔ AllOrZero m n := by
  have hsend : (sendMessage m n).1 = true ↔ n ≠ 0 := bne_iff_ne
  have hwhole : (sendMessage m n).2 = m.getProtocolStr ↔ (m.getProtocolStr.length : ℤ) ≤ n := by
    have hmin := m.le_length_getProtocolStr
    rw [sendMessage, write, List.take_eq_self_iff]
    omega
  rw [hsend, hwhole, AllOrZero]
  constructor
  · intro h
    by_cases h0 : n = 0
    · exact Or.inl h0
    · exact Or.inr (h h0)
  · rintro (h0 | hle) hne
    · exact absurd h0 hne
    · exact hle

/-- What an all-or-zero `send` adds to a stream of whole frames leaves it one. -/
theorem AllOrZero.frames {m : MessageProtocol} {n : ℤ} (h : AllOrZero m n) {wire : Str}
    (hw : ∃ ms, wire = frames ms) : ∃ ms, wire ++ (sendMessage m n).2 = frames ms := by
  obtain ⟨ms, rfl⟩ := hw
  rcases h with rfl | hle
  · exact ⟨ms, by simp [sendMessage, write]⟩
  · refine ⟨ms ++ [m], ?_⟩
    rw [sendMessage, write, List.take_of_length_le (by omega), OeAware.frames, OeAware.frames,
      List.map_append, List.flatten_append]
    simp

/-! ### The server's side -/

/-- The server, what the client behind each descriptor has been sent, and the calls of `SendMessage` with
    what `send` returned. -/
structure Peers where
  server : TcpSocket
  wire : ℕ → Str
  sends : List (MessageProtocol × ℤ)

/-- What the two threads that write to the connections do. -/
inductive PeerAct where
  /-- A round of `HandleEvents`. -/
  | event (e : EpollEvent)
  /-- `Start` has popped a `DATA` event for `fd`; `send` returns `n`. -/
  | data (fd : ℕ) (data : Str) (n : ℤ)

namespace TcpSocket
variable (s : TcpSocket) (fd : ℕ)

/-- The answer that `HandleMessage` comes to send, where it gets that far. -/
def answer (ans : Answer) : Option MessageProtocol :=
  if (s.tcpMessageHandler.isConn fd).1 then
    match recvMessage ans.junk (.new (s.socks fd)) with
    | (.received _, _) => some (toRemote ⟨ans.result.opt, ans.result.payload⟩)
    | _ => none
  else none

/-- `Start` sends to the descriptor. -/
def inUse : Bool :=
  match s.tcpMessageHandler.conns.find fd with
  | none => false
  | some type => type != DISCONNECTED

/-- The answer is the one that the handler has logged. -/
theorem sent_handleMessage {s s' : TcpSocket} {fd : ℕ} {ans : Answer}
    (h : s.handleMessage fd ans = some s') : s'.tcpMessageHandler.sent =
      s.tcpMessageHandler.sent ++ (s.answer fd ans).toList.map (fun m => (fd, m)) := by
  have hsent : (s.tcpMessageHandler.isConn fd).2.sent = s.tcpMessageHandler.sent := rfl
  unfold handleMessage at h
  unfold answer
  split at h
  · rename_i h1 hc
    cases h
    rw [hc] at hsent ⊢
    simpa using hsent
  · rename_i h1 hc
    rw [hc] at hsent ⊢
    rw [if_pos rfl]
    unfold TcpMessageHandler.handleMessage at h
    rcases he : recvMessage ans.junk (.new (s.socks fd)) with ⟨m | _ | _, stream⟩
    · rw [he] at h
      have hres : ((h1.pushEvent fd m.message).respond fd ans.result).sent = s.tcpMessageHandler.sent ++
          [(fd, toRemote ⟨ans.result.opt, ans.result.payload⟩)] := by
        rw [← hsent]
        unfold TcpMessageHandler.respond
        dsimp only
        split <;> rfl
      cases hsend : ans.send != 0 <;> rw [hsend] at h <;> cases h <;> exact hres
    · rw [he] at h
      cases h
      simpa [TcpMessageHandler.closeConn] using hsent
    · rw [he] at h
      cases h

end TcpSocket

namespace Peers
variable (p : Peers)

/-- Nothing has been sent. -/
def init : Peers := ⟨.init, fun _ => [], []⟩

/-- `SendMessage` on the connection. -/
def send (fd : ℕ) (m : MessageProtocol) (n : ℤ) : Peers :=
  { p with
    wire := Function.update p.wire fd (p.wire fd ++ (sendMessage m n).2)
    sends := (m, n) :: p.sends }

/-- The answer of a round of `HandleEvents`; a new connection has a stream of its own. -/
def answered : EpollEvent → Peers
  | .connect fd isSdk permitted added _ =>
    if (!isSdk || permitted) && added then { p with wire := Function.update p.wire fd [] } else p
  | .message fd ans =>
    match p.server.answer fd ans with
    | none => p
    | some m => p.send fd m ans.send

/-- One action; it faults where an exception leaves the server. -/
def step (p : Peers) : PeerAct → Except Unit Peers
  | .event e =>
    match p.server.handleEvent e with
    | none => .error ()
    | some server => .ok { p.answered e with server }
  | .data fd data n =>
    if p.server.inUse fd then .ok (p.send fd (toRemote ⟨Opt.DATA.toInt, [data]⟩) n) else .ok p

/-- What is promised: a call that returned `true` has sent its frame, and where the server goes on using a
    connection, its client has been sent whole frames. -/
def Whole : Prop :=
  (∀ x ∈ p.sends, (sendMessage x.1 x.2).1 = true → (sendMessage x.1 x.2).2 = x.1.getProtocolStr) ∧
    ∀ fd, p.server.inUse fd = true → ∃ ms, p.wire fd = frames ms

variable {p}

/-- If no `send` has stopped inside a frame, every stream consists of frames. -/
def Framed (p : Peers) : Prop := (∀ x ∈ p.sends, AllOrZero x.1 x.2) → ∀ fd, ∃ ms, p.wire fd = frames ms

theorem framed_init : Framed init := fun _ _ => ⟨[], rfl⟩

theorem Framed.send (h : Framed p) (fd : ℕ) (m : MessageProtocol) (n : ℤ) :
    Framed (p.send fd m n) := by
  intro hall x
  obtain ⟨hnew, hold⟩ := List.forall_mem_cons.mp hall
  by_cases hx : x = fd
  · subst hx
    simpa [Peers.send] using hnew.frames (h hold x)
  · simpa [Peers.send, hx] using h hold x

theorem Framed.answered (h : Framed p) (e : EpollEvent) : Framed (p.answered e) := by
  cases e with
  | connect fd isSdk permitted added incoming =>
    rw [Peers.answered]
    split
    · intro hall x
      by_cases hx : x = fd
      · subst hx
        exact ⟨[], by simp [frames]⟩
      · simpa [hx] using h hall x
    · exact h
  | message fd ans =>
    rw [Peers.answered]
    split
    · exact h
    · exact h.send fd _ ans.send

theorem Framed.step {p' : Peers} {a : PeerAct} (h : Framed p) (hs : p.step a = .ok p') :
    Framed p' := by
  cases a with
  | event e =>
    rw [Peers.step] at hs
    split at hs
    · cases hs
    · cases hs
      exact h.answered e
  | data fd data n =>
    rw [Peers.step] at hs
    split at hs
    · cases hs
      exact h.send fd _ n
    · cases hs
      exact h

theorem framed_runs (h : Runs step init (fun _ _ => True) p) : Framed p :=
  h.invariant framed_init (fun _ _ _ hp _ hs => hp.step hs)

end Peers

/-! ### The side of the SDK -/

/-- A call of `HandleRequest`, with what `send` returns in it. -/
structure SdkRequest where
  opt : Opt
  payload : List Str
  send : ℤ

/-- The frame of the request. -/
def SdkRequest.protocol (r : SdkRequest) : MessageProtocol :=
  ⟨⟨MessageType.REQUEST.toInt⟩, ⟨r.opt.toInt, r.payload⟩⟩

/-- `HandleRequest` up to its wait, on the one stream of the SDK: nobody looks at what `SendMessage` returns. -/
def handleRequest (wire : Str) (r : SdkRequest) : Str := wire ++ (sendMessage r.protocol r.send).2

theorem handleRequests_frames : ∀ {rs : List SdkRequest} {wire : Str},
    (∀ r ∈ rs, AllOrZero r.protocol r.send) → (∃ ms, wire = frames ms) →
    ∃ ms, rs.foldl handleRequest wire = frames ms
  | [], _, _, hw => hw
  | r :: rs, wire, hall, hw => by
    obtain ⟨hr, hrs⟩ := List.forall_mem_cons.mp hall
    exact @handleRequests_frames rs _ hrs (hr.frames hw)

/-- What is promised of the requests of the SDK, in the order in which they are made. -/
def RequestsWhole (rs : List SdkRequest) : Prop :=
  (∀ r ∈ rs, (sendMessage r.protocol r.send).1 = true →
    (sendMessage r.protocol r.send).2 = r.protocol.getProtocolStr) ∧
  ∃ ms, rs.foldl handleRequest [] = frames ms

/-- SENDS THAT ARE ALL OR NOTHING, EXACTLY: `SendMessage` returns `true` only for whole frames, and the
    streams of the server's clients and of the SDK consist of whole frames, if and only if each `send`
    accepts the whole frame or returns `0`. -/
theorem sendMessage_whole_iff (m : MessageProtocol) (n : ℤ) (p : Peers) (rs : List SdkRequest) :
    (((sendMessage m n).1 = true → (sendMessage m n).2 = m.getProtocolStr) ↔ AllOrZero m n) ∧
    (Runs Peers.step .init (fun _ _ => True) p → (p.Whole ↔ ∀ x ∈ p.sends, AllOrZero x.1 x.2)) ∧
    (RequestsWhole rs ↔ ∀ r ∈ rs, AllOrZero r.protocol r.send) := by
  refine ⟨sendMessage_iff m n, fun hp => ⟨fun h x hx => ?_, fun h => ⟨fun x hx => ?_, ?_⟩⟩,
    ⟨fun h r hr => ?_, fun h => ⟨fun r hr => ?_, ?_⟩⟩⟩
  · exact (sendMessage_iff x.1 x.2).mp (h.1 x hx)
  · exact (sendMessage_iff x.1 x.2).mpr (h x hx)
  · exact fun fd _ => Peers.framed_runs hp h fd
  · exact (sendMessage_iff r.protocol r.send).mp (h.1 r hr)
  · exact (sendMessage_iff r.protocol r.send).mpr (h r hr)
  · exact handleRequests_frames h ⟨[], rfl⟩

/-- A client asks for everything and the server's `send` accepts `n` bytes of the answer. -/
def sampleSend (n : ℤ) : List PeerAct :=
  [.event (.connect 5 false true true [queryAll.getProtocolStr]),
    .event (.message 5 ⟨⟨0, 0⟩, ⟨Opt.RESPONSE_OK.toInt, []⟩, n⟩)]

/-- The whole answer is accepted. -/
theorem sendMessage_whole_iff_answer : ∃ p : Peers, p.sends.length = 1 ∧ p.server.inUse 5 = true ∧
    p.Whole := by
  have h : Runs Peers.step .init (fun _ _ => True) _ :=
    Runs.of_runAll (fun _ _ => True) (sampleSend 32) .start rfl
  refine ⟨_, rfl, by decide, ((sendMessage_whole_iff queryAll 0 _ []).2.1 h).mpr ?_⟩
  intro x hx
  cases List.mem_singleton.mp hx
  exact Or.inr (by decide)

/-- Half of the answer is accepted: `SendMessage` returns `true`, and the server keeps the connection. -/
theorem sendMessage_partial : ∃ p : Peers, Runs Peers.step .init (fun _ _ => True) p ∧
    p.server.inUse 5 = true ∧ (p.wire 5).length = 16 ∧ (∀ ms, p.wire 5 ≠ frames ms) ∧ ¬ p.Whole := by
  have hshort : ∀ (wire : Str) ms, wire.length = 16 → wire ≠ frames ms := by
    rintro wire ms hlen rfl
    cases ms with
    | nil => cases hlen
    | cons m ms =>
      have hmin := m.le_length_getProtocolStr
      rw [frames_cons, List.length_append] at hlen
      omega
  have h : Runs Peers.step .init (fun _ _ => True) _ :=
    Runs.of_runAll (fun _ _ => True) (sampleSend 16) .start rfl
  refine ⟨_, h, by decide, by decide, fun ms => hshort _ ms (by decide), fun hw => ?_⟩
  obtain ⟨ms, hms⟩ := hw.2 5 (by decide)
  exact hshort _ ms (by decide) hms

end OeAware

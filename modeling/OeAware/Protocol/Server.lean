import OeAware.Common.Numbers
import OeAware.Protocol.Framing
import OeAware.Schemes.Container

/-! @src src/plugin_mgr/message_manager.cpp | name:TcpMessageHandler, TcpSocket

    The server's end of the connections. `epoll` says which descriptor has something to read; for a
    client's, `HandleMessage` takes one request off it, hands it to the plugin manager and writes the
    answer back. Each call builds its own `SocketStream`, so what that stream has read ahead is gone
    when the call returns.

        socks fd ──▶ SocketStream ──▶ recvMessage ──▶ (plugin manager)
                     │ lost on return                        │
             client ◀┴────────────── sent ◀── EventResult ◀──╯

    Of the kernel and the plugin manager a call takes an `Answer`. Connections are told apart in the
    log of `recvMessage` by the descriptor whose call made the entry. -/

namespace OeAware
open Schemes

def CMD_CONN : Int32 := 1
def SDK_CONN : Int32 := 2
def DISCONNECTED : Int32 := -1

/-- What a call of `HandleMessage` is given from outside: the contents of uninitialised locals, the
    plugin manager's result and what `send` returns. -/
structure Answer where
  junk : Junk
  result : EventResult
  send : ℤ

/-- `TcpMessageHandler`; of a queue all that was ever pushed. -/
structure TcpMessageHandler where
  conns : UMap ℕ Int32
  recvMessage : List (ℕ × Event)
  recvData : List Event
  sent : List (ℕ × MessageProtocol)
  shutdown : Bool

namespace TcpMessageHandler
variable (h : TcpMessageHandler) (fd : ℕ)

/-- The value of `conns[fd]`. -/
def conn : Int32 := (h.conns.find fd).getD 0

/-- `conns[fd] & SDK_CONN`. -/
def isSdk : Bool := h.conn fd &&& SDK_CONN != 0

/-- `AddConn`. -/
def addConn (type : Int32) : TcpMessageHandler :=
  if 0 < h.conn fd then h else { h with conns := h.conns.insert fd type }

/-- `IsConn`; the lookup leaves an entry behind. -/
def isConn : Bool × TcpMessageHandler :=
  (0 < h.conn fd, { h with conns := h.conns.insertNew fd 0 })

/-- `CloseConn`. -/
def closeConn : TcpMessageHandler :=
  let event : Event := ⟨Opt.UNSUBSCRIBE.toInt, .INTERNAL, [toStr fd]⟩
  { h with
    recvMessage := if h.isSdk fd then h.recvMessage ++ [(fd, event)] else h.recvMessage
    conns := h.conns.insert fd DISCONNECTED }

/-- The event that `PushEvent` makes of a message. -/
def event (msg : Message) : Event :=
  ⟨msg.opt, .EXTERNAL, msg.payload ++ if h.isSdk fd then [toStr fd] else []⟩

/-- `PushEvent`. -/
def pushEvent (msg : Message) : TcpMessageHandler :=
  { h with recvMessage := h.recvMessage ++ [(fd, h.event fd msg)] }

/-- The rest of `HandleMessage` once the result of the event is there. -/
def respond (res : EventResult) : TcpMessageHandler :=
  let sent := h.sent ++ [(fd, ⟨⟨MessageType.RESPONSE.toInt⟩, ⟨res.opt, res.payload⟩⟩)]
  if res.opt = Opt.SHUTDOWN.toInt then
    { h with
      shutdown := true
      recvData := h.recvData ++ [⟨Opt.SHUTDOWN.toInt, .EXTERNAL, []⟩]
      sent := sent }
  else { h with sent := sent }

/-- The events that calls for `fd` have pushed. -/
def pushed : List Event := (h.recvMessage.filter (fun x => x.1 = fd)).map (·.2)

/-- `HandleMessage` on a descriptor whose `recv` will return `sock`: its result and what is left to
    receive; `none` when an exception leaves it. -/
def handleMessage (sock : List Str) (ans : Answer) : Option (Bool × TcpMessageHandler × List Str) :=
  match OeAware.recvMessage ans.junk (.new sock) with
  | (.throws, _) => none
  | (.failed, stream) => some (false, h, stream.sock)
  | (.received m, stream) =>
    some (ans.send != 0, (h.pushEvent fd m.message).respond fd ans.result, stream.sock)

end TcpMessageHandler

/-- `TcpSocket`: the handler, what each open descriptor will deliver and the ones `epoll` watches. -/
structure TcpSocket where
  tcpMessageHandler : TcpMessageHandler
  socks : ℕ → List Str
  epoll : List ℕ

/-- What `epoll_wait` can report, with what the calls it leads to are given from outside. -/
inductive EpollEvent where
  /-- `epoll` reports the listening socket; `accept` returns `fd`, on which `incoming` will arrive,
      and the permission check and `EPOLL_CTL_ADD` come out as said. -/
  | connect (fd : ℕ) (isSdk permitted added : Bool) (incoming : List Str)
  /-- `epoll` reports `fd`. -/
  | message (fd : ℕ) (ans : Answer)

namespace TcpSocket
variable (s : TcpSocket) (fd : ℕ)

/-- The server after `Init`. -/
def init : TcpSocket := ⟨⟨.empty, [], [], [], false⟩, fun _ => [], []⟩

/-- `SaveConnection`. -/
def saveConnection (isSdk permitted added : Bool) (incoming : List Str) : TcpSocket :=
  if isSdk && !permitted then s
  else if !added then s
  else
    { tcpMessageHandler := s.tcpMessageHandler.addConn fd (if isSdk then SDK_CONN else CMD_CONN)
      socks := Function.update s.socks fd incoming
      epoll := fd :: s.epoll }

/-- `HandleMessage`. -/
def handleMessage (ans : Answer) : Option TcpSocket :=
  match s.tcpMessageHandler.isConn fd with
  | (false, h) => some { s with tcpMessageHandler := h }
  | (true, h) =>
    match h.handleMessage fd (s.socks fd) ans with
    | none => none
    | some (true, h, sock) =>
      some { s with tcpMessageHandler := h, socks := Function.update s.socks fd sock }
    | some (false, h, _) =>
      some
        { tcpMessageHandler := h.closeConn fd
          socks := Function.update s.socks fd []
          epoll := s.epoll.erase fd }

/-- One round of `HandleEvents`. -/
def handleEvent : EpollEvent → Option TcpSocket
  | .connect fd isSdk permitted added incoming =>
    some (s.saveConnection fd isSdk permitted added incoming)
  | .message fd ans => s.handleMessage fd ans

/-- The rounds of `HandleEvents` one after the other. -/
def handleEvents : TcpSocket → List EpollEvent → Option TcpSocket
  | s, [] => some s
  | s, a :: as =>
    match s.handleEvent a with
    | none => none
    | some s => handleEvents s as

/-- The type under which a connection is registered. -/
def conn : Int32 := s.tcpMessageHandler.conn fd

/-- The events that calls for `fd` have pushed. -/
def pushed : List Event := s.tcpMessageHandler.pushed fd

end TcpSocket

/-! ### What a call does to the connections -/

namespace TcpMessageHandler

/-- Nothing has changed but for the connection `fd`. -/
def Only (fd : ℕ) (h h' : TcpMessageHandler) : Prop :=
  ∀ x, x ≠ fd → h'.conn x = h.conn x ∧ h'.pushed x = h.pushed x

theorem Only.trans {fd : ℕ} {h h' h'' : TcpMessageHandler} (h1 : Only fd h h')
    (h2 : Only fd h' h'') : Only fd h h'' := fun x hx =>
  ⟨(h2 x hx).1.trans (h1 x hx).1, (h2 x hx).2.trans (h1 x hx).2⟩

variable (h : TcpMessageHandler) (fd : ℕ)

theorem pushed_append (x : ℕ) (e : Event) (l : List (ℕ × Event)) :
    ((l ++ [(fd, e)]).filter (fun y => y.1 = x)).map (·.2) =
      (l.filter (fun y => y.1 = x)).map (·.2) ++ if fd = x then [e] else [] := by
  by_cases hx : fd = x <;> simp [hx]

theorem conn_isConn (x : ℕ) : (h.isConn fd).2.conn x = h.conn x := by
  rw [isConn, conn, conn, UMap.find_insertNew]
  split
  · rename_i hc
    obtain ⟨rfl, hc⟩ := hc
    rw [UMap.count, Option.isSome_eq_false_iff, Option.isNone_iff_eq_none] at hc
    rw [conn, hc]; rfl
  · rfl

theorem only_isConn : Only fd h (h.isConn fd).2 := fun x _ => ⟨h.conn_isConn fd x, rfl⟩

theorem only_addConn (type : Int32) : Only fd h (h.addConn fd type) := by
  intro x hx
  unfold addConn
  split
  · exact ⟨rfl, rfl⟩
  · refine ⟨?_, rfl⟩
    rw [conn, conn, UMap.find_insert, if_neg hx]

theorem only_pushEvent (msg : Message) : Only fd h (h.pushEvent fd msg) := by
  intro x hx
  refine ⟨rfl, ?_⟩
  rw [pushed, pushed, pushEvent, pushed_append, if_neg hx.symm, List.append_nil]

theorem respond_conn (res : EventResult) (x : ℕ) : (h.respond fd res).conn x = h.conn x := by
  unfold respond
  dsimp only
  split <;> rfl

theorem respond_pushed (res : EventResult) (x : ℕ) :
    (h.respond fd res).pushed x = h.pushed x := by
  unfold respond
  dsimp only
  split <;> rfl

theorem only_closeConn : Only fd h (h.closeConn fd) := by
  intro x hx
  constructor
  · rw [closeConn, conn, conn, UMap.find_insert, if_neg hx]
  · rw [closeConn, pushed, pushed]
    dsimp only
    split
    · rw [pushed_append, if_neg hx.symm, List.append_nil]
    · rfl

end TcpMessageHandler

namespace TcpSocket
variable {s s' : TcpSocket} {fd : ℕ} {ans : Answer} {m : MessageProtocol} {stream : SocketStream}

/-- The event that a request on `fd` becomes. -/
def request (s : TcpSocket) (fd : ℕ) (m : MessageProtocol) : Event :=
  s.tcpMessageHandler.event fd m.message

theorem request_congr (h : s'.conn fd = s.conn fd) : s'.request fd = s.request fd := by
  funext m
  unfold conn at h
  unfold request TcpMessageHandler.event TcpMessageHandler.isSdk
  rw [h]

theorem handleMessage_conn (hc : 0 < s.conn fd) : s.handleMessage fd ans =
    match (s.tcpMessageHandler.isConn fd).2.handleMessage fd (s.socks fd) ans with
    | none => none
    | some (true, h, sock) =>
      some { s with tcpMessageHandler := h, socks := Function.update s.socks fd sock }
    | some (false, h, _) =>
      some
        { tcpMessageHandler := h.closeConn fd
          socks := Function.update s.socks fd []
          epoll := s.epoll.erase fd } := by
  have hconn : s.tcpMessageHandler.isConn fd = (true, (s.tcpMessageHandler.isConn fd).2) :=
    Prod.ext (decide_eq_true hc) rfl
  rw [handleMessage, hconn]

/-- A request that is received becomes an event, and the socket is left as the stream left it. -/
theorem handleMessage_received (hc : 0 < s.conn fd) (hs : ans.send ≠ 0)
    (he : recvMessage ans.junk (.new (s.socks fd)) = (.received m, stream)) :
    ∃ s', s.handleMessage fd ans = some s' ∧ s'.conn fd = s.conn fd ∧
      s'.socks fd = stream.sock ∧ s'.pushed fd = s.pushed fd ++ [s.request fd m] := by
  have hsend : (ans.send != 0) = true := bne_iff_ne.mpr hs
  rw [handleMessage_conn hc, TcpMessageHandler.handleMessage, he]
  dsimp only
  rw [hsend]
  refine ⟨_, rfl, ?_, Function.update_self .., ?_⟩
  · rw [conn, TcpMessageHandler.respond_conn]
    exact TcpMessageHandler.conn_isConn _ fd fd
  · have hev : (s.tcpMessageHandler.isConn fd).2.event fd m.message = s.request fd m := by
      unfold request TcpMessageHandler.event TcpMessageHandler.isSdk
      rw [TcpMessageHandler.conn_isConn]
    rw [pushed, TcpMessageHandler.respond_pushed, TcpMessageHandler.pushed,
      TcpMessageHandler.pushEvent, TcpMessageHandler.pushed_append, if_pos rfl, hev]
    rfl

/-- A call for which `RecvMessage` fails closes the connection; the only event is internal. -/
theorem handleMessage_failed (hc : 0 < s.conn fd)
    (he : recvMessage ans.junk (.new (s.socks fd)) = (.failed, stream)) :
    ∃ s' es, s.handleMessage fd ans = some s' ∧ s'.pushed fd = s.pushed fd ++ es ∧
      ∀ e ∈ es, e.type = .INTERNAL := by
  rw [handleMessage_conn hc, TcpMessageHandler.handleMessage, he]
  by_cases hsdk : (s.tcpMessageHandler.isConn fd).2.isSdk fd = true
  · refine ⟨_, [⟨Opt.UNSUBSCRIBE.toInt, .INTERNAL, [toStr fd]⟩], rfl, ?_, by simp⟩
    rw [pushed, TcpMessageHandler.pushed, TcpMessageHandler.closeConn]
    dsimp only
    rw [if_pos hsdk, TcpMessageHandler.pushed_append, if_pos rfl]
    rfl
  · refine ⟨_, [], rfl, ?_, by simp⟩
    rw [pushed, TcpMessageHandler.pushed, TcpMessageHandler.closeConn]
    dsimp only
    rw [if_neg hsdk, List.append_nil]
    rfl

/-- A call that pushes the event of a request and nothing else has received one. -/
theorem received_of_pushed (hc : 0 < s.conn fd) (hs : ans.send ≠ 0)
    (h : s.handleMessage fd ans = some s') (hp : s'.pushed fd = s.pushed fd ++ [s.request fd m]) :
    ∃ m' stream, recvMessage ans.junk (.new (s.socks fd)) = (.received m', stream) ∧
      s'.conn fd = s.conn fd ∧ s'.socks fd = stream.sock := by
  rcases he : recvMessage ans.junk (.new (s.socks fd)) with ⟨m' | _ | _, stream⟩
  · obtain ⟨s1, h1, hconn, hsock, -⟩ := handleMessage_received hc hs he
    rw [h] at h1
    cases h1
    exact ⟨m', stream, rfl, hconn, hsock⟩
  · obtain ⟨s1, es, h1, hes, hint⟩ := handleMessage_failed hc he
    rw [h] at h1
    cases h1
    rw [hp] at hes
    have := hint _ (List.append_cancel_left hes ▸ List.mem_singleton_self _)
    cases this
  · rw [handleMessage_conn hc, TcpMessageHandler.handleMessage, he] at h
    cases h

end TcpSocket

theorem TcpMessageHandler.only_handleMessage {h h' : TcpMessageHandler} {fd : ℕ}
    {sock sock' : List Str} {ans : Answer} {b : Bool} (he : h.handleMessage fd sock ans = some (b, h', sock')) :
    Only fd h h' := by
  unfold handleMessage at he
  split at he
  · cases he
  · cases he
    exact fun x _ => ⟨rfl, rfl⟩
  · rename_i m stream hm
    cases he
    refine (h.only_pushEvent fd m.message).trans (fun x _ => ?_)
    exact ⟨respond_conn _ fd _ x, respond_pushed _ fd _ x⟩

namespace TcpSocket
variable {s s' : TcpSocket} {fd x : ℕ} {ans : Answer}

/-- A call for another connection leaves this one alone. -/
theorem handleMessage_other (hx : x ≠ fd) (h : s.handleMessage fd ans = some s') :
    s'.conn x = s.conn x ∧ s'.socks x = s.socks x ∧ s'.pushed x = s.pushed x := by
  have hconn := s.tcpMessageHandler.only_isConn fd
  unfold handleMessage at h
  split at h
  · rename_i h1 hc
    cases h
    rw [hc] at hconn
    exact ⟨(hconn x hx).1, rfl, (hconn x hx).2⟩
  · rename_i h1 hc
    rw [hc] at hconn
    split at h
    · cases h
    · rename_i h2 sock he
      cases h
      have hall := (hconn.trans (TcpMessageHandler.only_handleMessage he)) x hx
      exact ⟨hall.1, Function.update_of_ne hx .., hall.2⟩
    · rename_i h2 sock he
      cases h
      have hall := ((hconn.trans (TcpMessageHandler.only_handleMessage he)).trans
        (TcpMessageHandler.only_closeConn _ fd)) x hx
      exact ⟨hall.1, Function.update_of_ne hx .., hall.2⟩

theorem saveConnection_other (hx : x ≠ fd) (isSdk permitted added : Bool) (incoming : List Str) :
    let s' := s.saveConnection fd isSdk permitted added incoming
    s'.conn x = s.conn x ∧ s'.socks x = s.socks x ∧ s'.pushed x = s.pushed x := by
  unfold saveConnection
  split
  · exact ⟨rfl, rfl, rfl⟩
  · split
    · exact ⟨rfl, rfl, rfl⟩
    · have hall := s.tcpMessageHandler.only_addConn fd (if isSdk then SDK_CONN else CMD_CONN) x hx
      exact ⟨hall.1, Function.update_of_ne hx .., hall.2⟩

end TcpSocket

end OeAware

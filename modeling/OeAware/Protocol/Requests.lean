import OeAware.Protocol.Server

/-! @src src/plugin_mgr/message_manager.cpp, src/sdk/oe_client.cpp |
    name:TcpMessageHandler::HandleMessage

    Requests of one connection through the server. `HandleMessage` takes one frame off a stream of
    its own and drops the stream with whatever it has read ahead, so a request is safe from the call
    before it only when its first byte begins a piece. The SDK does not see to that: `Subscribe`,
    `Unsubscribe` and `Publish` wait for their answers under three different mutexes, and the
    requests of two threads may reach the server together.

        ──▶│ request 1 │ request 2 │      one recv: request 2 dies with the stream of call 1
        ──▶│ request 1 ║ request 2 │      two recvs: one event each -/

namespace OeAware
open Schemes

/-! ### A stream of its own for every call -/

/-- Every frame begins where a piece does. -/
def Aligned (p : ℕ) (ms : List MessageProtocol) (cs : List Str) : Prop :=
  ∀ f ∈ starts p ms, f = p ∨ f ∈ cuts p cs

instance (p : ℕ) (ms : List MessageProtocol) (cs : List Str) : Decidable (Aligned p ms cs) :=
  inferInstanceAs (Decidable (∀ f ∈ starts p ms, f = p ∨ f ∈ cuts p cs))

/-- The requests `ms` are what a socket will deliver, in pieces that a call can work with. -/
structure Ready (p : ℕ) (ms : List MessageProtocol) (cs : List Str) : Prop where
  short : ∀ m ∈ ms, m.getProtocolStr.length < 2 ^ 31
  solid : Solid cs
  bytes : cs.flatten = frames ms
  whole : PrefixWhole p ms cs
  receivable : Receivable p ms cs
  aligned : Aligned p ms cs

section Fresh
variable {m : MessageProtocol} {ms : List MessageProtocol} {cs cs' : List Str} {p : ℕ}

theorem Aligned.advance (h : Aligned p (m :: ms) cs) :
    Aligned (p + m.getProtocolStr.length) ms (advance m.getProtocolStr.length cs) := by
  intro f hf
  have hle := le_of_mem_starts hf
  have hmin := m.le_length_getProtocolStr
  rcases Nat.lt_or_eq_of_le hle with hlt | heq
  · rcases h f (List.mem_cons_of_mem _ hf) with h0 | hc
    · omega
    · exact Or.inr ((mem_cuts_advance _ hlt).mpr hc)
  · exact Or.inl heq.symm

theorem ne_nil_frames : frames (m :: ms) ≠ [] := by
  rw [frames_cons]
  exact fun h0 => m.getProtocolStr_ne_nil (List.append_eq_nil_iff.mp h0).1

/-- A call whose stream ends with an empty buffer leaves the socket at the next request. -/
theorem Ready.next (h : Ready p (m :: ms) cs) (junk : Junk) :
    ∃ s, recvMessage junk (.new cs) = (.received m, s) ∧
      Ready (p + m.getProtocolStr.length) ms s.sock := by
  have hm := h.short m (List.mem_cons_self ..)
  obtain ⟨s, he, hu, hsol, hp⟩ := @recvMessage_frame junk m (.new cs) (frames ms) p h.solid
    h.bytes hm (h.whole p (List.mem_cons_self ..)) (h.receivable.head h.bytes)
  obtain ⟨got, ht, -⟩ := @recvMessage_received junk m (.new cs) s (frames ms) m h.solid h.bytes he
  have hgot : got = m.getProtocolStr := ht.eq h.bytes hu
  -- the next frame begins a piece, so nothing of it has been read
  have hbuf : s.buffered = [] := by
    by_contra hne
    cases ms with
    | nil =>
      rw [SocketStream.unread_eq] at hu
      exact hne (List.append_eq_nil_iff.mp hu).1
    | cons m' ms =>
      rcases ht.inside hne with ⟨h0, -⟩ | ⟨-, hcut⟩
      · exact m.getProtocolStr_ne_nil (hgot ▸ h0)
      · rw [hgot] at hcut
        rcases h.aligned _ (List.mem_cons_of_mem _ (List.mem_cons_self ..)) with h0 | hc
        · have hmin := m.le_length_getProtocolStr
          omega
        · exact hcut p hc
  have hsock : s.sock = advance m.getProtocolStr.length cs := by
    rw [← SocketStream.pending_eq_sock hbuf, hp]; rfl
  refine ⟨s, he, fun x hx => h.short x (List.mem_cons_of_mem _ hx), hsol, ?_, ?_, ?_, ?_⟩
  · rw [← hu, SocketStream.unread, SocketStream.pending_eq_sock hbuf]
  · rw [hsock]; exact h.whole.advance
  · rw [hsock]; exact h.receivable.advance
  · rw [hsock]; exact h.aligned.advance

/-- A call that leaves the socket at the next request has found a border there. -/
theorem cut_of_drawn {m' : MessageProtocol} (hbytes : cs.flatten = frames (m :: m' :: ms))
    (hr : Receivable p (m :: m' :: ms) cs) (hd : Drawn maxBuffSize cs cs')
    (hbytes' : cs'.flatten = frames (m' :: ms)) :
    cs' = advance m.getProtocolStr.length cs ∧ p + m.getProtocolStr.length ∈ cuts p cs := by
  have hmin := m.le_length_getProtocolStr
  obtain ⟨j, rfl, hj⟩ := hd
  have hjL : j = m.getProtocolStr.length := by
    have hpos := List.length_pos_of_ne_nil (@ne_nil_frames m' ms)
    have hlen := congrArg List.length hbytes'
    rw [flatten_advance, hbytes, frames_cons, List.length_drop, List.length_append] at hlen
    omega
  rw [hjL] at hj ⊢
  refine ⟨rfl, ?_⟩
  rcases hj p with h0 | hc | ⟨a, b, hm, ha, hb⟩
  · omega
  · exact hc
  · rcases hr _ hm with hle | hf
    · dsimp only at hle
      omega
    · have := hf _ (List.mem_cons_of_mem _ (List.mem_cons_self ..))
      have hmb : 0 < maxBuffSize := by decide
      dsimp only at this
      omega

end Fresh

/-! ### Requests in order -/

/-- Whether the action is a call for `fd`. -/
def EpollEvent.callFor (fd : ℕ) : EpollEvent → Bool
  | .connect .. => false
  | .message fd' _ => fd' = fd

/-- While `fd` is open no other connection gets that number, and `send`, which is never asked to
    write nothing, does not return `0`. -/
def EpollEvent.Fair (fd : ℕ) : EpollEvent → Prop
  | .connect fd' .. => fd' ≠ fd
  | .message fd' ans => fd' = fd → ans.send ≠ 0

/-- How many calls for `fd` there are. -/
def calls (fd : ℕ) (as : List EpollEvent) : ℕ := as.countP (EpollEvent.callFor fd)

namespace TcpSocket
variable {s s' : TcpSocket} {fd p : ℕ} {ms : List MessageProtocol} {a : EpollEvent}

theorem handleEvent_other (hf : a.Fair fd) (ha : a.callFor fd = false)
    (h : s.handleEvent a = some s') :
    s'.conn fd = s.conn fd ∧ s'.socks fd = s.socks fd ∧ s'.pushed fd = s.pushed fd := by
  cases a with
  | connect fd' isSdk permitted added incoming =>
    cases h
    exact saveConnection_other hf.symm isSdk permitted added incoming
  | message fd' ans =>
    have hne : fd' ≠ fd := of_decide_eq_false ha
    exact handleMessage_other hne.symm h

/-- One round: a call for `fd` turns the next request into its event, and any other round leaves
    the connection alone. -/
theorem handleEvent_ready (hr : Ready p ms (s.socks fd)) (hc : 0 < s.conn fd) (hf : a.Fair fd)
    (hk : calls fd [a] ≤ ms.length) (h : s.handleEvent a = some s') :
    s'.conn fd = s.conn fd ∧
      s'.pushed fd = s.pushed fd ++ (ms.take (calls fd [a])).map (s.request fd) ∧
      ∃ p', Ready p' (ms.drop (calls fd [a])) (s'.socks fd) := by
  by_cases ha : a.callFor fd = true
  · cases a with
    | connect fd' isSdk permitted added incoming => cases ha
    | message fd' ans =>
      have hfd : fd' = fd := of_decide_eq_true ha
      subst hfd
      have h1 : calls fd' [.message fd' ans] = 1 := by simp [calls, ha]
      rw [h1] at hk ⊢
      cases ms with
      | nil => cases hk
      | cons m ms =>
        obtain ⟨stream, he, hr'⟩ := hr.next ans.junk
        obtain ⟨s1, hs1, hconn, hsock, hpush⟩ := handleMessage_received hc (hf rfl) he
        rw [handleEvent, hs1] at h
        cases h
        exact ⟨hconn, hpush, p + m.getProtocolStr.length, hsock ▸ hr'⟩
  · have ha : a.callFor fd = false := Bool.eq_false_iff.mpr ha
    have h0 : calls fd [a] = 0 := by simp [calls, ha]
    obtain ⟨hconn, hsock, hpush⟩ := handleEvent_other hf ha h
    rw [h0, hconn, hpush, hsock]
    refine ⟨rfl, by simp, p, hr⟩

theorem handleEvents_ready : ∀ (as : List EpollEvent) {s s' : TcpSocket} {ms : List MessageProtocol}
    {p : ℕ}, Ready p ms (s.socks fd) → 0 < s.conn fd → (∀ a ∈ as, a.Fair fd) →
    calls fd as ≤ ms.length → s.handleEvents as = some s' → s'.conn fd = s.conn fd ∧
      s'.pushed fd = s.pushed fd ++ (ms.take (calls fd as)).map (s.request fd) ∧
      ∃ p', Ready p' (ms.drop (calls fd as)) (s'.socks fd)
  | [], s, s', ms, p, hr, _, _, _, h => by
    cases h
    exact ⟨rfl, by simp [calls], p, hr⟩
  | a :: as, s, s', ms, p, hr, hc, hf, hk, h => by
    have hadd : calls fd (a :: as) = calls fd [a] + calls fd as := by
      rw [calls, List.countP_cons, calls, calls, List.countP_singleton, Nat.add_comm]
    rw [hadd] at hk ⊢
    rw [handleEvents] at h
    split at h
    · cases h
    · rename_i s1 hs1
      obtain ⟨hconn, hpush, p1, hr1⟩ := handleEvent_ready hr hc (hf a (List.mem_cons_self ..))
        (by omega) hs1
      obtain ⟨hconn', hpush', hr'⟩ := handleEvents_ready as hr1 (by rw [hconn]; exact hc)
        (fun x hx => hf x (List.mem_cons_of_mem _ hx)) (by rw [List.length_drop]; omega) h
      rw [List.drop_drop] at hr'
      refine ⟨hconn'.trans hconn, ?_, hr'⟩
      rw [hpush', hpush, request_congr hconn, List.append_assoc, ← List.map_append, List.take_add]

/-- After any rounds, `k` of them calls for `fd`, those calls have pushed the events of the first
    `k` requests and the rest is there to be received; as long as there is a rest, another call
    returns. -/
def EachOnce (fd : ℕ) (ms : List MessageProtocol) (s : TcpSocket) : Prop :=
  ∀ as, (∀ a ∈ as, a.Fair fd) → calls fd as ≤ ms.length → ∀ s', s.handleEvents as = some s' →
    s'.pushed fd = s.pushed fd ++ (ms.take (calls fd as)).map (s.request fd) ∧
    (s'.socks fd).flatten = frames (ms.drop (calls fd as)) ∧
    (calls fd as < ms.length → ∀ ans, ans.send ≠ 0 → (s'.handleMessage fd ans).isSome = true)

theorem eachOnce_of_ready (hr : Ready p ms (s.socks fd)) (hc : 0 < s.conn fd) :
    EachOnce fd ms s := by
  intro as hf hk s' h
  obtain ⟨hconn, hpush, p', hr'⟩ := handleEvents_ready as hr hc hf hk h
  refine ⟨hpush, hr'.bytes, fun hlt ans hsend => ?_⟩
  cases hms : ms.drop (calls fd as) with
  | nil =>
    have := List.drop_eq_nil_iff.mp hms
    omega
  | cons m rest =>
    rw [hms] at hr'
    obtain ⟨stream, he, -⟩ := hr'.next ans.junk
    obtain ⟨s1, hs1, -⟩ := handleMessage_received (by rw [hconn]; exact hc) hsend he
    rw [hs1]; rfl

/-- What holds of all rounds holds of those after a first call. -/
theorem EachOnce.tail {m : MessageProtocol} {ans : Answer} (h : EachOnce fd (m :: ms) s)
    (hs : ans.send ≠ 0) (h1 : s.handleMessage fd ans = some s') (hconn : s'.conn fd = s.conn fd)
    (hp : s'.pushed fd = s.pushed fd ++ [s.request fd m]) : EachOnce fd ms s' := by
  intro as hf hk s'' he
  have hcall : EpollEvent.callFor fd (.message fd ans) = true := decide_eq_true rfl
  have hcalls : calls fd (.message fd ans :: as) = calls fd as + 1 := by
    rw [calls, List.countP_cons_of_pos hcall, calls]
  have hfair : ∀ a ∈ EpollEvent.message fd ans :: as, a.Fair fd := by
    intro a ha
    rcases List.mem_cons.mp ha with rfl | ha
    · exact fun _ => hs
    · exact hf a ha
  have hrun : s.handleEvents (.message fd ans :: as) = some s'' := by
    rw [handleEvents, handleEvent, h1]; exact he
  obtain ⟨h2, h3, h4⟩ := h _ hfair (by rw [hcalls]; exact Nat.succ_le_succ hk) s'' hrun
  rw [hcalls] at h2 h3 h4
  refine ⟨?_, h3, fun hlt => h4 (Nat.succ_lt_succ hlt)⟩
  rw [h2, hp, request_congr hconn, List.append_assoc]
  rfl

theorem aligned_of_eachOnce : ∀ {ms : List MessageProtocol} {s : TcpSocket} {p : ℕ},
    (∀ m ∈ ms, m.getProtocolStr.length < 2 ^ 31) → Solid (s.socks fd) →
    (s.socks fd).flatten = frames ms → Receivable p ms (s.socks fd) → 0 < s.conn fd →
    EachOnce fd ms s → Aligned p ms (s.socks fd)
  | [], _, _, _, _, _, _, _, _ => by
    intro f hf
    cases hf
  | [m], _, p, _, _, _, _, _, _ => by
    intro f hf
    exact Or.inl (List.mem_singleton.mp hf)
  | m :: m' :: ms, s, p, hlen, hsol, hbytes, hr, hc, h => by
    let ans : Answer := ⟨⟨0, 0⟩, ⟨0, []⟩, 1⟩
    have hs : ans.send ≠ 0 := by decide
    -- the first call
    obtain ⟨s1, h1⟩ := Option.isSome_iff_exists.mp
      ((h [] (by simp) (Nat.zero_le _) s rfl).2.2 (by simp [calls]) ans hs)
    have hcalls : calls fd [.message fd ans] = 1 := by simp [calls, EpollEvent.callFor]
    obtain ⟨hp, hb, -⟩ := h [.message fd ans] (by
      intro a ha
      cases List.mem_singleton.mp ha
      exact fun _ => hs) (by rw [hcalls]; simp) s1 (by rw [handleEvents, handleEvent, h1]; rfl)
    rw [hcalls] at hp hb
    obtain ⟨x, stream, he, hconn, hsock⟩ := received_of_pushed hc hs h1 hp
    -- what it has left of the socket
    obtain ⟨got, ht, -⟩ := @recvMessage_received _ m (.new (s.socks fd)) stream
      (frames (m' :: ms)) x hsol hbytes he
    obtain ⟨hadv, hcut⟩ := cut_of_drawn hbytes hr (ht.drawn hsol) (hsock ▸ hb)
    have hrest : Aligned (p + m.getProtocolStr.length) (m' :: ms) (s1.socks fd) := by
      refine aligned_of_eachOnce (fun y hy => hlen y (List.mem_cons_of_mem _ hy)) ?_ hb ?_
        (hconn ▸ hc) (h.tail hs h1 hconn hp)
      · rw [hsock]; exact ht.solid hsol
      · rw [hsock, hadv]; exact hr.advance
    intro f hf
    rcases List.mem_cons.mp hf with rfl | hf
    · exact Or.inl rfl
    · have hle := le_of_mem_starts hf
      rcases Nat.lt_or_eq_of_le hle with hlt | heq
      · rcases hrest f hf with h0 | hc'
        · omega
        · rw [hsock, hadv] at hc'
          exact Or.inr ((mem_cuts_advance _ hlt).mp hc')
      · exact Or.inr (heq ▸ hcut)

/-- REQUESTS BECOME EVENTS IN ORDER when every request begins a piece and no piece ends inside a
    length prefix, however the calls for this connection are mixed with the others'; and the first
    of these two conditions cannot be done without. -/
theorem handleMessage_eachOnce (fd : ℕ) (ms : List MessageProtocol) (s : TcpSocket)
    (hc : 0 < s.conn fd) (hlen : ∀ m ∈ ms, m.getProtocolStr.length < 2 ^ 31)
    (hsol : ∀ c ∈ s.socks fd, c ≠ []) (hbytes : (s.socks fd).flatten = frames ms)
    (hrecv : Receivable 0 ms (s.socks fd)) :
    (PrefixWhole 0 ms (s.socks fd) → Aligned 0 ms (s.socks fd) → EachOnce fd ms s) ∧
      (EachOnce fd ms s → Aligned 0 ms (s.socks fd)) := by
  constructor
  · intro hw ha
    exact eachOnce_of_ready ⟨hlen, hsol, hbytes, hw, hrecv, ha⟩ hc
  · exact aligned_of_eachOnce hlen hsol hbytes hrecv hc

/-- A client of the SDK subscribes in one thread … -/
def subscribeRequest : MessageProtocol :=
  ⟨⟨MessageType.REQUEST.toInt⟩, ⟨Opt.SUBSCRIBE.toInt, [serStr [97] ++ serStr [98] ++ serStr []]⟩⟩

/-- … and unsubscribes from another topic in a second one. -/
def unsubscribeRequest : MessageProtocol :=
  ⟨⟨MessageType.REQUEST.toInt⟩, ⟨Opt.UNSUBSCRIBE.toInt, [serStr [97] ++ serStr [99] ++ serStr []]⟩⟩

/-- Both requests arrive before the server reads the first, yet in a piece each. -/
theorem handleMessage_eachOnce_two_pieces :
    let ms := [subscribeRequest, unsubscribeRequest]
    let s := init.saveConnection 5 true true true (ms.map (·.getProtocolStr))
    0 < s.conn 5 ∧ EachOnce 5 ms s := by
  intro ms s
  have hc : 0 < s.conn 5 := by decide
  exact ⟨hc, (handleMessage_eachOnce 5 ms s hc (by decide) (by decide) (by decide)
    (by decide)).1 (by decide) (by decide)⟩

/-- The same requests in one piece: the second is lost, and the next call closes the connection. -/
theorem handleMessage_not_eachOnce :
    let ms := [subscribeRequest, unsubscribeRequest]
    let s := init.saveConnection 5 true true true [frames ms]
    let call := EpollEvent.message 5 ⟨⟨0, 0⟩, ⟨Opt.RESPONSE_OK.toInt, []⟩, 32⟩
    ¬ EachOnce 5 ms s ∧ (s.handleEvents [call, call]).map (·.pushed 5) =
      some [s.request 5 subscribeRequest, ⟨Opt.UNSUBSCRIBE.toInt, .INTERNAL, [toStr 5]⟩] := by
  intro ms s call
  have hp : (s.handleEvents [call, call]).map (·.pushed 5) =
      some [s.request 5 subscribeRequest, ⟨Opt.UNSUBSCRIBE.toInt, .INTERNAL, [toStr 5]⟩] := by
    decide +kernel
  refine ⟨fun h => ?_, hp⟩
  obtain ⟨s', hs', hpush⟩ := Option.map_eq_some_iff.mp hp
  have hfair : ∀ a ∈ [call, call], a.Fair 5 := by
    intro a ha
    simp only [List.mem_cons, List.not_mem_nil, or_false, or_self] at ha
    rw [ha]
    exact fun _ => by decide
  obtain ⟨h1, -⟩ := h [call, call] hfair (by decide) s' hs'
  rw [hpush] at h1
  exact absurd h1 (by decide)

end TcpSocket

end OeAware

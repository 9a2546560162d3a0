import OeAware.Protocol.Framing

/-! @src src/sdk/oe_client.cpp, src/common/message_protocol.cpp | name:Impl::HandleRecv, RecvMessage

    The SDK's receive loop calls `RecvMessage` again when it fails, and `recv` fails when nothing comes
    for a second. What a failed call has taken off the stream is gone, so the loop gets the frames that were
    sent exactly when the second passes between two of them, and where each frame could be received at all.

        ├── frame ──┼── frame ──┼─    time-out at a border: the next call goes on there
        ├── fra▒▒▒▒▒                  time-out inside: the next call takes the rest for a frame -/

namespace OeAware
open Schemes

/-- What the receive loop obtains in so many calls of `RecvMessage`; `none` when an exception leaves it. -/
def receive : List Junk → SocketStream → Option (List MessageProtocol × SocketStream)
  | [], stream => some ([], stream)
  | junk :: junks, stream =>
    match recvMessage junk stream with
    | (.received m, stream) => (receive junks stream).map (fun r => (m :: r.1, r.2))
    | (.failed, stream) => receive junks stream
    | (.throws, _) => none

/-! ### A time-out behind what has come -/

namespace SocketStream

/-- The stream over another socket. -/
def withSock (s : SocketStream) (sock : List Str) : SocketStream := { s with sock := sock }

variable {s : SocketStream} {later : List Str}

@[simp] theorem over_buffered (sock : List Str) : (s.withSock sock).buffered = s.buffered := rfl

@[simp] theorem over_over (sock sock' : List Str) : (s.withSock sock).withSock sock' = s.withSock sock' := rfl

/-- What a stream goes on over: the time-out is still to come, or has been met where nothing was got. -/
def rest (s : SocketStream) (later : List Str) : Bool → SocketStream
  | true => s.withSock (s.sock ++ [] :: later)
  | false => s.withSock later

@[simp] theorem rest_true : s.rest later true = s.withSock (s.sock ++ [] :: later) := rfl

@[simp] theorem rest_false : s.rest later false = s.withSock later := rfl

theorem recv_timeout {cs : List Str} (size : ℕ) (hsol : Solid cs) :
    recv (cs ++ [] :: later) size = ((recv cs size).1,
      if cs = [] then later else (recv cs size).2 ++ [] :: later) := by
  cases cs with
  | nil => simp [recv]
  | cons c cs =>
    rw [List.cons_append, recv, recv, if_neg (List.cons_ne_nil c cs)]
    split <;> rfl

/-- A read behind which there is a time-out gets what it gets where nothing follows. -/
theorem read_over (hsol : Solid s.sock) {size : ℕ} (hs : 0 < size) :
    (s.withSock (s.sock ++ [] :: later)).read size =
      ((s.read size).1, (s.read size).2.rest later (!(s.read size).1.isEmpty)) := by
  have hne : s.unread ≠ [] → (s.read size).1 ≠ [] := read_ne_nil hsol hs
  have hsplit := s.read_unread size
  by_cases hb : s.readBuffOff < s.readBuffContentSize
  · have hgot : (s.read size).1 ≠ [] := by
      refine hne (fun h0 => ?_)
      have := s.length_buffered
      rw [unread_eq] at h0
      rw [(List.append_eq_nil_iff.mp h0).1, List.length_nil] at this
      omega
    rw [List.isEmpty_eq_false_iff.mpr hgot, Bool.not_false, rest_true]
    unfold read withSock
    dsimp only
    rw [dif_pos hb, dif_pos hb]
    by_cases hle : size ≤ s.readBuffContentSize - s.readBuffOff
    · rw [dif_pos hle, dif_pos hle]
    · rw [dif_neg hle, dif_neg hle]
  · -- the socket is asked, and where it has nothing more it times out
    have hsock : (s.read size).1 = [] ↔ s.sock = [] := by
      rw [unread_eq, unread_eq, buffered_nil hb, List.nil_append] at hsplit
      constructor
      · intro h0
        by_contra hsock
        refine hne (fun hu => hsock ?_) h0
        rw [unread_eq, buffered_nil hb, List.nil_append, List.flatten_eq_nil_iff] at hu
        exact List.eq_nil_iff_forall_not_mem.mpr (fun c hc => hsol c hc (hu c hc))
      · intro h0
        rw [h0, List.flatten_nil] at hsplit
        exact (List.append_eq_nil_iff.mp hsplit).1
    have hrecv := fun n => @recv_timeout later s.sock n hsol
    by_cases h0 : s.sock = []
    · have hmet : (!(s.read size).1.isEmpty) = false := by rw [hsock.mpr h0]; rfl
      rw [hmet, rest_false]
      obtain ⟨sock, buff, off, content, bound⟩ := s
      subst h0
      unfold read withSock
      dsimp only at hb ⊢
      rw [dif_neg hb, dif_neg hb]
      split <;> simp [recv, hs]
    · have hgot : (!(s.read size).1.isEmpty) = true := by
        rw [List.isEmpty_eq_false_iff.mpr (fun he => h0 (hsock.mp he))]
        rfl
      rw [hgot, rest_true]
      unfold read withSock
      dsimp only
      rw [dif_neg hb, dif_neg hb]
      simp only [hrecv, h0, if_false]
      split
      · split <;> rfl
      · rfl

end SocketStream

open SocketStream

variable {later : List Str}

theorem readBuf_over : ∀ (fuel : ℕ) {start stop : ℤ} {s : SocketStream} {msg : Str}, Solid s.sock →
    readBuf fuel start stop (s.withSock (s.sock ++ [] :: later)) msg =
      ((readBuf fuel start stop s msg).1,
        (readBuf fuel start stop s msg).2.rest later (readBuf fuel start stop s msg).1.isSome)
  | 0, start, stop, s, msg, _ => rfl
  | fuel + 1, start, stop, s, msg, hsol => by
    by_cases hlt : start < stop
    · rw [readBuf_succ hlt, readBuf_succ hlt]
      have hpos : 0 < min (stop - start).toNat MAX_RECV_BUFF_SIZE := by
        simp only [MAX_RECV_BUFF_SIZE]
        omega
      dsimp only
      rw [read_over hsol hpos]
      cases h0 : (s.read (min (stop - start).toNat MAX_RECV_BUFF_SIZE)).1 with
      | nil => rfl
      | cons b got =>
        rw [if_neg (List.cons_ne_nil b got), if_neg (List.cons_ne_nil b got)]
        exact readBuf_over fuel (SocketStream.read_solid hsol _)
    · rw [readBuf, readBuf, if_neg hlt, if_neg hlt]
      rfl

theorem readBuf_solid : ∀ (fuel : ℕ) {start stop : ℤ} {s : SocketStream} {msg : Str}, Solid s.sock →
    Solid (readBuf fuel start stop s msg).2.sock
  | 0, _, _, _, _, hsol => hsol
  | fuel + 1, start, stop, s, msg, hsol => by
    by_cases hlt : start < stop
    · rw [readBuf_succ hlt]
      dsimp only
      split
      · exact SocketStream.read_solid hsol _
      · exact readBuf_solid fuel (SocketStream.read_solid hsol _)
    · rw [readBuf, if_neg hlt]
      exact hsol

/-- The call returned `false`. -/
def RecvOutcome.isFailed : RecvOutcome → Bool
  | .failed => true
  | _ => false

theorem setHeaderMessage_isFailed (junk : Junk) (header message : Str) :
    (setHeaderMessage junk header message).isFailed = false := by
  rw [setHeaderMessage]
  split <;> rfl

theorem recvParts_over {junk : Junk} {a b c : ℤ} {s : SocketStream} (hsol : Solid s.sock) :
    recvParts junk a b c (s.withSock (s.sock ++ [] :: later)) =
      ((recvParts junk a b c s).1,
        (recvParts junk a b c s).2.rest later (!(recvParts junk a b c s).1.isFailed)) := by
  unfold recvParts
  rw [readBuf_over _ hsol]
  have hsol1 := @readBuf_solid (b - a).toNat a b s [] hsol
  generalize readBuf (b - a).toNat a b s [] = r at hsol1
  obtain ⟨_ | header, s1⟩ := r
  · rfl
  · dsimp only [Option.isSome, rest] at hsol1 ⊢
    rw [readBuf_over _ hsol1]
    generalize readBuf (c - b).toNat b c s1 [] = r'
    obtain ⟨_ | message, s2⟩ := r'
    · rfl
    · dsimp only
      rw [setHeaderMessage_isFailed]
      rfl

/-- A call behind which there is a time-out does what it does where nothing follows; where it fails the
    second has passed. -/
theorem recvMessage_over {junk : Junk} {s : SocketStream} (hsol : Solid s.sock) :
    recvMessage junk (s.withSock (s.sock ++ [] :: later)) =
      ((recvMessage junk s).1,
        (recvMessage junk s).2.rest later (!(recvMessage junk s).1.isFailed)) := by
  have hsol1 := SocketStream.read_solid hsol (PROTOCOL_LENGTH_SIZE + HEADER_LENGTH_SIZE)
  unfold recvMessage
  rw [read_over hsol (by decide)]
  generalize s.read (PROTOCOL_LENGTH_SIZE + HEADER_LENGTH_SIZE) = r at hsol1
  obtain ⟨_ | ⟨b, got⟩, s1⟩ := r
  · rfl
  · dsimp only at hsol1 ⊢
    simp only [List.isEmpty_cons, Bool.not_false, rest_true, if_neg (List.cons_ne_nil b got)]
    rw [recvParts_over hsol1]

/-! ### Failed calls -/

theorem read_exhausted {s : SocketStream} (hsol : Solid s.sock) {size : ℕ} (hs : 0 < size)
    (h : (s.read size).1 = []) : (s.read size).2.unread = [] := by
  have hsplit := s.read_unread size
  rw [h, List.nil_append] at hsplit
  rw [hsplit]
  by_contra hne
  exact SocketStream.read_ne_nil hsol hs hne h

theorem readBuf_exhausted : ∀ (fuel : ℕ) {start stop : ℤ} {s s' : SocketStream} {msg : Str},
    Solid s.sock → readBuf fuel start stop s msg = (none, s') → s'.unread = []
  | 0, _, _, _, _, _, _, h => by cases h
  | fuel + 1, start, stop, s, s', msg, hsol, h => by
    by_cases hlt : start < stop
    · rw [readBuf_succ hlt] at h
      dsimp only at h
      split at h
      · rename_i h0
        cases h
        exact read_exhausted hsol (by simp only [MAX_RECV_BUFF_SIZE]; omega) h0
      · exact readBuf_exhausted fuel (SocketStream.read_solid hsol _) h
    · rw [readBuf, if_neg hlt] at h
      cases h

theorem recvParts_exhausted {junk : Junk} {a b c : ℤ} {s s' : SocketStream} (hsol : Solid s.sock)
    (h : recvParts junk a b c s = (.failed, s')) : s'.unread = [] := by
  have hsol1 := @readBuf_solid (b - a).toNat a b s [] hsol
  unfold recvParts at h
  split at h
  · rename_i hb
    cases h
    exact readBuf_exhausted _ hsol hb
  · rename_i header s1 hb
    rw [hb] at hsol1
    split at h
    · rename_i hb'
      cases h
      exact readBuf_exhausted _ hsol1 hb'
    · rename_i message s2 hb'
      have hset := setHeaderMessage_isFailed junk header message
      rw [(Prod.mk.inj h).1] at hset
      cases hset

/-- A call fails only where nothing is left, and has then taken all there was. -/
theorem recvMessage_exhausted {junk : Junk} {s s' : SocketStream} (hsol : Solid s.sock)
    (h : recvMessage junk s = (.failed, s')) : s'.unread = [] := by
  have hsol1 := SocketStream.read_solid hsol (PROTOCOL_LENGTH_SIZE + HEADER_LENGTH_SIZE)
  have hread := @read_exhausted s hsol (PROTOCOL_LENGTH_SIZE + HEADER_LENGTH_SIZE) (by decide)
  unfold recvMessage at h
  generalize s.read (PROTOCOL_LENGTH_SIZE + HEADER_LENGTH_SIZE) = r at h hsol1 hread
  obtain ⟨_ | ⟨b, got⟩, s1⟩ := r
  · cases h
    exact hread rfl
  · dsimp only at h hsol1
    rw [if_neg (List.cons_ne_nil b got)] at h
    exact recvParts_exhausted hsol1 h

/-! ### The receive loop -/

/-- Where the frames end when the first one begins at `p`, and where that one begins. -/
def borders : ℕ → List MessageProtocol → List ℕ
  | p, [] => [p]
  | p, m :: ms => p :: borders (p + m.getProtocolStr.length) ms

theorem start_mem_borders (p : ℕ) : ∀ ms : List MessageProtocol, p ∈ borders p ms
  | [] => List.mem_singleton.mpr rfl
  | _ :: _ => List.mem_cons_self ..

theorem le_of_mem_borders : ∀ {p b : ℕ} {ms : List MessageProtocol}, b ∈ borders p ms → p ≤ b
  | _, _, [], h => (List.mem_singleton.mp h).ge
  | p, b, m :: ms, h => by
    rcases List.mem_cons.mp h with rfl | h
    · exact Nat.le_refl _
    · have := le_of_mem_borders h
      omega

/-- The loop obtains the messages that were sent; whatever a call did, received or failed, the frames of
    those that are not yet obtained are still to be read. -/
def Obtains (junks : List Junk) (ms : List MessageProtocol) (s : SocketStream) : Prop :=
  (∃ s', receive junks s = some (ms, s')) ∧ ∀ k ≤ junks.length, ∃ got rest s',
    receive (junks.take k) s = some (got, s') ∧ ms = got ++ rest ∧ s'.unread = frames rest

section Loop
variable {junk : Junk} {junks : List Junk} {m : MessageProtocol} {ms : List MessageProtocol}
  {s s' t : SocketStream} {p : ℕ}

theorem receive_received (h : recvMessage junk s = (.received m, s')) :
    receive (junk :: junks) s = (receive junks s').map (fun r => (m :: r.1, r.2)) := by
  rw [receive, h]

theorem receive_failed (h : recvMessage junk s = (.failed, s')) :
    receive (junk :: junks) s = receive junks s' := by
  rw [receive, h]

theorem receive_throws (h : recvMessage junk s = (.throws, s')) :
    receive (junk :: junks) s = none := by
  rw [receive, h]

theorem length_receive : ∀ {junks : List Junk} {s s' : SocketStream} {ms : List MessageProtocol},
    receive junks s = some (ms, s') → ms.length ≤ junks.length
  | [], _, _, _, h => by cases h; exact Nat.le_refl _
  | junk :: junks, s, s', ms, h => by
    rcases hr : recvMessage junk s with ⟨m | _ | _, s1⟩
    · rw [receive_received hr] at h
      obtain ⟨⟨ms', s2⟩, h1, h2⟩ := Option.map_eq_some_iff.mp h
      cases h2
      exact Nat.succ_le_succ (length_receive h1)
    · rw [receive_failed hr] at h
      exact Nat.le_succ_of_le (length_receive h)
    · rw [receive_throws hr] at h
      cases h

theorem Obtains.unread (h : Obtains junks ms s) : s.unread = frames ms := by
  obtain ⟨got, rest, s', hr, hms, hu⟩ := h.2 0 (Nat.zero_le _)
  cases hr
  rwa [hms]

theorem obtains_failed (h : recvMessage junk s = (.failed, s')) :
    Obtains (junk :: junks) ms s ↔ s.unread = frames ms ∧ Obtains junks ms s' := by
  constructor
  · intro ho
    refine ⟨ho.unread, ?_, fun k hk => ?_⟩
    · obtain ⟨s1, h1⟩ := ho.1
      exact ⟨s1, receive_failed h ▸ h1⟩
    · obtain ⟨got, rest, s1, h1, h2⟩ := ho.2 (k + 1) (Nat.succ_le_succ hk)
      exact ⟨got, rest, s1, receive_failed h ▸ h1, h2⟩
  · rintro ⟨hu, ⟨s1, h1⟩, hall⟩
    refine ⟨⟨s1, (receive_failed h).trans h1⟩, fun k hk => ?_⟩
    cases k with
    | zero => exact ⟨[], ms, s, rfl, rfl, hu⟩
    | succ k =>
      obtain ⟨got, rest, s2, h2, h3⟩ := hall k (Nat.le_of_succ_le_succ hk)
      exact ⟨got, rest, s2, (receive_failed h).trans h2, h3⟩

theorem obtains_received (h : recvMessage junk s = (.received m, s')) :
    Obtains (junk :: junks) ms s ↔
      s.unread = frames ms ∧ ∃ ms', ms = m :: ms' ∧ Obtains junks ms' s' := by
  constructor
  · intro ho
    obtain ⟨s1, h1⟩ := ho.1
    rw [receive_received h] at h1
    obtain ⟨⟨ms', s2⟩, hrest, h2⟩ := Option.map_eq_some_iff.mp h1
    cases h2
    refine ⟨ho.unread, ms', rfl, ⟨s2, hrest⟩, fun k hk => ?_⟩
    obtain ⟨got, rest, s3, h3, h4, hu⟩ := ho.2 (k + 1) (Nat.succ_le_succ hk)
    rw [List.take_succ_cons, receive_received h] at h3
    obtain ⟨⟨got', s4⟩, hrest, h5⟩ := Option.map_eq_some_iff.mp h3
    cases h5
    exact ⟨got', rest, s4, hrest, (List.cons.inj h4).2, hu⟩
  · rintro ⟨hu, ms', rfl, ⟨s1, h1⟩, hall⟩
    refine ⟨⟨s1, by rw [receive_received h, h1]; rfl⟩, fun k hk => ?_⟩
    cases k with
    | zero => exact ⟨[], _, s, rfl, rfl, hu⟩
    | succ k =>
      obtain ⟨got, rest, s2, h2, rfl, hu2⟩ := hall k (Nat.le_of_succ_le_succ hk)
      exact ⟨m :: got, rest, s2, by rw [List.take_succ_cons, receive_received h, h2]; rfl, rfl, hu2⟩

theorem not_obtains_throws (h : recvMessage junk s = (.throws, s')) :
    ¬ Obtains (junk :: junks) ms s := by
  rintro ⟨⟨s1, h1⟩, -⟩
  rw [receive_throws h] at h1
  cases h1

/-- With as many calls as there are messages no call fails. -/
theorem inTurn_of_obtains : ∀ {junks : List Junk} {ms : List MessageProtocol} {s : SocketStream},
    junks.length = ms.length → Obtains junks ms s → InTurn junks ms s
  | [], ms, s, hj, h => by
    cases List.eq_nil_of_length_eq_zero hj.symm
    intro k hk
    cases Nat.le_zero.mp hk
    exact ⟨s, rfl, h.unread⟩
  | junk :: junks, ms, s, hj, h => by
    rcases hr : recvMessage junk s with ⟨m | _ | _, s'⟩
    · obtain ⟨hu, ms', rfl, h'⟩ := (obtains_received hr).mp h
      exact (inTurn_cons hu).mpr ⟨s', hr, h'.unread, inTurn_of_obtains (Nat.succ.inj hj) h'⟩
    · obtain ⟨hu, ⟨s1, h1⟩, -⟩ := (obtains_failed hr).mp h
      have := length_receive h1
      rw [List.length_cons] at hj
      omega
    · exact absurd h (not_obtains_throws hr)

theorem obtains_of_inTurn : ∀ {junks : List Junk} {ms : List MessageProtocol} {s : SocketStream},
    junks.length = ms.length → s.unread = frames ms → InTurn junks ms s → Obtains junks ms s
  | [], ms, s, hj, hu, _ => by
    cases List.eq_nil_of_length_eq_zero hj.symm
    exact ⟨⟨s, rfl⟩, fun k _ => ⟨[], [], s, by rw [List.take_nil]; rfl, rfl, hu⟩⟩
  | junk :: junks, m :: ms, s, hj, hu, h => by
    obtain ⟨s', hr, hu', h'⟩ := (inTurn_cons hu).mp h
    exact (obtains_received hr).mpr ⟨hu, ms, rfl, obtains_of_inTurn (Nat.succ.inj hj) hu' h'⟩

end Loop

/-! ### One time-out -/

section Timeout
variable {junks : List Junk} {ms : List MessageProtocol} {s : SocketStream} {later : List Str} {p : ℕ}

@[simp] theorem unread_over (sock : List Str) : (s.withSock sock).unread = s.buffered ++ sock.flatten := by
  rw [unread_eq, over_buffered]
  rfl

theorem unread_timeout : (s.withSock (s.sock ++ [] :: later)).unread = s.unread ++ later.flatten := by
  rw [unread_over, unread_eq, List.flatten_append, List.flatten_cons, List.nil_append,
    List.append_assoc]

theorem buffered_of_exhausted (h : s.unread = []) : s.buffered = [] := by
  rw [unread_eq] at h
  exact (List.append_eq_nil_iff.mp h).1

theorem pending_of_exhausted (hsol : Solid s.sock) (h : s.unread = []) : s.pending = [] := by
  have hsol' := SocketStream.pending_solid hsol
  cases hp : s.pending with
  | nil => rfl
  | cons c cs =>
    rw [SocketStream.unread, hp, List.flatten_cons] at h
    exact absurd (List.append_eq_nil_iff.mp h).1 (hsol' c (hp ▸ List.mem_cons_self ..))

theorem recvMessage_nothing (junk : Junk) (h : s.unread = []) :
    ∃ s', recvMessage junk s = (.failed, s') ∧ s'.unread = [] := by
  have hsplit := s.read_unread (PROTOCOL_LENGTH_SIZE + HEADER_LENGTH_SIZE)
  rw [h] at hsplit
  obtain ⟨h1, h2⟩ := List.append_eq_nil_iff.mp hsplit
  refine ⟨(s.read (PROTOCOL_LENGTH_SIZE + HEADER_LENGTH_SIZE)).2, ?_, h2⟩
  rw [recvMessage]
  dsimp only
  rw [if_pos h1]

theorem failed_over {junk : Junk} {s' : SocketStream} (hsol : Solid s.sock)
    (h : recvMessage junk s = (.failed, s')) :
    recvMessage junk (s.withSock (s.sock ++ [] :: later)) = (.failed, s'.withSock later) := by
  rw [recvMessage_over hsol, h]
  rfl

theorem received_over {junk : Junk} {m : MessageProtocol} {s' : SocketStream} (hsol : Solid s.sock)
    (h : recvMessage junk s = (.received m, s')) :
    recvMessage junk (s.withSock (s.sock ++ [] :: later)) =
      (.received m, s'.withSock (s'.sock ++ [] :: later)) := by
  rw [recvMessage_over hsol, h]
  rfl

theorem whole_of_obtains : ∀ {junks : List Junk} {ms : List MessageProtocol} {s : SocketStream}
    {p : ℕ}, junks.length = ms.length + 1 → Solid s.sock → Solid later →
    Obtains junks ms (s.withSock (s.sock ++ [] :: later)) →
    (∀ m ∈ ms, m.getProtocolStr.length < 2 ^ 31) ∧ PrefixWhole p ms (s.pending ++ later) ∧
      p + s.unread.length ∈ borders p ms
  | [], _, _, _, hj, _, _, _ => by cases hj
  | junk :: junks, ms, s, p, hj, hsol, hsol', h => by
    rcases hr : recvMessage junk s with ⟨m | _ | _, s'⟩
    · -- a frame before the time-out
      obtain ⟨hu, ms, rfl, h'⟩ := (obtains_received (received_over hsol hr)).mp h
      have hu' := h'.unread
      rw [unread_timeout] at hu hu'
      have hs : s.unread = m.getProtocolStr ++ s'.unread := by
        rw [frames_cons, ← hu', ← List.append_assoc] at hu
        exact List.append_cancel_right hu
      obtain ⟨hlen, hwhole, htook⟩ := whole_of_received (p := p) hsol hs hr rfl
      obtain ⟨hlens, hwholes, hborder⟩ := @whole_of_obtains junks ms s' (p + m.getProtocolStr.length)
        (Nat.succ.inj hj) (htook.solid hsol) hsol' h'
      have hmin := m.le_length_getProtocolStr
      have htotal : s.pending.flatten.length = m.getProtocolStr.length + s'.pending.flatten.length := by
        have := congrArg List.length hs
        rwa [List.length_append] at this
      refine ⟨List.forall_mem_cons.mpr ⟨hlen, hlens⟩, ?_, ?_⟩
      · rintro f hf b hb ⟨h1, h2⟩
        rw [mem_cuts_append, htotal, ← Nat.add_assoc] at hb
        rcases List.mem_cons.mp hf with rfl | hf
        · rcases hb with hb | hb
          · exact hwhole b hb ⟨h1, h2⟩
          · obtain ⟨a, ha⟩ := mem_cuts.mp hb
            have := le_of_mem_spans ha
            omega
        · have hle := le_of_mem_starts hf
          refine hwholes f hf b ?_ ⟨h1, h2⟩
          rw [mem_cuts_append]
          exact hb.imp_left (fun hb => htook.border hb (by omega))
      · rw [hs, List.length_append, ← Nat.add_assoc]
        exact List.mem_cons_of_mem _ hborder
    · -- the time-out
      obtain ⟨hu, h'⟩ := (obtains_failed (failed_over hsol hr)).mp h
      have hb := buffered_of_exhausted (recvMessage_exhausted hsol hr)
      have hlater : (s'.withSock later).unread = later.flatten := by
        rw [unread_over, hb, List.nil_append]
      have hnone : s.unread = [] := by
        rw [unread_timeout, ← h'.unread, hlater] at hu
        exact List.append_left_eq_self.mp hu
      have ht := inTurn_of_obtains (Nat.succ.inj hj) h'
      obtain ⟨hlens, hwholes⟩ := @prefixWhole_of_inTurn ms junks (s'.withSock later) p (Nat.succ.inj hj)
        hsol' h'.unread ht
      have hpend : (s'.withSock later).pending = later := pending_eq_sock hb
      refine ⟨hlens, ?_, ?_⟩
      · rw [pending_of_exhausted hsol hnone]
        exact hpend ▸ hwholes
      · rw [hnone]
        exact start_mem_borders p ms
    · have hthrows : recvMessage junk (s.withSock (s.sock ++ [] :: later)) =
          (.throws, s'.withSock (s'.sock ++ [] :: later)) := by
        rw [recvMessage_over hsol, hr]
        rfl
      exact absurd h (not_obtains_throws hthrows)

theorem obtains_of_whole : ∀ {junks : List Junk} {ms : List MessageProtocol} {s : SocketStream}
    {p : ℕ}, junks.length = ms.length + 1 → Solid s.sock → Solid later →
    s.unread ++ later.flatten = frames ms → (∀ m ∈ ms, m.getProtocolStr.length < 2 ^ 31) →
    PrefixWhole p ms (s.pending ++ later) → Receivable p ms (s.pending ++ later) →
    p + s.unread.length ∈ borders p ms → Obtains junks ms (s.withSock (s.sock ++ [] :: later))
  | [], _, _, _, hj, _, _, _, _, _, _, _ => by cases hj
  | junk :: junks, ms, s, p, hj, hsol, hsol', hu, hlen, hw, hr, hb => by
    by_cases hnone : s.unread = []
    · -- the time-out
      obtain ⟨s', hf, hu'⟩ := recvMessage_nothing junk hnone
      have hbuf := buffered_of_exhausted hu'
      have hp := pending_of_exhausted hsol hnone
      have hlater : (s'.withSock later).unread = frames ms := by
        rw [unread_over, hbuf, ← hu, hnone]
      rw [hp, List.nil_append] at hw hr
      refine (obtains_failed (failed_over hsol hf)).mpr ⟨by rw [unread_timeout, hu], ?_⟩
      have hpend : (s'.withSock later).pending = later := pending_eq_sock hbuf
      exact obtains_of_inTurn (Nat.succ.inj hj) hlater (inTurn_of_prefixWhole (Nat.succ.inj hj) hlen
        hsol' hlater (hpend.symm ▸ hw) (hpend.symm ▸ hr))
    · -- a frame before it
      cases ms with
      | nil => exact absurd (List.append_eq_nil_iff.mp hu).1 hnone
      | cons m ms =>
        have hpos := List.length_pos_of_ne_nil hnone
        rcases List.mem_cons.mp hb with h0 | hb
        · omega
        have hle := le_of_mem_borders hb
        have hs : s.unread = m.getProtocolStr ++ s.unread.drop m.getProtocolStr.length := by
          have h := congrArg (List.take m.getProtocolStr.length) hu
          rw [frames_cons, List.take_left, List.take_append_of_le_length (by omega)] at h
          have hd := List.take_append_drop m.getProtocolStr.length s.unread
          rw [h] at hd
          exact hd.symm
        have hfit := hr.head (by rw [List.flatten_append]; exact hu)
        obtain ⟨s', hrec, hu', hsol1, hp1⟩ := @recvMessage_frame junk m s _ p hsol hs
          (hlen m (List.mem_cons_self ..))
          (fun b hb => hw p (List.mem_cons_self ..) b (mem_cuts_append.mpr (Or.inl hb)))
          (fun a b hab => hfit a b (by rw [spans_append]; exact List.mem_append_left _ hab))
        have hadv : s'.pending ++ later =
            advance m.getProtocolStr.length (s.pending ++ later) := by
          rw [hp1, advance_append hsol']
          have : s.unread.length = s.pending.flatten.length := rfl
          omega
        refine (obtains_received (received_over hsol hrec)).mpr
          ⟨by rw [unread_timeout, hu], ms, rfl, ?_⟩
        refine @obtains_of_whole junks ms s' (p + m.getProtocolStr.length) (Nat.succ.inj hj) hsol1
          hsol' ?_ (fun x hx => hlen x (List.mem_cons_of_mem _ hx)) ?_ ?_ ?_
        · rw [hs, List.append_assoc, frames_cons] at hu
          rw [hu']
          exact List.append_cancel_left hu
        · rw [hadv]; exact hw.advance
        · rw [hadv]; exact hr.advance
        · rw [hu', List.length_drop]
          have : p + m.getProtocolStr.length + (s.unread.length - m.getProtocolStr.length) =
              p + s.unread.length := by omega
          rwa [this]

end Timeout

/-- A TIME-OUT COSTS NOTHING EXACTLY BETWEEN TWO FRAMES: where `recv` fails once, after `cs` and before
    `cs'`, the loop obtains what was sent, and no call takes bytes of a frame that it does not return, if and
    only if `cs` ends where a frame does and each frame can be received at all. -/
theorem receive_timeout_iff (ms : List MessageProtocol) (junks : List Junk) (cs cs' : List Str)
    (hj : junks.length = ms.length + 1) (hsol : ∀ c ∈ cs ++ cs', c ≠ [])
    (hcs : (cs ++ cs').flatten = frames ms)
    (hrecv : PrefixWhole 0 ms (cs ++ cs') → Receivable 0 ms (cs ++ cs')) :
    Obtains junks ms (.new (cs ++ [] :: cs')) ↔
      (∀ m ∈ ms, m.getProtocolStr.length < 2 ^ 31) ∧ PrefixWhole 0 ms (cs ++ cs') ∧
        cs.flatten.length ∈ borders 0 ms := by
  have h1 : Solid cs := fun c hc => hsol c (List.mem_append_left _ hc)
  have h2 : Solid cs' := fun c hc => hsol c (List.mem_append_right _ hc)
  have hlen : 0 + (SocketStream.new cs).unread.length = cs.flatten.length := Nat.zero_add _
  constructor
  · intro h
    have hwhole := @whole_of_obtains cs' junks ms (.new cs) 0 hj h1 h2 h
    rwa [hlen] at hwhole
  · rintro ⟨hshort, hw, hb⟩
    rw [← hlen] at hb
    refine @obtains_of_whole cs' junks ms (.new cs) 0 hj h1 h2 ?_ hshort hw (hrecv hw) hb
    rw [← hcs, List.flatten_append]
    rfl

/-- The second passes between two requests. -/
theorem receive_timeout_iff_between :
    let cs := [queryAll.getProtocolStr]
    PrefixWhole 0 [queryAll, queryAll] (cs ++ cs) ∧
      Obtains [⟨0, 0⟩, ⟨0, 0⟩, ⟨0, 0⟩] [queryAll, queryAll] (.new (cs ++ [] :: cs)) := by
  intro cs
  have h : PrefixWhole 0 [queryAll, queryAll] (cs ++ cs) := by decide
  exact ⟨h, (receive_timeout_iff [queryAll, queryAll] [⟨0, 0⟩, ⟨0, 0⟩, ⟨0, 0⟩] cs cs rfl (by decide)
    rfl (fun _ => by decide)).mpr ⟨by decide, h, by decide⟩⟩

/-- The second passes inside a request, behind the first twenty-five of its bytes: the call after it takes
    the last seven for the lengths and returns a message that nobody sent. -/
theorem receive_timeout_inside :
    let cs := [queryAll.getProtocolStr.take 25]
    let cs' := [queryAll.getProtocolStr.drop 25]
    (cs ++ cs').flatten = frames [queryAll] ∧ PrefixWhole 0 [queryAll] (cs ++ cs') ∧
      (receive [⟨0, 0⟩, ⟨0, 0⟩] (.new (cs ++ [] :: cs'))).map (·.1) = some [⟨⟨0⟩, ⟨0, []⟩⟩] ∧
      ¬ Obtains [⟨0, 0⟩, ⟨0, 0⟩] [queryAll] (.new (cs ++ [] :: cs')) := by
  intro cs cs'
  have hnone : (receive [⟨0, 0⟩, ⟨0, 0⟩] (.new (cs ++ [] :: cs'))).map (·.1) = some [⟨⟨0⟩, ⟨0, []⟩⟩] := by
    decide +kernel
  refine ⟨by decide, by decide, hnone, ?_⟩
  rintro ⟨⟨s', h⟩, -⟩
  rw [h] at hnone
  cases hnone

end OeAware

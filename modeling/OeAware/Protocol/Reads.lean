import Mathlib.Data.List.Induction
import OeAware.Protocol.Reading

/-! @src src/common/message_protocol.cpp, message_protocol.h | name:SocketStream::Read

    A whole sequence of `Read` calls. What `recv` has handed over is kept beside the stream, as is what
    each call has returned. `RecvMessage` asks for 16 bytes, `ReadBuf` for what it is short of and at most
    `MAX_RECV_BUFF_SIZE`; neither ever asks for none.

        received   ├───────────────────────────────────────┤
        returned   ├── Read ──┼─ Read ─┼── Read ──┤
        readBuff                                  ├ unread ┤            -/

namespace OeAware
open Schemes

namespace SocketStream
variable (s : SocketStream) (size : ℕ)

/-- What `recv` hands over within one `Read`; with something left in the buffer it is not called. -/
def received : Str :=
  if s.readBuffOff < s.readBuffContentSize then []
  else if size < maxBuffSize then (recv s.sock maxBuffSize).1
  else (recv s.sock size).1

/-- The buffer holds no more than a `recv` into it asks for. -/
def Fits : Prop := s.readBuff.length ≤ maxBuffSize

/-- If this `Read` calls `recv`, there is something to come. -/
def Delivers : Prop := ¬ s.readBuffOff < s.readBuffContentSize → s.sock ≠ []

theorem read_fits {s : SocketStream} (h : s.Fits) : (s.read size).2.Fits := by
  have hgot := length_recv_le s.sock maxBuffSize
  unfold read
  split
  · dsimp only
    split
    · exact h
    · exact h
  · split
    · dsimp only
      split
      · exact hgot
      · exact hgot
    · exact h

/-- What was in the buffer and what came is what is returned and what is in the buffer then. -/
theorem read_received : (s.read size).1 ++ (s.read size).2.buffered = s.buffered ++ s.received size := by
  have ho := s.read_outcome size
  generalize s.read size = res at ho
  unfold received
  cases ho with
  | buffer got s' hlt hg hs hb =>
    rw [if_pos hlt, hg, hb, List.take_append_drop, List.append_nil]
  | refill got s' hlt hsz hg hs hb =>
    rw [if_neg hlt, if_pos hsz, hg, hb, List.take_append_drop, buffered_nil hlt, List.nil_append]
  | direct got s' hlt hsz hg hs hb =>
    rw [if_neg hlt, if_neg (Nat.not_lt.mpr hsz), hg, hb, buffered_nil hlt, List.append_nil, List.nil_append]

/-- `recv` takes its bytes from the front of the socket. -/
theorem received_sock : s.received size ++ (s.read size).2.sock.flatten = s.sock.flatten := by
  have ho := s.read_outcome size
  generalize s.read size = res at ho
  unfold received
  cases ho with
  | buffer got s' hlt _ hs => rw [if_pos hlt, hs, List.nil_append]
  | refill got s' hlt hsz _ hs => rw [if_neg hlt, if_pos hsz, hs, recv_flatten]
  | direct got s' hlt hsz _ hs => rw [if_neg hlt, if_neg (Nat.not_lt.mpr hsz), hs, recv_flatten]

theorem delivers_unread {s : SocketStream} (hs : Solid s.sock) (h : s.Delivers) : s.unread ≠ [] := by
  rw [unread_eq]
  by_cases hb : s.readBuffOff < s.readBuffContentSize
  · have := s.length_buffered
    exact List.append_ne_nil_of_left_ne_nil (List.ne_nil_of_length_pos (by omega)) _
  · obtain ⟨c, cs, hc⟩ := List.exists_cons_of_ne_nil (h hb)
    rw [hc] at hs ⊢
    refine List.append_ne_nil_of_right_ne_nil _ ?_
    rw [List.flatten_cons]
    exact List.append_ne_nil_of_left_ne_nil (hs c (List.mem_cons_self ..)) _

end SocketStream

/-! ### Sequences of calls -/

/-- A stream, what its `Read` calls have returned and what `recv` has handed over to it. -/
structure ReadRun where
  stream : SocketStream
  returned : List Str
  received : Str

namespace ReadRun

def new (sock : List Str) : ReadRun := ⟨.new sock, [], []⟩

/-- One more `Read`. -/
def next (r : ReadRun) (size : ℕ) : ReadRun :=
  ⟨(r.stream.read size).2, r.returned ++ [(r.stream.read size).1], r.received ++ r.stream.received size⟩

/-- As many as there are sizes. -/
def run (sock : List Str) (sizes : List ℕ) : ReadRun := sizes.foldl next (.new sock)

/-- What holds between two calls on a socket that is to deliver `sock`. -/
structure Kept (sock : List Str) (r : ReadRun) : Prop where
  exact : r.returned.flatten ++ r.stream.buffered = r.received
  socket : r.received ++ r.stream.sock.flatten = sock.flatten
  solid : Solid r.stream.sock
  fits : r.stream.Fits

theorem kept_new {sock : List Str} (h : Solid sock) : Kept sock (.new sock) where
  exact := rfl
  socket := rfl
  solid := h
  fits := Nat.zero_le _

theorem Kept.next {sock : List Str} {r : ReadRun} (h : Kept sock r) (size : ℕ) : Kept sock (r.next size) where
  exact := by
    simp only [ReadRun.next, List.flatten_append, List.flatten_singleton]
    rw [List.append_assoc, r.stream.read_received size, ← List.append_assoc, h.exact]
  socket := by
    simp only [ReadRun.next]
    rw [List.append_assoc, r.stream.received_sock size, h.socket]
  solid := SocketStream.read_solid h.solid size
  fits := SocketStream.read_fits size h.fits

theorem kept_run {sock : List Str} (h : Solid sock) (sizes : List ℕ) : Kept sock (run sock sizes) := by
  induction sizes using List.reverseRecOn with
  | nil => exact kept_new h
  | append_singleton sizes size ih =>
    rw [run, List.foldl_concat]
    exact ih.next size

/-- NOTHING LOST: after any calls, what they returned and what is still in the buffer is what `recv` handed
    over, and the buffer is within its bounds; the next call returns at most what it is asked for and, where
    that is not nothing, at least a byte. -/
theorem returned_buffered_eq_received (sock : List Str) (hsock : Solid sock) (sizes : List ℕ) :
    let r := run sock sizes
    r.returned.flatten ++ r.stream.buffered = r.received ∧
      r.received ++ r.stream.sock.flatten = sock.flatten ∧
      r.stream.readBuffOff ≤ r.stream.readBuffContentSize ∧ r.stream.readBuffContentSize ≤ maxBuffSize ∧
      ∀ size ≤ MAX_RECV_BUFF_SIZE, (r.stream.read size).1.length ≤ size ∧
        (0 < size → r.stream.Delivers → 1 ≤ (r.stream.read size).1.length) := by
  intro r
  have h : Kept sock r := kept_run hsock sizes
  refine ⟨h.exact, h.socket, r.stream.bound.1, r.stream.bound.2.trans h.fits, fun size _ => ⟨?_, ?_⟩⟩
  · exact r.stream.length_read_le size
  · intro hpos hdel
    exact List.length_pos_of_ne_nil
      (SocketStream.read_ne_nil h.solid hpos (SocketStream.delivers_unread h.solid hdel))

theorem returned_buffered_eq_received_sample :
    let r := run [[1, 2, 3], [4, 5]] [2, 4]
    (r.returned = [[1, 2], [3]] ∧ r.received = [1, 2, 3]) ∧
      r.returned.flatten ++ r.stream.buffered = r.received ∧
      r.received ++ r.stream.sock.flatten = [1, 2, 3, 4, 5] ∧
      r.stream.readBuffOff ≤ r.stream.readBuffContentSize ∧ r.stream.readBuffContentSize ≤ maxBuffSize ∧
      ∀ size ≤ MAX_RECV_BUFF_SIZE, (r.stream.read size).1.length ≤ size ∧
        (0 < size → r.stream.Delivers → 1 ≤ (r.stream.read size).1.length) := by
  refine ⟨by decide, ?_⟩
  exact returned_buffered_eq_received [[1, 2, 3], [4, 5]] (by unfold Solid; decide) [2, 4]

end ReadRun

end OeAware

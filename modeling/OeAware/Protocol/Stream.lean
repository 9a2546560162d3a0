import OeAware.Common.Message
import OeAware.Schemes.Chunks

/-! @src src/common/message_protocol.cpp, message_protocol.h | name:SocketStream, MessageProtocol,
    ReadBuf, RecvMessage

    One frame is two lengths, the header and the message; `RecvMessage` takes frames off a buffered
    stream. The socket is the list of what its `recv` calls will return. A `recv` for the read-ahead
    buffer asks for `maxBuffSize` bytes, one past it for what is wanted. Header and body are read in
    a loop; the sixteen bytes of the lengths are not.

        ┌ totLength 8 ┬ headLength 8 ┬ header 4 ┬ message ────────┐
        │     one Read, no loop      │ ReadBuf  │ ReadBuf         │

    `memcpy_s` is never asked for more than its bound, so it does not fail. -/

namespace OeAware
open Schemes

def MAX_RECV_BUFF_SIZE : ℕ := 16384
def PROTOCOL_LENGTH_SIZE : ℕ := 8
def HEADER_LENGTH_SIZE : ℕ := 8
def maxBuffSize : ℕ := 4096

/-- `SocketStream`; of `readBuff` only what the last `recv` stored is kept. -/
structure SocketStream where
  sock : List Str
  readBuff : Str
  readBuffOff : ℕ
  readBuffContentSize : ℕ
  bound : readBuffOff ≤ readBuffContentSize ∧ readBuffContentSize ≤ readBuff.length

namespace SocketStream

/-- `SocketStream(sock)`. -/
def new (sock : List Str) : SocketStream := ⟨sock, [], 0, 0, by simp⟩

/-- `SocketStream::Read`: the bytes copied to `buf`, none when the result is not positive. -/
def read (s : SocketStream) (size : ℕ) : Str × SocketStream :=
  if h : s.readBuffOff < s.readBuffContentSize then
    let remainingSize := s.readBuffContentSize - s.readBuffOff
    if hs : size ≤ remainingSize then
      ((s.readBuff.drop s.readBuffOff).take size,
        { s with
          readBuffOff := s.readBuffOff + size
          bound := ⟨by have := s.bound; omega, s.bound.2⟩ })
    else
      ((s.readBuff.drop s.readBuffOff).take remainingSize,
        { s with
          readBuffOff := s.readBuffOff + remainingSize
          bound := ⟨by have := s.bound; omega, s.bound.2⟩ })
  else if size < maxBuffSize then
    let got := (recv s.sock maxBuffSize).1
    let sock := (recv s.sock maxBuffSize).2
    if hn : got.length < size then (got, ⟨sock, got, 0, 0, by simp⟩)
    else (got.take size, ⟨sock, got, size, got.length, by omega⟩)
  else ((recv s.sock size).1, ⟨(recv s.sock size).2, s.readBuff, 0, 0, by simp⟩)

/-- What has been read ahead. -/
def buffered (s : SocketStream) : Str :=
  (s.readBuff.take s.readBuffContentSize).drop s.readBuffOff

/-- The feed as the stream sees it: what has been read ahead, then what `recv` will return. -/
def pending (s : SocketStream) : List Str :=
  if s.readBuffOff < s.readBuffContentSize then s.buffered :: s.sock else s.sock

/-- The bytes not yet read. -/
def unread (s : SocketStream) : Str := s.pending.flatten

end SocketStream

/-- `MessageHeader`, by the value of its enumerator. -/
structure MessageHeader where
  type : UInt32
  deriving DecidableEq

/-- `MessageProtocol`. -/
structure MessageProtocol where
  header : MessageHeader
  message : Message
  deriving DecidableEq

/-- `MessageHeader::Serialize`. -/
def MessageHeader.serialize (h : MessageHeader) : Str := serInt h.type

/-- `MessageHeader::Deserialize`; `junk` is what the uninitialised local `iType` holds. -/
def MessageHeader.deserialize (junk : UInt32) (s : InStream) : MessageHeader := ⟨(s.readInt junk).1⟩

/-- `MessageProtocol::GetProtocolStr`. -/
def MessageProtocol.getProtocolStr (m : MessageProtocol) : Str :=
  let headLength := m.header.serialize.length
  let out := m.header.serialize ++ m.message.serialize
  let totLength := PROTOCOL_LENGTH_SIZE + HEADER_LENGTH_SIZE + out.length
  serSize totLength ++ serSize headLength ++ out

/-- The loop of `ReadBuf`; a round reads at least one byte, so `fuel` need not exceed what is
    wanted. `none` is `false`. -/
def readBuf : ℕ → ℤ → ℤ → SocketStream → Str → Option Str × SocketStream
  | 0, _, _, stream, msg => (some msg, stream)
  | fuel + 1, start, stop, stream, msg =>
    if start < stop then
      let readLen := (stop - start).toNat
      let (buf, stream) := stream.read (min readLen MAX_RECV_BUFF_SIZE)
      if buf = [] then (none, stream)
      else readBuf fuel (start + buf.length) stop stream (msg ++ buf)
    else (some msg, stream)

/-- A `uint64_t` passed as an `int`. -/
def toInt (n : ℕ) : ℤ := Int.bmod n (2 ^ 32)

inductive RecvOutcome where
  /-- `true`, with the message. -/
  | received (m : MessageProtocol)
  /-- `false`. -/
  | failed
  /-- `std::length_error` leaves the function. -/
  | throws
  deriving DecidableEq

/-- What the uninitialised locals hold that the two `Deserialize` functions read into. -/
structure Junk where
  iType : UInt32
  op : UInt32

/-- `MessageProtocol()`: no payload, and whatever the two enumerators happen to hold. -/
def MessageProtocol.fresh (type opt : UInt32) : MessageProtocol := ⟨⟨type⟩, ⟨opt, []⟩⟩

/-- `SetHeader(headerStr)`, with what is left of the stream it reads. -/
def MessageProtocol.setHeader (m : MessageProtocol) (junk : UInt32) (headerStr : Str) :
    MessageProtocol × InStream :=
  let (iType, s) := InStream.readInt ⟨headerStr, true⟩ junk
  (⟨⟨iType⟩, m.message⟩, s)

/-- `SetMessage(content)`, with what is left of the stream it reads; the payload is read behind what
    the message already holds. -/
def MessageProtocol.setMessage (m : MessageProtocol) (junk : UInt32) (content : Str) :
    Option (MessageProtocol × InStream) := do
  let (message, s) ← Message.deserialize junk ⟨content, true⟩
  pure (⟨m.header, ⟨message.opt, m.message.payload ++ message.payload⟩⟩, s)

/-- The end of `RecvMessage`: `SetHeader` and `SetMessage` on what was read. -/
def setHeaderMessage (junk : Junk) (header message : Str) : RecvOutcome :=
  match Message.deserialize junk.op ⟨message, true⟩ with
  | none => .throws
  | some (m, _) => .received ⟨MessageHeader.deserialize junk.iType ⟨header, true⟩, m⟩

/-- `RecvMessage` from the point where it has taken the lengths. -/
def recvParts (junk : Junk) (headerStart headerEnd bodyEnd : ℤ) (stream : SocketStream) :
    RecvOutcome × SocketStream :=
  match readBuf (headerEnd - headerStart).toNat headerStart headerEnd stream [] with
  | (none, stream) => (.failed, stream)
  | (some header, stream) =>
    match readBuf (bodyEnd - headerEnd).toNat headerEnd bodyEnd stream [] with
    | (none, stream) => (.failed, stream)
    | (some message, stream) => (setHeaderMessage junk header message, stream)

/-- `RecvMessage`. -/
def recvMessage (junk : Junk) (stream : SocketStream) : RecvOutcome × SocketStream :=
  let (buf, stream) := stream.read (PROTOCOL_LENGTH_SIZE + HEADER_LENGTH_SIZE)
  if buf = [] then (.failed, stream)
  else
    let (totLength, s) := InStream.readSize ⟨buf, true⟩
    let (headerLength, _) := s.readSize
    let headerStart := PROTOCOL_LENGTH_SIZE + HEADER_LENGTH_SIZE
    let headerEnd := (headerStart + headerLength) % 2 ^ 64
    recvParts junk (toInt headerStart) (toInt headerEnd) (toInt totLength) stream

/-- Successive `RecvMessage` calls on one stream, one for each `Junk`, as long as they succeed. -/
def recvMessages : List Junk → SocketStream → Option (List MessageProtocol) × SocketStream
  | [], stream => (some [], stream)
  | junk :: junks, stream =>
    match recvMessage junk stream with
    | (.received m, stream) =>
      match recvMessages junks stream with
      | (some ms, stream) => (some (m :: ms), stream)
      | (none, stream) => (none, stream)
    | (_, stream) => (none, stream)

end OeAware

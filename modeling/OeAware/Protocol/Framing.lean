import OeAware.Common.Decoding
import OeAware.Protocol.Reading

/-! @src src/common/message_protocol.cpp | name:GetProtocolStr, RecvMessage

    Frames through `RecvMessage`. The lengths at the front of a frame are taken with a single `Read`,
    so a frame comes through exactly when no piece ends inside those sixteen bytes: a short read is
    taken for the lengths with zeros for what is missing, and the call then leaves part of the frame
    behind. Everything after the lengths may be cut anywhere.

        ──▶│ totLength │ headLength │ header │ message │ totLength │ …
            ╰── no border in here ──╯                   ╰── nor here ─ -/

namespace OeAware
open Schemes

/-! ### The shape of a frame -/

theorem length_serSize (n : ℕ) : (serSize n).length = 8 := length_leBytes 8 n

theorem length_serInt (n : UInt32) : (serInt n).length = 4 := length_leBytes 4 n.toNat

namespace MessageProtocol
variable (m : MessageProtocol)

theorem length_getProtocolStr :
    m.getProtocolStr.length = 20 + m.message.serialize.length := by
  simp only [getProtocolStr, List.length_append, length_serSize, MessageHeader.serialize,
    length_serInt]
  omega

theorem getProtocolStr_eq : m.getProtocolStr = serSize m.getProtocolStr.length ++
    (serSize 4 ++ (serInt m.header.type ++ m.message.serialize)) := by
  have htot : PROTOCOL_LENGTH_SIZE + HEADER_LENGTH_SIZE +
      (m.header.serialize ++ m.message.serialize).length = m.getProtocolStr.length := by
    rw [length_getProtocolStr, List.length_append, MessageHeader.serialize, length_serInt,
      PROTOCOL_LENGTH_SIZE, HEADER_LENGTH_SIZE]
    omega
  have hhead : m.header.serialize.length = 4 := length_serInt _
  rw [getProtocolStr, htot, hhead, List.append_assoc]
  rfl

theorem le_length_getProtocolStr : 32 ≤ m.getProtocolStr.length := by
  rw [length_getProtocolStr, Message.serialize, serVec, List.length_append, List.length_append,
    length_serInt, length_serSize]
  omega

theorem getProtocolStr_ne_nil : m.getProtocolStr ≠ [] :=
  List.ne_nil_of_length_pos (by have := m.le_length_getProtocolStr; omega)

end MessageProtocol

theorem length_le_serVec : ∀ (v : List Str), v.length ≤ (v.map serStr).flatten.length ∧
    ∀ s ∈ v, s.length ≤ (v.map serStr).flatten.length
  | [] => by simp
  | s :: v => by
    obtain ⟨h1, h2⟩ := length_le_serVec v
    have hs : (serStr s).length = 8 + s.length := by
      rw [serStr, List.length_append, length_serSize]
    simp only [List.map_cons, List.flatten_cons, List.length_append, List.length_cons, hs]
    refine ⟨by omega, fun x hx => ?_⟩
    rcases List.mem_cons.mp hx with rfl | hx
    · omega
    · have := h2 x hx
      omega

theorem toInt_of_lt {n : ℕ} (h : n < 2 ^ 31) : toInt n = n := by
  unfold toInt
  rw [Int.bmod_def]
  omega

theorem toInt_lt (n : ℕ) : toInt n < 2 ^ 31 := by
  have := @Int.bmod_lt n (2 ^ 32) (by decide)
  unfold toInt
  omega

theorem toInt_le (n : ℕ) : toInt n ≤ n := by
  have := toInt_lt n
  by_cases h : n < 2 ^ 31
  · rw [toInt_of_lt h]
  · omega

theorem deserialize_frame (junk : UInt32) (m : MessageProtocol)
    (hlen : m.getProtocolStr.length < 2 ^ 31) :
    Message.deserialize junk ⟨m.message.serialize, true⟩ = some (m.message, ⟨[], true⟩) := by
  rw [MessageProtocol.length_getProtocolStr, Message.serialize, serVec, List.length_append,
    List.length_append, length_serInt, length_serSize] at hlen
  obtain ⟨h1, h2⟩ := length_le_serVec m.message.payload
  have hmsg := deserialize_serialize m.message junk [] (by omega)
    (fun s hs => by have := h2 s hs; simp only [stringMaxSize]; omega)
  rwa [List.append_nil] at hmsg

theorem readInt_header (junk : UInt32) (h : MessageHeader) :
    InStream.readInt ⟨h.serialize, true⟩ junk = (h.type, ⟨[], true⟩) := by
  have hhead := readInt_ser h.type junk []
  rwa [List.append_nil] at hhead

/-- Header and message of a frame are taken for what they are. -/
theorem setHeaderMessage_frame (junk : Junk) (m : MessageProtocol)
    (hlen : m.getProtocolStr.length < 2 ^ 31) :
    setHeaderMessage junk (serInt m.header.type) m.message.serialize = .received m := by
  have hhead := readInt_header junk.iType m.header
  rw [MessageHeader.serialize] at hhead
  rw [setHeaderMessage, deserialize_frame junk.op m hlen, MessageHeader.deserialize, hhead]

/-- The end of `RecvMessage` is `SetHeader` and `SetMessage` on a fresh `MessageProtocol`. -/
theorem setHeaderMessage_eq (junk : Junk) (type opt : UInt32) (header message : Str) :
    setHeaderMessage junk header message =
      match ((MessageProtocol.fresh type opt).setHeader junk.iType header).1.setMessage junk.op
          message with
      | none => .throws
      | some (m, _) => .received m := by
  rw [setHeaderMessage, MessageProtocol.setMessage]
  cases Message.deserialize junk.op ⟨message, true⟩ <;> rfl

/-- ROUND TRIP of a frame: its first eight bytes are its own length, the next eight that of the
    header, and the pieces cut at those lengths read back as header and message, each to its end. -/
theorem getProtocolStr_roundTrip (m : MessageProtocol) (hlen : m.getProtocolStr.length < 2 ^ 31)
    (junk : Junk) (type opt : UInt32) :
    ∃ tot hl : ℕ, tot = m.getProtocolStr.length ∧ hl = m.header.serialize.length ∧
      m.getProtocolStr.take 8 = serSize tot ∧ (m.getProtocolStr.drop 8).take 8 = serSize hl ∧
      InStream.readSize ⟨m.getProtocolStr, true⟩ = (tot, ⟨m.getProtocolStr.drop 8, true⟩) ∧
      InStream.readSize ⟨m.getProtocolStr.drop 8, true⟩ = (hl, ⟨m.getProtocolStr.drop 16, true⟩) ∧
      ∃ withHeader : MessageProtocol,
        (MessageProtocol.fresh type opt).setHeader junk.iType
          ((m.getProtocolStr.drop 16).take hl) = (withHeader, ⟨[], true⟩) ∧
        withHeader.setMessage junk.op ((m.getProtocolStr.take tot).drop (16 + hl)) =
          some (m, ⟨[], true⟩) := by
  have hsz : ∀ (n : ℕ) (l : Str), (serSize n ++ l).take 8 = serSize n ∧
      (serSize n ++ l).drop 8 = l := by
    intro n l
    have h8 := length_serSize n
    exact ⟨by rw [← h8, List.take_left], by rw [← h8, List.drop_left]⟩
  have hhl : (m.header.serialize).length = 4 := length_serInt _
  have heq := m.getProtocolStr_eq
  have h8 : m.getProtocolStr.drop 8 =
      serSize 4 ++ (m.header.serialize ++ m.message.serialize) := by
    rw [heq, (hsz _ _).2]; rfl
  have h16 : m.getProtocolStr.drop 16 = m.header.serialize ++ m.message.serialize := by
    have : m.getProtocolStr.drop 16 = (m.getProtocolStr.drop 8).drop 8 := by rw [List.drop_drop]
    rw [this, h8, (hsz _ _).2]
  refine ⟨_, 4, rfl, hhl.symm, ?_, ?_, ?_, ?_, ⟨m.header, ⟨opt, []⟩⟩, ?_, ?_⟩
  · conv_lhs => rw [heq]
    exact (hsz _ _).1
  · rw [h8]
    exact (hsz _ _).1
  · have := readSize_ser m.getProtocolStr.length (m.getProtocolStr.drop 8) (by omega)
    rwa [h8, show serSize m.getProtocolStr.length ++ (serSize 4 ++ (m.header.serialize ++
      m.message.serialize)) = m.getProtocolStr from heq.symm, ← h8] at this
  · rw [h8, h16]
    exact readSize_ser 4 _ (by decide)
  · rw [h16, ← hhl, List.take_left, MessageProtocol.setHeader, readInt_header]
    rfl
  · rw [List.take_length, ← List.drop_drop, h16, ← hhl, List.drop_left, MessageProtocol.setMessage,
      deserialize_frame junk.op m hlen]
    rfl

/-- A message with an empty string and one with embedded `NUL` bytes, under an unknown opt. -/
theorem getProtocolStr_roundTrip_nul :
    (⟨⟨7⟩, ⟨0xffffffff, [[], [0, 65, 0]]⟩⟩ : MessageProtocol).getProtocolStr.length = 51 ∧
    ∃ withHeader : MessageProtocol, withHeader.setMessage 2
      ((⟨⟨7⟩, ⟨0xffffffff, [[], [0, 65, 0]]⟩⟩ : MessageProtocol).getProtocolStr.drop 20) =
        some (⟨⟨7⟩, ⟨0xffffffff, [[], [0, 65, 0]]⟩⟩, ⟨[], true⟩) := by
  have hlen : (⟨⟨7⟩, ⟨0xffffffff, [[], [0, 65, 0]]⟩⟩ : MessageProtocol).getProtocolStr.length = 51 := by
    decide
  obtain ⟨tot, hl, rfl, hhl, -, -, -, -, w, -, hw⟩ := getProtocolStr_roundTrip
    ⟨⟨7⟩, ⟨0xffffffff, [[], [0, 65, 0]]⟩⟩ (by rw [hlen]; decide) ⟨1, 2⟩ 3 4
  refine ⟨hlen, w, ?_⟩
  rw [List.take_length, hhl] at hw
  exact hw

/-! ### Lengths that were cut short -/

theorem leVal_take_le (r : ℕ) : ∀ l : Str, leVal (l.take r) ≤ leVal l
  | [] => by simp
  | b :: l => by
    cases r with
    | zero => simp [leVal]
    | succ r =>
      have := leVal_take_le r l
      simp only [List.take_succ_cons, leVal]
      omega

/-- A length of which only the first `r` bytes are there reads as no more than it is … -/
theorem readSize_take_le (n r : ℕ) :
    (InStream.readSize ⟨(serSize n).take r, true⟩).1 ≤ n := by
  rw [InStream.readSize, InStream.read, if_pos rfl]
  dsimp only
  rw [List.drop_replicate, leVal_append_zeros, List.take_take]
  refine Nat.le_trans (leVal_take_le _ _) ?_
  rw [serSize, leVal_leBytes]
  exact Nat.mod_le _ _

/-- … and nothing can be read after it. -/
theorem readSize_take_good (n : ℕ) {r : ℕ} (hr : r < 8) :
    (InStream.readSize ⟨(serSize n).take r, true⟩).2.good = false := by
  rw [InStream.readSize, InStream.read, if_pos rfl]
  dsimp only
  rw [List.length_replicate, List.length_take, length_serSize]
  exact decide_eq_false (by omega)

theorem readSize_not_good (s : InStream) (h : s.good = false) : s.readSize.1 = 0 := by
  rw [InStream.readSize, InStream.read, h]
  rfl

/-- The lengths read from the first `r` bytes of a frame are no larger than the real ones. -/
theorem readSizes_take (tot : ℕ) (rest : Str) {r : ℕ} (hr : r ≤ 16) :
    (InStream.readSize ⟨(serSize tot ++ (serSize 4 ++ rest)).take r, true⟩).1 ≤ tot ∧
    (InStream.readSize ⟨(serSize tot ++ (serSize 4 ++ rest)).take r, true⟩).2.readSize.1 ≤ 4 := by
  rw [List.take_append, length_serSize]
  by_cases h8 : r < 8
  · rw [Nat.sub_eq_zero_of_le h8.le, List.take_zero, List.append_nil]
    refine ⟨readSize_take_le tot r, ?_⟩
    rw [readSize_not_good _ (readSize_take_good tot h8)]
    omega
  · have h8' := length_serSize tot
    rw [List.take_of_length_le (by omega), readSize_ok (by rw [List.length_append]; omega), ← h8',
      List.take_left, List.drop_left, h8', serSize, leVal_leBytes]
    refine ⟨Nat.mod_le _ _, ?_⟩
    rw [List.take_append_of_le_length (by rw [length_serSize]; omega)]
    exact readSize_take_le 4 _

/-! ### One call -/

/-- `RecvMessage` after the lengths. -/
theorem recvMessage_eq {junk : Junk} {s : SocketStream} {tot hl : ℕ} (hne : (s.read 16).1 ≠ [])
    (htot : (InStream.readSize ⟨(s.read 16).1, true⟩).1 = tot)
    (hhl : (InStream.readSize ⟨(s.read 16).1, true⟩).2.readSize.1 = hl) (h2 : hl ≤ 4) :
    recvMessage junk s = recvParts junk 16 (16 + hl) (toInt tot) (s.read 16).2 := by
  have h16 : PROTOCOL_LENGTH_SIZE + HEADER_LENGTH_SIZE = 16 := rfl
  have hstart : toInt 16 = 16 := toInt_of_lt (by omega)
  have hend : toInt ((16 + hl) % 2 ^ 64) = 16 + hl := by
    rw [Nat.mod_eq_of_lt (by omega), toInt_of_lt (by omega)]
    rfl
  rw [recvMessage, h16]
  dsimp only
  rw [if_neg hne, htot, hhl, hend, hstart]

theorem recvParts_received {junk : Junk} {a b c : ℤ} {s s' : SocketStream} {m : MessageProtocol}
    (he : recvParts junk a b c s = (.received m, s')) :
    ∃ got, Took s got s' ∧ got.length = (b - a).toNat + (c - b).toNat := by
  unfold recvParts at he
  split at he
  · cases he
  · rename_i header s1 hh
    split at he
    · cases he
    · rename_i message s2 hm
      obtain ⟨x, -, hx, hxl⟩ := readBuf_some _ hh (Nat.le_refl _)
      obtain ⟨y, -, hy, hyl⟩ := readBuf_some _ hm (Nat.le_refl _)
      obtain ⟨-, rfl⟩ := Prod.mk.inj he
      refine ⟨x ++ y, hx.trans hy, ?_⟩
      rw [List.length_append, hxl, hyl]

section OneCall
variable {junk : Junk} {m : MessageProtocol} {s s' : SocketStream} {rest : Str} {p : ℕ}

/-- A call that succeeds at the start of a frame whose lengths do not arrive in one piece, or are too large
    for an `int`, leaves some of that frame behind. -/
theorem recvMessage_received {m' : MessageProtocol} (hsol : Solid s.sock)
    (hu : s.unread = m.getProtocolStr ++ rest) (he : recvMessage junk s = (.received m', s')) :
    ∃ got, Took s got s' ∧ ((s.read 16).1.length < 16 ∨ 2 ^ 31 ≤ m.getProtocolStr.length →
      got.length < m.getProtocolStr.length) := by
  have hmin := m.le_length_getProtocolStr
  have hle := s.length_read_le 16
  have hne : (s.read 16).1 ≠ [] := by
    refine SocketStream.read_ne_nil hsol (by omega) (fun h0 => ?_)
    rw [hu] at h0
    exact m.getProtocolStr_ne_nil (List.append_eq_nil_iff.mp h0).1
  have hbuf : (s.read 16).1 = m.getProtocolStr.take (s.read 16).1.length := by
    have h := s.read_unread 16
    rw [hu] at h
    have := congrArg (List.take (s.read 16).1.length) h
    rwa [List.take_left, List.take_append_of_le_length (by omega)] at this
  obtain ⟨htot, hhl⟩ := readSizes_take m.getProtocolStr.length
    (serInt m.header.type ++ m.message.serialize) hle
  rw [← m.getProtocolStr_eq, ← hbuf] at htot hhl
  rw [recvMessage_eq hne rfl rfl hhl] at he
  obtain ⟨got, ht, hl⟩ := recvParts_received he
  have hint := toInt_lt (InStream.readSize ⟨(s.read 16).1, true⟩).1
  have hint' := toInt_le (InStream.readSize ⟨(s.read 16).1, true⟩).1
  refine ⟨_, (read_took s (by decide)).trans ht, fun hlt => ?_⟩
  rw [List.length_append, hl]
  omega

/-- A piece too long for the buffer lies between `q` and `e` or after `e`. -/
def Fits (q e p : ℕ) (cs : List Str) : Prop :=
  ∀ a b, (a, b) ∈ spans p cs → b ≤ a + maxBuffSize ∨ (q ≤ a ∧ b ≤ e) ∨ e ≤ a

theorem Fits.advance {q e : ℕ} {cs : List Str} (h : Fits q e p cs) (k : ℕ) :
    Fits q e (p + k) (advance k cs) := by
  intro a b hm
  obtain ⟨a0, ha, h0⟩ := mem_spans_advance k hm
  have := h a0 b h0
  omega

theorem Fits.roomy {q e k : ℕ} {cs : List Str} (h : Fits q e p cs) (hqe : q ≤ e)
    (hk : p + k ≤ q ∨ p + k = e) : Roomy p k cs := by
  intro a b hm ha
  have := h a b hm
  omega

/-- A frame whose lengths arrive in one piece is received, and the borders after it stay. -/
theorem recvMessage_frame (hsol : Solid s.sock) (hu : s.unread = m.getProtocolStr ++ rest)
    (hlen : m.getProtocolStr.length < 2 ^ 31)
    (hcut : ∀ b ∈ cuts p s.pending, ¬ (p < b ∧ b < p + 16))
    (hfit : Fits (p + 20) (p + m.getProtocolStr.length) p s.pending) :
    ∃ s', recvMessage junk s = (.received m, s') ∧ s'.unread = rest ∧ Solid s'.sock ∧
      s'.pending = advance m.getProtocolStr.length s.pending := by
  have hmin := m.le_length_getProtocolStr
  set L := m.getProtocolStr.length with hL
  -- the lengths
  have h16 : (serSize L ++ serSize 4).length = 16 := by
    rw [List.length_append, length_serSize, length_serSize]
  have hu : s.unread = serSize L ++ serSize 4 ++
      (serInt m.header.type ++ (m.message.serialize ++ rest)) := by
    rw [hu, m.getProtocolStr_eq, ← hL]
    simp only [List.append_assoc]
  obtain ⟨hbuf, hu1, hpend1⟩ := @read_exact s _ _ p hsol hu
    (List.ne_nil_of_length_pos (by omega)) (by rw [h16]; exact hcut)
    (by rw [h16]; exact hfit.roomy (by omega) (by omega))
  rw [h16] at hbuf hu1 hpend1
  have hfit1 := hpend1 ▸ hfit.advance 16
  have htot : InStream.readSize ⟨(s.read 16).1, true⟩ = (L, ⟨serSize 4, true⟩) := by
    rw [hbuf]; exact readSize_ser L _ (by omega)
  have hhl : InStream.readSize ⟨serSize 4, true⟩ = (4, ⟨[], true⟩) := by
    have := readSize_ser 4 [] (by omega)
    rwa [List.append_nil] at this
  -- the header
  obtain ⟨s2, hh, hu2, hsol2, hpend2⟩ := @readBuf_exact 16 (16 + (4 : ℕ)) _ _ _ (p + 16)
    (SocketStream.read_solid hsol 16) hu1 (length_serInt _)
    (by rw [length_serInt]; exact hfit1.roomy (by omega) (by omega))
  rw [length_serInt] at hpend2
  have hfit2 := hpend2 ▸ hfit1.advance 4
  -- the message
  have hbl : m.message.serialize.length = ((L : ℤ) - (16 + (4 : ℕ))).toNat := by
    rw [hL, m.length_getProtocolStr]; omega
  obtain ⟨s3, hb, hu3, hsol3, hpend3⟩ := @readBuf_exact (16 + (4 : ℕ)) L _ _ _ (p + 16 + 4) hsol2
    hu2 hbl (hfit2.roomy (by omega) (by omega))
  refine ⟨s3, ?_, hu3, hsol3, ?_⟩
  · have hne : (s.read 16).1 ≠ [] := by
      rw [hbuf]; exact List.ne_nil_of_length_pos (by omega)
    rw [recvMessage_eq hne (by rw [htot]) (by rw [htot, hhl]) (Nat.le_refl 4), toInt_of_lt hlen, recvParts,
      hh]
    dsimp only
    rw [hb]
    dsimp only
    rw [setHeaderMessage_frame junk m hlen]
  · rw [hpend3, hpend2, hpend1, ← advance_add, ← advance_add]
    congr 1
    omega

end OneCall

/-! ### Call after call -/

/-- The bytes of the frames one after the other. -/
def frames (ms : List MessageProtocol) : Str := (ms.map (·.getProtocolStr)).flatten

theorem frames_cons {m : MessageProtocol} {ms : List MessageProtocol} :
    frames (m :: ms) = m.getProtocolStr ++ frames ms := rfl

/-- Where the frames begin when the first one begins at `p`. -/
def starts : ℕ → List MessageProtocol → List ℕ
  | _, [] => []
  | p, m :: ms => p :: starts (p + m.getProtocolStr.length) ms

/-- No piece ends inside the two lengths at the front of a frame. -/
def PrefixWhole (p : ℕ) (ms : List MessageProtocol) (cs : List Str) : Prop :=
  ∀ f ∈ starts p ms, ∀ b ∈ cuts p cs, ¬ (f < b ∧ b < f + 16)

instance (p : ℕ) (ms : List MessageProtocol) (cs : List Str) : Decidable (PrefixWhole p ms cs) :=
  inferInstanceAs (Decidable (∀ f ∈ starts p ms, ∀ b ∈ cuts p cs, ¬ (f < b ∧ b < f + 16)))

/-- What `recv` can return while the frames are read where they begin: it is asked for more than
    `maxBuffSize` bytes for the rest of a message only, so a piece longer than that lies in one. -/
def Receivable (p : ℕ) (ms : List MessageProtocol) (cs : List Str) : Prop :=
  ∀ c ∈ spans p cs, c.2 ≤ c.1 + maxBuffSize ∨ ∀ f ∈ starts p ms, c.2 ≤ f ∨ f + 20 ≤ c.1

instance (p : ℕ) (ms : List MessageProtocol) (cs : List Str) : Decidable (Receivable p ms cs) :=
  inferInstanceAs (Decidable (∀ c ∈ spans p cs, c.2 ≤ c.1 + maxBuffSize ∨
    ∀ f ∈ starts p ms, c.2 ≤ f ∨ f + 20 ≤ c.1))

theorem le_of_mem_starts : ∀ {p f : ℕ} {ms : List MessageProtocol}, f ∈ starts p ms → p ≤ f
  | _, _, [], h => by cases h
  | p, f, m :: ms, h => by
    rcases List.mem_cons.mp h with rfl | h
    · exact Nat.le_refl _
    · have := le_of_mem_starts h
      omega

section Sequence
variable {m : MessageProtocol} {ms : List MessageProtocol} {cs : List Str} {p : ℕ}

theorem PrefixWhole.advance (h : PrefixWhole p (m :: ms) cs) :
    PrefixWhole (p + m.getProtocolStr.length) ms (advance m.getProtocolStr.length cs) := by
  rintro f hf b hb ⟨h1, h2⟩
  have hle := le_of_mem_starts hf
  rw [mem_cuts_advance _ (by omega)] at hb
  exact h f (List.mem_cons_of_mem _ hf) b hb ⟨h1, h2⟩

theorem Receivable.advance (h : Receivable p (m :: ms) cs) :
    Receivable (p + m.getProtocolStr.length) ms (advance m.getProtocolStr.length cs) := by
  rintro ⟨a, b⟩ hm
  obtain ⟨a0, ha, h0⟩ := mem_spans_advance _ hm
  rcases h _ h0 with hb | hb
  · exact Or.inl (by dsimp only at hb ⊢; omega)
  · refine Or.inr (fun f hf => ?_)
    have := hb f (List.mem_cons_of_mem _ hf)
    dsimp only at this ⊢
    omega

/-- A piece too long for the buffer lies in the first message or after it. -/
theorem Receivable.head (h : Receivable p (m :: ms) cs) (hcs : cs.flatten = frames (m :: ms)) :
    Fits (p + 20) (p + m.getProtocolStr.length) p cs := by
  intro a b hm
  obtain ⟨ha, hab, hb⟩ := le_of_mem_spans hm
  rcases h _ hm with hle | hf
  · exact Or.inl hle
  · have h0 := hf p (List.mem_cons_self ..)
    cases ms with
    | nil =>
      rw [hcs] at hb
      simp only [frames, List.map_cons, List.map_nil, List.flatten_cons, List.flatten_nil,
        List.append_nil] at hb
      dsimp only at h0
      omega
    | cons m' ms =>
      have h1 := hf _ (List.mem_cons_of_mem _ (List.mem_cons_self ..))
      dsimp only at h0 h1
      omega

end Sequence

/-- The calls take the frames one by one: after `k` of them the first `k` messages have been
    returned and the rest of the frames is unread. -/
def InTurn (junks : List Junk) (ms : List MessageProtocol) (s : SocketStream) : Prop :=
  ∀ k ≤ ms.length, ∃ s', recvMessages (junks.take k) s = (some (ms.take k), s') ∧
    s'.unread = frames (ms.drop k)

section InTurn
variable {junk : Junk} {junks : List Junk} {m : MessageProtocol} {ms : List MessageProtocol}
  {s s' : SocketStream} {p : ℕ}

theorem recvMessages_cons {ms' : List MessageProtocol} :
    recvMessages (junk :: junks) s = (some ms', s') ↔
      ∃ m ms s1, recvMessage junk s = (.received m, s1) ∧ recvMessages junks s1 = (some ms, s') ∧
        ms' = m :: ms := by
  rw [recvMessages]
  rcases recvMessage junk s with ⟨m | _ | _, s1⟩
  · dsimp only
    rcases hr : recvMessages junks s1 with ⟨_ | ms, s2⟩
    · constructor
      · intro h; cases h
      · rintro ⟨m', ms, s1', he, h, -⟩
        cases he
        rw [hr] at h
        cases h
    · constructor
      · intro h; cases h
        exact ⟨m, ms, s1, rfl, hr, rfl⟩
      · rintro ⟨m', ms, s1', he, h, rfl⟩
        cases he
        rw [hr] at h
        cases h
        rfl
  all_goals
    constructor
    · intro h; cases h
    · rintro ⟨m', ms, s1', he, -⟩; cases he

theorem inTurn_cons (hu : s.unread = frames (m :: ms)) : InTurn (junk :: junks) (m :: ms) s ↔
    ∃ s', recvMessage junk s = (.received m, s') ∧ s'.unread = frames ms ∧
      InTurn junks ms s' := by
  constructor
  · intro h
    obtain ⟨s1, he, hu1⟩ := h 1 (by simp)
    obtain ⟨m', ms', s2, hm, hr, hms⟩ := recvMessages_cons.mp he
    cases hr
    cases hms
    refine ⟨s1, hm, hu1, fun k hk => ?_⟩
    obtain ⟨s3, he, hu3⟩ := h (k + 1) (Nat.succ_le_succ hk)
    obtain ⟨m', ms', s2, hm', hr, hms⟩ := recvMessages_cons.mp he
    rw [hm] at hm'
    cases hm'
    cases hms
    exact ⟨s3, hr, hu3⟩
  · rintro ⟨s1, hm, -, h⟩ k hk
    cases k with
    | zero => exact ⟨s, rfl, hu⟩
    | succ k =>
      obtain ⟨s2, he, hu2⟩ := h k (Nat.le_of_succ_le_succ hk)
      exact ⟨s2, recvMessages_cons.mpr ⟨m, _, s1, hm, he, rfl⟩, hu2⟩

end InTurn

theorem inTurn_of_prefixWhole : ∀ {ms : List MessageProtocol} {junks : List Junk}
    {s : SocketStream} {p : ℕ}, junks.length = ms.length →
    (∀ m ∈ ms, m.getProtocolStr.length < 2 ^ 31) → Solid s.sock → s.unread = frames ms →
    PrefixWhole p ms s.pending → Receivable p ms s.pending → InTurn junks ms s
  | [], _, s, _, _, _, _, hu, _, _ => by
    intro k hk
    cases Nat.le_zero.mp hk
    exact ⟨s, rfl, hu⟩
  | m :: ms, junk :: junks, s, p, hj, hlen, hsol, hu, hw, hr => by
    obtain ⟨s1, he, hu1, hsol1, hp1⟩ := @recvMessage_frame junk m s (frames ms) p hsol hu
      (hlen m (List.mem_cons_self ..)) (hw p (List.mem_cons_self ..)) (hr.head hu)
    refine (inTurn_cons hu).mpr ⟨s1, he, hu1, ?_⟩
    refine inTurn_of_prefixWhole (Nat.succ.inj hj)
      (fun x hx => hlen x (List.mem_cons_of_mem _ hx)) hsol1 hu1
      (p := p + m.getProtocolStr.length) ?_ ?_
    · rw [hp1]; exact hw.advance
    · rw [hp1]; exact hr.advance

/-- Where a piece ends inside the lengths, they are not read in one go. -/
theorem read_cut {s : SocketStream} {p b : ℕ} (hsol : Solid s.sock) (hb : b ∈ cuts p s.pending)
    (h : b < p + 16) : (s.read 16).1.length < 16 := by
  cases hp : s.pending with
  | nil => rw [hp] at hb; cases hb
  | cons c cs =>
    have hc : c.length < 16 := by
      rw [hp] at hb
      have := le_of_mem_cuts hb
      omega
    rw [(@SocketStream.read_pending s hsol 16 c cs hp (Or.inl (by
      simp only [maxBuffSize]; omega))).1, List.length_take]
    omega

/-- A call that takes a frame and no more has had its lengths in one piece, and they fit an `int`. -/
theorem whole_of_received {junk : Junk} {m m' : MessageProtocol} {rest : Str} {s s' : SocketStream}
    {p : ℕ} (hsol : Solid s.sock) (hu : s.unread = m.getProtocolStr ++ rest)
    (he : recvMessage junk s = (.received m', s')) (hu' : s'.unread = rest) :
    m.getProtocolStr.length < 2 ^ 31 ∧ (∀ b ∈ cuts p s.pending, ¬ (p < b ∧ b < p + 16)) ∧
      Took s m.getProtocolStr s' := by
  obtain ⟨got, htook, hshort⟩ := recvMessage_received hsol hu he
  have hgot : got = m.getProtocolStr := htook.eq hu hu'
  rw [hgot] at hshort htook
  refine ⟨?_, fun b hb h => ?_, htook⟩
  · by_contra hlen
    exact Nat.lt_irrefl _ (hshort (Or.inr (Nat.le_of_not_lt hlen)))
  · exact Nat.lt_irrefl _ (hshort (Or.inl (read_cut hsol hb h.2)))

theorem prefixWhole_of_inTurn : ∀ {ms : List MessageProtocol} {junks : List Junk}
    {s : SocketStream} {p : ℕ}, junks.length = ms.length → Solid s.sock → s.unread = frames ms →
    InTurn junks ms s → (∀ m ∈ ms, m.getProtocolStr.length < 2 ^ 31) ∧ PrefixWhole p ms s.pending
  | [], _, _, _, _, _, _, _ => ⟨nofun, nofun⟩
  | m :: ms, junk :: junks, s, p, hj, hsol, hu, ht => by
    obtain ⟨s1, he, hu1, ht1⟩ := (inTurn_cons hu).mp ht
    obtain ⟨hlen, hwhole, htook⟩ := whole_of_received hsol hu he hu1
    obtain ⟨hlen1, hwhole1⟩ := @prefixWhole_of_inTurn ms junks s1 (p + m.getProtocolStr.length)
      (Nat.succ.inj hj) (htook.solid hsol) hu1 ht1
    refine ⟨List.forall_mem_cons.mpr ⟨hlen, hlen1⟩, ?_⟩
    rintro f hf b hb ⟨h1, h2⟩
    rcases List.mem_cons.mp hf with rfl | hf
    · exact hwhole b hb ⟨h1, h2⟩
    · have hle := le_of_mem_starts hf
      exact hwhole1 f hf b (htook.border hb (by omega)) ⟨h1, h2⟩

/-- FRAMES COME THROUGH EXACTLY WHEN THEIR LENGTHS DO: however the frames are cut into pieces, each
    call returns the next message and takes its frame off the stream, and nothing is left after the
    last, if and only if no piece ends inside a length prefix. -/
theorem recvMessages_inTurn_iff (ms : List MessageProtocol) (junks : List Junk) (cs : List Str)
    (hj : junks.length = ms.length) (hlen : ∀ m ∈ ms, m.getProtocolStr.length < 2 ^ 31)
    (hsol : ∀ c ∈ cs, c ≠ []) (hcs : cs.flatten = frames ms)
    (hrecv : PrefixWhole 0 ms cs → Receivable 0 ms cs) :
    (∀ k ≤ ms.length, ∃ s, recvMessages (junks.take k) (.new cs) = (some (ms.take k), s) ∧
      s.unread = frames (ms.drop k)) ↔ PrefixWhole 0 ms cs := by
  constructor
  · exact fun h => (prefixWhole_of_inTurn (s := .new cs) hj hsol hcs h).2
  · exact fun h => inTurn_of_prefixWhole (s := .new cs) hj hlen hsol hcs h (hrecv h)

/-- The request of `oeawarectl -Q`. -/
def queryAll : MessageProtocol := ⟨⟨MessageType.REQUEST.toInt⟩, ⟨Opt.QUERY_ALL.toInt, []⟩⟩

/-- Two requests in two pieces, the first of which ends in a message. -/
theorem recvMessages_inTurn_iff_two_requests :
    let ms := [queryAll, queryAll]
    let cs := [(frames ms).take 25, (frames ms).drop 25]
    PrefixWhole 0 ms cs ∧ ∃ s, recvMessages [⟨0, 0⟩, ⟨0, 0⟩] (.new cs) = (some ms, s) ∧
      s.unread = [] := by
  intro ms cs
  have h : PrefixWhole 0 ms cs := by decide
  exact ⟨h, (recvMessages_inTurn_iff ms [⟨0, 0⟩, ⟨0, 0⟩] cs rfl (by decide) (by decide) rfl
    (fun _ => by decide)).mpr h 2 (by decide)⟩

/-- One request of which the first eight bytes arrive alone: what is returned is another message. -/
theorem recvMessages_not_inTurn :
    let ms := [queryAll]
    let cs := [(frames ms).take 8, (frames ms).drop 8]
    cs.flatten = frames ms ∧ (∀ c ∈ cs, c ≠ []) ∧ (∀ m ∈ ms, m.getProtocolStr.length < 2 ^ 31) ∧
      ¬ ∃ s, recvMessages [⟨0, 0⟩] (.new cs) = (some ms, s) ∧ s.unread = [] := by
  refine ⟨rfl, by decide, by decide, ?_⟩
  rintro ⟨s, h, -⟩
  have h1 : (recvMessages [⟨0, 0⟩] (.new [(frames [queryAll]).take 8,
    (frames [queryAll]).drop 8])).1 = some [queryAll] := congrArg Prod.fst h
  exact absurd h1 (by decide)

end OeAware

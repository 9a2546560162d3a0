import OeAware.Protocol.Stream

/-! @src src/common/message_protocol.cpp | name:SocketStream::Read, ReadBuf

    What the two reading functions do to the feed. Whatever the borders, no byte is lost, doubled or
    moved, and a loop gets all it asks for as long as it is there. When the pieces are such that the
    read-ahead buffer holds what `recv` returns, a read also leaves the later borders where they
    are. -/

namespace OeAware
open Schemes

namespace SocketStream
variable (s : SocketStream) (size : ℕ)

theorem buffered_eq :
    s.buffered = (s.readBuff.drop s.readBuffOff).take (s.readBuffContentSize - s.readBuffOff) := by
  rw [buffered, List.drop_take]

theorem length_buffered :
    s.buffered.length = s.readBuffContentSize - s.readBuffOff := by
  have := s.bound
  rw [buffered_eq, List.length_take, List.length_drop]
  omega

theorem buffered_nil {s : SocketStream} (h : ¬ s.readBuffOff < s.readBuffContentSize) :
    s.buffered = [] :=
  List.eq_nil_of_length_eq_zero (by rw [length_buffered]; omega)

theorem unread_eq : s.unread = s.buffered ++ s.sock.flatten := by
  unfold unread pending
  split
  · rfl
  · rename_i h
    rw [buffered_nil h, List.nil_append]

theorem pending_solid {s : SocketStream} (h : Solid s.sock) : Solid s.pending := by
  unfold pending
  split
  · rename_i hlt
    intro c hc
    rcases List.mem_cons.mp hc with rfl | hc
    · intro hnil
      have := s.length_buffered
      rw [hnil, List.length_nil] at this
      omega
    · exact h c hc
  · exact h

/-! ### `Read` -/

/-- The ways in which `Read` can end. -/
inductive ReadOutcome : Str × SocketStream → Prop
  /-- Served from the buffer, of which something may be left. -/
  | buffer (got : Str) (s' : SocketStream) : s.readBuffOff < s.readBuffContentSize →
      got = s.buffered.take size → s'.sock = s.sock → s'.buffered = s.buffered.drop size →
      ReadOutcome (got, s')
  /-- The buffer was empty and has been filled again. -/
  | refill (got : Str) (s' : SocketStream) : ¬ s.readBuffOff < s.readBuffContentSize →
      size < maxBuffSize → got = (recv s.sock maxBuffSize).1.take size →
      s'.sock = (recv s.sock maxBuffSize).2 →
      s'.buffered = (recv s.sock maxBuffSize).1.drop size → ReadOutcome (got, s')
  /-- The buffer was empty and has been passed by. -/
  | direct (got : Str) (s' : SocketStream) : ¬ s.readBuffOff < s.readBuffContentSize →
      maxBuffSize ≤ size → got = (recv s.sock size).1 → s'.sock = (recv s.sock size).2 →
      s'.buffered = [] → ReadOutcome (got, s')

theorem read_outcome : ReadOutcome s size (s.read size) := by
  have hb := s.bound
  have hlen := s.length_buffered
  unfold read
  split
  · rename_i h
    dsimp only
    split
    · rename_i hs
      refine .buffer _ _ h ?_ rfl ?_
      · rw [buffered_eq, List.take_take, Nat.min_eq_left hs]
      · simp [buffered, List.drop_drop]
    · rename_i hs
      refine .buffer _ _ h ?_ rfl ?_
      · rw [← buffered_eq, List.take_of_length_le (by omega)]
      · rw [List.drop_eq_nil_iff.mpr (by omega)]
        exact List.eq_nil_of_length_eq_zero (by rw [length_buffered]; dsimp only; omega)
  · rename_i h
    split
    · rename_i hs
      dsimp only
      split
      · rename_i hn
        refine .refill _ _ h hs ?_ rfl ?_
        · rw [List.take_of_length_le (by omega)]
        · rw [List.drop_eq_nil_iff.mpr (by omega)]; rfl
      · refine .refill _ _ h hs rfl rfl ?_
        simp [buffered]
    · rename_i hs
      exact .direct _ _ h (Nat.le_of_not_lt hs) rfl rfl rfl

theorem pending_eq_sock {s : SocketStream} (h : s.buffered = []) : s.pending = s.sock := by
  unfold pending
  split
  · have := s.length_buffered
    rw [h, List.length_nil] at this
    omega
  · rfl

theorem pending_eq_cons {s : SocketStream} (h : s.buffered ≠ []) :
    s.pending = s.buffered :: s.sock := by
  unfold pending
  split
  · rfl
  · rename_i hb
    exact absurd (buffered_nil hb) h

/-- What `Read` returns and what it leaves make up what there was. -/
theorem read_unread : (s.read size).1 ++ (s.read size).2.unread = s.unread := by
  have ho := s.read_outcome size
  rw [unread_eq, unread_eq]
  generalize s.read size = res at ho
  cases ho with
  | buffer got s' _ hg hs hb => rw [hg, hs, hb, ← List.append_assoc, List.take_append_drop]
  | refill got s' h _ hg hs hb =>
    rw [hg, hs, hb, ← List.append_assoc, List.take_append_drop, recv_flatten, buffered_nil h,
      List.nil_append]
  | direct got s' h _ hg hs hb =>
    rw [hg, hs, hb, List.nil_append, recv_flatten, buffered_nil h, List.nil_append]

theorem length_read_le : (s.read size).1.length ≤ size := by
  have ho := s.read_outcome size
  generalize s.read size = res at ho
  cases ho with
  | buffer got s' _ hg => rw [hg]; exact List.length_take_le _ _
  | refill got s' _ _ hg => rw [hg]; exact List.length_take_le _ _
  | direct got s' _ _ hg => rw [hg]; exact length_recv_le _ _

theorem read_solid {s : SocketStream} (h : Solid s.sock) (size : ℕ) :
    Solid (s.read size).2.sock := by
  have ho := s.read_outcome size
  generalize s.read size = res at ho
  cases ho with
  | buffer got s' _ _ hs => rw [hs]; exact h
  | refill got s' _ _ _ hs => rw [hs]; exact recv_solid h _
  | direct got s' _ _ _ hs => rw [hs]; exact recv_solid h _

/-- As long as something is unread, `Read` returns something. -/
theorem read_ne_nil {s : SocketStream} (h : Solid s.sock) {size : ℕ} (hs : 0 < size)
    (hne : s.unread ≠ []) : (s.read size).1 ≠ [] := by
  have ho := s.read_outcome size
  have hlen := s.length_buffered
  have htake : ∀ {l : Str}, l ≠ [] → l.take size ≠ [] := by
    intro l hl ht
    rcases List.take_eq_nil_iff.mp ht with h0 | h0
    · omega
    · exact hl h0
  have hsock : ¬ s.readBuffOff < s.readBuffContentSize → s.sock ≠ [] := by
    intro hb h0
    rw [unread_eq, buffered_nil hb, h0] at hne
    exact hne rfl
  generalize s.read size = res at ho
  cases ho with
  | buffer got s' hlt hg =>
    rw [hg]
    refine htake (fun hnil => ?_)
    rw [hnil, List.length_nil] at hlen
    omega
  | refill got s' hlt _ hg =>
    rw [hg]; exact htake (recv_ne_nil h (hsock hlt) (by decide))
  | direct got s' hlt _ hg => rw [hg]; exact recv_ne_nil h (hsock hlt) hs

/-- Every border of the feed is one of what was returned or one of what is left. -/
theorem mem_cuts_read {p b : ℕ} (h : b ∈ cuts p s.pending) :
    b ∈ cuts p ((s.read size).1 :: (s.read size).2.pending) := by
  have hbuf : ∀ s : SocketStream, b ∈ cuts p s.pending → b ∈ cuts p (s.buffered :: s.sock) := by
    intro s hs
    by_cases hb : s.buffered = []
    · rw [pending_eq_sock hb] at hs
      rw [hb, mem_cuts_cons]; exact Or.inr hs
    · rwa [← pending_eq_cons hb]
  have hpend : ∀ (got : Str) (s' : SocketStream), b ∈ cuts p (got :: s'.buffered :: s'.sock) →
      b ∈ cuts p (got :: s'.pending) := by
    intro got s' hs
    by_cases hb : s'.buffered = []
    · rw [hb, mem_cuts_cons, mem_cuts_cons, List.length_nil, Nat.add_zero] at hs
      rw [pending_eq_sock hb, mem_cuts_cons]
      exact hs.elim Or.inl id
    · rwa [pending_eq_cons hb]
  have ho := s.read_outcome size
  generalize s.read size = res at ho
  cases ho with
  | buffer got s' _ hg hs hb =>
    refine hpend got s' ?_
    rw [hg, hs, hb]
    exact mem_cuts_split size (hbuf s h)
  | refill got s' hlt _ hg hs hb =>
    refine hpend got s' ?_
    rw [pending, if_neg hlt] at h
    rw [hg, hs, hb]
    exact mem_cuts_split size (mem_cuts_recv _ h)
  | direct got s' hlt _ hg hs hb =>
    rw [pending, if_neg hlt] at h
    rw [hg, pending_eq_sock hb, hs]
    exact mem_cuts_recv size h

/-- A read that the buffer can hold takes from the first piece only and moves no border. -/
theorem read_pending {s : SocketStream} (h : Solid s.sock) {size : ℕ} {c : Str} {cs : List Str}
    (hp : s.pending = c :: cs) (hfit : c.length ≤ maxBuffSize ∨ maxBuffSize ≤ size) :
    (s.read size).1 = c.take size ∧
      (s.read size).2.pending = advance (c.take size).length s.pending := by
  have hsolid : Solid (c :: cs) := hp ▸ pending_solid h
  -- what remains of `c` comes first, when something does
  have hrest : ∀ s' : SocketStream, s'.sock = cs → s'.buffered = c.drop size →
      s'.pending = advance (c.take size).length (c :: cs) := by
    intro s' hs hb
    rw [List.length_take]
    by_cases hlt : size < c.length
    · rw [Nat.min_eq_left hlt.le, advance_lt hlt, pending_eq_cons, hb, hs]
      rw [hb]
      intro hnil
      have := List.drop_eq_nil_iff.mp hnil
      omega
    · rw [Nat.min_eq_right (Nat.le_of_not_lt hlt), advance_length hsolid.tail, pending_eq_sock, hs]
      rw [hb]; exact List.drop_eq_nil_iff.mpr (Nat.le_of_not_lt hlt)
  have ho := s.read_outcome size
  rw [hp]
  generalize s.read size = res at ho
  cases ho with
  | buffer got s' hlt hg hs hb =>
    rw [pending, if_pos hlt] at hp
    cases hp
    exact ⟨hg, hrest s' hs hb⟩
  | refill got s' hlt hsz hg hs hb =>
    rw [pending, if_neg hlt] at hp
    have hc : c.length ≤ maxBuffSize := hfit.resolve_right (by omega)
    rw [hp, recv, if_pos hc] at hg hs hb
    exact ⟨hg, hrest s' hs hb⟩
  | direct got s' hlt hsz hg hs hb =>
    rw [pending, if_neg hlt] at hp
    rw [hp, recv] at hg hs
    by_cases hc : c.length ≤ size
    · rw [if_pos hc] at hg hs
      rw [hg, List.take_of_length_le hc]
      refine ⟨rfl, ?_⟩
      rw [pending_eq_sock hb, hs, advance_length hsolid.tail]
    · rw [if_neg hc] at hg hs
      refine ⟨hg, ?_⟩
      rw [pending_eq_sock hb, hs, List.length_take, Nat.min_eq_left (by omega),
        advance_lt (by omega)]

/-- When the buffer is not empty afterwards, `Read` has stopped within a piece. -/
theorem read_inside (hs : 0 < size) (hne : (s.read size).2.buffered ≠ []) :
    (s.read size).1 ≠ [] ∧ ∀ p, p + (s.read size).1.length ∉ cuts p s.pending := by
  have hsplit : ∀ {c : Str} {cs : List Str}, c.drop size ≠ [] → c.take size ≠ [] ∧
      ∀ p, p + (c.take size).length ∉ cuts p (c :: cs) := by
    intro c cs hc
    have hlt : size < c.length := by
      by_contra hle
      exact hc (List.drop_eq_nil_iff.mpr (Nat.le_of_not_lt hle))
    have hlen : (c.take size).length = size := by rw [List.length_take]; omega
    refine ⟨List.ne_nil_of_length_pos (by omega), fun p hm => ?_⟩
    have := le_of_mem_cuts hm
    omega
  have ho := s.read_outcome size
  generalize s.read size = res at ho hne
  cases ho with
  | buffer got s' hlt hg _ hb =>
    rw [hb] at hne
    rw [hg, pending, if_pos hlt]
    exact hsplit hne
  | refill got s' hlt _ hg _ hb =>
    rw [hb] at hne
    rw [hg, pending, if_neg hlt]
    obtain ⟨h1, h2⟩ := @hsplit _ (recv s.sock maxBuffSize).2 hne
    exact ⟨h1, fun p hm => h2 p (mem_cuts_recv _ hm)⟩
  | direct got s' _ _ _ _ hb => exact absurd hb hne

theorem read_drawn {s : SocketStream} (h : Solid s.sock) (size : ℕ) :
    Drawn maxBuffSize s.sock (s.read size).2.sock := by
  have ho := s.read_outcome size
  generalize s.read size = res at ho
  cases ho with
  | buffer got s' _ _ hs => rw [hs]; exact .refl _ h
  | refill got s' _ _ _ hs => rw [hs]; exact .recv (Nat.le_refl _) h
  | direct got s' _ hsz _ hs => rw [hs]; exact .recv hsz h

end SocketStream

/-! ### `ReadBuf` -/

/-- One round of the loop. -/
theorem readBuf_succ {fuel : ℕ} {start stop : ℤ} {s : SocketStream} {msg : Str}
    (h : start < stop) : readBuf (fuel + 1) start stop s msg =
      let size := min (stop - start).toNat MAX_RECV_BUFF_SIZE
      if (s.read size).1 = [] then (none, (s.read size).2)
      else readBuf fuel (start + (s.read size).1.length) stop (s.read size).2
        (msg ++ (s.read size).1) := by
  rw [readBuf, if_pos h]

/-- Between two states of a stream `got` has been read. -/
structure Took (s : SocketStream) (got : Str) (s' : SocketStream) : Prop where
  unread : got ++ s'.unread = s.unread
  solid : Solid s.sock → Solid s'.sock
  /-- A later border is where it was. -/
  border : ∀ {p b : ℕ}, b ∈ cuts p s.pending → p + got.length < b →
    b ∈ cuts (p + got.length) s'.pending
  /-- Where something is left in the buffer, the reading stopped within a piece. -/
  inside : s'.buffered ≠ [] → (got = [] ∧ s'.buffered = s.buffered) ∨
    (got ≠ [] ∧ ∀ p, p + got.length ∉ cuts p s.pending)
  drawn : Solid s.sock → Drawn maxBuffSize s.sock s'.sock

theorem Took.refl (s : SocketStream) : Took s [] s where
  unread := rfl
  solid := id
  border := fun h _ => h
  inside := fun _ => Or.inl ⟨rfl, rfl⟩
  drawn := fun h => .refl _ h

theorem Took.trans {s s' s'' : SocketStream} {x y : Str} (h : Took s x s') (h' : Took s' y s'') :
    Took s (x ++ y) s'' where
  unread := by rw [List.append_assoc, h'.unread, h.unread]
  solid := h'.solid ∘ h.solid
  border := by
    intro p b hb hlt
    rw [List.length_append, ← Nat.add_assoc] at hlt ⊢
    exact h'.border (h.border hb (by omega)) hlt
  inside := by
    intro hne
    rcases h'.inside hne with ⟨rfl, hb⟩ | ⟨hy, hcut⟩
    · rw [List.append_nil, hb]
      exact h.inside (hb ▸ hne)
    · refine Or.inr ⟨fun h0 => hy (List.append_eq_nil_iff.mp h0).2, fun p hc => ?_⟩
      have hpos := List.length_pos_of_ne_nil hy
      rw [List.length_append, ← Nat.add_assoc] at hc
      exact hcut (p + x.length) (h.border hc (by omega))
  drawn := fun hs => (h.drawn hs).trans (h'.drawn (h.solid hs))

theorem Took.eq {s s' : SocketStream} {got x rest : Str} (h : Took s got s')
    (hu : s.unread = x ++ rest) (hu' : s'.unread = rest) : got = x := by
  have := h.unread
  rw [hu, hu'] at this
  exact List.append_cancel_right this

theorem read_took (s : SocketStream) {size : ℕ} (hs : 0 < size) :
    Took s (s.read size).1 (s.read size).2 where
  unread := s.read_unread size
  solid := fun h => SocketStream.read_solid h size
  border := by
    intro p b hb hlt
    rcases mem_cuts_cons.mp (s.mem_cuts_read size hb) with he | h
    · omega
    · exact h
  inside := fun hne => Or.inr (s.read_inside size hs hne)
  drawn := fun h => SocketStream.read_drawn h size

/-- What `ReadBuf` has read when it succeeds: as much as it was asked for. -/
theorem readBuf_some : ∀ (fuel : ℕ) {start stop : ℤ} {s s' : SocketStream} {msg r : Str},
    readBuf fuel start stop s msg = (some r, s') → (stop - start).toNat ≤ fuel →
    ∃ got, r = msg ++ got ∧ Took s got s' ∧ got.length = (stop - start).toNat
  | 0, start, stop, s, s', msg, r, he, hf => by
    cases he
    exact ⟨[], by simp, .refl s, by simp only [List.length_nil]; omega⟩
  | fuel + 1, start, stop, s, s', msg, r, he, hf => by
    by_cases hlt : start < stop
    · rw [readBuf_succ hlt] at he
      dsimp only at he
      set size := min (stop - start).toNat MAX_RECV_BUFF_SIZE with hsize
      split at he
      · cases he
      · rename_i hne
        have hpos := List.length_pos_of_ne_nil hne
        have hle := s.length_read_le size
        obtain ⟨got, hr, ht, hl⟩ := readBuf_some fuel he (by omega)
        have hspos : 0 < size := by omega
        refine ⟨(s.read size).1 ++ got, ?_, (read_took s hspos).trans ht, ?_⟩
        · rw [hr, List.append_assoc]
        · rw [List.length_append, hl]; omega
    · rw [readBuf, if_neg hlt] at he
      cases he
      exact ⟨[], by simp, .refl s, by simp only [List.length_nil]; omega⟩

/-- `ReadBuf` succeeds when what it asks for is there. -/
theorem readBuf_ok : ∀ (fuel : ℕ) {start stop : ℤ} {s : SocketStream} {msg : Str},
    (stop - start).toNat ≤ fuel → Solid s.sock → (stop - start).toNat ≤ s.unread.length →
    ∃ r s', readBuf fuel start stop s msg = (some r, s')
  | 0, start, stop, s, msg, _, _, _ => ⟨msg, s, rfl⟩
  | fuel + 1, start, stop, s, msg, hf, hsol, hu => by
    by_cases hlt : start < stop
    · rw [readBuf_succ hlt]
      dsimp only
      set size := min (stop - start).toNat MAX_RECV_BUFF_SIZE with hsize
      have hspos : 0 < size := by
        simp only [hsize, MAX_RECV_BUFF_SIZE]; omega
      have hune : s.unread ≠ [] := by
        intro h0
        rw [h0, List.length_nil] at hu
        omega
      have hne := SocketStream.read_ne_nil hsol hspos hune
      have hpos := List.length_pos_of_ne_nil hne
      have hle := s.length_read_le size
      have hsplit := congrArg List.length (s.read_unread size)
      rw [List.length_append] at hsplit
      rw [if_neg hne]
      exact readBuf_ok fuel (by omega) (SocketStream.read_solid hsol _) (by omega)
    · rw [readBuf, if_neg hlt]
      exact ⟨msg, s, rfl⟩

/-- A piece that begins within the next `k` bytes fits the buffer or ends within them. -/
def Roomy (p k : ℕ) (cs : List Str) : Prop :=
  ∀ a b, (a, b) ∈ spans p cs → a < p + k → b ≤ a + maxBuffSize ∨ b ≤ p + k

theorem Roomy.advance {p k n : ℕ} {cs : List Str} (h : Roomy p k cs) (hn : n ≤ k) :
    Roomy (p + n) (k - n) (advance n cs) := by
  intro a b hm ha
  obtain ⟨a0, ha0, h0⟩ := mem_spans_advance n hm
  rcases h a0 b h0 (by omega) with hb | hb
  · exact Or.inl (by omega)
  · exact Or.inr (by omega)

/-- A single `Read` gets all of `x` when no piece ends inside it. -/
theorem read_exact {s : SocketStream} {x rest : Str} {p : ℕ} (hsol : Solid s.sock)
    (hu : s.unread = x ++ rest) (hx : x ≠ [])
    (hcut : ∀ b ∈ cuts p s.pending, ¬ (p < b ∧ b < p + x.length))
    (hroom : Roomy p x.length s.pending) :
    (s.read x.length).1 = x ∧ (s.read x.length).2.unread = rest ∧
      (s.read x.length).2.pending = advance x.length s.pending := by
  have hxpos := List.length_pos_of_ne_nil hx
  cases hp : s.pending with
  | nil =>
    rw [SocketStream.unread, hp] at hu
    exact absurd (List.append_eq_nil_iff.mp hu.symm).1 hx
  | cons c cs =>
    have hsol' : Solid (c :: cs) := hp ▸ SocketStream.pending_solid hsol
    have hpos := hsol'.head_pos
    have hle : x.length ≤ c.length := by
      have := hcut (p + c.length) (by rw [hp, mem_cuts_cons]; exact Or.inl rfl)
      omega
    have hc := hroom p (p + c.length) (by rw [hp]; exact List.mem_cons_self ..) (by omega)
    obtain ⟨hg, hpend⟩ := @SocketStream.read_pending s hsol x.length c cs hp (by omega)
    have hlen : (c.take x.length).length = x.length := by rw [List.length_take]; omega
    have hread := s.read_unread x.length
    rw [hu] at hread
    obtain ⟨h1, h2⟩ := List.append_inj hread (by rw [hg, hlen])
    refine ⟨h1, h2, ?_⟩
    rw [hpend, hlen, hp]

/-- Over such pieces `ReadBuf` moves on by what it reads and leaves the later borders alone. -/
theorem readBuf_pending : ∀ (fuel : ℕ) {start stop : ℤ} {s s' : SocketStream} {msg r : Str}
    {p : ℕ}, readBuf fuel start stop s msg = (some r, s') → (stop - start).toNat ≤ fuel →
    Solid s.sock → Roomy p (stop - start).toNat s.pending →
    s'.pending = advance (stop - start).toNat s.pending
  | 0, start, stop, s, s', msg, r, p, he, hf, hsol, _ => by
    cases he
    rw [Nat.le_zero.mp hf, advance_zero (SocketStream.pending_solid hsol)]
  | fuel + 1, start, stop, s, s', msg, r, p, he, hf, hsol, hroom => by
    by_cases hlt : start < stop
    · rw [readBuf_succ hlt] at he
      dsimp only at he
      set k := (stop - start).toNat with hk
      set size := min k MAX_RECV_BUFF_SIZE with hsize
      split at he
      · cases he
      · rename_i hne
        have hpos := List.length_pos_of_ne_nil hne
        have hle := s.length_read_le size
        have hnk : (s.read size).1.length ≤ k := by omega
        have hstep : (s.read size).2.pending = advance (s.read size).1.length s.pending := by
          cases hp : s.pending with
          | nil =>
            have := s.read_unread size
            rw [SocketStream.unread.eq_def s, hp] at this
            exact absurd (List.append_eq_nil_iff.mp this).1 hne
          | cons c cs =>
            -- a first piece that the buffer cannot hold ends within what is wanted
            have hc := hroom p (p + c.length) (by rw [hp]; exact List.mem_cons_self ..) (by omega)
            have hfit : c.length ≤ maxBuffSize ∨ maxBuffSize ≤ size := by
              simp only [hsize, maxBuffSize, MAX_RECV_BUFF_SIZE] at hc ⊢
              omega
            obtain ⟨hg, hp'⟩ := SocketStream.read_pending hsol hp hfit
            rw [hp', hg, hp]
        have hk' : (stop - (start + (s.read size).1.length)).toNat = k - (s.read size).1.length := by
          omega
        have hroom' : Roomy (p + (s.read size).1.length) (k - (s.read size).1.length)
            (s.read size).2.pending := by rw [hstep]; exact hroom.advance hnk
        have hrec := readBuf_pending fuel (p := p + (s.read size).1.length) he
          (by omega) (SocketStream.read_solid hsol _) (by rw [hk']; exact hroom')
        rw [hrec, hk', hstep, ← advance_add, Nat.add_sub_cancel' hnk]
    · rw [readBuf, if_neg hlt] at he
      cases he
      rw [show (stop - start).toNat = 0 by omega, advance_zero (SocketStream.pending_solid hsol)]

/-- `ReadBuf` on a feed that begins with what is asked for. -/
theorem readBuf_exact {start stop : ℤ} {s : SocketStream} {x rest : Str} {p : ℕ}
    (hsol : Solid s.sock) (hu : s.unread = x ++ rest) (hx : x.length = (stop - start).toNat)
    (hroom : Roomy p x.length s.pending) :
    ∃ s', readBuf (stop - start).toNat start stop s [] = (some x, s') ∧ s'.unread = rest ∧
      Solid s'.sock ∧ s'.pending = advance x.length s.pending := by
  obtain ⟨r, s', he⟩ := @readBuf_ok _ start stop s [] (Nat.le_refl _) hsol
    (by rw [hu, List.length_append, hx]; omega)
  obtain ⟨got, hr, ht, hl⟩ := readBuf_some _ he (Nat.le_refl _)
  obtain ⟨hgot, hrest⟩ := List.append_inj (ht.unread.trans hu) (hl.trans hx.symm)
  rw [List.nil_append, hgot] at hr
  rw [hr] at he
  refine ⟨s', he, hrest, ht.solid hsol, ?_⟩
  rw [hx] at hroom ⊢
  exact readBuf_pending _ he (Nat.le_refl _) hsol hroom

end OeAware

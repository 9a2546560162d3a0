import OeAware.Common.Message

/-! @src include/oeaware/serialize.h | name:Decode, InStream::operator>>(std::vector), Deserialize(std::string)

    `Decode` is false where an exception is thrown, and only there. A read that goes beyond the end
    throws none: what is missing is taken for zeros, later reads leave what they read into as it is, and
    a vector gets as many elements as its count says.

        count │ length │ bytes │ length │ by▒▒▒▒▒▒▒▒▒▒▒▒     the end: zeros, then empty strings -/

namespace OeAware

/-- `Decode` into a new object; `none` is `false`. -/
def decode {α : Type} (deserialize : InStream → Option (α × InStream)) (content : Str) : Option α :=
  (deserialize ⟨content, true⟩).map (·.1)

/-- So many strings lie there, the length in front of each and its bytes behind it; or some do, and then
    comes a length that is refused. -/
def HoldsStrs : ℕ → Str → Prop
  | 0, _ => True
  | n + 1, s =>
    let len := leVal (s.take 8)
    8 ≤ s.length ∧ (stringMaxSize < len ∨ 8 + len ≤ s.length ∧ HoldsStrs n (s.drop (8 + len)))

/-- A count lies there, and what it announces. -/
def HoldsVec (s : Str) : Prop := 8 ≤ s.length ∧ HoldsStrs (leVal (s.take 8)) (s.drop 8)

/-- An operation lies there, and a vector. -/
def HoldsMessage (s : Str) : Prop := 4 ≤ s.length ∧ HoldsVec (s.drop 4)

/-! ### Reads -/

theorem leVal_lt : ∀ bs : Str, leVal bs < 256 ^ bs.length
  | [] => by simp [leVal]
  | b :: bs => by
    have hb : b.toNat < 256 := b.toNat_lt
    have hbs := leVal_lt bs
    rw [leVal, List.length_cons, pow_succ]
    omega

theorem read_failed (rest old : Str) : InStream.read ⟨rest, false⟩ old = (old, ⟨rest, false⟩) := rfl

theorem read_ok {s old : Str} (h : old.length ≤ s.length) :
    InStream.read ⟨s, true⟩ old = (s.take old.length, ⟨s.drop old.length, true⟩) := by
  simp [InStream.read, h]

theorem read_short {s old : Str} (h : s.length < old.length) :
    ∃ bytes, InStream.read ⟨s, true⟩ old = (bytes, ⟨[], false⟩) ∧ bytes.length = old.length := by
  refine ⟨s ++ old.drop s.length, ?_, by simp; omega⟩
  simp [InStream.read, List.take_of_length_le h.le, List.drop_eq_nil_iff.mpr h.le, h]

theorem readSize_ok {s : Str} (h : 8 ≤ s.length) :
    InStream.readSize ⟨s, true⟩ = (leVal (s.take 8), ⟨s.drop 8, true⟩) := by
  rw [InStream.readSize, read_ok (by simpa using h)]
  rfl

/-- Of a size that is cut off the missing bytes are zeros. -/
theorem readSize_short {s : Str} (h : s.length < 8) :
    InStream.readSize ⟨s, true⟩ = (leVal s, ⟨[], false⟩) := by
  have hdrop : (List.replicate 8 (0 : UInt8)).drop s.length = List.replicate (8 - s.length) 0 :=
    List.drop_replicate
  simp only [InStream.readSize, InStream.read, List.length_replicate, List.take_of_length_le h.le,
    List.drop_eq_nil_iff.mpr h.le, Nat.not_le.mpr h, if_true, hdrop, leVal_append_zeros, decide_false]

/-- A string whose bytes are all there. -/
theorem readStr_ok {s : Str} (h8 : 8 ≤ s.length) (hmax : leVal (s.take 8) ≤ stringMaxSize)
    (hlen : 8 + leVal (s.take 8) ≤ s.length) :
    InStream.readStr ⟨s, true⟩ =
      some ((s.drop 8).take (leVal (s.take 8)), ⟨s.drop (8 + leVal (s.take 8)), true⟩) := by
  have hrest : leVal (s.take 8) ≤ (s.drop 8).length := by
    rw [List.length_drop]
    omega
  rw [InStream.readStr, readSize_ok h8]
  simp only [Nat.not_lt.mpr hmax, if_false]
  rw [read_ok (by simpa using hrest), List.length_replicate, List.drop_drop]

theorem readStr_refused {s : Str} (h8 : 8 ≤ s.length) (hmax : stringMaxSize < leVal (s.take 8)) :
    InStream.readStr ⟨s, true⟩ = none := by
  rw [InStream.readStr, readSize_ok h8]
  simp [hmax]

/-- A string of which something is missing: it is as long as it says, and it leaves a failed stream. -/
theorem readStr_short {s : Str} {x : Str} {st : InStream} (h : InStream.readStr ⟨s, true⟩ = some (x, st))
    (hshort : ¬ (8 ≤ s.length ∧ 8 + leVal (s.take 8) ≤ s.length)) :
    s.length < 8 + x.length ∧ st.good = false := by
  by_cases h8 : 8 ≤ s.length
  · have hlen : (s.drop 8).length < (List.replicate (leVal (s.take 8)) (0 : UInt8)).length := by
      simp only [List.length_drop, List.length_replicate]
      omega
    obtain ⟨bytes, he, hbytes⟩ := read_short hlen
    rw [InStream.readStr, readSize_ok h8] at h
    dsimp only at h
    rw [he] at h
    split at h
    · cases h
    · cases h
      simp only [List.length_replicate] at hbytes
      refine ⟨by omega, rfl⟩
  · rw [InStream.readStr, readSize_short (Nat.not_le.mp h8)] at h
    dsimp only at h
    split at h
    · cases h
    · cases h
      exact ⟨by omega, rfl⟩

/-- On a failed stream every string is empty. -/
theorem readStrs_failed (rest : Str) : ∀ n,
    InStream.readStrs n ⟨rest, false⟩ = some (List.replicate n [], ⟨rest, false⟩)
  | 0 => rfl
  | n + 1 => by
    have h0 : InStream.readStr ⟨rest, false⟩ = some ([], ⟨rest, false⟩) := rfl
    rw [InStream.readStrs, h0]
    simp [readStrs_failed rest n, List.replicate_succ]

theorem leBytes_leVal : ∀ bs : Str, leBytes bs.length (leVal bs) = bs
  | [] => rfl
  | b :: bs => by
    have hb : b.toNat < 256 := b.toNat_lt
    have hmod : (b.toNat + 256 * leVal bs) % 256 = b.toNat := by omega
    have hdiv : (b.toNat + 256 * leVal bs) / 256 = leVal bs := by omega
    rw [leVal, List.length_cons, leBytes, hmod, hdiv, leBytes_leVal bs, UInt8.ofNat_toNat]

/-- The bytes of a number that lie there are those that are written for it. -/
theorem leBytes_take {s : Str} {w : ℕ} (h : w ≤ s.length) : leBytes w (leVal (s.take w)) = s.take w := by
  have he := leBytes_leVal (s.take w)
  rwa [List.length_take, Nat.min_eq_left h] at he

theorem take_append_prefix {n : ℕ} {a s : Str} : s.take n ++ a <+: s ↔ a <+: s.drop n := by
  constructor
  · rintro ⟨rest, h⟩
    rw [List.append_assoc] at h
    exact ⟨rest, (List.append_right_inj _).mp (h.trans (List.take_append_drop n s).symm)⟩
  · rintro ⟨rest, h⟩
    exact ⟨rest, by rw [List.append_assoc, h, List.take_append_drop]⟩

/-! ### Vectors of strings -/

theorem length_serStr (s : Str) : (serStr s).length = 8 + s.length := by simp [serStr, serSize]

/-- The string that lies there, as it is written. -/
theorem serStr_take {s : Str} (h8 : 8 ≤ s.length) (hlen : 8 + leVal (s.take 8) ≤ s.length) :
    serStr ((s.drop 8).take (leVal (s.take 8))) ++ s.drop (8 + leVal (s.take 8)) = s := by
  have hx : ((s.drop 8).take (leVal (s.take 8))).length = leVal (s.take 8) := by
    rw [List.length_take, List.length_drop]
    omega
  rw [serStr, hx, serSize, leBytes_take h8, List.append_assoc, ← List.drop_drop, List.take_append_drop,
    List.take_append_drop]

/-- A string is refused for its length only. -/
theorem readStr_none {s : Str} (h : InStream.readStr ⟨s, true⟩ = none) :
    8 ≤ s.length ∧ stringMaxSize < leVal (s.take 8) := by
  by_cases h8 : 8 ≤ s.length
  · rw [InStream.readStr, readSize_ok h8] at h
    dsimp only at h
    split at h
    · rename_i hmax
      exact ⟨h8, hmax⟩
    · cases h
  · have hle : leVal s < 256 ^ 7 :=
      (leVal_lt s).trans_le (Nat.pow_le_pow_right (by decide) (by omega))
    rw [InStream.readStr, readSize_short (Nat.not_le.mp h8)] at h
    simp [show ¬ stringMaxSize < leVal s by simp only [stringMaxSize]; omega] at h

theorem readStrs_succ {n : ℕ} {s st : InStream} {v : List Str} :
    InStream.readStrs (n + 1) s = some (v, st) ↔
      ∃ x s1 xs, s.readStr = some (x, s1) ∧ s1.readStrs n = some (xs, st) ∧ v = x :: xs := by
  constructor
  · intro h
    obtain ⟨⟨x, s1⟩, hx, h⟩ := Option.bind_eq_some_iff.mp h
    obtain ⟨⟨xs, s2⟩, hxs, h⟩ := Option.bind_eq_some_iff.mp h
    cases h
    exact ⟨x, s1, xs, hx, hxs, rfl⟩
  · rintro ⟨x, s1, xs, hx, hxs, rfl⟩
    simp [InStream.readStrs, hx, hxs]

theorem length_readStrs : ∀ {n : ℕ} {s st : InStream} {v : List Str},
    s.readStrs n = some (v, st) → v.length = n
  | 0, s, st, v, h => by
    cases h
    rfl
  | n + 1, s, st, v, h => by
    obtain ⟨x, s1, xs, -, hxs, rfl⟩ := readStrs_succ.mp h
    rw [List.length_cons, length_readStrs hxs]

/-- What lies there is read, string by string. -/
theorem HoldsStrs.beginning : ∀ {n : ℕ} {s : Str} {v : List Str} {st : InStream}, HoldsStrs n s →
    InStream.readStrs n ⟨s, true⟩ = some (v, st) → (v.map serStr).flatten <+: s
  | 0, s, v, st, _, h => by
    cases h
    exact List.nil_prefix
  | n + 1, s, v, st, ⟨h8, hcase⟩, h => by
    obtain ⟨x, s1, xs, hx, hxs, rfl⟩ := readStrs_succ.mp h
    have hmax : leVal (s.take 8) ≤ stringMaxSize := by
      by_contra hmax
      rw [readStr_refused h8 (Nat.not_le.mp hmax)] at hx
      cases hx
    obtain ⟨hlen, hrest⟩ := hcase.resolve_left (Nat.not_lt.mpr hmax)
    rw [readStr_ok h8 hmax hlen] at hx
    cases hx
    obtain ⟨rest, hsplit⟩ := HoldsStrs.beginning hrest hxs
    refine ⟨rest, ?_⟩
    rw [List.map_cons, List.flatten_cons, List.append_assoc, hsplit, serStr_take h8 hlen]

/-- And if what is read lies there, it is read from there. -/
theorem HoldsStrs.of_prefix : ∀ {n : ℕ} {s : Str},
    (∀ v st, InStream.readStrs n ⟨s, true⟩ = some (v, st) → (v.map serStr).flatten <+: s) →
    HoldsStrs n s
  | 0, _, _ => trivial
  | n + 1, s, h => by
    cases hx : InStream.readStr ⟨s, true⟩ with
    | none => exact ⟨(readStr_none hx).1, .inl (readStr_none hx).2⟩
    | some r =>
      obtain ⟨x, st⟩ := r
      by_cases hwhole : 8 ≤ s.length ∧ 8 + leVal (s.take 8) ≤ s.length
      · refine ⟨hwhole.1, or_iff_not_imp_left.mpr (fun hmax => ⟨hwhole.2, ?_⟩)⟩
        have hread := readStr_ok hwhole.1 (Nat.not_lt.mp hmax) hwhole.2
        refine HoldsStrs.of_prefix (fun xs st hxs => ?_)
        obtain ⟨rest, hv⟩ := h _ _ (readStrs_succ.mpr ⟨_, _, xs, hread, hxs, rfl⟩)
        rw [List.map_cons, List.flatten_cons, List.append_assoc] at hv
        exact ⟨rest, List.append_cancel_left (hv.trans (serStr_take hwhole.1 hwhole.2).symm)⟩
      · -- the stream has failed, the others are empty, and already this one is too long
        obtain ⟨hlen, hgood⟩ := readStr_short hx hwhole
        obtain ⟨rest, good⟩ := st
        cases hgood
        have hv := (h _ _ (readStrs_succ.mpr ⟨x, _, _, hx, readStrs_failed rest n, rfl⟩)).length_le
        rw [List.map_cons, List.flatten_cons, List.length_append, length_serStr] at hv
        omega

theorem decode_vec {body : Str} (h : 8 ≤ body.length) :
    decode InStream.readVec body =
      (InStream.readStrs (leVal (body.take 8)) ⟨body.drop 8, true⟩).map (·.1) := by
  rw [decode, InStream.readVec, readSize_ok h]

/-- Nothing is read but what is written there. -/
theorem vec_sound_iff (body : Str) :
    (∀ v, decode InStream.readVec body = some v → serVec v <+: body) ↔ HoldsVec body := by
  by_cases h8 : 8 ≤ body.length
  · have hvec : ∀ {v : List Str}, v.length = leVal (body.take 8) →
        (serVec v <+: body ↔ (v.map serStr).flatten <+: body.drop 8) := by
      intro v hv
      rw [serVec, hv, serSize, leBytes_take h8]
      exact take_append_prefix
    rw [decode_vec h8]
    constructor
    · intro h
      refine ⟨h8, HoldsStrs.of_prefix (fun v st hv => ?_)⟩
      have hlen := length_readStrs hv
      exact (hvec hlen).mp (h v (by rw [hv]; rfl))
    · rintro ⟨-, h⟩ v hv
      obtain ⟨⟨v', st⟩, hread, rfl⟩ := Option.map_eq_some_iff.mp hv
      exact (hvec (length_readStrs hread)).mpr (h.beginning hread)
  · have hread : decode InStream.readVec body = some (List.replicate (leVal body) []) := by
      rw [decode, InStream.readVec, readSize_short (Nat.not_le.mp h8)]
      simp [readStrs_failed]
    refine iff_of_false (fun h => ?_) (fun h => h8 h.1)
    have hlen := (h _ hread).length_le
    simp only [serVec, serSize, List.length_append, length_leBytes] at hlen
    omega

theorem length_serVec (v : List Str) : (serVec v).length = 8 + 8 * v.length + v.flatten.length := by
  rw [serVec, List.length_append, serSize, length_leBytes]
  induction v with
  | nil => rfl
  | cons x v ih =>
    simp only [List.map_cons, List.flatten_cons, List.length_append, List.length_cons,
      length_serStr] at ih ⊢
    omega

/-! ### Messages -/

theorem readInt_ok {s : Str} (junk : UInt32) (h : 4 ≤ s.length) :
    InStream.readInt ⟨s, true⟩ junk = (UInt32.ofNat (leVal (s.take 4)), ⟨s.drop 4, true⟩) := by
  rw [InStream.readInt, read_ok (by simpa [serInt] using h)]
  simp [serInt]

/-- The operation that lies there, as it is written. -/
theorem serInt_take {s : Str} (h : 4 ≤ s.length) : serInt (UInt32.ofNat (leVal (s.take 4))) = s.take 4 := by
  have hlt := leVal_lt (s.take 4)
  have hlen : (s.take 4).length = 4 := by simpa using h
  rw [hlen] at hlt
  rw [serInt, UInt32.toNat_ofNat_of_lt' (by simpa using hlt), leBytes_take h]

theorem decode_message {body : Str} (junk : UInt32) (h : 4 ≤ body.length) :
    decode (Message.deserialize junk) body =
      (decode InStream.readVec (body.drop 4)).map (⟨UInt32.ofNat (leVal (body.take 4)), ·⟩) := by
  simp only [decode, Message.deserialize, readInt_ok junk h]
  cases InStream.readVec ⟨body.drop 4, true⟩ <;> rfl

/-- Nothing is read but what is written there. -/
theorem message_sound_iff (junk : UInt32) (body : Str) :
    (∀ m, decode (Message.deserialize junk) body = some m → m.serialize <+: body) ↔
      HoldsMessage body := by
  by_cases h4 : 4 ≤ body.length
  · rw [HoldsMessage, and_iff_right h4, ← vec_sound_iff, decode_message junk h4]
    have hpre : ∀ v, Message.serialize ⟨UInt32.ofNat (leVal (body.take 4)), v⟩ <+: body ↔
        serVec v <+: body.drop 4 := by
      intro v
      rw [Message.serialize, serInt_take h4]
      exact take_append_prefix
    constructor
    · exact fun h v hv => (hpre v).mp (h _ (Option.map_eq_some_iff.mpr ⟨v, hv, rfl⟩))
    · intro h m hm
      obtain ⟨v, hv, rfl⟩ := Option.map_eq_some_iff.mp hm
      exact (hpre v).mpr (h v hv)
  · have hlen : body.length < (serInt junk).length := by simpa [serInt] using h4
    obtain ⟨bytes, he, -⟩ := read_short hlen
    have hread : decode (Message.deserialize junk) body = some ⟨UInt32.ofNat (leVal bytes), []⟩ := by
      simp only [decode, Message.deserialize, InStream.readInt, he]
      rfl
    refine iff_of_false (fun h => ?_) (fun h => h4 h.1)
    have hle := (h _ hread).length_le
    simp only [Message.serialize, serInt, List.length_append, length_leBytes] at hle
    omega

end OeAware

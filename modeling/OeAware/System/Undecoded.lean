import OeAware.System.Threads

/-! @src src/plugin_mgr/instance_run_handler.cpp, src/common/data_register.cpp | name:Publish,
    DataListDeserialize

    `Publish` decodes the client's bytes and passes on what comes out: that the decoder stopped, or that
    the bytes ended before it did, it does not look at. Then it goes from one call to the next, and where
    one fails it returns, leaving what the earlier ones have done.

        bytes ──▶ DataListDeserialize ──▶ instance? topic? ──▶ UpdateData ──▶ Enable ──▶ OpenTopic
                   (verdict ignored)       no: FAILED                         failed: return -/

namespace OeAware
open Schemes

/-! ### What the bytes hold -/

/-- The elements, if each of them is there to its end. -/
def RegisterEntry.readWhole (entry : RegisterEntry) : ℕ → InStream → Option (List Str)
  | 0, _ => some []
  | n + 1, s =>
    match entry.de s with
    | (some x, s) => if s.good then (entry.readWhole n s).map (x :: ·) else none
    | (none, _) => none

/-- `DataListDeserialize` as it is meant: there is a result only if everything was there. -/
def decodeWhole (reg : Register) (bytes : Str) : Option DataList :=
  match Topic.deserialize ⟨bytes, true⟩ with
  | none => none
  | some (t, s) =>
    let topic : Topic := ⟨cStr t.instanceName, cStr t.topicName, cStr t.params⟩
    let (size, s) := s.readU64 0
    if s.good = false ∨ maxArrayLength < size then none
    else
      match reg.lookup topic with
      | some entry => (entry.readWhole size s).map (⟨topic, ·⟩)
      | none => if size = 0 then some ⟨topic, []⟩ else none

/-- The topic and the count, as far as they are there; `none` where a length is refused. -/
def publishHead (junk : ℕ) (bytes : Str) : Option (Topic × ℕ) :=
  (Topic.deserialize ⟨bytes, true⟩).map (fun r =>
    (⟨cStr r.1.instanceName, cStr r.1.topicName, cStr r.1.params⟩, (r.2.readU64 junk).1))

theorem readAll_of_readWhole {entry : RegisterEntry} : ∀ {n : ℕ} {s : InStream} {l : List Str},
    entry.readWhole n s = some l → entry.readAll n s = l
  | 0, _, l, h => by
    cases h
    rfl
  | n + 1, s, l, h => by
    rw [RegisterEntry.readWhole] at h
    rw [RegisterEntry.readAll]
    rcases hx : entry.de s with ⟨_ | x, s'⟩
    · rw [hx] at h
      cases h
    · rw [hx] at h
      dsimp only at h ⊢
      split at h
      · obtain ⟨xs, hxs, rfl⟩ := Option.map_eq_some_iff.mp h
        exact congrArg (x :: ·) (readAll_of_readWhole hxs)
      · cases h

theorem readU64_good {s : InStream} (junk : ℕ) (h : (s.readU64 0).2.good = true) :
    s.readU64 junk = s.readU64 0 := by
  obtain ⟨rest, good⟩ := s
  cases good with
  | false => cases h
  | true =>
    have hlen : 8 ≤ rest.length := by simpa [InStream.readU64, InStream.read] using h
    have hmin : min 8 rest.length = 8 := Nat.min_eq_left hlen
    simp [InStream.readU64, InStream.read, List.drop_of_length_le, hmin]

/-- What is there as a whole is what comes out. -/
theorem dataListDeserialize_whole {reg : Register} {bytes : Str} {d : DataList} (junk : ℕ)
    (h : decodeWhole reg bytes = some d) : dataListDeserialize reg junk bytes = .ok d := by
  unfold decodeWhole at h
  unfold dataListDeserialize
  cases ht : Topic.deserialize ⟨bytes, true⟩ with
  | none => rw [ht] at h; cases h
  | some r =>
    obtain ⟨t, s⟩ := r
    rw [ht] at h
    dsimp only at h ⊢
    split at h
    · cases h
    · rename_i hgood
      obtain ⟨hgood, hmax⟩ := not_or.mp hgood
      rw [readU64_good junk (by simpa using hgood), if_neg hmax]
      cases hentry : reg.lookup ⟨cStr t.instanceName, cStr t.topicName, cStr t.params⟩ with
      | some entry =>
        rw [hentry] at h
        obtain ⟨l, hl, rfl⟩ := Option.map_eq_some_iff.mp h
        exact congrArg (fun l => Decoded.ok ⟨_, l⟩) (readAll_of_readWhole hl)
      | none =>
        rw [hentry] at h
        dsimp only at h ⊢
        split at h
        · rename_i h0
          cases h
          rw [if_pos h0]
        · cases h

/-- What comes out has the topic that is there, and there is no result where a length is refused or a
    codec is missing. -/
theorem dataListDeserialize_head (reg : Register) (junk : ℕ) (bytes : Str) (topic : Topic) :
    (∃ d, dataListDeserialize reg junk bytes = .ok d ∧ d.topic = topic) ↔
      ∃ size, publishHead junk bytes = some (topic, size) ∧ size ≤ maxArrayLength ∧
        (size = 0 ∨ (reg.lookup topic).isSome = true) := by
  unfold dataListDeserialize publishHead
  cases Topic.deserialize ⟨bytes, true⟩ with
  | none => simp
  | some r =>
    obtain ⟨t, s⟩ := r
    simp only [Option.map_some, Option.some.injEq, Prod.mk.injEq]
    split
    · rename_i hmax
      refine iff_of_false (by simp) ?_
      rintro ⟨size, ⟨-, rfl⟩, hle, -⟩
      omega
    · rename_i hmax
      split
      · rename_i entry hentry
        constructor
        · rintro ⟨d, hd, rfl⟩
          cases hd
          exact ⟨_, ⟨rfl, rfl⟩, Nat.not_lt.mp hmax, .inr (by rw [hentry]; rfl)⟩
        · rintro ⟨size, ⟨rfl, -⟩, -⟩
          exact ⟨_, rfl, rfl⟩
      · rename_i hentry
        by_cases h0 : (s.readU64 junk).1 = 0
        · rw [if_pos h0]
          constructor
          · rintro ⟨d, hd, rfl⟩
            cases hd
            exact ⟨_, ⟨rfl, rfl⟩, Nat.not_lt.mp hmax, .inl h0⟩
          · rintro ⟨size, ⟨rfl, -⟩, -⟩
            exact ⟨_, rfl, rfl⟩
        · rw [if_neg h0]
          refine iff_of_false (by simp) ?_
          rintro ⟨size, ⟨rfl, rfl⟩, -, hsize⟩
          rcases hsize with hsize | hsize
          · exact h0 hsize
          · rw [hentry] at hsize
            cases hsize

/-! ### `Publish` -/

/-- The topic is of an instance that exists and supports it, or is none in particular. -/
def State.Admits (s : State) (topic : Topic) : Prop :=
  ∃ p, s.getInstance topic.instanceName = some p ∧ s.unsupported p topic = false

theorem publish_rejected {s : State} {d : DataList} (ans : Answers) (h : ¬ s.Admits d.topic) :
    ∃ text, s.publish d ans = (s, ⟨some FAILED, text⟩) := by
  unfold State.publish
  dsimp only
  cases hp : s.getInstance d.topic.instanceName with
  | none => exact ⟨_, rfl⟩
  | some p =>
    have hu : s.unsupported p d.topic = true := by
      by_contra hu
      exact h ⟨p, hp, Bool.eq_false_iff.mpr hu⟩
    dsimp only
    rw [if_pos hu]
    exact ⟨_, rfl⟩

/-- `UpdateData` comes first, then the instance is started where it has to be. -/
theorem publish_admitted {s : State} {d : DataList} {p : InstancePtr} (ans : Answers)
    (hp : s.getInstance d.topic.instanceName = some p) (hu : s.unsupported p d.topic = false) :
    s.publish d ans =
      if s.enabled p then (s.call p (.updateData d)).publishTo p d.topic ans
      else if ans.enable.failed then
        ((s.call p (.updateData d)).call p (.enable [] ans.enable), ans.enable)
      else (((s.call p (.updateData d)).call p (.enable [] ans.enable)).enableOk p).publishTo p
        d.topic ans := by
  have hp' : (s.call p (.updateData d)).getInstance d.topic.instanceName = some p := hp
  have he : (s.call p (.updateData d)).enabled p = s.enabled p := rfl
  simp only [State.publish, hp, hu, he, enableInstance_eq hp', Bool.false_eq_true, if_false]
  by_cases hen : s.enabled p = true
  · simp only [hen, if_true]
  · by_cases hf : ans.enable.failed = true <;> simp [hen, hf]

/-- The enabled flags, the open topics and the schedule queue are as before. -/
structure State.Kept (s s' : State) : Prop where
  scheduleQueue : s'.scheduleQueue = s.scheduleQueue
  enabled : ∀ p, s'.enabled p = s.enabled p
  openTopics : ∀ p, (s'.heap p).openTopics = (s.heap p).openTopics

/-- What is promised of a `PUBLISH`: there is a result, data is only handed on that was there as a whole
    and names an instance and one of its topics, the result is negative for other bytes, and where it is
    negative nothing has changed. -/
def PublishSound (reg : Register) (s : State) (payload : List Str) (ans : Answers) (junk : ℕ) : Prop :=
  ∃ s' r, s.handleQueued reg (.publish payload) ans junk = .ok (s', r) ∧
    (∃ cs, s'.calls = cs ++ s.calls ∧ ∀ c ∈ cs, ∀ d, c.call = .updateData d →
      decodeWhole reg (payload.headD []) = some d ∧ s.Admits d.topic) ∧
    ((¬ ∃ d, decodeWhole reg (payload.headD []) = some d ∧ s.Admits d.topic) → r.failed = true) ∧
    (r.failed = true → s.Kept s')

/-- When it is kept. A payload is there, no length of it is refused, and there is a codec for its elements if
    there are any. If its names are those of an instance and of one of its topics, it is there as a whole,
    and if the instance has to be started and starts, the topic opens. -/
def PublishHolds (reg : Register) (s : State) (payload : List Str) (ans : Answers) (junk : ℕ) : Prop :=
  payload ≠ [] ∧ ∃ topic size, publishHead junk (payload.headD []) = some (topic, size) ∧
    size ≤ maxArrayLength ∧ (size = 0 ∨ (reg.lookup topic).isSome = true) ∧
    ∀ p, s.getInstance topic.instanceName = some p → s.unsupported p topic = false →
      (decodeWhole reg (payload.headD [])).isSome = true ∧
      (s.enabled p = false → ans.enable.failed = false → topic.topicName ≠ [] →
        ans.openTopic.failed = false)

theorem publishTo_eq (s : State) (p : InstancePtr) (topic : Topic) (ans : Answers) :
    s.publishTo p topic ans =
      if topic.topicName = [] then (s, ⟨some OK, []⟩)
      else (s.openTopic p topic ans.openTopic,
        if ans.openTopic.failed then ans.openTopic else ⟨some OK, []⟩) := by
  unfold State.publishTo
  by_cases ht : topic.topicName = [] <;> by_cases hf : ans.openTopic.failed = true <;> simp [ht, hf]

/-- A topic that is refused is not recorded as open. -/
theorem openTopic_refused {s : State} {p : InstancePtr} {topic : Topic} {ret : Result}
    (h : ret.failed = true) :
    s.openTopic p topic ret = s.call p (.openTopic topic ret) := by
  have hc : ret.code ≠ some OK := by
    intro hc
    simp [Result.failed, hc, OK] at h
  rw [State.openTopic, if_neg hc]

theorem kept_call (s : State) (p : InstancePtr) (c : IfaceCall) : s.Kept (s.call p c) :=
  ⟨rfl, fun _ => rfl, fun _ => rfl⟩

theorem State.Kept.trans {s s' s'' : State} (h : s.Kept s') (h' : s'.Kept s'') : s.Kept s'' :=
  ⟨h'.scheduleQueue.trans h.scheduleQueue, fun p => (h'.enabled p).trans (h.enabled p),
    fun p => (h'.openTopics p).trans (h.openTopics p)⟩

/-- Of what is called for `d`, `UpdateData` was the first. -/
def Updated (d : DataList) (s s' : State) : Prop :=
  ∃ cs, s'.calls = cs ++ s.calls ∧ (∃ c ∈ cs, c.call = .updateData d) ∧
    ∀ c ∈ cs, ∀ d', c.call = .updateData d' → d' = d

theorem updated_call (s : State) (p : InstancePtr) (d : DataList) :
    Updated d s (s.call p (.updateData d)) :=
  ⟨[⟨s.time, p, .updateData d⟩], rfl, ⟨_, List.mem_singleton_self _, rfl⟩, fun c hc d' he => by
    rw [List.mem_singleton.mp hc] at he
    cases he
    rfl⟩

/-- Other calls come after it. -/
theorem Updated.cons {d : DataList} {s s' s'' : State} (h : Updated d s s') {c : CallRecord}
    (hcalls : s''.calls = c :: s'.calls) (hc : ∀ d', c.call ≠ .updateData d') : Updated d s s'' := by
  obtain ⟨cs, hcs, ⟨c0, hmem, h0⟩, honly⟩ := h
  refine ⟨c :: cs, by rw [hcalls, hcs]; rfl, ⟨c0, List.mem_cons_of_mem c hmem, h0⟩, fun c' hc' d' he => ?_⟩
  rcases List.mem_cons.mp hc' with rfl | hc'
  · exact absurd he (hc d')
  · exact honly c' hc' d' he

theorem Updated.publishTo {d : DataList} {s s' : State} (h : Updated d s s') (p : InstancePtr)
    (topic : Topic) (ans : Answers) : Updated d s (s'.publishTo p topic ans).1 := by
  rw [publishTo_eq]
  split
  · exact h
  · exact h.cons (by rw [State.openTopic_eq]) (fun d' he => by cases he)

/-- Where the topic does not open, nothing else has changed. -/
theorem kept_publishTo {s : State} {p : InstancePtr} {topic : Topic} {ans : Answers}
    (h : (s.publishTo p topic ans).2.failed = true) : topic.topicName ≠ [] ∧
      ans.openTopic.failed = true ∧ s.Kept (s.publishTo p topic ans).1 := by
  rw [publishTo_eq] at h ⊢
  have hok : Result.failed ⟨some OK, []⟩ = false := rfl
  split at h
  · rw [hok] at h
    cases h
  · rename_i ht
    have hf : ans.openTopic.failed = true := by
      by_contra hf
      rw [if_neg hf, hok] at h
      cases h
    rw [if_neg ht, openTopic_refused hf]
    exact ⟨ht, hf, kept_call s p _⟩

/-- `UpdateData` is called with data that is admitted. -/
theorem updated_publish {s : State} {d : DataList} (ans : Answers) (h : s.Admits d.topic) :
    Updated d s (s.publish d ans).1 := by
  obtain ⟨p, hp, hu⟩ := h
  have h1 := updated_call s p d
  have h2 : Updated d s ((s.call p (.updateData d)).call p (.enable [] ans.enable)) :=
    h1.cons rfl (fun d' he => by cases he)
  rw [publish_admitted ans hp hu]
  split
  · exact h1.publishTo p d.topic ans
  · split
    · exact h2
    · have h3 : Updated d s (((s.call p (.updateData d)).call p (.enable [] ans.enable)).enableOk p) := h2
      exact h3.publishTo p d.topic ans

/-- A negative result leaves everything as it was, unless the instance has been started for it. -/
theorem kept_publish {s : State} {d : DataList} {p : InstancePtr} {ans : Answers}
    (hp : s.getInstance d.topic.instanceName = some p) (hu : s.unsupported p d.topic = false)
    (h : (s.publish d ans).2.failed = true) :
    s.Kept (s.publish d ans).1 ↔ ¬ (s.enabled p = false ∧ ans.enable.failed = false) := by
  have h1 := kept_call s p (.updateData d)
  rw [publish_admitted ans hp hu] at h ⊢
  by_cases hen : s.enabled p = true
  · rw [if_pos hen] at h ⊢
    exact iff_of_true (h1.trans (kept_publishTo h).2.2) (by simp [hen])
  · rw [if_neg hen] at h ⊢
    by_cases hf : ans.enable.failed = true
    · rw [if_pos hf]
      exact iff_of_true (h1.trans (kept_call _ p _)) (by simp [hf])
    · rw [if_neg hf] at h ⊢
      refine iff_of_false (fun hkept => hen ?_) (by simp [hen, hf])
      -- it is enabled now
      rw [← hkept.enabled p, (kept_publishTo h).2.2.enabled p, State.enabled_enableOk]
      simp

/-- Of an instance that starts for it, the result is that of opening the topic. -/
theorem publish_starting {s : State} {d : DataList} {p : InstancePtr} {ans : Answers}
    (hp : s.getInstance d.topic.instanceName = some p) (hu : s.unsupported p d.topic = false)
    (hen : s.enabled p = false) (hf : ans.enable.failed = false) :
    (s.publish d ans).2.failed = true ↔ d.topic.topicName ≠ [] ∧ ans.openTopic.failed = true := by
  have hok : Result.failed ⟨some OK, []⟩ = false := rfl
  rw [publish_admitted ans hp hu]
  by_cases ht : d.topic.topicName = [] <;> by_cases ho : ans.openTopic.failed = true <;>
    simp [hen, hf, publishTo_eq, ht, ho, hok]

/-- Bytes that end behind the names; the count is what its variable held before. -/
def sampleCut : Str := topicSerialize (sampleTopic "i")

end OeAware

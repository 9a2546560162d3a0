import OeAware.Manager.Unsubscribing
import OeAware.Schemes.Broker
import OeAware.System.Delivery

/-! @src src/plugin_mgr/instance_run_handler.cpp | name:Subscribe, Unsubscribe, UnsubscribeSdk, PublishData |
    scheme:broker

    The handler as a broker. Opening and closing topics, enabling, refusals, sweeps, ticks and the coming and going
    of plugins lie between a request and the next, and none of it shows: who is in the subscriber set of a type
    string is told by the accepted subscriptions and the unsubscriptions alone, and an SDK connection is sent the
    data that were published to a type string while its name was in the set, each once and in order. -/

namespace OeAware
open Schemes

namespace State

/-- What a step asks of the broker: a refused subscription asks nothing. -/
def asked (s : State) : Action → List (TopicRequest Str Str DataList)
  | .message (.SUBSCRIBE topic x) ans =>
    if (s.subscribe topic.getType x ans).2.failed then [] else [.join topic.getType x]
  | .message (.UNSUBSCRIBE topic x) _ => [.leave topic.getType x]
  | .message (.UNSUBSCRIBE_SDK x) _ => [.forget x]
  | .message (.PUBLISH_DATA d) _ => [.publish d.topic.getType d]
  | _ => []

/-- The events that have been queued for the connection `x`. -/
def inbox (s : State) (x : Str) : List Event :=
  s.recvData.filter (fun e => e.payload.head? = some x)

end State

/-- A run of the handler with what it has been asked, the latest first. -/
abbrev History : List (TopicRequest Str Str DataList) → State → Prop :=
  Recorded step State.init State.asked

/-! ### The subscriber sets -/

/-- `UnsubscribeSdk` leaves every other subscriber in its sets. -/
theorem mem_subs_unsubscribeSdk {s s' : State} {x : Str} (he : s.unsubscribeSdk x = .ok s')
    (type y : Str) : y ∈ s'.subs type ↔ y ∈ s.subs type ∧ y ≠ x := by
  have hothers : y ≠ x → (y ∈ s'.subs type ↔ y ∈ s.subs type) := fun hne =>
    unsubscribeLoop_induct (P := fun s1 => y ∈ s1.subs type ↔ y ∈ s.subs type)
      (fun s1 s2 type' h1 _ h2 => by
        rw [mem_subs_unsubscribe h2, ← h1]
        exact and_iff_left (fun hh => hne hh.2)) _ Iff.rfl he
  by_cases hyx : y = x
  · subst hyx
    exact iff_of_false (unsubscribeSdk_gone he type) (fun hh => hh.2 rfl)
  · rw [hothers hyx]
    exact (and_iff_left hyx).symm

/-- An accepted subscription adds its subscriber to its set, a refused one adds nobody. -/
theorem mem_subs_subscribe {s : State} (hs : StoreOk s) (type x : Str) (ans : Answers)
    (type' y : Str) : y ∈ (s.subscribe type x ans).1.subs type' ↔
      ((s.subscribe type x ans).2.failed = false ∧ type' = type ∧ y = x) ∨ y ∈ s.subs type' := by
  cases hf : (s.subscribe type x ans).2.failed with
  | true => rw [subscribe_failed hs hf]; simp
  | false =>
    have ho := subscribe_outcome hs type x ans
    generalize s.subscribe type x ans = res at ho hf
    cases ho with
    | missing => cases hf
    | notEnabled p _ _ hr => rw [hr] at hf; cases hf
    | refused p s1 _ _ _ hr => rw [hr] at hf; cases hf
    | known p s1 r _ h1 =>
      rw [(topics_subscribed _ p _ type x).2]
      simp only [true_and]
      exact or_congr_right (iff_of_eq (congrArg (y ∈ ·) (subs_congr h1.same.subscibers type')))
    | opened p s1 _ h1 =>
      rw [(topics_subscribed _ p _ type x).2]
      simp only [true_and]
      refine or_congr_right (iff_of_eq (congrArg (y ∈ ·) ?_))
      exact (subs_congr (topics_openTopic _ p _ _).2 type').trans (subs_congr h1.same.subscibers type')

/-- The subscriber sets after a step are those of the broker after what it has been asked. -/
theorem subs_step {s s' : State} {a : Action} (hs : StoreOk s) (he : step s a = .ok s')
    {log : List (TopicRequest Str Str DataList)} (h : ∀ type x, x ∈ s.subs type ↔ Subscribed log type x)
    (type y : Str) : y ∈ s'.subs type ↔ Subscribed (s.asked a ++ log) type y := by
  have hsame : (∀ t x, x ∈ s'.subs t ↔ x ∈ s.subs t) → s.asked a = [] →
      (y ∈ s'.subs type ↔ Subscribed (s.asked a ++ log) type y) := fun hsubs hnone => by
    rw [hsubs, h, hnone]
    rfl
  cases a with
  | message m ans =>
    obtain ⟨⟨s1, r⟩, h1, rfl⟩ := map_ok he
    cases m with
    | SUBSCRIBE topic x =>
      simp only [State.handle, Except.ok.injEq] at h1
      have hmem := mem_subs_subscribe hs topic.getType x ans type y
      rw [h1] at hmem
      rw [hmem, h, State.asked, h1]
      cases r.failed <;> simp [Subscribed]
    | UNSUBSCRIBE topic x =>
      obtain ⟨s2, h2, he⟩ := map_ok h1
      cases he
      rw [mem_subs_unsubscribe h2, h]
      rfl
    | UNSUBSCRIBE_SDK x =>
      obtain ⟨s2, h2, he⟩ := map_ok h1
      cases he
      rw [mem_subs_unsubscribeSdk h2, h]
      rfl
    | PUBLISH_DATA d =>
      obtain ⟨s2, h2, he⟩ := map_ok h1
      cases he
      rw [(sameTopics_publishData h2).subs, h]
      rfl
    | _ =>
      cases step_topics hs he with
      | same _ hst => exact hsame hst.subs rfl
      | unsubscribed _ _ _ hm => rcases hm with ⟨_, _, hm⟩ | ⟨_, hm⟩ <;> cases hm
  | _ =>
    cases step_topics hs he with
    | same _ hst => exact hsame hst.subs rfl

/-! ### The data -/

/-- A loop of `PublishData` that ends has sent to everybody. -/
theorem deliver_sentTo (d : DataList) : ∀ (l : List Str) {s s' : State},
    s.deliver d l = .ok s' → s' = s.sentTo d l
  | [], s, s', he => by
    rw [State.deliver, Except.ok.injEq] at he
    simp [State.sentTo, ← he]
  | x :: l, s, s', he => by
    rw [State.deliver] at he
    split at he
    · rename_i hx
      rw [State.sentTo_sdk hx]
      exact deliver_sentTo d l he
    · rename_i hx
      split at he
      · cases he
      · rename_i p hp
        rw [State.sentTo_inst (Bool.eq_false_iff.mpr hx) hp]
        exact deliver_sentTo d l he

/-- Of the events for the subscribers of a type one is for `x`, if it is among them. -/
theorem inbox_publishData {s s' : State} {d : DataList} (he : s.publishData d = .ok s') {x : Str}
    (hx : State.isSdk x = true) : s'.inbox x =
      if x ∈ s.subs d.topic.getType then s.inbox x ++ [State.dataEvent d x] else s.inbox x := by
  rw [State.publishData, subs_touchSubs] at he
  -- the set names `x` at most once
  have hone : (((s.subs d.topic.getType).filter State.isSdk).map (State.dataEvent d)).filter
      (fun e => e.payload.head? = some x) =
      if x ∈ s.subs d.topic.getType then [State.dataEvent d x] else [] := by
    have hkey : (fun e : Event => decide (e.payload.head? = some x)) ∘ State.dataEvent d =
        (· == x) := by
      funext y
      simp [State.dataEvent, beq_eq_decide]
    have hcount : ((s.subs d.topic.getType).filter State.isSdk).count x =
        if x ∈ s.subs d.topic.getType then 1 else 0 := by
      rw [List.count_filter hx, List.Nodup.count (s.nodup_subs _)]
    rw [List.filter_map, hkey, List.filter_beq, hcount]
    split <;> rfl
  rw [deliver_sentTo d _ he, State.inbox, State.sentTo, List.filter_append, hone]
  split
  · rfl
  · exact List.append_nil _

/-- What is queued for a connection after a step is what the broker has sent it. -/
theorem inbox_step {s s' : State} {a : Action} (hs : StoreOk s) (he : step s a = .ok s')
    {log : List (TopicRequest Str Str DataList)} (h : ∀ type x, x ∈ s.subs type ↔ Subscribed log type x)
    {x : Str} (hx : State.isSdk x = true)
    (hin : s.inbox x = (deliveries x log).map (fun d => State.dataEvent d x)) :
    s'.inbox x = (deliveries x (s.asked a ++ log)).map (fun d => State.dataEvent d x) := by
  by_cases hpub : ∃ d ans, a = .message (.PUBLISH_DATA d) ans
  · obtain ⟨d, ans, rfl⟩ := hpub
    obtain ⟨⟨s1, r⟩, h1, rfl⟩ := map_ok he
    obtain ⟨s2, h2, he⟩ := map_ok h1
    cases he
    rw [inbox_publishData h2 hx, hin]
    simp only [State.asked, List.cons_append, List.nil_append, deliveries, h]
    split
    · rw [List.map_append]
      rfl
    · rfl
  · -- nothing is queued by any other step
    have hrecv : s'.inbox x = s.inbox x := by
      rw [State.inbox, step_recvData hs he (fun d ans ha => hpub ⟨d, ans, ha⟩)]
      rfl
    have hlog : deliveries x (s.asked a ++ log) = deliveries x log := by
      unfold State.asked
      split
      · split <;> rfl
      · rfl
      · rfl
      · rename_i d ans
        exact absurd ⟨d, ans, rfl⟩ hpub
      · rfl
    rw [hrecv, hin, hlog]

/-- Along a run the sets and the queued data are those of the broker. -/
theorem History.tells {log : List (TopicRequest Str Str DataList)} {s : State} (h : History log s) :
    (∀ type x, x ∈ s.subs type ↔ Subscribed log type x) ∧ ∀ x, State.isSdk x = true →
      s.inbox x = (deliveries x log).map (fun d => State.dataEvent d x) := by
  induction h with
  | start => exact ⟨fun type x => iff_of_false List.not_mem_nil id, fun x _ => rfl⟩
  | next hlog hstep ih =>
    obtain ⟨hsubs, hin⟩ := ih
    have hs := storeOk_runs hlog.runs
    exact ⟨subs_step hs hstep hsubs, fun x hx => inbox_step hs hstep hsubs hx (hin x hx)⟩

/-- A BROKER: in every run a name is in the subscriber set of a type string exactly if an accepted subscription has
    put it there and neither an `UNSUBSCRIBE` from that type nor an `UNSUBSCRIBE_SDK` of the name came after, and
    what has been queued for an SDK connection is the data published meanwhile, in order. -/
theorem subscribers_by_history {log : List (TopicRequest Str Str DataList)} {s : State}
    (h : History log s) :
    (∀ type x, x ∈ s.subs type ↔ ∃ later earlier, log = later ++ .join type x :: earlier ∧
      .leave type x ∉ later ∧ .forget x ∉ later) ∧
    ∀ x, State.isSdk x = true →
      s.inbox x = (deliveries x log).map (fun d => State.dataEvent d x) := by
  obtain ⟨hsubs, hin⟩ := h.tells
  exact ⟨fun type x => (hsubs type x).trans subscribed_iff, hin⟩

/-- Published before, between and after: of three data the connection `7` is sent the second. -/
theorem subscribers_by_history_between :
    ∃ log s, History log s ∧ s.inbox (str "7") = [State.dataEvent ⟨sampleTopic "i", [str "b"]⟩ (str "7")] ∧
      (∀ type x, x ∈ s.subs type ↔ ∃ later earlier, log = later ++ .join type x :: earlier ∧
        .leave type x ∉ later ∧ .forget x ∉ later) ∧
      ∀ x, State.isSdk x = true →
        s.inbox x = (deliveries x log).map (fun d => State.dataEvent d x) := by
  have h : History _ _ := Recorded.of_recordAll (x := ([], State.init))
    [sampleLoad, .message (.PUBLISH_DATA ⟨sampleTopic "i", [str "a"]⟩) accepting,
      .message (.SUBSCRIBE (sampleTopic "i") (str "7")) accepting,
      .message (.SUBSCRIBE (sampleTopic "i") (str "8")) refusing, .tick,
      .message (.PUBLISH_DATA ⟨sampleTopic "i", [str "b"]⟩) accepting,
      .message (.UNSUBSCRIBE_SDK (str "7")) accepting,
      .message (.PUBLISH_DATA ⟨sampleTopic "i", [str "c"]⟩) accepting] .start rfl
  exact ⟨_, _, h, by decide, subscribers_by_history h⟩

end OeAware

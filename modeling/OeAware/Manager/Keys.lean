import Mathlib.Data.List.Infix
import OeAware.Manager.Events
import OeAware.Manager.Views

/-! @src include/oeaware/topic.h, src/common/utils.cpp, src/plugin_mgr/instance_run_handler.cpp |
    name:Topic::GetType, Topic::GetTopicFromType, Subscribe

    `Subscribe` is given a type string. It keys the subscribers by that string, and opens the topic that
    it finds in it. The split is at the leftmost `::`, so the first two parts may have no `::` and no
    `:` at their end, where the separator would be found too early; the last part may have any `:` but no
    `::`, behind which it is cut off.

        "i" "::" "t" "::" "p:q"  ──▶  i , t , p:q          "i" "::" "t" "::" "p::q"  ──▶  i , t , p -/

namespace OeAware
open Schemes

/-- `::` occurs in `s`. -/
def HasColons (s : Str) : Prop := [58, 58] <:+: s

instance (s : Str) : Decidable (HasColons s) := inferInstanceAs (Decidable (_ <:+: _))

/-- The parts of a topic are those that its type string is split into. -/
def Topic.Splits (t : Topic) : Prop :=
  ¬ HasColons (t.instanceName ++ [58]) ∧ ¬ HasColons (t.topicName ++ [58]) ∧ ¬ HasColons t.params

instance (t : Topic) : Decidable t.Splits := inferInstanceAs (Decidable (_ ∧ _ ∧ _))

/-! ### The split -/

theorem hasColons_cons {c : UInt8} {s : Str} :
    HasColons (c :: s) ↔ [58, 58] <+: c :: s ∨ HasColons s := List.infix_cons_iff

/-- Up to the first `::`, if there is one. -/
theorem splitAux_cases : ∀ (s acc : Str), ∃ x tokens,
    splitAux [58, 58] s 0 acc = (acc.reverse ++ x) :: tokens ∧
      (¬ HasColons s ∧ x = s ∧ tokens = [] ∨
        ∃ rest, s = x ++ 58 :: 58 :: rest ∧ ¬ HasColons (x ++ [58]) ∧
          tokens = splitAux [58, 58] rest 0 [])
  | [], acc => ⟨[], [], by simp [splitAux], .inl ⟨by decide, rfl, rfl⟩⟩
  | c :: cs, acc => by
    rw [splitAux]
    by_cases hp : [58, 58] <+: c :: cs
    · obtain ⟨rest, hrest⟩ := hp
      obtain ⟨rfl, rfl⟩ : c = 58 ∧ cs = 58 :: rest := by
        simpa using (List.cons.inj hrest.symm)
      refine ⟨[], splitAux [58, 58] rest 0 [], ?_, .inr ⟨rest, rfl, by decide, rfl⟩⟩
      simp [splitAux, List.isPrefixOf]
    · rw [if_neg (by rwa [List.isPrefixOf_iff_prefix])]
      obtain ⟨x, tokens, he, hcase⟩ := splitAux_cases cs (c :: acc)
      refine ⟨c :: x, tokens, by simpa using he, ?_⟩
      rcases hcase with ⟨hno, rfl, ht⟩ | ⟨rest, rfl, hno, ht⟩
      · exact .inl ⟨fun h => (hasColons_cons.mp h).elim hp hno, rfl, ht⟩
      · refine .inr ⟨rest, rfl, fun h => (hasColons_cons.mp h).elim (fun h' => hp ?_) hno, ht⟩
        -- what begins with `::` before the separator does so with the separator behind it
        exact h'.trans ⟨58 :: rest, by simp⟩

/-- A first part is what it was if the separator is not found earlier. -/
theorem splitAux_first (rest : Str) : ∀ (a acc : Str), ¬ HasColons (a ++ [58]) →
    splitAux [58, 58] (a ++ 58 :: 58 :: rest) 0 acc =
      (acc.reverse ++ a) :: splitAux [58, 58] rest 0 []
  | [], acc, _ => by simp [splitAux, List.isPrefixOf]
  | c :: a, acc, h => by
    have hc : ¬ [58, 58] <+: c :: (a ++ 58 :: 58 :: rest) := by
      intro hp
      refine h (hasColons_cons.mpr (.inl ?_))
      cases a with
      | nil => simpa [eq_comm] using hp
      | cons d a => simpa [eq_comm] using hp
    have ha : ¬ HasColons (a ++ [58]) := fun ha => h (hasColons_cons.mpr (.inr ha))
    rw [List.cons_append, splitAux, if_neg (by rwa [List.isPrefixOf_iff_prefix]),
      splitAux_first rest a (c :: acc) ha]
    simp

theorem splitAux_cons (s acc : Str) : ∃ x tokens, splitAux [58, 58] s 0 acc = x :: tokens := by
  obtain ⟨x, tokens, he, -⟩ := splitAux_cases s acc
  exact ⟨_, tokens, he⟩

/-- Where there is a separator another part follows, and what is found is what was in front of it only if
    it is not found earlier. -/
theorem first_part (a rest : Str) : ∃ x tokens,
    splitAux [58, 58] (a ++ 58 :: 58 :: rest) 0 [] = x :: tokens ∧ tokens ≠ [] ∧
      (x = a → ¬ HasColons (a ++ [58]) ∧ tokens = splitAux [58, 58] rest 0 []) := by
  obtain ⟨x, tokens, he, hcase⟩ := splitAux_cases (a ++ 58 :: 58 :: rest) []
  refine ⟨x, tokens, he, ?_⟩
  rcases hcase with ⟨hno, -, -⟩ | ⟨rest', hsplit, hno, rfl⟩
  · exact absurd ⟨a, rest, by simp⟩ hno
  · obtain ⟨y, tokens, hy⟩ := splitAux_cons rest' []
    refine ⟨by rw [hy]; exact List.cons_ne_nil y tokens, ?_⟩
    rintro rfl
    have hrest : rest = rest' := by simpa using hsplit
    exact ⟨hno, by rw [hrest]⟩

/-- A last part. -/
theorem splitAux_rest {a : Str} (h : ¬ HasColons a) : splitAux [58, 58] a 0 [] = [a] := by
  obtain ⟨x, tokens, he, ⟨-, rfl, rfl⟩ | ⟨rest, rfl, -, -⟩⟩ := splitAux_cases a []
  · exact he
  · exact absurd ⟨x, rest, by simp⟩ h

/-- Of the tokens the last one at most is dropped. -/
theorem splitString_getD {s : Str} {tokens : List Str} {k : ℕ}
    (h : splitAux [58, 58] s 0 [] = tokens) (hk : k + 1 < tokens.length) :
    (splitString s (str "::"))[k]? = tokens[k]? := by
  unfold splitString
  rw [str_colons, h]
  dsimp only
  split
  · rw [List.getElem?_dropLast, if_pos (by omega)]
  · rfl

/-- The first token but for the last. -/
theorem getTopicFromType_instanceName {s x y : Str} {tokens : List Str}
    (h : splitAux [58, 58] s 0 [] = x :: y :: tokens) : (getTopicFromType s).instanceName = x := by
  simp [getTopicFromType, List.getD, splitString_getD (k := 0) h (by simp)]

theorem getTopicFromType_topicName {s x y z : Str} {tokens : List Str}
    (h : splitAux [58, 58] s 0 [] = x :: y :: z :: tokens) : (getTopicFromType s).topicName = y := by
  simp [getTopicFromType, List.getD, splitString_getD (k := 1) h (by simp)]

theorem getTopicFromType_params {s x y z w : Str} {tokens : List Str}
    (h : splitAux [58, 58] s 0 [] = x :: y :: z :: w :: tokens) : (getTopicFromType s).params = z := by
  have h2 := splitString_getD (k := 2) h (by simp)
  have hlen : 2 < (splitString s (str "::")).length := by
    by_contra hle
    rw [List.getElem?_eq_none (by omega)] at h2
    cases h2
  rw [List.getElem?_eq_getElem hlen] at h2
  simpa [getTopicFromType, hlen] using h2

/-- THE ROUND TRIP, EXACTLY: a topic is found again in its type string if and only if the split is at
    the two separators. -/
theorem getTopicFromType_getType_iff (t : Topic) : getTopicFromType t.getType = t ↔ t.Splits := by
  obtain ⟨i, n, p⟩ := t
  constructor
  · intro h
    obtain ⟨hi, hn, hp⟩ := Topic.mk.injEq .. |>.mp h
    rw [getType_eq] at hi hn hp
    obtain ⟨x, tokens, h1, hne, hfirst⟩ := first_part i (n ++ 58 :: 58 :: p)
    obtain ⟨y, tokens, rfl⟩ := List.exists_cons_of_ne_nil hne
    obtain ⟨hi', htokens⟩ := hfirst ((getTopicFromType_instanceName h1).symm.trans hi)
    obtain ⟨y', tokens', h2, hne', hsecond⟩ := first_part n p
    obtain ⟨rfl, rfl⟩ := List.cons.inj (htokens.trans h2)
    obtain ⟨z, tokens, rfl⟩ := List.exists_cons_of_ne_nil hne'
    obtain ⟨hn', htokens'⟩ := hsecond ((getTopicFromType_topicName h1).symm.trans hn)
    refine ⟨hi', hn', fun hcolons => ?_⟩
    obtain ⟨z', tokens', h3, hcase⟩ := splitAux_cases p []
    obtain ⟨rfl, rfl⟩ := List.cons.inj (htokens'.trans h3)
    rcases hcase with ⟨hno, -, -⟩ | ⟨rest, hsplit, -, rfl⟩
    · exact hno hcolons
    · -- another part follows, so the parameters are cut off in front of it
      obtain ⟨w, tokens, hw⟩ := splitAux_cons rest []
      rw [hw] at h1
      have hcut := (getTopicFromType_params h1).symm.trans hp
      have hlen := congrArg List.length (hcut.trans hsplit)
      simp at hlen
  · rintro ⟨hi, hn, hp⟩
    have hs : splitAux [58, 58] (Topic.getType ⟨i, n, p⟩) 0 [] = [i, n, p] := by
      rw [getType_eq, splitAux_first _ _ _ hi, splitAux_first _ _ _ hn, splitAux_rest hp]
      rfl
    unfold getTopicFromType splitString
    rw [str_colons, hs]
    by_cases he : p = [] <;> simp [he]

/-! ### `Subscribe` -/

/-- What is called from `s` to `s'` opens no topic but `topic`. -/
def OpensOnly (topic : Topic) (s s' : State) : Prop :=
  ∃ cs, s'.calls = cs ++ s.calls ∧ ∀ c ∈ cs, ∀ o ret, c.call = .openTopic o ret → o = topic

namespace OpensOnly
variable {topic : Topic} {s s' s'' : State}

theorem of_eq (h : s'.calls = s.calls) : OpensOnly topic s s' := ⟨[], h, by simp⟩

theorem trans (h : OpensOnly topic s s') (h' : OpensOnly topic s' s'') : OpensOnly topic s s'' := by
  obtain ⟨cs, hcs, hopen⟩ := h
  obtain ⟨cs', hcs', hopen'⟩ := h'
  refine ⟨cs' ++ cs, by rw [hcs', hcs, List.append_assoc], fun c hc => ?_⟩
  exact (List.mem_append.mp hc).elim (hopen' c) (hopen c)

theorem call (s : State) (p : InstancePtr) {c : IfaceCall} (hc : ∀ o ret, c = .openTopic o ret → o = topic) :
    OpensOnly topic s (s.call p c) := ⟨[⟨s.time, p, c⟩], rfl, by simpa using hc⟩

theorem openTopic (s : State) (p : InstancePtr) (ret : Result) :
    OpensOnly topic s (s.openTopic p topic ret) := by
  rw [State.openTopic_eq]
  refine ⟨[⟨s.time, p, .openTopic topic ret⟩], rfl, fun c hc o ret' he => ?_⟩
  rw [List.mem_singleton.mp hc] at he
  cases he
  rfl

theorem closeInstance (s : State) (p : InstancePtr) : OpensOnly topic s (s.closeInstance p) := by
  rw [State.closeInstance_eq]
  refine ⟨_ :: _, rfl, fun c hc o ret he => ?_⟩
  rcases List.mem_cons.mp hc with rfl | hc
  · cases he
  · obtain ⟨t, -, rfl⟩ := List.mem_map.mp hc
    cases he

theorem subscribed (s : State) (p : InstancePtr) (type x : Str) :
    OpensOnly topic s (s.subscribed p topic type x) := of_eq (by rw [State.subscribed_eq]; rfl)

theorem started {p : InstancePtr} {params : Str} {ret : Result} (h : Started s p params ret s') :
    OpensOnly topic s s' := by
  cases h with
  | already => exact of_eq rfl
  | now => exact (call s p (fun o ret he => by cases he)).trans (of_eq rfl)

end OpensOnly

/-- `Subscribe` opens the topic that it finds in the type. -/
theorem opensOnly_subscribe {s : State} (hs : StoreOk s) (type x : Str) (ans : Answers) :
    OpensOnly (getTopicFromType type) s (s.subscribe type x ans).1 := by
  have ho := subscribe_outcome hs type x ans
  generalize s.subscribe type x ans = res at ho
  cases ho with
  | missing text hp => exact .of_eq rfl
  | notEnabled p hp he hf => exact .call s p nofun
  | known p s1 r hp h1 hf hr => exact (OpensOnly.started h1).trans (.subscribed (s1.touch _) p type x)
  | refused p s1 hp h1 hf ho =>
    exact (OpensOnly.started h1).trans ((OpensOnly.openTopic (s1.touch _) p _).trans
      (.closeInstance _ p))
  | opened p s1 hp h1 hf ho =>
    exact (OpensOnly.started h1).trans ((OpensOnly.openTopic (s1.touch _) p _).trans
      (.subscribed (State.setFlag _ _ true) p type x))

/-- THE TOPIC THAT IS OPENED IS THE ONE THAT IS SUBSCRIBED TO, exactly if its type string splits into its
    parts: then nothing else is opened, and its own type is what the new subscriber is kept under. -/
theorem subscribe_keys_iff (topic : Topic) (name : Str) :
    (getTopicFromType topic.getType = topic ∧ ∀ s, Reach s → ∀ ans,
      OpensOnly topic s (s.subscribe topic.getType name ans).1 ∧
      ∀ type, name ∈ (s.subscribe topic.getType name ans).1.subs type → name ∉ s.subs type →
        type = topic.getType) ↔ topic.Splits := by
  rw [← getTopicFromType_getType_iff]
  refine and_iff_left_of_imp (fun htrip s hs ans => ⟨?_, fun type hnew hold => ?_⟩)
  · have hopens := opensOnly_subscribe (storeOk_runs hs) topic.getType name ans
    rwa [htrip] at hopens
  · have hstep : step s (.message (.SUBSCRIBE topic name) ans) =
        .ok (s.subscribe topic.getType name ans).1 := rfl
    rcases step_subs (storeOk_runs hs) hstep hnew with hmem | ⟨topic', ans', ha, ht⟩
    · exact absurd hmem hold
    · cases ha
      exact ht

/-- A client's parameter with `::` in it: the handler admits the topic, and another one is opened. -/
def sampleColons : Topic := ⟨str "i", str "t", str "a::b"⟩

theorem subscribe_opens_other : ∃ s out reply, Reach s ∧
    s.subscribeHandler out [topicSerialize sampleColons, str "7"] =
      .send (.run (.SUBSCRIBE sampleColons (str "7"))) reply ∧
    getTopicFromType sampleColons.getType ≠ sampleColons ∧
    ¬ OpensOnly sampleColons s (s.subscribe sampleColons.getType (str "7") accepting).1 ∧
    (getTopicFromType sampleColons.getType).getType ≠ sampleColons.getType := by
  have h : Reach _ := Runs.of_runAll (fun _ _ => True) [sampleLoad] .start rfl
  refine ⟨_, ⟨⟨true, true, none⟩, [], none, fun _ => none, .ok [], 0, 0⟩, .encoded .SUBSCRIBE, h,
    ?_, by decide, ?_, by decide⟩
  · rfl
  · rintro ⟨cs, hcs, hopen⟩
    have hcalls : cs = [⟨0, 0, .openTopic ⟨str "i", str "t", str "a"⟩ accepting.openTopic⟩,
        ⟨0, 0, .enable (str "a") accepting.enable⟩] := (hcs.trans (List.append_nil cs)).symm
    exact absurd (hopen _ (hcalls ▸ List.mem_cons_self) _ _ rfl) (by decide)

end OeAware

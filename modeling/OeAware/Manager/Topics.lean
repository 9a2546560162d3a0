import OeAware.Manager.Views

/-! @src src/plugin_mgr/instance_run_handler.cpp | name:topicState and subscibers |
    scheme:state-machine

    `topicState` is keyed by the three parts of a topic, the subscriber sets by the type string that
    joins them. The two agree on every topic without `:` along every run, whatever is published,
    refused or swept meanwhile: the flag is set together with the first subscriber, and the sweep
    that follows the erasure of the last one clears it. -/

namespace OeAware
open Schemes

/-- The flag of `T` is set exactly when `T` has a subscriber. -/
def Agree (T : Topic) (s : State) : Prop := s.flag T = true ↔ s.subs T.getType ≠ []

/-- The step subscribes to a topic with a `:` in it that is taken for `T`. -/
def Action.Aliases (T : Topic) : Action → Prop
  | .message (.SUBSCRIBE topic _) _ => ¬ topic.NoColon ∧ getTopicFromType topic.getType = T
  | _ => False

instance (T : Topic) : ∀ a : Action, Decidable (a.Aliases T)
  | .message (.SUBSCRIBE topic _) _ =>
    inferInstanceAs (Decidable (¬ topic.NoColon ∧ getTopicFromType topic.getType = T))
  | .message (.ENABLED _ _) _ => isFalse id
  | .message (.DISABLED _) _ => isFalse id
  | .message (.DISABLED_FORCE _) _ => isFalse id
  | .message (.UNSUBSCRIBE _ _) _ => isFalse id
  | .message (.UNSUBSCRIBE_SDK _) _ => isFalse id
  | .message (.PUBLISH_DATA _) _ => isFalse id
  | .message (.PUBLISH _) _ => isFalse id
  | .message .SHUTDOWN _ => isFalse id
  | .tick => isFalse id
  | .load _ _ => isFalse id
  | .remove _ => isFalse id
  | .reorder _ => isFalse id

theorem ne_nil_iff_exists_mem {α : Type} {l : List α} : l ≠ [] ↔ ∃ x, x ∈ l :=
  ⟨List.exists_mem_of_ne_nil l, fun ⟨_, h⟩ => List.ne_nil_of_mem h⟩

theorem subs_ne_nil_congr {s s' : State} {type : Str}
    (h : ∀ x, x ∈ s'.subs type ↔ x ∈ s.subs type) : s'.subs type ≠ [] ↔ s.subs type ≠ [] := by
  simp only [ne_nil_iff_exists_mem, h]

theorem flag_iff_find {s : State} {T : Topic} :
    s.flag T = true ↔ s.topicState.find T = some true := by
  unfold State.flag
  cases s.topicState.find T <;> simp

theorem subs_ne_nil_iff_find {s : State} {type : Str} :
    s.subs type ≠ [] ↔ ∃ set, s.subscibers.find type = some set ∧ set.elems ≠ [] := by
  unfold State.subs
  cases s.subscibers.find type <;> simp

/-- What an unsubscription does to the two tables: a flag that stays has a subscriber left, and one
    that goes has none. -/
theorem unsubscribe_topics {s s' : State} {type x : Str} (he : s.unsubscribe type x = .ok s')
    {T : Topic} (hsub : s.flag T = true → s.subs T.getType ≠ []) :
    (s'.flag T = true → s'.subs T.getType ≠ []) ∧
    (s.flag T = true → s'.flag T = false → s'.subs T.getType = []) := by
  have hsw := updateInstance_swept he
  have hsubs : s'.subs T.getType = (s.eraseSub type x).subs T.getType :=
    subs_congr hsw.subscibers _
  rw [hsubs]
  refine ⟨fun hf => ?_, fun hf hf' => ?_⟩
  · have hcount := updateInstance_flag he hf
    exact (State.count_eraseSub s type x _ (hsub (hsw.flag T hf))).mp hcount
  · have hcount := hsw.dropped T hf hf'
    by_contra hne
    rw [(State.count_eraseSub s type x _ (hsub hf)).mpr hne] at hcount; cases hcount

theorem Agree.unsubscribe {T : Topic} {s s' : State} {type x : Str} (h : Agree T s)
    (he : s.unsubscribe type x = .ok s') : Agree T s' := by
  obtain ⟨hkept, hgone⟩ := unsubscribe_topics he (T := T) h.mp
  refine ⟨hkept, fun hne => ?_⟩
  -- whoever is left was there before, so the flag was set and has not been cleared
  by_contra hf
  obtain ⟨y, hy⟩ := List.exists_mem_of_ne_nil _ hne
  rw [subs_congr (updateInstance_swept he).subscibers, State.mem_subs_eraseSub] at hy
  exact hne (hgone (h.mpr (List.ne_nil_of_mem hy.1)) (Bool.eq_false_iff.mpr hf))

theorem Agree.step {T : Topic} (hT : T.NoColon) {s s' : State} {a : Action} (hs : StoreOk s)
    (h : Agree T s) (hok : ¬ a.Aliases T) (he : OeAware.step s a = .ok s') : Agree T s' := by
  cases step_topics hs he with
  | same a hsame =>
    exact (iff_of_eq (congrArg (· = true) (hsame.flag T))).trans
      (h.trans (subs_ne_nil_congr (hsame.subs _)).symm)
  | refused topic x ans p _ _ hflag hsubs =>
    exact (iff_of_eq (congrArg (· = true) (hflag T))).trans
      (h.trans (subs_ne_nil_congr (hsubs _)).symm)
  | subscribed topic x ans p _ _ hflag hsubs =>
    -- the subscription is to `T` by its parts exactly when it is to `T` by its type string
    have hkey : T = getTopicFromType topic.getType ↔ T.getType = topic.getType := by
      refine ⟨fun ht => ?_, fun ht => by rw [← ht, getTopicFromType_getType T hT]⟩
      have hn : topic.NoColon := by
        by_contra hn; exact hok ⟨hn, ht.symm⟩
      rw [ht, getTopicFromType_getType topic hn]
    have hne : s'.subs T.getType ≠ [] ↔ T.getType = topic.getType ∨ s.subs T.getType ≠ [] := by
      simp only [ne_nil_iff_exists_mem, hsubs]
      constructor
      · rintro ⟨y, ⟨ht, _⟩ | hy⟩
        · exact Or.inl ht
        · exact Or.inr ⟨y, hy⟩
      · rintro (ht | ⟨y, hy⟩)
        · exact ⟨x, Or.inl ⟨ht, rfl⟩⟩
        · exact ⟨y, Or.inr hy⟩
    rw [Agree, hflag, hkey, hne]
    exact or_congr Iff.rfl h
  | unsubscribed m ans r hm hh =>
    exact unsubscribed_induct (P := Agree T) (fun _ _ _ _ h he => h.unsubscribe he) hm h hh

end OeAware

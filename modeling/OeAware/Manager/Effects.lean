import OeAware.Manager.Plugins

/-! @src src/plugin_mgr/instance_run_handler.cpp | name:what each operation does |
    scheme:state-machine

    Every operation of the handler is said once as a record update, and every handler function once
    as the list of its possible outcomes. The invariants of the later modules are read off these
    statements; none of them unfolds a handler function again. -/

namespace OeAware
open Schemes

/-! ### Histories -/

theorem openIn_append_close (p q : InstancePtr) (u : Topic) (t : ℕ) (cs : List CallRecord) :
    ∀ l : List Topic, openIn q u (l.map (fun v => (⟨t, p, .closeTopic v⟩ : CallRecord)) ++ cs) =
      (openIn q u cs && !decide (p = q ∧ u ∈ l))
  | [] => by simp
  | v :: l => by
    rw [List.map_cons, List.cons_append, openIn]
    by_cases h : p = q ∧ v = u
    · simp [h]
    · simp only [h, if_false, openIn_append_close p q u t cs l, List.mem_cons]
      congr 2
      rw [decide_eq_decide]
      constructor
      · exact fun ⟨hp, hm⟩ => ⟨hp, Or.inr hm⟩
      · rintro ⟨hp, rfl | hm⟩
        · exact absurd ⟨hp, rfl⟩ h
        · exact ⟨hp, hm⟩

namespace State

theorem foldl_close (p : InstancePtr) : ∀ (l : List Str) (s : State),
    l.foldl (fun s type => s.call p (.closeTopic (getTopicFromType type))) s =
      { s with calls := ((l.reverse.map getTopicFromType).map
        (fun t => (⟨s.time, p, .closeTopic t⟩ : CallRecord))) ++ s.calls }
  | [], s => rfl
  | type :: l, s => by
    rw [List.foldl_cons, foldl_close p l]
    simp [call]

/-! ### Updates as record updates -/

/-- The topics that `Instance::Disable` closes at the interface of `p`. -/
def closedBy (s : State) (p : InstancePtr) : List Topic :=
  (s.heap p).openTopics.elems.map getTopicFromType

theorem closeInstance_eq (s : State) (p : InstancePtr) : s.closeInstance p =
    { s with
      heap := fun q => if q = p then { s.heap q with enabled := false } else s.heap q
      calls := ⟨s.time, p, .disable⟩ :: ((s.closedBy p).reverse.map
        (fun t => (⟨s.time, p, .closeTopic t⟩ : CallRecord)) ++ s.calls) } := by
  rw [closeInstance, disable, foldl_close]
  simp [call, modify, closedBy, List.map_reverse]

theorem disableInstance_some {s : State} {name : Str} {p : InstancePtr}
    (hp : s.getInstance name = some p) : s.disableInstance name = s.closeInstance p := by
  rw [disableInstance, hp]; rfl

theorem disableInstance_none {s : State} {name : Str} (hp : s.getInstance name = none) :
    s.disableInstance name = s := by rw [disableInstance, hp]

theorem openTopic_eq (s : State) (p : InstancePtr) (topic : Topic) (ret : Result) :
    s.openTopic p topic ret =
    { s with
      heap := fun q => if q = p ∧ ret.code = some OK then
        { s.heap q with openTopics := (s.heap q).openTopics.insert topic.getType } else s.heap q
      calls := ⟨s.time, p, .openTopic topic ret⟩ :: s.calls } := by
  unfold openTopic
  by_cases h : ret.code = some OK <;> simp [h, call, modify]

theorem subscribed_eq (s : State) (p : InstancePtr) (topic : Topic) (type subscriber : Str) :
    s.subscribed p topic type subscriber =
    { s.addSub type subscriber with
      topicRunOnce :=
        if s.runOnce p then s.topicRunOnce ++ [(topic, subscriber)] else s.topicRunOnce } := by
  unfold subscribed
  by_cases h : s.runOnce p = true
  · have h' : (s.addSub type subscriber).runOnce p = true := h
    simp only [h, h', if_true]; rfl
  · have h' : ¬ (s.addSub type subscriber).runOnce p = true := h
    simp only [h, h']; rfl

/-! ### What is open, and when it ran -/

theorem openAt_openTopic (s : State) (p q : InstancePtr) (t u : Topic) (ret : Result) :
    (s.openTopic p t ret).openAt q u = if p = q ∧ t = u then !ret.failed else s.openAt q u := by
  rw [openTopic_eq]; rfl

theorem openAt_closeTopic (s : State) (p q : InstancePtr) (t u : Topic) :
    (s.closeTopic p t).openAt q u = if p = q ∧ t = u then false else s.openAt q u := rfl

theorem openAt_closeInstance (s : State) (p q : InstancePtr) (u : Topic) :
    (s.closeInstance p).openAt q u = (s.openAt q u && !decide (p = q ∧ u ∈ s.closedBy p)) := by
  rw [closeInstance_eq]
  simp only [openAt, openIn, openIn_append_close, List.mem_reverse]

theorem runs_closeInstance (s : State) (p q : InstancePtr) :
    (s.closeInstance p).runs q = s.runs q := by
  rw [closeInstance_eq]
  simp [runs, runsIn]

theorem runs_openTopic (s : State) (p q : InstancePtr) (t : Topic) (ret : Result) :
    (s.openTopic p t ret).runs q = s.runs q := by
  rw [openTopic_eq]
  simp [runs, runsIn]

/-! ### Who is enabled -/

theorem enabled_closeInstance (s : State) (p q : InstancePtr) :
    (s.closeInstance p).enabled q = (s.enabled q && !decide (q = p)) := by
  rw [closeInstance_eq]
  by_cases h : q = p <;> simp [enabled, h]

theorem enabled_openTopic (s : State) (p q : InstancePtr) (t : Topic) (ret : Result) :
    (s.openTopic p t ret).enabled q = s.enabled q := by
  rw [openTopic_eq]
  by_cases h : q = p ∧ ret.code = some OK <;> simp [enabled, h]

theorem enabled_closeTopic (s : State) (p q : InstancePtr) (t : Topic) :
    (s.closeTopic p t).enabled q = s.enabled q := by
  by_cases h : q = p <;> simp [closeTopic, call, modify, enabled, h]

theorem enabled_enableOk (s : State) (p q : InstancePtr) :
    (s.enableOk p).enabled q = (s.enabled q || decide (q = p)) := by
  by_cases h : q = p <;> simp [enableOk, push, modify, enabled, h]

/-! ### Flags and subscribers -/

@[simp] theorem flag_touch (s : State) (t u : Topic) : (s.touch t).flag u = s.flag u := by
  simp only [flag, touch, UMap.find_insertNew]
  by_cases h : u = t ∧ s.topicState.count t = false
  · have hn : s.topicState.find u = none := by
      rw [h.1]; exact Option.not_isSome_iff_eq_none.mp (Bool.eq_false_iff.mp h.2)
    rw [if_pos h, hn]; rfl
  · rw [if_neg h]

theorem flag_setFlag (s : State) (t u : Topic) (b : Bool) :
    (s.setFlag t b).flag u = if u = t then b else s.flag u := by
  simp only [flag, setFlag, UMap.find_insert]
  split <;> rfl

theorem mem_keys_of_flag {s : State} {t : Topic} (h : s.flag t = true) :
    t ∈ s.topicState.keys := by
  rw [UMap.mem_keys]
  cases hf : s.topicState.find t with
  | none => simp [flag, hf] at h
  | some b => rfl

theorem mem_subs_addSub (s : State) (type x type' y : Str) :
    y ∈ (s.addSub type x).subs type' ↔ (type' = type ∧ y = x) ∨ y ∈ s.subs type' := by
  by_cases h : type' = type
  · subst h
    cases hf : s.subscibers.find type' <;> simp [subs, addSub, hf]
  · simp [subs, addSub, UMap.find_insert, h]

theorem find_eraseSub_ne (s : State) (type x type' : Str) (h : type' ≠ type) :
    (s.eraseSub type x).subscibers.find type' = s.subscibers.find type' := by
  unfold eraseSub
  dsimp only
  split
  · rw [UMap.find_erase, if_neg h]
  · rw [UMap.find_insert, if_neg h]

theorem find_eraseSub_self (s : State) (type x : Str) :
    (s.eraseSub type x).subscibers.find type =
      let set := ((s.subscibers.find type).getD .empty).erase x
      if set.elems.isEmpty then none else some set := by
  unfold eraseSub
  dsimp only
  split
  · rw [UMap.find_erase, if_pos rfl]
  · rw [UMap.find_insert, if_pos rfl]

theorem mem_subs_eraseSub (s : State) (type x type' y : Str) :
    y ∈ (s.eraseSub type x).subs type' ↔ y ∈ s.subs type' ∧ ¬ (type' = type ∧ y = x) := by
  by_cases h : type' = type
  · subst h
    have hm : y ∈ s.subs type' ↔ y ∈ ((s.subscibers.find type').getD .empty).elems := by
      cases hf : s.subscibers.find type' <;> simp [subs, hf]
    rw [hm, subs, find_eraseSub_self]
    generalize (s.subscibers.find type').getD .empty = set
    by_cases he : (set.erase x).elems = []
    · have hn : ¬ (y ≠ x ∧ y ∈ set.elems) := by rw [← USet.mem_erase, he]; simp
      simp only [he, List.isEmpty_nil, if_true, List.not_mem_nil, true_and, false_iff]
      exact fun hy => hn ⟨hy.2, hy.1⟩
    · simp [he, and_comm]
  · simp [subs, find_eraseSub_ne _ _ _ _ h, h]

/-- Erasing a subscriber leaves an entry under the type only with someone in it. -/
theorem count_eraseSub (s : State) (type x type' : Str) (hne : s.subs type' ≠ []) :
    (s.eraseSub type x).subscibers.count type' = true ↔ (s.eraseSub type x).subs type' ≠ [] := by
  by_cases h : type' = type
  · subst h
    simp only [UMap.count, subs, find_eraseSub_self]
    generalize ((s.subscibers.find type').getD .empty).erase x = set
    by_cases he : set.elems = [] <;> simp [he]
  · rw [subs] at hne
    simp only [UMap.count, subs, find_eraseSub_ne _ _ _ _ h]
    cases hf : s.subscibers.find type' with
    | none => simp [hf] at hne
    | some set => simpa [hf] using hne

end State

theorem subs_touchSubs (s : State) (type type' : Str) :
    (s.touchSubs type).subs type' = s.subs type' := by
  simp only [State.subs, State.touchSubs, UMap.find_insertNew]
  by_cases h : type' = type ∧ s.subscibers.count type = false
  · have hn : s.subscibers.find type' = none := by
      rw [h.1]; exact Option.not_isSome_iff_eq_none.mp (Bool.eq_false_iff.mp h.2)
    rw [if_pos h, hn]; rfl
  · rw [if_neg h]

end OeAware

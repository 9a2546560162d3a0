import OeAware.Manager.Sweep
import OeAware.Schemes.Loops

/-! @src src/plugin_mgr/event/load_handler.cpp, remove_handler.cpp, instance_run_handler.cpp |
    name:steps of the whole machine | scheme:state-machine

    The same inversion for the manager thread's `LOAD` and `REMOVE` and for `reorder`; what every
    step leaves alone; and the first invariant: in every reachable state the store files existing
    objects under their own names and knows only objects of loaded plugins. -/

namespace OeAware
open Schemes

/-! ### `LOAD` -/

/-- The effect of a successful load. -/
structure Loaded (s s' : State) (name : Str) (interfaces : List Interface) : Prop where
  eq : s' = { s with heap := s'.heap, next := s'.next, memoryStore := s'.memoryStore }
  next : s'.next = s.next + interfaces.length
  old : ∀ q : ℕ, ¬ (s.next ≤ q ∧ q < s'.next) → s'.heap q = s.heap q
  new : ∀ q : ℕ, s.next ≤ q → q < s'.next → ∃ i ∈ interfaces, s'.heap q = State.newInstance name i
  kept : ∀ n p, s.getInstance n = some p → s'.getInstance n = some p
  only : ∀ n (p : ℕ), s'.getInstance n = some p →
    s.getInstance n = some p ∨ (s.next ≤ p ∧ p < s'.next ∧ (s'.heap p).name = n)
  fresh : s.memoryStore.plugins.find name = none
  plugin : s'.memoryStore.plugins.find name =
    some ⟨name, List.range' s.next interfaces.length⟩
  plugins : ∀ P, P ≠ name → s'.memoryStore.plugins.find P = s.memoryStore.plugins.find P

/-- `AddInstance` for a list of objects: names already filed stay, new ones are the objects' own. -/
theorem foldl_addInstance : ∀ (ptrs : List InstancePtr) (s : State),
    ptrs.foldl State.addInstance s = { s with memoryStore :=
      { s.memoryStore with
        instances := (ptrs.foldl State.addInstance s).memoryStore.instances } } ∧
    (∀ n p, s.getInstance n = some p → (ptrs.foldl State.addInstance s).getInstance n = some p) ∧
    (∀ n p, (ptrs.foldl State.addInstance s).getInstance n = some p →
      s.getInstance n = some p ∨ (p ∈ ptrs ∧ (s.heap p).name = n))
  | [], s => ⟨rfl, fun _ _ h => h, fun _ _ h => Or.inl h⟩
  | q :: ptrs, s => by
    have hfind : ∀ n, (s.addInstance q).getInstance n =
        if n = (s.heap q).name ∧ s.memoryStore.instances.count (s.heap q).name = false then some q
        else s.getInstance n := fun n => UMap.find_insertNew ..
    obtain ⟨heq, hkept, honly⟩ := foldl_addInstance ptrs (s.addInstance q)
    refine ⟨?_, fun n p h => ?_, fun n p h => ?_⟩
    · rw [List.foldl_cons, heq]; rfl
    · refine hkept n p ?_
      rw [hfind, if_neg, h]
      rintro ⟨rfl, hc⟩
      have : s.memoryStore.instances.find (s.heap q).name = some p := h
      rw [UMap.count, this] at hc; cases hc
    · rcases honly n p h with h1 | ⟨hm, hn⟩
      · rw [hfind] at h1
        split at h1
        · rename_i hc
          cases h1
          exact Or.inr ⟨List.mem_cons_self .., hc.1.symm⟩
        · exact Or.inl h1
      · exact Or.inr ⟨List.mem_cons_of_mem _ hm, hn⟩

theorem heap_allocate (s : State) (name : Str) (interfaces : List Interface) (q : ℕ) :
    (¬ (s.next ≤ q ∧ q < s.next + interfaces.length) →
      (s.allocate name interfaces).heap q = s.heap q) ∧
    (s.next ≤ q → q < s.next + interfaces.length →
      ∃ i ∈ interfaces, (s.allocate name interfaces).heap q = State.newInstance name i) := by
  simp only [State.allocate]
  refine ⟨fun h => ?_, fun h1 h2 => ?_⟩
  · split
    · rename_i i hi
      have := (List.getElem?_eq_some_iff.mp hi).1
      rw [if_neg (by omega)]
    · rfl
  · have hlt : q - s.next < interfaces.length := by omega
    rw [List.getElem?_eq_getElem hlt]
    exact ⟨interfaces[q - s.next], List.getElem_mem hlt, if_pos h1⟩

theorem loaded_addPlugin {s : State} {name : Str} (interfaces : List Interface)
    (hc : s.memoryStore.plugins.count name = false) :
    Loaded s ((List.range' s.next interfaces.length).foldl State.addInstance
      ((s.allocate name interfaces).addPlugin name
        ⟨name, List.range' s.next interfaces.length⟩)) name interfaces := by
  set ptrs := List.range' s.next interfaces.length with hptrs
  set s1 := (s.allocate name interfaces).addPlugin name ⟨name, ptrs⟩ with hs1
  obtain ⟨heq, hkept, honly⟩ := foldl_addInstance ptrs s1
  have hnone : s.memoryStore.plugins.find name = none :=
    Option.not_isSome_iff_eq_none.mp (Bool.eq_false_iff.mp hc)
  have hplugins : ∀ P, s1.memoryStore.plugins.find P =
      if P = name then some ⟨name, ptrs⟩ else s.memoryStore.plugins.find P := by
    intro P
    refine (UMap.find_insertNew ..).trans ?_
    have : (s.allocate name interfaces).memoryStore.plugins.count name = false := hc
    simp only [this, and_true]
    rfl
  have hheap : (ptrs.foldl State.addInstance s1).heap = (s.allocate name interfaces).heap := by
    rw [heq]; rfl
  have hnext : (ptrs.foldl State.addInstance s1).next = s.next + interfaces.length := by
    rw [heq]; rfl
  refine ⟨by rw [heq]; rfl, hnext, fun q hq => ?_, fun q h1 h2 => ?_, hkept, fun n p h => ?_, hnone,
    ?_, fun P hP => ?_⟩
  · rw [hheap]; exact (heap_allocate s name interfaces q).1 (by rwa [hnext] at hq)
  · rw [hheap]; exact (heap_allocate s name interfaces q).2 h1 (by rwa [hnext] at h2)
  · rcases honly n p h with h1 | ⟨hm, hn⟩
    · exact Or.inl h1
    · obtain ⟨h1, h2⟩ := List.mem_range'_1.mp hm
      exact Or.inr ⟨h1, by rw [hnext]; exact h2, by rw [hheap]; exact hn⟩
  · rw [heq]; exact (hplugins name).trans (if_pos rfl)
  · rw [heq]; exact (hplugins P).trans (if_neg hP)

theorem loadPlugin_cases (s : State) (name : Str) (file : PluginFile) :
    (s.loadPlugin name file).1 = s ∨
    ∃ interfaces, file.interfaceList = some interfaces ∧
      Loaded s (s.loadPlugin name file).1 name interfaces := by
  unfold State.loadPlugin
  split
  · exact Or.inl rfl
  split
  · exact Or.inl rfl
  split
  · exact Or.inl rfl
  split
  · exact Or.inl rfl
  rename_i hc
  split
  · exact Or.inl rfl
  rename_i interfaces hi
  exact Or.inr ⟨interfaces, hi, loaded_addPlugin interfaces (Bool.eq_false_iff.mpr hc)⟩

/-! ### `REMOVE` -/

/-- The effect of a successful removal. -/
structure Removed (s s' : State) (name : Str) (plugin : Plugin) : Prop where
  eq : s' = { s with memoryStore := s'.memoryStore }
  found : s.memoryStore.plugins.find name = some plugin
  disabled : plugin.instances.any s.enabled = false
  getInstance : ∀ n, s'.getInstance n =
    if n ∈ s.instanceNames plugin then none else s.getInstance n
  plugins : ∀ P, s'.memoryStore.plugins.find P =
    if P = name then none else s.memoryStore.plugins.find P

theorem foldl_deleteInstance : ∀ (names : List Str) (s : State),
    names.foldl State.deleteInstance s = { s with memoryStore :=
      { s.memoryStore with
        instances := (names.foldl State.deleteInstance s).memoryStore.instances } } ∧
    (∀ n, (names.foldl State.deleteInstance s).getInstance n =
      if n ∈ names then none else s.getInstance n)
  | [], s => ⟨rfl, fun _ => rfl⟩
  | m :: names, s => by
    obtain ⟨heq, hget⟩ := foldl_deleteInstance names (s.deleteInstance m)
    refine ⟨by rw [List.foldl_cons, heq]; rfl, fun n => ?_⟩
    have hm : (s.deleteInstance m).getInstance n = if n = m then none else s.getInstance n :=
      UMap.find_erase ..
    rw [List.foldl_cons, hget, hm]
    by_cases h1 : n ∈ names <;> by_cases h2 : n = m <;> simp [h1, h2]

theorem remove_cases (s : State) (name : Str) :
    (s.remove name).1 = s ∨ ∃ plugin, Removed s (s.remove name).1 name plugin := by
  unfold State.remove
  cases hf : s.memoryStore.plugins.find name with
  | none => exact Or.inl rfl
  | some plugin =>
    dsimp only
    split
    · exact Or.inl rfl
    · rename_i hen
      obtain ⟨heq, hget⟩ := foldl_deleteInstance (s.instanceNames plugin) s
      refine Or.inr ⟨plugin, ?_, hf, Bool.eq_false_iff.mpr hen, hget, fun P => ?_⟩
      · simp only [State.deletePlugin]; rw [heq]
      · simp only [State.deletePlugin]; rw [heq]; exact UMap.find_erase ..

/-! ### `reorder` -/

theorem find_subscibers_reorder (s : State) (o : Order) (type : Str) :
    (s.reorder o).subscibers.find type =
      (s.subscibers.find type).map (fun set => set.reorder (o.subscribersOf type)) := by
  simp [State.reorder]

theorem mem_subs_reorder (s : State) (o : Order) (type x : Str) :
    x ∈ (s.reorder o).subs type ↔ x ∈ s.subs type := by
  rw [State.subs, find_subscibers_reorder, State.subs]
  cases s.subscibers.find type <;> simp

theorem flag_reorder (s : State) (o : Order) (t : Topic) : (s.reorder o).flag t = s.flag t := by
  simp [State.flag, State.reorder]

theorem mem_keys_reorder (s : State) (o : Order) (t : Topic) :
    t ∈ (s.reorder o).topicState.keys ↔ t ∈ s.topicState.keys := UMap.mem_keys_reorder ..

theorem queue_reorder (s : State) (o : Order) :
    (s.reorder o).scheduleQueue.Perm s.scheduleQueue ∧
    ((s.reorder o).scheduleQueue = s.scheduleQueue ∨
      (s.reorder o).scheduleQueue.Pairwise (fun a b => ¬ s.lt a b)) := by
  simp only [State.reorder]
  split
  · rename_i h; exact ⟨h.1, Or.inr h.2⟩
  · exact ⟨List.Perm.refl _, Or.inl rfl⟩

theorem frame_reorder (s : State) (o : Order) : Frame s (s.reorder o) :=
  ⟨rfl, rfl, rfl, fun _ => rfl, fun _ => rfl⟩

/-! ### Messages and ticks leave the store alone -/

theorem Delivered.frame {s s' : State} (h : Delivered s s') : Frame s s' := by
  rw [h.eq]; exact ⟨rfl, rfl, rfl, fun _ => rfl, fun _ => rfl⟩

theorem RoundOutcome.frame {s s' : State} {e : ScheduleInstance} {rest : List ScheduleInstance}
    (h : RoundOutcome s e rest s') : Frame s s' := by
  have h0 : Frame s { s with scheduleQueue := rest } :=
    ⟨rfl, rfl, rfl, fun _ => rfl, fun _ => rfl⟩
  cases h with
  | dropped => exact h0
  | once => exact h0.trans ((Frame.call _ _ _).trans (Frame.closeInstance _ _))
  | again => exact h0.trans ((Frame.call _ _ _).trans (Frame.push _ _))

theorem schedule_frame {s s' : State} (h : s.schedule = .ok s') : Frame s s' := by
  refine (scheduleLoop_induct (P := Frame s) ?_ _ (Frame.refl s) h).1
  intro s1 s2 h1 h2
  obtain ⟨e, rest, _, _, ho⟩ := scheduleOne_outcome h2
  exact h1.trans ho.frame

theorem SubscribeOutcome.frame {s : State} {type x : Str} {ans : Answers} {res : State × Result}
    (h : SubscribeOutcome s type x ans res) : Frame s res.1 := by
  cases h with
  | missing => exact Frame.refl s
  | notEnabled p => exact Frame.call s p _
  | known p s1 r _ h1 =>
    exact h1.frame.trans ((Frame.touch s1 _).trans (Frame.subscribed _ _ _ _ _))
  | refused p s1 _ h1 =>
    exact h1.frame.trans ((Frame.touch s1 _).trans
      ((Frame.openTopic _ _ _ _).trans (Frame.closeInstance _ _)))
  | opened p s1 _ h1 =>
    exact h1.frame.trans ((Frame.touch s1 _).trans ((Frame.openTopic _ _ _ _).trans
      ((Frame.setFlag _ _ _).trans (Frame.subscribed _ _ _ _ _))))

theorem PublishOutcome.frame {s : State} {d : DataList} {ans : Answers} {res : State × Result}
    (h : PublishOutcome s d ans res) : Frame s res.1 := by
  cases h with
  | rejected => exact Frame.refl s
  | notEnabled p => exact (Frame.call s p _).trans (Frame.call _ p _)
  | noTopic p s1 r _ _ h1 => exact (Frame.call s p _).trans h1.frame
  | topic p s1 r _ _ h1 => exact (Frame.call s p _).trans (h1.frame.trans (Frame.openTopic _ _ _ _))

theorem unsubscribe_frame {s s' : State} {type x : Str} (h : s.unsubscribe type x = .ok s') :
    Frame s s' := (Frame.eraseSub s type x).trans (updateInstance_swept h).frame

theorem unsubscribeSdk_frame {s s' : State} {x : Str} (h : s.unsubscribeSdk x = .ok s') :
    Frame s s' := by
  refine unsubscribeLoop_induct (P := Frame s) ?_ _ (Frame.refl s) h
  intro s1 s2 type h1 _ h2
  exact h1.trans (unsubscribe_frame h2)

theorem handle_frame {s s' : State} {m : InstanceRunMessage} {ans : Answers} {r : Result}
    (hs : StoreOk s) (h : s.handle m ans = .ok (s', r)) : Frame s s' := by
  have hdis : ∀ name, Frame s (s.disableInstance name) := fun name =>
    disableInstance_induct (Frame.refl s) (fun p _ => Frame.closeInstance s p)
  cases m with
  | ENABLED name params =>
    simp only [State.handle, Except.ok.injEq] at h
    have ho := enable_outcome s name params ans.enable
    rw [h] at ho
    cases ho with
    | missing => exact Frame.refl s
    | failed p => exact Frame.call s p _
    | enabled p => exact (Frame.call s p _).trans (Frame.enableOk _ p)
  | DISABLED name => cases h; exact hdis name
  | DISABLED_FORCE name => cases h; exact hdis name
  | SUBSCRIBE topic x =>
    simp only [State.handle, Except.ok.injEq] at h
    have := (subscribe_outcome hs topic.getType x ans).frame
    rwa [h] at this
  | UNSUBSCRIBE topic x =>
    obtain ⟨s1, h1, he⟩ := map_ok h
    cases he; exact unsubscribe_frame h1
  | UNSUBSCRIBE_SDK x =>
    obtain ⟨s1, h1, he⟩ := map_ok h
    cases he; exact unsubscribeSdk_frame h1
  | PUBLISH_DATA d =>
    obtain ⟨s1, h1, he⟩ := map_ok h
    cases he
    exact (Frame.touchSubs s _).trans (deliver_delivered d _ h1).frame
  | PUBLISH d =>
    simp only [State.handle, Except.ok.injEq] at h
    have := (publish_outcome s d ans).frame
    rwa [h] at this
  | SHUTDOWN => cases h; exact Frame.refl s

/-! ### The store invariant -/

theorem StoreOk.loaded {s s' : State} {name : Str} {interfaces : List Interface} (hs : StoreOk s)
    (h : Loaded s s' name interfaces) : StoreOk s' where
  named n p hp := by
    rcases h.only n p hp with h1 | ⟨_, _, hn⟩
    · have := hs.alloc n p h1
      rw [h.old p (by omega)]; exact hs.named n p h1
    · exact hn
  alloc n p hp := by
    rcases h.only n p hp with h1 | ⟨_, h2, _⟩
    · have := hs.alloc n p h1
      rw [h.next]; omega
    · exact h2
  owned n p hp := by
    rcases h.only n p hp with h1 | ⟨h1, h2, _⟩
    · obtain ⟨P, plugin, hP, hm⟩ := hs.owned n p h1
      have hne : P ≠ name := fun he => by rw [he, h.fresh] at hP; cases hP
      exact ⟨P, plugin, by rw [h.plugins P hne]; exact hP, hm⟩
    · rw [h.next] at h2
      exact ⟨name, _, h.plugin, List.mem_range'_1.mpr ⟨h1, h2⟩⟩

theorem StoreOk.removed {s s' : State} {name : Str} {plugin : Plugin} (hs : StoreOk s)
    (h : Removed s s' name plugin) : StoreOk s' := by
  have hback : ∀ n p, s'.getInstance n = some p →
      n ∉ s.instanceNames plugin ∧ s.getInstance n = some p := by
    intro n p hp
    rw [h.getInstance] at hp
    split at hp
    · cases hp
    · rename_i hn; exact ⟨hn, hp⟩
  have hheap : s'.heap = s.heap := by rw [h.eq]
  refine ⟨fun n p hp => ?_, fun n p hp => ?_, fun n p hp => ?_⟩
  · rw [hheap]; exact hs.named n p (hback n p hp).2
  · rw [h.eq]; exact hs.alloc n p (hback n p hp).2
  · obtain ⟨hn, h1⟩ := hback n p hp
    obtain ⟨P, pl, hP, hm⟩ := hs.owned n p h1
    -- an object of the removed plugin has lost its name
    have hne : P ≠ name := by
      rintro rfl
      rw [h.found] at hP
      cases hP
      exact hn (List.mem_map.mpr ⟨p, hm, hs.named n p h1⟩)
    exact ⟨P, pl, by rw [h.plugins, if_neg hne]; exact hP, hm⟩

theorem storeOk_init : StoreOk State.init where
  named n p h := by cases h
  alloc n p h := by cases h
  owned n p h := by cases h

theorem storeOk_step {s s' : State} {a : Action} (hs : StoreOk s) (h : step s a = .ok s') :
    StoreOk s' := by
  cases a with
  | message m ans =>
    obtain ⟨⟨s1, r⟩, h1, rfl⟩ := map_ok h
    exact hs.of_frame (handle_frame hs h1)
  | tick =>
    obtain ⟨s1, h1, rfl⟩ := map_ok h
    exact hs.of_frame ((schedule_frame h1).trans ⟨rfl, rfl, rfl, fun _ => rfl, fun _ => rfl⟩)
  | load name file =>
    cases h
    rcases loadPlugin_cases s name file with he | ⟨interfaces, _, hl⟩
    · rw [he]; exact hs
    · exact hs.loaded hl
  | remove name =>
    cases h
    rcases remove_cases s name with he | ⟨plugin, hr⟩
    · rw [he]; exact hs
    · exact hs.removed hr
  | reorder o => cases h; exact hs.of_frame (frame_reorder s o)

theorem storeOk_runs {ok : State → Action → Prop} {s : State} (h : RunsOf ok s) : StoreOk s :=
  Runs.invariant storeOk_init (fun _ _ _ hs _ he => storeOk_step hs he) h

/-! ### A plugin for concrete runs -/

/-- A plugin that accepts whatever it is asked. -/
def accepting : Answers := ⟨⟨some OK, []⟩, ⟨some OK, []⟩⟩

/-- A plugin that starts but opens no topic. -/
def refusing : Answers := ⟨⟨some OK, []⟩, ⟨some FAILED, []⟩⟩

def sampleTopic (name : String) : Topic := ⟨str name, str "t", []⟩

/-- A plugin file with the instances `i`, `j` and the run-once instance `k`. -/
def sampleLoad : Action :=
  let interface (name : String) (type : ℕ) : Interface :=
    ⟨str name, [sampleTopic name], 0, type, 20⟩
  .load (str "a.so") ⟨true, true, some [interface "i" 1, interface "j" 1, interface "k" 2]⟩

end OeAware

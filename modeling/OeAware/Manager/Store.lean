import OeAware.Manager.Machine

/-! @src src/plugin_mgr/memory_store.h, event/load_handler.cpp, event/remove_handler.cpp |
    name:MemoryStore, LoadPlugin, Remove | scheme:state-machine

    The store keeps plugins and instances in two maps. `LoadPlugin` fills them side by side, but
    `AddInstance` keeps the earlier entry of a name that is taken, and `Remove` deletes by name, so
    the maps agree only as long as every load brings names of its own.

        plugins:   a.so ──▶ [p, q]        b.so ──▶ [r]
        instances: name p ──▶ p   name q ──▶ q   name r ──▶ r      (one entry for each object) -/

namespace OeAware
open Schemes

namespace State

/-- The interfaces a load puts into the store; `none` when the load is rejected. -/
def loads (s : State) (name : Str) (file : PluginFile) : Option (List Interface) :=
  if file.fileExist && endWith name (str ".so") && file.checkPermission &&
    !s.memoryStore.plugins.count name then file.interfaceList else none

/-- `p` is an instance of the plugin loaded under the name `P`. -/
def Owns (s : State) (P : Str) (p : InstancePtr) : Prop :=
  ∃ plugin, s.memoryStore.plugins.find P = some plugin ∧ p ∈ plugin.instances

end State

/-- The instances of the loaded plugins are filed under their names, each in one plugin. -/
structure StoreExact (s : State) : Prop where
  filed : ∀ P p, s.Owns P p → s.getInstance (s.heap p).name = some p
  alloc : ∀ P (p : ℕ), s.Owns P p → p < s.next
  one : ∀ P Q p, s.Owns P p → s.Owns Q p → P = Q

/-- A load brings names that differ from each other and from all that are filed. -/
def LoadsNewNames (s : State) : Action → Prop
  | .load name file => ∀ interfaces ∈ s.loads name file,
      (interfaces.map (·.name)).Nodup ∧ ∀ i ∈ interfaces, s.isInstanceExist i.name = false
  | _ => True

instance (s : State) : ∀ a, Decidable (LoadsNewNames s a)
  | .load name file => inferInstanceAs (Decidable (∀ interfaces ∈ s.loads name file, _ ∧ _))
  | .message _ _ => isTrue trivial
  | .tick => isTrue trivial
  | .remove _ => isTrue trivial
  | .reorder _ => isTrue trivial

/-! ### Loading -/

/-- A load is rejected, or its objects are made and filed one after the other. -/
theorem loadPlugin_loads (s : State) (name : Str) (file : PluginFile) :
    (s.loads name file = none ∧ (s.loadPlugin name file).1 = s) ∨
    ∃ interfaces, s.loads name file = some interfaces ∧
      s.memoryStore.plugins.count name = false ∧
      (s.loadPlugin name file).1 = (List.range' s.next interfaces.length).foldl State.addInstance
        ((s.allocate name interfaces).addPlugin name
          ⟨name, List.range' s.next interfaces.length⟩) := by
  unfold State.loads State.loadPlugin
  cases file.fileExist <;> cases endWith name (str ".so") <;> cases file.checkPermission <;>
    cases s.memoryStore.plugins.count name <;> cases file.interfaceList <;> simp

/-- The `k`-th new object is made for the `k`-th interface. -/
theorem heap_allocate_add (s : State) (name : Str) (interfaces : List Interface) {k : ℕ}
    (h : k < interfaces.length) :
    (s.allocate name interfaces).heap (s.next + k) = State.newInstance name interfaces[k] := by
  simp [State.allocate, h]

/-- Objects whose names are free and differ are all filed. -/
theorem getInstance_foldl_addInstance : ∀ (ptrs : List InstancePtr) (s : State),
    (ptrs.map (fun p => (s.heap p).name)).Nodup →
    (∀ p ∈ ptrs, s.isInstanceExist (s.heap p).name = false) → ∀ p ∈ ptrs,
    (ptrs.foldl State.addInstance s).getInstance (s.heap p).name = some p
  | [], _, _, _, p, hp => by cases hp
  | q :: ptrs, s, hnd, hfree, p, hp => by
    obtain ⟨hq, hnd⟩ := List.nodup_cons.mp hnd
    have hcount := hfree q (List.mem_cons_self ..)
    have hfind : ∀ n, (s.addInstance q).getInstance n =
        if n = (s.heap q).name then some q else s.getInstance n := by
      intro n
      refine (UMap.find_insertNew ..).trans ?_
      rw [show s.memoryStore.instances.count (s.heap q).name = false from hcount]
      simp only [and_true]
      rfl
    rcases List.mem_cons.mp hp with rfl | hp
    · exact (foldl_addInstance ptrs (s.addInstance p)).2.1 _ _ (by rw [hfind, if_pos rfl])
    · refine getInstance_foldl_addInstance ptrs (s.addInstance q) hnd (fun r hr => ?_) p hp
      have hne : (s.heap r).name ≠ (s.heap q).name :=
        fun he => hq (List.mem_map.mpr ⟨r, hr, he⟩)
      have := hfree r (List.mem_cons_of_mem _ hr)
      have hsame := hfind (s.heap r).name
      rw [if_neg hne] at hsame
      exact (congrArg Option.isSome hsame).trans this

theorem owns_loaded {s s' : State} {name : Str} {interfaces : List Interface}
    (h : Loaded s s' name interfaces) (P : Str) (p : ℕ) :
    s'.Owns P p ↔ (P = name ∧ s.next ≤ p ∧ p < s'.next) ∨ (P ≠ name ∧ s.Owns P p) := by
  unfold State.Owns
  rw [h.next]
  by_cases hP : P = name
  · subst hP
    simp [h.plugin, List.mem_range'_1]
  · simp [hP, h.plugins P hP]

/-- A load that goes through: its effect, and the object made for each interface. -/
theorem loads_loaded {s : State} {name : Str} {file : PluginFile} {interfaces : List Interface}
    (h : s.loads name file = some interfaces) :
    Loaded s (s.loadPlugin name file).1 name interfaces ∧
    ∀ k (hk : k < interfaces.length),
      ((s.loadPlugin name file).1.heap (s.next + k)).name = interfaces[k].name := by
  rcases loadPlugin_loads s name file with ⟨hn, _⟩ | ⟨is, hs, hc, he⟩
  · rw [hn] at h; cases h
  · rw [hs] at h
    cases h
    rw [he]
    refine ⟨loaded_addPlugin interfaces hc, fun k hk => ?_⟩
    rw [(foldl_addInstance _ _).1]
    exact congrArg Instance.name (heap_allocate_add s name interfaces hk)

/-- Free and distinct names are all filed by the load that brings them. -/
theorem filed_loaded {s : State} {name : Str} {file : PluginFile} {interfaces : List Interface}
    (h : s.loads name file = some interfaces) (hok : LoadsNewNames s (.load name file)) {k : ℕ}
    (hk : k < interfaces.length) :
    (s.loadPlugin name file).1.getInstance interfaces[k].name = some (s.next + k) := by
  obtain ⟨hnd, hfree⟩ := hok interfaces h
  rcases loadPlugin_loads s name file with ⟨hn, _⟩ | ⟨is, hs, _, he⟩
  · rw [hn] at h; cases h
  · rw [hs] at h
    cases h
    have hname : ∀ j (hj : j < interfaces.length),
        ((s.allocate name interfaces).heap (s.next + j)).name = interfaces[j].name :=
      fun j hj => congrArg Instance.name (heap_allocate_add s name interfaces hj)
    have hmap : (List.range' s.next interfaces.length).map
        (fun p => ((s.allocate name interfaces).heap p).name) = interfaces.map (·.name) := by
      refine List.ext_getElem (by simp) (fun j h1 h2 => ?_)
      simp only [List.length_map, List.length_range'] at h1
      simp [hname j h1]
    rw [he, ← hname k hk]
    refine getInstance_foldl_addInstance _ _ (by rw [← hmap] at hnd; exact hnd) (fun p hp => ?_) _
      (List.mem_range'_1.mpr ⟨Nat.le_add_right .., Nat.add_lt_add_left hk _⟩)
    obtain ⟨h1, h2⟩ := List.mem_range'_1.mp hp
    obtain ⟨j, rfl⟩ := Nat.exists_eq_add_of_le h1
    have hj : j < interfaces.length := by omega
    have := hfree _ (List.getElem_mem hj)
    rw [← hname j hj] at this
    exact this

theorem StoreExact.loaded {s : State} {name : Str} {file : PluginFile}
    {interfaces : List Interface} (h : StoreExact s) (hl : s.loads name file = some interfaces)
    (hok : LoadsNewNames s (.load name file)) : StoreExact (s.loadPlugin name file).1 := by
  obtain ⟨hld, hname⟩ := loads_loaded hl
  have hnext := hld.next
  refine ⟨fun P p hp => ?_, fun P p hp => ?_, fun P Q p hp hq => ?_⟩
  · rcases (owns_loaded hld P p).mp hp with ⟨_, h1, h2⟩ | ⟨_, ho⟩
    · obtain ⟨k, rfl⟩ := Nat.exists_eq_add_of_le h1
      have hk : k < interfaces.length := by omega
      rw [hname k hk]
      exact filed_loaded hl hok hk
    · have := h.alloc P p ho
      rw [hld.old p (by omega)]
      exact hld.kept _ _ (h.filed P p ho)
  · rcases (owns_loaded hld P p).mp hp with ⟨_, _, h2⟩ | ⟨_, ho⟩
    · exact h2
    · have := h.alloc P p ho
      omega
  · rcases (owns_loaded hld P p).mp hp with ⟨rfl, h1, _⟩ | ⟨_, ho⟩ <;>
      rcases (owns_loaded hld Q p).mp hq with ⟨rfl, h2, _⟩ | ⟨_, ho'⟩
    · rfl
    · have := h.alloc Q p ho'
      omega
    · have := h.alloc P p ho
      omega
    · exact h.one P Q p ho ho'

/-- A load keeps the maps in step exactly when it brings names of its own. -/
theorem storeExact_load_iff {s : State} (hs : StoreOk s) (h : StoreExact s) (name : Str)
    (file : PluginFile) :
    StoreExact (s.loadPlugin name file).1 ↔ LoadsNewNames s (.load name file) := by
  refine ⟨fun h' interfaces hl => ?_, fun hok => ?_⟩
  · obtain ⟨hld, hname⟩ := loads_loaded hl
    have hnext := hld.next
    have hfiled : ∀ k (hk : k < interfaces.length),
        (s.loadPlugin name file).1.getInstance interfaces[k].name = some (s.next + k) := by
      intro k hk
      rw [← hname k hk]
      exact h'.filed name _ ((owns_loaded hld _ _).mpr (Or.inl ⟨rfl, by omega, by omega⟩))
    refine ⟨?_, fun i hi => ?_⟩
    · refine List.nodup_iff_injective_get.mpr (fun a b hab => ?_)
      have ha := hfiled a (by simpa using a.2)
      have hb := hfiled b (by simpa using b.2)
      simp only [List.get_eq_getElem, List.getElem_map] at hab
      rw [hab, hb] at ha
      exact Fin.ext (by have := Option.some.inj ha; omega)
    · obtain ⟨k, hk, rfl⟩ := List.getElem_of_mem hi
      -- an object filed before the load would have kept the name
      refine Bool.eq_false_iff.mpr (fun hex => ?_)
      obtain ⟨q, hq⟩ := Option.isSome_iff_exists.mp hex
      have hlt := hs.alloc _ q hq
      rw [Option.some.inj ((hld.kept _ _ hq).symm.trans (hfiled k hk))] at hlt
      exact Nat.not_lt.mpr (Nat.le_add_right s.next k) hlt
  · cases hl : s.loads name file with
    | some interfaces => exact h.loaded hl hok
    | none =>
      rcases loadPlugin_loads s name file with ⟨_, he⟩ | ⟨is, hs, _⟩
      · rw [he]; exact h
      · rw [hl] at hs; cases hs

/-! ### Removing -/

theorem owns_removed {s s' : State} {name : Str} {plugin : Plugin} (h : Removed s s' name plugin)
    (P : Str) (p : InstancePtr) : s'.Owns P p ↔ P ≠ name ∧ s.Owns P p := by
  unfold State.Owns
  rw [h.plugins]
  by_cases hP : P = name <;> simp [hP]

/-- The names a removal takes out of the store are those of objects of the plugin it removes. -/
theorem StoreExact.not_mem_names {s s' : State} {name P : Str} {plugin : Plugin} {p : InstancePtr}
    (h : StoreExact s) (hr : Removed s s' name plugin) (hp : s.Owns P p) (hP : P ≠ name) :
    (s.heap p).name ∉ s.instanceNames plugin := by
  intro hm
  obtain ⟨q, hq, he⟩ := List.mem_map.mp hm
  have hown : s.Owns name q := ⟨plugin, hr.found, hq⟩
  have h1 := h.filed name q hown
  rw [he, h.filed P p hp] at h1
  cases h1
  exact hP (h.one P name p hp hown)

theorem StoreExact.removed {s s' : State} {name : Str} {plugin : Plugin} (h : StoreExact s)
    (hr : Removed s s' name plugin) : StoreExact s' := by
  have hheap : s'.heap = s.heap := by rw [hr.eq]
  refine ⟨fun P p hp => ?_, fun P p hp => ?_, fun P Q p hp hq => ?_⟩
  · obtain ⟨hP, ho⟩ := (owns_removed hr P p).mp hp
    rw [hheap, hr.getInstance, if_neg (h.not_mem_names hr ho hP)]
    exact h.filed P p ho
  · rw [hr.eq]
    exact h.alloc P p ((owns_removed hr P p).mp hp).2
  · exact h.one P Q p ((owns_removed hr P p).mp hp).2 ((owns_removed hr Q p).mp hq).2

/-- What a removal keeps: every object of another plugin, and every object that is enabled. -/
theorem StoreExact.remove_keeps {s : State} (h : StoreExact s) (name : Str) {P : Str}
    {p : InstancePtr} (hp : s.Owns P p) (hk : P ≠ name ∨ s.enabled p = true) :
    (s.remove name).1.Owns P p ∧ (s.remove name).1.getInstance (s.heap p).name = some p := by
  rcases remove_cases s name with he | ⟨plugin, hr⟩
  · rw [he]
    exact ⟨hp, h.filed P p hp⟩
  · have hP : P ≠ name := by
      rcases hk with hk | hen
      · exact hk
      · rintro rfl
        obtain ⟨pl, hf, hm⟩ := hp
        rw [hr.found] at hf
        cases hf
        have := List.any_eq_false.mp hr.disabled p hm
        exact this hen
    refine ⟨(owns_removed hr P p).mpr ⟨hP, hp⟩, ?_⟩
    rw [hr.getInstance, if_neg (h.not_mem_names hr hp hP)]
    exact h.filed P p hp

/-! ### Over a run -/

theorem StoreExact.of_frame {s s' : State} (h : StoreExact s) (hf : Frame s s') :
    StoreExact s' := by
  have hown : ∀ P p, s'.Owns P p ↔ s.Owns P p := by
    intro P p
    unfold State.Owns
    rw [hf.memoryStore]
  refine ⟨fun P p hp => ?_, fun P p hp => ?_, fun P Q p hp hq => ?_⟩
  · rw [hf.name, hf.getInstance]
    exact h.filed P p ((hown P p).mp hp)
  · rw [hf.next]
    exact h.alloc P p ((hown P p).mp hp)
  · exact h.one P Q p ((hown P p).mp hp) ((hown Q p).mp hq)

theorem storeExact_step {s s' : State} {a : Action} (hs : StoreOk s) (h : StoreExact s)
    (hok : LoadsNewNames s a) (he : step s a = .ok s') : StoreExact s' := by
  cases a with
  | message m ans =>
    obtain ⟨⟨s1, r⟩, h1, rfl⟩ := map_ok he
    exact h.of_frame (handle_frame hs h1)
  | tick =>
    obtain ⟨s1, h1, rfl⟩ := map_ok he
    exact h.of_frame ((schedule_frame h1).trans ⟨rfl, rfl, rfl, fun _ => rfl, fun _ => rfl⟩)
  | load name file =>
    cases he
    exact (storeExact_load_iff hs h name file).mpr hok
  | remove name =>
    cases he
    rcases remove_cases s name with he | ⟨plugin, hr⟩
    · rw [he]; exact h
    · exact h.removed hr
  | reorder o =>
    cases he
    exact h.of_frame (frame_reorder s o)

theorem storeExact_init : StoreExact State.init := by
  have hno : ∀ P p, ¬ State.init.Owns P p := by
    rintro P p ⟨plugin, hf, _⟩
    cases hf
  exact ⟨fun P p hp => absurd hp (hno P p), fun P p hp => absurd hp (hno P p),
    fun P Q p hp _ => absurd hp (hno P p)⟩

theorem storeExact_runs {s : State} (h : RunsOf LoadsNewNames s) : StoreOk s ∧ StoreExact s := by
  refine Runs.invariant (I := fun s => StoreOk s ∧ StoreExact s) ⟨storeOk_init, storeExact_init⟩
    ?_ h
  rintro s a s' ⟨hs, hx⟩ hok he
  exact ⟨storeOk_step hs he, storeExact_step hs hx hok he⟩

/-- THE STORE, where every load brings names of its own: the instances map holds exactly the
    instances of the loaded plugins, each under its name, and a removal takes away no instance of
    another plugin and none that is enabled. -/
theorem store_exact {s : State} (h : RunsOf LoadsNewNames s) :
    (∀ n p, s.getInstance n = some p ↔ ∃ P, s.Owns P p ∧ (s.heap p).name = n) ∧
    ∀ name P p, s.Owns P p → (P ≠ name ∨ s.enabled p = true) →
      (s.remove name).1.Owns P p ∧ (s.remove name).1.getInstance (s.heap p).name = some p := by
  obtain ⟨hs, hx⟩ := storeExact_runs h
  refine ⟨fun n p => ⟨fun hp => ?_, ?_⟩, fun name P p hp hk => hx.remove_keeps name hp hk⟩
  · obtain ⟨P, plugin, hf, hm⟩ := hs.owned n p hp
    exact ⟨P, ⟨plugin, hf, hm⟩, hs.named n p hp⟩
  · rintro ⟨P, hp, rfl⟩
    exact hx.filed P p hp

/-- Another plugin file, with the one instance `name`. -/
def loadOf (file name : String) : Action :=
  .load (str file) ⟨true, true, some [⟨str name, [sampleTopic name], 0, 1, 20⟩]⟩

/-- Two plugins with names of their own, one of them enabled and the other removed. -/
theorem store_exact_two_plugins : ∃ s, RunsOf LoadsNewNames s ∧ s.Owns (str "a.so") 0 ∧
    (s.remove (str "b.so")).1.getInstance (str "i") = some 0 := by
  have h : RunsOf LoadsNewNames _ := Runs.of_runAll LoadsNewNames
    [sampleLoad, loadOf "b.so" "m", .message (.ENABLED (str "i") []) accepting] .start rfl
  refine ⟨_, h, ⟨⟨str "a.so", [0, 1, 2]⟩, rfl, by decide⟩, ?_⟩
  exact ((store_exact h).2 (str "b.so") (str "a.so") 0 ⟨⟨str "a.so", [0, 1, 2]⟩, rfl, by decide⟩
    (Or.inl (by decide))).2

/-- Two plugins export `i`. The second `i` is loaded and not to be found; removing its plugin takes
    the first one out of the store, which is enabled and belongs to a plugin that stays. -/
theorem store_not_exact : ∃ s, Reach s ∧
    (s.Owns (str "b.so") 3 ∧ (s.heap 3).name = str "i" ∧ s.getInstance (str "i") ≠ some 3) ∧
    s.Owns (str "a.so") 0 ∧ s.enabled 0 = true ∧ s.getInstance (str "i") = some 0 ∧
    (s.remove (str "b.so")).1.Owns (str "a.so") 0 ∧
    (s.remove (str "b.so")).1.getInstance (str "i") = none := by
  have h : Reach _ := Runs.of_runAll (fun _ _ => True)
    [sampleLoad, loadOf "b.so" "i", .message (.ENABLED (str "i") []) accepting] .start rfl
  refine ⟨_, h, ⟨⟨⟨str "b.so", [3]⟩, rfl, by decide⟩, by decide, by decide⟩,
    ⟨⟨str "a.so", [0, 1, 2]⟩, rfl, by decide⟩, by decide, by decide,
    ⟨⟨str "a.so", [0, 1, 2]⟩, rfl, by decide⟩, by decide⟩

end OeAware

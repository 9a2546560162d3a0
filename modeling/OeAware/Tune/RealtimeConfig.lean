import OeAware.Manager.EnableList

/-! @src src/plugin/tune/system/realtime/realtime_tune.cpp | name:AddRealtimeTuneToConfig,
    RemoveRealtimeTuneFromConfig | scheme:refinement

    `realtime_tune` survives the reboot it may need by listing itself in `config.yaml`. Both editors work on the
    tree of the document; the reader is `SetEnableList` with `PreEnable`. An editor that fails, or finds nothing
    to do, leaves the file as it is. Over the trees stand lists of entries, on which the editors are folds.

        Node ──addRealtimeTuneToConfig──▶ Node
          │ ReadsList                          │ ReadsList
        entries ────────added──────────▶ entries -/

namespace OeAware
open Schemes EnableList

namespace RealTimeTune

def SYSTEM_TUNE : Str := str "libsystem_tune.so"
def REALTIME_TUNE : Str := str "realtime_tune"

/-- The entry made where there is none for `libsystem_tune.so`. -/
def newItem : Node :=
  .map [(str "name", .scalar SYSTEM_TUNE), (str "instances", .seq [.scalar REALTIME_TUNE])]

/-- The search for `realtime_tune` in `instances`: `none` when an element is not a string. -/
def listsRealtime : List Node → Option Bool
  | [] => some false
  | inst :: instances => do
    let name ← inst.asString
    if name = REALTIME_TUNE then some true else listsRealtime instances

/-- `item["name"] && item["name"].as<std::string>() == "libsystem_tune.so"`. -/
def isSystemTune (item : Node) : Option Bool := do
  match ← item.get (str "name") with
  | none => some false
  | some name => do
    let name ← name.asString
    some (decide (name = SYSTEM_TUNE))

/-- The loop of `AddRealtimeTuneToConfig` and what follows it: `none` when it fails, `some none` when all
    instances are started anyway, and else the list to be written. -/
def addTo : List Node → Option (Option (List Node))
  | [] => some (some [newItem])
  | item :: enableList => do
    if ← isSystemTune item then
      match ← item.get (str "instances") with
      | none | some .null => some none
      | some (.seq instances) => do
        let alreadyAdded ← listsRealtime instances
        some (some ((if alreadyAdded then item
          else item.set (str "instances") (.seq (instances ++ [.scalar REALTIME_TUNE]))) :: enableList))
      | some _ => none
    else do
      let rest ← addTo enableList
      some (rest.map (item :: ·))

/-- `AddRealtimeTuneToConfig`: the document afterwards, or `none` when it returns `false`. -/
def addRealtimeTuneToConfig (config : Node) : Option Node := do
  let pairs ← config.asMap
  let enableList := match pairs.lookup (str "enable_list") with
    | some (.seq items) => items
    | _ => []
  match ← addTo enableList with
  | none => some config
  | some list => some (.map (Node.setPair (str "enable_list") (.seq list) pairs))

/-- The instances other than `realtime_tune`. -/
def otherInstances : List Node → Option (List Node)
  | [] => some []
  | inst :: instances => do
    let name ← inst.asString
    let newInstances ← otherInstances instances
    some (if name ≠ REALTIME_TUNE then inst :: newInstances else newInstances)

/-- `item.IsMap() && item["name"] && item["name"].as<std::string>() == "libsystem_tune.so"`. -/
def isSystemTuneMap : Node → Option Bool
  | .map pairs => isSystemTune (.map pairs)
  | _ => some false

/-- The loop of `RemoveRealtimeTuneFromConfig`: `none` when it throws, `some none` when it returns. -/
def removeFrom : List Node → Option (Option (List Node))
  | [] => some (some [])
  | item :: enableList => do
    if ← isSystemTuneMap item then
      match ← item.get (str "instances") with
      | some (.seq instances) => do
        let newInstances ← otherInstances instances
        let rest ← removeFrom enableList
        some (rest.map (fun newList =>
          if newInstances ≠ [] then item.set (str "instances") (.seq newInstances) :: newList else newList))
      | _ => some none
    else do
      let rest ← removeFrom enableList
      some (rest.map (item :: ·))

/-- `RemoveRealtimeTuneFromConfig`: the document afterwards, or `none` when it throws. -/
def removeRealtimeTuneFromConfig (config : Node) : Option Node := do
  let pairs ← config.asMap
  match pairs.lookup (str "enable_list") with
  | some (.seq items) =>
    match ← removeFrom items with
    | none => some config
    | some [] => some (.map (Node.setPair (str "enable_list") .null pairs))
    | some newList => some (.map (Node.setPair (str "enable_list") (.seq newList) pairs))
  | _ => some config

/-! ### The editors on entries -/

/-- The entries after `AddRealtimeTuneToConfig`: the first one for `libsystem_tune.so` decides. -/
def added : List Entry → List Entry
  | [] => [⟨SYSTEM_TUNE, some [REALTIME_TUNE]⟩]
  | e :: entries =>
    if e.name = SYSTEM_TUNE then
      { e with instances := e.instances.map (fun names =>
          if REALTIME_TUNE ∈ names then names else names ++ [REALTIME_TUNE]) } :: entries
    else e :: added entries

/-- `e` enables `libsystem_tune.so` as a whole. -/
def Whole (e : Entry) : Prop := e.name = SYSTEM_TUNE ∧ e.instances = none

/-- What is left of `e`. -/
def without (e : Entry) : Option Entry :=
  if e.name = SYSTEM_TUNE then
    let others := (e.instances.getD []).filter (· ≠ REALTIME_TUNE)
    if others = [] then none else some { e with instances := some others }
  else some e

theorem listsRealtime_map : ∀ names : List Str,
    listsRealtime (names.map .scalar) = some (decide (REALTIME_TUNE ∈ names))
  | [] => rfl
  | name :: names => by
    rw [List.map_cons, listsRealtime, Node.asString]
    rcases eq_or_ne name REALTIME_TUNE with rfl | h
    · simp
    · simp [h, Ne.symm h, listsRealtime_map names]

theorem otherInstances_map : ∀ names : List Str,
    otherInstances (names.map .scalar) = some ((names.filter (· ≠ REALTIME_TUNE)).map .scalar)
  | [] => rfl
  | name :: names => by
    rw [List.map_cons, otherInstances, Node.asString, otherInstances_map names]
    rcases eq_or_ne name REALTIME_TUNE with rfl | h <;> simp [*]

theorem isSystemTune_of_reads {item : Node} {e : Entry} (h : Reads item e) :
    isSystemTune item = some (decide (e.name = SYSTEM_TUNE)) := by
  obtain ⟨pairs, rfl, hname, -⟩ := h
  simp [isSystemTune, Node.get, hname, Node.asString]

theorem isSystemTuneMap_of_reads {item : Node} {e : Entry} (h : Reads item e) :
    isSystemTuneMap item = some (decide (e.name = SYSTEM_TUNE)) := by
  rw [← isSystemTune_of_reads h]
  obtain ⟨pairs, rfl, -⟩ := h
  rfl

theorem reads_set {item : Node} {e : Entry} (h : Reads item e) (names : List Str) :
    Reads (item.set (str "instances") (.seq (names.map .scalar))) { e with instances := some names } := by
  obtain ⟨pairs, rfl, hname, -⟩ := h
  refine ⟨_, rfl, ?_, Node.lookup_setPair _ _ pairs⟩
  rw [Node.lookup_setPair_of_ne (by decide) _ pairs, hname]

/-- `AddRealtimeTuneToConfig` succeeds on a well-formed list, and does to it what `added` does. -/
theorem addTo_of_reads : ∀ {items : List Node} {entries : List Entry}, List.Forall₂ Reads items entries →
    ∃ r, addTo items = some r ∧ List.Forall₂ Reads (r.getD items) (added entries)
  | [], [], _ => by
    refine ⟨_, rfl, List.Forall₂.cons ⟨_, rfl, ?_, ?_⟩ .nil⟩
    · rfl
    · rfl
  | item :: items, e :: entries, h => by
    obtain ⟨he, hrest⟩ := List.forall₂_cons.mp h
    rw [addTo, isSystemTune_of_reads he, added]
    rcases em (e.name = SYSTEM_TUNE) with hn | hn
    · rw [if_pos hn]
      obtain ⟨name, instances⟩ := e
      have hreads := he
      obtain ⟨pairs, rfl, hname, hinst⟩ := he
      simp only at hn
      cases instances with
      | none =>
        refine ⟨none, ?_, List.Forall₂.cons hreads hrest⟩
        rcases hinst with hi | hi <;> simp [hn, Node.get, hi]
      | some names =>
        simp only at hinst
        refine ⟨some ((if REALTIME_TUNE ∈ names then .map pairs else (Node.map pairs).set (str "instances")
          (.seq (names.map .scalar ++ [.scalar REALTIME_TUNE]))) :: items), ?_, List.Forall₂.cons ?_ hrest⟩
        · simp [hn, Node.get, hinst, listsRealtime_map]
        · rw [Option.map_some]
          split
          · exact hreads
          · have h := reads_set hreads (names ++ [REALTIME_TUNE])
            rwa [List.map_append] at h
    · obtain ⟨r, hr, hreads⟩ := addTo_of_reads hrest
      rw [if_neg hn]
      refine ⟨r.map (item :: ·), by simp [hn, hr], ?_⟩
      cases r with
      | none => exact List.Forall₂.cons he hreads
      | some list => exact List.Forall₂.cons he hreads

theorem removeFrom_of_whole : ∀ {items : List Node} {entries : List Entry}, List.Forall₂ Reads items entries →
    (∃ e ∈ entries, Whole e) → removeFrom items = some none
  | [], [], _, hw => by simp at hw
  | item :: items, e :: entries, h, hw => by
    obtain ⟨he, hrest⟩ := List.forall₂_cons.mp h
    rw [removeFrom, isSystemTuneMap_of_reads he]
    rcases em (e.name = SYSTEM_TUNE) with hn | hn
    · obtain ⟨name, instances⟩ := e
      obtain ⟨pairs, rfl, hname, hinst⟩ := he
      simp only at hn
      cases instances with
      | none => rcases hinst with hi | hi <;> simp [hn, Node.get, hi]
      | some names =>
        simp only at hinst
        obtain ⟨e', he', hw'⟩ := hw
        rcases List.mem_cons.mp he' with rfl | he'
        · cases hw'.2
        · simp [hn, Node.get, hinst, otherInstances_map, removeFrom_of_whole hrest ⟨e', he', hw'⟩]
    · obtain ⟨e', he', hw'⟩ := hw
      rcases List.mem_cons.mp he' with rfl | he'
      · exact absurd hw'.1 hn
      · simp [hn, removeFrom_of_whole hrest ⟨e', he', hw'⟩]

theorem removeFrom_of_reads : ∀ {items : List Node} {entries : List Entry}, List.Forall₂ Reads items entries →
    (¬∃ e ∈ entries, Whole e) →
    ∃ list, removeFrom items = some (some list) ∧ List.Forall₂ Reads list (entries.filterMap without)
  | [], [], _, _ => ⟨_, rfl, .nil⟩
  | item :: items, e :: entries, h, hw => by
    obtain ⟨he, hrest⟩ := List.forall₂_cons.mp h
    obtain ⟨list, hlist, hreads⟩ :=
      removeFrom_of_reads hrest (fun ⟨e', he', hw'⟩ => hw ⟨e', List.mem_cons_of_mem e he', hw'⟩)
    rw [removeFrom, isSystemTuneMap_of_reads he, List.filterMap_cons, without]
    rcases em (e.name = SYSTEM_TUNE) with hn | hn
    · obtain ⟨name, instances⟩ := e
      cases instances with
      | none => exact absurd ⟨_, List.mem_cons_self, hn, rfl⟩ hw
      | some names =>
        have hset := reads_set he (names.filter (· ≠ REALTIME_TUNE))
        obtain ⟨pairs, rfl, hname, hinst⟩ := he
        simp only at hn hinst
        rcases em (names.filter (· ≠ REALTIME_TUNE) = []) with h0 | h0
        · refine ⟨list, ?_, ?_⟩
          · simp only [hn, Node.get, hinst, otherInstances_map, hlist, decide_true, Option.bind_eq_bind,
              Option.bind_some, if_true, Option.map_some, ne_eq, List.map_eq_nil_iff, h0, not_true_eq_false, if_false]
          · rw [if_pos hn]
            simp only [Option.getD_some, h0, if_pos]
            exact hreads
        · refine ⟨(Node.map pairs).set (str "instances")
            (.seq ((names.filter (· ≠ REALTIME_TUNE)).map .scalar)) :: list, ?_, ?_⟩
          · simp only [hn, Node.get, hinst, otherInstances_map, hlist, decide_true, Option.bind_eq_bind,
              Option.bind_some, if_true, Option.map_some, ne_eq, List.map_eq_nil_iff, h0, not_false_eq_true]
          · rw [if_pos hn]
            simp only [Option.getD_some, h0, if_false]
            exact List.Forall₂.cons hset hreads
    · exact ⟨item :: list, by simp [hn, hlist], by rw [if_neg hn]; exact List.Forall₂.cons he hreads⟩

/-! ### A second call -/

theorem listsRealtime_append : ∀ {instances : List Node}, listsRealtime instances = some false →
    listsRealtime (instances ++ [.scalar REALTIME_TUNE]) = some true
  | [], _ => rfl
  | inst :: instances, h => by
    rw [listsRealtime] at h
    rw [List.cons_append, listsRealtime]
    cases hn : inst.asString with
    | none => simp [hn] at h
    | some name =>
      rcases eq_or_ne name REALTIME_TUNE with rfl | hne
      · simp [hn] at h
      · simp only [hn, Option.bind_eq_bind, Option.bind_some, if_neg hne] at h ⊢
        exact listsRealtime_append h

theorem isSystemTune_set {item : Node} (value : Node) :
    isSystemTune (item.set (str "instances") value) = isSystemTune item := by
  cases item with
  | map pairs =>
    rw [Node.set, isSystemTune, isSystemTune, Node.get, Node.get, Node.lookup_setPair_of_ne (by decide)]
  | _ => rfl

theorem get_set {item : Node} {key : Str} {old : Node} (h : item.get key = some (some old)) (value : Node) :
    (item.set key value).get key = some (some value) := by
  cases item with
  | map pairs => rw [Node.set, Node.get, Node.lookup_setPair]
  | _ => simp [Node.get] at h

/-- The list `AddRealtimeTuneToConfig` writes is one that it leaves as it is. -/
theorem addTo_again : ∀ {items list : List Node}, addTo items = some (some list) → addTo list = some (some list)
  | [], list, h => by
    cases h
    rfl
  | item :: items, list, h => by
    rw [addTo] at h
    cases hsys : isSystemTune item with
    | none => simp [hsys] at h
    | some b =>
      cases b with
      | false =>
        obtain ⟨r, hr, h⟩ : ∃ r, addTo items = some r ∧ r.map (item :: ·) = some list := by
          simpa [hsys, Option.bind_eq_some_iff] using h
        obtain ⟨rest, rfl, rfl⟩ := Option.map_eq_some_iff.mp h
        simp [addTo, hsys, addTo_again hr]
      | true =>
        cases hget : item.get (str "instances") with
        | none => simp [hsys, hget] at h
        | some instances =>
          match instances, hget with
          | none, hget | some .null, hget | some (.scalar _), hget | some (.map _), hget => simp [hsys, hget] at h
          | some (.seq instances), hget =>
            cases halready : listsRealtime instances with
            | none => simp [hsys, hget, halready] at h
            | some already =>
              simp only [hsys, hget, halready, Option.bind_eq_bind, Option.bind_some, if_true, Option.some.injEq] at h
              subst h
              cases already with
              | true => simp [addTo, hsys, hget, halready]
              | false =>
                simp [addTo, isSystemTune_set, hsys, get_set hget, listsRealtime_append halready]

/-- `AddRealtimeTuneToConfig` is idempotent, on any document. -/
theorem add_again {config c1 : Node} (h : addRealtimeTuneToConfig config = some c1) :
    addRealtimeTuneToConfig c1 = some c1 := by
  have h0 := h
  rw [addRealtimeTuneToConfig] at h
  cases hmap : config.asMap with
  | none => simp [hmap] at h
  | some pairs =>
    simp only [hmap, Option.bind_eq_bind, Option.bind_some] at h
    obtain ⟨r, hr, h⟩ := Option.bind_eq_some_iff.mp h
    cases r with
    | none =>
      cases h
      exact h0
    | some list =>
      cases h
      simp [addRealtimeTuneToConfig, Node.asMap, Node.lookup_setPair, addTo_again hr, Node.setPair_self]

/-! ### The meaning -/

/-- `libsystem_tune.so` is loaded, and `realtime_tune` is an instance of it and of no other plugin. -/
structure Loaded (s : State) : Prop where
  own : ∃ p, s.memoryStore.plugins.find SYSTEM_TUNE = some p ∧ REALTIME_TUNE ∈ s.instanceNames p
  other : ∀ name p, name ≠ SYSTEM_TUNE → s.memoryStore.plugins.find name = some p →
    REALTIME_TUNE ∉ s.instanceNames p

/-- `realtime_tune` is listed only under `libsystem_tune.so`. -/
def OnlySystemTune (entries : List Entry) : Prop :=
  ∀ e ∈ entries, ∀ names, e.instances = some names → REALTIME_TUNE ∈ names → e.name = SYSTEM_TUNE

/-- No key but `enable_list` is changed. -/
def SameOutside (config config' : Node) : Prop := ∀ key, key ≠ str "enable_list" → config'.get key = config.get key

theorem asks_added {s : State} (hs : Loaded s) (x : Str) : ∀ entries : List Entry,
    (∃ e ∈ added entries, x ∈ e.asks s) ↔ x = REALTIME_TUNE ∨ ∃ e ∈ entries, x ∈ e.asks s
  | [] => by
    obtain ⟨p, hp, -⟩ := hs.own
    simp [added, Entry.asks, hp]
  | ⟨name, instances⟩ :: entries => by
    rw [added]
    rcases eq_or_ne name SYSTEM_TUNE with rfl | hn
    · obtain ⟨p, hp, hrt⟩ := hs.own
      simp only [if_pos, List.mem_cons, exists_eq_or_imp, ← or_assoc]
      refine or_congr_left ?_
      cases instances with
      | none =>
        simp only [Entry.asks, hp, Option.map_none, Option.getD_none]
        exact ⟨Or.inr, fun h => h.elim (fun h => h ▸ hrt) id⟩
      | some names =>
        simp only [Entry.asks, hp, Option.map_some, Option.getD_some]
        split
        · exact ⟨Or.inr, fun h => h.elim (fun h => h ▸ ‹_›) id⟩
        · simp [or_comm]
    · simp only [if_neg hn, List.mem_cons, exists_eq_or_imp, asks_added hs x entries]
      exact or_left_comm

theorem asks_without {s : State} (hs : Loaded s) {e : Entry} (hw : ¬Whole e)
    (honly : ∀ names, e.instances = some names → REALTIME_TUNE ∈ names → e.name = SYSTEM_TUNE) (x : Str) :
    (∃ e' ∈ without e, x ∈ e'.asks s) ↔ x ∈ e.asks s ∧ x ≠ REALTIME_TUNE := by
  obtain ⟨name, instances⟩ := e
  rw [without]
  rcases eq_or_ne name SYSTEM_TUNE with rfl | hn
  · obtain ⟨p, hp, hrt⟩ := hs.own
    cases instances with
    | none => exact absurd ⟨rfl, rfl⟩ hw
    | some names =>
      have hmem : x ∈ names.filter (· ≠ REALTIME_TUNE) ↔ x ∈ names ∧ x ≠ REALTIME_TUNE := by
        rw [List.mem_filter, decide_eq_true_eq]
      simp only [if_pos, Option.getD_some]
      rw [show Entry.asks s ⟨SYSTEM_TUNE, some names⟩ = names by simp [Entry.asks, hp], ← hmem]
      rcases em (names.filter (· ≠ REALTIME_TUNE) = []) with h0 | h0
      · rw [if_pos h0, h0]
        simp
      · rw [if_neg h0]
        simp [Entry.asks, hp]
  · rw [if_neg hn]
    simp only [Option.mem_def, Option.some.injEq, exists_eq_left']
    refine ⟨fun h => ⟨h, ?_⟩, And.left⟩
    rintro rfl
    rw [Entry.asks] at h
    cases hp : s.memoryStore.plugins.find name with
    | none => simp [hp] at h
    | some p =>
      cases instances with
      | none => exact hs.other name p hn hp (by simpa [hp] using h)
      | some names => exact hn (honly names rfl (by simpa [hp] using h))

theorem lists_set {pairs : List (Str × Node)} {list : List Node} {entries : List Entry}
    (h : List.Forall₂ Reads list entries) :
    ReadsList (.map (Node.setPair (str "enable_list") (.seq list) pairs)) entries :=
  ⟨_, rfl, .inl ⟨list, Node.lookup_setPair _ _ pairs, h⟩⟩

theorem sameOutside_set (value : Node) (pairs : List (Str × Node)) :
    SameOutside (.map pairs) (.map (Node.setPair (str "enable_list") value pairs)) := by
  intro key hkey
  rw [Node.get, Node.get, Node.lookup_setPair_of_ne hkey]

/-- What `AddRealtimeTuneToConfig` makes of a well-formed document. -/
theorem add_of_lists {config : Node} {entries : List Entry} (h : ReadsList config entries) :
    ∃ c1, addRealtimeTuneToConfig config = some c1 ∧ ReadsList c1 (added entries) ∧ SameOutside config c1 := by
  obtain ⟨pairs, rfl, ⟨items, hitems, hreads⟩ | ⟨hno, rfl⟩⟩ := h
  · obtain ⟨r, hr, hadded⟩ := addTo_of_reads hreads
    cases r with
    | none =>
      refine ⟨.map pairs, ?_, ⟨pairs, rfl, .inl ⟨items, hitems, hadded⟩⟩, fun _ _ => rfl⟩
      simp [addRealtimeTuneToConfig, Node.asMap, hitems, hr]
    | some list =>
      refine ⟨_, ?_, lists_set hadded, sameOutside_set (.seq list) pairs⟩
      simp [addRealtimeTuneToConfig, Node.asMap, hitems, hr]
  · obtain ⟨r, hr, hadded⟩ := addTo_of_reads .nil
    cases hr
    refine ⟨_, ?_, lists_set hadded, sameOutside_set (.seq [newItem]) pairs⟩
    rw [addRealtimeTuneToConfig, Node.asMap]
    simp only [Option.bind_eq_bind, Option.bind_some]
    rfl

/-- What `RemoveRealtimeTuneFromConfig` makes of a well-formed document with no whole entry. -/
theorem remove_of_lists {config : Node} {entries : List Entry} (h : ReadsList config entries)
    (hw : ¬∃ e ∈ entries, Whole e) :
    ∃ c2, removeRealtimeTuneFromConfig config = some c2 ∧ ReadsList c2 (entries.filterMap without) ∧
      SameOutside config c2 := by
  obtain ⟨pairs, rfl, ⟨items, hitems, hreads⟩ | ⟨hno, rfl⟩⟩ := h
  · obtain ⟨list, hlist, hleft⟩ := removeFrom_of_reads hreads hw
    cases list with
    | nil =>
      rw [List.forall₂_nil_left_iff] at hleft
      refine ⟨_, ?_, ⟨_, rfl, .inr ⟨fun items => ?_, hleft⟩⟩, sameOutside_set .null pairs⟩
      · simp [removeRealtimeTuneFromConfig, Node.asMap, hitems, hlist]
      · rw [Node.lookup_setPair]
        simp
    | cons item list =>
      refine ⟨_, ?_, lists_set hleft, sameOutside_set (.seq (item :: list)) pairs⟩
      simp [removeRealtimeTuneFromConfig, Node.asMap, hitems, hlist]
  · refine ⟨.map pairs, ?_, ⟨pairs, rfl, .inr ⟨hno, rfl⟩⟩, fun _ _ => rfl⟩
    rw [removeRealtimeTuneFromConfig, Node.asMap]
    simp only [Option.bind_eq_bind, Option.bind_some]

theorem remove_of_whole {config : Node} {entries : List Entry} (h : ReadsList config entries)
    (hw : ∃ e ∈ entries, Whole e) : removeRealtimeTuneFromConfig config = some config := by
  obtain ⟨pairs, rfl, ⟨items, hitems, hreads⟩ | ⟨hno, rfl⟩⟩ := h
  · simp [removeRealtimeTuneFromConfig, Node.asMap, hitems, removeFrom_of_whole hreads hw]
  · simp at hw

/-- THE EDITORS KEEP THE MEANING: `AddRealtimeTuneToConfig` adds `realtime_tune` to what the list asks for, and
    adds it once; `RemoveRealtimeTuneFromConfig` takes it out, unless an entry enables `libsystem_tune.so` as a
    whole, when it does nothing. No other key of the document is changed. -/
theorem editors_keep_meaning (s : State) (config : Node) (entries : List Entry) (M : Set Str) (hs : Loaded s)
    (hwf : ReadsList config entries) (honly : OnlySystemTune entries) (hM : Means s config M) :
    (∃ c1, addRealtimeTuneToConfig config = some c1 ∧ Means s c1 (insert REALTIME_TUNE M) ∧
      addRealtimeTuneToConfig c1 = some c1 ∧ SameOutside config c1) ∧
    ∃ c2, removeRealtimeTuneFromConfig config = some c2 ∧ ((∃ e ∈ entries, Whole e) → c2 = config) ∧
      ((¬∃ e ∈ entries, Whole e) → Means s c2 (M \ {REALTIME_TUNE})) ∧ SameOutside config c2 := by
  rw [means_iff s hwf] at hM
  refine ⟨?_, ?_⟩
  · obtain ⟨c1, hc1, hlists, hsame⟩ := add_of_lists hwf
    refine ⟨c1, hc1, (means_iff s hlists).mpr fun x => ?_, add_again hc1, hsame⟩
    rw [asks_added hs, Set.mem_insert_iff, hM]
  · rcases em (∃ e ∈ entries, Whole e) with hw | hw
    · exact ⟨config, remove_of_whole hwf hw, fun _ => rfl, fun h => absurd hw h, fun _ _ => rfl⟩
    · obtain ⟨c2, hc2, hlists, hsame⟩ := remove_of_lists hwf hw
      refine ⟨c2, hc2, fun h => absurd h hw, fun _ => (means_iff s hlists).mpr fun x => ?_, hsame⟩
      simp only [Set.mem_sdiff, Set.mem_singleton_iff, hM, List.mem_filterMap]
      refine ⟨fun ⟨⟨e, he, hx⟩, hne⟩ => ?_, fun ⟨e', ⟨e, he, hwith⟩, hx⟩ => ?_⟩
      · obtain ⟨e', he', hx'⟩ := (asks_without hs (fun h => hw ⟨e, he, h⟩) (honly e he) x).mpr ⟨hx, hne⟩
        exact ⟨e', ⟨e, he, he'⟩, hx'⟩
      · obtain ⟨hx, hne⟩ := (asks_without hs (fun h => hw ⟨e, he, h⟩) (honly e he) x).mp ⟨e', hwith, hx⟩
        exact ⟨⟨e, he, hx⟩, hne⟩

/-- `libsystem_tune.so` with `realtime_tune` as its one instance. -/
def oneInstance : State :=
  { State.init with
    heap := fun _ => { State.init.heap 0 with name := REALTIME_TUNE }
    next := 1
    memoryStore := ⟨UMap.empty.insert REALTIME_TUNE 0, UMap.empty.insert SYSTEM_TUNE ⟨SYSTEM_TUNE, [0]⟩⟩ }

/-- An empty list of instances, and a second entry for the plugin. -/
def twoEntries : List Entry := [⟨SYSTEM_TUNE, some []⟩, ⟨SYSTEM_TUNE, some [REALTIME_TUNE]⟩]

def twoItems : Node :=
  .map [(str "log_level", .scalar (str "2")), (str "enable_list", .seq
    [.map [(str "name", .scalar SYSTEM_TUNE), (str "instances", .seq [])], newItem])]

theorem loaded_oneInstance : Loaded oneInstance where
  own := ⟨⟨SYSTEM_TUNE, [0]⟩, rfl, by decide⟩
  other name p hn hp := by
    rw [oneInstance, UMap.find_insert, if_neg hn] at hp
    cases hp

theorem reads_twoItems : ReadsList twoItems twoEntries :=
  ⟨_, rfl, .inl ⟨_, rfl, .cons ⟨_, rfl, rfl, rfl⟩ (.cons ⟨_, rfl, rfl, rfl⟩ .nil)⟩⟩

theorem editors_keep_meaning_two :
    (∃ c1, addRealtimeTuneToConfig twoItems = some c1 ∧ Means oneInstance c1 (insert REALTIME_TUNE {REALTIME_TUNE}) ∧
      addRealtimeTuneToConfig c1 = some c1 ∧ SameOutside twoItems c1) ∧
    ∃ c2, removeRealtimeTuneFromConfig twoItems = some c2 ∧ ((∃ e ∈ twoEntries, Whole e) → c2 = twoItems) ∧
      ((¬∃ e ∈ twoEntries, Whole e) → Means oneInstance c2 ({REALTIME_TUNE} \ {REALTIME_TUNE})) ∧
      SameOutside twoItems c2 := by
  have honly : OnlySystemTune twoEntries := by
    intro e he names _ _
    rcases List.mem_cons.mp he with rfl | he
    · rfl
    · rw [List.mem_singleton.mp he]
  refine editors_keep_meaning oneInstance twoItems twoEntries {REALTIME_TUNE} loaded_oneInstance reads_twoItems honly
    ((means_iff _ reads_twoItems).mpr fun x => ?_)
  have h1 : Entry.asks oneInstance ⟨SYSTEM_TUNE, some []⟩ = [] := rfl
  have h2 : Entry.asks oneInstance ⟨SYSTEM_TUNE, some [REALTIME_TUNE]⟩ = [REALTIME_TUNE] := rfl
  simp [twoEntries, h1, h2]

end RealTimeTune
end OeAware

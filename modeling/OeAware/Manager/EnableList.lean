import OeAware.Common.Yaml
import OeAware.Manager.Plugins

/-! @src src/plugin_mgr/config.cpp, plugin_manager.cpp | name:SetEnableList, PreEnable

    The `enable_list` of `config.yaml` says what is enabled when the manager starts: a plugin with a list of
    instances asks for these, a plugin without one for all it has. Plugins that are not loaded are passed over.

        - name: liba.so                  all instances of liba.so
        - name: libb.so
          instances: [x, y]              x, y -/

namespace OeAware
open Schemes

structure EnableItem where
  name : Str
  instances : List Str
  enabled : Bool
  deriving DecidableEq

/-- One round of `SetEnableList`: nothing comes of an item whose `instances` have the wrong format. -/
def enableItem (node : Node) : Option (Option EnableItem) := do
  let name ← node.get (str "name")
  let pluginName ← name.bind Node.asString
  match ← node.get (str "instances") with
  | none | some .null => some (some ⟨pluginName, [], true⟩)
  | some (.seq instances) => do
    let instanceNames ← instances.mapM Node.asString
    some (some ⟨pluginName, instanceNames, false⟩)
  | some _ => some none

/-- `Config::SetEnableList`: `none` when it throws. -/
def setEnableList (node : Node) : Option (List EnableItem) := do
  match ← node.get (str "enable_list") with
  | some (.seq enableList) => do
    let items ← enableList.mapM enableItem
    some (items.filterMap id)
  | _ => some []

/-- `PreEnable`: the instances for which `ENABLED` is sent, in this order. -/
def State.preEnable (s : State) (enableList : List EnableItem) : List Str :=
  enableList.flatMap (fun item =>
    match s.memoryStore.plugins.find item.name with
    | none => []
    | some plugin => if item.enabled then s.instanceNames plugin else item.instances)

/-! ### What a list asks for -/

namespace EnableList

/-- What an item says: the name of a plugin, and the instances listed with it if there is a list. -/
structure Entry where
  name : Str
  instances : Option (List Str)

/-- `item` is a map which says `e`: without a list, or with an empty value in its place, or with a list of
    names. -/
def Reads (item : Node) (e : Entry) : Prop :=
  ∃ pairs, item = .map pairs ∧ pairs.lookup (str "name") = some (.scalar e.name) ∧
    match e.instances with
    | none => pairs.lookup (str "instances") = none ∨ pairs.lookup (str "instances") = some .null
    | some names => pairs.lookup (str "instances") = some (.seq (names.map .scalar))

/-- `config` is well formed and its `enable_list` says `entries`. -/
def ReadsList (config : Node) (entries : List Entry) : Prop :=
  ∃ pairs, config = .map pairs ∧
    ((∃ items, pairs.lookup (str "enable_list") = some (.seq items) ∧ List.Forall₂ Reads items entries) ∨
      ((∀ items, pairs.lookup (str "enable_list") ≠ some (.seq items)) ∧ entries = []))

/-- What `PreEnable` asks for on account of `e`. -/
def Entry.asks (s : State) (e : Entry) : List Str :=
  match s.memoryStore.plugins.find e.name with
  | none => []
  | some plugin => e.instances.getD (s.instanceNames plugin)

def Entry.item (e : Entry) : EnableItem := ⟨e.name, e.instances.getD [], e.instances.isNone⟩

/-- The meaning of the `enable_list` of `config`: the instances `PreEnable` asks for, as a set. -/
def Means (s : State) (config : Node) (M : Set Str) : Prop :=
  ∃ items, setEnableList config = some items ∧ ∀ x, x ∈ s.preEnable items ↔ x ∈ M

theorem mapM_asString : ∀ names : List Str, (names.map Node.scalar).mapM Node.asString = some names
  | [] => rfl
  | name :: names => by
    rw [List.map_cons, List.mapM_cons, mapM_asString names]
    rfl

theorem enableItem_of_reads {item : Node} {e : Entry} (h : Reads item e) :
    enableItem item = some (some e.item) := by
  obtain ⟨pairs, rfl, hname, hinst⟩ := h
  obtain ⟨name, instances⟩ := e
  cases instances with
  | none => rcases hinst with h | h <;> simp [enableItem, Node.get, hname, h, Node.asString, Entry.item]
  | some names =>
    simp only at hinst
    simp only [enableItem, Node.get, hname, hinst, Node.asString, mapM_asString, Entry.item, Option.bind_eq_bind,
      Option.bind_some]
    rfl

theorem mapM_enableItem : ∀ {items : List Node} {entries : List Entry}, List.Forall₂ Reads items entries →
    items.mapM enableItem = some (entries.map (fun e => some e.item))
  | [], [], _ => rfl
  | item :: items, e :: entries, h => by
    rw [List.forall₂_cons] at h
    rw [List.mapM_cons, enableItem_of_reads h.1, mapM_enableItem h.2]
    rfl

theorem setEnableList_of_lists {config : Node} {entries : List Entry} (h : ReadsList config entries) :
    setEnableList config = some (entries.map Entry.item) := by
  obtain ⟨pairs, rfl, ⟨items, hitems, hreads⟩ | ⟨hno, rfl⟩⟩ := h
  · simp [setEnableList, Node.get, hitems, mapM_enableItem hreads, List.filterMap_map]
  · rw [setEnableList, Node.get]
    simp only [Option.bind_eq_bind, Option.bind_some, List.map_nil]

theorem asks_item (s : State) (e : Entry) : s.preEnable [e.item] = e.asks s := by
  rw [State.preEnable, Entry.asks, List.flatMap_singleton]
  obtain ⟨name, instances⟩ := e
  cases h : s.memoryStore.plugins.find name <;> cases instances <;> simp [Entry.item, h]

theorem preEnable_map_item (s : State) : ∀ entries : List Entry,
    s.preEnable (entries.map Entry.item) = entries.flatMap (·.asks s)
  | [] => rfl
  | e :: entries => by
    rw [List.flatMap_cons, ← preEnable_map_item s entries, ← asks_item, List.map_cons]
    simp [State.preEnable]

/-- A well-formed list means what its entries ask for. -/
theorem means_iff (s : State) {config : Node} {entries : List Entry} (h : ReadsList config entries) {M : Set Str} :
    Means s config M ↔ ∀ x, x ∈ M ↔ ∃ e ∈ entries, x ∈ e.asks s := by
  rw [Means, setEnableList_of_lists h]
  simp only [Option.some.injEq, exists_eq_left', preEnable_map_item, List.mem_flatMap]
  exact forall_congr' fun x => Iff.comm

end EnableList
end OeAware

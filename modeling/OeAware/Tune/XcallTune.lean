import OeAware.Analysis.Instance
import OeAware.Common.Yaml
import OeAware.Schemes.Loops
import OeAware.Schemes.Run
import OeAware.Schemes.Words

/-! @src src/plugin/tune/system/xcall/xcall_tune.cpp | name:XcallTune | scheme:run

    The configuration gives a thread's name its system calls. `Run` writes those of each name that is collected to the
    file of the thread's process, once for the process; `Disable` takes them back.

        xcall.yaml ──ReadConfig──▶ xcallTune: name ↦ settings
        threads ──UpdateData──▶ threadId: name ↦ pids
        Run ──▶ /proc/<pid>/xcall, openedXcall: path ↦ numbers ──Disable──▶ "!" numbers

    `ReadConfig` fills the table as it reads and leaves it so when it fails. `Run` asks for each name whether the process
    has been done, so one that is collected under two names gets what belongs to the first. -/

namespace OeAware
open Schemes

namespace XcallTune

/-! ### State -/

/-- A type and the number of a system call. -/
abbrev Setting := Str × Str

structure State where
  xcallTune : UMap Str (List Setting)
  threadId : UMap Str (USet Int32)
  openedXcall : UMap Str (List Str)

def init : State := ⟨.empty, .empty, .empty⟩

def xcallType : List Str := [str "xcall_1", str "xcall_2"]

def XCALL_RANGE : List (ℤ × ℤ) := [(0, 294), (403, 469)]

def XCALL_CONFIG_PATH : Str := str "/etc/oeAware/plugin" ++ str "/xcall.yaml"

/-- What is read of `xcallTune[name]`. -/
def State.settings (s : State) (name : Str) : List Setting := (s.xcallTune.find name).getD []

/-! ### `ReadConfig` -/

/-- A file that can be opened: what `YAML::LoadFile` makes of it, or the text of what it throws; and the text of what a
    conversion throws there. -/
structure ConfigFile where
  document : Except Str Node
  badConversion : Str

/-- What is put into the table, under which name. -/
abbrev Entry := Str × Setting

def parseFailed (what : Str) : Str := str "xcall config parse failed, " ++ what

def configError (name : Str) : Str := str "xcall config('" ++ name ++ str "') error."

/-- One pair of an item. -/
def readPair (what threadName : Str) (p : Str × Node) : List Entry × Option Str :=
  match p.2.asString with
  | none => ([], some (parseFailed what))
  | some xcallEvent =>
    if p.1 ∉ xcallType then ([], some (configError p.1))
    else ((splitString xcallEvent (str ",")).map (fun event => (threadName, p.1, event)), none)

def readItem (what threadName : Str) : Node → List Entry × Option Str
  | .map pairs => gather (readPair what threadName) pairs
  | _ => ([], some (configError threadName))

def readThread (what : Str) (item : Str × Node) : List Entry × Option Str :=
  match item.2 with
  | .seq items => gather (readItem what item.1) items
  | _ => ([], some (configError item.1))

/-- `ReadConfig`: what is put into the table, in this order, and with what message it fails. -/
def readConfig : Option ConfigFile → List Entry × Option Str
  | none => ([], some (str "xcall config open failed."))
  | some ⟨.error what, _⟩ => ([], some (parseFailed what))
  | some ⟨.ok (.map names), what⟩ => gather (readThread what) names
  | some ⟨.ok _, _⟩ => ([], some (str "xcall config format error."))

/-- `xcallTune[threadName].emplace_back(..)`, of all. -/
def emplace (table : UMap Str (List Setting)) (entries : List Entry) : UMap Str (List Setting) :=
  entries.foldl (fun table e => table.push e.1 e.2) table

/-! ### `Enable` and `UpdateData` -/

/-- What a call of `Enable` meets: whether there is `/proc/1/xcall`, in which order the parameters are gone through, and
    the files. -/
structure Env where
  hasXcall : Bool
  order : List Str
  file : Str → Option ConfigFile

/-- The keys other than `c`, as the message names them. -/
def invalidKeys (keys : List Str) : Str :=
  keys.foldl (fun invalid key =>
    if key = str "c" then invalid
    else (if invalid ≠ [] then invalid ++ str "," else invalid) ++ key) []

def configPath (param : Str) : Str := ((getKeyValueFromString param).find (str "c")).getD XCALL_CONFIG_PATH

/-- `Enable`. -/
def enable (env : Env) (param : Str) (s : State) : State × Result :=
  if env.hasXcall = false then
    (s, failure (str "xcall does not open. If the system supports xcall, please add 'xcall' to cmdline."))
  else
    let invalid := invalidKeys ((getKeyValueFromString param).reorder env.order).keys
    if invalid ≠ [] then (s, failure (str "params(" ++ invalid ++ str ") invalid."))
    else
      let r := readConfig (env.file (configPath param))
      ({ s with xcallTune := emplace s.xcallTune r.1 },
        match r.2 with
        | some payload => failure payload
        | none => resultOk)

/-- One thread of the data. -/
def addThread (table : UMap Str (List Setting)) (threadId : UMap Str (USet Int32)) (t : ThreadInfo) :
    UMap Str (USet Int32) :=
  if table.count t.name then
    threadId.insert t.name (((threadId.find t.name).getD .empty).insert t.pid.toInt32)
  else threadId

/-- `UpdateData`. -/
def updateData (data : List ThreadInfo) (s : State) : State :=
  { s with threadId := data.foldl (addThread s.xcallTune) .empty }

/-! ### `Run` and `Disable` -/

/-- The tuner, and for each process's file the settings written since the process began or the last `Disable`. -/
structure World where
  tune : State
  files : Str → Option (List Setting)

def xcallPath (pid : Int32) : Str := str "/proc/" ++ showInt pid.toInt ++ str "/xcall"

/-- `IsInteger`: `^[+-]?([0-9]\d*)$`. -/
def isInteger (s : Str) : Bool :=
  let digits := match s with
    | 45 :: rest => rest
    | 43 :: rest => rest
    | s => s
  digits ≠ [] ∧ digits.all (fun c => 48 ≤ c ∧ c ≤ 57)

def syscallNumberRange (s : Str) : Bool := XCALL_RANGE.any (fun r => r.1 ≤ atoi s ∧ atoi s ≤ r.2)

/-- The setting is one that `Run` writes. -/
def Valid (v : Setting) : Prop := v.1 ∈ xcallType ∧ isInteger v.2 = true ∧ syscallNumberRange v.2 = true

instance (v : Setting) : Decidable (Valid v) := inferInstanceAs (Decidable (_ ∧ _ ∧ _))

/-- What it writes. -/
def value (v : Setting) : Str := if v.1 = str "xcall_1" then v.2 else str "@" ++ v.2

/-- One setting for the file `path`; `accepts` says what the system takes. -/
def apply (accepts : Str → Str → Bool) (path : Str) (w : World) (v : Setting) : World :=
  if Valid v ∧ (w.files path).isSome = true ∧ accepts path (value v) = true then
    ⟨{ w.tune with openedXcall := w.tune.openedXcall.push path v.2 },
      Function.update w.files path ((w.files path).map (· ++ [v]))⟩
  else w

/-- One process under one name. `xcallTune[name]` makes an entry where there is none. -/
def runProcess (accepts : Str → Str → Bool) (w : World) (visit : Str × Int32) : World :=
  if w.tune.openedXcall.count (xcallPath visit.2) then w
  else (w.tune.settings visit.1).foldl (apply accepts (xcallPath visit.2))
    { w with tune := { w.tune with xcallTune := w.tune.xcallTune.insertNew visit.1 [] } }

/-- The order in which the two loops of `Run` go through `threadId`. -/
structure Order where
  names : List Str
  pids : Str → List Int32

def visits (order : Order) (s : State) : List (Str × Int32) :=
  (s.threadId.reorder order.names).keys.flatMap (fun name =>
    ((((s.threadId.find name).getD .empty).reorder (order.pids name)).elems).map (fun pid => (name, pid)))

/-- `Run`. -/
def run (order : Order) (accepts : Str → Str → Bool) (w : World) : World :=
  (visits order w.tune).foldl (runProcess accepts) w

/-- What `Disable` writes, and where. -/
def revocations (order : List Str) (w : World) : List (Str × Str) :=
  (w.tune.openedXcall.reorder order).keys.flatMap (fun path =>
    if (w.files path).isSome then
      ((w.tune.openedXcall.find path).getD []).map (fun number => (path, str "!" ++ number))
    else [])

/-- `Disable`. -/
def disable (w : World) : World := ⟨init, fun path => (w.files path).map (fun _ => [])⟩

/-! ### Runs -/

inductive Act where
  | enable (env : Env) (param : Str)
  | updateData (data : List ThreadInfo)
  | run (order : Order) (accepts : Str → Str → Bool)
  | disable (order : List Str)
  /-- A process begins. -/
  | start (pid : Int32)
  /-- It ends. -/
  | exit (pid : Int32)

def next (w : World) : Act → World
  | .enable env param => { w with tune := (enable env param w.tune).1 }
  | .updateData data => { w with tune := updateData data w.tune }
  | .run order accepts => run order accepts w
  | .disable _ => disable w
  | .start pid => { w with files := Function.update w.files (xcallPath pid) (some []) }
  | .exit pid => { w with files := Function.update w.files (xcallPath pid) none }

/-- No act faults. -/
def step (w : World) (act : Act) : Except Empty World := .ok (next w act)

def World.init : World := ⟨XcallTune.init, fun _ => none⟩

/-! ### What a configuration says -/

/-- A map of lists of maps, from types to texts. -/
def WellFormed (doc : Node) : Prop :=
  ∃ names, doc = .map names ∧ ∀ item ∈ names, ∃ items, item.2 = .seq items ∧
    ∀ it ∈ items, ∃ pairs, it = .map pairs ∧ ∀ p ∈ pairs, p.1 ∈ xcallType ∧ ∃ text, p.2 = .scalar text

/-- Under the name the setting is listed. -/
def Configures (doc : Node) (threadName : Str) (v : Setting) : Prop :=
  ∃ names items pairs text, doc = .map names ∧ (threadName, .seq items) ∈ names ∧ .map pairs ∈ items ∧
    (v.1, .scalar text) ∈ pairs ∧ v.2 ∈ splitString text (str ",")

theorem readPair_none_iff {what threadName : Str} {p : Str × Node} :
    (readPair what threadName p).2 = none ↔ p.1 ∈ xcallType ∧ ∃ text, p.2 = .scalar text := by
  obtain ⟨type, node⟩ := p
  rw [readPair]
  cases node with
  | scalar text =>
    dsimp only [Node.asString]
    split
    · simp_all
    · simp_all
  | null => simp [Node.asString]
  | seq items => simp [Node.asString]
  | map pairs => simp [Node.asString]

theorem readItem_none_iff {what threadName : Str} {it : Node} : (readItem what threadName it).2 = none ↔
    ∃ pairs, it = .map pairs ∧ ∀ p ∈ pairs, p.1 ∈ xcallType ∧ ∃ text, p.2 = .scalar text := by
  cases it with
  | map pairs => simp [readItem, gather_none_iff, readPair_none_iff]
  | null => simp [readItem]
  | scalar text => simp [readItem]
  | seq items => simp [readItem]

theorem readThread_none_iff {what : Str} {item : Str × Node} : (readThread what item).2 = none ↔
    ∃ items, item.2 = .seq items ∧ ∀ it ∈ items, ∃ pairs, it = .map pairs ∧
      ∀ p ∈ pairs, p.1 ∈ xcallType ∧ ∃ text, p.2 = .scalar text := by
  obtain ⟨name, node⟩ := item
  cases node with
  | seq items => simp [readThread, gather_none_iff, readItem_none_iff]
  | null => simp [readThread]
  | scalar text => simp [readThread]
  | map pairs => simp [readThread]

theorem readConfig_none_iff {doc : Node} {what : Str} :
    (readConfig (some ⟨.ok doc, what⟩)).2 = none ↔ WellFormed doc := by
  cases doc with
  | map names => simp [readConfig, WellFormed, gather_none_iff, readThread_none_iff]
  | null => simp [readConfig, WellFormed]
  | scalar text => simp [readConfig, WellFormed]
  | seq items => simp [readConfig, WellFormed]

theorem mem_readPair {what threadName : Str} {p : Str × Node} {e : Entry}
    (h : (readPair what threadName p).2 = none) : e ∈ (readPair what threadName p).1 ↔
      e.1 = threadName ∧ e.2.1 = p.1 ∧ ∃ text, p.2 = .scalar text ∧ e.2.2 ∈ splitString text (str ",") := by
  obtain ⟨htype, text, htext⟩ := readPair_none_iff.mp h
  obtain ⟨type, node⟩ := p
  obtain ⟨name, type', event⟩ := e
  dsimp only at htype htext
  subst htext
  simp only [readPair, Node.asString, htype, not_true_eq_false, if_false, List.mem_map, Prod.mk.injEq, Node.scalar.injEq]
  constructor
  · rintro ⟨event', hmem, rfl, rfl, rfl⟩
    exact ⟨rfl, rfl, text, rfl, hmem⟩
  · rintro ⟨rfl, rfl, text', rfl, hmem⟩
    exact ⟨event, hmem, rfl, rfl, rfl⟩

theorem mem_readItem {what threadName : Str} {it : Node} {e : Entry} (h : (readItem what threadName it).2 = none) :
    e ∈ (readItem what threadName it).1 ↔ e.1 = threadName ∧ ∃ pairs text, it = .map pairs ∧
      (e.2.1, .scalar text) ∈ pairs ∧ e.2.2 ∈ splitString text (str ",") := by
  obtain ⟨pairs, rfl, hall⟩ := readItem_none_iff.mp h
  rw [readItem] at h ⊢
  rw [mem_gather h]
  constructor
  · rintro ⟨p, hp, he⟩
    obtain ⟨hname, htype, text, htext, hmem⟩ := (mem_readPair (readPair_none_iff.mpr (hall p hp))).mp he
    exact ⟨hname, pairs, text, rfl, by rw [htype, ← htext]; exact hp, hmem⟩
  · rintro ⟨hname, pairs', text, hpairs, hp, hmem⟩
    cases hpairs
    exact ⟨_, hp, (mem_readPair (readPair_none_iff.mpr (hall _ hp))).mpr ⟨hname, rfl, text, rfl, hmem⟩⟩

theorem mem_readThread {what : Str} {item : Str × Node} {e : Entry} (h : (readThread what item).2 = none) :
    e ∈ (readThread what item).1 ↔ e.1 = item.1 ∧ ∃ items pairs text, item.2 = .seq items ∧ .map pairs ∈ items ∧
      (e.2.1, .scalar text) ∈ pairs ∧ e.2.2 ∈ splitString text (str ",") := by
  obtain ⟨items, hitem, hall⟩ := readThread_none_iff.mp h
  rw [readThread, hitem] at h ⊢
  dsimp only at h ⊢
  rw [mem_gather h]
  constructor
  · rintro ⟨it, hit, he⟩
    obtain ⟨hname, pairs, text, rfl, hp, hmem⟩ := (mem_readItem (readItem_none_iff.mpr (hall it hit))).mp he
    exact ⟨hname, items, pairs, text, rfl, hit, hp, hmem⟩
  · rintro ⟨hname, items', pairs, text, hitems, hit, hp, hmem⟩
    cases hitems
    exact ⟨_, hit, (mem_readItem (readItem_none_iff.mpr (hall _ hit))).mpr ⟨hname, pairs, text, rfl, hp, hmem⟩⟩

/-- READ THROUGH: all that a configuration lists is put into the table, and nothing else. -/
theorem mem_readConfig {doc : Node} {what threadName : Str} {v : Setting} (h : WellFormed doc) :
    (threadName, v) ∈ (readConfig (some ⟨.ok doc, what⟩)).1 ↔ Configures doc threadName v := by
  have hnone : (readConfig (some ⟨.ok doc, what⟩)).2 = none := readConfig_none_iff.mpr h
  obtain ⟨names, rfl, hall⟩ := h
  rw [readConfig] at hnone ⊢
  rw [mem_gather hnone]
  constructor
  · rintro ⟨⟨name, node⟩, hitem, he⟩
    obtain ⟨rfl, items, pairs, text, rfl, hit, hp, hmem⟩ := (mem_readThread (readThread_none_iff.mpr (hall _ hitem))).mp he
    exact ⟨names, items, pairs, text, rfl, hitem, hit, hp, hmem⟩
  · rintro ⟨names', items, pairs, text, hnames, hitem, hit, hp, hmem⟩
    cases hnames
    exact ⟨_, hitem,
      (mem_readThread (readThread_none_iff.mpr (hall _ hitem))).mpr ⟨rfl, items, pairs, text, rfl, hit, hp, hmem⟩⟩

/-! ### `Enable` -/

/-- What `Enable` asks for: the system has the calls, there is no other parameter, and the file is good. -/
structure Accepted (env : Env) (param : Str) (doc : Node) : Prop where
  hasXcall : env.hasXcall = true
  keys : ∀ key ∈ (getKeyValueFromString param).keys, key = str "c" ∨ key = []
  file : ∃ what, env.file (configPath param) = some ⟨.ok doc, what⟩
  wellFormed : WellFormed doc

/-- An empty key is not noticed. -/
theorem invalidKeys_eq_nil_iff {keys : List Str} : invalidKeys keys = [] ↔ ∀ key ∈ keys, key = str "c" ∨ key = [] := by
  rw [invalidKeys, foldl_join_eq_nil_iff]
  simp

theorem settings_emplace {name : Str} {v : Setting} : ∀ (entries : List Entry) (table : UMap Str (List Setting)),
    v ∈ ((emplace table entries).find name).getD [] ↔ v ∈ (table.find name).getD [] ∨ (name, v) ∈ entries
  | [], table => by simp [emplace]
  | e :: entries, table => by
    rw [emplace, List.foldl_cons]
    refine (settings_emplace entries (table.push e.1 e.2)).trans ?_
    rw [UMap.find_push, List.mem_cons]
    obtain ⟨name', v'⟩ := e
    rcases eq_or_ne name name' with rfl | hne
    · simp [or_assoc]
    · simp [hne]

/-- `Enable` goes through where it gets what it asks for. -/
theorem enable_ok_iff {env : Env} {param : Str} {s : State} :
    (enable env param s).2.failed = false ↔ ∃ doc, Accepted env param doc := by
  have hkeys : invalidKeys ((getKeyValueFromString param).reorder env.order).keys = [] ↔
      ∀ key ∈ (getKeyValueFromString param).keys, key = str "c" ∨ key = [] := by
    rw [invalidKeys_eq_nil_iff]
    simp only [UMap.mem_keys_reorder]
  rw [enable]
  rcases Bool.eq_false_or_eq_true env.hasXcall with hx | hx
  · rw [if_neg (by simp [hx])]
    dsimp only
    rcases eq_or_ne (invalidKeys ((getKeyValueFromString param).reorder env.order).keys) [] with hnil | hnil
    · rw [if_neg (fun h => h hnil)]
      dsimp only
      rcases hfile : env.file (configPath param) with _ | ⟨what | doc, bad⟩
      · refine iff_of_false (fun h => by cases h) fun haccepted => ?_
        obtain ⟨doc, h⟩ := haccepted
        obtain ⟨what, hsome⟩ := h.file
        rw [hfile] at hsome
        cases hsome
      · refine iff_of_false (fun h => by cases h) fun haccepted => ?_
        obtain ⟨doc, h⟩ := haccepted
        obtain ⟨what, hsome⟩ := h.file
        rw [hfile] at hsome
        cases hsome
      · have hdoc : (∃ doc, Accepted env param doc) ↔ WellFormed doc := by
          constructor
          · rintro ⟨doc', h⟩
            obtain ⟨what, hsome⟩ := h.file
            rw [hfile] at hsome
            cases hsome
            exact h.wellFormed
          · exact fun h => ⟨doc, hx, hkeys.mp hnil, ⟨bad, hfile⟩, h⟩
        rw [hdoc, ← @readConfig_none_iff doc bad]
        cases (readConfig (some ⟨.ok doc, bad⟩)).2 with
        | none => exact iff_of_true rfl rfl
        | some payload => exact iff_of_false (fun h => by cases h) fun h => by cases h
    · rw [if_pos hnil]
      exact iff_of_false (fun h => by cases h) fun haccepted => hnil (hkeys.mpr haccepted.choose_spec.keys)
  · rw [if_pos hx]
    refine iff_of_false (fun h => by cases h) fun haccepted => ?_
    obtain ⟨_, h⟩ := haccepted
    rw [h.hasXcall] at hx
    cases hx

/-- What it finds in the table stays there. -/
theorem settings_enable {env : Env} {param : Str} {s : State} {doc : Node} (h : Accepted env param doc) {name : Str}
    {v : Setting} : v ∈ (enable env param s).1.settings name ↔ v ∈ s.settings name ∨ Configures doc name v := by
  obtain ⟨what, hfile⟩ := h.file
  have hnil : invalidKeys ((getKeyValueFromString param).reorder env.order).keys = [] := by
    rw [invalidKeys_eq_nil_iff]
    simpa only [UMap.mem_keys_reorder] using h.keys
  rw [enable, if_neg (by simp [h.hasXcall])]
  dsimp only
  rw [if_neg (fun hne => hne hnil), hfile]
  exact (settings_emplace _ _).trans (or_congr_right (mem_readConfig h.wellFormed))

/-! ### `UpdateData` -/

/-- The process is one of the threads' with the name. -/
def Tracked (s : State) (name : Str) (pid : Int32) : Prop := ∃ pids, s.threadId.find name = some pids ∧ pid ∈ pids.elems

/-- A setting of one of the process's names. -/
def Due (s : State) (pid : Int32) (v : Setting) : Prop := Valid v ∧ ∃ name, Tracked s name pid ∧ v ∈ s.settings name

theorem tracked_addThread {table : UMap Str (List Setting)} {m : UMap Str (USet Int32)} {t : ThreadInfo} {name : Str}
    {pid : Int32} : (∃ pids, (addThread table m t).find name = some pids ∧ pid ∈ pids.elems) ↔
      (∃ pids, m.find name = some pids ∧ pid ∈ pids.elems) ∨
        (table.count name = true ∧ t.name = name ∧ t.pid.toInt32 = pid) := by
  rw [addThread]
  split
  · rename_i hcount
    rw [UMap.find_insert]
    rcases eq_or_ne name t.name with rfl | hne
    · cases m.find t.name with
      | none => simp [hcount, eq_comm]
      | some pids => simp [hcount, eq_comm, or_comm]
    · simp [hne, hne.symm]
  · rename_i hcount
    refine ⟨Or.inl, fun h => h.resolve_right ?_⟩
    rintro ⟨hc, rfl, -⟩
    exact hcount hc

theorem tracked_foldl {table : UMap Str (List Setting)} {name : Str} {pid : Int32} : ∀ (data : List ThreadInfo)
    (m : UMap Str (USet Int32)), (∃ pids, (data.foldl (addThread table) m).find name = some pids ∧ pid ∈ pids.elems) ↔
      (∃ pids, m.find name = some pids ∧ pid ∈ pids.elems) ∨
        (table.count name = true ∧ ∃ t ∈ data, t.name = name ∧ t.pid.toInt32 = pid)
  | [], m => by simp
  | t :: data, m => by
    rw [List.foldl_cons, tracked_foldl data, tracked_addThread, List.exists_mem_cons_iff, or_assoc, ← and_or_left]

/-- Tracked are the threads whose name is in the table. -/
theorem tracked_updateData {data : List ThreadInfo} {s : State} {name : Str} {pid : Int32} :
    Tracked (updateData data s) name pid ↔
      s.xcallTune.count name = true ∧ ∃ t ∈ data, t.name = name ∧ t.pid.toInt32 = pid := by
  refine (tracked_foldl data .empty).trans ?_
  simp

theorem count_of_settings {s : State} {name : Str} {v : Setting} (h : v ∈ s.settings name) :
    s.xcallTune.count name = true := by
  rw [State.settings] at h
  rw [UMap.count]
  cases hfind : s.xcallTune.find name with
  | none =>
    rw [hfind] at h
    cases h
  | some vs => rfl

/-! ### `Run` -/

theorem xcallPath_injective {pid pid' : Int32} (h : xcallPath pid = xcallPath pid') : pid = pid' := by
  rw [xcallPath, xcallPath, List.append_left_inj, List.append_right_inj] at h
  exact Int32.toInt_inj.mp (showInt_injective h)

theorem mem_visits {order : Order} {s : State} {name : Str} {pid : Int32} :
    (name, pid) ∈ visits order s ↔ Tracked s name pid := by
  simp only [visits, List.mem_flatMap, List.mem_map, Prod.mk.injEq, USet.mem_reorder, UMap.mem_keys_reorder]
  constructor
  · rintro ⟨name, hname, pid, hpid, rfl, rfl⟩
    rw [UMap.mem_keys] at hname
    obtain ⟨pids, hfind⟩ := Option.isSome_iff_exists.mp hname
    rw [hfind] at hpid
    exact ⟨pids, hfind, hpid⟩
  · rintro ⟨pids, hfind, hpid⟩
    exact ⟨name, UMap.mem_keys_of_find hfind, pid, by rw [hfind]; exact hpid, rfl, rfl⟩

/-- What the system takes of a name's settings. -/
def taken (accepts : Str → Str → Bool) (path : Str) (vs : List Setting) : List Setting :=
  vs.filter (fun v => Valid v ∧ accepts path (value v) = true)

/-- What there is of a path: what is written there and what is recorded of it. -/
def World.at (w : World) (path : Str) : Option (List Setting) × Option (List Str) :=
  (w.files path, w.tune.openedXcall.find path)

section
variable {accepts : Str → Str → Bool} {path : Str} {w : World}

theorem at_apply_other {path' : Str} (h : path' ≠ path) (v : Setting) : (apply accepts path w v).at path' = w.at path' := by
  rw [apply]
  split
  · rw [World.at]
    dsimp only
    rw [UMap.find_push, if_neg h, Function.update_of_ne h]
    rfl
  · rfl

theorem settings_apply {v : Setting} : (apply accepts path w v).tune.settings = w.tune.settings := by
  rw [apply]
  split <;> rfl

theorem at_foldl_other {path' : Str} (h : path' ≠ path) : ∀ (vs : List Setting) (w : World),
    (vs.foldl (apply accepts path) w).at path' = w.at path'
  | [], _ => rfl
  | v :: vs, w => by rw [List.foldl_cons, at_foldl_other h vs, at_apply_other h]

theorem settings_foldl : ∀ (vs : List Setting) (w : World),
    (vs.foldl (apply accepts path) w).tune.settings = w.tune.settings
  | [], _ => rfl
  | v :: vs, w => by rw [List.foldl_cons, settings_foldl vs, settings_apply]

/-- Where there is no process, nothing is written. -/
theorem foldl_of_none (h : w.files path = none) : ∀ vs : List Setting, vs.foldl (apply accepts path) w = w
  | [] => rfl
  | v :: vs => by
    have hsame : apply accepts path w v = w := by
      rw [apply, if_neg]
      rintro ⟨-, hsome, -⟩
      rw [h] at hsome
      cases hsome
    rw [List.foldl_cons, hsame, foldl_of_none h vs]

/-- All that is taken is written and recorded. -/
theorem at_foldl : ∀ (vs : List Setting) {w : World} {applied : List Setting}, w.files path = some applied →
    (vs.foldl (apply accepts path) w).at path = (some (applied ++ taken accepts path vs),
      if taken accepts path vs = [] then w.tune.openedXcall.find path
      else some ((w.tune.openedXcall.find path).getD [] ++ (taken accepts path vs).map (·.2)))
  | [], w, applied, h => by simp [taken, World.at, h]
  | v :: vs, w, applied, h => by
    rw [List.foldl_cons]
    by_cases hv : Valid v ∧ accepts path (value v) = true
    · have happly : apply accepts path w v = ⟨{ w.tune with openedXcall := w.tune.openedXcall.push path v.2 },
          Function.update w.files path (some (applied ++ [v]))⟩ := by
        rw [apply, if_pos ⟨hv.1, by rw [h]; rfl, hv.2⟩, h]
        rfl
      have htaken : taken accepts path (v :: vs) = v :: taken accepts path vs := by
        rw [taken, List.filter_cons_of_pos (by simpa using hv)]
        rfl
      rw [happly, at_foldl vs (Function.update_self ..), htaken, if_neg (List.cons_ne_nil v _)]
      dsimp only
      rw [UMap.find_push, if_pos rfl, List.append_assoc]
      split
      · rename_i hnil
        rw [hnil]
        rfl
      · simp
    · have happly : apply accepts path w v = w := by
        rw [apply, if_neg fun hall => hv ⟨hall.1, hall.2.2⟩]
      have htaken : taken accepts path (v :: vs) = taken accepts path vs := by
        rw [taken, List.filter_cons_of_neg (by simpa using hv)]
        rfl
      rw [happly, at_foldl vs h, htaken]

end

section
variable {accepts : Str → Str → Bool} {w : World} {pid : Int32}

theorem settings_runProcess {visit : Str × Int32} : (runProcess accepts w visit).tune.settings = w.tune.settings := by
  rw [runProcess]
  split
  · rfl
  · rw [settings_foldl]
    funext name
    rw [State.settings, State.settings, UMap.find_insertNew]
    split
    · rename_i h
      rw [UMap.count, Option.isSome_eq_false_iff, Option.isNone_iff_eq_none] at h
      rw [h.1, h.2]
      rfl
    · rfl

theorem at_runProcess_other {name : Str} {pid' : Int32} (h : pid' ≠ pid) :
    (runProcess accepts w (name, pid')).at (xcallPath pid) = w.at (xcallPath pid) := by
  rw [runProcess]
  split
  · rfl
  · rw [at_foldl_other fun heq => h (xcallPath_injective heq).symm]
    rfl

/-- A process that is recorded, or is no more, is left alone. -/
theorem at_runProcess_done {name : Str}
    (h : (w.at (xcallPath pid)).2 ≠ none ∨ (w.at (xcallPath pid)).1 = none) :
    (runProcess accepts w (name, pid)).at (xcallPath pid) = w.at (xcallPath pid) := by
  rw [runProcess]
  split
  · rfl
  · rename_i hcount
    have hnone : w.files (xcallPath pid) = none := by
      refine h.resolve_left fun hne => hcount ?_
      rw [UMap.count]
      exact Option.isSome_iff_ne_none.mpr hne
    rw [foldl_of_none (by exact hnone)]
    rfl

theorem at_done : ∀ (visits : List (Str × Int32)) {w : World},
    (w.at (xcallPath pid)).2 ≠ none ∨ (w.at (xcallPath pid)).1 = none →
    (visits.foldl (runProcess accepts) w).at (xcallPath pid) = w.at (xcallPath pid)
  | [], _, _ => rfl
  | (name, pid') :: visits, w, h => by
    have hsame : (runProcess accepts w (name, pid')).at (xcallPath pid) = w.at (xcallPath pid) := by
      rcases eq_or_ne pid' pid with rfl | hne
      · exact at_runProcess_done h
      · exact at_runProcess_other hne
    rw [List.foldl_cons, at_done visits (by rw [hsame]; exact h), hsame]

/-- A process that is not gets what is taken of this name. -/
theorem at_runProcess {name : Str} (h : w.at (xcallPath pid) = (some [], none)) :
    (runProcess accepts w (name, pid)).at (xcallPath pid) =
      (some (taken accepts (xcallPath pid) (w.tune.settings name)),
        if taken accepts (xcallPath pid) (w.tune.settings name) = [] then none
        else some ((taken accepts (xcallPath pid) (w.tune.settings name)).map (·.2))) := by
  obtain ⟨hfiles, hfind⟩ := Prod.mk.inj h
  rw [runProcess, if_neg (by rw [UMap.count, hfind]; exact Bool.false_ne_true)]
  refine (at_foldl _ (by exact hfiles)).trans ?_
  dsimp only
  rw [hfind]
  rfl

/-- ONE NAME: a process that is not recorded gets the settings of the first of its names that has one. -/
theorem at_visits : ∀ (visits : List (Str × Int32)) {w : World}, w.at (xcallPath pid) = (some [], none) →
    (∀ name, (name, pid) ∈ visits → taken accepts (xcallPath pid) (w.tune.settings name) = []) ∧
        (visits.foldl (runProcess accepts) w).at (xcallPath pid) = (some [], none) ∨
      ∃ name, (name, pid) ∈ visits ∧ taken accepts (xcallPath pid) (w.tune.settings name) ≠ [] ∧
        (visits.foldl (runProcess accepts) w).at (xcallPath pid) =
          (some (taken accepts (xcallPath pid) (w.tune.settings name)),
            some ((taken accepts (xcallPath pid) (w.tune.settings name)).map (·.2)))
  | [], _, h => Or.inl ⟨fun name hmem => absurd hmem List.not_mem_nil, h⟩
  | (name, pid') :: visits, w, h => by
    rw [List.foldl_cons]
    rcases eq_or_ne pid pid' with rfl | hne
    · have hone := @at_runProcess accepts w pid name h
      rcases eq_or_ne (taken accepts (xcallPath pid) (w.tune.settings name)) [] with hnil | hnil
      · rw [hnil, if_pos rfl] at hone
        rcases at_visits visits hone with ⟨hall, hat⟩ | ⟨other, hmem, htaken, hat⟩
        · refine Or.inl ⟨fun name' hmem => ?_, hat⟩
          rcases List.mem_cons.mp hmem with heq | hmem
          · cases heq
            exact hnil
          · rw [← hall name' hmem, settings_runProcess]
        · rw [settings_runProcess] at htaken hat
          exact Or.inr ⟨other, List.mem_cons_of_mem _ hmem, htaken, hat⟩
      · rw [if_neg hnil] at hone
        refine Or.inr ⟨name, List.mem_cons_self, hnil, ?_⟩
        rw [at_done visits (Or.inl (by rw [hone]; exact Option.some_ne_none _)), hone]
    · have hone := @at_runProcess_other accepts w pid name pid' hne.symm
      rcases at_visits visits (hone.trans h) with ⟨hall, hat⟩ | ⟨other, hmem, htaken, hat⟩
      · refine Or.inl ⟨fun name' hmem => ?_, hat⟩
        rcases List.mem_cons.mp hmem with heq | hmem
        · cases heq
          exact absurd rfl hne
        · rw [← hall name' hmem, settings_runProcess]
      · rw [settings_runProcess] at htaken hat
        exact Or.inr ⟨other, List.mem_cons_of_mem _ hmem, htaken, hat⟩

end

/-! ### `Disable` -/

/-- What is recorded of a file are the numbers written there. -/
def Recorded (w : World) : Prop :=
  ∀ pid applied, w.files (xcallPath pid) = some applied →
    applied.map (·.2) = (w.tune.openedXcall.find (xcallPath pid)).getD []

/-- What `Disable` writes to one file. -/
def revoked (order : List Str) (w : World) (path : Str) : List Str :=
  ((revocations order w).filter (fun r => r.1 = path)).map (·.2)

theorem revoked_eq {order : List Str} {w : World} {path : Str} : revoked order w path =
    if (w.files path).isSome then ((w.tune.openedXcall.find path).getD []).map (str "!" ++ ·) else [] := by
  have hkey : ∀ k, ∀ x ∈ (if (w.files k).isSome then
      ((w.tune.openedXcall.find k).getD []).map (fun number => (k, str "!" ++ number)) else []), x.1 = k := by
    intro k x hx
    split at hx
    · obtain ⟨number, -, rfl⟩ := List.mem_map.mp hx
      rfl
    · cases hx
  rw [revoked, revocations, filter_flatMap_key _ hkey path (UMap.nodup _)]
  simp only [UMap.mem_keys_reorder]
  split
  · split
    · rw [List.map_map]
      rfl
    · rfl
  · rename_i hmem
    rw [UMap.find_eq_none hmem]
    simp

/-! ### What holds in runs -/

/-- The configuration of the call lists the setting under the name. -/
def InFile (env : Env) (param : Str) (name : Str) (v : Setting) : Prop :=
  ∃ doc what, env.file (configPath param) = some ⟨.ok doc, what⟩ ∧ Configures doc name v

/-- When an act does what it should. -/
def Exact (w : World) : Act → Prop
  -- the settings in force are those of the file
  | .enable env param => (enable env param w.tune).2.failed = false →
      ∀ name v, v ∈ (enable env param w.tune).1.settings name ↔ InFile env param name v
  -- due to a process are the settings of the names its threads have
  | .updateData data => ∀ pid v, Due (updateData data w.tune) pid v ↔
      Valid v ∧ ∃ t ∈ data, t.pid.toInt32 = pid ∧ v ∈ w.tune.settings t.name
  -- all that is due is applied, and nothing else
  | .run order accepts => ∀ pid applied, w.files (xcallPath pid) = some applied →
      ∃ applied', (run order accepts w).files (xcallPath pid) = some applied' ∧
        (∀ v, Due w.tune pid v → v ∈ applied') ∧ ∀ v ∈ applied', v ∈ applied ∨ Due w.tune pid v
  -- what was applied is revoked, and nothing else
  | .disable order => ∀ pid, revoked order w (xcallPath pid) =
      ((w.files (xcallPath pid)).getD []).map (fun v => str "!" ++ v.2)
  | .start _ | .exit _ => True

/-- When it does so: nothing is left in the table but what the file has; a process that is recorded has all that is due
    to it already; for any other the system takes what is due, and its names do not differ in their settings, unless
    one has none; and a process does not begin under a recorded number. -/
def Fits (w : World) : Act → Prop
  | .enable env param => ∀ doc, Accepted env param doc → ∀ name v, v ∈ w.tune.settings name → Configures doc name v
  | .run _ accepts => ∀ pid applied, w.files (xcallPath pid) = some applied →
      if w.tune.openedXcall.count (xcallPath pid) then ∀ v, Due w.tune pid v → v ∈ applied
      else (∀ v, Due w.tune pid v → accepts (xcallPath pid) (value v) = true) ∧
        ∀ name name' v v', Tracked w.tune name pid → Tracked w.tune name' pid →
          Valid v → v ∈ w.tune.settings name → Valid v' → v' ∈ w.tune.settings name' → v ∈ w.tune.settings name'
  | .start pid => w.tune.openedXcall.count (xcallPath pid) = false
  | .updateData _ | .disable _ | .exit _ => True

theorem mem_taken {accepts : Str → Str → Bool} {path : Str} {vs : List Setting} {v : Setting} :
    v ∈ taken accepts path vs ↔ v ∈ vs ∧ Valid v ∧ accepts path (value v) = true := by
  rw [taken, List.mem_filter, decide_eq_true_eq]

theorem openedXcall_enable {env : Env} {param : Str} {s : State} :
    (enable env param s).1.openedXcall = s.openedXcall := by
  rw [enable]
  split
  · rfl
  · dsimp only
    split <;> rfl

theorem find_none_of_count {w : World} {pid : Int32} (h : ¬ w.tune.openedXcall.count (xcallPath pid) = true) :
    w.tune.openedXcall.find (xcallPath pid) = none := by
  rwa [UMap.count, Bool.not_eq_true, Option.isSome_eq_false_iff, Option.isNone_iff_eq_none] at h

/-- What is not recorded has got nothing. -/
theorem Recorded.at_none {w : World} (hr : Recorded w) {pid : Int32} {applied : List Setting}
    (hfiles : w.files (xcallPath pid) = some applied) (hcount : ¬ w.tune.openedXcall.count (xcallPath pid) = true) :
    w.at (xcallPath pid) = (some [], none) := by
  have hnone := find_none_of_count hcount
  have happlied := hr pid applied hfiles
  rw [hnone, Option.getD_none, List.map_eq_nil_iff] at happlied
  rw [World.at, hfiles, hnone, happlied]

theorem recorded_run {order : Order} {accepts : Str → Str → Bool} {w : World} (hr : Recorded w) :
    Recorded (run order accepts w) := by
  intro pid applied' hfiles'
  have hdone : ∀ {x : Option (List Setting) × Option (List Str)}, (run order accepts w).at (xcallPath pid) = x →
      (∀ applied, x.1 = some applied → applied.map (·.2) = x.2.getD []) →
      applied'.map (·.2) = ((run order accepts w).tune.openedXcall.find (xcallPath pid)).getD [] := by
    rintro x rfl hx
    exact hx applied' hfiles'
  rcases hfiles : w.files (xcallPath pid) with _ | applied
  · refine hdone (at_done _ (Or.inr hfiles)) fun applied happlied => ?_
    rw [World.at, hfiles] at happlied
    cases happlied
  · by_cases hcount : w.tune.openedXcall.count (xcallPath pid) = true
    · refine hdone (at_done _ (Or.inl (Option.isSome_iff_ne_none.mp hcount))) fun applied happlied => ?_
      exact hr pid applied happlied
    · rcases at_visits (visits order w.tune) (hr.at_none hfiles hcount) with ⟨-, hat⟩ | ⟨name, -, -, hat⟩
      · refine hdone hat fun applied happlied => ?_
        cases happlied
        rfl
      · refine hdone hat fun applied happlied => ?_
        cases happlied
        rfl

theorem recorded_next {w : World} (hr : Recorded w) : ∀ {act : Act}, Fits w act → Recorded (next w act)
  | .enable env param, _ => by
    intro pid applied hfiles
    rw [next, openedXcall_enable]
    exact hr pid applied hfiles
  | .updateData _, _ => hr
  | .run _ _, _ => recorded_run hr
  | .disable _, _ => by
    intro pid applied hfiles
    obtain ⟨_, -, rfl⟩ := Option.map_eq_some_iff.mp hfiles
    rfl
  | .start begun, hfits => by
    intro pid applied hfiles
    rcases eq_or_ne pid begun with rfl | hne
    · dsimp only [next] at hfiles
      rw [Function.update_self] at hfiles
      cases hfiles
      rw [next, find_none_of_count (by rw [show _ = false from hfits]; exact Bool.false_ne_true)]
      rfl
    · dsimp only [next] at hfiles
      rw [Function.update_of_ne fun h => hne (xcallPath_injective h)] at hfiles
      exact hr pid applied hfiles
  | .exit ended, _ => by
    intro pid applied hfiles
    rcases eq_or_ne pid ended with rfl | hne
    · dsimp only [next] at hfiles
      rw [Function.update_self] at hfiles
      cases hfiles
    · dsimp only [next] at hfiles
      rw [Function.update_of_ne fun h => hne (xcallPath_injective h)] at hfiles
      exact hr pid applied hfiles

theorem exact_enable {env : Env} {param : Str} {w : World} : Exact w (.enable env param) ↔ Fits w (.enable env param) := by
  constructor
  · intro hexact doc hacc name v hv
    obtain ⟨doc', what, hfile, hconf⟩ := (hexact (enable_ok_iff.mpr ⟨doc, hacc⟩) name v).mp
      ((settings_enable hacc).mpr (Or.inl hv))
    obtain ⟨what', hfile'⟩ := hacc.file
    rw [hfile] at hfile'
    cases hfile'
    exact hconf
  · intro hfits hok name v
    obtain ⟨doc, hacc⟩ := enable_ok_iff.mp hok
    obtain ⟨what, hfile⟩ := hacc.file
    rw [settings_enable hacc]
    constructor
    · intro h
      exact ⟨doc, what, hfile, h.elim (hfits doc hacc name v) id⟩
    · rintro ⟨doc', what', hfile', hconf⟩
      rw [hfile] at hfile'
      cases hfile'
      exact Or.inr hconf

theorem exact_updateData {data : List ThreadInfo} {w : World} : Exact w (.updateData data) := by
  intro pid v
  refine and_congr_right fun _ => ?_
  constructor
  · rintro ⟨name, htracked, hv⟩
    obtain ⟨-, t, ht, rfl, hpid⟩ := tracked_updateData.mp htracked
    exact ⟨t, ht, hpid, hv⟩
  · rintro ⟨t, ht, hpid, hv⟩
    exact ⟨t.name, tracked_updateData.mpr ⟨count_of_settings hv, t, ht, rfl, hpid⟩, hv⟩

theorem exact_run {order : Order} {accepts : Str → Str → Bool} {w : World} (hr : Recorded w)
    (hfits : Fits w (.run order accepts)) : Exact w (.run order accepts) := by
  intro pid applied hfiles
  have hfit := hfits pid applied hfiles
  by_cases hcount : w.tune.openedXcall.count (xcallPath pid) = true
  · rw [if_pos hcount] at hfit
    have hat : (run order accepts w).at (xcallPath pid) = w.at (xcallPath pid) :=
      at_done _ (Or.inl (Option.isSome_iff_ne_none.mp hcount))
    exact ⟨applied, (Prod.mk.inj hat).1.trans hfiles, hfit, fun v => Or.inl⟩
  · rw [if_neg hcount] at hfit
    obtain ⟨htake, hsame⟩ := hfit
    rcases at_visits (visits order w.tune) (hr.at_none hfiles hcount) with ⟨hnil, hat⟩ | ⟨name, hmem, hne, hat⟩
    · refine ⟨[], (Prod.mk.inj hat).1, fun v hdue => ?_, fun v hv => by cases hv⟩
      obtain ⟨hvalid, name, htracked, hv⟩ := hdue
      have hmem := mem_taken.mpr ⟨hv, hvalid, htake v ⟨hvalid, name, htracked, hv⟩⟩
      rwa [hnil name (mem_visits.mpr htracked)] at hmem
    · have htracked := mem_visits.mp hmem
      refine ⟨_, (Prod.mk.inj hat).1, fun v hdue => ?_, fun v hv => Or.inr ?_⟩
      · obtain ⟨hvalid, name', htracked', hv⟩ := hdue
        obtain ⟨v0, hv0⟩ := List.exists_mem_of_ne_nil _ hne
        obtain ⟨hmem0, hvalid0, -⟩ := mem_taken.mp hv0
        exact mem_taken.mpr ⟨hsame name' name v v0 htracked' htracked hvalid hv hvalid0 hmem0, hvalid,
          htake v ⟨hvalid, name', htracked', hv⟩⟩
      · obtain ⟨hmem, hvalid, -⟩ := mem_taken.mp hv
        exact ⟨hvalid, name, htracked, hmem⟩

theorem exact_disable {order : List Str} {w : World} (hr : Recorded w) : Exact w (.disable order) := by
  intro pid
  rw [revoked_eq]
  cases hfiles : w.files (xcallPath pid) with
  | none => rfl
  | some applied =>
    rw [← hr pid applied hfiles, if_pos Option.isSome_some, List.map_map]
    rfl

/-- ALL THAT IS DUE, ONCE: after acts that fit, an act that fits puts in force what the file has and nothing else, has all
    that is due to a process applied and nothing else, whatever the order, and revokes what was applied and nothing
    else. -/
theorem exact_of_runs {w : World} (h : Runs step World.init Fits w) {act : Act} (hfits : Fits w act) : Exact w act := by
  have hr : Recorded w := by
    refine h.invariant (fun pid applied hfiles => by cases hfiles) fun w act w' hr hfits hstep => ?_
    cases hstep
    exact recorded_next hr hfits
  cases act with
  | enable env param => exact exact_enable.mpr hfits
  | updateData data => exact exact_updateData
  | run order accepts => exact exact_run hr hfits
  | disable order => exact exact_disable hr
  | start pid => trivial
  | exit pid => trivial

/-! ### Samples -/

namespace Example

def redis : Str := str "redis-server"
def mysql : Str := str "mysqld"

def list (number : String) : Node := .seq [.map [(str "xcall_1", .scalar (str number))]]

/-- Two files; the second is good as far as the first name. -/
def sampleFile (path : Str) : Option ConfigFile :=
  if path = XCALL_CONFIG_PATH then
    some ⟨.ok (.map [(redis, .seq [.map [(str "xcall_1", .scalar (str "98,500")), (str "xcall_2", .scalar (str "22"))]])]), []⟩
  else if path = str "/bad" then some ⟨.ok (.map [(mysql, list "63"), (redis, .scalar [])]), []⟩
  else if path = str "/two" then some ⟨.ok (.map [(redis, list "98"), (mysql, list "63")]), []⟩
  else none

def sampleEnv : Env := ⟨true, [], sampleFile⟩

/-- A process's threads under the one name, and under both. -/
def sampleThreads : List ThreadInfo := [⟨7, 7, redis⟩, ⟨7, 8, redis⟩]
def bothThreads : List ThreadInfo := [⟨7, 7, redis⟩, ⟨7, 8, mysql⟩]

def anyOrder : Order := ⟨[], fun _ => []⟩

def reach (acts : List Act) : World := acts.foldl next World.init

def toRun : List Act := [.start 7, .enable sampleEnv [], .updateData sampleThreads]

theorem runs_toRun : Runs step World.init Fits (reach toRun) := by
  refine .next (a := .updateData sampleThreads) (.next (a := .enable sampleEnv []) (.next (a := .start 7) .start ?_ rfl)
    ?_ rfl) trivial rfl
  · exact rfl
  · intro doc _ name v hv
    cases hv

theorem settings_toRun (name : Str) : (reach toRun).tune.settings name =
    if name = redis then [(str "xcall_1", str "98"), (str "xcall_1", str "500"), (str "xcall_2", str "22")] else [] := by
  rcases eq_or_ne name redis with rfl | hne
  · decide +kernel
  · rw [if_neg hne]
    have hkeys : (reach toRun).tune.xcallTune.keys = [redis] := by decide +kernel
    rw [State.settings, UMap.find_eq_none (by rw [hkeys]; simpa using hne)]
    rfl

theorem fits_run : Fits (reach toRun) (.run anyOrder (fun _ _ => true)) := by
  intro pid applied hfiles
  have hcount : (reach toRun).tune.openedXcall.count (xcallPath pid) = false := rfl
  rw [if_neg (by rw [hcount]; exact Bool.false_ne_true)]
  refine ⟨fun _ _ => rfl, fun name name' v v' _ _ _ hv _ hv' => ?_⟩
  rw [settings_toRun] at hv hv' ⊢
  split at hv'
  · rename_i hname'
    split at hv
    · rwa [if_pos hname']
    · cases hv
  · cases hv'

end Example

/-- The process has what its configuration lists, as far as it is valid. -/
theorem exact_of_runs_redis : ∃ applied', (next (Example.reach Example.toRun)
      (.run Example.anyOrder (fun _ _ => true))).files (xcallPath 7) = some applied' ∧
    (∀ v, Due (Example.reach Example.toRun).tune 7 v → v ∈ applied') ∧
    ∀ v ∈ applied', v ∈ ([] : List Setting) ∨ Due (Example.reach Example.toRun).tune 7 v :=
  exact_of_runs Example.runs_toRun Example.fits_run 7 [] (by decide +kernel)

/-- What a failed call has put into the table is in force after the next; of two names that a process has it gets the
    settings of the first; and a process that has got nothing is told to take back what another had. -/
theorem not_exact :
    ¬ Exact (Example.reach [.enable Example.sampleEnv (str "c:/bad")]) (.enable Example.sampleEnv []) ∧
    ¬ Exact (Example.reach [.start 7, .enable Example.sampleEnv (str "c:/two"), .updateData Example.bothThreads])
      (.run Example.anyOrder (fun _ _ => true)) ∧
    ¬ Exact (Example.reach (Example.toRun ++ [.run Example.anyOrder (fun _ _ => true), .exit 7, .start 7]))
      (.disable []) := by
  refine ⟨fun h => ?_, fun h => ?_, fun h => ?_⟩
  · obtain ⟨doc, what, hfile, names, items, pairs, text, rfl, hitem, -⟩ :=
      (h (by decide +kernel) Example.mysql (str "xcall_1", str "63")).mp (by decide +kernel)
    have hnames : names.map (·.1) = [Example.redis] := by
      cases hfile
      rfl
    have hmem : Example.mysql ∈ names.map (·.1) := List.mem_map.mpr ⟨_, hitem, rfl⟩
    rw [hnames] at hmem
    revert hmem
    decide +kernel
  · obtain ⟨applied', hfiles, hall, -⟩ := h 7 [] (by decide +kernel)
    have hdue := hall (str "xcall_1", str "98")
      ⟨by decide +kernel, Example.redis, ⟨_, rfl, by decide +kernel⟩, by decide +kernel⟩
    have hgot : some applied' = some [(str "xcall_1", str "63")] := hfiles.symm.trans (by decide +kernel)
    cases hgot
    revert hdue
    decide +kernel
  · have heq := h 7
    revert heq
    decide +kernel

end XcallTune
end OeAware

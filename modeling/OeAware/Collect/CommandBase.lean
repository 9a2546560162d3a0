import Mathlib.Logic.Function.Basic
import OeAware.Common.Numbers
import OeAware.Common.Register
import OeAware.Schemes.Container
import OeAware.Schemes.Loops
import OeAware.Schemes.Words

/-! @src src/plugin/collect/system/command/command_base.cpp, src/common/data_register.cpp |
    name:CommandBase, CommandData | scheme:words

    A command that is allowed is run, and its output is read line by line. A line with one of some words is a
    header and says what the columns are called; other lines are rows, of the table of the last header. When
    there are rows they are published with their headers, in arrays of a fixed length.

        Device r/s w/s     ──▶  dataTypes[t Device] = Device r/s w/s
        sda    1.0 2.0     ──▶  datas[t Device]     = [sda 1.0 2.0]

    `publish` may come after any line. Rows are not compared with headers, nor headers with the arrays. -/

namespace OeAware
open Schemes

namespace CommandBase

def command : List Str := [str "mpstat", str "iostat", str "vmstat", str "sar", str "pidstat"]

def illegal : List Str := [str "|", str ";", str "&", str ">", str "<", str "`", str "\n"]

/-- `ValidateCmd`: nothing illegal before the first `NUL`. -/
def validateCmd (cmd : Str) : Bool := illegal.all (fun word => !decide (word <:+: cStr cmd))

def validateArgs (topic : Topic) : Bool :=
  if topic.topicName ∉ command then false else validateCmd topic.params

def getCommand (topic : Topic) : Str := topic.topicName ++ str " " ++ topic.params

/-! ### Lines -/

def attrsFirst (topicName : Str) : List Str :=
  if topicName = str "sar" then [str "pgpgin/s", str "kbmemfree", str "runq-sz", str "DEV", str "IFACE"]
  else if topicName = str "iostat" then [str "Device", str "avg-cpu:"]
  else if topicName = str "mpstat" then [str "CPU"]
  else if topicName = str "pidstat" then [str "UID"]
  else if topicName = str "vmstat" then [str "swpd"]
  else []

def skipLine : List Str := [str "---swap--", str "Average:"]

/-- `line.find(s) != std::string::npos`. -/
def contains (line s : Str) : Bool := decide (s <:+: line)

inductive Line
  | skipped
  | header (attr : Str) (names : List Str)
  | row (values : List Str)

/-- What `ParseLine` takes a line for. -/
def readLine (topicName line : Str) : Line :=
  if line.all (fun c => decide (c ∈ str " \t\x0d\n")) || contains line (str "Linux") then .skipped
  else if skipLine.any (contains line) then .skipped
  else match (attrsFirst topicName).find? (contains line) with
    | some attr => .header attr ((words isSpace line).filter (fun name => name ≠ str "avg-cpu:"))
    | none => .row (words isSpace line)

structure State where
  hasNewData : Bool
  dataTypes : UMap Str (List Str)
  datas : UMap Str (List (List Str))
  nowType : Str

def State.init : State := ⟨false, .empty, .empty, []⟩

def parseLine (topic : Topic) (line : Str) (s : State) : State :=
  match readLine topic.topicName line with
  | .skipped => s
  | .header attr names =>
    let nowType := topic.getType ++ attr
    if s.dataTypes.count nowType then { s with nowType := nowType }
    else { s with nowType := nowType, dataTypes := s.dataTypes.pushAll nowType names }
  | .row values => { s with datas := s.datas.push s.nowType values, hasNewData := true }

/-- What `fgets` with a buffer of 256 bytes makes of the output of a command; `cur` is in the buffer. -/
def buffersFrom (cur : Str) : Str → List Str
  | [] => if cur = [] then [] else [cStr cur]
  | c :: cs =>
    if c = 10 ∨ cur.length + 1 = 255 then cStr (cur ++ [c]) :: buffersFrom [] cs
    else buffersFrom (cur ++ [c]) cs

/-! ### Tables -/

/-- The length of `itemAttr` and of `value`. -/
def ATTR_MAX_LENGTH : ℕ := 20

/-- `CommandData`: what has been put into its arrays. -/
structure Table where
  itemAttr : List Str
  items : List (List Str)
  deriving DecidableEq

/-- The names and values are put one by one into arrays; there is no result where one is put behind the end. -/
def makeTable (attrs : List Str) (rows : List (List Str)) : Option Table :=
  if attrs.length ≤ ATTR_MAX_LENGTH ∧ ∀ row ∈ rows, row.length ≤ ATTR_MAX_LENGTH then some ⟨attrs, rows⟩ else none

def State.attrs (s : State) (type : Str) : List Str := (s.dataTypes.find type).getD []

def State.rows (s : State) (type : Str) : List (List Str) := (s.datas.find type).getD []

/-- The types with rows. -/
def State.pending (s : State) : List Str := s.datas.keys.filter (fun type => s.rows type ≠ [])

/-- `FillDataStruct`; looking up the names of a type makes an entry for it. -/
def fillDataStruct (s : State) : Option (List Table × State) := do
  let tables ← s.pending.mapM (fun type => makeTable (s.attrs type) (s.rows type))
  return (tables, { s with
    dataTypes := s.pending.foldl (fun m type => m.insertNew type []) s.dataTypes
    datas := s.datas.mapVal (fun _ _ => []) })

/-- A round of `PublishThread`. -/
def publish (s : State) : Option (List Table × State) :=
  if s.hasNewData then fillDataStruct { s with hasNewData := false } else some ([], s)

def close (s : State) : State := { s with datas := .empty }

/-- An element of an array up to which it has been filled. -/
def cell (xs : List Str) (j : ℕ) : Option Str := if j < ATTR_MAX_LENGTH then xs[j]? else none

def cells (xs : List Str) (n : ℕ) : Option (List Str) := (List.range n).mapM (cell xs)

/-- `CommandDataSerialize`: the strings that it writes after both lengths. -/
def Table.serialize (t : Table) : Option (List Str) := do
  let attrs ← cells t.itemAttr t.itemAttr.length
  let rows ← t.items.mapM (fun row => cells row t.itemAttr.length)
  return attrs ++ rows.flatten

/-- `CommandDataFree`: what is freed. -/
def Table.free (t : Table) : Option (List Str × List (List Str)) := do
  let attrs ← cells t.itemAttr t.itemAttr.length
  let rows ← t.items.mapM (fun row => cells row t.itemAttr.length)
  return (attrs, rows)

/-- `n` strings that are read into an array. -/
def readCells (n : ℕ) (strs : List Str) : Option (List Str × List Str) :=
  if n ≤ ATTR_MAX_LENGTH ∧ n ≤ strs.length then some (strs.take n, strs.drop n) else none

def readRows (n : ℕ) : ℕ → List Str → Option (List (List Str))
  | 0, _ => some []
  | k + 1, strs => do
    let (row, strs) ← readCells n strs
    let rows ← readRows n k strs
    return row :: rows

/-- `CommandDataDeserialize`. -/
def Table.deserialize (attrLen itemLen : ℕ) (strs : List Str) : Option Table := do
  let (attrs, strs) ← readCells attrLen strs
  let rows ← readRows attrLen itemLen strs
  return ⟨attrs, rows⟩

/-- The arrays hold the table, and each row has a value for each attribute. -/
def Table.Regular (t : Table) : Prop :=
  t.itemAttr.length ≤ ATTR_MAX_LENGTH ∧ ∀ row ∈ t.items, row.length = t.itemAttr.length

/-- It is, and it can be written, read and freed. -/
def Table.Safe (t : Table) : Prop :=
  t.Regular ∧ t.free = some (t.itemAttr, t.items) ∧
    ∃ strs, t.serialize = some strs ∧ Table.deserialize t.itemAttr.length t.items.length strs = some t

theorem cells_self {xs : List Str} (h : xs.length ≤ ATTR_MAX_LENGTH) : cells xs xs.length = some xs := by
  have hcell : ∀ j b, cell xs j = some b ↔ (j < ATTR_MAX_LENGTH ∧ j < xs.length) ∧ b = (xs[j]?).getD [] := by
    intro j b
    unfold cell
    by_cases hmax : j < ATTR_MAX_LENGTH
    · by_cases hlen : j < xs.length
      · rw [if_pos hmax, List.getElem?_eq_getElem hlen]
        simp [hmax, hlen, eq_comm]
      · rw [if_pos hmax, List.getElem?_eq_none (not_lt.mp hlen)]
        simp [hlen]
    · rw [if_neg hmax]
      simp [hmax]
  refine (mapM_eq_some_iff hcell).mpr ⟨fun j hj => ?_, ?_⟩
  · rw [List.mem_range] at hj
    exact ⟨by omega, hj⟩
  · refine List.ext_getElem (by simp) (fun j hj hj' => ?_)
    simp [hj]

theorem cells_rows {n : ℕ} (hn : n ≤ ATTR_MAX_LENGTH) : ∀ {rows : List (List Str)},
    (∀ row ∈ rows, row.length = n) → rows.mapM (fun row => cells row n) = some rows
  | [], _ => rfl
  | row :: rows, h => by
    obtain ⟨rfl, hrows⟩ := List.forall_mem_cons.mp h
    rw [List.mapM_cons, cells_self hn, cells_rows hn hrows]
    rfl

theorem readRows_flatten {n : ℕ} (hn : n ≤ ATTR_MAX_LENGTH) : ∀ {rows : List (List Str)},
    (∀ row ∈ rows, row.length = n) → readRows n rows.length rows.flatten = some rows
  | [], _ => rfl
  | row :: rows, h => by
    obtain ⟨hrow, hrows⟩ := List.forall_mem_cons.mp h
    rw [List.length_cons, readRows, readCells, List.flatten_cons, if_pos ⟨hn, by simp [hrow]⟩,
      List.take_left' hrow, List.drop_left' hrow]
    simp [readRows_flatten hn hrows]

/-- What is regular can be worked with. -/
theorem Table.Regular.safe {t : Table} (h : t.Regular) : t.Safe := by
  obtain ⟨hmax, hrows⟩ := h
  have hattrs := cells_self hmax
  have hcells := cells_rows hmax hrows
  refine ⟨⟨hmax, hrows⟩, ?_, t.itemAttr ++ t.items.flatten, ?_, ?_⟩
  · unfold Table.free
    rw [hattrs, hcells]
    rfl
  · unfold Table.serialize
    rw [hattrs, hcells]
    rfl
  · unfold Table.deserialize readCells
    rw [if_pos ⟨hmax, by simp⟩, List.take_left' rfl, List.drop_left' rfl]
    simp [readRows_flatten hmax hrows]

end CommandBase
end OeAware

import Mathlib.Data.Vector.Basic
import OeAware.Data.Readers

/-! @src src/common/data_register.cpp |
    name:PmuCountingData, PmuSamplingData, PmuSpeData, PmuUncoreData | scheme:wire

    The codecs of the PMU collectors' data. The four differ in what a record ends with and in what they
    return when a string cannot be copied. A record's call stack is a linked list, counted first and
    then written frame by frame. The decoder makes each node one step ahead, the first before it looks
    at the count: a record without a stack comes back with one node, whose symbol is null.

        stack ──count──▶ [0][record]  ──▶  new Stack() ── loop 0 times ──▶ ● (no symbol)

    The records are those of libkperf, which is not part of the program; a number of its is known by the
    bytes that it takes in memory, how many those are is left open. -/

namespace OeAware
open Schemes

/-- The size in bytes of the numbers in libkperf's records. -/
structure Kperf where
  (addr lineNum offset codeMapEndAddr codeMapAddr symbolCount stackCount : ℕ)
  (ts pid tid cpu coreId numaId socketId period count countPercent : ℕ)
  (pa va event : ℕ)

/-- A number, as the bytes it takes in memory. -/
abbrev Scalar (w : ℕ) := List.Vector UInt8 w

/-- A number that `new T()` has made. -/
def Scalar.zero (w : ℕ) : Scalar w := List.Vector.replicate w 0

theorem length_read (s : InStream) (old : Str) : (s.read old).1.length = old.length := by
  rw [InStream.read]
  split
  · simp only [List.length_append, List.length_take, List.length_drop]
    omega
  · rfl

/-- `in >> x` for a number that holds `old`. -/
def Decoder.scalar {w : ℕ} (old : Scalar w) : Decoder (Scalar w) := fun s =>
  .ok (⟨(s.read old.val).1, (length_read s old.val).trans old.property⟩, (s.read old.val).2)

theorem reads_scalar {w : ℕ} (old x : Scalar w) : ReadsAs (Decoder.scalar old) x.val x := by
  intro rest
  have h := read_append x.val rest old.val (x.property.trans old.property.symm)
  rw [Decoder.scalar]
  simp only [h]
  rfl

/-- The longest array that `new char[n]` makes. -/
def charArrayMax : ℕ := 2 ^ 63 - 1

/-- `in >> x` for a `const char *`; what is read goes into uninitialised memory. -/
def Decoder.charPtr : Decoder Str := fun s =>
  let (len, s) := s.readSize
  if charArrayMax < len + 1 then .error .throws
  else
    let (bytes, s) := s.read (List.replicate len 0)
    .ok (cStr bytes, s)

theorem reads_charPtr {s : Str} (h0 : 0 ∉ s) (h : s.length ≤ stringMaxSize) :
    ReadsAs Decoder.charPtr (serStr s) s := by
  intro rest
  have hlt : s.length < 2 ^ 64 := lt_of_le_of_lt h (by decide)
  have hmax : ¬ charArrayMax < s.length + 1 := by
    have : stringMaxSize + 1 ≤ charArrayMax := by decide
    omega
  rw [Decoder.charPtr, serStr, List.append_assoc, readSize_ser _ _ hlt]
  simp only [hmax, if_false]
  rw [read_append _ _ _ (by simp), cStr_self h0]

/-! ### Records -/

structure Symbol (k : Kperf) where
  addr : Scalar k.addr
  module : Str
  symbolName : Str
  mangleName : Str
  fileName : Str
  lineNum : Scalar k.lineNum
  offset : Scalar k.offset
  codeMapEndAddr : Scalar k.codeMapEndAddr
  codeMapAddr : Scalar k.codeMapAddr
  count : Scalar k.symbolCount
  deriving DecidableEq

/-- A node of a call stack; its symbol may be null. -/
structure Stack (k : Kperf) where
  symbol : Option (Symbol k)
  count : Scalar k.stackCount
  deriving DecidableEq

/-- What `new Stack()` makes. -/
def Stack.new (k : Kperf) : Stack k := ⟨none, .zero _⟩

/-- A record; `tail` is what only some of the codecs know of. -/
structure PmuData (k : Kperf) (τ : Type) where
  stack : List (Stack k)
  evt : Str
  ts : Scalar k.ts
  pid : Scalar k.pid
  tid : Scalar k.tid
  cpu : Scalar k.cpu
  coreId : Scalar k.coreId
  numaId : Scalar k.numaId
  socketId : Scalar k.socketId
  comm : Str
  period : Scalar k.period
  tail : τ
  deriving DecidableEq

structure PmuList (k : Kperf) (τ : Type) where
  interval : UInt64
  len : UInt32
  pmuData : List (PmuData k τ)
  deriving DecidableEq

/-! ### Call stacks -/

section
variable {k : Kperf}

/-- A frame as it is written; a null symbol is followed. -/
def Stack.serialize (node : Stack k) : Option Str :=
  node.symbol.map (fun y => y.addr.val ++ serStr y.module ++ serStr y.symbolName ++
    serStr y.mangleName ++ serStr y.fileName ++ y.lineNum.val ++ y.offset.val ++
    y.codeMapEndAddr.val ++ y.codeMapAddr.val ++ y.count.val ++ node.count.val)

/-- `int count` of a call stack's nodes. -/
def stackCount (stack : List (Stack k)) : UInt32 := UInt32.ofNat stack.length

/-- A call stack as it is written: `while (count--)` goes through as many nodes as were counted. -/
def serStack (stack : List (Stack k)) : Option Str :=
  ((stack.take (stackCount stack).toNat).mapM Stack.serialize).map
    (fun frames => serInt (stackCount stack) ++ frames.flatten)

/-- The body of the loop over a call stack. -/
def readFrame (lib : Securec) (fail : ℤ → ℤ) : Decoder (Stack k) := do
  let addr ← Decoder.scalar (.zero _)
  let module ← Decoder.string
  let symbolName ← Decoder.string
  let mangleName ← Decoder.string
  let fileName ← Decoder.string
  let lineNum ← Decoder.scalar (.zero _)
  let offset ← Decoder.scalar (.zero _)
  let codeMapEndAddr ← Decoder.scalar (.zero _)
  let codeMapAddr ← Decoder.scalar (.zero _)
  let symbolCount ← Decoder.scalar (.zero _)
  let count ← Decoder.scalar (.zero _)
  let module ← Decoder.copy lib module fail
  let symbolName ← Decoder.copy lib symbolName fail
  let mangleName ← Decoder.copy lib mangleName fail
  let fileName ← Decoder.copy lib fileName fail
  pure ⟨some ⟨addr, module, symbolName, mangleName, fileName, lineNum, offset, codeMapEndAddr,
    codeMapAddr, symbolCount⟩, count⟩

/-- `while (count--)`: the nodes from `tmp` on, `tmp` being a new one or null. -/
def stackLoop (lib : Securec) (fail : ℤ → ℤ) : ℕ → Bool → Decoder (List (Stack k))
  | 0, tmp => pure (if tmp then [Stack.new k] else [])
  | count + 1, _ => do
    let node ← readFrame lib fail
    -- `tmp->next` is made before the body if more is to come
    let nodes ← stackLoop lib fail count (count ≠ 0)
    pure (node :: nodes)

/-- A call stack as it is read. -/
def readStack (lib : Securec) (mem : Memory) (fail : ℤ → ℤ) : Decoder (List (Stack k)) := do
  let count ← Decoder.int mem.int
  stackLoop lib fail count.toNat true

/-- A node with a symbol, and C strings in it. -/
def Stack.Ok (lib : Securec) (node : Stack k) : Prop :=
  ∃ y, node.symbol = some y ∧ CStr lib y.module ∧ CStr lib y.symbolName ∧ CStr lib y.mangleName ∧
    CStr lib y.fileName

theorem reads_frame {lib : Securec} {node : Stack k} (h : node.Ok lib) (fail : ℤ → ℤ) :
    ∃ bytes, node.serialize = some bytes ∧ ReadsAs (readFrame lib fail) bytes node := by
  obtain ⟨y, hy, hm, hs, hg, hf⟩ := h
  obtain ⟨symbol, count⟩ := node
  subst hy
  refine ⟨_, rfl, ?_⟩
  simp only [List.append_assoc]
  refine (reads_scalar _ _).bind (hm.reads.bind (hs.reads.bind (hg.reads.bind (hf.reads.bind ?_))))
  refine (reads_scalar _ _).bind ((reads_scalar _ _).bind ((reads_scalar _ _).bind
    ((reads_scalar _ _).bind ((reads_scalar _ _).bind ((reads_scalar _ _).andThen ?_)))))
  exact (hm.copy fail).andThen ((hs.copy fail).andThen ((hg.copy fail).andThen
    ((hf.copy fail).andThen (Reads.pure _))))

/-- The frames that were written are read back; none at all as the node made in advance. -/
theorem reads_frames {lib : Securec} (fail : ℤ → ℤ) : ∀ (l : List (Stack k)) (tmp : Bool),
    (∀ node ∈ l, node.Ok lib) → ∃ frames, l.mapM Stack.serialize = some frames ∧
      ReadsAs (stackLoop lib fail l.length tmp) frames.flatten
        (if l = [] ∧ tmp then [Stack.new k] else l)
  | [], tmp, _ => ⟨[], rfl, by cases tmp <;> exact Reads.pure _⟩
  | node :: l, tmp, h => by
    obtain ⟨bytes, hb, hnode⟩ := reads_frame (h node (List.mem_cons_self ..)) fail
    obtain ⟨frames, hf, hl⟩ := reads_frames fail l (decide (l.length ≠ 0))
      (fun x hx => h x (List.mem_cons_of_mem _ hx))
    refine ⟨bytes :: frames, by simp [List.mapM_cons, hb, hf], ?_⟩
    have hnil : ¬ (l = [] ∧ decide (l.length ≠ 0) = true) := by
      rintro ⟨rfl, hne⟩
      simp at hne
    rw [if_neg hnil] at hl
    rw [if_neg (fun he => List.cons_ne_nil _ _ he.1)]
    exact hnode.bind (hl.andThen (Reads.pure _))

/-- What a call stack comes back as. -/
def shown (stack : List (Stack k)) : List (Stack k) :=
  if stack.take (stackCount stack).toNat = [] then [Stack.new k]
  else stack.take (stackCount stack).toNat

theorem reads_stack {lib : Securec} (mem : Memory) (fail : ℤ → ℤ) {stack : List (Stack k)}
    (h : ∀ node ∈ stack, node.Ok lib) :
    ∃ bytes, serStack stack = some bytes ∧ ReadsAs (readStack lib mem fail) bytes (shown stack) := by
  obtain ⟨frames, hf, hl⟩ := reads_frames fail (stack.take (stackCount stack).toNat) true
    (fun node hn => h node (List.mem_of_mem_take hn))
  refine ⟨_, by rw [serStack, hf]; rfl, (reads_int _ _).bind ?_⟩
  have hlen : (stack.take (stackCount stack).toNat).length = (stackCount stack).toNat := by
    rw [List.length_take, min_eq_left]
    simpa [stackCount] using Nat.mod_le stack.length _
  rw [hlen] at hl
  simpa [shown] using hl

/-- Only a call stack that has a node, and no more than can be counted, comes back as it was. -/
theorem shown_eq_iff {lib : Securec} {stack : List (Stack k)} (h : ∀ node ∈ stack, node.Ok lib) :
    shown stack = stack ↔ stack ≠ [] ∧ stack.length < 2 ^ 32 := by
  constructor
  · intro heq
    rw [shown] at heq
    split at heq
    · -- the node made in advance has no symbol
      obtain ⟨y, hy, _⟩ := h (Stack.new k) (by rw [← heq]; exact List.mem_singleton_self _)
      cases hy
    · rename_i hne
      rw [heq] at hne
      have hlen := congrArg List.length heq
      rw [List.length_take] at hlen
      exact ⟨hne, (min_eq_right_iff.mp hlen).trans_lt (stackCount stack).toNat_lt⟩
  · rintro ⟨hne, hlt⟩
    have htake : stack.take (stackCount stack).toNat = stack := by
      refine List.take_of_length_le ?_
      rw [stackCount, UInt32.toNat_ofNat_of_lt' hlt]
    rw [shown, htake, if_neg hne]

end

/-! ### Records -/

/-- What a codec knows of a record's end. -/
structure Tail (τ : Type) where
  ser : τ → Str
  /-- Into a record whose end holds this. -/
  read : τ → Decoder τ
  reads : ∀ old x, ReadsAs (read old) (ser x) x

section
variable {k : Kperf} {τ : Type} (tail : Tail τ) (lib : Securec) (mem : Memory) (fail : ℤ → ℤ)
  (old : PmuData k τ)

/-- A record as it is written. -/
def PmuData.serialize (d : PmuData k τ) : Option Str :=
  (serStack d.stack).map (fun stack => stack ++ serStr d.evt ++ d.ts.val ++ d.pid.val ++ d.tid.val ++
    d.cpu.val ++ d.coreId.val ++ d.numaId.val ++ d.socketId.val ++ serStr d.comm ++ d.period.val ++
    tail.ser d.tail)

/-- A record as it is read; `old` is what the new array holds. -/
def PmuData.deserialize : Decoder (PmuData k τ) := do
  let stack ← readStack lib mem fail
  let evt ← Decoder.charPtr
  let ts ← Decoder.scalar old.ts
  let pid ← Decoder.scalar old.pid
  let tid ← Decoder.scalar old.tid
  let cpu ← Decoder.scalar old.cpu
  let coreId ← Decoder.scalar (.zero _)
  let numaId ← Decoder.scalar (.zero _)
  let socketId ← Decoder.scalar (.zero _)
  let comm ← Decoder.charPtr
  let period ← Decoder.scalar old.period
  let last ← tail.read old.tail
  pure ⟨stack, evt, ts, pid, tid, cpu, coreId, numaId, socketId, comm, period, last⟩

/-- The symbols are not null, and the strings are C strings. -/
def PmuData.Ok (d : PmuData k τ) : Prop :=
  (∀ node ∈ d.stack, node.Ok lib) ∧ CStr lib d.evt ∧ CStr lib d.comm

theorem reads_record {d : PmuData k τ} (h : d.Ok lib) : ∃ bytes, d.serialize tail = some bytes ∧
    ReadsAs (PmuData.deserialize tail lib mem fail old) bytes { d with stack := shown d.stack } := by
  obtain ⟨hstack, hevt, hcomm⟩ := h
  obtain ⟨bytes, hb, hreads⟩ := reads_stack mem fail hstack
  refine ⟨_, by rw [PmuData.serialize, hb]; rfl, ?_⟩
  simp only [List.append_assoc]
  refine hreads.bind ((reads_charPtr hevt.1 hevt.le).bind ((reads_scalar _ _).bind
    ((reads_scalar _ _).bind ((reads_scalar _ _).bind ((reads_scalar _ _).bind ?_)))))
  refine (reads_scalar _ _).bind ((reads_scalar _ _).bind ((reads_scalar _ _).bind
    ((reads_charPtr hcomm.1 hcomm.le).bind ((reads_scalar _ _).bind ?_))))
  exact (tail.reads _ _).andThen (Reads.pure _)

/-- The data of a collector as it is written. -/
def PmuList.serialize (d : PmuList k τ) : Option Str :=
  ((d.pmuData.take (loops d.len)).mapM (PmuData.serialize tail)).map
    (fun records => serLong d.interval ++ serInt d.len ++ records.flatten)

/-- The data of a collector as it is read. -/
def PmuList.deserialize : Decoder (PmuList k τ) := do
  let interval ← Decoder.long mem.long
  let len ← Decoder.int mem.int
  Decoder.alloc len
  let pmuData ← times (PmuData.deserialize tail lib mem fail old) (loops len)
  pure ⟨interval, len, pmuData⟩

def PmuList.Ok (d : PmuList k τ) : Prop := Counts d.len d.pmuData ∧ ∀ r ∈ d.pmuData, r.Ok lib

theorem reads_records : ∀ (l : List (PmuData k τ)), (∀ r ∈ l, r.Ok lib) →
    ∃ records, l.mapM (PmuData.serialize tail) = some records ∧
      ReadsAs (times (PmuData.deserialize tail lib mem fail old) l.length) records.flatten
        (l.map (fun d => { d with stack := shown d.stack }))
  | [], _ => ⟨[], rfl, Reads.pure _⟩
  | d :: l, h => by
    obtain ⟨bytes, hb, hd⟩ := reads_record tail lib mem fail old (h d (List.mem_cons_self ..))
    obtain ⟨records, hr, hl⟩ := reads_records l (fun x hx => h x (List.mem_cons_of_mem _ hx))
    refine ⟨bytes :: records, by simp [List.mapM_cons, hb, hr], ?_⟩
    exact hd.bind (hl.andThen (Reads.pure _))

theorem reads_list {d : PmuList k τ} (h : d.Ok lib) : ∃ bytes, d.serialize tail = some bytes ∧
    ReadsAs (PmuList.deserialize tail lib mem fail old) bytes
      { d with pmuData := d.pmuData.map (fun d => { d with stack := shown d.stack }) } := by
  obtain ⟨records, hr, hl⟩ := reads_records tail lib mem fail old d.pmuData h.2
  refine ⟨_, by rw [PmuList.serialize, h.1.loops, List.take_length, hr]; rfl, ?_⟩
  simp only [List.append_assoc]
  refine (reads_long _ _).bind ((reads_int _ _).bind (h.1.alloc.bind ?_))
  rw [h.1.loops]
  exact hl.andThen (Reads.pure _)

end

/-- What the data of a collector comes back as. -/
def PmuList.shown {k : Kperf} {τ : Type} (d : PmuList k τ) : PmuList k τ :=
  { d with pmuData := d.pmuData.map (fun r => { r with stack := OeAware.shown r.stack }) }

/-- It comes back as it was just if every call stack does. -/
theorem PmuList.shown_eq_iff {k : Kperf} {τ : Type} {lib : Securec} {d : PmuList k τ} (h : d.Ok lib) :
    d.shown = d ↔ ∀ r ∈ d.pmuData, r.stack ≠ [] ∧ r.stack.length < 2 ^ 32 := by
  have hsame : d.shown = d ↔
      d.pmuData.map (fun r => { r with stack := OeAware.shown r.stack }) = d.pmuData.map id := by
    rw [List.map_id]
    exact ⟨fun he => congrArg PmuList.pmuData he, fun he => by rw [PmuList.shown, he]⟩
  rw [hsame, List.map_inj_left]
  refine forall₂_congr (fun r hr => ?_)
  rw [← OeAware.shown_eq_iff (h.2 r hr).1]
  exact ⟨fun he => congrArg PmuData.stack he, fun he => by rw [he]; rfl⟩

/-! ### The four collectors -/

/-- The end of a counted record. -/
structure Counted (k : Kperf) where
  count : Scalar k.count
  countPercent : Scalar k.countPercent
  deriving DecidableEq

structure PmuDataExt (k : Kperf) where
  pa : Scalar k.pa
  va : Scalar k.va
  event : Scalar k.event
  deriving DecidableEq

def countedTail (k : Kperf) : Tail (Counted k) where
  ser x := x.count.val ++ x.countPercent.val
  read old := do
    let count ← Decoder.scalar old.count
    let countPercent ← Decoder.scalar old.countPercent
    pure ⟨count, countPercent⟩
  reads _ _ := (reads_scalar _ _).bind ((reads_scalar _ _).andThen (Reads.pure _))

def noTail : Tail Unit where
  ser _ := []
  read _ := pure ()
  reads _ _ := Reads.pure _

/-- The record's extension is made new. -/
def extTail (k : Kperf) : Tail (PmuDataExt k) where
  ser x := x.pa.val ++ (x.va.val ++ x.event.val)
  read _ := do
    let pa ← Decoder.scalar (.zero _)
    let va ← Decoder.scalar (.zero _)
    let event ← Decoder.scalar (.zero _)
    pure ⟨pa, va, event⟩
  reads _ _ := (reads_scalar _ _).bind ((reads_scalar _ _).bind
    ((reads_scalar _ _).andThen (Reads.pure _)))

section
variable {k : Kperf} (lib : Securec) (mem : Memory)

def pmuCountingDataSerialize : PmuList k (Counted k) → Option Str :=
  PmuList.serialize (countedTail k)

def pmuCountingDataDeserialize (old : PmuData k (Counted k)) : Decoder (PmuList k (Counted k)) :=
  PmuList.deserialize (countedTail k) lib mem id old

def pmuSamplingDataSerialize : PmuList k Unit → Option Str := PmuList.serialize noTail

def pmuSamplingDataDeserialize (old : PmuData k Unit) : Decoder (PmuList k Unit) :=
  PmuList.deserialize noTail lib mem (fun _ => -1) old

def pmuSpeDataSerialize : PmuList k (PmuDataExt k) → Option Str := PmuList.serialize (extTail k)

def pmuSpeDataDeserialize (old : PmuData k (PmuDataExt k)) : Decoder (PmuList k (PmuDataExt k)) :=
  PmuList.deserialize (extTail k) lib mem (fun _ => -1) old

def pmuUncoreDataSerialize : PmuList k (Counted k) → Option Str :=
  PmuList.serialize (countedTail k)

def pmuUncoreDataDeserialize (old : PmuData k (Counted k)) : Decoder (PmuList k (Counted k)) :=
  PmuList.deserialize (countedTail k) lib mem (fun _ => -1) old

end

inductive PmuKind where
  | counting | sampling | spe | uncore
  deriving DecidableEq

namespace PmuKind
variable {k : Kperf}

/-- What a record ends with. -/
def Last (k : Kperf) : PmuKind → Type
  | .counting | .uncore => Counted k
  | .sampling => Unit
  | .spe => PmuDataExt k

def serialize : (p : PmuKind) → PmuList k (p.Last k) → Option Str
  | .counting => pmuCountingDataSerialize
  | .sampling => pmuSamplingDataSerialize
  | .spe => pmuSpeDataSerialize
  | .uncore => pmuUncoreDataSerialize

def deserialize (lib : Securec) (mem : Memory) : (p : PmuKind) → PmuData k (p.Last k) →
    Decoder (PmuList k (p.Last k))
  | .counting => pmuCountingDataDeserialize lib mem
  | .sampling => pmuSamplingDataDeserialize lib mem
  | .spe => pmuSpeDataDeserialize lib mem
  | .uncore => pmuUncoreDataDeserialize lib mem

theorem reads (lib : Securec) (mem : Memory) (p : PmuKind) (old : PmuData k (p.Last k))
    {d : PmuList k (p.Last k)} (h : d.Ok lib) : ∃ bytes, p.serialize d = some bytes ∧
      ReadsAs (p.deserialize lib mem old) bytes d.shown := by
  cases p with
  | counting => exact reads_list (countedTail k) lib mem id old h
  | sampling => exact reads_list noTail lib mem _ old h
  | spe => exact reads_list (extTail k) lib mem _ old h
  | uncore => exact reads_list (countedTail k) lib mem _ old h

end PmuKind

/-- READ BACK: data of any of the four collectors is written, and reading what was written gives the
    same data and takes exactly those bytes, just if every record has a call stack, of fewer frames
    than an `int` can tell apart. -/
theorem pmu_reads_back_iff {k : Kperf} (lib : Securec) (mem : Memory) (p : PmuKind)
    (old : PmuData k (p.Last k)) {d : PmuList k (p.Last k)} (h : d.Ok lib) :
    ∃ bytes, p.serialize d = some bytes ∧
      (ReadsAs (p.deserialize lib mem old) bytes d ↔
        ∀ r ∈ d.pmuData, r.stack ≠ [] ∧ r.stack.length < 2 ^ 32) := by
  obtain ⟨bytes, hb, hreads⟩ := p.reads lib mem old h
  refine ⟨bytes, hb, ?_⟩
  rw [← PmuList.shown_eq_iff h]
  constructor
  · intro hd
    exact hreads.unique hd
  · intro he
    rw [he] at hreads
    exact hreads

/-- The sizes of a 64-bit build. -/
def sampleKperf : Kperf where
  addr := 8
  lineNum := 4
  offset := 8
  codeMapEndAddr := 8
  codeMapAddr := 8
  symbolCount := 8
  stackCount := 8
  ts := 8
  pid := 4
  tid := 4
  cpu := 4
  coreId := 4
  numaId := 4
  socketId := 4
  period := 8
  count := 8
  countPercent := 8
  pa := 8
  va := 8
  event := 8

/-- A record with the given call stack. -/
def sampleRecord {τ : Type} (stack : List (Stack sampleKperf)) (last : τ) : PmuData sampleKperf τ :=
  ⟨stack, [99], .zero _, .zero _, .zero _, .zero _, .zero _, .zero _, .zero _, [104], .zero _, last⟩

def sampleFrame : Stack sampleKperf :=
  ⟨some ⟨.zero _, [109], [115], [103], [102], .zero _, .zero _, .zero _, .zero _, .zero _⟩, .zero _⟩

def sampleExt : PmuDataExt sampleKperf := ⟨.zero _, .zero _, .zero _⟩

def sampleCounted : Counted sampleKperf := ⟨.zero _, .zero _⟩

theorem cStr_singleton {c : UInt8} (h : c ≠ 0) : CStr sampleSecurec [c] := by
  refine ⟨by simpa using h.symm, ?_⟩
  show 1 < 2 ^ 31 - 1
  decide

theorem ok_sampleFrame : sampleFrame.Ok sampleSecurec :=
  ⟨_, rfl, cStr_singleton (by decide), cStr_singleton (by decide), cStr_singleton (by decide),
    cStr_singleton (by decide)⟩

theorem ok_sampleRecord {τ : Type} {stack : List (Stack sampleKperf)} (last : τ)
    (h : ∀ node ∈ stack, node.Ok sampleSecurec) : (sampleRecord stack last).Ok sampleSecurec :=
  ⟨h, cStr_singleton (by decide), cStr_singleton (by decide)⟩

/-- SPE data of one record with a call stack of two frames. -/
theorem pmu_reads_back_spe :
    ∃ (d : PmuList sampleKperf (PmuDataExt sampleKperf)) (bytes : Str), d.Ok sampleSecurec ∧
      PmuKind.spe.serialize d = some bytes ∧
      ReadsAs (PmuKind.spe.deserialize sampleSecurec sampleMemory (sampleRecord [] sampleExt)) bytes
        d := by
  have hok : PmuList.Ok sampleSecurec
      ⟨5, 1, [sampleRecord [sampleFrame, sampleFrame] sampleExt]⟩ := by
    refine ⟨rfl, fun r hr => ?_⟩
    rw [List.mem_singleton.mp hr]
    exact ok_sampleRecord _ (by simp [ok_sampleFrame])
  obtain ⟨bytes, hb, hiff⟩ := pmu_reads_back_iff sampleSecurec sampleMemory .spe
    (sampleRecord [] sampleExt) hok
  refine ⟨_, bytes, hok, hb, hiff.mpr (fun r hr => ?_)⟩
  rw [List.mem_singleton.mp hr]
  exact ⟨List.cons_ne_nil _ _, by decide⟩

/-- A record of the counting collector without a call stack comes back with a node whose symbol is
    null. -/
theorem pmu_reads_back_other :
    ∃ (d d' : PmuList sampleKperf (Counted sampleKperf)) (bytes : Str), d.Ok sampleSecurec ∧
      d.pmuData.map (·.stack) = [[]] ∧ d'.pmuData.map (·.stack) = [[Stack.new sampleKperf]] ∧
      PmuKind.counting.serialize d = some bytes ∧
      PmuKind.counting.deserialize sampleSecurec sampleMemory (sampleRecord [] sampleCounted)
        ⟨bytes, true⟩ = .ok (d', ⟨[], true⟩) ∧ d' ≠ d := by
  have hok : PmuList.Ok sampleSecurec ⟨5, 1, [sampleRecord [] sampleCounted]⟩ := by
    refine ⟨rfl, fun r hr => ?_⟩
    rw [List.mem_singleton.mp hr]
    exact ok_sampleRecord _ nofun
  obtain ⟨bytes, hb, hreads⟩ := reads_list (countedTail sampleKperf) sampleSecurec sampleMemory id
    (sampleRecord [] sampleCounted) hok
  have hr := hreads []
  rw [List.append_nil] at hr
  refine ⟨_, _, bytes, hok, rfl, rfl, hb, hr, fun he => ?_⟩
  cases congrArg (fun d => d.pmuData.map (·.stack.length)) he

end OeAware

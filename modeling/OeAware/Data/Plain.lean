import OeAware.Data.Readers

/-! @src src/common/data_register.cpp, include/oeaware/data/*.h |
    name:ThreadInfo, KernelData, CommandData, EnvStatic, EnvRealTime, EnvCpuUtil, AnalysisResultItem,
    NetIntfBase, NetIntfDriver, NetLocalAffi, NetHirqTuneDebug, NetThreadQue | scheme:wire

    The codecs of the data that is not from the PMU, each an encoder and a decoder over the `struct` it
    is for. A count goes in front of its array; the arrays themselves carry none, so data is `Ok` when
    the counts it names are the lengths of its arrays and its strings are C strings.

        [n][x₁ .. xₙ]        [n][m] ── n·m items        [cpuNumConfig] ── cpuNumConfig + 1 rows -/

namespace OeAware
open Schemes

section
variable (lib : Securec) (mem : Memory)

/-! ### Threads and kernel parameters -/

structure ThreadInfo where
  pid : UInt32
  tid : UInt32
  name : Str
  deriving DecidableEq

namespace ThreadInfo

/-- `ThreadInfoSerialize`. -/
def serialize (d : ThreadInfo) : Str := serInt d.pid ++ serInt d.tid ++ serStr d.name

/-- `ThreadInfoDeserialize`. -/
def deserialize : Decoder ThreadInfo := do
  let pid ← Decoder.int 0
  let tid ← Decoder.int 0
  let name ← Decoder.string
  pure ⟨pid, tid, lib.copied mem name⟩

def Ok (d : ThreadInfo) : Prop := CStr lib d.name

theorem reads {d : ThreadInfo} (h : d.Ok lib) : ReadsAs (deserialize lib mem) d.serialize d := by
  rw [serialize, List.append_assoc]
  refine (reads_int _ _).bind ((reads_int _ _).bind ((CStr.reads h).andThen ?_))
  rw [CStr.copied h]
  exact Reads.pure _

end ThreadInfo

structure KernelDataNode where
  key : Str
  value : Str
  deriving DecidableEq

/-- The linked list is given by its nodes. -/
structure KernelData where
  len : UInt32
  kernelData : List KernelDataNode
  deriving DecidableEq

namespace KernelData

/-- `KernelDataSerialize`. -/
def serialize (d : KernelData) : Str :=
  serInt d.len ++ serLoop (fun node => serStr node.key ++ serStr node.value) d.len d.kernelData

/-- The body of the loop of `KernelDataDeserialize`. -/
def readNode : Decoder KernelDataNode := do
  let key ← Decoder.string
  let value ← Decoder.string
  let key ← Decoder.copy lib key (fun _ => -1)
  let value ← Decoder.copy lib value (fun _ => -1)
  pure ⟨key, value⟩

/-- `KernelDataDeserialize`. -/
def deserialize : Decoder KernelData := do
  let len ← Decoder.int 0
  let kernelData ← times (readNode lib) (loops len)
  pure ⟨len, kernelData⟩

def Ok (d : KernelData) : Prop :=
  Counts d.len d.kernelData ∧ ∀ node ∈ d.kernelData, CStr lib node.key ∧ CStr lib node.value

theorem reads {d : KernelData} (h : d.Ok lib) : ReadsAs (deserialize lib) d.serialize d := by
  refine (reads_int _ _).bind ((h.1.reads (fun node hn => ?_)).andThen (Reads.pure _))
  obtain ⟨hk, hv⟩ := h.2 node hn
  exact hk.reads.bind (hv.reads.andThen ((hk.copy _).andThen ((hv.copy _).andThen (Reads.pure _))))

end KernelData

/-! ### Command tables -/

def ATTR_MAX_LENGTH : ℕ := 20

/-- `itemAttr` and each `value` are arrays of `ATTR_MAX_LENGTH` pointers, of which `attrLen` are used. -/
structure CommandData where
  itemLen : UInt32
  attrLen : UInt32
  itemAttr : List Str
  items : List (List Str)
  deriving DecidableEq

namespace CommandData

/-- `CommandDataSerialize`. -/
def serialize (d : CommandData) : Str :=
  serInt d.attrLen ++ serInt d.itemLen ++ serLoop serStr d.attrLen d.itemAttr ++
    serLoop (serLoop serStr d.attrLen) d.itemLen d.items

/-- A string of `CommandDataDeserialize`. -/
def readItem : Decoder Str := do
  let item ← Decoder.string
  Decoder.copy lib item (fun _ => -1)

/-- `CommandDataDeserialize`. -/
def deserialize : Decoder CommandData := do
  let attrLen ← Decoder.int 0
  let itemLen ← Decoder.int 0
  let itemAttr ← times (readItem lib) (loops attrLen)
  Decoder.alloc itemLen
  let items ← times (times (readItem lib) (loops attrLen)) (loops itemLen)
  pure ⟨itemLen, attrLen, itemAttr, items⟩

def Ok (d : CommandData) : Prop :=
  d.itemAttr.length ≤ ATTR_MAX_LENGTH ∧ Counts d.attrLen d.itemAttr ∧
    (∀ s ∈ d.itemAttr, CStr lib s) ∧ Counts d.itemLen d.items ∧
    ∀ row ∈ d.items, Counts d.attrLen row ∧ ∀ s ∈ row, CStr lib s

theorem reads_item {s : Str} (h : CStr lib s) : ReadsAs (readItem lib) (serStr s) s :=
  h.reads.andThen (h.copy _)

theorem reads {d : CommandData} (h : d.Ok lib) : ReadsAs (deserialize lib) d.serialize d := by
  obtain ⟨_, hattr, hattrs, hitem, hitems⟩ := h
  simp only [serialize, List.append_assoc]
  refine (reads_int _ _).bind ((reads_int _ _).bind ((hattr.reads ?_).bind ?_))
  · exact fun s hs => reads_item lib (hattrs s hs)
  · refine hitem.alloc.bind ((hitem.reads (fun row hrow => ?_)).andThen (Reads.pure _))
    exact (hitems row hrow).1.reads (fun s hs => reads_item lib ((hitems row hrow).2 s hs))

end CommandData

/-! ### The environment -/

structure EnvStaticInfo where
  numaNum : UInt32
  cpuNumConfig : UInt32
  pageSize : UInt32
  pageMask : UInt64
  cpu2Node : List UInt32
  numaDistance : List (List UInt32)
  deriving DecidableEq

namespace EnvStaticInfo

/-- `EnvStaticDataSerialize`. -/
def serialize (d : EnvStaticInfo) : Str :=
  serInt d.numaNum ++ serInt d.cpuNumConfig ++ serInt d.pageSize ++ serLong d.pageMask ++
    serLoop serInt d.cpuNumConfig d.cpu2Node ++
    serLoop (serLoop serInt d.numaNum) d.numaNum d.numaDistance

/-- `EnvStaticDataDeserialize`. -/
def deserialize : Decoder EnvStaticInfo := do
  let numaNum ← Decoder.int 0
  let cpuNumConfig ← Decoder.int 0
  let pageSize ← Decoder.int 0
  let pageMask ← Decoder.long 0
  Decoder.alloc cpuNumConfig
  let cpu2Node ← times (Decoder.int mem.int) (loops cpuNumConfig)
  Decoder.alloc numaNum
  let numaDistance ← times
    (do Decoder.alloc numaNum; times (Decoder.int mem.int) (loops numaNum)) (loops numaNum)
  pure ⟨numaNum, cpuNumConfig, pageSize, pageMask, cpu2Node, numaDistance⟩

def Ok (d : EnvStaticInfo) : Prop :=
  Counts d.cpuNumConfig d.cpu2Node ∧ Counts d.numaNum d.numaDistance ∧
    ∀ row ∈ d.numaDistance, Counts d.numaNum row

theorem reads {d : EnvStaticInfo} (h : d.Ok) : ReadsAs (deserialize mem) d.serialize d := by
  obtain ⟨hcpu, hnuma, hrows⟩ := h
  simp only [serialize, List.append_assoc]
  refine (reads_int _ _).bind ((reads_int _ _).bind ((reads_int _ _).bind ((reads_long _ _).bind ?_)))
  refine hcpu.alloc.bind ((hcpu.reads (fun _ _ => reads_int _ _)).bind ?_)
  refine hnuma.alloc.bind ((hnuma.reads (fun row hrow => ?_)).andThen (Reads.pure _))
  exact (hrows row hrow).alloc.bind ((hrows row hrow).reads (fun _ _ => reads_int _ _))

end EnvStaticInfo

structure EnvRealTimeInfo where
  dataReady : UInt32
  cpuNumConfig : UInt32
  cpuNumOnline : UInt32
  cpuOnLine : List UInt32
  deriving DecidableEq

namespace EnvRealTimeInfo

/-- `EnvRealTimeDataSerialize`. -/
def serialize (d : EnvRealTimeInfo) : Str :=
  serInt d.dataReady ++ serInt d.cpuNumConfig ++ serInt d.cpuNumOnline ++
    serLoop serInt d.cpuNumConfig d.cpuOnLine

/-- `EnvRealTimeDataDeserialize`. -/
def deserialize : Decoder EnvRealTimeInfo := do
  let dataReady ← Decoder.int 0
  let cpuNumConfig ← Decoder.int 0
  let cpuNumOnline ← Decoder.int 0
  Decoder.alloc cpuNumConfig
  let cpuOnLine ← times (Decoder.int mem.int) (loops cpuNumConfig)
  pure ⟨dataReady, cpuNumConfig, cpuNumOnline, cpuOnLine⟩

def Ok (d : EnvRealTimeInfo) : Prop := Counts d.cpuNumConfig d.cpuOnLine

theorem reads {d : EnvRealTimeInfo} (h : d.Ok) : ReadsAs (deserialize mem) d.serialize d := by
  simp only [serialize, List.append_assoc]
  refine (reads_int _ _).bind ((reads_int _ _).bind ((reads_int _ _).bind ?_))
  exact (Counts.alloc h).bind
    ((Counts.reads h (fun _ _ => reads_int _ _)).andThen (Reads.pure _))

end EnvRealTimeInfo

def CPU_UTIL_TYPE_MAX : ℕ := 11

/-- The last row of `times` is that of all CPUs together. -/
structure EnvCpuUtilParam where
  dataReady : UInt32
  cpuNumConfig : UInt32
  times : List (List UInt64)
  deriving DecidableEq

namespace EnvCpuUtilParam

/-- The inner loop of `EnvCpuUtilSerialize`. -/
def serRow (row : List UInt64) : Str := ((row.take CPU_UTIL_TYPE_MAX).map serLong).flatten

/-- `EnvCpuUtilSerialize`. -/
def serialize (d : EnvCpuUtilParam) : Str :=
  serInt d.dataReady ++ serInt d.cpuNumConfig ++ serLoop serRow (d.cpuNumConfig + 1) d.times

/-- `EnvCpuUtilDeserialize`. -/
def deserialize : Decoder EnvCpuUtilParam := do
  let dataReady ← Decoder.int 0
  let cpuNumConfig ← Decoder.int 0
  Decoder.alloc (cpuNumConfig + 1)
  let rows ← Schemes.times (Schemes.times (Decoder.long mem.long) CPU_UTIL_TYPE_MAX)
    (loops (cpuNumConfig + 1))
  pure ⟨dataReady, cpuNumConfig, rows⟩

def Ok (d : EnvCpuUtilParam) : Prop :=
  Counts (d.cpuNumConfig + 1) d.times ∧ ∀ row ∈ d.times, row.length = CPU_UTIL_TYPE_MAX

theorem reads {d : EnvCpuUtilParam} (h : d.Ok) : ReadsAs (deserialize mem) d.serialize d := by
  rw [serialize, List.append_assoc]
  refine (reads_int _ _).bind ((reads_int _ _).bind (h.1.alloc.bind ?_))
  refine (h.1.reads (fun row hrow => ?_)).andThen (Reads.pure _)
  rw [serRow, ← h.2 row hrow, List.take_length]
  exact Reads.times row (fun _ _ => reads_long _ _)

end EnvCpuUtilParam

/-! ### Analysis results -/

structure DataItem where
  type : UInt32
  metric : Str
  value : Str
  extra : Str
  deriving DecidableEq

structure SuggestionItem where
  suggestion : Str
  opt : Str
  extra : Str
  deriving DecidableEq

structure AnalysisResultItem where
  dataItemLen : UInt32
  dataItem : List DataItem
  conclusion : Str
  suggestionItem : SuggestionItem
  deriving DecidableEq

namespace AnalysisResultItem

/-- The body of the loop of `AnalysisResultItemSerialize`. -/
def serItem (d : DataItem) : Str :=
  serInt d.type ++ serStr d.metric ++ serStr d.value ++ serStr d.extra

/-- `AnalysisResultItemSerialize`. -/
def serialize (d : AnalysisResultItem) : Str :=
  serInt d.dataItemLen ++ serLoop serItem d.dataItemLen d.dataItem ++ serStr d.conclusion ++
    serStr d.suggestionItem.suggestion ++ serStr d.suggestionItem.opt ++
    serStr d.suggestionItem.extra

/-- The body of the loop of `DataItemDeserialize`. -/
def readItem : Decoder DataItem := do
  let type ← Decoder.int mem.int
  let metric ← Decoder.string
  let value ← Decoder.string
  let extra ← Decoder.string
  pure ⟨type, lib.copied mem metric, lib.copied mem value, lib.copied mem extra⟩

/-- `SuggestionItemDeserialize`. -/
def readSuggestion : Decoder SuggestionItem := do
  let suggestion ← Decoder.string
  let opt ← Decoder.string
  let extra ← Decoder.string
  pure ⟨lib.copied mem suggestion, lib.copied mem opt, lib.copied mem extra⟩

/-- `AnalysisResultItemDeserialize`. -/
def deserialize : Decoder AnalysisResultItem := do
  let dataItemLen ← Decoder.int 0
  Decoder.alloc dataItemLen
  let dataItem ← times (readItem lib mem) (loops dataItemLen)
  let conclusion ← Decoder.string
  let suggestionItem ← readSuggestion lib mem
  pure ⟨dataItemLen, dataItem, lib.copied mem conclusion, suggestionItem⟩

def Ok (d : AnalysisResultItem) : Prop :=
  Counts d.dataItemLen d.dataItem ∧
    (∀ i ∈ d.dataItem, CStr lib i.metric ∧ CStr lib i.value ∧ CStr lib i.extra) ∧
    CStr lib d.conclusion ∧ CStr lib d.suggestionItem.suggestion ∧
    CStr lib d.suggestionItem.opt ∧ CStr lib d.suggestionItem.extra

theorem reads_dataItem {i : DataItem}
    (h : CStr lib i.metric ∧ CStr lib i.value ∧ CStr lib i.extra) :
    ReadsAs (readItem lib mem) (serItem i) i := by
  obtain ⟨hm, hv, he⟩ := h
  simp only [serItem, List.append_assoc]
  refine (reads_int _ _).bind (hm.reads.bind (hv.reads.bind (he.reads.andThen ?_)))
  rw [hm.copied, hv.copied, he.copied]
  exact Reads.pure _

theorem reads {d : AnalysisResultItem} (h : d.Ok lib) :
    ReadsAs (deserialize lib mem) d.serialize d := by
  obtain ⟨hlen, hitems, hc, hs, ho, he⟩ := h
  have hsuggestion : ReadsAs (readSuggestion lib mem) (serStr d.suggestionItem.suggestion ++
      (serStr d.suggestionItem.opt ++ serStr d.suggestionItem.extra)) d.suggestionItem := by
    refine hs.reads.bind (ho.reads.bind (he.reads.andThen ?_))
    rw [hs.copied, ho.copied, he.copied]
    exact Reads.pure _
  simp only [serialize, List.append_assoc]
  refine (reads_int _ _).bind (hlen.alloc.bind ((hlen.reads ?_).bind (hc.reads.bind ?_)))
  · exact fun i hi => reads_dataItem lib mem (hitems i hi)
  · refine hsuggestion.andThen ?_
    rw [hc.copied]
    exact Reads.pure _

end AnalysisResultItem

/-! ### Network interfaces -/

/-- `CopyStringToCharArray`, seen as the C string that is then in the array. -/
def copyStringToCharArray (source : Str) (destSize : ℕ) : Str := cStr (source.take (destSize - 1))

/-- A C string in an array of `size` characters. -/
def InArray (size : ℕ) (s : Str) : Prop := 0 ∉ s ∧ s.length < size

theorem InArray.copy {size : ℕ} {s : Str} (h : InArray size s) :
    copyStringToCharArray s size = s := by
  have htake : s.take (size - 1) = s := List.take_of_length_le (by have := h.2; omega)
  rw [copyStringToCharArray, htake, cStr_self h.1]

theorem InArray.reads {size : ℕ} {s : Str} (h : InArray size s) (hsize : size ≤ 32) :
    ReadsAs Decoder.string (serStr s) s :=
  reads_string (h.2.le.trans (hsize.trans (by decide)))

def IFNAMSIZ : ℕ := 16

/-- `OE_NET_DRIVER_DATA_LEN` and the three lengths like it. -/
def OE_NET_DRIVER_DATA_LEN : ℕ := 32

/-- The rest of a decoder whose array is only made for a positive count. -/
def whenPositive {α : Type} (count : UInt32) (r : Decoder (List α)) : Decoder (List α) :=
  if count.toInt32.toInt ≤ 0 then pure [] else r

theorem Counts.whenPositive {α : Type} {n : UInt32} {l : List α} (h : Counts n l) {r : Decoder α}
    {ser : α → Str} (hr : ∀ x ∈ l, ReadsAs r (ser x) x) :
    ReadsAs (whenPositive n (times r (OeAware.loops n))) (serLoop ser n l) l := by
  rw [OeAware.whenPositive]
  split
  · rename_i hn
    rw [h] at hn
    obtain rfl : l = [] := List.length_eq_zero_iff.mp (by omega)
    rw [serLoop, List.take_nil]
    exact Reads.pure _
  · exact h.reads hr

structure NetworkInterfaceData where
  name : Str
  operstate : UInt32
  ifindex : UInt32
  deriving DecidableEq

structure NetIntfBaseDataList where
  count : UInt32
  base : List NetworkInterfaceData
  deriving DecidableEq

namespace NetIntfBaseDataList

/-- The body of the loop of `NetIntfBaseSerialize`. -/
def serOne (d : NetworkInterfaceData) : Str := serStr d.name ++ serInt d.operstate ++ serInt d.ifindex

/-- `NetIntfBaseSerialize`. -/
def serialize (d : NetIntfBaseDataList) : Str := serInt d.count ++ serLoop serOne d.count d.base

/-- The body of the loop of `NetIntfBaseDeserialize`. -/
def readOne : Decoder NetworkInterfaceData := do
  let name ← Decoder.string
  let operstate ← Decoder.int mem.int
  let ifindex ← Decoder.int mem.int
  pure ⟨copyStringToCharArray name IFNAMSIZ, operstate, ifindex⟩

/-- `NetIntfBaseDeserialize`. -/
def deserialize : Decoder NetIntfBaseDataList := do
  let count ← Decoder.int 0
  let base ← whenPositive count (times (readOne mem) (loops count))
  pure ⟨count, base⟩

def Ok (d : NetIntfBaseDataList) : Prop :=
  Counts d.count d.base ∧ ∀ i ∈ d.base, InArray IFNAMSIZ i.name

theorem reads {d : NetIntfBaseDataList} (h : d.Ok) : ReadsAs (deserialize mem) d.serialize d := by
  refine (reads_int _ _).bind ((h.1.whenPositive (fun i hi => ?_)).andThen (Reads.pure _))
  have hname := h.2 i hi
  rw [serOne, List.append_assoc]
  refine (hname.reads (by decide)).bind ((reads_int _ _).bind ((reads_int _ _).andThen ?_))
  rw [hname.copy]
  exact Reads.pure _

end NetIntfBaseDataList

structure NetworkInterfaceDriverData where
  name : Str
  driver : Str
  version : Str
  fwVersion : Str
  busInfo : Str
  deriving DecidableEq

structure NetIntfDriverDataList where
  count : UInt32
  driver : List NetworkInterfaceDriverData
  deriving DecidableEq

namespace NetIntfDriverDataList

/-- The body of the loop of `NetIntfDriverSerialize`. -/
def serOne (d : NetworkInterfaceDriverData) : Str :=
  serStr d.name ++ serStr d.driver ++ serStr d.version ++ serStr d.fwVersion ++ serStr d.busInfo

/-- `NetIntfDriverSerialize`. -/
def serialize (d : NetIntfDriverDataList) : Str := serInt d.count ++ serLoop serOne d.count d.driver

/-- The body of the loop of `NetIntfDriverDeserialize`. -/
def readOne : Decoder NetworkInterfaceDriverData := do
  let name ← Decoder.string
  let driver ← Decoder.string
  let version ← Decoder.string
  let fwVersion ← Decoder.string
  let busInfo ← Decoder.string
  pure ⟨copyStringToCharArray name IFNAMSIZ,
    copyStringToCharArray driver OE_NET_DRIVER_DATA_LEN,
    copyStringToCharArray version OE_NET_DRIVER_DATA_LEN,
    copyStringToCharArray fwVersion OE_NET_DRIVER_DATA_LEN,
    copyStringToCharArray busInfo OE_NET_DRIVER_DATA_LEN⟩

/-- `NetIntfDriverDeserialize`. -/
def deserialize : Decoder NetIntfDriverDataList := do
  let count ← Decoder.int 0
  let driver ← whenPositive count (times readOne (loops count))
  pure ⟨count, driver⟩

def Ok (d : NetIntfDriverDataList) : Prop :=
  Counts d.count d.driver ∧ ∀ i ∈ d.driver, InArray IFNAMSIZ i.name ∧
    InArray OE_NET_DRIVER_DATA_LEN i.driver ∧ InArray OE_NET_DRIVER_DATA_LEN i.version ∧
    InArray OE_NET_DRIVER_DATA_LEN i.fwVersion ∧ InArray OE_NET_DRIVER_DATA_LEN i.busInfo

theorem reads {d : NetIntfDriverDataList} (h : d.Ok) : ReadsAs deserialize d.serialize d := by
  refine (reads_int _ _).bind ((h.1.whenPositive (fun i hi => ?_)).andThen (Reads.pure _))
  obtain ⟨hn, hd, hv, hf, hb⟩ := h.2 i hi
  simp only [serOne, List.append_assoc]
  refine (hn.reads (by decide)).bind ((hd.reads (by decide)).bind ((hv.reads (by decide)).bind
    ((hf.reads (by decide)).bind ((hb.reads (by decide)).andThen ?_))))
  rw [hn.copy, hd.copy, hv.copy, hf.copy, hb.copy]
  exact Reads.pure _

end NetIntfDriverDataList

structure ProcessNetAffinityData where
  pid1 : UInt32
  pid2 : UInt32
  level : UInt64
  deriving DecidableEq

structure ProcessNetAffinityDataList where
  count : UInt32
  affinity : List ProcessNetAffinityData
  deriving DecidableEq

namespace ProcessNetAffinityDataList

/-- The body of the loop of `NetLocalAffiSerialize`. -/
def serOne (d : ProcessNetAffinityData) : Str := serInt d.pid1 ++ serInt d.pid2 ++ serLong d.level

/-- `NetLocalAffiSerialize`. -/
def serialize (d : ProcessNetAffinityDataList) : Str :=
  serInt d.count ++ serLoop serOne d.count d.affinity

/-- The body of the loop of `NetLocalAffiDeserialize`. -/
def readOne : Decoder ProcessNetAffinityData := do
  let pid1 ← Decoder.int mem.int
  let pid2 ← Decoder.int mem.int
  let level ← Decoder.long mem.long
  pure ⟨pid1, pid2, level⟩

/-- `NetLocalAffiDeserialize`. -/
def deserialize : Decoder ProcessNetAffinityDataList := do
  let count ← Decoder.int 0
  let affinity ← whenPositive count (times (readOne mem) (loops count))
  pure ⟨count, affinity⟩

def Ok (d : ProcessNetAffinityDataList) : Prop := Counts d.count d.affinity

theorem reads {d : ProcessNetAffinityDataList} (h : d.Ok) :
    ReadsAs (deserialize mem) d.serialize d := by
  refine (reads_int _ _).bind ((Counts.whenPositive h (fun i _ => ?_)).andThen (Reads.pure _))
  rw [serOne, List.append_assoc]
  exact (reads_int _ _).bind ((reads_int _ _).bind ((reads_long _ _).andThen (Reads.pure _)))

end ProcessNetAffinityDataList

structure NetHirqTuneDebugInfo where
  log : Str
  deriving DecidableEq

namespace NetHirqTuneDebugInfo

/-- `NetHirqTuneDebugSerialize`. -/
def serialize (d : NetHirqTuneDebugInfo) : Str := serStr d.log

/-- `NetHirqTuneDebugDeserialize`. -/
def deserialize : Decoder NetHirqTuneDebugInfo := do
  let log ← Decoder.string
  pure ⟨lib.copied mem log⟩

def Ok (d : NetHirqTuneDebugInfo) : Prop := CStr lib d.log

theorem reads {d : NetHirqTuneDebugInfo} (h : d.Ok lib) :
    ReadsAs (deserialize lib mem) d.serialize d := by
  refine (CStr.reads h).andThen ?_
  rw [CStr.copied h]
  exact Reads.pure _

end NetHirqTuneDebugInfo

structure NetThreadQueData where
  pid : UInt32
  tid : UInt32
  ifIndex : UInt32
  queueId : UInt32
  times : UInt32
  len : UInt64
  deriving DecidableEq

structure NetThreadQueDataList where
  intervalMs : UInt64
  count : UInt32
  queData : List NetThreadQueData
  deriving DecidableEq

namespace NetThreadQueDataList

/-- The body of the loop of `NetThreadQueSerialize`. -/
def serOne (d : NetThreadQueData) : Str :=
  serInt d.pid ++ serInt d.tid ++ serInt d.ifIndex ++ serInt d.queueId ++ serInt d.times ++
    serLong d.len

/-- `NetThreadQueSerialize`. -/
def serialize (d : NetThreadQueDataList) : Str :=
  serLong d.intervalMs ++ serInt d.count ++ serLoop serOne d.count d.queData

/-- The body of the loop of `NetThreadQueDeserialize`. -/
def readOne : Decoder NetThreadQueData := do
  let pid ← Decoder.int mem.int
  let tid ← Decoder.int mem.int
  let ifIndex ← Decoder.int mem.int
  let queueId ← Decoder.int mem.int
  let cnt ← Decoder.int mem.int
  let len ← Decoder.long mem.long
  pure ⟨pid, tid, ifIndex, queueId, cnt, len⟩

/-- `NetThreadQueDeserialize`. -/
def deserialize : Decoder NetThreadQueDataList := do
  let intervalMs ← Decoder.long 0
  let count ← Decoder.int 0
  let queData ← whenPositive count (Schemes.times (readOne mem) (loops count))
  pure ⟨intervalMs, count, queData⟩

def Ok (d : NetThreadQueDataList) : Prop := Counts d.count d.queData

theorem reads {d : NetThreadQueDataList} (h : d.Ok) : ReadsAs (deserialize mem) d.serialize d := by
  rw [serialize, List.append_assoc]
  refine (reads_long _ _).bind ((reads_int _ _).bind
    ((Counts.whenPositive h (fun i _ => ?_)).andThen (Reads.pure _)))
  simp only [serOne, List.append_assoc]
  exact (reads_int _ _).bind ((reads_int _ _).bind ((reads_int _ _).bind ((reads_int _ _).bind
    ((reads_int _ _).bind ((reads_long _ _).andThen (Reads.pure _))))))

end NetThreadQueDataList

end

end OeAware

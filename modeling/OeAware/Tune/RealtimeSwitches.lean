import Mathlib.Data.List.DropRight
import OeAware.Common.Yaml
import OeAware.Schemes.Container

/-! @src src/plugin/tune/system/realtime/realtime_tune.cpp, src/common/utils.cpp | name:RealtimeTuneSwitch,
    ParseFromSwitchConfig, ParseRange, GetNotRangeCpus

    `realtime_tune.yaml` is read key by key into the switches, and the first key that is missing or wrong ends
    the reading with what was set before it. An exception counts as a wrong key. The range of isolated CPUs is
    kept as it is written, blanks and all.

        cpu_isolation.range ─▶ .features ─▶ cpufreq_performance ─▶ memory.* ─▶ timer ─▶ sched -/

namespace OeAware
open Schemes

/-- The tokens `std::getline(ss, token, sep)` reads: an empty rest is none. -/
def getlines (sep : UInt8) (s : Str) : List Str :=
  let tokens := s.splitOn sep
  if tokens.getLast? = some [] then tokens.dropLast else tokens

namespace RealTimeTune

/-! ### Ranges of CPUs -/

/-- The loop from `start` to `end`. -/
def fromTo (start stop : ℤ) : List ℤ := (List.range (stop + 1 - start).toNat).map (fun i => start + (i : ℤ))

def parseToken (token : Str) : Option (List ℤ) :=
  if 45 ∈ token then do
    let start ← stoi (token.takeWhile (· ≠ 45))
    let stop ← stoi ((token.dropWhile (· ≠ 45)).drop 1)
    some (fromTo start stop)
  else (stoi token).map (fun n => [n])

/-- `ParseRange`: `none` when `stoi` throws. -/
def parseRange (rangeStr : Str) : Option (List ℤ) := ((getlines 44 rangeStr).mapM parseToken).map List.flatten

/-- The pieces `GetNotRangeCpus` writes, from the run that is being read. -/
def runsFrom (start stop : ℕ) : List ℕ → List (ℕ × ℕ)
  | [] => [(start, stop)]
  | n :: ns => if n = stop + 1 then runsFrom start n ns else (start, stop) :: runsFrom n n ns

def runs : List ℕ → List (ℕ × ℕ)
  | [] => []
  | n :: ns => runsFrom n n ns

/-- The CPUs up to `maxCpu` that are not included. -/
def notInRange (includeCpus : List ℤ) (maxCpu : ℤ) : List ℕ :=
  (List.range (maxCpu + 1).toNat).filter (fun i => decide ((i : ℤ) ∉ includeCpus))

/-- `GetNotRangeCpus`. -/
def getNotRangeCpus (range : Str) (maxCpu : ℤ) : Option Str :=
  (parseRange range).map (fun includeCpus => [44].intercalate ((runs (notInRange includeCpus maxCpu)).map showRange))

def isDigit (c : UInt8) : Bool := 48 ≤ c && c ≤ 57

/-- The characters of `^[0-9,\-\s]+$`. -/
def rangeChar (c : UInt8) : Bool := isDigit c || c = 44 || c = 45 || isSpace c

/-- The two `erase` calls, for blanks and tabs. -/
def trim (token : Str) : Str := (token.dropWhile (fun c => c = 32 ∨ c = 9)).rdropWhile (fun c => c = 32 ∨ c = 9)

def validateCpuToken (maxCpuId : ℤ) (token : Str) : Bool :=
  if 45 ∈ token then
    let startStr := token.takeWhile (· ≠ 45)
    let endStr := (token.dropWhile (· ≠ 45)).drop 1
    decide (startStr ≠ [] ∧ endStr ≠ []) && startStr.all isDigit && endStr.all isDigit &&
      match stoi startStr, stoi endStr with
      | some start, some stop => decide (0 ≤ start ∧ stop ≤ maxCpuId ∧ start ≤ stop)
      | _, _ => false
  else
    token.all isDigit && (stoi token).any (fun cpuId => decide (0 ≤ cpuId ∧ cpuId ≤ maxCpuId))

/-- `ValidateCpuRange`. -/
def validateCpuRange (maxCpuId : ℤ) (rangeValue : Str) : Bool :=
  decide (rangeValue.length ≤ 256 ∧ rangeValue ≠ []) && rangeValue.all rangeChar &&
    (getlines 44 rangeValue).all (fun token => decide (trim token ≠ []) && validateCpuToken maxCpuId (trim token))

/-! ### The switches -/

structure RealtimeTuneSwitch where
  cpufreqPerformance : Bool
  transparentHugepage : Bool
  numaBalancing : Bool
  ksm : Bool
  swap : Bool
  timerMigration : Bool
  rtRuntimeUs : ℤ
  featureSwitches : UMap Str Bool
  cpuIsolationRange : Str

def RealtimeTuneSwitch.init : RealtimeTuneSwitch := ⟨false, false, false, false, false, false, 0, .empty, []⟩

def KERNEL_PARAM_KEYS : List Str := [str "isolcpus", str "nohz_full", str "rcu_nocbs", str "irqaffinity"]

/-- A step of the reading: whether it succeeds, and the switches so far. -/
abbrev Parse := RealtimeTuneSwitch → Bool × RealtimeTuneSwitch

def Parse.andThen (p q : Parse) : Parse := fun sw => if (p sw).1 then q (p sw).2 else (false, (p sw).2)

/-- `node[key]` where it is defined. -/
def child (node : Node) (key : Str) : Option Node := (node.get key).join

/-- The value of a switch: `val == "on"` for a scalar that is `on` or `off`. -/
def readSwitch (node : Node) (key : Str) : Option Bool :=
  match child node key with
  | some (.scalar val) => if val = str "on" then some true else if val = str "off" then some false else none
  | _ => none

/-- A switch that must be there, stored by `store`. -/
def parseSwitch (node : Node) (key : Str) (store : Bool → RealtimeTuneSwitch → RealtimeTuneSwitch) : Parse :=
  fun sw => match readSwitch node key with
    | some on => (true, store on sw)
    | none => (false, sw)

/-- A section that must be there. -/
def parseSection (config : Node) (key : Str) (p : Node → Parse) : Parse :=
  fun sw => match child config key with
    | some node => p node sw
    | none => (false, sw)

def parseCpuIsolationRange (maxCpuId : ℤ) (cpuIso : Node) : Parse :=
  fun sw => match child cpuIso (str "range") with
    | some (.scalar rangeValue) =>
      if validateCpuRange maxCpuId rangeValue then (true, { sw with cpuIsolationRange := rangeValue }) else (false, sw)
    | _ => (false, sw)

def parseFeature (features : Node) (key : Str) : Parse :=
  parseSwitch features key (fun on sw => { sw with featureSwitches := sw.featureSwitches.insert key on })

def parseCpuIsolationFeatures (cpuIso : Node) : Parse :=
  fun sw => match child cpuIso (str "features") with
    | some (.map pairs) =>
      KERNEL_PARAM_KEYS.foldr (fun key rest => (parseFeature (.map pairs) key).andThen rest) (fun sw => (true, sw)) sw
    | _ => (false, sw)

def parseCpuIsolationConfig (maxCpuId : ℤ) (config : Node) : Parse :=
  parseSection config (str "cpu_isolation") (fun cpuIso =>
    (parseCpuIsolationRange maxCpuId cpuIso).andThen (parseCpuIsolationFeatures cpuIso))

def parseCpuFreqConfig (config : Node) : Parse :=
  parseSwitch config (str "cpufreq_performance") (fun on sw => { sw with cpufreqPerformance := on })

/-- Here `off` in the file asks for the tuning. -/
def parseMemoryConfig (config : Node) : Parse :=
  parseSection config (str "memory") (fun mem =>
    (parseSwitch mem (str "transparent_hugepage") (fun on sw => { sw with transparentHugepage := !on })).andThen
      ((parseSwitch mem (str "numa_balancing") (fun on sw => { sw with numaBalancing := !on })).andThen
        ((parseSwitch mem (str "ksm") (fun on sw => { sw with ksm := !on })).andThen
          (parseSwitch mem (str "swap") (fun on sw => { sw with swap := !on })))))

def parseTimerConfig (config : Node) : Parse :=
  parseSection config (str "timer") (fun timer =>
    parseSwitch timer (str "migration") (fun on sw => { sw with timerMigration := !on }))

def parseSchedConfig (config : Node) : Parse :=
  parseSection config (str "sched") (fun sched =>
    parseSwitch sched (str "rt_runtime_us") (fun on sw => { sw with rtRuntimeUs := if on then 0 else -1 }))

/-- `ParseFromSwitchConfig`, from what `LoadFile` gives. -/
def parseFromSwitchConfig (maxCpuId : ℤ) (file : Option Node) : Parse :=
  fun sw => match file with
    | none => (false, sw)
    | some config =>
      ((parseCpuIsolationConfig maxCpuId config).andThen ((parseCpuFreqConfig config).andThen
        ((parseMemoryConfig config).andThen ((parseTimerConfig config).andThen (parseSchedConfig config))))) sw

/-! ### What the switches hold when they are read -/

theorem andThen_true {p q : Parse} {sw : RealtimeTuneSwitch} (h : ((p.andThen q) sw).1 = true) :
    (p sw).1 = true ∧ (p.andThen q) sw = q (p sw).2 := by
  rw [Parse.andThen] at h ⊢
  split at h
  · rename_i hp
    exact ⟨hp, by rw [if_pos hp]⟩
  · cases h

/-- No step but the one for the range changes the range. -/
def KeepsRange (p : Parse) : Prop := ∀ sw, (p sw).2.cpuIsolationRange = sw.cpuIsolationRange

theorem KeepsRange.andThen {p q : Parse} (hp : KeepsRange p) (hq : KeepsRange q) : KeepsRange (p.andThen q) := by
  intro sw
  rw [Parse.andThen]
  split
  · rw [hq, hp]
  · exact hp sw

theorem keepsRange_switch (node : Node) (key : Str) {store : Bool → RealtimeTuneSwitch → RealtimeTuneSwitch}
    (h : ∀ on sw, (store on sw).cpuIsolationRange = sw.cpuIsolationRange) :
    KeepsRange (parseSwitch node key store) := by
  intro sw
  rw [parseSwitch]
  split
  · exact h _ _
  · rfl

theorem keepsRange_section (config : Node) (key : Str) {p : Node → Parse} (h : ∀ node, KeepsRange (p node)) :
    KeepsRange (parseSection config key p) := by
  intro sw
  rw [parseSection]
  split
  · exact h _ sw
  · rfl

theorem keepsRange_features (cpuIso : Node) : KeepsRange (parseCpuIsolationFeatures cpuIso) := by
  intro sw
  rw [parseCpuIsolationFeatures]
  split
  · have hkey : ∀ features key, KeepsRange (parseFeature features key) :=
      fun features key => keepsRange_switch features key (fun _ _ => rfl)
    have hrest : KeepsRange (fun sw => (true, sw)) := fun _ => rfl
    exact (hkey _ _).andThen ((hkey _ _).andThen ((hkey _ _).andThen ((hkey _ _).andThen hrest))) sw
  · rfl

theorem keepsRange_rest (config : Node) : KeepsRange ((parseCpuFreqConfig config).andThen
    ((parseMemoryConfig config).andThen ((parseTimerConfig config).andThen (parseSchedConfig config)))) := by
  have hcpu : KeepsRange (parseCpuFreqConfig config) := keepsRange_switch _ _ fun _ _ => rfl
  have hmem : KeepsRange (parseMemoryConfig config) := by
    refine keepsRange_section _ _ fun mem => ?_
    refine KeepsRange.andThen ?_ (KeepsRange.andThen ?_ (KeepsRange.andThen ?_ ?_)) <;>
      exact keepsRange_switch _ _ fun _ _ => rfl
  have htimer : KeepsRange (parseTimerConfig config) :=
    keepsRange_section _ _ fun _ => keepsRange_switch _ _ fun _ _ => rfl
  have hsched : KeepsRange (parseSchedConfig config) :=
    keepsRange_section _ _ fun _ => keepsRange_switch _ _ fun _ _ => rfl
  exact hcpu.andThen (hmem.andThen (htimer.andThen hsched))

/-- Switches that were read hold a valid range. -/
theorem validateCpuRange_of_parse {maxCpuId : ℤ} {file : Option Node} {sw : RealtimeTuneSwitch}
    (h : (parseFromSwitchConfig maxCpuId file sw).1 = true) :
    validateCpuRange maxCpuId (parseFromSwitchConfig maxCpuId file sw).2.cpuIsolationRange = true := by
  cases file with
  | none => cases h
  | some config =>
    rw [parseFromSwitchConfig] at h ⊢
    obtain ⟨hiso, heq⟩ := andThen_true h
    rw [heq, keepsRange_rest config]
    rw [parseCpuIsolationConfig, parseSection] at hiso ⊢
    cases hchild : child config (str "cpu_isolation") with
    | none => simp [hchild] at hiso
    | some cpuIso =>
      simp only [hchild] at hiso ⊢
      obtain ⟨hrange, heq'⟩ := andThen_true hiso
      rw [heq', keepsRange_features]
      rw [parseCpuIsolationRange] at hrange ⊢
      split at hrange
      · split at hrange
        · simp_all
        · cases hrange
      · cases hrange

theorem mem_showRange {r : ℕ × ℕ} {c : UInt8} (h : c ∈ showRange r) : isDigit c = true ∨ c = 45 := by
  have hdigit : ∀ n, c ∈ toStr n → isDigit c = true := by
    intro n hn
    obtain ⟨h1, h2⟩ := mem_toStr hn
    simp [isDigit, h1, h2]
  rw [showRange] at h
  split at h
  · exact .inl (hdigit _ h)
  · rcases List.mem_append.mp h with h | h
    · exact .inl (hdigit _ h)
    · rcases List.mem_cons.mp h with rfl | h
      · exact .inr rfl
      · exact .inl (hdigit _ h)

theorem mem_intercalate {sep c : UInt8} : ∀ {pieces : List Str}, c ∈ [sep].intercalate pieces →
    c = sep ∨ ∃ piece ∈ pieces, c ∈ piece
  | [], h => by simp [List.intercalate] at h
  | [piece], h => .inr ⟨piece, List.mem_singleton_self piece, by simpa [List.intercalate] using h⟩
  | piece :: piece' :: pieces, h => by
    have hsplit : [sep].intercalate (piece :: piece' :: pieces) = piece ++ sep :: [sep].intercalate (piece' :: pieces) := by
      simp [List.intercalate]
    rw [hsplit, List.mem_append, List.mem_cons] at h
    rcases h with h | rfl | h
    · exact .inr ⟨piece, List.mem_cons_self, h⟩
    · exact .inl rfl
    · rcases mem_intercalate h with rfl | ⟨p, hp, hc⟩
      · exact .inl rfl
      · exact .inr ⟨p, List.mem_cons_of_mem piece hp, hc⟩

/-- The complement is written without blanks. -/
theorem rangeChar_of_notRange {range s : Str} {maxCpu : ℤ} (h : getNotRangeCpus range maxCpu = some s) :
    ∀ c ∈ s, rangeChar c = true := by
  intro c hc
  obtain ⟨includeCpus, -, rfl⟩ := Option.map_eq_some_iff.mp h
  rcases mem_intercalate hc with rfl | ⟨piece, hpiece, hc⟩
  · decide
  · obtain ⟨r, -, rfl⟩ := List.mem_map.mp hpiece
    rcases mem_showRange hc with h | rfl
    · simp [rangeChar, h]
    · decide

end RealTimeTune
end OeAware

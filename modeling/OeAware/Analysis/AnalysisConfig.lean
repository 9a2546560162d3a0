import OeAware.Analysis.Isolation
import OeAware.Common.Yaml
import OeAware.Schemes.Settings
import OeAware.Tune.SmcTune
import OeAware.Tune.XcallTune

/-! @src src/client/analysis/config.cpp | name:Config::Init, Config::LoadConfig | scheme:settings

    The command line gives some settings a value and raises a flag for each that the file could change, and then the file is
    read, one section after another. Whoever calls `LoadConfig` is told if it has failed, and goes on with the settings.

        defaults ──Init──▶ given, flags ──LoadConfig──▶ dynamic_smt, hugepage, ..., timeout
                                                        each stored as it is read, until one throws

    `[]` throws on a scalar, `as<..>` on what is no text and on a number that does not fit. -/

namespace OeAware
open Schemes

namespace AnalysisConfig
variable {D : Type}

/-- The members of `Config` that are settings. -/
inductive Setting
  | analysisTime
  | timeout
  | pid
  | l1MissThreshold
  | l2MissThreshold
  | dynamicSmtThreshold
  | outMarkDownPath
  | numaThreadThreshold
  | smcChangeRate
  | smcLoNetFlow
  | xcallThreshold
  | xcallTopNum
  | hostCpuUsageThreshold
  | dockerCpuUsageThreshold
  | microArchTidNoCmpConfigStream
  | isShowRealTimeReport
  | showVerbose
  deriving DecidableEq

/-- The type of a member. -/
abbrev Setting.Value (D : Type) : Setting → Type
  | .l1MissThreshold | .l2MissThreshold | .dynamicSmtThreshold | .smcChangeRate | .xcallThreshold
  | .hostCpuUsageThreshold | .dockerCpuUsageThreshold => D
  | .analysisTime | .timeout | .pid | .numaThreadThreshold | .smcLoNetFlow | .xcallTopNum => Int32
  | .outMarkDownPath | .microArchTidNoCmpConfigStream => Str
  | .isShowRealTimeReport | .showVerbose => Bool

/-- The members that say what the command line has given. -/
inductive Flag
  | l1MissThresholdSet
  | l2MissThresholdSet
  | dynamicSmtThresholdSet
  | numaThreadThresholdSet
  | smcChangeRateSet
  | smcLoNetFlowSet
  | hostCpuUsageThresholdSet
  | dockerCpuUsageThresholdSet
  deriving DecidableEq

def Setting.flag : Setting → Option Flag
  | .l1MissThreshold => some .l1MissThresholdSet
  | .l2MissThreshold => some .l2MissThresholdSet
  | .dynamicSmtThreshold => some .dynamicSmtThresholdSet
  | .numaThreadThreshold => some .numaThreadThresholdSet
  | .smcChangeRate => some .smcChangeRateSet
  | .smcLoNetFlow => some .smcLoNetFlowSet
  | .hostCpuUsageThreshold => some .hostCpuUsageThresholdSet
  | .dockerCpuUsageThreshold => some .dockerCpuUsageThresholdSet
  | _ => none

structure Config (D : Type) where
  value : ∀ s : Setting, s.Value D
  isSet : Flag → Bool

def Config.put (s : Setting) (v : s.Value D) (c : Config D) : Config D :=
  { c with value := Function.update c.value s v }

/-- What libraries and the system do. -/
structure Env (D : Type) where
  /-- `as<double>` and `as<int>` of a text; `none` where they throw. -/
  asDouble : Str → Option D
  asInt : Str → Option Int32
  /-- `as<std::string>` of a null, which throws or gives a text. -/
  null : Option Str
  /-- `yamlStream << node`. -/
  emit : Node → Str
  /-- A `double` that is assigned to an `int`. -/
  toInt : D → Int32
  fileExist : Str → Bool

variable [Double D]

def THRESHOLD_UP : ℤ := 100
def NUMA_THREAD_THRESHOLD_UP : Int32 := 10000

/-- The checks; each comparison is the source's. -/
def percent (x : D) : Bool := !(Double.lt x (Double.ofInt 0) || Double.lt (Double.ofInt THRESHOLD_UP) x)
def nonNegative (x : D) : Bool := !Double.lt x (Double.ofInt 0)
def isValidNumaThreadThreshold (threadNum : Int32) : Bool :=
  !(decide (threadNum ≤ 0) || decide (NUMA_THREAD_THRESHOLD_UP < threadNum))

/-! ### The command line -/

/-- The options that `getopt_long` knows, and whatever else it returns. -/
inductive Opt
  | time
  | realtime
  | verbose
  | L1_MISS_THRESHOLD
  | L2_MISS_THRESHOLD
  | OUT_PATH
  | DYNAMIC_SMT_THRESHOLD
  | PID
  | NUMA_THREAD_THRESHOLD
  | SMC_CHANGE_RATE
  | SMC_LONET_FLOW
  | HOST_CPU_USAGE_THRESHOLD
  | DOCKER_CPU_USAGE_THRESHOLD
  | default

/-- The setting that an option is for. -/
def Opt.setting : Opt → Option Setting
  | .time => some .analysisTime
  | .realtime => some .isShowRealTimeReport
  | .verbose => some .showVerbose
  | .L1_MISS_THRESHOLD => some .l1MissThreshold
  | .L2_MISS_THRESHOLD => some .l2MissThreshold
  | .OUT_PATH => some .outMarkDownPath
  | .DYNAMIC_SMT_THRESHOLD => some .dynamicSmtThreshold
  | .PID => some .pid
  | .NUMA_THREAD_THRESHOLD => some .numaThreadThreshold
  | .SMC_CHANGE_RATE => some .smcChangeRate
  | .SMC_LONET_FLOW => some .smcLoNetFlow
  | .HOST_CPU_USAGE_THRESHOLD => some .hostCpuUsageThreshold
  | .DOCKER_CPU_USAGE_THRESHOLD => some .dockerCpuUsageThreshold
  | .default => none

/-- The defaults. -/
def Config.init : Config D where
  value
    | .analysisTime => 30
    | .timeout => 5
    | .pid => -1
    | .l1MissThreshold => Double.ofInt 5
    | .l2MissThreshold => Double.ofInt 10
    | .dynamicSmtThreshold => Double.ofInt 40
    | .outMarkDownPath => []
    | .numaThreadThreshold => 200
    | .smcChangeRate => Double.div (Double.ofInt 1) (Double.ofInt 10)
    | .smcLoNetFlow => 100
    | .xcallThreshold => Double.ofInt 5
    | .xcallTopNum => 5
    | .hostCpuUsageThreshold => Double.ofInt 45
    | .dockerCpuUsageThreshold => Double.ofInt 95
    | .microArchTidNoCmpConfigStream => str "mysqld"
    | .isShowRealTimeReport => false
    | .showVerbose => false
  isSet _ := false

def minAnalyzeTime : ℤ := 1
def maxAnalyzeTime : ℤ := 100

/-- `ParseTime`; `strtol` has to take all of it. -/
def parseTime (arg : Str) : Option Int32 :=
  let s := SmcAcc.signed (arg.dropWhile isSpace)
  let digits := s.2.takeWhile SmcAcc.isDigit
  let time := if s.1 then -SmcAcc.number digits else SmcAcc.number digits
  if digits = [] ∨ s.2.dropWhile SmcAcc.isDigit ≠ [] ∨ time < minAnalyzeTime ∨ maxAnalyzeTime < time then none
  else some (Int32.ofInt time)

/-- An option with a flag: it is checked, read, checked again, and then given. -/
def Config.give (s : Setting) (flag : Flag) (isValid : Str → Bool) (read : Str → s.Value D) (inRange : s.Value D → Bool)
    (optarg : Str) (c : Config D) : Option (Config D) :=
  if isValid optarg = false then none
  else if inRange (read optarg) = false then none
  else some { c.put s (read optarg) with isSet := Function.update c.isSet flag true }

/-- One round of the loop in `Init`; `none` where it returns false. -/
def initStep (env : Env D) (c : Config D) : Opt × Str → Option (Config D)
  | (.time, optarg) => (parseTime optarg).map (fun time => c.put .analysisTime time)
  | (.realtime, _) => some (c.put .isShowRealTimeReport true)
  | (.verbose, _) => some (c.put .showVerbose true)
  | (.L1_MISS_THRESHOLD, optarg) =>
    c.give .l1MissThreshold .l1MissThresholdSet SmcTune.isNum Double.atof percent optarg
  | (.L2_MISS_THRESHOLD, optarg) =>
    c.give .l2MissThreshold .l2MissThresholdSet SmcTune.isNum Double.atof percent optarg
  | (.OUT_PATH, optarg) => if env.fileExist optarg then some (c.put .outMarkDownPath optarg) else none
  | (.DYNAMIC_SMT_THRESHOLD, optarg) =>
    c.give .dynamicSmtThreshold .dynamicSmtThresholdSet SmcTune.isNum Double.atof percent optarg
  | (.PID, optarg) =>
    if env.fileExist (str "/proc/" ++ optarg) then some (c.put .pid (Int32.ofInt (atoi optarg))) else none
  | (.NUMA_THREAD_THRESHOLD, optarg) =>
    c.give .numaThreadThreshold .numaThreadThresholdSet XcallTune.isInteger (fun s => Int32.ofInt (atoi s))
      isValidNumaThreadThreshold optarg
  | (.SMC_CHANGE_RATE, optarg) =>
    c.give .smcChangeRate .smcChangeRateSet SmcTune.isNum Double.atof nonNegative optarg
  | (.SMC_LONET_FLOW, optarg) =>
    c.give .smcLoNetFlow .smcLoNetFlowSet SmcTune.isNum (fun s => Int32.ofInt (atoi s)) (fun n => !decide (n < 0)) optarg
  | (.HOST_CPU_USAGE_THRESHOLD, optarg) =>
    c.give .hostCpuUsageThreshold .hostCpuUsageThresholdSet SmcTune.isNum Double.atof percent optarg
  | (.DOCKER_CPU_USAGE_THRESHOLD, optarg) =>
    c.give .dockerCpuUsageThreshold .dockerCpuUsageThresholdSet SmcTune.isNum Double.atof percent optarg
  | (.default, _) => none

/-- `Init`, with the options in the order in which `getopt_long` returns them and what it leaves. -/
def init (env : Env D) (opts : List (Opt × Str)) (operands : List Str) : Option (Config D) := do
  let c ← opts.foldlM (initStep env) Config.init
  if operands ≠ [] then none else some c

/-! ### The file -/

/-- A `YAML::Exception` on its way does not take back what has been stored. -/
abbrev Loading (D : Type) := EStateM Unit (Config D)

/-- What throws, or else the result. -/
def orThrow {α : Type} : Option α → Loading D α
  | some a => pure a
  | none => throw ()

omit [Double D] in
@[simp] theorem run_orThrow_none {α : Type} (c : Config D) : (orThrow (none : Option α)).run c = .error () c := rfl

omit [Double D] in
@[simp] theorem run_orThrow_some {α : Type} (a : α) (c : Config D) : (orThrow (some a)).run c = .ok a c := rfl

def store (s : Setting) (v : s.Value D) : Loading D Unit := modify (·.put s v)

def storeUnless (flag : Flag) (s : Setting) (v : s.Value D) : Loading D Unit := do
  if (← get).isSet flag = false then store s v

/-- `node.as<std::string>()`. -/
def Env.asString (env : Env D) : Node → Option Str
  | .null => env.null
  | node => node.asString

/-- `if (!config[section]) return;`. -/
def inSection (found : Option (Option Node)) (body : Node → Loading D Unit) : Loading D Unit := do
  match ← orThrow found with
  | none => pure ()
  | some node => body node

/-- One key: a text, a number in it, and its range. -/
def readKey {α : Type} (env : Env D) (found : Option (Option Node)) (isValid : Str → Bool) (as : Str → Option α)
    (inRange : α → Bool) (store : α → Loading D Unit) : Loading D Unit := do
  match ← orThrow found with
  | none => pure ()
  | some node =>
    let text ← orThrow (env.asString node)
    if isValid text then
      let v ← orThrow (as text)
      if inRange v then store v

/-- One key, where a number that is out of range stands for none. -/
def readKeyOr {α : Type} (default : α) (env : Env D) (found : Option (Option Node)) (isValid : Str → Bool)
    (as : Str → Option α) (inRange : α → Bool) (store : α → Loading D Unit) : Loading D Unit := do
  match ← orThrow found with
  | none => if inRange default then store default
  | some node =>
    let text ← orThrow (env.asString node)
    if isValid text then
      let v ← orThrow (as text)
      if inRange v then store v

def dockerCoordinationBurstConfig (env : Env D) (config : Node) : Loading D Unit :=
  inSection (config.get (str "docker_coordination_burst")) fun node => do
    readKey env (node.get (str "host_cpu_usage_threshold")) SmcTune.isNum env.asDouble percent
      (storeUnless .hostCpuUsageThresholdSet .hostCpuUsageThreshold)
    readKey env (node.get (str "docker_cpu_usage_threshold")) SmcTune.isNum env.asDouble percent
      (storeUnless .dockerCpuUsageThresholdSet .dockerCpuUsageThreshold)

def loadMicroArchTidNoCmpConfig (env : Env D) (config : Node) : Loading D Unit :=
  inSection (config.get (str "microarch_tidnocmp")) fun node => store .microArchTidNoCmpConfigStream (env.emit node)

def loadDynamicSmtConfig (env : Env D) (config : Node) : Loading D Unit :=
  inSection (config.get (str "dynamic_smt")) fun node =>
    readKeyOr (Double.ofInt (-1)) env (node.get (str "threshold")) SmcTune.isNum env.asDouble percent
      (storeUnless .dynamicSmtThresholdSet .dynamicSmtThreshold)

def loadHugepageConfig (env : Env D) (config : Node) : Loading D Unit :=
  inSection (config.get (str "hugepage")) fun node => do
    readKey env (node.get (str "l1_miss_threshold")) SmcTune.isNum env.asDouble percent
      (storeUnless .l1MissThresholdSet .l1MissThreshold)
    readKey env (node.get (str "l2_miss_threshold")) SmcTune.isNum env.asDouble percent
      (storeUnless .l2MissThresholdSet .l2MissThreshold)

def loadNumaConfig (env : Env D) (config : Node) : Loading D Unit :=
  inSection (config.get (str "numa_analysis")) fun node =>
    readKeyOr (-1) env (node.get (str "thread_threshold")) XcallTune.isInteger env.asInt isValidNumaThreadThreshold
      (storeUnless .numaThreadThresholdSet .numaThreadThreshold)

def loadSmcDConfig (env : Env D) (config : Node) : Loading D Unit :=
  inSection (config.get (str "smc_d_analysis")) fun node => do
    readKey env (node.get (str "change_rate")) SmcTune.isNum env.asDouble nonNegative
      (storeUnless .smcChangeRateSet .smcChangeRate)
    readKey env (node.get (str "local_net_flow")) SmcTune.isNum env.asDouble nonNegative
      (fun loNetFlow => storeUnless .smcLoNetFlowSet .smcLoNetFlow (env.toInt loNetFlow))

def loadXcallConfig (env : Env D) (config : Node) : Loading D Unit :=
  inSection (config.get (str "xcall_analysis")) fun node => do
    readKey env (node.get (str "threshold")) SmcTune.isNum env.asDouble percent (store .xcallThreshold)
    readKey env (node.get (str "num")) XcallTune.isInteger env.asInt (fun num => !decide (num < 0)) (store .xcallTopNum)

def loadTimeout (env : Env D) (config : Node) : Loading D Unit :=
  readKey env (config.get (str "timeout")) XcallTune.isInteger env.asInt (fun t => !decide (t < 0)) (store .timeout)

/-- The sections, in the order in which they are read. -/
def loadSections (env : Env D) (config : Node) : Loading D Unit := do
  loadDynamicSmtConfig env config
  loadHugepageConfig env config
  loadNumaConfig env config
  loadSmcDConfig env config
  loadXcallConfig env config
  dockerCoordinationBurstConfig env config
  loadMicroArchTidNoCmpConfig env config
  loadTimeout env config

/-- `LoadConfig`; there is no document where `YAML::LoadFile` throws. -/
def loadConfig (env : Env D) (document : Option Node) (c : Config D) : Config D × Bool :=
  match (do loadSections env (← orThrow document)).run c with
  | .ok _ c => (c, true)
  | .error _ c => (c, false)

/-! ### What is asked -/

/-- What the file has for a setting, and what it would have to say for a setting to be as it is. -/
inductive Datum (D : Type)
  | number (x : D)
  | int (n : Int32)
  | text (s : Str)
  | bool (b : Bool)
  deriving DecidableEq

def Setting.datum : ∀ s : Setting, s.Value D → Datum D
  | .l1MissThreshold, x | .l2MissThreshold, x | .dynamicSmtThreshold, x | .smcChangeRate, x | .xcallThreshold, x
  | .hostCpuUsageThreshold, x | .dockerCpuUsageThreshold, x => .number x
  | .smcLoNetFlow, n => .number (Double.ofInt n.toInt)
  | .analysisTime, n | .timeout, n | .pid, n | .numaThreadThreshold, n | .xcallTopNum, n => .int n
  | .outMarkDownPath, s | .microArchTidNoCmpConfigStream, s => .text s
  | .isShowRealTimeReport, b | .showVerbose, b => .bool b

/-- The node at the end of a path, if there is one. -/
def find (document : Option Node) (path : List Str) : Option Node :=
  path.foldl (fun node key => node.bind fun node =>
    match node with
    | .map pairs => pairs.lookup key
    | _ => none) document

/-- The valid value of a key. -/
def valid {α : Type} (env : Env D) (document : Option Node) (path : List Str) (isValid : Str → Bool) (as : Str → Option α)
    (inRange : α → Bool) : Option α :=
  ((((find document path).bind env.asString).filter isValid).bind as).filter inRange

def number (env : Env D) (document : Option Node) (path : List Str) (inRange : D → Bool) : Option (Datum D) :=
  (valid env document path SmcTune.isNum env.asDouble inRange).map .number

def integer (env : Env D) (document : Option Node) (path : List Str) (inRange : Int32 → Bool) : Option (Datum D) :=
  (valid env document path XcallTune.isInteger env.asInt inRange).map .int

/-- What the file validly says. -/
def file (env : Env D) (document : Option Node) : Setting → Option (Datum D)
  | .dynamicSmtThreshold => number env document [str "dynamic_smt", str "threshold"] percent
  | .l1MissThreshold => number env document [str "hugepage", str "l1_miss_threshold"] percent
  | .l2MissThreshold => number env document [str "hugepage", str "l2_miss_threshold"] percent
  | .numaThreadThreshold =>
    integer env document [str "numa_analysis", str "thread_threshold"] isValidNumaThreadThreshold
  | .smcChangeRate => number env document [str "smc_d_analysis", str "change_rate"] nonNegative
  | .smcLoNetFlow => number env document [str "smc_d_analysis", str "local_net_flow"] nonNegative
  | .xcallThreshold => number env document [str "xcall_analysis", str "threshold"] percent
  | .xcallTopNum => integer env document [str "xcall_analysis", str "num"] (fun n => !decide (n < 0))
  | .hostCpuUsageThreshold =>
    number env document [str "docker_coordination_burst", str "host_cpu_usage_threshold"] percent
  | .dockerCpuUsageThreshold =>
    number env document [str "docker_coordination_burst", str "docker_cpu_usage_threshold"] percent
  | .microArchTidNoCmpConfigStream => (find document [str "microarch_tidnocmp"]).map (fun node => .text (env.emit node))
  | .timeout => integer env document [str "timeout"] (fun n => !decide (n < 0))
  | _ => none

/-- The command line has an option for the setting. -/
def Given (opts : List (Opt × Str)) (s : Setting) : Prop := ∃ o ∈ opts, o.1.setting = some s

/-- What is asked of `LoadConfig`. -/
structure Right (env : Env D) (opts : List (Opt × Str)) (document : Option Node) (c : Config D) (r : Config D × Bool) :
    Prop where
  failed : r.2 = false → r.1.value = c.value
  given : r.2 = true → ∀ s, Given opts s → r.1.value s = c.value s
  filed : r.2 = true → ∀ s, ¬ Given opts s → file env document s ≠ none →
    file env document s = some (s.datum (r.1.value s))
  kept : r.2 = true → ∀ s, ¬ Given opts s → file env document s = none → r.1.value s = c.value s

/-- `-1` is below `0`, and an `int` that became a `double` is still there. -/
structure Env.Sound (env : Env D) : Prop where
  negative : Double.lt (Double.ofInt (-1) : D) (Double.ofInt 0) = true
  toInt_ofInt : ∀ n : Int32, env.toInt (Double.ofInt n.toInt) = n

/-! ### What each key comes to -/

/-- `found[key]`, where `found` is defined. -/
def sub (found : Option (Option Node)) (key : Str) : Option (Option Node) :=
  match found with
  | none => none
  | some none => some none
  | some (some node) => node.get key

def lookupText {α : Type} (env : Env D) (isValid : Str → Bool) (as : Str → Option α) (inRange : α → Bool) :
    Option (Option Node) → Lookup α
  | none => .thrown
  | some none => .absent
  | some (some node) =>
    match env.asString node with
    | none => .thrown
    | some text =>
      if isValid text then
        match as text with
        | none => .thrown
        | some v => if inRange v then .value v else .absent
      else .absent

def lookupNode : Option (Option Node) → Lookup Node
  | none => .thrown
  | some none => .absent
  | some (some node) => .value node

def lookupNumber (env : Env D) (config : Node) (section_ key : Str) (inRange : D → Bool) : Lookup D :=
  lookupText env SmcTune.isNum env.asDouble inRange (sub (config.get section_) key)

def lookupInteger (env : Env D) (config : Node) (section_ key : Str) (inRange : Int32 → Bool) : Lookup Int32 :=
  lookupText env XcallTune.isInteger env.asInt inRange (sub (config.get section_) key)

/-- What is stored for a setting, if anything, when it is its turn. -/
def lookup (env : Env D) (config : Node) : ∀ s : Setting, Lookup (s.Value D)
  | .dynamicSmtThreshold => lookupNumber env config (str "dynamic_smt") (str "threshold") percent
  | .l1MissThreshold => lookupNumber env config (str "hugepage") (str "l1_miss_threshold") percent
  | .l2MissThreshold => lookupNumber env config (str "hugepage") (str "l2_miss_threshold") percent
  | .numaThreadThreshold =>
    lookupInteger env config (str "numa_analysis") (str "thread_threshold") isValidNumaThreadThreshold
  | .smcChangeRate => lookupNumber env config (str "smc_d_analysis") (str "change_rate") nonNegative
  | .smcLoNetFlow => (lookupNumber env config (str "smc_d_analysis") (str "local_net_flow") nonNegative).map env.toInt
  | .xcallThreshold => lookupNumber env config (str "xcall_analysis") (str "threshold") percent
  | .xcallTopNum => lookupInteger env config (str "xcall_analysis") (str "num") (fun n => !decide (n < 0))
  | .hostCpuUsageThreshold =>
    lookupNumber env config (str "docker_coordination_burst") (str "host_cpu_usage_threshold") percent
  | .dockerCpuUsageThreshold =>
    lookupNumber env config (str "docker_coordination_burst") (str "docker_cpu_usage_threshold") percent
  | .microArchTidNoCmpConfigStream => (lookupNode (config.get (str "microarch_tidnocmp"))).map env.emit
  | .timeout => lookupText env XcallTune.isInteger env.asInt (fun n => !decide (n < 0)) (config.get (str "timeout"))
  | _ => .absent

/-- The settings in the order in which the file is read. -/
def order : List Setting :=
  [.dynamicSmtThreshold, .l1MissThreshold, .l2MissThreshold, .numaThreadThreshold, .smcChangeRate, .smcLoNetFlow,
    .xcallThreshold, .xcallTopNum, .hostCpuUsageThreshold, .dockerCpuUsageThreshold, .microArchTidNoCmpConfigStream,
    .timeout]

/-- What there has to be about the file: if something throws, what had been found before was there already; if nothing
    does, what it has for `local_net_flow` is an `int`. Settings that the command line has given are left out. -/
structure Admitted (env : Env D) (opts : List (Opt × Str)) (c : Config D) (config : Node) : Prop where
  early : (∃ s ∈ order, (lookup env config s).isThrown = true) → ∀ s ∈ untilThrown (lookup env config) order,
    ¬ Given opts s → ∀ v, lookup env config s = .value v → v = c.value s
  whole : (∀ s ∈ order, (lookup env config s).isThrown = false) → ¬ Given opts .smcLoNetFlow →
    ∀ x, file env (some config) .smcLoNetFlow = some (.number x) → ∃ n : Int32, x = Double.ofInt n.toInt

/-! ### The file and the lookups -/

section
variable {α : Type} {env : Env D} {config : Node} {c : Config D}

omit [Double D] in
theorem toOption_lookupText {isValid : Str → Bool} {as : Str → Option α} {inRange : α → Bool} :
    ∀ found : Option (Option Node), (lookupText env isValid as inRange found).toOption =
      (((found.join.bind env.asString).filter isValid).bind as).filter inRange
  | none => rfl
  | some none => rfl
  | some (some node) => by
    rw [lookupText, Option.join_some, Option.bind_some]
    cases env.asString node with
    | none => rfl
    | some text =>
      cases hvalid : isValid text with
      | false => simp [hvalid, Lookup.toOption, Option.filter]
      | true =>
        cases has : as text with
        | none => simp [hvalid, has, Lookup.toOption, Option.filter]
        | some v => cases hrange : inRange v <;> simp [hvalid, has, hrange, Lookup.toOption, Option.filter]

theorem find_one (key : Str) : find (some config) [key] = (config.get key).join := by
  cases config <;> rfl

theorem find_two (section_ key : Str) : find (some config) [section_, key] = (sub (config.get section_) key).join := by
  have hone := @find_one config section_
  rw [find, List.foldl_cons, List.foldl_nil] at hone
  rw [find, List.foldl_cons, List.foldl_cons, List.foldl_nil, hone]
  cases config.get section_ with
  | none => rfl
  | some found =>
    cases found with
    | none => rfl
    | some node => cases node <;> rfl

theorem file_smcLoNetFlow : file env (some config) .smcLoNetFlow =
    (lookupNumber env config (str "smc_d_analysis") (str "local_net_flow") nonNegative).toOption.map .number := by
  rw [lookupNumber, toOption_lookupText, ← find_two]
  rfl

/-- What is found for a setting is what the file has for it; the one that is cut to an `int` apart. -/
theorem file_eq {s : Setting} (hs : s ≠ .smcLoNetFlow) :
    file env (some config) s = (lookup env config s).toOption.map s.datum := by
  have hnumber : ∀ section_ key inRange, number env (some config) [section_, key] inRange =
      (lookupNumber env config section_ key inRange).toOption.map .number := by
    intro section_ key inRange
    rw [lookupNumber, toOption_lookupText, ← find_two]
    rfl
  have hinteger : ∀ section_ key inRange, integer env (some config) [section_, key] inRange =
      (lookupInteger env config section_ key inRange).toOption.map .int := by
    intro section_ key inRange
    rw [lookupInteger, toOption_lookupText, ← find_two]
    rfl
  cases s with
  | smcLoNetFlow => exact absurd rfl hs
  | dynamicSmtThreshold => exact hnumber ..
  | l1MissThreshold => exact hnumber ..
  | l2MissThreshold => exact hnumber ..
  | numaThreadThreshold => exact hinteger ..
  | smcChangeRate => exact hnumber ..
  | xcallThreshold => exact hnumber ..
  | xcallTopNum => exact hinteger ..
  | hostCpuUsageThreshold => exact hnumber ..
  | dockerCpuUsageThreshold => exact hnumber ..
  | microArchTidNoCmpConfigStream =>
    rw [file, lookup, find_one]
    rcases config.get (str "microarch_tidnocmp") with _ | _ | node <;> rfl
  | timeout =>
    rw [file, lookup, toOption_lookupText, ← find_one]
    rfl
  | _ => rfl

/-! ### The loaders -/

/-- What raises a flag for a setting. -/
def Config.given (c : Config D) (s : Setting) : Bool := (s.flag.map c.isSet).getD false

/-- A part of `LoadConfig` reads these settings. -/
def Loads (m : Loading D Unit) (found : ∀ s : Setting, Lookup (s.Value D)) (settings : List Setting) : Prop :=
  ∀ c : Config D, m.run c =
    if (load c.given found settings c.value).2 then .ok () ⟨(load c.given found settings c.value).1, c.isSet⟩
    else .error () ⟨(load c.given found settings c.value).1, c.isSet⟩

variable {found : ∀ s : Setting, Lookup (s.Value D)}

omit [Double D] in
theorem Loads.seq {m m' : Loading D Unit} {settings settings' : List Setting} (h : Loads m found settings)
    (h' : Loads m' found settings') : Loads (do m; m') found (settings ++ settings') := by
  intro c
  rw [EStateM.run_bind, h c, load_append]
  cases hok : (load c.given found settings c.value).2 with
  | true => exact h' ⟨(load c.given found settings c.value).1, c.isSet⟩
  | false => simp [hok]

omit [Double D] in
theorem Loads.cons {m m' : Loading D Unit} {s : Setting} {settings : List Setting} (h : Loads m found [s])
    (h' : Loads m' found settings) : Loads (do m; m') found (s :: settings) := h.seq h'

omit [Double D] in
/-- A section with these settings. -/
theorem Loads.inSection {o : Option (Option Node)} {body : Node → Loading D Unit} {s : Setting} {settings : List Setting}
    (hthrown : o = none → found s = .thrown) (habsent : o = some none → ∀ i ∈ s :: settings, found i = .absent)
    (hbody : ∀ node, o = some (some node) → Loads (body node) found (s :: settings)) :
    Loads (inSection o body) found (s :: settings) := by
  intro c
  rcases o with _ | _ | node
  · rw [load, hthrown rfl]
    rfl
  · rw [load_absent (habsent rfl) c.value]
    rfl
  · exact hbody node rfl c

omit [Double D] in
theorem run_readKey {isValid : Str → Bool} {as : Str → Option α} {inRange : α → Bool} {store : α → Loading D Unit}
    (c : Config D) : ∀ o : Option (Option Node), (readKey env o isValid as inRange store).run c =
      match lookupText env isValid as inRange o with
      | .thrown => .error () c
      | .absent => .ok () c
      | .value v => (store v).run c
  | none => rfl
  | some none => rfl
  | some (some node) => by
    rw [lookupText]
    cases hs : env.asString node with
    | none => simp [readKey, hs]
    | some text =>
      cases hvalid : isValid text with
      | false => simp [readKey, hs, hvalid]
      | true =>
        cases has : as text with
        | none => simp [readKey, hs, hvalid, has]
        | some v => cases hrange : inRange v <;> simp [readKey, hs, hvalid, has, hrange]

omit [Double D] in
/-- A number that stands for none is not stored. -/
theorem readKeyOr_eq {default : α} {isValid : Str → Bool} {as : Str → Option α} {inRange : α → Bool}
    {store : α → Loading D Unit} (hdefault : inRange default = false) (o : Option (Option Node)) :
    readKeyOr default env o isValid as inRange store = readKey env o isValid as inRange store := by
  simp [readKeyOr, readKey, hdefault]

omit [Double D] in
/-- One key is read, for the setting that it is about. -/
theorem loads_readKey {o : Option (Option Node)} {isValid : Str → Bool} {as : Str → Option α} {inRange : α → Bool}
    {store : α → Loading D Unit} {s : Setting} (f : α → s.Value D)
    (hfound : found s = (lookupText env isValid as inRange o).map f)
    (hstore : ∀ v c, (store v).run c = .ok () (if c.given s then c else c.put s (f v))) :
    Loads (readKey env o isValid as inRange store) found [s] := by
  intro c
  rw [run_readKey, load, hfound]
  cases lookupText env isValid as inRange o with
  | thrown => rfl
  | absent => rfl
  | value v =>
    refine (hstore v c).trans ?_
    dsimp only [Lookup.map]
    cases c.given s <;> rfl

omit [Double D] in
/-- The setting has a flag. -/
theorem run_storeUnless (s : Setting) {flag : Flag} (hflag : s.flag = some flag) (v : s.Value D) (c : Config D) :
    (storeUnless flag s v).run c = .ok () (if c.given s then c else c.put s v) := by
  rw [Config.given, hflag, Option.map_some, Option.getD_some]
  cases hset : c.isSet flag with
  | false =>
    simp [storeUnless, hset]
    rfl
  | true => simp [storeUnless, hset]

omit [Double D] in
/-- And here it has none. -/
theorem run_store (s : Setting) (hflag : s.flag = none) (v : s.Value D) (c : Config D) :
    (store s v).run c = .ok () (if c.given s then c else c.put s v) := by
  rw [Config.given, hflag]
  rfl

omit [Double D] in
theorem lookupNumber_of_node {section_ key : Str} {inRange : D → Bool} {node : Node}
    (h : config.get section_ = some (some node)) : lookupNumber env config section_ key inRange =
      (lookupText env SmcTune.isNum env.asDouble inRange (node.get key)).map id := by
  rw [lookupNumber, h, Lookup.map_id]
  rfl

omit [Double D] in
theorem lookupInteger_of_node {section_ key : Str} {inRange : Int32 → Bool} {node : Node}
    (h : config.get section_ = some (some node)) : lookupInteger env config section_ key inRange =
      (lookupText env XcallTune.isInteger env.asInt inRange (node.get key)).map id := by
  rw [lookupInteger, h, Lookup.map_id]
  rfl

theorem loads_dynamicSmt (henv : env.Sound) :
    Loads (loadDynamicSmtConfig env config) (lookup env config) [.dynamicSmtThreshold] := by
  have hdefault : percent (Double.ofInt (-1) : D) = false := by simp [percent, henv.negative]
  refine Loads.inSection (fun h => ?_) (fun h => ?_) fun node h => ?_
  · simp [lookup, lookupNumber, sub, lookupText, h]
  · simp [lookup, lookupNumber, sub, lookupText, h]
  · rw [readKeyOr_eq hdefault]
    exact loads_readKey id (lookupNumber_of_node h) (run_storeUnless .dynamicSmtThreshold rfl)

theorem loads_hugepage :
    Loads (loadHugepageConfig env config) (lookup env config) [.l1MissThreshold, .l2MissThreshold] := by
  refine Loads.inSection (fun h => ?_) (fun h => ?_) fun node h => ?_
  · simp [lookup, lookupNumber, sub, lookupText, h]
  · simp [lookup, lookupNumber, sub, lookupText, h]
  · exact Loads.cons (loads_readKey id (lookupNumber_of_node h) (run_storeUnless .l1MissThreshold rfl))
      (loads_readKey id (lookupNumber_of_node h) (run_storeUnless .l2MissThreshold rfl))

theorem loads_numa : Loads (loadNumaConfig env config) (lookup env config) [.numaThreadThreshold] := by
  refine Loads.inSection (fun h => ?_) (fun h => ?_) fun node h => ?_
  · simp [lookup, lookupInteger, sub, lookupText, h]
  · simp [lookup, lookupInteger, sub, lookupText, h]
  · rw [readKeyOr_eq (by decide)]
    exact loads_readKey id (lookupInteger_of_node h) (run_storeUnless .numaThreadThreshold rfl)

theorem loads_smcD : Loads (loadSmcDConfig env config) (lookup env config) [.smcChangeRate, .smcLoNetFlow] := by
  refine Loads.inSection (fun h => ?_) (fun h => ?_) fun node h => ?_
  · simp [lookup, lookupNumber, sub, lookupText, h]
  · simp [lookup, lookupNumber, sub, lookupText, Lookup.map, h]
  · refine Loads.cons (loads_readKey id (lookupNumber_of_node h) (run_storeUnless .smcChangeRate rfl))
      (loads_readKey env.toInt ?_ fun v => run_storeUnless .smcLoNetFlow rfl (env.toInt v))
    rw [lookup, lookupNumber_of_node h, Lookup.map_id]

theorem loads_xcall : Loads (loadXcallConfig env config) (lookup env config) [.xcallThreshold, .xcallTopNum] := by
  refine Loads.inSection (fun h => ?_) (fun h => ?_) fun node h => ?_
  · simp [lookup, lookupNumber, sub, lookupText, h]
  · simp [lookup, lookupNumber, lookupInteger, sub, lookupText, h]
  · exact Loads.cons (loads_readKey id (lookupNumber_of_node h) (run_store .xcallThreshold rfl))
      (loads_readKey id (lookupInteger_of_node h) (run_store .xcallTopNum rfl))

theorem loads_dockerCoordinationBurst : Loads (dockerCoordinationBurstConfig env config) (lookup env config)
    [.hostCpuUsageThreshold, .dockerCpuUsageThreshold] := by
  refine Loads.inSection (fun h => ?_) (fun h => ?_) fun node h => ?_
  · simp [lookup, lookupNumber, sub, lookupText, h]
  · simp [lookup, lookupNumber, sub, lookupText, h]
  · exact Loads.cons (loads_readKey id (lookupNumber_of_node h) (run_storeUnless .hostCpuUsageThreshold rfl))
      (loads_readKey id (lookupNumber_of_node h) (run_storeUnless .dockerCpuUsageThreshold rfl))

theorem loads_microArch :
    Loads (loadMicroArchTidNoCmpConfig env config) (lookup env config) [.microArchTidNoCmpConfigStream] := by
  refine Loads.inSection (fun h => ?_) (fun h => ?_) fun node h c => ?_
  · simp [lookup, lookupNode, Lookup.map, h]
  · simp [lookup, lookupNode, Lookup.map, h]
  · have hfound : lookup env config .microArchTidNoCmpConfigStream = .value (env.emit node) := by
      rw [lookup, h]
      rfl
    rw [load, hfound]
    rfl

theorem loads_timeout : Loads (loadTimeout env config) (lookup env config) [.timeout] :=
  loads_readKey id (by rw [Lookup.map_id]; rfl) (run_store .timeout rfl)

/-- The whole file. -/
theorem loads_sections (henv : env.Sound) : Loads (loadSections env config) (lookup env config) order :=
  (loads_dynamicSmt henv).seq <| loads_hugepage.seq <| loads_numa.seq <| loads_smcD.seq <| loads_xcall.seq <|
    loads_dockerCoordinationBurst.seq <| loads_microArch.seq loads_timeout

theorem loadConfig_some (henv : env.Sound) (c : Config D) : loadConfig env (some config) c =
    (⟨(load c.given (lookup env config) order c.value).1, c.isSet⟩,
      (load c.given (lookup env config) order c.value).2) := by
  have h := @loads_sections D _ env config henv c
  unfold loadConfig
  rw [EStateM.run_bind, run_orThrow_some]
  dsimp only
  rw [h]
  cases (load c.given (lookup env config) order c.value).2 <;> rfl

/-! ### What the command line has given -/

variable {opts : List (Opt × Str)} {operands : List Str}

omit [Double D] in
theorem given_put (s s' : Setting) (v : s.Value D) : (c.put s v).given s' = c.given s' := rfl

theorem flag_inj {s s' : Setting} {flag : Flag} (h : s.flag = some flag) (h' : s'.flag = some flag) : s' = s := by
  cases s <;> cases h <;> cases s' <;> first | rfl | cases h'

omit [Double D] in
/-- An option raises the flag of its setting. -/
theorem given_give (s : Setting) {flag : Flag} (hflag : s.flag = some flag)
    {isValid : Str → Bool} {read : Str → s.Value D} {inRange : s.Value D → Bool} {optarg : Str} {c' : Config D}
    (h : c.give s flag isValid read inRange optarg = some c') (s' : Setting) :
    c'.given s' = true ↔ c.given s' = true ∨ s' = s := by
  unfold Config.give at h
  split at h
  · cases h
  · split at h
    · cases h
    · cases h
      unfold Config.given
      rcases eq_or_ne s' s with rfl | hs
      · simp [hflag]
      · cases hs' : s'.flag with
        | none => simp [hs]
        | some flag' =>
          have hne : flag' ≠ flag := by
            rintro rfl
            exact hs (flag_inj hflag hs')
          simp [hne, hs]

/-- One option, of one that the file can change. -/
theorem given_initStep {o : Opt × Str} {c' : Config D} (h : initStep env c o = some c') {s : Setting} (hs : s ∈ order) :
    c'.given s = true ↔ c.given s = true ∨ o.1.setting = some s := by
  obtain ⟨o, optarg⟩ := o
  have hkeeps : ∀ {s' : Setting} {v : s'.Value D}, s' ∉ order → c' = c.put s' v → o.setting = some s' →
      (c'.given s = true ↔ c.given s = true ∨ o.setting = some s) := by
    rintro s' v hno rfl ho
    rw [given_put, ho]
    refine (or_iff_left ?_).symm
    rintro hsome
    cases hsome
    exact hno hs
  have hgives : ∀ {s' : Setting}, (c'.given s = true ↔ c.given s = true ∨ s = s') → o.setting = some s' →
      (c'.given s = true ↔ c.given s = true ∨ o.setting = some s) := by
    intro s' hiff ho
    rw [ho, Option.some.injEq, eq_comm (a := s')]
    exact hiff
  cases o with
  | time =>
    obtain ⟨time, -, hc⟩ := Option.map_eq_some_iff.mp h
    exact hkeeps (by decide) hc.symm rfl
  | realtime => exact hkeeps (by decide) (Option.some.inj h).symm rfl
  | verbose => exact hkeeps (by decide) (Option.some.inj h).symm rfl
  | OUT_PATH =>
    rw [initStep] at h
    split at h
    · exact hkeeps (by decide) (Option.some.inj h).symm rfl
    · cases h
  | PID =>
    rw [initStep] at h
    split at h
    · exact hkeeps (by decide) (Option.some.inj h).symm rfl
    · cases h
  | default => cases h
  | L1_MISS_THRESHOLD => exact hgives (given_give .l1MissThreshold rfl h s) rfl
  | L2_MISS_THRESHOLD => exact hgives (given_give .l2MissThreshold rfl h s) rfl
  | DYNAMIC_SMT_THRESHOLD => exact hgives (given_give .dynamicSmtThreshold rfl h s) rfl
  | NUMA_THREAD_THRESHOLD =>
    rw [initStep] at h
    exact hgives (given_give .numaThreadThreshold rfl h s) rfl
  | SMC_CHANGE_RATE => exact hgives (given_give .smcChangeRate rfl h s) rfl
  | SMC_LONET_FLOW =>
    rw [initStep] at h
    exact hgives (given_give .smcLoNetFlow rfl h s) rfl
  | HOST_CPU_USAGE_THRESHOLD => exact hgives (given_give .hostCpuUsageThreshold rfl h s) rfl
  | DOCKER_CPU_USAGE_THRESHOLD => exact hgives (given_give .dockerCpuUsageThreshold rfl h s) rfl

theorem given_foldlM {s : Setting} (hs : s ∈ order) : ∀ {opts : List (Opt × Str)} {c c' : Config D},
    opts.foldlM (initStep env) c = some c' → (c'.given s = true ↔ c.given s = true ∨ Given opts s)
  | [], c, c', h => by
    cases h
    simp [Given]
  | o :: opts, c, c', h => by
    rw [List.foldlM_cons] at h
    obtain ⟨c1, hstep, hrest⟩ := Option.bind_eq_some_iff.mp h
    rw [given_foldlM hs hrest, given_initStep hstep hs, or_assoc, Given, Given, List.exists_mem_cons_iff]

/-- A flag is raised exactly for what the command line has given, of what the file can change. -/
theorem given_iff_of_init (hinit : init env opts operands = some c) {s : Setting} (hs : s ∈ order) :
    c.given s = true ↔ Given opts s := by
  obtain ⟨c', hfold, hc⟩ := Option.bind_eq_some_iff.mp hinit
  split at hc
  · cases hc
  · cases hc
    refine (given_foldlM hs hfold).trans (or_iff_right ?_)
    rw [Config.given]
    cases s.flag <;> simp [Config.init]

/-! ### `LoadConfig` -/

theorem file_of_not_mem {s : Setting} (hs : s ∉ order) (document : Option Node) : file env document s = none := by
  cases s <;> first | rfl | exact absurd (by decide) hs

/-- Each setting, where nothing throws. -/
theorem load_whole (hinit : init env opts operands = some c)
    (hwhole : ∀ s ∈ order, (lookup env config s).isThrown = false) (s : Setting) :
    (Given opts s ∨ s ∉ order → (load c.given (lookup env config) order c.value).1 s = c.value s) ∧
      (¬ Given opts s → s ∈ order → (load c.given (lookup env config) order c.value).1 s =
        (lookup env config s).toOption.getD (c.value s)) := by
  rw [load_apply, untilThrown_eq_self hwhole]
  refine ⟨fun h => if_neg ?_, fun hno hs => if_pos ⟨hs, ?_⟩⟩
  · rintro ⟨hs, hg⟩
    rcases h with h | h
    · rw [(given_iff_of_init hinit hs).mpr h] at hg
      cases hg
    · exact h hs
  · exact eq_false_of_ne_true fun hg => hno ((given_iff_of_init hinit hs).mp hg)

/-- Nothing throws: all is right but what is cut to an `int`. -/
theorem right_whole_iff (henv : env.Sound) (hinit : init env opts operands = some c)
    (hwhole : ∀ s ∈ order, (lookup env config s).isThrown = false) :
    Right env opts (some config) c (loadConfig env (some config) c) ↔ (¬ Given opts .smcLoNetFlow →
      ∀ x, file env (some config) .smcLoNetFlow = some (.number x) → ∃ n : Int32, x = Double.ofInt n.toInt) := by
  have hok : (load c.given (lookup env config) order c.value).2 = true := (load_snd order c.value).mpr hwhole
  have heach := load_whole hinit hwhole
  rw [loadConfig_some henv]
  constructor
  · intro hr hno x hx
    have hfiled := hr.filed hok .smcLoNetFlow hno (by rw [hx]; exact Option.some_ne_none _)
    rw [hx] at hfiled
    exact ⟨_, Datum.number.inj (Option.some.inj hfiled)⟩
  · intro hint
    refine ⟨fun hfail => ?_, fun _ s hg => (heach s).1 (Or.inl hg), fun _ s hno hfile => ?_, fun _ s hno hfile => ?_⟩
    · rw [hok] at hfail
      cases hfail
    · have hs : s ∈ order := not_not.mp fun hs => hfile (file_of_not_mem hs _)
      dsimp only
      rw [(heach s).2 hno hs]
      rcases eq_or_ne s .smcLoNetFlow with rfl | hne
      · rw [file_smcLoNetFlow] at hfile hint ⊢
        rw [lookup, Lookup.toOption_map]
        cases hl : (lookupNumber env config (str "smc_d_analysis") (str "local_net_flow") nonNegative).toOption with
        | none =>
          rw [hl] at hfile
          exact absurd rfl hfile
        | some x =>
          obtain ⟨n, rfl⟩ := hint hno x (by rw [hl]; rfl)
          rw [Option.map_some, Option.map_some, Option.getD_some, henv.toInt_ofInt]
          rfl
      · rw [file_eq hne] at hfile ⊢
        cases hl : (lookup env config s).toOption with
        | none =>
          rw [hl] at hfile
          exact absurd rfl hfile
        | some v => rfl
    · by_cases hs : s ∈ order
      · refine ((heach s).2 hno hs).trans ?_
        have hnone : (lookup env config s).toOption = none := by
          rcases eq_or_ne s .smcLoNetFlow with rfl | hne
          · rw [lookup, Lookup.toOption_map, Option.map_eq_none_iff]
            rw [file_smcLoNetFlow, Option.map_eq_none_iff] at hfile
            exact hfile
          · rwa [file_eq hne, Option.map_eq_none_iff] at hfile
        rw [hnone]
        rfl
      · exact (heach s).1 (Or.inr hs)

/-- Something throws: then nothing may have been stored that was not there. -/
theorem right_early_iff (henv : env.Sound) (hinit : init env opts operands = some c)
    (hearly : ¬ ∀ s ∈ order, (lookup env config s).isThrown = false) :
    Right env opts (some config) c (loadConfig env (some config) c) ↔ ∀ s ∈ untilThrown (lookup env config) order,
      ¬ Given opts s → ∀ v, lookup env config s = .value v → v = c.value s := by
  have hfail : (load c.given (lookup env config) order c.value).2 = false :=
    eq_false_of_ne_true fun hok => hearly ((load_snd order c.value).mp hok)
  rw [loadConfig_some henv]
  have hright : Right env opts (some config) c (⟨(load c.given (lookup env config) order c.value).1, c.isSet⟩,
      (load c.given (lookup env config) order c.value).2) ↔
        (load c.given (lookup env config) order c.value).1 = c.value := by
    refine ⟨fun hr => hr.failed hfail, fun heq => ⟨fun _ => heq, fun hok => ?_, fun hok => ?_, fun hok => ?_⟩⟩ <;>
    · rw [hfail] at hok
      cases hok
  rw [hright, load_eq_iff]
  refine forall₂_congr fun s hs => imp_congr_left ?_
  rw [← given_iff_of_init hinit (mem_of_untilThrown hs), Bool.not_eq_true]

/-- THE FILE: whatever the command line has given, and whatever the file is, `LoadConfig` does what is asked of it exactly if
    the file is such that it can. -/
theorem loadConfig_right_iff (henv : env.Sound) (hinit : init env opts operands = some c) (document : Option Node) :
    Right env opts document c (loadConfig env document c) ↔
      ∀ config, document = some config → Admitted env opts c config := by
  cases document with
  | none =>
    refine iff_of_true ⟨fun _ => rfl, nofun, nofun, nofun⟩ nofun
  | some config =>
    have hsome : (∀ config', some config = some config' → Admitted env opts c config') ↔ Admitted env opts c config :=
      ⟨fun h => h config rfl, fun h config' heq => Option.some.inj heq ▸ h⟩
    rw [hsome]
    by_cases hwhole : ∀ s ∈ order, (lookup env config s).isThrown = false
    · rw [right_whole_iff henv hinit hwhole]
      refine ⟨fun h => ⟨?_, fun _ => h⟩, fun h => h.whole hwhole⟩
      rintro ⟨s, hs, hthrown⟩
      rw [hwhole s hs] at hthrown
      cases hthrown
    · have hthrown : ∃ s ∈ order, (lookup env config s).isThrown = true := by
        simpa using hwhole
      rw [right_early_iff henv hinit hwhole]
      exact ⟨fun h => ⟨fun _ => h, fun h' => absurd h' hwhole⟩, fun h => h.early hthrown⟩

end

namespace Example

/-- The number that a text is. -/
def decimal (s : Str) : ℚ :=
  let whole := (SmcAcc.signed s).2.takeWhile SmcAcc.isDigit
  let decimals := ((SmcAcc.signed s).2.dropWhile SmcAcc.isDigit).drop 1
  let x : ℚ := SmcAcc.number (whole ++ decimals) / 10 ^ decimals.length
  if (SmcAcc.signed s).1 then -x else x

def env : Env ℚ where
  asDouble s := some (decimal s)
  asInt s := some (Int32.ofInt (atoi s))
  null := some (str "null")
  emit
    | .scalar value => value
    | _ => []
  toInt x := Int32.ofInt (x.num.tdiv x.den)
  fileExist _ := true

theorem sound : env.Sound where
  negative := by decide +kernel
  toInt_ofInt n := by
    change Int32.ofInt ((n.toInt : ℚ).num.tdiv (n.toInt : ℚ).den) = n
    rw [Rat.num_intCast, Rat.den_intCast, Nat.cast_one, Int.tdiv_one]
    exact Int32.ofInt_toInt n

def opts : List (Opt × Str) := [(.time, str "20"), (.L1_MISS_THRESHOLD, str "8")]

/-- One value is given otherwise, one is too large, one is no number, and the rest is to be taken. -/
def good : Node := .map
  [(str "hugepage", .map [(str "l1_miss_threshold", .scalar (str "7")), (str "l2_miss_threshold", .scalar (str "200"))]),
    (str "smc_d_analysis", .map [(str "change_rate", .scalar (str "fast")), (str "local_net_flow", .scalar (str "300"))]),
    (str "timeout", .scalar (str "9"))]

/-- A section is read, and then there is a sequence where a number should be. -/
def late : Node := .map
  [(str "hugepage", .map [(str "l1_miss_threshold", .scalar (str "7"))]), (str "timeout", .seq [])]

def half : Node := .map [(str "smc_d_analysis", .map [(str "local_net_flow", .scalar (str "100.5"))])]

end Example

/-- Among them the file above, which is loaded. -/
theorem loadConfig_right_iff_good : ∃ c, init Example.env Example.opts [] = some c ∧
    Right Example.env Example.opts (some Example.good) c (loadConfig Example.env (some Example.good) c) := by
  obtain ⟨c, hc⟩ : ∃ c, init Example.env Example.opts [] = some c := Option.isSome_iff_exists.mp (by decide +kernel)
  refine ⟨c, hc, (loadConfig_right_iff Example.sound hc (some Example.good)).mpr ?_⟩
  intro config heq
  cases heq
  refine ⟨fun h => absurd h (by decide +kernel), fun _ _ x hx => ⟨300, ?_⟩⟩
  have hnumber : file Example.env (some Example.good) .smcLoNetFlow = some (.number 300) := by decide +kernel
  rw [hnumber] at hx
  cases hx
  decide +kernel

/-- A setting is stored and then loading fails; and a number is cut. -/
theorem not_right_late : ∃ c, init Example.env [] [] = some c ∧
    ((loadConfig Example.env (some Example.late) c).2 = false ∧
      ¬ Right Example.env [] (some Example.late) c (loadConfig Example.env (some Example.late) c)) ∧
    (loadConfig Example.env (some Example.half) c).2 = true ∧
      ¬ Right Example.env [] (some Example.half) c (loadConfig Example.env (some Example.half) c) := by
  have hfail : (loadConfig Example.env (some Example.late) Config.init).2 = false := by decide +kernel
  have hok : (loadConfig Example.env (some Example.half) Config.init).2 = true := by decide +kernel
  refine ⟨Config.init, rfl, ⟨hfail, fun hr => ?_⟩, hok, fun hr => ?_⟩
  · have hl1 : ((loadConfig Example.env (some Example.late) Config.init).1.value .l1MissThreshold : ℚ) = 5 :=
      congrFun (hr.failed hfail) .l1MissThreshold
    exact absurd hl1 (by decide +kernel)
  · have hflow : file Example.env (some Example.half) .smcLoNetFlow = some (.number (201 / 2)) := by decide +kernel
    have hfiled := hr.filed hok .smcLoNetFlow (by simp [Given]) (by rw [hflow]; exact Option.some_ne_none _)
    rw [hflow] at hfiled
    exact absurd (Datum.number.inj (Option.some.inj hfiled)) (by decide +kernel)

end AnalysisConfig

end OeAware

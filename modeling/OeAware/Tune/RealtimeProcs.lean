import OeAware.Tune.RealtimeSwitches

/-! @src src/plugin/tune/system/realtime/realtime_tune.cpp | name:OpenProcAndSys, SetCpuFreqPerformance,
    GetInitialValue, GetCurrentThpMode, DisableProcAndSys

    The tunables that need no reboot are files below `/proc/sys` and `/sys`. For each switch that is on the
    value that is found is kept and another one written; what cannot be written is passed over. What a file
    reads after a write is up to the kernel. CPUs of one frequency policy have one governor: their directories
    lead to the same file.

        switch on:  file ──GetInitialValue──▶ backup       value ──SetStringValue──▶ file
                    backup ──SetStringValue──▶ file        when it is switched off -/

namespace OeAware
open Schemes

namespace RealTimeTune

def timerMigrationPath : Str := str "/proc/sys/kernel/timer_migration"
def schedRuntimePath : Str := str "/proc/sys/kernel/sched_rt_runtime_us"
def ksmRunPath : Str := str "/sys/kernel/mm/ksm/run"
def thpEnabledPath : Str := str "/sys/kernel/mm/transparent_hugepage/enabled"
def numaBalancingPath : Str := str "/proc/sys/kernel/numa_balancing"
def cpuFreqPath : Str := str "/sys/devices/system/cpu/"

/-- `SysTuneBackup`. -/
structure SysTuneBackup where
  ksmRun : ℤ
  thpEnabled : Str
  numaBalancing : ℤ
  timerMigration : ℤ
  schedRtRuntime : ℤ
  cpuGovs : UMap Str Str

def SysTuneBackup.init : SysTuneBackup := ⟨-1, [], -1, -1, -1, .empty⟩

/-- What each file reads, and whether there is swap. -/
structure Tunables where
  files : Str → Option Str
  swap : Bool

/-- The kernel's side: what the file at a path that reads `old` reads after `value` is written to it, if it can
    be written; whether a command can be started; the entries below `cpuFreqPath`; and the file a path leads to. -/
structure Kernel where
  write : Str → Str → Str → Option Str
  popen : Str → Bool
  cpuDir : Option (List Str)
  node : Str → Str

/-- A step of the setting, which can fail and goes on. -/
abbrev Setting := SysTuneBackup × Tunables → Bool × SysTuneBackup × Tunables

def Setting.and (p q : Setting) : Setting := fun x => ((p x).1 && (q (p x).2).1, (q (p x).2).2)

/-- A step that is made only where its switch is on. -/
def Setting.when (on : Bool) (p : Setting) : Setting := fun x => if on then p x else (true, x)

def firstLine (content : Str) : Str := content.takeWhile (· ≠ 10)

/-- `GetInitialValue`: the value stays where none can be read. -/
def getInitialValue (t : Tunables) (path : Str) (value : ℤ) : ℤ :=
  ((t.files path).bind (fun content => stoi (firstLine content))).getD value

def setStringValue (K : Kernel) (path value : Str) (t : Tunables) : Bool × Tunables :=
  match (t.files path).bind (K.write path value) with
  | none => (false, t)
  | some content =>
    (true, { t with files := fun p => if K.node p = K.node path then (t.files p).map (fun _ => content) else t.files p })

/-- `SetStringValue` as a step. -/
def write (K : Kernel) (path value : Str) : Setting :=
  fun x => ((setStringValue K path value x.2).1, x.1, (setStringValue K path value x.2).2)

/-- The mode in brackets. Where there is no opening one, the reading begins at the front. -/
def getCurrentThpMode (t : Tunables) : Str :=
  match t.files thpEnabledPath with
  | none => []
  | some content =>
    let modes := firstLine content
    let rest := if 91 ∈ modes then (modes.dropWhile (· ≠ 91)).drop 1 else modes
    if 93 ∈ rest then rest.takeWhile (· ≠ 93) else []

def setNumaBalancing (K : Kernel) : Setting := fun x =>
  write K numaBalancingPath (str "0")
    ({ x.1 with numaBalancing := getInitialValue x.2 numaBalancingPath x.1.numaBalancing }, x.2)

def setKsm (K : Kernel) : Setting := fun x =>
  write K ksmRunPath (str "0") ({ x.1 with ksmRun := getInitialValue x.2 ksmRunPath x.1.ksmRun }, x.2)

def setTimerMigration (K : Kernel) : Setting := fun x =>
  write K timerMigrationPath (str "0")
    ({ x.1 with timerMigration := getInitialValue x.2 timerMigrationPath x.1.timerMigration }, x.2)

def setSchedRuntime (K : Kernel) : Setting := fun x =>
  write K schedRuntimePath (str "-1")
    ({ x.1 with schedRtRuntime := getInitialValue x.2 schedRuntimePath x.1.schedRtRuntime }, x.2)

def setThp (K : Kernel) : Setting := fun x =>
  write K thpEnabledPath (str "never") ({ x.1 with thpEnabled := getCurrentThpMode x.2 }, x.2)

def swapoff (K : Kernel) : Setting := fun x =>
  if K.popen (str "swapoff -a") then (true, x.1, { x.2 with swap := false }) else (false, x)

/-- `cpu` and a digit. -/
def isCpuEntry (name : Str) : Bool := (str "cpu").isPrefixOf name && ((name.drop 3).head?).any isDigit

/-- `govPath`. -/
def governorPath (name : Str) : Str := cpuFreqPath ++ name ++ str "/cpufreq/scaling_governor"

/-- One round of `SetCpuFreqPerformance`. -/
def setGovernor (K : Kernel) (name : Str) : Setting := fun x =>
  let govPath := governorPath name
  match x.2.files govPath with
  | none => (true, x)
  | some content =>
    let curGov := firstLine content
    (write K govPath (str "performance")).when (decide (curGov ≠ str "performance"))
      ({ x.1 with cpuGovs := x.1.cpuGovs.insert govPath curGov }, x.2)

def setCpuFreqPerformance (K : Kernel) : Setting := fun x =>
  match K.cpuDir with
  | none => (false, x)
  | some entries =>
    (entries.filter isCpuEntry).foldr (fun name rest => (setGovernor K name).and rest) (fun x => (true, x)) x

/-- `OpenProcAndSys`. -/
def openProcAndSys (K : Kernel) (sw : RealtimeTuneSwitch) : Setting :=
  ((setCpuFreqPerformance K).when sw.cpufreqPerformance).and
    (((setThp K).when sw.transparentHugepage).and
      (((setNumaBalancing K).when sw.numaBalancing).and
        (((setKsm K).when sw.ksm).and
          (((swapoff K).when sw.swap).and
            (((setTimerMigration K).when sw.timerMigration).and
              ((setSchedRuntime K).when (decide (sw.rtRuntimeUs = -1))))))))

/-! ### What is written back -/

/-- A number that was kept; `-1` is none. -/
def restoreNumber (K : Kernel) (path : Str) (value : ℤ) (t : Tunables) : Tunables :=
  if value = -1 then t else (setStringValue K path (showInt value) t).2

def restoreThp (K : Kernel) (thpEnabled : Str) (t : Tunables) : Tunables :=
  if thpEnabled = [] then t else (setStringValue K thpEnabledPath thpEnabled t).2

def restoreGovernor (K : Kernel) (cpuGovs : UMap Str Str) (t : Tunables) (govPath : Str) : Tunables :=
  match cpuGovs.find govPath with
  | none => t
  | some gov => if gov = str "performance" then t else (setStringValue K govPath gov t).2

def swapon (K : Kernel) (t : Tunables) : Tunables := if K.popen (str "swapon -a") then { t with swap := true } else t

/-- `DisableProcAndSys`, which meets the governors in some order. -/
def disableProcAndSys (K : Kernel) (order : List Str) (sw : RealtimeTuneSwitch) (b : SysTuneBackup) (t : Tunables) :
    Tunables :=
  let t := if sw.swap then swapon K t else t
  let t := if sw.ksm then restoreNumber K ksmRunPath b.ksmRun t else t
  let t := if sw.numaBalancing then restoreNumber K numaBalancingPath b.numaBalancing t else t
  let t := if sw.timerMigration then restoreNumber K timerMigrationPath b.timerMigration t else t
  let t := if sw.rtRuntimeUs = -1 then restoreNumber K schedRuntimePath b.schedRtRuntime t else t
  let t := if sw.transparentHugepage then restoreThp K b.thpEnabled t else t
  if sw.cpufreqPerformance then (b.cpuGovs.reorder order).keys.foldl (restoreGovernor K b.cpuGovs) t else t

end RealTimeTune
end OeAware

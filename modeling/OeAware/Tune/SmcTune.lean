import Mathlib.Data.Bool.AllAny
import OeAware.Analysis.Instance
import OeAware.Common.Yaml
import OeAware.Schemes.Run
import OeAware.Schemes.Words
import OeAware.Tune.SmcPorts

/-! @src src/plugin/tune/system/network/smc_tune/smc_tune.cpp, smc_ueid.cpp | name:SmcTune, SmcOperator | scheme:run

    The parameters of smc_acc are in three places. `ReadConfig` puts them into the tuner as it reads them, `Enable` and `Run`
    hand them on to the operator, and insmod gives the module what the operator has.

        smc_acc.yaml ──ReadConfig──▶ tuner ──┬─ lists ──InputPortList──────▶ operator ──insmod──▶ smc_acc
                       (accepted or not)     └─ short_connection ──Enable──▶

    `Enable` leaves a module alone that is there already, and takes each exit code but 1 for a success. `Run` goes on with
    what `ReadConfig` has left, does not hand on short_connection, and does nothing if the operator has the lists. -/

namespace OeAware
open Schemes

namespace SmcTune

/-! ### State -/

/-- The tuner's members. -/
structure Tuner where
  blackPortList : Str
  whitePortList : Str
  shortConnection : ℤ
  deriving DecidableEq

/-- `SmcOperator`. -/
structure Operator where
  enable : ℤ
  isInit : Bool
  blackPortList : Str
  whitePortList : Str
  shortConnection : ℤ
  deriving DecidableEq

/-- The parameters of smc_acc. -/
structure Params where
  black_port_list_param : Str
  white_port_list_param : Str
  short_connection : ℤ
  deriving DecidableEq

/-- The module, where it is loaded. -/
abbrev Kernel := Option Params

/-- What a call meets: smc_acc.yaml, if there is one, or the text of what `YAML::LoadFile` throws, and the text of what
    `as<std::string>()` does; what netlink returns; whether there is a smc_acc.ko; and how the commands end, where the
    second lsmod is that of `ReRunSmcAcc`. -/
structure Env where
  config : Option (Except Str Node)
  badConversion : Str
  genNlOpen : ℤ
  ueidAdd : ℤ
  ko : Bool
  lsmod : ℤ
  rmmod : ℤ
  lsmodAgain : ℤ
  insmod : ℤ

def SMC_ENABLE : ℤ := 0
def SMC_DISABLE : ℤ := 1
def EXIT_SUCCESS : ℤ := 0
def EXIT_FAILURE : ℤ := 1
def SMC_CONFIG_PATH : Str := str "/etc/oeAware/plugin/smc_acc.yaml"
def SMC_ACC_KO_PATH : Str := str "/usr/lib/smc/smc_acc.ko"
def blackKey : Str := str "black_port_list_param"
def whiteKey : Str := str "white_port_list_param"
def shortKey : Str := str "short_connection"
def configStrs : List Str := [blackKey, whiteKey, shortKey]

/-! ### `ReadConfig` -/

/-- `IsNum`: `^[-+]?\d+(\.\d+)?$`. -/
def isNum (s : Str) : Bool :=
  let digits := (SmcAcc.signed s).2
  digits.takeWhile SmcAcc.isDigit ≠ [] &&
    match digits.dropWhile SmcAcc.isDigit with
    | [] => true
    | 46 :: decimals => decimals ≠ [] && decimals.all SmcAcc.isDigit
    | _ => false

/-- `node[key] ? node[key].as<std::string>() : ""`; `none` when it throws. -/
def valueOf (pairs : List (Str × Node)) (key : Str) : Option Str :=
  match pairs.lookup key with
  | none => some []
  | some node => node.asString

def readConfig (env : Env) (t : Tuner) : Tuner × Result :=
  let parseFailed := fun what => failure (str "smc_acc.yaml config parse failed: " ++ what)
  match env.config with
  | none => (t, failure (str "smc_acc.yaml config file does not exist, \x7bpath:" ++ SMC_CONFIG_PATH ++ str "\x7d."))
  | some (.error what) => (t, parseFailed what)
  | some (.ok (.map pairs)) =>
    match pairs.find? (fun item => item.1 ∉ configStrs) with
    | some item => (t, failure (str "smc_acc.yaml config file has unknown key: " ++ item.1))
    | none =>
      match valueOf pairs blackKey with
      | none => (t, parseFailed env.badConversion)
      | some black =>
        let t := { t with blackPortList := black }
        match valueOf pairs whiteKey with
        | none => (t, parseFailed env.badConversion)
        | some white =>
          let t := { t with whitePortList := white }
          match valueOf pairs shortKey with
          | none => (t, parseFailed env.badConversion)
          | some s =>
            if isNum s = false then (t, failure (str "smc_acc.yaml 'short_connection' error."))
            else
              let t := { t with shortConnection := atoi s }
              if atoi s < 0 ∨ atoi s > 1 then
                (t, failure (str "smc_acc.yaml 'short_connection' value invalid."))
              else (t, resultOk)
  | some (.ok _) => (t, failure (str "smc_acc.yaml config file format error."))

/-! ### Commands -/

def whiteList : List Str := [str "lsmod", str "grep", str "rmmod", str "insmod"]

def isValidCmd (cmd : Str) : Bool := whiteList.any (· <:+: cmd)

/-- `Exec`, by what a command does and how it ends. -/
def exec (cmd : Str) (command : Kernel → Kernel × ℤ) (k : Kernel) : Kernel × ℤ :=
  if isValidCmd cmd then command k else (k, -1)

/-- grep does not find the module where it is not. -/
def lsmod (status : ℤ) (k : Kernel) : Kernel × ℤ := (k, if k.isNone ∧ status = 0 then 1 else status)

def rmmod (status : ℤ) (k : Kernel) : Kernel × ℤ :=
  if status ≠ 0 then (k, status) else if k.isNone then (k, 1) else (none, 0)

/-- `params` are those a command line gives to the module that it puts in. -/
def insmod (params : Str → Params) (cmd : Str) (status : ℤ) (k : Kernel) : Kernel × ℤ :=
  if status ≠ 0 then (k, status) else if k.isSome then (k, 1) else (some (params cmd), 0)

def lsmodCommand : Str := str "lsmod | grep -w smc_acc"

/-- A list in the arguments. -/
def listArg (key ports : Str) : Str := if ports ≠ [] then key ++ [61, 34] ++ ports ++ [34, 32] else []

def insmodCommand (p : Params) : Str :=
  str "insmod " ++ (SMC_ACC_KO_PATH ++ str " " ++ listArg blackKey p.black_port_list_param ++
    listArg whiteKey p.white_port_list_param ++ shortKey ++ [61] ++ showInt p.short_connection)

/-! ### The operator -/

def Operator.params (o : Operator) : Params := ⟨o.blackPortList, o.whitePortList, o.shortConnection⟩

def inputPortList (black white : Str) (o : Operator) : Operator :=
  { o with blackPortList := black, whitePortList := white }

def isSamePortList (black white : Str) (o : Operator) : Bool := o.blackPortList = black && o.whitePortList = white

section
variable (params : Str → Params)

def runSmcAcc (env : Env) (o : Operator) (k : Kernel) : Kernel × ℤ :=
  if o.enable = SMC_DISABLE then
    if (exec lsmodCommand (lsmod env.lsmod) k).2 = 0 then exec (str "rmmod smc_acc") (rmmod env.rmmod) k
    else (k, EXIT_SUCCESS)
  else if env.ko = false then (k, EXIT_FAILURE)
  else if (exec lsmodCommand (lsmod env.lsmod) k).2 ≠ 0 then
    exec (insmodCommand o.params) (insmod params (insmodCommand o.params) env.insmod) k
  else (k, EXIT_SUCCESS)

def smcInit (env : Env) (o : Operator) : Operator × ℤ :=
  if o.isInit then (o, EXIT_SUCCESS)
  else if env.genNlOpen = EXIT_SUCCESS then ({ o with isInit := true }, EXIT_SUCCESS)
  else (o, EXIT_FAILURE)

def smcExit (o : Operator) : Operator := { o with isInit := false }

def ableSmcAcc (env : Env) (isEnable : ℤ) (o : Operator) (k : Kernel) : (Operator × Kernel) × ℤ :=
  let r := smcInit env o
  if r.2 = EXIT_FAILURE then ((r.1, k), EXIT_FAILURE)
  else
    let o := { r.1 with enable := isEnable }
    if o.enable = SMC_ENABLE ∧ env.ueidAdd ≠ EXIT_SUCCESS then ((smcExit o, k), EXIT_FAILURE)
    else
      let m := runSmcAcc params env o k
      ((smcExit o, m.1), if m.2 = EXIT_FAILURE then EXIT_FAILURE else EXIT_SUCCESS)

def reRunSmcAcc (env : Env) (o : Operator) (k : Kernel) : Kernel × ℤ :=
  let m := if (exec lsmodCommand (lsmod env.lsmod) k).2 = 0 then exec (str "rmmod smc_acc") (rmmod env.rmmod) k
    else (k, EXIT_SUCCESS)
  if env.ko = false then (m.1, EXIT_FAILURE)
  else if (exec lsmodCommand (lsmod env.lsmodAgain) m.1).2 ≠ 0 then
    exec (insmodCommand o.params) (insmod params (insmodCommand o.params) env.insmod) m.1
  else m

/-! ### The tuner -/

/-- The tuner, the operator and the kernel. -/
structure World where
  tuner : Tuner
  op : Operator
  kernel : Kernel
  deriving DecidableEq

def enable (env : Env) (w : World) : World × Result :=
  let r := readConfig env w.tuner
  if r.2.code ≠ some OK then ({ w with tuner := r.1 }, r.2)
  else
    let o := inputPortList r.1.blackPortList r.1.whitePortList { w.op with shortConnection := r.1.shortConnection }
    let m := ableSmcAcc params env SMC_ENABLE o w.kernel
    (⟨r.1, m.1.1, m.1.2⟩, if m.2 = EXIT_SUCCESS then resultOk
      else failure (str "failed to enable smc acc, please check if the kernel module is loaded."))

def disable (env : Env) (w : World) : World :=
  let m := ableSmcAcc params env SMC_DISABLE w.op w.kernel
  { w with op := m.1.1, kernel := m.1.2 }

def run (env : Env) (w : World) : World :=
  let t := (readConfig env w.tuner).1
  if isSamePortList t.blackPortList t.whitePortList w.op then { w with tuner := t }
  else
    let o := inputPortList t.blackPortList t.whitePortList w.op
    ⟨t, o, (reRunSmcAcc params env o w.kernel).1⟩

inductive Act where
  | enable (env : Env)
  | disable (env : Env)
  | run (env : Env)

/-- A call never faults. -/
def step (w : World) : Act → Except Empty World
  | .enable env => .ok (enable params env w).1
  | .disable env => .ok (disable params env w)
  | .run env => .ok (run params env w)

end

/-- What is constructed, with the module as it is found. -/
def World.init (k : Kernel) : World := ⟨⟨[], [], 1⟩, ⟨0, false, [], [], 0⟩, k⟩

/-! ### What should hold -/

/-- The parameters of a configuration that is accepted. -/
def accepted (env : Env) : Option Params :=
  match env.config with
  | some (.ok (.map pairs)) =>
    if ∀ item ∈ pairs, item.1 ∈ configStrs then
      match valueOf pairs blackKey, valueOf pairs whiteKey, valueOf pairs shortKey with
      | some black, some white, some s =>
        if isNum s = true ∧ 0 ≤ atoi s ∧ atoi s ≤ 1 then some ⟨black, white, atoi s⟩ else none
      | _, _, _ => none
    else none
  | _ => none

/-- The commands succeed. -/
structure Succeeds (env : Env) : Prop where
  ko : env.ko = true
  lsmod : env.lsmod = 0
  rmmod : env.rmmod = 0
  lsmodAgain : env.lsmodAgain = 0
  insmod : env.insmod = 0

/-- When an act does what it should. -/
def Exact (params : Str → Params) (w : World) : Act → Prop
  | .enable env => (enable params env w).2.code = some OK →
    ∃ p, accepted env = some p ∧ (enable params env w).1.kernel = some p
  | .disable _ => True
  | .run env => (∀ p, accepted env = some p → Succeeds env → (run params env w).kernel = some p) ∧
    (accepted env = none → (run params env w).kernel = w.kernel)

/-- A list that the shell, insmod and the kernel take as it is between double quotes. -/
def Plain (ports : Str) : Prop := ∀ c ∈ ports, isSpace c = false ∧ c ∉ str "\"$\\" ∧ c ∉ [0, 96, 160]

instance (ports : Str) : Decidable (Plain ports) := inferInstanceAs (Decidable (∀ _ ∈ _, _ ∧ _ ∧ _))

/-- With plain lists the module gets what is in the command line. -/
def Documented (params : Str → Params) : Prop := ∀ p : Params, Plain p.black_port_list_param →
  Plain p.white_port_list_param → (p.short_connection = 0 ∨ p.short_connection = 1) → params (insmodCommand p) = p

/-- The lists of a configuration, as far as they are read, or those of the tuner. -/
def stored (env : Env) (t : Tuner) : Str × Str :=
  match env.config with
  | some (.ok (.map pairs)) =>
    if ∀ item ∈ pairs, item.1 ∈ configStrs then
      match valueOf pairs blackKey with
      | none => (t.blackPortList, t.whitePortList)
      | some black => (black, (valueOf pairs whiteKey).getD t.whitePortList)
    else (t.blackPortList, t.whitePortList)
  | _ => (t.blackPortList, t.whitePortList)

/-- When it does so. `Enable`: the module that is there has the parameters; or there is none, the lists are plain, and insmod
    ends with 0, or with 1. `Run` of an accepted configuration: the operator has the lists, and the module the parameters;
    or it has others, these are plain, and it has the short_connection. `Run` of a rejected one: the operator has the lists
    that are stored; or the module cannot be replaced; or it is by one with the same parameters. -/
def Fits (w : World) : Act → Prop
  | .enable env => ∀ p, accepted env = some p → env.genNlOpen = 0 → env.ueidAdd = 0 → env.ko = true →
    match w.kernel with
    | none => (env.insmod = 0 ∧ Plain p.black_port_list_param ∧ Plain p.white_port_list_param) ∨ env.insmod = 1
    | some q => env.lsmod = 0 ∨ (env.insmod ≠ 0 ∧ env.insmod ≠ 1) → q = p
  | .disable _ => True
  | .run env =>
    (∀ p, accepted env = some p → Succeeds env →
      if (w.op.blackPortList, w.op.whitePortList) = (p.black_port_list_param, p.white_port_list_param) then w.kernel = some p
      else p.short_connection = w.op.shortConnection ∧ Plain p.black_port_list_param ∧ Plain p.white_port_list_param) ∧
    (accepted env = none → (w.op.blackPortList, w.op.whitePortList) = stored env w.tuner ∨
      match w.kernel with
      | none => ¬ (env.ko = true ∧ env.insmod = 0)
      | some q => env.lsmod ≠ 0 ∨ env.rmmod ≠ 0 ∨ (env.ko = true ∧ env.insmod = 0 ∧ Plain q.black_port_list_param ∧
          Plain q.white_port_list_param ∧ q = ⟨(stored env w.tuner).1, (stored env w.tuner).2, w.op.shortConnection⟩))

/-! ### The configuration -/

section
variable {env : Env} {t : Tuner} {p : Params}

theorem find_known {pairs : List (Str × Node)} :
    pairs.find? (fun item => item.1 ∉ configStrs) = none ↔ ∀ item ∈ pairs, item.1 ∈ configStrs := by
  simp

/-- An accepted configuration is in the tuner afterwards. -/
theorem readConfig_accepted (h : accepted env = some p) :
    readConfig env t = (⟨p.black_port_list_param, p.white_port_list_param, p.short_connection⟩, resultOk) := by
  rw [accepted] at h
  split at h
  · rename_i pairs hconfig
    split at h
    · rename_i hknown
      split at h
      · rename_i black white s hblack hwhite hshort
        split at h
        · rename_i hs
          cases h
          have hrange : ¬ (atoi s < 0 ∨ atoi s > 1) := by omega
          simp only [readConfig, hconfig, find_known.mpr hknown, hblack, hwhite, hshort, hs.1, Bool.true_eq_false,
            if_false, hrange]
        · cases h
      · cases h
    · cases h
  · cases h

/-- A rejected one leaves there what has been read of it. -/
theorem readConfig_rejected (h : accepted env = none) : (readConfig env t).2.code ≠ some OK ∧
    ((readConfig env t).1.blackPortList, (readConfig env t).1.whitePortList) = stored env t := by
  have hcode : ∀ payload, (failure payload).code ≠ some OK := fun payload h => by cases h
  rw [accepted] at h
  cases hconfig : env.config with
  | none => simp [readConfig, stored, hconfig, hcode]
  | some file =>
    rw [hconfig] at h
    cases file with
    | error what => simp [readConfig, stored, hconfig, hcode]
    | ok node =>
      cases node with
      | null => simp [readConfig, stored, hconfig, hcode]
      | scalar value => simp [readConfig, stored, hconfig, hcode]
      | seq items => simp [readConfig, stored, hconfig, hcode]
      | map pairs =>
        rcases em (∀ item ∈ pairs, item.1 ∈ configStrs) with hknown | hunknown
        · dsimp only at h
          rw [if_pos hknown] at h
          simp only [readConfig, stored, hconfig, find_known.mpr hknown, if_pos hknown]
          cases hblack : valueOf pairs blackKey with
          | none => exact ⟨hcode _, rfl⟩
          | some black =>
            cases hwhite : valueOf pairs whiteKey with
            | none => exact ⟨hcode _, rfl⟩
            | some white =>
              cases hshort : valueOf pairs shortKey with
              | none => exact ⟨hcode _, rfl⟩
              | some s =>
                simp only [hblack, hwhite, hshort] at h
                dsimp only
                split
                · exact ⟨hcode _, rfl⟩
                · rename_i hnum
                  split
                  · exact ⟨hcode _, rfl⟩
                  · rename_i hrange
                    rw [if_pos ⟨(Bool.not_eq_false _).mp hnum, by omega, by omega⟩] at h
                    cases h
        · have hfind : ∃ item, pairs.find? (fun item => item.1 ∉ configStrs) = some item :=
            Option.ne_none_iff_exists'.mp fun hnone => hunknown (find_known.mp hnone)
          obtain ⟨item, hitem⟩ := hfind
          simp only [readConfig, stored, hconfig, hitem, if_neg hunknown]
          exact ⟨hcode _, trivial⟩

theorem short_of_accepted (h : accepted env = some p) : p.short_connection = 0 ∨ p.short_connection = 1 := by
  rw [accepted] at h
  split at h
  · split at h
    · split at h
      · split at h
        · rename_i hs
          cases h
          dsimp only
          omega
        · cases h
      · cases h
    · cases h
  · cases h

end

/-! ### The commands -/

section
variable {params : Str → Params} {env : Env} {k : Kernel} {o : Operator}

theorem exec_lsmod (command : Kernel → Kernel × ℤ) : exec lsmodCommand command k = command k :=
  if_pos (by decide +kernel)

theorem exec_rmmod (command : Kernel → Kernel × ℤ) : exec (str "rmmod smc_acc") command k = command k :=
  if_pos (by decide +kernel)

theorem exec_insmod (p : Params) (command : Kernel → Kernel × ℤ) : exec (insmodCommand p) command k = command k := by
  refine if_pos (List.any_eq_true.mpr ⟨str "insmod", by decide +kernel, decide_eq_true ?_⟩)
  have hword : str "insmod" <:+: str "insmod " := by decide +kernel
  exact hword.trans (List.prefix_append ..).isInfix

theorem lsmod_none (status : ℤ) : (lsmod status none).2 ≠ 0 := by
  rcases eq_or_ne status 0 with rfl | hne
  · simp [lsmod]
  · simp [lsmod, hne]

theorem lsmod_some (status : ℤ) (q : Params) : (lsmod status (some q)).2 = status := by
  simp [lsmod]

theorem rmmod_some (status : ℤ) (q : Params) : rmmod status (some q) = if status = 0 then (none, 0) else (some q, status) := by
  rcases eq_or_ne status 0 with rfl | hne
  · simp [rmmod]
  · simp [rmmod, hne]

theorem insmod_none (cmd : Str) (status : ℤ) :
    insmod params cmd status none = if status = 0 then (some (params cmd), 0) else (none, status) := by
  rcases eq_or_ne status 0 with rfl | hne
  · simp [insmod]
  · simp [insmod, hne]

theorem insmod_some (cmd : Str) (status : ℤ) (q : Params) :
    insmod params cmd status (some q) = (some q, if status = 0 then 1 else status) := by
  rcases eq_or_ne status 0 with rfl | hne
  · simp [insmod]
  · simp [insmod, hne]

/-- Without a module, it is put in. -/
theorem runSmcAcc_none (henable : o.enable ≠ SMC_DISABLE) (hko : env.ko = true) :
    runSmcAcc params env o none =
      if env.insmod = 0 then (some (params (insmodCommand o.params)), 0) else (none, env.insmod) := by
  rw [runSmcAcc, if_neg henable, if_neg (by rw [hko]; exact Bool.true_eq_false_eq_False), exec_lsmod,
    if_pos (lsmod_none _), exec_insmod, insmod_none]

/-- A module that is there stays, and insmod ends with 1 if it is tried. -/
theorem runSmcAcc_some {q : Params} (henable : o.enable ≠ SMC_DISABLE) (hko : env.ko = true) :
    runSmcAcc params env o (some q) =
      (some q, if env.lsmod = 0 then 0 else if env.insmod = 0 then 1 else env.insmod) := by
  rw [runSmcAcc, if_neg henable, if_neg (by rw [hko]; exact Bool.true_eq_false_eq_False), exec_lsmod, lsmod_some, exec_insmod,
    insmod_some]
  rcases eq_or_ne env.lsmod 0 with hl | hl
  · rw [if_neg (not_not_intro hl), if_pos hl]
    rfl
  · rw [if_pos hl, if_neg hl]

theorem reRunSmcAcc_none : (reRunSmcAcc params env o none).1 =
    if env.ko = true ∧ env.insmod = 0 then some (params (insmodCommand o.params)) else none := by
  rw [reRunSmcAcc]
  simp only [exec_lsmod, exec_insmod, if_neg (lsmod_none _), insmod_none]
  rcases Bool.eq_false_or_eq_true env.ko with hko | hko
  · rcases eq_or_ne env.insmod 0 with hi | hi
    · simp [hko, hi, lsmod_none]
    · simp [hko, hi, lsmod_none]
  · simp [hko]

/-- A module that is there is taken out, if that is possible, and put in anew. -/
theorem reRunSmcAcc_some {q : Params} : (reRunSmcAcc params env o (some q)).1 =
    if env.lsmod = 0 ∧ env.rmmod = 0 then
      if env.ko = true ∧ env.insmod = 0 then some (params (insmodCommand o.params)) else none
    else some q := by
  rw [reRunSmcAcc]
  simp only [exec_lsmod, exec_rmmod, exec_insmod, lsmod_some, rmmod_some]
  rcases em (env.lsmod = 0 ∧ env.rmmod = 0) with ⟨hl, hr⟩ | hstays
  · simp only [hl, hr, if_true, and_self, if_pos (lsmod_none _), insmod_none]
    rcases Bool.eq_false_or_eq_true env.ko with hko | hko
    · rcases eq_or_ne env.insmod 0 with hi | hi
      · simp [hko, hi]
      · simp [hko, hi]
    · simp [hko]
  · have hkept : (if env.lsmod = 0 then if env.rmmod = 0 then ((none : Kernel), (0 : ℤ)) else (some q, env.rmmod)
        else (some q, EXIT_SUCCESS)).1 = some q := by
      rcases eq_or_ne env.lsmod 0 with hl | hl
      · rw [if_pos hl, if_neg fun hr => hstays ⟨hl, hr⟩]
      · rw [if_neg hl]
    rw [if_neg hstays]
    simp only [hkept, lsmod_some, insmod_some]
    split
    · rfl
    · split
      · rfl
      · rw [hkept]

theorem runSmcAcc_noKo (henable : o.enable ≠ SMC_DISABLE) (hko : env.ko ≠ true) :
    runSmcAcc params env o k = (k, EXIT_FAILURE) := by
  rw [runSmcAcc, if_neg henable, if_pos ((Bool.not_eq_true _).mp hko)]

theorem smcInit_opens (hinit : o.isInit = false) (hopen : env.genNlOpen = EXIT_SUCCESS) :
    smcInit env o = ({ o with isInit := true }, EXIT_SUCCESS) := by
  rw [smcInit, hinit, if_neg Bool.false_ne_true, if_pos hopen]

theorem smcInit_fails (hinit : o.isInit = false) (hopen : env.genNlOpen ≠ EXIT_SUCCESS) :
    smcInit env o = (o, EXIT_FAILURE) := by
  rw [smcInit, hinit, if_neg Bool.false_ne_true, if_neg hopen]

theorem success_ne_failure : EXIT_SUCCESS ≠ EXIT_FAILURE := zero_ne_one

/-- Netlink and the file have to be there. -/
theorem ready_of_ableSmcAcc (hinit : o.isInit = false)
    (h : (ableSmcAcc params env SMC_ENABLE o k).2 = EXIT_SUCCESS) : env.genNlOpen = 0 ∧ env.ueidAdd = 0 ∧ env.ko = true := by
  rw [ableSmcAcc] at h
  rcases eq_or_ne env.genNlOpen EXIT_SUCCESS with hopen | hopen
  · rw [smcInit_opens hinit hopen] at h
    dsimp only at h
    rw [if_neg success_ne_failure] at h
    rcases eq_or_ne env.ueidAdd EXIT_SUCCESS with hadd | hadd
    · rw [if_neg fun hand => hand.2 hadd] at h
      refine ⟨hopen, hadd, ?_⟩
      by_contra hko
      rw [runSmcAcc_noKo zero_ne_one hko] at h
      exact success_ne_failure h.symm
    · rw [if_pos ⟨rfl, hadd⟩] at h
      exact absurd h.symm success_ne_failure
  · rw [smcInit_fails hinit hopen] at h
    dsimp only at h
    rw [if_pos rfl] at h
    exact absurd h.symm success_ne_failure

theorem ableSmcAcc_ready (hinit : o.isInit = false) (hopen : env.genNlOpen = 0) (hadd : env.ueidAdd = 0) :
    ∃ o' : Operator, o'.enable = SMC_ENABLE ∧ o'.params = o.params ∧
      (ableSmcAcc params env SMC_ENABLE o k).1.2 = (runSmcAcc params env o' k).1 ∧
      ((ableSmcAcc params env SMC_ENABLE o k).2 = EXIT_SUCCESS → (runSmcAcc params env o' k).2 ≠ EXIT_FAILURE) := by
  refine ⟨{ o with isInit := true, enable := SMC_ENABLE }, rfl, rfl, ?_⟩
  rw [ableSmcAcc, smcInit_opens hinit hopen]
  dsimp only
  rw [if_neg success_ne_failure, if_neg fun hand => hand.2 hadd]
  refine ⟨rfl, fun h hfail => ?_⟩
  dsimp only at h
  rw [if_pos hfail] at h
  exact success_ne_failure h.symm

/-- What stays of the operator. -/
theorem ableSmcAcc_operator (hinit : o.isInit = false) (isEnable : ℤ) :
    (ableSmcAcc params env isEnable o k).1.1.isInit = false ∧
      (ableSmcAcc params env isEnable o k).1.1.shortConnection = o.shortConnection := by
  rw [ableSmcAcc]
  rcases eq_or_ne env.genNlOpen EXIT_SUCCESS with hopen | hopen
  · rw [smcInit_opens hinit hopen]
    dsimp only
    rw [if_neg success_ne_failure]
    split
    · exact ⟨rfl, rfl⟩
    · exact ⟨rfl, rfl⟩
  · rw [smcInit_fails hinit hopen]
    dsimp only
    rw [if_pos rfl]
    exact ⟨hinit, rfl⟩

end

/-! ### Along a run -/

/-- Netlink is closed between the calls, and the operator has a short_connection that has been accepted. -/
structure Held (w : World) : Prop where
  isInit : w.op.isInit = false
  short : w.op.shortConnection = 0 ∨ w.op.shortConnection = 1

section
variable {params : Str → Params} {w w' : World} {act : Act} {env : Env} {p : Params}

theorem held_init (k : Kernel) : Held (World.init k) := ⟨rfl, Or.inl rfl⟩

/-- The operator of a call that reads an accepted configuration. -/
def given (o : Operator) (p : Params) : Operator :=
  inputPortList p.black_port_list_param p.white_port_list_param { o with shortConnection := p.short_connection }

theorem enable_accepted (h : accepted env = some p) : enable params env w =
    (⟨⟨p.black_port_list_param, p.white_port_list_param, p.short_connection⟩,
        (ableSmcAcc params env SMC_ENABLE (given w.op p) w.kernel).1.1,
        (ableSmcAcc params env SMC_ENABLE (given w.op p) w.kernel).1.2⟩,
      if (ableSmcAcc params env SMC_ENABLE (given w.op p) w.kernel).2 = EXIT_SUCCESS then resultOk
      else failure (str "failed to enable smc acc, please check if the kernel module is loaded.")) := by
  rw [enable, readConfig_accepted h]
  exact if_neg (not_not_intro rfl)

theorem enable_rejected (h : accepted env = none) :
    enable params env w = ({ w with tuner := (readConfig env w.tuner).1 }, (readConfig env w.tuner).2) := by
  rw [enable]
  exact if_pos (readConfig_rejected h).1

theorem held_step (h : Held w) (hs : step params w act = .ok w') : Held w' := by
  cases act with
  | enable env =>
    cases hs
    cases hacc : accepted env with
    | none =>
      rw [enable_rejected hacc]
      exact ⟨h.isInit, h.short⟩
    | some p =>
      rw [enable_accepted hacc]
      obtain ⟨hinit, hshort⟩ := @ableSmcAcc_operator params env w.kernel (given w.op p) h.isInit SMC_ENABLE
      exact ⟨hinit, hshort ▸ short_of_accepted hacc⟩
  | disable env =>
    cases hs
    obtain ⟨hinit, hshort⟩ := @ableSmcAcc_operator params env w.kernel w.op h.isInit SMC_DISABLE
    exact ⟨hinit, hshort ▸ h.short⟩
  | run env =>
    cases hs
    rw [run]
    dsimp only
    split
    · exact ⟨h.isInit, h.short⟩
    · exact ⟨h.isInit, h.short⟩

theorem held_of_runs {k : Kernel} {ok : World → Act → Prop} (h : Runs (step params) (World.init k) ok w) : Held w :=
  h.invariant (held_init k) fun _ _ _ hw _ hs => held_step hw hs

/-! ### Exactness -/

theorem exact_enable (hdoc : Documented params) (h : Held w) (hfits : Fits w (.enable env)) :
    Exact params w (.enable env) := by
  intro hok
  cases hacc : accepted env with
  | none =>
    rw [enable_rejected hacc] at hok
    exact absurd hok (readConfig_rejected hacc).1
  | some p =>
    refine ⟨p, rfl, ?_⟩
    rw [enable_accepted hacc] at hok ⊢
    have hsuccess : (ableSmcAcc params env SMC_ENABLE (given w.op p) w.kernel).2 = EXIT_SUCCESS := by
      by_contra hne
      rw [if_neg hne] at hok
      cases hok
    obtain ⟨hopen, hadd, hko⟩ := ready_of_ableSmcAcc (o := given w.op p) h.isInit hsuccess
    obtain ⟨o, henable, hparams, hkernel, hcode⟩ :=
      @ableSmcAcc_ready params env w.kernel (given w.op p) h.isInit hopen hadd
    have hfits := hfits p hacc hopen hadd hko
    have hne : o.enable ≠ SMC_DISABLE := by
      rw [henable]
      exact zero_ne_one
    have hcode := hcode hsuccess
    dsimp only
    rw [hkernel]
    cases hk : w.kernel with
    | none =>
      rw [hk] at hfits hcode
      rw [runSmcAcc_none hne hko] at hcode ⊢
      rcases hfits with ⟨hinsmod, hblack, hwhite⟩ | hinsmod
      · rw [if_pos hinsmod, hparams]
        exact congrArg some (hdoc p hblack hwhite (short_of_accepted hacc))
      · rw [hinsmod] at hcode
        exact absurd rfl hcode
    | some q =>
      rw [hk] at hfits hcode
      rw [runSmcAcc_some hne hko] at hcode ⊢
      refine congrArg some (hfits ?_)
      rcases eq_or_ne env.lsmod 0 with hlsmod | hlsmod
      · exact Or.inl hlsmod
      · dsimp only at hcode
        rw [if_neg hlsmod] at hcode
        rcases eq_or_ne env.insmod 0 with hinsmod | hinsmod
        · rw [if_pos hinsmod] at hcode
          exact absurd rfl hcode
        · rw [if_neg hinsmod] at hcode
          exact Or.inr ⟨hinsmod, hcode⟩

/-- What `Run` makes of the module, by the lists that are in the tuner once the file has been read. -/
theorem run_kernel {lists : Str × Str}
    (h : ((readConfig env w.tuner).1.blackPortList, (readConfig env w.tuner).1.whitePortList) = lists) :
    (run params env w).kernel = if (w.op.blackPortList, w.op.whitePortList) = lists then w.kernel
      else (reRunSmcAcc params env (inputPortList lists.1 lists.2 w.op) w.kernel).1 := by
  subst h
  rw [run]
  simp only [isSamePortList, Bool.and_eq_true, decide_eq_true_eq, Prod.mk.injEq]
  split <;> rfl

theorem exact_run (hdoc : Documented params) (h : Held w) (hfits : Fits w (.run env)) : Exact params w (.run env) := by
  refine ⟨fun p hacc hsucceeds => ?_, fun hacc => ?_⟩
  · have hfits := hfits.1 p hacc hsucceeds
    rw [run_kernel (by rw [readConfig_accepted hacc])]
    split
    · rename_i hsame
      rwa [if_pos hsame] at hfits
    · rename_i hother
      rw [if_neg hother] at hfits
      obtain ⟨hshort, hblack, hwhite⟩ := hfits
      have hparams : (inputPortList p.black_port_list_param p.white_port_list_param w.op).params = p := by
        rw [Operator.params, inputPortList, ← hshort]
      have hput := hdoc p hblack hwhite (short_of_accepted hacc)
      cases w.kernel with
      | none => rw [reRunSmcAcc_none, if_pos ⟨hsucceeds.ko, hsucceeds.insmod⟩, hparams, hput]
      | some q =>
        rw [reRunSmcAcc_some, if_pos ⟨hsucceeds.lsmod, hsucceeds.rmmod⟩, if_pos ⟨hsucceeds.ko, hsucceeds.insmod⟩, hparams, hput]
  · rw [run_kernel (readConfig_rejected hacc).2]
    rcases hfits.2 hacc with hsame | hstays
    · rw [if_pos hsame]
    · split
      · rfl
      · cases hk : w.kernel with
        | none =>
          rw [hk] at hstays
          rw [reRunSmcAcc_none, if_neg hstays]
        | some q =>
          rw [hk] at hstays
          rw [reRunSmcAcc_some]
          rcases hstays with hlsmod | hrmmod | ⟨hko, hinsmod, hblack, hwhite, hq⟩
          · rw [if_neg fun hand => hlsmod hand.1]
          · rw [if_neg fun hand => hrmmod hand.2]
          · have hshort : q.short_connection = w.op.shortConnection := congrArg Params.short_connection hq
            have hput := hdoc q hblack hwhite (by rw [hshort]; exact h.short)
            have hparams : (inputPortList (stored env w.tuner).1 (stored env w.tuner).2 w.op).params = q := hq.symm
            rw [if_pos (show env.ko = true ∧ env.insmod = 0 from ⟨hko, hinsmod⟩), hparams, hput]
            exact ite_self _

/-- THE RUN: where every call meets its condition, the module has what the configuration says. -/
theorem params_exact_of_runs (hdoc : Documented params) {k : Kernel} (h : Runs (step params) (World.init k) Fits w)
    (hfits : Fits w act) : Exact params w act := by
  cases act with
  | enable env => exact exact_enable hdoc (held_of_runs h) hfits
  | disable env => exact trivial
  | run env => exact exact_run hdoc (held_of_runs h) hfits

end

/-! ### Samples -/

namespace Example

/-- The value of a parameter that is given between double quotes. -/
def argOf (key : Str) (args : List Str) : Str :=
  ((args.find? ((key ++ [61, 34]).isPrefixOf ·)).map (fun arg => (arg.drop (key.length + 2)).dropLast)).getD []

/-- A command line word by word. -/
def sampleParams (cmd : Str) : Params :=
  let args := words isSpace cmd
  ⟨argOf blackKey args, argOf whiteKey args, if args.getLast? = some (shortKey ++ [61, 49]) then 1 else 0⟩

/-- A list as an argument, if it is one. -/
def listWords (key ports : Str) : List Str := if ports ≠ [] then [key ++ [61, 34] ++ ports ++ [34]] else []

theorem words_listArg {key ports : Str} (hkey : ∀ c ∈ key, isSpace c = false) (hports : Plain ports) (rest : Str) :
    words isSpace (listArg key ports ++ rest) = listWords key ports ++ words isSpace rest := by
  rw [listArg, listWords]
  split
  · have hword : ∀ c ∈ key ++ [61, 34] ++ ports ++ [34], isSpace c = false := by
      have hquotes : ∀ c ∈ ([61, 34] : Str), isSpace c = false := List.all_iff_forall_prop.mp (by decide +kernel)
      have hquote : ∀ c ∈ ([34] : Str), isSpace c = false := List.all_iff_forall_prop.mp (by decide +kernel)
      intro c hc
      rcases List.mem_append.mp hc with hc | hc
      · rcases List.mem_append.mp hc with hc | hc
        · rcases List.mem_append.mp hc with hc | hc
          · exact hkey c hc
          · exact hquotes c hc
        · exact (hports c hc).1
      · exact hquote c hc
    have hne : key ++ [61, 34] ++ ports ++ [34] ≠ [] := by simp
    have hcons := words_cons hne hword (b := 32) rfl rest
    simpa using hcons
  · simp

theorem words_insmodCommand {p : Params} (hblack : Plain p.black_port_list_param) (hwhite : Plain p.white_port_list_param)
    (hshort : p.short_connection = 0 ∨ p.short_connection = 1) : words isSpace (insmodCommand p) =
      [str "insmod", SMC_ACC_KO_PATH] ++ (listWords blackKey p.black_port_list_param ++
        (listWords whiteKey p.white_port_list_param ++ [shortKey ++ [61] ++ showInt p.short_connection])) := by
  have hinsmod : str "insmod " = str "insmod" ++ [32] := by decide
  have hblank : str " " = [32] := by decide
  have hlast : words isSpace (shortKey ++ [61] ++ showInt p.short_connection) =
      [shortKey ++ [61] ++ showInt p.short_connection] := by
    rcases hshort with h | h
    · rw [h]
      decide +kernel
    · rw [h]
      decide +kernel
  rw [insmodCommand, hinsmod, hblank]
  simp only [List.append_assoc, List.cons_append, List.nil_append]
  rw [words_cons (by decide) (List.all_iff_forall_prop.mp (by decide +kernel)) rfl,
    words_cons (by decide) (List.all_iff_forall_prop.mp (by decide +kernel)) rfl,
    words_listArg (List.all_iff_forall_prop.mp (by decide +kernel)) hblack,
    words_listArg (List.all_iff_forall_prop.mp (by decide +kernel)) hwhite]
  simp only [List.append_assoc, List.cons_append, List.nil_append] at hlast
  rw [hlast]

theorem find_listWords (key ports : Str) : (listWords key ports).find? ((key ++ [61, 34]).isPrefixOf ·) =
    if ports ≠ [] then some (key ++ [61, 34] ++ ports ++ [34]) else none := by
  rw [listWords]
  split
  · have hpre : (key ++ [61, 34]).isPrefixOf (key ++ [61, 34] ++ ports ++ [34]) = true := by
      rw [List.isPrefixOf_iff_prefix, List.append_assoc _ ports]
      exact List.prefix_append ..
    exact List.find?_cons_of_pos hpre
  · rfl

theorem find_listWords_black (ports : Str) : (listWords blackKey ports).find? ((whiteKey ++ [61, 34]).isPrefixOf ·) = none := by
  rw [listWords]
  split <;> rfl

theorem find_listWords_white (ports : Str) : (listWords whiteKey ports).find? ((blackKey ++ [61, 34]).isPrefixOf ·) = none := by
  rw [listWords]
  split <;> rfl

theorem value_listWords (key ports : Str) : ((if ports ≠ [] then some (key ++ [61, 34] ++ ports ++ [34]) else none).map
    (fun arg => (arg.drop (key.length + 2)).dropLast)).getD [] = ports := by
  rcases eq_or_ne ports [] with rfl | hne
  · rfl
  · have hlength : (key ++ [61, 34]).length = key.length + 2 := by simp
    rw [if_pos hne, Option.map_some, Option.getD_some, List.append_assoc _ ports, ← hlength, List.drop_left,
      List.dropLast_concat]

theorem documented : Documented sampleParams := by
  intro p hblack hwhite hshort
  have hvalue : (if some (shortKey ++ [61] ++ showInt p.short_connection) = some (shortKey ++ [61, 49]) then (1 : ℤ) else 0) =
      p.short_connection := by
    rcases hshort with h | h
    · rw [h]
      decide +kernel
    · rw [h]
      decide +kernel
  have hfindLast : ∀ key ∈ [blackKey, whiteKey], [shortKey ++ [61] ++ showInt p.short_connection].find?
      ((key ++ [61, 34]).isPrefixOf ·) = none := by
    rcases hshort with h | h
    · rw [h]
      decide +kernel
    · rw [h]
      decide +kernel
  have hfront : ∀ key ∈ [blackKey, whiteKey], [str "insmod", SMC_ACC_KO_PATH].find? ((key ++ [61, 34]).isPrefixOf ·) = none := by
    decide +kernel
  have hfirst : blackKey ∈ [blackKey, whiteKey] := List.mem_cons_self ..
  have hsecond : whiteKey ∈ [blackKey, whiteKey] := List.mem_cons_of_mem _ (List.mem_cons_self ..)
  rw [sampleParams, words_insmodCommand hblack hwhite hshort]
  rw [argOf, argOf]
  simp only [List.find?_append, hfront _ hfirst, hfront _ hsecond, hfindLast _ hfirst, hfindLast _ hsecond, find_listWords,
    find_listWords_black, find_listWords_white, Option.none_or, Option.or_none, value_listWords]
  have hget : ([str "insmod", SMC_ACC_KO_PATH] ++ (listWords blackKey p.black_port_list_param ++
      (listWords whiteKey p.white_port_list_param ++ [shortKey ++ [61] ++ showInt p.short_connection]))).getLast? =
      some (shortKey ++ [61] ++ showInt p.short_connection) := by
    rw [← List.append_assoc, ← List.append_assoc]
    exact List.getLast?_concat
  rw [hget, hvalue]

/-- A configuration without a white list, and commands that succeed but perhaps insmod. -/
def sampleEnv (black short : Str) (insmod : ℤ) : Env where
  config := some (.ok (.map [(blackKey, .scalar black), (shortKey, .scalar short)]))
  badConversion := []
  genNlOpen := 0
  ueidAdd := 0
  ko := true
  lsmod := 0
  rmmod := 0
  lsmodAgain := 0
  insmod := insmod

/-- A black list of 80 has been enabled. -/
def someWorld : World :=
  ⟨⟨str "80", [], 1⟩, ⟨SMC_ENABLE, false, str "80", [], 1⟩, some ⟨str "80", [], 1⟩⟩

theorem step_enable : step sampleParams (World.init none) (.enable (sampleEnv (str "80") (str "1") 0)) = .ok someWorld := by
  have henable : (enable sampleParams (sampleEnv (str "80") (str "1") 0) (World.init none)).1 = someWorld := by
    decide +kernel
  rw [step, henable]

theorem fits_enable : Fits (World.init none) (.enable (sampleEnv (str "80") (str "1") 0)) := by
  intro p hacc _ _ _
  have haccepted : accepted (sampleEnv (str "80") (str "1") 0) = some ⟨str "80", [], 1⟩ := by decide +kernel
  rw [haccepted] at hacc
  cases hacc
  refine Or.inl ⟨rfl, ?_⟩
  decide +kernel

theorem runs_enable : Runs (step sampleParams) (World.init none) Fits someWorld := .next .start fits_enable step_enable

theorem runs_any : Runs (step sampleParams) (World.init none) (fun _ _ => True) someWorld :=
  runs_enable.mono fun _ _ _ => trivial

theorem accepted_other : accepted (sampleEnv (str "80,443") (str "1") 0) = some ⟨str "80,443", [], 1⟩ := by
  decide +kernel

theorem fits_run : Fits someWorld (.run (sampleEnv (str "80,443") (str "1") 0)) := by
  refine ⟨fun p hacc _ => ?_, fun hacc => ?_⟩
  · rw [accepted_other] at hacc
    cases hacc
    decide +kernel
  · rw [accepted_other] at hacc
    cases hacc

end Example

/-- Port 443 comes into the black list while the tuner is enabled. -/
theorem params_exact_of_runs_ports : (run Example.sampleParams (Example.sampleEnv (str "80,443") (str "1") 0) Example.someWorld).kernel =
    some ⟨str "80,443", [], 1⟩ :=
  (params_exact_of_runs Example.documented Example.runs_enable Example.fits_run).1 _ Example.accepted_other
    ⟨rfl, rfl, rfl, rfl, rfl⟩

/-- A module that is there keeps its parameters while `Enable` returns `OK`, and it does without a module when insmod ends with 2;
    a short_connection that has changed does not get to the module; and the list of a rejected configuration does. -/
theorem params_not_exact :
    ¬ Exact Example.sampleParams (World.init (some ⟨[], [], 1⟩)) (.enable (Example.sampleEnv (str "80") (str "1") 0)) ∧
    ¬ Exact Example.sampleParams (World.init none) (.enable (Example.sampleEnv (str "80") (str "1") 2)) ∧
    ∃ w, Runs (step Example.sampleParams) (World.init none) (fun _ _ => True) w ∧
      ¬ Exact Example.sampleParams w (.run (Example.sampleEnv (str "80") (str "0") 0)) ∧
      ¬ Exact Example.sampleParams w (.run (Example.sampleEnv (str "443") (str "2") 0)) := by
  refine ⟨fun h => ?_, fun h => ?_, Example.someWorld, Example.runs_any, fun h => ?_, fun h => ?_⟩
  · obtain ⟨p, hacc, hkernel⟩ := h (by decide +kernel)
    have hdiffer : (enable Example.sampleParams (Example.sampleEnv (str "80") (str "1") 0)
        (World.init (some ⟨[], [], 1⟩))).1.kernel ≠ accepted (Example.sampleEnv (str "80") (str "1") 0) := by decide +kernel
    exact hdiffer (hkernel.trans hacc.symm)
  · obtain ⟨p, hacc, hkernel⟩ := h (by decide +kernel)
    have hdiffer : (enable Example.sampleParams (Example.sampleEnv (str "80") (str "1") 2) (World.init none)).1.kernel ≠
        accepted (Example.sampleEnv (str "80") (str "1") 2) := by decide +kernel
    exact hdiffer (hkernel.trans hacc.symm)
  · have haccepted : accepted (Example.sampleEnv (str "80") (str "0") 0) = some ⟨str "80", [], 0⟩ := by decide +kernel
    have hkernel := h.1 _ haccepted ⟨rfl, rfl, rfl, rfl, rfl⟩
    revert hkernel
    decide +kernel
  · have hkernel := h.2 (by decide +kernel)
    revert hkernel
    decide +kernel

end SmcTune
end OeAware

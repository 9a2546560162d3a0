import OeAware.Common.Extract
import OeAware.Schemes.Run
import OeAware.Tune.XcallTune

/-! @src src/plugin/tune/system/cpu/dynamic_smt_tune/dynamic_smt_tune.cpp | name:DynamicSmtTune | scheme:run

    `Enable` writes a threshold to one file of the kernel and turns a feature on through another. What it has read of
    both before is what `Disable` writes back.

        sched_util_ratio ──>> initialRatio──┐                ┌──▶ sched_util_ratio
        sched/features ──▶ initialStatus ───┼──▶ Enable ─────┼──▶ KEEP_ON_CORE
        "threshold:30" ──▶ schedUtilRatio ──┘                └──▶ Disable writes the first two back

    What is read is stored before anything is checked, the threshold too, and all of it outlives the call. -/

namespace OeAware
open Schemes
open XcallTune (isInteger)

namespace DynamicSmtTune

/-! ### State -/

def DYNAMIC_SMT_MIN_THRESHOLD : ℤ := 0
def DYNAMIC_SMT_MAX_THRESHOLD : ℤ := 100

def schedRatioPath : Str := str "/proc/sys/kernel/sched_util_ratio"

structure State where
  initialStatus : Bool
  initialRatio : ℤ
  schedUtilRatio : ℤ
  schedFeaturesPath : Str

def init : State := ⟨false, -1, 100, []⟩

/-- What the kernel has: the text of `sched_util_ratio`, whether the feature is on, and which values have been written to
    the former, in their order. -/
structure Kernel where
  ratio : Str
  keep : Bool
  ratios : List ℤ

/-- What a call meets: the file that says whether SMT is active, and what is in the variable before it is read; the lines
    of the kernel's configuration; the lines of each file of features, as the feature is on or off; whether the ratio
    can be read; the order of the parameters; and which file can be opened for writing and takes which text. -/
structure Env where
  smtFile : Option Str
  smtActive : ℤ
  config : Option (List Str)
  features : Str → Option (Bool → List Str)
  ratioFile : Bool
  order : List Str
  accepts : Str → Str → Bool

/-! ### `Enable` and `Disable` -/

def checkEnv (env : Env) : Bool :=
  match env.smtFile, env.config with
  | some text, some lines => extractInt text env.smtActive = 1 ∧ lines.any (fun line => str "CONFIG_SCHED_SMT=y" <:+: line)
  | _, _ => false

def paths : List Str := [str "/sys/kernel/debug/sched/features", str "/sys/kernel/debug/sched_features"]

/-- What the first line with the feature says. -/
def lineStatus (lines : List Str) : Option Bool :=
  (lines.find? (fun line => str "KEEP_ON_CORE" <:+: line)).map (fun line => ¬ str "NO_KEEP_ON_CORE" <:+: line)

/-- One path of `InitSchedParam`. -/
def openFeatures (env : Env) (k : Kernel) (s : State) (path : Str) : State :=
  match env.features path with
  | none => s
  | some text =>
    { s with schedFeaturesPath := path, initialStatus := (lineStatus (text k.keep)).getD s.initialStatus }

/-- `InitSchedParam`. -/
def initSchedParam (env : Env) (k : Kernel) (s : State) : State × Bool :=
  let s := paths.foldl (openFeatures env k) s
  if s.schedFeaturesPath = [] then (s, false)
  else if env.ratioFile = true then ({ s with initialRatio := extractInt k.ratio s.initialRatio }, true)
  else (s, false)

/-- The keys other than `threshold`, as the message names them. -/
def invalidParam (keys : List Str) : Str :=
  keys.foldl (fun invalid key =>
    if key = str "threshold" then invalid
    else (if invalid ≠ [] then invalid ++ str "," else invalid) ++ key) []

/-- The parameters, and with what message `Enable` fails. -/
def readParam (env : Env) (param : Str) (s : State) : State × Option Str :=
  if param = [] then (s, none)
  else
    let paramsMap := getKeyValueFromString param
    let invalid := invalidParam (paramsMap.reorder env.order).keys
    if invalid ≠ [] then (s, some (str "params (" ++ invalid ++ str ") invalid."))
    else match paramsMap.find (str "threshold") with
      | none => (s, none)
      | some text =>
        if isInteger text = false then (s, some (str "threshold value is not a integer."))
        else ({ s with schedUtilRatio := atoi text },
          if atoi text < DYNAMIC_SMT_MIN_THRESHOLD ∨ DYNAMIC_SMT_MAX_THRESHOLD < atoi text then
            some (str "the threshold range is [0, 100], but is " ++ showInt (atoi text))
          else none)

/-- `Enable`, as far as nothing is written. -/
def prepare (env : Env) (param : Str) (k : Kernel) (s : State) : State × Option Str :=
  if checkEnv env = false then (s, some (str "Please enable SMT and include CONFIG_SCHED_SMT in kernel."))
  else
    let i := initSchedParam env k s
    if i.2 = false then (i.1, some (str "Failed to found sched features file."))
    else readParam env param i.1

/-- `SetSchedFeatures`; `effect` is what the kernel makes of the value. -/
def setSchedFeatures (env : Env) (filePath value : Str) (effect : Kernel → Kernel) (k : Kernel) : Kernel × Bool :=
  if env.accepts filePath value = true then (effect k, true) else (k, false)

def Kernel.setRatio (value : ℤ) (k : Kernel) : Kernel := { k with ratio := showLine value, ratios := k.ratios ++ [value] }

def Kernel.setKeep (value : Bool) (k : Kernel) : Kernel := { k with keep := value }

/-- The two writes of `Enable`. -/
def setAll (env : Env) (s : State) (k : Kernel) : Kernel × Result :=
  let r := setSchedFeatures env schedRatioPath (showInt s.schedUtilRatio) (Kernel.setRatio s.schedUtilRatio) k
  if r.2 = false then (r.1, failure (str "Failed to set sched_util_ratio."))
  else
    let f := setSchedFeatures env s.schedFeaturesPath (str "KEEP_ON_CORE") (Kernel.setKeep true) r.1
    if f.2 = false then (f.1, failure (str "Failed to set sched features.")) else (f.1, resultOk)

/-- `Enable`. -/
def enable (env : Env) (param : Str) (s : State) (k : Kernel) : (State × Kernel) × Result :=
  let p := prepare env param k s
  match p.2 with
  | some payload => ((p.1, k), failure payload)
  | none => ((p.1, (setAll env p.1 k).1), (setAll env p.1 k).2)

/-- `Disable`. -/
def disable (env : Env) (s : State) (k : Kernel) : Kernel :=
  let k := if s.initialStatus then k
    else (setSchedFeatures env s.schedFeaturesPath (str "NO_KEEP_ON_CORE") (Kernel.setKeep false) k).1
  if s.initialRatio ≠ -1 then
    (setSchedFeatures env schedRatioPath (showInt s.initialRatio) (Kernel.setRatio s.initialRatio) k).1
  else k

/-! ### Runs -/

/-- The tuner, the kernel, and what the latter had before the first `Enable` that succeeded since the last `Disable`. -/
structure World where
  tune : State
  kernel : Kernel
  orig : Option (Str × Bool)

inductive Act where
  | enable (env : Env) (param : Str)
  | disable (env : Env)

def next (w : World) : Act → World
  | .enable env param =>
    let r := enable env param w.tune w.kernel
    ⟨r.1.1, r.1.2, if r.2.failed then w.orig else some (w.orig.getD (w.kernel.ratio, w.kernel.keep))⟩
  | .disable env => ⟨w.tune, disable env w.tune w.kernel, none⟩

/-- No act faults. -/
def step (w : World) (act : Act) : Except Empty World := .ok (next w act)

def World.init (k : Kernel) : World := ⟨DynamicSmtTune.init, k, none⟩

/-! ### What is asked of a call -/

def given (param : Str) : Option Str := (getKeyValueFromString param).find (str "threshold")

/-- The threshold that is given in the call, or the default. -/
def wanted (param : Str) : ℤ := ((given param).map numeral).getD 100

/-- When an act does what it should. -/
def Exact (w : World) : Act → Prop
  | .enable env param =>
    -- what it writes is what is wanted
    (∀ v ∈ (next w (.enable env param)).kernel.ratios.drop w.kernel.ratios.length,
      DYNAMIC_SMT_MIN_THRESHOLD ≤ v ∧ v ≤ DYNAMIC_SMT_MAX_THRESHOLD ∧ v = wanted param) ∧
    -- when it fails, all is as before
    ((enable env param w.tune w.kernel).2.failed = true →
      (next w (.enable env param)).kernel.ratio = w.kernel.ratio ∧ (next w (.enable env param)).kernel.keep = w.kernel.keep)
  -- what there was is there again
  | .disable env => ∀ o ∈ w.orig, (next w (.disable env)).kernel.ratio = o.1 ∧ (next w (.disable env)).kernel.keep = o.2

/-- What the parameters and the system must be for `Enable` to write something. -/
structure Accepted (env : Env) (param : Str) (s : State) : Prop where
  checked : checkEnv env = true
  path : s.schedFeaturesPath ≠ [] ∨ ∃ path ∈ paths, (env.features path).isSome = true
  ratioFile : env.ratioFile = true
  keys : ∀ key ∈ (getKeyValueFromString param).keys, key = str "threshold" ∨ key = []
  threshold : ∀ text ∈ given param, isInteger text = true ∧ DYNAMIC_SMT_MIN_THRESHOLD ≤ atoi text ∧
    atoi text ≤ DYNAMIC_SMT_MAX_THRESHOLD

/-- What it writes then. -/
def value (param : Str) (s : State) : ℤ := ((given param).map atoi).getD s.schedUtilRatio

/-- The file of features that is found last. -/
def featuresPath (env : Env) (s : State) : Str :=
  ((paths.filter (fun path => (env.features path).isSome)).getLast?).getD s.schedFeaturesPath

/-- What is read of the feature, and of the ratio. -/
def readStatus (env : Env) (s : State) (k : Kernel) : Bool :=
  ((paths.filterMap (fun path => (env.features path).bind (fun text => lineStatus (text k.keep)))).getLast?).getD
    s.initialStatus

def readRatio (env : Env) (s : State) (k : Kernel) : ℤ := if env.ratioFile then extractInt k.ratio s.initialRatio else s.initialRatio

/-- What is read is what there was. -/
def Records (env : Env) (s : State) (k : Kernel) (o : Str × Bool) : Prop :=
  readStatus env s k = o.2 ∧ readRatio env s k ≠ -1 ∧ showLine (readRatio env s k) = o.1

instance (env : Env) (s : State) (k : Kernel) (o : Str × Bool) : Decidable (Records env s k o) :=
  inferInstanceAs (Decidable (_ ∧ _ ∧ _))

/-- When it does so. What `Enable` would write is what is wanted; where the feature is not taken, the ratio was what has
    been written by then; and what is recorded for the way back, by a call that succeeds or while one is in force, is what
    there was. `Disable` finds the files it has to write. -/
def Fits (w : World) : Act → Prop
  | .enable env param =>
    (Accepted env param w.tune → env.accepts schedRatioPath (showInt (value param w.tune)) = true →
      value param w.tune = wanted param ∧
      if env.accepts (featuresPath env w.tune) (str "KEEP_ON_CORE") = true then
        w.orig = none → Records env w.tune w.kernel (w.kernel.ratio, w.kernel.keep)
      else w.kernel.ratio = showLine (value param w.tune)) ∧
    (checkEnv env = true → ∀ o ∈ w.orig, Records env w.tune w.kernel o)
  | .disable env => ∀ o ∈ w.orig,
    (w.kernel.ratio = o.1 ∨ env.accepts schedRatioPath (showInt w.tune.initialRatio) = true) ∧
    (o.2 = true ∨ env.accepts w.tune.schedFeaturesPath (str "NO_KEEP_ON_CORE") = true)

/-! ### What is read -/

section
variable {env : Env} {param : Str} {s : State} {k : Kernel}

theorem foldl_openFeatures : ∀ (ps : List Str) (s : State), ps.foldl (openFeatures env k) s =
    { s with
      schedFeaturesPath := ((ps.filter (fun path => (env.features path).isSome)).getLast?).getD s.schedFeaturesPath
      initialStatus := ((ps.filterMap (fun path =>
        (env.features path).bind (fun text => lineStatus (text k.keep)))).getLast?).getD s.initialStatus }
  | [], s => rfl
  | path :: ps, s => by
    rw [List.foldl_cons, foldl_openFeatures ps, openFeatures]
    cases hf : env.features path with
    | none => simp [hf]
    | some text =>
      cases hline : lineStatus (text k.keep) with
      | none => simp [hf, hline, List.getLast?_cons]
      | some status => simp [hf, hline, List.getLast?_cons]

theorem initSchedParam_eq : initSchedParam env k s =
    if featuresPath env s = [] then
      ({ s with schedFeaturesPath := featuresPath env s, initialStatus := readStatus env s k }, false)
    else ({ s with
      schedFeaturesPath := featuresPath env s
      initialStatus := readStatus env s k
      initialRatio := readRatio env s k }, env.ratioFile) := by
  rw [initSchedParam, foldl_openFeatures]
  dsimp only
  rw [← featuresPath, ← readStatus, readRatio]
  rcases eq_or_ne (featuresPath env s) [] with hnil | hne
  · rw [if_pos hnil, if_pos hnil]
  · rw [if_neg hne, if_neg hne]
    cases env.ratioFile <;> rfl

/-- The path of a file that is found has some text. -/
theorem featuresPath_ne_nil_iff :
    featuresPath env s ≠ [] ↔ s.schedFeaturesPath ≠ [] ∨ ∃ path ∈ paths, (env.features path).isSome = true := by
  rw [featuresPath]
  cases hlast : (paths.filter (fun path => (env.features path).isSome)).getLast? with
  | none =>
    have hnone := List.getLast?_eq_none_iff.mp hlast
    rw [List.filter_eq_nil_iff] at hnone
    refine (or_iff_left ?_).symm
    rintro ⟨path, hmem, hsome⟩
    exact hnone path hmem hsome
  | some path =>
    obtain ⟨hmem, hsome⟩ := List.mem_filter.mp (List.mem_of_getLast? hlast)
    have hne : ∀ path ∈ paths, path ≠ [] := by decide
    exact iff_of_true (hne path hmem) (Or.inr ⟨path, hmem, hsome⟩)

/-- The parameters change nothing but the threshold. -/
theorem readParam_eq : (readParam env param s).1 = { s with schedUtilRatio := (readParam env param s).1.schedUtilRatio } := by
  rw [readParam]
  split
  · rfl
  · dsimp only
    split
    · rfl
    · split
      · rfl
      · split <;> rfl

theorem invalidParam_eq_nil_iff {keys : List Str} :
    invalidParam keys = [] ↔ ∀ key ∈ keys, key = str "threshold" ∨ key = [] := by
  rw [invalidParam, foldl_join_eq_nil_iff]
  simp

theorem readParam_none_iff : (readParam env param s).2 = none ↔
    (∀ key ∈ (getKeyValueFromString param).keys, key = str "threshold" ∨ key = []) ∧
      ∀ text ∈ given param, isInteger text = true ∧ DYNAMIC_SMT_MIN_THRESHOLD ≤ atoi text ∧
        atoi text ≤ DYNAMIC_SMT_MAX_THRESHOLD := by
  have hkeys : invalidParam ((getKeyValueFromString param).reorder env.order).keys = [] ↔
      ∀ key ∈ (getKeyValueFromString param).keys, key = str "threshold" ∨ key = [] := by
    rw [invalidParam_eq_nil_iff]
    simp only [UMap.mem_keys_reorder]
  rw [readParam]
  rcases eq_or_ne param [] with rfl | hparam
  · rw [if_pos rfl]
    exact iff_of_true rfl ⟨by decide, by decide⟩
  · rw [if_neg hparam]
    dsimp only
    rcases eq_or_ne (invalidParam ((getKeyValueFromString param).reorder env.order).keys) [] with hnil | hnil
    · rw [if_neg (fun h => h hnil), and_iff_right (hkeys.mp hnil), given]
      cases (getKeyValueFromString param).find (str "threshold") with
      | none => simp
      | some text =>
        cases hint : isInteger text with
        | false => simp [hint]
        | true =>
          rcases em (atoi text < DYNAMIC_SMT_MIN_THRESHOLD ∨ DYNAMIC_SMT_MAX_THRESHOLD < atoi text) with hout | hin
          · simp [hint, hout]
            omega
          · simp [hint, hin]
            omega
    · rw [if_pos hnil]
      exact iff_of_false (fun h => by cases h) fun h => hnil (hkeys.mpr h.1)

/-- What is given becomes the threshold. -/
theorem readParam_util (h : (readParam env param s).2 = none) :
    (readParam env param s).1.schedUtilRatio = value param s := by
  obtain ⟨-, hthreshold⟩ := readParam_none_iff.mp h
  rw [readParam] at h ⊢
  rw [value, given] at *
  rcases eq_or_ne param [] with rfl | hparam
  · rfl
  · rw [if_neg hparam] at h ⊢
    dsimp only at h ⊢
    split at h
    · cases h
    · rename_i hinvalid
      rw [if_neg hinvalid]
      cases hfind : (getKeyValueFromString param).find (str "threshold") with
      | none => rfl
      | some text =>
        obtain ⟨hint, -⟩ := hthreshold text hfind
        dsimp only
        rw [if_neg (by rw [hint]; exact Bool.true_eq_false_eq_False)]
        rfl

/-- What is to be said of `prepare` where the system is as it should be. -/
theorem prepare_fields (h : checkEnv env = true) :
    (prepare env param k s).1.initialStatus = readStatus env s k ∧
    (prepare env param k s).1.initialRatio = (if featuresPath env s = [] then s.initialRatio else readRatio env s k) ∧
    (prepare env param k s).1.schedFeaturesPath = featuresPath env s := by
  rw [prepare, if_neg (by rw [h]; exact Bool.true_eq_false_eq_False), initSchedParam_eq]
  rcases eq_or_ne (featuresPath env s) [] with hnil | hne
  · simp [hnil]
  · rw [if_neg hne, if_neg hne]
    dsimp only
    split
    · exact ⟨rfl, rfl, rfl⟩
    · rw [readParam_eq]
      exact ⟨rfl, rfl, rfl⟩

theorem prepare_none_iff : (prepare env param k s).2 = none ↔ Accepted env param s := by
  rw [prepare]
  rcases Bool.eq_false_or_eq_true (checkEnv env) with hc | hc
  · rw [if_neg (by rw [hc]; exact Bool.true_eq_false_eq_False), initSchedParam_eq]
    rcases eq_or_ne (featuresPath env s) [] with hnil | hne
    · rw [if_pos hnil]
      refine iff_of_false (fun h => by cases h) fun h => ?_
      exact featuresPath_ne_nil_iff.mpr h.path hnil
    · rw [if_neg hne]
      dsimp only
      rcases Bool.eq_false_or_eq_true env.ratioFile with hr | hr
      · rw [if_neg (by rw [hr]; exact Bool.true_eq_false_eq_False), readParam_none_iff]
        exact ⟨fun h => ⟨hc, featuresPath_ne_nil_iff.mp hne, hr, h.1, h.2⟩, fun h => ⟨h.keys, h.threshold⟩⟩
      · rw [if_pos hr]
        refine iff_of_false (fun h => by cases h) fun h => ?_
        rw [h.ratioFile] at hr
        cases hr
  · rw [if_pos hc]
    refine iff_of_false (fun h => by cases h) fun h => ?_
    rw [h.checked] at hc
    cases hc

theorem prepare_util (h : Accepted env param s) : (prepare env param k s).1.schedUtilRatio = value param s := by
  have hnone := @prepare_none_iff env param s k |>.mpr h
  rw [prepare, if_neg (by rw [h.checked]; exact Bool.true_eq_false_eq_False), initSchedParam_eq,
    if_neg (featuresPath_ne_nil_iff.mpr h.path)] at hnone ⊢
  dsimp only at hnone ⊢
  rw [if_neg (by rw [h.ratioFile]; exact Bool.true_eq_false_eq_False)] at hnone ⊢
  exact (readParam_util hnone).trans rfl

/-! ### What is written -/

theorem enable_rejected (h : ¬ Accepted env param s) :
    ∃ payload, enable env param s k = (((prepare env param k s).1, k), failure payload) := by
  obtain ⟨payload, hpayload⟩ := Option.ne_none_iff_exists'.mp fun hnone => h (@prepare_none_iff env param s k |>.mp hnone)
  refine ⟨payload, ?_⟩
  rw [enable, hpayload]

theorem enable_accepted (h : Accepted env param s) : enable env param s k =
    if env.accepts schedRatioPath (showInt (value param s)) = true then
      if env.accepts (featuresPath env s) (str "KEEP_ON_CORE") = true then
        (((prepare env param k s).1, (k.setRatio (value param s)).setKeep true), resultOk)
      else (((prepare env param k s).1, k.setRatio (value param s)), failure (str "Failed to set sched features."))
    else (((prepare env param k s).1, k), failure (str "Failed to set sched_util_ratio.")) := by
  have hutil := @prepare_util env param s k h
  obtain ⟨-, -, hpath⟩ := @prepare_fields env param s k h.checked
  rw [enable, prepare_none_iff.mpr h]
  dsimp only
  rw [setAll, hutil, hpath, setSchedFeatures]
  rcases Bool.eq_false_or_eq_true (env.accepts schedRatioPath (showInt (value param s))) with hr | hr
  · rw [if_pos hr, if_pos hr, setSchedFeatures]
    rcases Bool.eq_false_or_eq_true (env.accepts (featuresPath env s) (str "KEEP_ON_CORE")) with hf | hf
    · simp [hf]
    · simp [hf]
  · simp [hr]

theorem disable_keep : (disable env s k).keep =
    if s.initialStatus = false ∧ env.accepts s.schedFeaturesPath (str "NO_KEEP_ON_CORE") = true then false else k.keep := by
  have hsecond : (disable env s k).keep = (if s.initialStatus then k
      else (setSchedFeatures env s.schedFeaturesPath (str "NO_KEEP_ON_CORE") (Kernel.setKeep false) k).1).keep := by
    rw [disable]
    split
    · rw [setSchedFeatures]
      split <;> rfl
    · rfl
  rw [hsecond, setSchedFeatures]
  cases s.initialStatus with
  | true => rfl
  | false =>
    rcases Bool.eq_false_or_eq_true (env.accepts s.schedFeaturesPath (str "NO_KEEP_ON_CORE")) with hf | hf
    · simp [hf, Kernel.setKeep]
    · simp [hf]

theorem disable_ratio : (disable env s k).ratio =
    if s.initialRatio ≠ -1 ∧ env.accepts schedRatioPath (showInt s.initialRatio) = true then showLine s.initialRatio
    else k.ratio := by
  have hfirst : (if s.initialStatus then k
      else (setSchedFeatures env s.schedFeaturesPath (str "NO_KEEP_ON_CORE") (Kernel.setKeep false) k).1).ratio = k.ratio := by
    rw [setSchedFeatures]
    split
    · rfl
    · split <;> rfl
  rw [disable, ← hfirst]
  generalize (if s.initialStatus then k
    else (setSchedFeatures env s.schedFeaturesPath (str "NO_KEEP_ON_CORE") (Kernel.setKeep false) k).1) = k'
  rw [setSchedFeatures]
  rcases eq_or_ne s.initialRatio (-1) with hratio | hratio
  · simp [hratio]
  · rcases Bool.eq_false_or_eq_true (env.accepts schedRatioPath (showInt s.initialRatio)) with hr | hr
    · simp [hratio, hr, Kernel.setRatio]
    · simp [hratio, hr]

end

/-! ### What holds in runs -/

/-- What there was before the `Enable` that is in force is recorded. -/
def Held (w : World) : Prop := ∀ o ∈ w.orig,
  w.tune.initialStatus = o.2 ∧ w.tune.initialRatio ≠ -1 ∧ showLine w.tune.initialRatio = o.1 ∧ w.kernel.keep = true

section
variable {w : World} {env : Env} {param : Str}

theorem value_range (h : Accepted env param w.tune) (hv : value param w.tune = wanted param) :
    DYNAMIC_SMT_MIN_THRESHOLD ≤ value param w.tune ∧ value param w.tune ≤ DYNAMIC_SMT_MAX_THRESHOLD := by
  rw [wanted] at hv
  cases hgiven : given param with
  | none =>
    rw [hv, hgiven]
    decide
  | some text =>
    rw [value, hgiven]
    exact (h.threshold text hgiven).2

/-- ONE CALL: `Enable` writes what is wanted, and leaves all as it was when it fails, just where its value is what is wanted
    and the second write does not fail, or the first one had changed nothing. -/
theorem exact_enable_iff : Exact w (.enable env param) ↔
    (Accepted env param w.tune → env.accepts schedRatioPath (showInt (value param w.tune)) = true →
      value param w.tune = wanted param ∧
      (env.accepts (featuresPath env w.tune) (str "KEEP_ON_CORE") = false →
        w.kernel.ratio = showLine (value param w.tune))) := by
  rcases em (Accepted env param w.tune) with hacc | hacc
  · rw [forall_prop_of_true hacc, Exact, next, enable_accepted hacc]
    rcases Bool.eq_false_or_eq_true (env.accepts schedRatioPath (showInt (value param w.tune))) with hr | hr
    · rw [forall_prop_of_true hr, if_pos hr]
      have hvalues : (∀ v ∈ [value param w.tune], DYNAMIC_SMT_MIN_THRESHOLD ≤ v ∧ v ≤ DYNAMIC_SMT_MAX_THRESHOLD ∧
          v = wanted param) ↔ value param w.tune = wanted param := by
        rw [List.forall_mem_singleton]
        exact ⟨fun h => h.2.2, fun h => ⟨(value_range hacc h).1, (value_range hacc h).2, h⟩⟩
      rcases Bool.eq_false_or_eq_true (env.accepts (featuresPath env w.tune) (str "KEEP_ON_CORE")) with hf | hf
      · rw [if_pos hf]
        simp only [Kernel.setRatio, Kernel.setKeep, List.drop_left, hvalues, hf]
        exact and_congr_right fun _ => iff_of_true (fun h => by cases h) fun h => by cases h
      · rw [if_neg (by rw [hf]; exact Bool.false_ne_true)]
        simp only [Kernel.setRatio, List.drop_left, hvalues, hf]
        exact and_congr_right fun _ => ⟨fun h _ => (h rfl).1.symm, fun h _ => ⟨(h trivial).symm, trivial⟩⟩
    · rw [if_neg (by rw [hr]; exact Bool.false_ne_true)]
      exact iff_of_true ⟨by simp, fun _ => ⟨rfl, rfl⟩⟩ fun h => by rw [hr] at h; cases h
  · obtain ⟨payload, heq⟩ := @enable_rejected env param w.tune w.kernel hacc
    rw [Exact, next, heq]
    exact iff_of_true ⟨by simp, fun _ => ⟨rfl, rfl⟩⟩ fun h => absurd h hacc

/-- What a call records that meets a system as it should be. -/
theorem records_prepare {o : Str × Bool} (h : checkEnv env = true) (hrec : Records env w.tune w.kernel o)
    (hpath : featuresPath env w.tune ≠ [] ∨ (w.tune.initialRatio ≠ -1 ∧ showLine w.tune.initialRatio = o.1)) :
    (prepare env param w.kernel w.tune).1.initialStatus = o.2 ∧ (prepare env param w.kernel w.tune).1.initialRatio ≠ -1 ∧
      showLine (prepare env param w.kernel w.tune).1.initialRatio = o.1 := by
  obtain ⟨hstatus, hratio, -⟩ := @prepare_fields env param w.tune w.kernel h
  obtain ⟨hread, hne, hshown⟩ := hrec
  rw [hstatus, hratio]
  split
  · rename_i hnil
    exact ⟨hread, hpath.resolve_left fun hpath => hpath hnil⟩
  · exact ⟨hread, hne, hshown⟩

theorem prepare_unchecked (h : checkEnv env = false) : (prepare env param w.kernel w.tune).1 = w.tune := by
  rw [prepare, if_pos h]

/-- While an `Enable` is in force, a call that fits keeps what is recorded. -/
theorem held_prepare (hheld : Held w) (hfits : Fits w (.enable env param)) {o : Str × Bool} (ho : o ∈ w.orig) :
    (prepare env param w.kernel w.tune).1.initialStatus = o.2 ∧ (prepare env param w.kernel w.tune).1.initialRatio ≠ -1 ∧
      showLine (prepare env param w.kernel w.tune).1.initialRatio = o.1 := by
  obtain ⟨hstatus, hne, hshown, -⟩ := hheld o ho
  rcases Bool.eq_false_or_eq_true (checkEnv env) with hc | hc
  · exact records_prepare hc (hfits.2 hc o ho) (Or.inr ⟨hne, hshown⟩)
  · rw [prepare_unchecked hc]
    exact ⟨hstatus, hne, hshown⟩

theorem held_enable (hheld : Held w) (hfits : Fits w (.enable env param)) : Held (next w (.enable env param)) := by
  have hkept : ∀ {k : Kernel}, k.keep = w.kernel.keep → Held ⟨(prepare env param w.kernel w.tune).1, k, w.orig⟩ := by
    intro k hk o ho
    obtain ⟨hstatus, hne, hshown⟩ := held_prepare hheld hfits ho
    exact ⟨hstatus, hne, hshown, hk.trans (hheld o ho).2.2.2⟩
  rcases em (Accepted env param w.tune) with hacc | hacc
  · rw [next, enable_accepted hacc]
    split
    · rename_i hr
      split
      · rename_i hf
        intro o ho
        have hdone : (prepare env param w.kernel w.tune).1.initialStatus = o.2 ∧
            (prepare env param w.kernel w.tune).1.initialRatio ≠ -1 ∧
            showLine (prepare env param w.kernel w.tune).1.initialRatio = o.1 := by
          rw [← Option.some.inj (show some _ = some o from ho)]
          cases horig : w.orig with
          | none =>
            have hrec := (hfits.1 hacc hr).2
            rw [if_pos hf] at hrec
            exact records_prepare hacc.checked (hrec horig) (Or.inl (featuresPath_ne_nil_iff.mpr hacc.path))
          | some o' => exact held_prepare hheld hfits horig
        exact ⟨hdone.1, hdone.2.1, hdone.2.2, rfl⟩
      · exact hkept rfl
    · exact hkept rfl
  · obtain ⟨payload, heq⟩ := @enable_rejected env param w.tune w.kernel hacc
    rw [next, heq]
    exact hkept rfl

/-- THE WAY BACK: with the right things recorded, `Disable` brings back both just where it finds what it has to write. -/
theorem exact_disable_iff (hheld : Held w) : Exact w (.disable env) ↔ Fits w (.disable env) := by
  refine forall₂_congr fun o ho => ?_
  obtain ⟨hstatus, hne, hshown, hkeep⟩ := hheld o ho
  rw [next]
  refine and_congr ?_ ?_
  · rw [disable_ratio, hshown]
    rcases Bool.eq_false_or_eq_true (env.accepts schedRatioPath (showInt w.tune.initialRatio)) with hr | hr
    · simp [hne, hr]
    · simp [hr]
  · rw [disable_keep, hstatus, hkeep]
    rcases Bool.eq_false_or_eq_true (env.accepts w.tune.schedFeaturesPath (str "NO_KEEP_ON_CORE")) with hf | hf
    · cases o.2 <;> simp [hf]
    · cases o.2 <;> simp [hf]

/-- NO LESS THAN THAT: what a call that succeeds with the right threshold has to record for the way back. -/
theorem exact_disable_after {env' : Env} (horig : w.orig = none) (hvalue : value param w.tune = wanted param)
    (hok : (enable env param w.tune w.kernel).2.failed = false) (hall : ∀ path text, env'.accepts path text = true) :
    Exact (next w (.enable env param)) (.disable env') ↔
      Records env w.tune w.kernel (w.kernel.ratio, w.kernel.keep) := by
  have hacc : Accepted env param w.tune := by
    by_contra hacc
    obtain ⟨payload, heq⟩ := @enable_rejected env param w.tune w.kernel hacc
    rw [heq] at hok
    cases hok
  obtain ⟨hstatus, hratio, -⟩ := @prepare_fields env param w.tune w.kernel hacc.checked
  rw [if_neg (featuresPath_ne_nil_iff.mpr hacc.path)] at hratio
  have hafter : next w (.enable env param) = ⟨(prepare env param w.kernel w.tune).1,
      (w.kernel.setRatio (value param w.tune)).setKeep true, some (w.kernel.ratio, w.kernel.keep)⟩ := by
    rw [enable_accepted hacc] at hok
    rw [next, enable_accepted hacc]
    split at hok
    · rename_i hr
      split at hok
      · rename_i hf
        rw [if_pos hr, if_pos hf, horig]
        rfl
      · cases hok
    · cases hok
  have hread : readRatio env w.tune w.kernel = -1 → showLine (value param w.tune) ≠ w.kernel.ratio := by
    intro hread heq
    obtain ⟨hlow, hhigh⟩ := value_range hacc hvalue
    rw [DYNAMIC_SMT_MIN_THRESHOLD] at hlow
    rw [DYNAMIC_SMT_MAX_THRESHOLD] at hhigh
    rw [readRatio, if_pos hacc.ratioFile, ← heq, extractInt_showLine (by omega) (by omega)] at hread
    omega
  have hexact : Exact (next w (.enable env param)) (.disable env') ↔
      (if readRatio env w.tune w.kernel ≠ -1 then showLine (readRatio env w.tune w.kernel)
        else showLine (value param w.tune)) = w.kernel.ratio ∧ readStatus env w.tune w.kernel = w.kernel.keep := by
    have hstep : ∀ {P : Str × Bool → Prop}, (∀ o ∈ some (w.kernel.ratio, w.kernel.keep), P o) ↔
        P (w.kernel.ratio, w.kernel.keep) := ⟨fun h => h _ rfl, fun h o ho => by cases ho; exact h⟩
    rw [Exact, hafter]
    refine hstep.trans ?_
    rw [next]
    dsimp only
    rw [disable_ratio, disable_keep, hstatus, hratio, hall, hall]
    simp [Kernel.setRatio, Kernel.setKeep]
  rw [hexact, Records, and_comm, ← and_assoc]
  rcases eq_or_ne (readRatio env w.tune w.kernel) (-1) with hminus | hne
  · simp [hminus, hread hminus]
  · simp [hne]

/-- A file that shows an `int` other than -1, and lines that say how the feature is. -/
theorem records_of_showLine {n : ℤ} (hlow : -2 ^ 31 ≤ n) (hhigh : n < 2 ^ 31) (hne : n ≠ -1)
    (hratio : w.kernel.ratio = showLine n) (hfile : env.ratioFile = true)
    (hstatus : readStatus env w.tune w.kernel = w.kernel.keep) :
    Records env w.tune w.kernel (w.kernel.ratio, w.kernel.keep) := by
  have hread : readRatio env w.tune w.kernel = n := by
    rw [readRatio, if_pos hfile, hratio, extractInt_showLine hlow hhigh]
  exact ⟨hstatus, by rwa [hread], by rw [hread, hratio]⟩

theorem head_isInteger {c : UInt8} {text : Str} (h : isInteger (c :: text) = true) :
    c = 45 ∨ c = 43 ∨ (48 ≤ c ∧ c ≤ 57) := by
  unfold isInteger at h
  rcases eq_or_ne c 45 with rfl | h45
  · exact Or.inl rfl
  · rcases eq_or_ne c 43 with rfl | h43
    · exact Or.inr (Or.inl rfl)
    · refine Or.inr (Or.inr ?_)
      simp only [decide_eq_true_eq] at h
      split at h
      · rename_i heq
        exact absurd (List.cons.inj heq).1 h45
      · rename_i heq
        exact absurd (List.cons.inj heq).1 h43
      · simpa using List.all_eq_true.mp h.2 c List.mem_cons_self

/-- `atoi` gives the number that an integer says, if it is an `int`. -/
theorem atoi_isInteger {text : Str} (h : isInteger text = true) (hlow : -2 ^ 31 ≤ numeral text)
    (hhigh : numeral text < 2 ^ 31) : atoi text = numeral text := by
  refine atoi_eq_numeral ?_ hlow hhigh
  cases text with
  | nil => rfl
  | cons c text =>
    rw [List.dropWhile_cons_of_neg]
    rcases head_isInteger h with rfl | rfl | ⟨h48, -⟩
    · decide
    · decide
    · have h48 : 48 ≤ c.toNat := UInt8.le_iff_toNat_le.mp h48
      rw [decide_eq_true_eq]
      rintro (rfl | ⟨-, h13⟩)
      · exact absurd h48 (by decide)
      · have h13 : c.toNat ≤ 13 := UInt8.le_iff_toNat_le.mp h13
        omega

/-- An `int` that is given, or a default that is what it was. -/
theorem value_eq_wanted (hgiven : ∀ text ∈ given param, isInteger text = true ∧ -2 ^ 31 ≤ numeral text ∧
    numeral text < 2 ^ 31) (hnone : given param = none → w.tune.schedUtilRatio = 100) :
    value param w.tune = wanted param := by
  rw [value, wanted]
  cases hcase : given param with
  | none => exact hnone hcase
  | some text =>
    obtain ⟨hint, hlow, hhigh⟩ := hgiven text hcase
    exact atoi_isInteger hint hlow hhigh

end

/-- WITHIN THE RANGE AND BACK: after calls that fit, a call that fits writes what is wanted, leaves all as it was when it
    fails, and brings back what there was. -/
theorem threshold_exact_of_runs {k : Kernel} {w : World} (h : Runs step (World.init k) Fits w) {act : Act} (hfits : Fits w act) :
    Exact w act := by
  have hheld : Held w := by
    refine h.invariant (fun o ho => by cases ho) fun w act w' hheld hfits hstep => ?_
    cases hstep
    cases act with
    | enable env param => exact held_enable hheld hfits
    | disable env => exact fun o ho => by cases ho
  cases act with
  | enable env param =>
    refine exact_enable_iff.mpr fun hacc hr => ?_
    obtain ⟨hvalue, hrest⟩ := hfits.1 hacc hr
    refine ⟨hvalue, fun hf => ?_⟩
    rwa [if_neg (by rw [hf]; exact Bool.false_ne_true)] at hrest
  | disable env => exact (exact_disable_iff hheld).mpr hfits

/-! ### Samples -/

namespace Example

/-- The line of features, with the feature on or off. -/
def line (keep : Bool) : Str := str "GENTLE_FAIR_SLEEPERS " ++ if keep then str "KEEP_ON_CORE" else str "NO_KEEP_ON_CORE"

/-- A system where all goes well, and one that does not take the feature. -/
def goodEnv : Env where
  smtFile := some (str "1\n")
  smtActive := 0
  config := some [str "CONFIG_SCHED_SMT=y\n"]
  features := fun path => if path = str "/sys/kernel/debug/sched/features" then some (fun keep => [line keep]) else none
  ratioFile := true
  order := []
  accepts := fun _ _ => true

def deafEnv : Env := { goodEnv with accepts := fun path _ => path = schedRatioPath }

def sampleKernel : Kernel := ⟨showLine 50, false, []⟩

def reach (k : Kernel) (acts : List Act) : World := acts.foldl next (World.init k)

theorem runs_thirty : Runs step (World.init sampleKernel) Fits (reach sampleKernel [.enable goodEnv (str "threshold:30")]) := by
  refine .next (a := .enable goodEnv (str "threshold:30")) .start ⟨fun _ _ => ⟨by decide +kernel, ?_⟩, ?_⟩ rfl
  · rw [if_pos (show goodEnv.accepts _ _ = true from rfl)]
    exact fun _ => by decide +kernel
  · intro _ o ho
    cases ho

end Example

/-- A ratio of 50 is there again. -/
theorem threshold_exact_of_runs_thirty :
    (next (Example.reach Example.sampleKernel [.enable Example.goodEnv (str "threshold:30")])
      (.disable Example.goodEnv)).kernel.ratio = showLine 50 ∧
    (next (Example.reach Example.sampleKernel [.enable Example.goodEnv (str "threshold:30")])
      (.disable Example.goodEnv)).kernel.keep = false :=
  @threshold_exact_of_runs _ _ Example.runs_thirty (.disable Example.goodEnv) (fun _ _ => ⟨Or.inr rfl, Or.inr rfl⟩)
    (showLine 50, false) (by decide +kernel)

/-- A threshold that was refused is written by the next call; a ratio stays where the feature is not taken; and a ratio of -1
    is not written back. -/
theorem threshold_not_exact :
    ¬ Exact (Example.reach Example.sampleKernel [.enable Example.goodEnv (str "threshold:200")])
      (.enable Example.goodEnv []) ∧
    ¬ Exact (Example.reach Example.sampleKernel []) (.enable Example.deafEnv (str "threshold:30")) ∧
    ¬ Exact (Example.reach ⟨showLine (-1), false, []⟩ [.enable Example.goodEnv []]) (.disable Example.goodEnv) := by
  refine ⟨fun h => ?_, fun h => ?_, fun h => ?_⟩
  · have hwritten := (h.1 200 (by decide +kernel)).2.1
    exact absurd hwritten (by decide)
  · have hratio := (h.2 (by decide +kernel)).1
    exact absurd hratio (by decide +kernel)
  · have hratio := (h (showLine (-1), false) (by decide +kernel)).1
    exact absurd hratio (by decide +kernel)

end DynamicSmtTune
end OeAware

import Mathlib.Data.Bool.AllAny
import Mathlib.Data.FinEnum
import OeAware.Schemes.Loops
import OeAware.Schemes.Words
import OeAware.Tune.RealtimeSwitches

/-! @src src/plugin/tune/system/realtime/realtime_tune.cpp | name:CheckAndUpdateKernelParamsWithGrubby,
    ParseGrubbyCmdline, GenerateExpectedKernelParams | scheme:fold

    The arguments of the default kernel are read from `grubby --info=DEFAULT` into a map, in which an argument
    without a value has the empty one. Those that differ from what is expected are updated one by one, with the
    old value kept for a rollback, and an empty old value stands for none.

        old        update k=v        rollback
        k=u        k=v               k=u
        -          k=v               -
        k          k=v               -          the flag is lost

    `grubby` is not part of the program: it is a parameter, and so is what becomes of each command. -/

namespace OeAware
open Schemes

namespace RealTimeTune

/-- The map `ParseGrubbyCmdline` returns. -/
abbrev ArgMap := Str → Option Str

/-- What is in front of the first `=` of a token, and what is behind it. -/
def tokenKey (token : Str) : Str := token.takeWhile (· ≠ 61)
def tokenValue (token : Str) : Str := (token.dropWhile (· ≠ 61)).drop 1

def insertArg (m : ArgMap) (token : Str) : ArgMap := Function.update m (tokenKey token) (some (tokenValue token))

/-- What is between the first and the last quote of a line. -/
def quoted (line : Str) : Option Str :=
  let rest := (line.dropWhile (· ≠ 34)).drop 1
  if 34 ∈ rest then some (rest.rdropWhile (· ≠ 34)).dropLast else none

/-- `ParseGrubbyCmdline`. -/
def parseGrubbyCmdline (grubbyInfo : Str) : ArgMap :=
  match (getlines 10 grubbyInfo).find? (fun line => (str "args=").isPrefixOf line) with
  | none => fun _ => none
  | some line =>
    match quoted line with
    | none => fun _ => none
    | some args => (words isSpace args).foldl insertArg (fun _ => none)

/-- `grubby`: what `--info=DEFAULT` prints, what `--update-kernel=<the running kernel>` does with `--args` and with
    `--remove-args`, and whether the running kernel is the default one. -/
structure Grubby where
  Boot : Type
  info : Boot → Str
  updateArgs : Str → Boot → Boot
  removeArgs : Str → Boot → Boot
  isDefault : Bool

namespace Grubby

/-- The arguments of the default kernel, as `ParseGrubbyCmdline` reads them. -/
def bootArgs (g : Grubby) (b : g.Boot) : ArgMap := parseGrubbyCmdline (g.info b)

end Grubby

/-- No character that a shell, or `grubby` in splitting its argument, treats specially. -/
def Plain (s : Str) : Prop := ∀ c ∈ s, c ∉ ([0, 34, 36, 39, 92, 96] : List UInt8)

/-- What `grubby` says it does: `--args` sets each of the arguments it is given, `--remove-args` removes the
    arguments of that name, and another kernel than the one it is told to update stays as it is. -/
structure Grubby.Lawful (g : Grubby) : Prop where
  update : g.isDefault = true → ∀ args b, Plain args →
    g.bootArgs (g.updateArgs args b) = (words isSpace args).foldl insertArg (g.bootArgs b)
  remove : g.isDefault = true → ∀ key b, key ∈ KERNEL_PARAM_KEYS →
    g.bootArgs (g.removeArgs key b) = Function.update (g.bootArgs b) key none
  update_other : g.isDefault = false → ∀ args b, g.bootArgs (g.updateArgs args b) = g.bootArgs b
  remove_other : g.isDefault = false → ∀ key b, g.bootArgs (g.removeArgs key b) = g.bootArgs b

/-- What becomes of a command that updates: it returns zero, or not, when it may still have done its work. -/
inductive CommandOutcome where
  | done
  | failed (applied : Bool)
  deriving DecidableEq

def CommandOutcome.applied : CommandOutcome → Bool
  | .done => true
  | .failed applied => applied

/-- The keys in the order of the map that is returned. -/
def sortedKeys : List Str := [str "irqaffinity", str "isolcpus", str "nohz_full", str "rcu_nocbs"]

/-- The value that is expected under `key`. -/
def expectedValue (sw : RealtimeTuneSwitch) (maxCpu : ℤ) (key : Str) : Option Str :=
  if key = str "irqaffinity" then getNotRangeCpus sw.cpuIsolationRange maxCpu else some sw.cpuIsolationRange

/-- `GenerateExpectedKernelParams`: `none` when `ParseRange` throws. -/
def generateExpectedKernelParams (sw : RealtimeTuneSwitch) (maxCpu : ℤ) : Option (List (Str × Str)) :=
  (sortedKeys.filter (fun key => (sw.featureSwitches.find key).getD false)).mapM (fun key =>
    (expectedValue sw maxCpu key).map (fun value => (key, value)))

/-- `key=value`, the argument of `--args`. -/
def argument (key value : Str) : Str := key ++ 61 :: value

/-- The loop over the expected parameters: those that were updated with their old values, whether an update
    failed, and the boot arguments. -/
def updateParams (g : Grubby) (outcome : Str → CommandOutcome) (currentParams : ArgMap) :
    List (Str × Str) → g.Boot → List (Str × Str) × Bool × g.Boot
  | [], b => ([], false, b)
  | (key, value) :: expected, b =>
    if currentParams key = some value then updateParams g outcome currentParams expected b
    else
      let b' := if (outcome key).applied then g.updateArgs (argument key value) b else b
      let r := updateParams g outcome currentParams expected b'
      ((key, (currentParams key).getD []) :: r.1, decide (outcome key ≠ .done) || r.2.1, r.2.2)

/-- One step of the rollback, whose commands succeed. -/
def restoreParam (g : Grubby) (b : g.Boot) (param : Str × Str) : g.Boot :=
  if param.2 = [] then g.removeArgs param.1 b else g.updateArgs (argument param.1 param.2) b

def rollback (g : Grubby) (updated : List (Str × Str)) (b : g.Boot) : g.Boot := updated.foldl (restoreParam g) b

/-- What becomes of the commands of one call: whether `grubby` is there and tells about the default kernel, of
    each update, and whether the configuration of the boot loader is written. -/
structure GrubbyOutcomes where
  available : Bool
  tells : Bool
  update : Str → CommandOutcome
  mkconfig : Bool

def grubbyInfo (g : Grubby) (o : GrubbyOutcomes) (b : g.Boot) : Str := if o.tells then g.info b else []

/-- `CheckAndUpdateKernelParamsWithGrubby`: what it returns, `isRebooting` and the boot arguments; `none` when it
    throws. -/
def checkAndUpdateKernelParamsWithGrubby (g : Grubby) (o : GrubbyOutcomes) (sw : RealtimeTuneSwitch) (maxCpuId : ℤ)
    (isRebooting : Bool) (b : g.Boot) : Option (Bool × Bool × g.Boot) :=
  if o.available = false then some (false, isRebooting, b)
  else if grubbyInfo g o b = [] then some (false, isRebooting, b)
  else do
    let expected ← generateExpectedKernelParams sw maxCpuId
    let r := updateParams g o.update (parseGrubbyCmdline (grubbyInfo g o b)) expected b
    if r.2.1 then some (false, isRebooting, rollback g r.1 r.2.2)
    else if r.1 = [] then some (true, isRebooting, r.2.2)
    else if o.mkconfig then some (true, true, r.2.2)
    else some (false, true, rollback g r.1 r.2.2)

/-! ### Which arguments are changed -/

/-- The expected parameters that the entry does not have. -/
def changed (m : ArgMap) (expected : List (Str × Str)) : List (Str × Str) :=
  expected.filter (fun kv => decide (m kv.1 ≠ some kv.2))

/-- The boot arguments when those commands have run that are applied. -/
def applyAll (outcome : Str → CommandOutcome) (params : List (Str × Str)) (m : ArgMap) : ArgMap :=
  params.foldl (fun m kv => if (outcome kv.1).applied then (words isSpace (argument kv.1 kv.2)).foldl insertArg m
    else m) m

theorem applyAll_cons (outcome : Str → CommandOutcome) (key value : Str) (params : List (Str × Str)) (m : ArgMap) :
    applyAll outcome ((key, value) :: params) m = applyAll outcome params
      (if (outcome key).applied then (words isSpace (argument key value)).foldl insertArg m else m) := rfl

theorem updateParams_updated (g : Grubby) (outcome : Str → CommandOutcome) (m : ArgMap) : ∀ expected b,
    (updateParams g outcome m expected b).1 = (changed m expected).map (fun kv => (kv.1, (m kv.1).getD []))
  | [], _ => rfl
  | (key, value) :: expected, b => by
    rw [updateParams, changed, List.filter_cons]
    rcases em (m key = some value) with h | h
    · simp only [h, if_pos, ne_eq, not_true_eq_false, decide_false, Bool.false_eq_true, if_false]
      exact updateParams_updated g outcome m expected b
    · simp only [h, if_false, ne_eq, not_false_eq_true, decide_true, if_true, List.map_cons]
      rw [updateParams_updated g outcome m expected]
      rfl

theorem updateParams_failed (g : Grubby) (outcome : Str → CommandOutcome) (m : ArgMap) : ∀ expected b,
    (updateParams g outcome m expected b).2.1 = true ↔ ∃ kv ∈ changed m expected, outcome kv.1 ≠ .done
  | [], _ => by simp [updateParams, changed]
  | (key, value) :: expected, b => by
    rw [updateParams, changed, List.filter_cons]
    rcases em (m key = some value) with h | h
    · simp only [h, if_pos, ne_eq, not_true_eq_false, decide_false, Bool.false_eq_true, if_false]
      exact updateParams_failed g outcome m expected b
    · simp only [h, if_false, ne_eq, not_false_eq_true, decide_true, if_true, Bool.or_eq_true, decide_eq_true_eq,
        List.mem_cons, exists_eq_or_imp]
      exact or_congr_right (updateParams_failed g outcome m expected _)

/-! ### What the commands do to the map -/

theorem key_facts : ∀ key ∈ KERNEL_PARAM_KEYS, key ≠ [] ∧ (∀ c ∈ key, isSpace c = false) ∧ 61 ∉ key ∧
    (∀ c ∈ key, c ∉ ([0, 34, 36, 39, 92, 96] : List UInt8)) ∧ ∃ c ∈ key, rangeChar c = false := by
  -- `all` goes through the characters of the key; `∀ c ∈ key` would be decided over all 256
  have hall : ∀ key ∈ KERNEL_PARAM_KEYS, key ≠ [] ∧
      key.all (fun c => isSpace c = false ∧ c ≠ 61 ∧ c ∉ ([0, 34, 36, 39, 92, 96] : List UInt8)) = true ∧
      key.any (fun c => rangeChar c = false) = true := by
    decide +kernel
  intro key hkey
  obtain ⟨hne, hchars, hrange⟩ := hall key hkey
  rw [List.all_iff_forall_prop] at hchars
  obtain ⟨c, hc, hc'⟩ := List.any_eq_true.mp hrange
  exact ⟨hne, fun c hc => (hchars c hc).1, fun h => (hchars 61 h).2.1 rfl, fun c hc => (hchars c hc).2.2, c, hc,
    of_decide_eq_true hc'⟩

theorem not_special {c : UInt8} (h : rangeChar c = true) : c ∉ ([0, 34, 36, 39, 92, 96] : List UInt8) := by
  intro hc
  simp only [List.mem_cons, List.not_mem_nil, or_false] at hc
  rcases hc with rfl | rfl | rfl | rfl | rfl | rfl <;> cases h

theorem ne_of_mem_key {key : Str} (h : 61 ∉ key) : ∀ c ∈ key, decide (c ≠ 61) = true := by
  intro c hc
  rw [decide_eq_true_eq]
  rintro rfl
  exact h hc

theorem tokenKey_argument {key : Str} (h : 61 ∉ key) (value : Str) : tokenKey (argument key value) = key := by
  rw [tokenKey, argument, List.takeWhile_append_of_pos (ne_of_mem_key h)]
  simp

theorem tokenValue_argument {key : Str} (h : 61 ∉ key) (value : Str) : tokenValue (argument key value) = value := by
  rw [tokenValue, argument, List.dropWhile_append_of_pos (ne_of_mem_key h)]
  simp

theorem plain_argument {key value : Str} (hkey : key ∈ KERNEL_PARAM_KEYS) (h : Plain value) :
    Plain (argument key value) := by
  intro c hc
  rcases List.mem_append.mp hc with hc | hc
  · exact (key_facts key hkey).2.2.2.1 c hc
  · rcases List.mem_cons.mp hc with rfl | hc
    · decide
    · exact h c hc

/-- An argument is one word, with the text in front of the first blank of its value; what is behind that blank
    are further words. -/
theorem words_argument {key : Str} (hkey : key ∈ KERNEL_PARAM_KEYS) (value : Str) :
    ∃ v, words isSpace (argument key value) = argument key v :: laterWords isSpace value := by
  obtain ⟨-, hblank, -⟩ := key_facts key hkey
  have hfront : ∀ c ∈ key ++ [61], isSpace c = false := by
    intro c hc
    rcases List.mem_append.mp hc with hc | hc
    · exact hblank c hc
    · rw [List.mem_singleton.mp hc]
      decide
  obtain ⟨w, hw⟩ := words_append (by simp) hfront value
  rw [List.append_assoc, List.append_assoc] at hw
  exact ⟨w, hw⟩

/-- The further words of a range are flags, and none of the keys. -/
theorem flag_of_later {value t : Str} (h : ∀ c ∈ value, rangeChar c = true) (ht : t ∈ laterWords isSpace value) :
    tokenKey t = t ∧ tokenValue t = [] ∧ t ∉ KERNEL_PARAM_KEYS := by
  have hpiece : t ∈ value.splitOnP isSpace := List.mem_of_mem_tail (List.mem_of_mem_filter ht)
  have hchar : ∀ c ∈ t, rangeChar c = true := fun c hc => h c (of_mem_splitOnP hpiece hc).1
  have hne : ∀ c ∈ t, decide (c ≠ 61) = true := by
    intro c hc
    rw [decide_eq_true_eq]
    rintro rfl
    exact absurd (hchar 61 hc) (by decide)
  refine ⟨List.takeWhile_eq_self_iff.mpr hne, ?_, fun hkey => ?_⟩
  · rw [tokenValue, List.dropWhile_eq_nil_iff.mpr hne]
    rfl
  · obtain ⟨c, hc, hfalse⟩ := (key_facts t hkey).2.2.2.2
    rw [hchar c hc] at hfalse
    cases hfalse

/-- Flags are set to the empty value. -/
theorem foldl_insertArg {x : Str} : ∀ {tokens : List Str} (m : ArgMap),
    (∀ t ∈ tokens, tokenKey t = x → tokenValue t = []) →
    tokens.foldl insertArg m x = if ∃ t ∈ tokens, tokenKey t = x then some [] else m x
  | [], m, _ => by simp
  | t :: tokens, m, h => by
    obtain ⟨ht, hrest⟩ := List.forall_mem_cons.mp h
    rw [List.foldl_cons, foldl_insertArg _ hrest]
    rcases em (∃ t ∈ tokens, tokenKey t = x) with hex | hex
    · obtain ⟨t', ht', hx⟩ := hex
      rw [if_pos ⟨t', ht', hx⟩, if_pos ⟨t', List.mem_cons_of_mem t ht', hx⟩]
    · rw [if_neg hex, insertArg]
      rcases eq_or_ne (tokenKey t) x with hx | hx
      · rw [if_pos ⟨t, List.mem_cons_self, hx⟩, ← hx, Function.update_self, ht hx]
      · rw [if_neg (by simpa [hx] using hex), Function.update_of_ne (Ne.symm hx)]

/-- A key that is expected is one of the four, and the value is a range. -/
def Expected (params : List (Str × Str)) : Prop :=
  ∀ kv ∈ params, kv.1 ∈ KERNEL_PARAM_KEYS ∧ ∀ c ∈ kv.2, rangeChar c = true

theorem Expected.changed {params : List (Str × Str)} (h : Expected params) (m : ArgMap) :
    Expected (changed m params) := fun kv hkv => h kv (List.mem_of_mem_filter hkv)

/-- Beside the keys the updates set the further words of what they write. -/
theorem applyAll_of_ne {outcome : Str → CommandOutcome} {x : Str} : ∀ {params : List (Str × Str)} (m : ArgMap),
    Expected params → (∀ kv ∈ params, kv.1 ≠ x) →
    applyAll outcome params m x =
      if ∃ kv ∈ params, (outcome kv.1).applied = true ∧ x ∈ laterWords isSpace kv.2 then some [] else m x
  | [], m, _, _ => by simp [applyAll]
  | (key, value) :: params, m, hok, hne => by
    obtain ⟨⟨hkey, hvalue⟩, hrest⟩ := List.forall_mem_cons.mp hok
    obtain ⟨hx, hne⟩ := List.forall_mem_cons.mp hne
    obtain ⟨v, hv⟩ := words_argument hkey value
    have h61 : 61 ∉ key := (key_facts key hkey).2.2.1
    have hhead : (if (outcome key).applied then (words isSpace (argument key value)).foldl insertArg m else m) x =
        if (outcome key).applied = true ∧ x ∈ laterWords isSpace value then some [] else m x := by
      cases happ : (outcome key).applied with
      | false => simp
      | true =>
        have hflag : ∀ t ∈ words isSpace (argument key value), tokenKey t = x → tokenValue t = [] := by
          rw [hv]
          intro t ht htx
          rcases List.mem_cons.mp ht with rfl | ht
          · exact absurd (tokenKey_argument h61 v ▸ htx) hx
          · exact (flag_of_later hvalue ht).2.1
        rw [if_pos rfl, foldl_insertArg m hflag, hv]
        refine if_congr ⟨?_, ?_⟩ rfl rfl
        · rintro ⟨t, ht, rfl⟩
          rcases List.mem_cons.mp ht with rfl | ht
          · exact absurd (tokenKey_argument h61 v).symm hx
          · exact ⟨rfl, by rw [(flag_of_later hvalue ht).1]; exact ht⟩
        · rintro ⟨-, ht⟩
          exact ⟨x, List.mem_cons_of_mem _ ht, (flag_of_later hvalue ht).1⟩
    rw [applyAll_cons, applyAll_of_ne _ hrest hne, hhead]
    simp only [List.mem_cons, exists_eq_or_imp]
    rcases em (∃ kv ∈ params, (outcome kv.1).applied = true ∧ x ∈ laterWords isSpace kv.2) with h | h
    · rw [if_pos h, if_pos (.inr h)]
    · rw [if_neg h]
      exact if_congr (or_iff_left h).symm rfl rfl

theorem bootArgs_updateParams {g : Grubby} (hg : g.Lawful) (hdef : g.isDefault = true)
    (outcome : Str → CommandOutcome) (m : ArgMap) : ∀ expected b, Expected expected →
    g.bootArgs (updateParams g outcome m expected b).2.2 = applyAll outcome (changed m expected) (g.bootArgs b)
  | [], _, _ => rfl
  | (key, value) :: expected, b, hok => by
    obtain ⟨⟨hkey, hvalue⟩, hrest⟩ := List.forall_mem_cons.mp hok
    rw [updateParams, changed, List.filter_cons]
    rcases em (m key = some value) with h | h
    · simp only [h, if_pos, ne_eq, not_true_eq_false, decide_false, Bool.false_eq_true, if_false]
      exact bootArgs_updateParams hg hdef outcome m expected b hrest
    · simp only [h, if_false, ne_eq, not_false_eq_true, decide_true, if_true]
      have hplain : Plain (argument key value) := plain_argument hkey fun c hc => not_special (hvalue c hc)
      have hhead : g.bootArgs (if (outcome key).applied then g.updateArgs (argument key value) b else b) =
          if (outcome key).applied then (words isSpace (argument key value)).foldl insertArg (g.bootArgs b)
            else g.bootArgs b := by
        split
        · exact hg.update hdef _ b hplain
        · rfl
      rw [bootArgs_updateParams hg hdef outcome m expected _ hrest, hhead]
      rfl

/-- The updates are on the four keys, and write ranges. -/
theorem expected_of_generate {sw : RealtimeTuneSwitch} {maxCpu : ℤ} {expected : List (Str × Str)}
    (hrange : ∀ c ∈ sw.cpuIsolationRange, rangeChar c = true)
    (h : generateExpectedKernelParams sw maxCpu = some expected) : Expected expected := by
  have hstep : ∀ key kv, (expectedValue sw maxCpu key).map (fun value => (key, value)) = some kv ↔
      (expectedValue sw maxCpu key).isSome = true ∧ kv = (key, (expectedValue sw maxCpu key).getD []) := by
    intro key kv
    cases expectedValue sw maxCpu key <;> simp [eq_comm]
  obtain ⟨hsome, rfl⟩ := (mapM_eq_some_iff hstep).mp h
  intro kv hkv
  obtain ⟨key, hkey, rfl⟩ := List.mem_map.mp hkv
  have hall : ∀ key ∈ sortedKeys, key ∈ KERNEL_PARAM_KEYS := by decide
  refine ⟨hall key (List.mem_of_mem_filter hkey), ?_⟩
  obtain ⟨value, hvalue⟩ := Option.isSome_iff_exists.mp (hsome key hkey)
  dsimp only
  rw [hvalue, Option.getD_some]
  rw [expectedValue] at hvalue
  split at hvalue
  · exact rangeChar_of_notRange hvalue
  · cases hvalue
    exact hrange

theorem noBlank_insertArgs : ∀ {tokens : List Str} {m : ArgMap}, (∀ t ∈ tokens, ∀ c ∈ t, isSpace c = false) →
    (∀ x v, m x = some v → ∀ c ∈ v, isSpace c = false) →
    ∀ x v, tokens.foldl insertArg m x = some v → ∀ c ∈ v, isSpace c = false
  | [], m, _, hm => hm
  | t :: tokens, m, ht, hm => by
    obtain ⟨ht, hrest⟩ := List.forall_mem_cons.mp ht
    rw [List.foldl_cons]
    refine noBlank_insertArgs hrest fun x v hv c hc => ?_
    rw [insertArg] at hv
    rcases eq_or_ne x (tokenKey t) with rfl | hx
    · rw [Function.update_self, Option.some.injEq] at hv
      rw [← hv] at hc
      exact ht c (List.dropWhile_subset _ (List.mem_of_mem_drop hc))
    · rw [Function.update_of_ne hx] at hv
      exact hm x v hv c hc

theorem parse_cases (grubbyInfo : Str) : parseGrubbyCmdline grubbyInfo = (fun _ => none) ∨
    ∃ args, parseGrubbyCmdline grubbyInfo = (words isSpace args).foldl insertArg (fun _ => none) := by
  rw [parseGrubbyCmdline]
  split
  · exact .inl rfl
  · split
    · exact .inl rfl
    · exact .inr ⟨_, rfl⟩

/-- The values that are read are words. -/
theorem noBlank_parse (grubbyInfo : Str) : ∀ x v, parseGrubbyCmdline grubbyInfo x = some v →
    ∀ c ∈ v, isSpace c = false := by
  intro x v h
  rcases parse_cases grubbyInfo with heq | ⟨args, heq⟩
  · rw [heq] at h
    cases h
  · rw [heq] at h
    exact noBlank_insertArgs (fun t ht c hc => (of_mem_words ht hc).2) (fun _ _ hnone => by cases hnone) x v h

/-- What the rollback puts in the place of an old value. -/
def restoredValue (old : Option Str) : Option Str := if old.getD [] = [] then none else old

theorem restoredValue_eq_iff (old : Option Str) : restoredValue old = old ↔ old ≠ some [] := by
  cases old with
  | none => simp [restoredValue]
  | some v => cases v <;> simp [restoredValue]

/-- Old values that a command can write back: plain, and one word. -/
def Writable (m : ArgMap) : Prop :=
  ∀ key ∈ KERNEL_PARAM_KEYS, ∀ v, m key = some v → Plain v ∧ ∀ c ∈ v, isSpace c = false

theorem bootArgs_restoreParam {g : Grubby} (hg : g.Lawful) (hdef : g.isDefault = true) {m : ArgMap}
    (hm : Writable m) {key : Str} (hkey : key ∈ KERNEL_PARAM_KEYS) (b : g.Boot) :
    g.bootArgs (restoreParam g b (key, (m key).getD [])) =
      Function.update (g.bootArgs b) key (restoredValue (m key)) := by
  rw [restoreParam, restoredValue]
  cases hold : m key with
  | none => exact hg.remove hdef key b hkey
  | some v =>
    obtain ⟨hplain, hblank⟩ := hm key hkey v hold
    obtain ⟨-, hkblank, h61, -⟩ := key_facts key hkey
    rw [Option.getD_some]
    rcases em (v = []) with rfl | hv
    · rw [if_pos rfl, if_pos rfl]
      exact hg.remove hdef key b hkey
    · have hword : ∀ c ∈ argument key v, isSpace c = false := by
        intro c hc
        rcases List.mem_append.mp hc with hc | hc
        · exact hkblank c hc
        · rcases List.mem_cons.mp hc with rfl | hc
          · decide
          · exact hblank c hc
      rw [if_neg hv, if_neg hv, hg.update hdef _ b (plain_argument hkey hplain),
        words_self (by simp [argument]) hword, List.foldl_cons, List.foldl_nil, insertArg, tokenKey_argument h61,
        tokenValue_argument h61]

theorem bootArgs_rollback {g : Grubby} (hg : g.Lawful) (hdef : g.isDefault = true) {m : ArgMap} (hm : Writable m)
    (x : Str) : ∀ {params : List (Str × Str)} (b : g.Boot), Expected params →
    g.bootArgs (rollback g (params.map (fun kv => (kv.1, (m kv.1).getD []))) b) x =
      if ∃ kv ∈ params, kv.1 = x then restoredValue (m x) else g.bootArgs b x
  | [], b, _ => by simp [rollback]
  | (key, value) :: params, b, hok => by
    obtain ⟨⟨hkey, -⟩, hrest⟩ := List.forall_mem_cons.mp hok
    rw [List.map_cons, rollback, List.foldl_cons]
    change g.bootArgs (rollback g _ _) x = _
    rw [bootArgs_rollback hg hdef hm x _ hrest, bootArgs_restoreParam hg hdef hm hkey]
    simp only [List.mem_cons, exists_eq_or_imp]
    rcases em (∃ kv ∈ params, kv.1 = x) with h | h
    · rw [if_pos h, if_pos (.inr h)]
    · rw [if_neg h]
      rcases eq_or_ne key x with rfl | hx
      · rw [Function.update_self, if_pos (.inl rfl)]
      · rw [Function.update_of_ne (Ne.symm hx), if_neg (not_or.mpr ⟨hx, h⟩)]

/-- Nothing is lost and nothing is left behind: no changed parameter is a flag without a value, and the further
    words of what was written were flags before. -/
def Undoable (outcome : Str → CommandOutcome) (m : ArgMap) (params : List (Str × Str)) : Prop :=
  (∀ kv ∈ params, m kv.1 ≠ some []) ∧
    ∀ kv ∈ params, (outcome kv.1).applied = true → ∀ x ∈ laterWords isSpace kv.2, m x = some []

/-- The rollback restores the arguments of the default kernel where they can be restored, and only there. -/
theorem rollback_restores_iff {g : Grubby} (hg : g.Lawful) (hdef : g.isDefault = true) {b : g.Boot}
    (hm : Writable (g.bootArgs b)) (outcome : Str → CommandOutcome) {expected : List (Str × Str)}
    (hok : Expected expected) :
    g.bootArgs (rollback g (updateParams g outcome (g.bootArgs b) expected b).1
      (updateParams g outcome (g.bootArgs b) expected b).2.2) = g.bootArgs b ↔
      Undoable outcome (g.bootArgs b) (changed (g.bootArgs b) expected) := by
  rw [updateParams_updated]
  have hokc := hok.changed (g.bootArgs b)
  have hvalue := fun x => bootArgs_rollback hg hdef hm x (updateParams g outcome (g.bootArgs b) expected b).2.2 hokc
  have hother : ∀ x, (¬∃ kv ∈ changed (g.bootArgs b) expected, kv.1 = x) →
      g.bootArgs (updateParams g outcome (g.bootArgs b) expected b).2.2 x =
        if ∃ kv ∈ changed (g.bootArgs b) expected, (outcome kv.1).applied = true ∧ x ∈ laterWords isSpace kv.2
          then some [] else g.bootArgs b x := by
    intro x hx
    rw [bootArgs_updateParams hg hdef outcome (g.bootArgs b) expected b hok]
    exact applyAll_of_ne (g.bootArgs b) hokc fun kv hkv heq => hx ⟨kv, hkv, heq⟩
  refine ⟨fun h => ⟨fun kv hkv => ?_, fun kv hkv happ x hx => ?_⟩, fun ⟨hkeys, hwords⟩ => funext fun x => ?_⟩
  · have hk := hvalue kv.1
    rw [h, if_pos ⟨kv, hkv, rfl⟩] at hk
    exact (restoredValue_eq_iff _).mp hk.symm
  · have hnot : ¬∃ kv ∈ changed (g.bootArgs b) expected, kv.1 = x := by
      rintro ⟨kv', hkv', rfl⟩
      exact (flag_of_later (hokc kv hkv).2 hx).2.2 (hokc kv' hkv').1
    have hk := hvalue x
    rwa [h, if_neg hnot, hother x hnot, if_pos ⟨kv, hkv, happ, hx⟩] at hk
  · rw [hvalue]
    rcases em (∃ kv ∈ changed (g.bootArgs b) expected, kv.1 = x) with hx | hx
    · obtain ⟨kv, hkv, rfl⟩ := hx
      rw [if_pos ⟨kv, hkv, rfl⟩, (restoredValue_eq_iff _).mpr (hkeys kv hkv)]
    · rw [if_neg hx, hother x hx]
      split
      · rename_i hex
        obtain ⟨kv, hkv, happ, hword⟩ := hex
        exact (hwords kv hkv happ x hword).symm
      · rfl

/-! ### Where the update fails -/

/-- `grubby` is missing or tells nothing. -/
def Silent (g : Grubby) (o : GrubbyOutcomes) (b : g.Boot) : Prop := o.available = false ∨ grubbyInfo g o b = []

/-- The boot arguments after the updates and their rollback. -/
def rolledBack (g : Grubby) (outcome : Str → CommandOutcome) (expected : List (Str × Str)) (b : g.Boot) : g.Boot :=
  rollback g (updateParams g outcome (g.bootArgs b) expected b).1
    (updateParams g outcome (g.bootArgs b) expected b).2.2

/-- An update of one of the parameters fails. -/
def UpdateFails (o : GrubbyOutcomes) (params : List (Str × Str)) : Prop := ∃ kv ∈ params, o.update kv.1 ≠ .done

/-- The updates succeed, but the configuration of the boot loader is not written. -/
def MkconfigFails (o : GrubbyOutcomes) (params : List (Str × Str)) : Prop :=
  ¬UpdateFails o params ∧ params ≠ [] ∧ o.mkconfig = false

theorem check_of_silent {g : Grubby} {o : GrubbyOutcomes} {b : g.Boot} (h : Silent g o b) (sw : RealtimeTuneSwitch)
    (maxCpuId : ℤ) (isRebooting : Bool) :
    checkAndUpdateKernelParamsWithGrubby g o sw maxCpuId isRebooting b = some (false, isRebooting, b) := by
  rw [checkAndUpdateKernelParamsWithGrubby]
  rcases h with h | h <;> simp [h]

theorem grubbyInfo_of_not_silent {g : Grubby} {o : GrubbyOutcomes} {b : g.Boot} (h : ¬Silent g o b) :
    o.available = true ∧ grubbyInfo g o b ≠ [] ∧ parseGrubbyCmdline (grubbyInfo g o b) = g.bootArgs b := by
  obtain ⟨hav, hinfo⟩ := not_or.mp h
  refine ⟨by simpa using hav, hinfo, ?_⟩
  rw [grubbyInfo] at hinfo ⊢
  split
  · rfl
  · rename_i htells
    rw [if_neg htells] at hinfo
    exact absurd rfl hinfo

/-- All ways in which `CheckAndUpdateKernelParamsWithGrubby` returns `false`, and with what. -/
theorem check_false_iff (g : Grubby) (o : GrubbyOutcomes) (sw : RealtimeTuneSwitch) (maxCpuId : ℤ)
    (isRebooting reb : Bool) (b b' : g.Boot) :
    checkAndUpdateKernelParamsWithGrubby g o sw maxCpuId isRebooting b = some (false, reb, b') ↔
      (Silent g o b ∧ reb = isRebooting ∧ b' = b) ∨
      ¬Silent g o b ∧ ∃ expected, generateExpectedKernelParams sw maxCpuId = some expected ∧
        b' = rolledBack g o.update expected b ∧
        (UpdateFails o (changed (g.bootArgs b) expected) ∧ reb = isRebooting ∨
          MkconfigFails o (changed (g.bootArgs b) expected) ∧ reb = true) := by
  rcases em (Silent g o b) with hs | hs
  · rw [check_of_silent hs]
    simp only [hs, true_and, not_true_eq_false, false_and, or_false, Option.some.injEq, Prod.mk.injEq]
    exact and_congr eq_comm eq_comm
  · obtain ⟨hav, hinfo, hargs⟩ := grubbyInfo_of_not_silent hs
    rw [checkAndUpdateKernelParamsWithGrubby, if_neg (by simp [hav]), if_neg hinfo, hargs]
    simp only [hs, false_and, false_or, not_false_eq_true, true_and]
    cases hgen : generateExpectedKernelParams sw maxCpuId with
    | none => simp
    | some expected =>
      have hfail := updateParams_failed g o.update (g.bootArgs b) expected b
      have hnil : (updateParams g o.update (g.bootArgs b) expected b).1 = [] ↔ changed (g.bootArgs b) expected = [] := by
        rw [updateParams_updated, List.map_eq_nil_iff]
      simp only [Option.bind_eq_bind, Option.bind_some, Option.some.injEq, exists_eq_left']
      change (if (updateParams g o.update (g.bootArgs b) expected b).2.1 = true then _ else _) = _ ↔ _
      rcases em (UpdateFails o (changed (g.bootArgs b) expected)) with hu | hu
      · rw [if_pos (hfail.mpr hu)]
        simp only [hu, MkconfigFails, not_true_eq_false, false_and, or_false, true_and, Option.some.injEq,
          Prod.mk.injEq]
        exact and_comm.trans (and_congr eq_comm eq_comm)
      · rw [if_neg fun h => hu (hfail.mp h)]
        simp only [hu, MkconfigFails, not_false_eq_true, true_and, false_and, false_or]
        rcases em (changed (g.bootArgs b) expected = []) with hc | hc
        · rw [if_pos (hnil.mpr hc)]
          simp [hc]
        · rw [if_neg fun h => hc (hnil.mp h)]
          cases o.mkconfig with
          | true => simp
          | false =>
            simp only [hc, Bool.false_eq_true, if_false, ne_eq, not_false_eq_true, true_and, Option.some.injEq,
              Prod.mk.injEq]
            exact and_comm.trans (and_congr eq_comm eq_comm)

/-! ### A boot entry as the list of its arguments -/

/-- An argument: a word without quotes. -/
abbrev Token := { t : Str // t ≠ [] ∧ ∀ c ∈ t, isSpace c = false ∧ c ≠ 34 }

def tokensOf (ts : List Str) : List Token :=
  ts.filterMap (fun t => if h : t ≠ [] ∧ ∀ c ∈ t, isSpace c = false ∧ c ≠ 34 then some ⟨t, h⟩ else none)

/-- The arguments between the quotes. -/
def tokenText (b : List Token) : Str := b.flatMap (fun t => t.1 ++ [32])

def entryInfo (b : List Token) : Str := str "args=" ++ 34 :: (tokenText b ++ [34])

/-- An entry that keeps its arguments in the order in which they are set; of two with one name the later counts. -/
def entryGrubby : Grubby where
  Boot := List Token
  info := entryInfo
  updateArgs args b := b ++ tokensOf (words isSpace args)
  removeArgs key b := b.filter (fun t => decide (tokenKey t.1 ≠ key))
  isDefault := true

theorem words_tokenText : ∀ b : List Token, words isSpace (tokenText b) = b.map (·.1)
  | [] => rfl
  | ⟨t, ht⟩ :: b => by
    have h : tokenText (⟨t, ht⟩ :: b) = t ++ 32 :: tokenText b := by simp [tokenText]
    rw [h, words_cons ht.1 (fun c hc => (ht.2 c hc).1) rfl, words_tokenText b]
    rfl

theorem mem_tokenText {b : List Token} {c : UInt8} (h : c ∈ tokenText b) : c ≠ 10 ∧ c ≠ 34 := by
  obtain ⟨t, -, hc⟩ := List.mem_flatMap.mp h
  rcases List.mem_append.mp hc with hc | hc
  · obtain ⟨hspace, hquote⟩ := t.2.2 c hc
    refine ⟨?_, hquote⟩
    rintro rfl
    cases hspace
  · rw [List.mem_singleton.mp hc]
    decide

theorem parse_entryInfo (b : List Token) :
    parseGrubbyCmdline (entryInfo b) = (b.map (·.1)).foldl insertArg (fun _ => none) := by
  have hline : 10 ∉ entryInfo b := by
    intro h
    rcases List.mem_append.mp h with h | h
    · revert h
      decide
    · rcases List.mem_cons.mp h with h | h
      · cases h
      · rcases List.mem_append.mp h with h | h
        · exact (mem_tokenText h).1 rfl
        · cases List.mem_singleton.mp h
  have hlines : getlines 10 (entryInfo b) = [entryInfo b] := by
    rw [getlines, List.splitOn_eq_singleton hline]
    simp [entryInfo]
  have hfront : (entryInfo b).dropWhile (· ≠ 34) = 34 :: (tokenText b ++ [34]) := by
    refine (List.dropWhile_append_of_pos ?_).trans (by simp)
    decide +kernel
  have hquoted : quoted (entryInfo b) = some (tokenText b) := by
    rw [quoted, hfront]
    simp [List.rdropWhile_concat_neg]
  have hfind : [entryInfo b].find? (fun line => (str "args=").isPrefixOf line) = some (entryInfo b) := by
    rw [List.find?_cons_of_pos]
    exact List.isPrefixOf_iff_prefix.mpr (List.prefix_append _ _)
  rw [parseGrubbyCmdline, hlines, hfind]
  simp only [hquoted, words_tokenText]

theorem map_tokensOf : ∀ {ts : List Str}, (∀ t ∈ ts, t ≠ [] ∧ ∀ c ∈ t, isSpace c = false ∧ c ≠ 34) →
    (tokensOf ts).map (·.1) = ts
  | [], _ => rfl
  | t :: ts, h => by
    obtain ⟨ht, hrest⟩ := List.forall_mem_cons.mp h
    rw [tokensOf, List.filterMap_cons, dif_pos ht]
    exact congrArg (t :: ·) (map_tokensOf hrest)

theorem foldl_insertArg_filter (key x : Str) : ∀ (b : List Token) (m m' : ArgMap),
    m' x = (if x = key then none else m x) →
    ((b.filter (fun t => decide (tokenKey t.1 ≠ key))).map (·.1)).foldl insertArg m' x =
      if x = key then none else (b.map (·.1)).foldl insertArg m x
  | [], _, _, h => h
  | t :: b, m, m', h => by
    rw [List.map_cons, List.foldl_cons, List.filter_cons]
    rcases eq_or_ne (tokenKey t.1) key with hk | hk
    · rw [if_neg (by simp [hk])]
      refine foldl_insertArg_filter key x b (insertArg m t.1) m' ?_
      rw [h, insertArg, hk]
      rcases eq_or_ne x key with rfl | hx
      · rw [if_pos rfl, if_pos rfl]
      · rw [if_neg hx, if_neg hx, Function.update_of_ne hx]
    · rw [if_pos (by simp [hk]), List.map_cons, List.foldl_cons]
      refine foldl_insertArg_filter key x b (insertArg m t.1) (insertArg m' t.1) ?_
      rw [insertArg, insertArg]
      rcases eq_or_ne x (tokenKey t.1) with rfl | hx
      · rw [Function.update_self, Function.update_self, if_neg hk]
      · rw [Function.update_of_ne hx, Function.update_of_ne hx, h]

theorem lawful_entry : entryGrubby.Lawful where
  update := fun _ args (b : List Token) h => by
    change parseGrubbyCmdline (entryInfo (b ++ tokensOf (words isSpace args))) =
      (words isSpace args).foldl insertArg (parseGrubbyCmdline (entryInfo b))
    rw [parse_entryInfo, parse_entryInfo, List.map_append, List.foldl_append, map_tokensOf]
    intro t ht
    refine ⟨ne_nil_of_mem_words ht, fun c hc => ⟨(of_mem_words ht hc).2, ?_⟩⟩
    rintro rfl
    exact h 34 (of_mem_words ht hc).1 (by decide)
  remove := fun _ key (b : List Token) _ => by
    change parseGrubbyCmdline (entryInfo (b.filter (fun t => decide (tokenKey t.1 ≠ key)))) =
      Function.update (parseGrubbyCmdline (entryInfo b)) key none
    funext x
    rw [parse_entryInfo, parse_entryInfo, foldl_insertArg_filter key x b (fun _ => none) (fun _ => none) (by simp)]
    rcases eq_or_ne x key with rfl | hx
    · rw [if_pos rfl, Function.update_self]
    · rw [if_neg hx, Function.update_of_ne hx]
  update_other h := by cases h
  remove_other h := by cases h

end RealTimeTune
end OeAware

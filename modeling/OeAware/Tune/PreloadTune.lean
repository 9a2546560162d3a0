import Mathlib.Data.Bool.AllAny
import OeAware.Analysis.Instance
import OeAware.Common.Yaml
import OeAware.Schemes.Words

/-! @src src/plugin/tune/system/preload/preload_tune.cpp | name:PreloadTune

    The configuration names applications and the shared objects each of them needs beside its own. `Enable` has them added
    to the application's list by patchelf, one call for each, and `Disable` has them removed.

        preload.yaml ──LoadConfig──▶ config ──ldd──▶ add a₁ to p, add a₂ to p, ─ ─ ✗ ─▶ config.clear()
                                                          └──Disable──▶ remove a₁ from p, remove a₂ from p

    What has been added is not taken back where a later call fails; and what is removed is every entry of that name. -/

namespace OeAware
open Schemes

namespace PreloadTune

/-! ### The configuration -/

structure ConfigNode where
  appPath : Str
  soPath : List Str

/-- For each file the libraries it needs. -/
abbrev Needed := Str → List Str

def configPath : Str := str "/etc/oeAware/plugin" ++ str "/preload.yaml"

/-- What a call meets: whether there is a patchelf; the configuration, whether it is there, may be read, and what
    `YAML::LoadFile` makes of it, unless it throws; which files there are; what `ldd` prints, piece by piece, if it runs;
    the exit status of each patchelf in its turn, and what a command changes where it succeeds. -/
structure Env where
  patchelf : Bool
  fileExist : Bool
  permission : Bool
  document : Option Node
  access : Str → Bool
  ldd : Str → Option (List Str)
  ret : ℕ → ℤ
  effect : Str → Needed → Needed

/-- `std::set<std::string>::insert`. -/
def insertSorted (so : Str) : List Str → List Str
  | [] => [so]
  | x :: xs => if so < x then so :: x :: xs else x :: insertSorted so xs

/-- The loop over `sopath`; it fails on what is no text, what is not there, and what has been there. -/
def loadSos (env : Env) : List Node → List Str → Option (List Str)
  | [], soPath => some soPath
  | so :: sos, soPath =>
    match so.asString with
    | none => none
    | some path => if env.access path = false ∨ path ∈ soPath then none else loadSos env sos (insertSorted path soPath)

/-- One application. -/
def loadApp (env : Env) (app : Node) : Option ConfigNode :=
  match app.get (str "apppath"), app.get (str "sopath") with
  | some (some apppath), some (some sopath) =>
    match apppath.asString, sopath with
    | some appPath, .seq sos =>
      if env.access appPath then (loadSos env sos []).map (fun soPath => ⟨appPath, soPath⟩) else none
    | _, _ => none
  | _, _ => none

/-- `LoadConfig`: what it puts behind the configuration, unless it fails. -/
def loadConfig (env : Env) : Option (List ConfigNode) :=
  match env.document with
  | some .null => some []
  | some (.seq apps) => apps.mapM (loadApp env)
  | _ => none

/-! ### `CheckExistingSo` -/

/-- What is before the first place where the pattern is. -/
def cutBefore (pattern : Str) : Str → Option Str
  | [] => if pattern = [] then some [] else none
  | c :: s => if pattern <+: c :: s then some [] else (cutBefore pattern s).map (c :: ·)

def isBlank (c : UInt8) : Bool := c = 32 || c = 9

/-- What is behind the last slash, without the blanks around. -/
def extractSoName (path : Str) : Str :=
  let soName := (path.reverse.takeWhile (· ≠ 47)).reverse
  ((soName.dropWhile isBlank).reverse.dropWhile isBlank).reverse

def parseLddLine (line : Str) : Str :=
  if ¬ str ".so" <:+: line then []
  else extractSoName (((cutBefore (str "=>") line).or (cutBefore (str " (") line)).getD line)

def checkExistingSo (env : Env) (configNode : ConfigNode) : Bool :=
  match env.ldd configNode.appPath with
  | none => false
  | some lines =>
    let existingSoList := (lines.map parseLddLine).filter (fun soName => !soName.isEmpty)
    existingSoList ≠ [] ∧ ∀ soPath ∈ configNode.soPath, extractSoName soPath ∉ existingSoList

/-! ### `Enable` and `Disable` -/

def addCommand (so appPath : Str) : Str := str "patchelf --add-needed " ++ so ++ str " " ++ appPath
def removeCommand (so appPath : Str) : Str := str "patchelf --remove-needed " ++ so ++ str " " ++ appPath

/-- The objects, each with its application, in the order of the two loops. -/
def pairs (config : List ConfigNode) : List (Str × Str) :=
  config.flatMap (fun node => node.soPath.map (fun so => (so, node.appPath)))

/-- The loops of `Enable`, from the `n`-th call on; the command that fails, if one does. -/
def addAll (env : Env) : ℕ → List (Str × Str) → Needed → Needed × Option Str
  | _, [], k => (k, none)
  | n, (so, appPath) :: rest, k =>
    if env.ret n ≠ 0 then (k, some (addCommand so appPath))
    else addAll env (n + 1) rest (env.effect (addCommand so appPath) k)

/-- Those of `Disable`, which go on. -/
def removeAll (env : Env) : ℕ → List (Str × Str) → Needed → Needed
  | _, [], k => k
  | n, (so, appPath) :: rest, k =>
    removeAll env (n + 1) rest (if env.ret n ≠ 0 then k else env.effect (removeCommand so appPath) k)

/-- `Enable`. -/
def enable (env : Env) (config : List ConfigNode) (k : Needed) : (List ConfigNode × Needed) × Result :=
  if env.patchelf = false then
    ((config, k), failure (str "patchelf command not found, please install patchelf first"))
  else if env.fileExist = false then ((config, k), failure (str "preload config file does not exist"))
  else if env.permission = false then ((config, k), failure (str "Insufficient permission on " ++ configPath))
  else match loadConfig env with
    | none => (([], k), failure (str "load preload config file failed"))
    | some nodes =>
      let config := config ++ nodes
      match config.find? (fun node => !checkExistingSo env node) with
      | some node => (([], k), failure (str "conflicting shared object in " ++ node.appPath))
      | none =>
        let r := addAll env 0 (pairs config) k
        match r.2 with
        | some cmd => (([], r.1), failure (str "failed to execute patchelf command: " ++ cmd))
        | none => ((config, r.1), resultOk)

/-- `Disable`. -/
def disable (env : Env) (config : List ConfigNode) (k : Needed) : List ConfigNode × Needed :=
  ([], removeAll env 0 (pairs config) k)

/-! ### What patchelf does -/

/-- A word that the shell hands on as it is, and that is no option. -/
def Plain (s : Str) : Prop :=
  s ≠ [] ∧ s.head? ≠ some 45 ∧ ∀ c ∈ s, isSpace c = false ∧ c ∉ str "|&;<>()$\\\"'*?[]#~!=%\x7b\x7d" ∧ c ≠ 96

instance (s : Str) : Decidable (Plain s) := inferInstanceAs (Decidable (_ ∧ _ ∧ _))

/-- On plain words it puts a library in front of those the file needs, or takes away all entries of that name. -/
structure Documented (env : Env) : Prop where
  add : ∀ so appPath k, Plain so → Plain appPath →
    env.effect (addCommand so appPath) k = Function.update k appPath (so :: k appPath)
  remove : ∀ so appPath k, Plain so → Plain appPath →
    env.effect (removeCommand so appPath) k = Function.update k appPath ((k appPath).filter (· ≠ so))

/-- Every call succeeds. -/
def Succeeds (env : Env) : Prop := ∀ n, env.ret n = 0

/-! ### What should hold -/

/-- A call that fails leaves every list as it was, and one that is not preceded by another in force is undone by `Disable`,
    where all calls of patchelf succeed. -/
def Restored (env env' : Env) (config : List ConfigNode) (k : Needed) : Prop :=
  ((enable env config k).2.failed = true → (enable env config k).1.2 = k) ∧
    (config = [] → Succeeds env → Succeeds env' →
      (disable env' (enable env config k).1.1 (enable env config k).1.2).2 = k)

/-- What comes to be patched, if the call gets so far. -/
def accepted (env : Env) (config : List ConfigNode) : Option (List ConfigNode) :=
  if env.patchelf ∧ env.fileExist ∧ env.permission then
    (loadConfig env).bind (fun nodes =>
      if (config ++ nodes).all (checkExistingSo env) then some (config ++ nodes) else none)
  else none

/-- None of the objects is in its application's list already. -/
def Absent (config : List ConfigNode) (k : Needed) : Prop := ∀ p ∈ pairs config, p.1 ∉ k p.2

/-! ### The loops -/

section
variable {env env' : Env}

/-- All pairs are of plain words. -/
def PlainPairs (ps : List (Str × Str)) : Prop := ∀ p ∈ ps, Plain p.1 ∧ Plain p.2

/-- Calls put something in front, and nothing but what they are given. -/
theorem addAll_append (hdoc : Documented env) : ∀ {n : ℕ} {ps : List (Str × Str)} {k : Needed}, PlainPairs ps → ∀ appPath,
    ∃ l, (addAll env n ps k).1 appPath = l ++ k appPath ∧ ∀ x ∈ l, (x, appPath) ∈ ps
  | _, [], _, _, _ => ⟨[], rfl, fun x hx => absurd hx List.not_mem_nil⟩
  | n, (so, app) :: rest, k, hplain, appPath => by
    obtain ⟨⟨hso, happ⟩, hrest⟩ := List.forall_mem_cons.mp hplain
    rw [addAll]
    split
    · exact ⟨[], rfl, fun x hx => absurd hx List.not_mem_nil⟩
    · rw [hdoc.add so app k hso happ]
      obtain ⟨l, heq, hl⟩ := @addAll_append hdoc (n + 1) rest (Function.update k app (so :: k app)) hrest appPath
      rw [heq]
      rcases eq_or_ne appPath app with rfl | hne
      · refine ⟨l ++ [so], by rw [Function.update_self, List.append_assoc]; rfl, fun x hx => ?_⟩
        rcases List.mem_append.mp hx with hx | hx
        · exact List.mem_cons_of_mem _ (hl x hx)
        · rw [List.mem_singleton.mp hx]
          exact List.mem_cons_self
      · exact ⟨l, by rw [Function.update_of_ne hne], fun x hx => List.mem_cons_of_mem _ (hl x hx)⟩

theorem addAll_none_iff : ∀ {n : ℕ} {ps : List (Str × Str)} {k : Needed},
    (addAll env n ps k).2 = none ↔ ∀ i < ps.length, env.ret (n + i) = 0
  | n, [], k => by simp [addAll]
  | n, (so, app) :: rest, k => by
    rw [addAll]
    split
    · rename_i hret
      exact iff_of_false (fun h => by cases h) fun h => hret (h 0 (Nat.succ_pos _))
    · rename_i hret
      rw [addAll_none_iff]
      constructor
      · rintro h (_ | i) hi
        · exact not_not.mp hret
        · have := h i (Nat.lt_of_succ_lt_succ hi)
          rwa [Nat.add_right_comm] at this
      · intro h i hi
        have := h (i + 1) (Nat.succ_lt_succ hi)
        rwa [← Nat.add_assoc, Nat.add_right_comm] at this

/-- NOTHING TAKEN BACK: the lists are as they were just where no call was made, or the first one failed. -/
theorem addAll_eq_iff (hdoc : Documented env) {n : ℕ} {ps : List (Str × Str)} {k : Needed} (hplain : PlainPairs ps) :
    (addAll env n ps k).1 = k ↔ ps = [] ∨ env.ret n ≠ 0 := by
  cases ps with
  | nil => exact iff_of_true rfl (Or.inl rfl)
  | cons p rest =>
    obtain ⟨so, app⟩ := p
    obtain ⟨⟨hso, happ⟩, hrest⟩ := List.forall_mem_cons.mp hplain
    rw [addAll]
    split
    · rename_i hret
      exact iff_of_true rfl (Or.inr hret)
    · rename_i hret
      refine iff_of_false (fun heq => ?_) fun h => h.elim (fun h => by cases h) hret
      rw [hdoc.add so app k hso happ] at heq
      obtain ⟨l, hl, -⟩ := @addAll_append env hdoc (n + 1) rest (Function.update k app (so :: k app)) hrest app
      rw [heq, Function.update_self] at hl
      have hlength := congrArg List.length hl
      simp at hlength
      omega

theorem removeAll_eq (hdoc : Documented env) (hret : Succeeds env) : ∀ {n : ℕ} {ps : List (Str × Str)} {k : Needed},
    PlainPairs ps → ∀ appPath, removeAll env n ps k appPath = (k appPath).filter (fun x => (x, appPath) ∉ ps)
  | _, [], k, _, appPath => by simp [removeAll]
  | n, (so, app) :: rest, k, hplain, appPath => by
    obtain ⟨⟨hso, happ⟩, hrest⟩ := List.forall_mem_cons.mp hplain
    rw [removeAll, if_neg (by rw [hret]; exact fun h => h rfl), hdoc.remove so app k hso happ,
      removeAll_eq hdoc hret hrest]
    rcases eq_or_ne appPath app with rfl | hne
    · rw [Function.update_self, List.filter_filter]
      refine List.filter_congr fun x _ => ?_
      simp [Bool.and_comm]
    · rw [Function.update_of_ne hne]
      refine List.filter_congr fun x _ => ?_
      simp [hne]

/-- AND BACK: what is left of what was added in front is what there was, without what bears one of the names. -/
theorem removeAll_addAll (hdoc : Documented env) (hdoc' : Documented env') (hret' : Succeeds env') {ps : List (Str × Str)}
    {k : Needed} (hplain : PlainPairs ps) : removeAll env' 0 ps (addAll env 0 ps k).1 = k ↔ ∀ p ∈ ps, p.1 ∉ k p.2 := by
  have hlist : ∀ appPath, removeAll env' 0 ps (addAll env 0 ps k).1 appPath =
      (k appPath).filter (fun x => (x, appPath) ∉ ps) := by
    intro appPath
    obtain ⟨l, hl, hmem⟩ := @addAll_append env hdoc 0 ps k hplain appPath
    have hnil : l.filter (fun x => decide ((x, appPath) ∉ ps)) = [] := by
      rw [List.filter_eq_nil_iff]
      intro x hx
      simpa using hmem x hx
    rw [removeAll_eq hdoc' hret' hplain, hl, List.filter_append, hnil, List.nil_append]
  constructor
  · rintro h ⟨so, appPath⟩ hp hso
    have hfilter := (hlist appPath).symm.trans (congrFun h appPath)
    rw [List.filter_eq_self] at hfilter
    exact of_decide_eq_true (hfilter so hso) hp
  · intro h
    funext appPath
    rw [hlist, List.filter_eq_self]
    exact fun x hx => decide_eq_true fun hp => h _ hp hx

end

/-! ### The whole call -/

section
variable {env env' : Env} {config : List ConfigNode} {k : Needed}

theorem enable_refused (h : accepted env config = none) :
    ∃ c msg, enable env config k = ((c, k), failure msg) ∧ (config = [] → c = []) := by
  rw [accepted] at h
  rw [enable]
  split
  · exact ⟨config, _, rfl, id⟩
  · rename_i hpatchelf
    split
    · exact ⟨config, _, rfl, id⟩
    · rename_i hexist
      split
      · exact ⟨config, _, rfl, id⟩
      · rename_i hpermission
        rw [Bool.not_eq_false] at hpatchelf hexist hpermission
        rw [if_pos ⟨hpatchelf, hexist, hpermission⟩] at h
        cases hload : loadConfig env with
        | none => exact ⟨[], _, rfl, fun _ => rfl⟩
        | some nodes =>
          rw [hload, Option.bind_some] at h
          cases hfind : (config ++ nodes).find? (fun node => !checkExistingSo env node) with
          | some node =>
            dsimp only
            rw [hfind]
            exact ⟨[], _, rfl, fun _ => rfl⟩
          | none =>
            rw [List.find?_eq_none] at hfind
            rw [if_pos (List.all_eq_true.mpr fun node hnode => by simpa using hfind node hnode)] at h
            cases h

theorem enable_accepted {all : List ConfigNode} (h : accepted env config = some all) : enable env config k =
    match (addAll env 0 (pairs all) k).2 with
    | some cmd => (([], (addAll env 0 (pairs all) k).1), failure (str "failed to execute patchelf command: " ++ cmd))
    | none => ((all, (addAll env 0 (pairs all) k).1), resultOk) := by
  rw [accepted] at h
  split at h
  · rename_i hready
    obtain ⟨nodes, hload, h⟩ := Option.bind_eq_some_iff.mp h
    split at h
    · rename_i hall
      cases h
      have hnone : (config ++ nodes).find? (fun node => !checkExistingSo env node) = none := by
        rw [List.find?_eq_none]
        intro node hnode
        rw [List.all_eq_true.mp hall node hnode]
        exact Bool.false_ne_true
      rw [enable, if_neg (by rw [hready.1]; exact Bool.true_eq_false_eq_False),
        if_neg (by rw [hready.2.1]; exact Bool.true_eq_false_eq_False),
        if_neg (by rw [hready.2.2]; exact Bool.true_eq_false_eq_False), hload]
      dsimp only
      rw [hnone]
    · cases h
  · cases h

/-- ALL OR NOTHING: a call that fails leaves every list as it was, and a call is undone by `Disable` where nothing fails, just
    where all of its patches succeed or the first one fails, and no object is in its application's list already. -/
theorem needed_restored_iff (hdoc : Documented env) (hdoc' : Documented env')
    (hplain : ∀ all, accepted env config = some all → PlainPairs (pairs all)) :
    Restored env env' config k ↔ ∀ all, accepted env config = some all →
      (env.ret 0 ≠ 0 ∨ ∀ i < (pairs all).length, env.ret i = 0) ∧
      (config = [] → Succeeds env → Succeeds env' → Absent all k) := by
  cases haccepted : accepted env config with
  | none =>
    obtain ⟨c, msg, henable, hc⟩ := @enable_refused env config k haccepted
    rw [Restored, henable]
    refine iff_of_true ⟨fun _ => rfl, fun hnil _ _ => ?_⟩ fun all h => by cases h
    rw [hc hnil]
    rfl
  | some all =>
    have hpairs := hplain all haccepted
    have hok : (addAll env 0 (pairs all) k).2 = none ↔ ∀ i < (pairs all).length, env.ret i = 0 := by
      rw [addAll_none_iff]
      simp only [Nat.zero_add]
    rw [Restored, enable_accepted haccepted]
    simp only [Option.some.injEq, forall_eq']
    refine and_congr ?_ (forall_congr' fun _ => forall₂_congr fun hret hret' => ?_)
    · cases hcmd : (addAll env 0 (pairs all) k).2 with
      | none => exact iff_of_true (fun h => by cases h) (Or.inr (hok.mp hcmd))
      | some cmd =>
        have hfails : ¬ ∀ i < (pairs all).length, env.ret i = 0 := by
          rw [← hok, hcmd]
          exact Option.some_ne_none cmd
        have hne : pairs all ≠ [] := by
          intro hnil
          rw [hnil] at hfails
          exact hfails fun i hi => absurd hi (Nat.not_lt_zero i)
        rw [or_iff_left hfails]
        refine Iff.trans ⟨fun h => h rfl, fun h _ => h⟩ ((addAll_eq_iff hdoc hpairs).trans (or_iff_right hne))
    · rw [hok.mpr fun i _ => hret i]
      exact removeAll_addAll hdoc hdoc' hret' hpairs

end

/-! ### Samples -/

namespace Example

def app : Str := str "/bin/app"

/-- A command word by word. -/
def patchelf (cmd : Str) (k : Needed) : Needed :=
  match words isSpace cmd with
  | [_, op, so, file] =>
    Function.update k file (if op = str "--add-needed" then so :: k file else (k file).filter (· ≠ so))
  | _ => k

def document (sos : List Str) : Node :=
  .seq [.map [(str "apppath", .scalar app), (str "sopath", .seq (sos.map Node.scalar))]]

/-- One application with these objects, where the `n`-th call has the status `ret n`. -/
def sampleEnv (sos : List Str) (ret : ℕ → ℤ) : Env where
  patchelf := true
  fileExist := true
  permission := true
  document := some (document sos)
  access := fun _ => true
  ldd := fun _ => some [str "\tlibc.so.6 => /lib/libc.so.6 (0x7f)\n"]
  ret := ret
  effect := patchelf

def twoSos : List Str := [str "/lib/a.so", str "/lib/b.so"]

def sampleNeeded (needed : List Str) : Needed := fun file => if file = app then needed else []

theorem words_command {op so file : Str} (hop : op ≠ [] ∧ ∀ c ∈ op, isSpace c = false) (hso : Plain so)
    (hfile : Plain file) :
    words isSpace (str "patchelf" ++ 32 :: (op ++ 32 :: (so ++ 32 :: file))) = [str "patchelf", op, so, file] := by
  -- `all` goes through the characters of the word; `∀ c ∈` would be decided over all 256
  have hfront : ∀ c ∈ str "patchelf", isSpace c = false := List.all_iff_forall_prop.mp (by decide +kernel)
  rw [words_cons (by decide) hfront rfl, words_cons hop.1 hop.2 rfl, words_cons hso.1 (fun c hc => (hso.2.2 c hc).1) rfl,
    words_self hfile.1 fun c hc => (hfile.2.2 c hc).1]

theorem documented_sample (sos : List Str) (ret : ℕ → ℤ) : Documented (sampleEnv sos ret) where
  add := fun so file k hso hfile => by
    have hcmd : addCommand so file = str "patchelf" ++ 32 :: (str "--add-needed" ++ 32 :: (so ++ 32 :: file)) := by
      have hhead : str "patchelf --add-needed " = str "patchelf" ++ 32 :: (str "--add-needed" ++ [32]) := by decide
      rw [addCommand, hhead]
      simp [str]
    change patchelf (addCommand so file) k = _
    rw [hcmd, patchelf, words_command ⟨by decide, List.all_iff_forall_prop.mp (by decide +kernel)⟩ hso hfile]
    rfl
  remove := fun so file k hso hfile => by
    have hcmd : removeCommand so file = str "patchelf" ++ 32 :: (str "--remove-needed" ++ 32 :: (so ++ 32 :: file)) := by
      have hhead : str "patchelf --remove-needed " = str "patchelf" ++ 32 :: (str "--remove-needed" ++ [32]) := by decide
      rw [removeCommand, hhead]
      simp [str]
    change patchelf (removeCommand so file) k = _
    rw [hcmd, patchelf, words_command ⟨by decide, List.all_iff_forall_prop.mp (by decide +kernel)⟩ hso hfile]
    rfl

theorem accepted_two (ret : ℕ → ℤ) : accepted (sampleEnv twoSos ret) [] = some [⟨app, twoSos⟩] := rfl

theorem plain_two (ret : ℕ → ℤ) : ∀ all, accepted (sampleEnv twoSos ret) [] = some all → PlainPairs (pairs all) := by
  intro all hall
  rw [accepted_two] at hall
  cases hall
  have hplain : ∀ {s : Str}, s ≠ [] ∧ s.head? ≠ some 45 ∧ s.all (fun c => isSpace c = false ∧
      c ∉ str "|&;<>()$\\\"'*?[]#~!=%\x7b\x7d" ∧ c ≠ 96) = true → Plain s :=
    fun h => ⟨h.1, h.2.1, List.all_iff_forall_prop.mp h.2.2⟩
  have happ : Plain app := hplain (by decide +kernel)
  have hsos : ∀ so ∈ twoSos, Plain so := by
    intro so hso
    rcases List.mem_pair.mp hso with rfl | rfl
    · exact hplain (by decide +kernel)
    · exact hplain (by decide +kernel)
  intro p hp
  obtain ⟨so, hso, rfl⟩ := List.mem_map.mp (List.mem_append.mp hp |>.resolve_right List.not_mem_nil)
  exact ⟨hsos so hso, happ⟩

end Example

/-- Two objects are added to an application that needs another, and taken away again. -/
theorem needed_restored_iff_two : Restored (Example.sampleEnv Example.twoSos (fun _ => 0)) (Example.sampleEnv [] (fun _ => 0)) []
    (Example.sampleNeeded [str "libc.so.6"]) := by
  refine (needed_restored_iff (Example.documented_sample _ _) (Example.documented_sample _ _) (Example.plain_two _)).mpr
    fun all hall => ⟨Or.inr fun _ _ => rfl, fun _ _ _ => ?_⟩
  rw [Example.accepted_two] at hall
  cases hall
  have habsent : ∀ p ∈ pairs [⟨Example.app, Example.twoSos⟩], p.1 ∉ Example.sampleNeeded [str "libc.so.6"] p.2 := by
    decide +kernel
  exact habsent

/-- Where the second call fails, the first object stays; and an object that the application needs already, and whose line of
    `ldd` has no `.so`, is gone afterwards. -/
theorem needed_not_restored :
    ¬ Restored (Example.sampleEnv Example.twoSos (fun n => if n = 1 then 1 else 0)) (Example.sampleEnv [] (fun _ => 0)) []
      (Example.sampleNeeded [str "libc.so.6"]) ∧
    ¬ Restored (Example.sampleEnv [str "/lib/mine"] (fun _ => 0)) (Example.sampleEnv [] (fun _ => 0)) []
      (Example.sampleNeeded [str "/lib/mine", str "libc.so.6"]) := by
  refine ⟨fun h => ?_, fun h => ?_⟩
  · have hlist := congrFun (h.1 (by decide +kernel)) Example.app
    revert hlist
    decide +kernel
  · have hlist := congrFun (h.2 rfl (fun _ => rfl) fun _ => rfl) Example.app
    revert hlist
    decide +kernel

end PreloadTune
end OeAware

import OeAware.Analysis.Instance
import OeAware.Common.Extract
import OeAware.Common.Yaml
import OeAware.Schemes.Restore
import OeAware.Tune.XcallTune

/-! @src src/plugin/tune/docker/coordination_burst/coordination_burst_adapt.cpp | name:CoordinationBurstAdapt | scheme:restore

    `Enable` sets a ratio of the kernel and then the soft quota of some containers; where one of these cannot be set, it
    takes back what it has done, as `Disable` does for all containers.

        docker ps ──▶ allContainers, what their quotas are ──┐
        param, docker_burst.yaml ──▶ ratio, containers ──────┴─▶ SetRatio ─▶ SetSoftQuota 1 ─ ─ ✗ ─▶ RollBack

    What was the ratio is put back through `SetRatio`, which takes a ratio from 1 to 20 only. -/

namespace OeAware
open Schemes
open XcallTune (isInteger)

namespace CoordinationBurst

/-! ### State -/

def DEFAULT_RATIO : ℤ := 20
def MAX_RATIO : ℤ := 20
def MIN_RATIO : ℤ := 1

def LONG_DOCKER_ID_LENGTH : ℕ := 64
def SHORT_DOCKER_ID_LENGTH : ℕ := 12

def SCHED_SOFT_RUNTIME_RATIO_PATH : Str := str "/proc/sys/kernel/sched_soft_runtime_ratio"
def DOCKER_COORDINATION_BURST_CONFIG_PATH : Str := str "/etc/oeAware/plugin" ++ str "/docker_burst.yaml"

structure State where
  ratio : ℤ
  originRatio : ℤ
  isDockerListSet : Bool
  isRatioSet : Bool
  containers : UMap Str Str
  allContainers : UMap Str Str
  allContainerOriginSoftQuota : UMap Str ℤ

/-- The texts of the ratio, and of the soft quota under each path. -/
structure Kernel where
  ratio : Str
  quota : Str → Str

/-- Whether a file can be opened for writing, and whether it takes what is written. -/
structure Writing where
  opens : Bool
  takes : Bool
  deriving DecidableEq

/-- What a call meets: whether the ratio can be opened, for reading, and for both as `GetRatio` does; the containers, their
    paths, and which quota can be read; the order of the maps and of the set; what is made of the parameters as a
    document, of a text as an `int`, and what is said where something is no text; the configuration, where it can be
    opened; and which writes succeed, of those that set and of those that put back. -/
structure Env where
  ratioFile : Bool
  ratioBoth : Bool
  dockers : List Str
  cgroupPath : Str → Str
  quotaFile : Str → Bool
  order : List Str
  load : Str → Except Str Node
  asInt : Str → Except Str ℤ
  badString : Str
  config : Option (Except Str Node)
  setsRatio : Writing
  setsQuota : Str → Bool
  restoresRatio : Writing
  restoresQuota : Str → Bool

/-! ### The files -/

def checkEnv (env : Env) : Bool := env.ratioFile

def getRatio (env : Env) (k : Kernel) : ℤ := if env.ratioBoth then extractInt k.ratio ( MIN_RATIO - 1) else MIN_RATIO - 1

/-- `SetRatio`: what becomes of the kernel, and the message where it fails. -/
def setRatio (file : Writing) (ratioValue : ℤ) (k : Kernel) : Kernel × Option Str :=
  if ratioValue < MIN_RATIO ∨ MAX_RATIO < ratioValue then
    (k, some (str "ratio is invalid. The ratio must be in [" ++ showInt MIN_RATIO ++ str ", " ++ showInt MAX_RATIO ++
      str "]."))
  else if file.opens = false then (k, some (str "Failed to open file: " ++ SCHED_SOFT_RUNTIME_RATIO_PATH ++ str "."))
  else if file.takes then ({ k with ratio := showLine ratioValue }, none)
  else (k, some (str "Failed to flush " ++ showInt ratioValue ++ str " to file: " ++ SCHED_SOFT_RUNTIME_RATIO_PATH ++
    str "."))

def getSoftQuota (env : Env) (k : Kernel) (cgroupPath : Str) : ℤ :=
  if env.quotaFile cgroupPath then extractInt (k.quota cgroupPath) (-1) else -1

def setSoftQuota (succeeds : Bool) (softQuota : ℤ) (cgroupPath : Str) (k : Kernel) : Kernel × Bool :=
  if succeeds then ({ k with quota := Function.update k.quota cgroupPath (showLine softQuota) }, true) else (k, false)

/-! ### The parameters -/

/-- Why a document is not taken: a message, or what is thrown. -/
inductive Failure where
  | message (retMsg : Str)
  | thrown (what : Str)

def Failure.text (wrap : Str → Str) : Failure → Str
  | .message retMsg => retMsg
  | .thrown what => wrap what

/-- What is done next, where nothing has failed. -/
def andThen {ε : Type} (r : State × Option ε) (f : State → State × Option ε) : State × Option ε :=
  match r.2 with
  | some e => (r.1, some e)
  | none => f r.1

/-- What is done with what is under a key, if anything is. -/
def ifPresent {ε : Type} (node : Option Node) (f : Node → State → State × Option ε) (s : State) : State × Option ε :=
  match node with
  | some node => f node s
  | none => (s, none)

def withText (wrap : Str → Str) (r : State × Option Failure) : State × Option Str := (r.1, r.2.map (Failure.text wrap))

/-- The second expression of `FixYaml`: a comma and the blanks behind it; `skip` where there are such before. -/
def fixCommas : Bool → Str → Str
  | _, [] => []
  | skip, c :: rest =>
    if skip = true ∧ isSpace c = true then fixCommas true rest
    else if c = 44 then 44 :: 32 :: fixCommas true rest
    else c :: fixCommas false rest

def fixYaml (raw : Str) : Str := fixCommas false (raw.flatMap (fun c => if c = 58 then [58, 32] else [c]))

def hasSpecialChar (s : Str) : Bool :=
  s.any (fun c => c ∉ str "abcdefjhijklmnopqrstuvwxyz0123456789:_[],. \x7b\x7d")

def checkYamlParam : Node → Option Str
  | .map pairs =>
    let invalidKeys := pairs.foldl (fun invalid p =>
      if p.1 ≠ str "ratio" ∧ p.1 ≠ str "docker_id" then invalid ++ (p.1 ++ str " ") else invalid) []
    if invalidKeys = [] then none
    else some (str "CoordinationBurstAdapt ParseParam " ++ invalidKeys ++ str "is invalid." ++
      str " Please use cli param '-docker_id [id1,id2] -ratio 20' or set docker_id and ratio in " ++
      DOCKER_COORDINATION_BURST_CONFIG_PATH)
  | _ => some (str "CoordinationBurstAdapt ParseParam config format is invalid.")

/-- `ParseYamlRatio`, of what is under `ratio`. -/
def parseYamlRatio (env : Env) (node : Node) (s : State) : State × Option Failure :=
  match node.asString with
  | none => (s, some (.thrown env.badString))
  | some ratioString =>
    if isInteger ratioString = false then
      (s, some (.message (str "CoordinationBurstAdapt Param ratio should be integer.")))
    else match env.asInt ratioString with
      | .error what => (s, some (.thrown what))
      | .ok ratio => ({ s with ratio := ratio, isRatioSet := true }, none)

def updateDockerInfo (env : Env) (s : State) (dockerId : Str) : State :=
  if dockerId.length = LONG_DOCKER_ID_LENGTH then
    match s.allContainers.find dockerId with
    | some path => { s with containers := s.containers.insert dockerId path }
    | none => s
  else if dockerId.length = SHORT_DOCKER_ID_LENGTH then
    match ((s.allContainers.reorder env.order).keys.find? (fun id => id.take SHORT_DOCKER_ID_LENGTH = dockerId)) with
    | some id => { s with containers := s.containers.insert id ((s.allContainers.find id).getD []) }
    | none => s
  else s

/-- The loop of `ParseParam` over a sequence. -/
def updateEach (env : Env) : List Node → State → State × Option Failure
  | [], s => (s, none)
  | id :: ids, s =>
    match id.asString with
    | none => (s, some (.thrown env.badString))
    | some dockerId => updateEach env ids (updateDockerInfo env s dockerId)

/-- What a sequence has, or the node alone. -/
def idsOf : Node → List Node
  | .seq ids => ids
  | node => [node]

/-- What `ParseParam` makes of `docker_id`. -/
def parseDockerId (env : Env) (node : Node) (s : State) : State × Option Failure :=
  andThen (updateEach env (idsOf node) s) (fun s => ({ s with isDockerListSet := true }, none))

/-- What a map has under a key. -/
def lookup (key : Str) : Node → Option Node
  | .map pairs => pairs.lookup key
  | _ => none

/-- The two keys, one after the other. -/
def parseBoth (env : Env) (parsedConfig : Node) (s : State) : State × Option Failure :=
  andThen (ifPresent (lookup (str "ratio") parsedConfig) (parseYamlRatio env) s)
    (ifPresent (lookup (str "docker_id") parsedConfig) (parseDockerId env))

/-- `ParseParam`, with the message where it fails. -/
def parseParam (env : Env) (param : Str) (s : State) : State × Option Str :=
  let paramStr := fixYaml (str "\x7b" ++ param ++ str "\x7d")
  let failed := fun what => str "CoordinationBurstAdapt ParseParam format parse failed: " ++ what
  if hasSpecialChar paramStr then (s, some (str "Input param has invalid character."))
  else match env.load paramStr with
    | .error what => (s, some (failed what))
    | .ok parsedConfig =>
      match checkYamlParam parsedConfig with
      | some retMsg => (s, some retMsg)
      | none => withText failed (parseBoth env parsedConfig s)

/-- What `ReadConfig` makes of `docker_id`, if it is a sequence: the whole of it is converted first. -/
def readDockerList (env : Env) (node : Node) (s : State) : State × Option Failure :=
  match node with
  | .seq ids =>
    match ids.mapM Node.asString with
    | none => (s, some (.thrown env.badString))
    | some dockerList =>
      ({ dockerList.foldl (updateDockerInfo env) s with isDockerListSet := dockerList ≠ [] }, none)
  | _ => (s, none)

/-- `ReadConfig`. -/
def readConfig (env : Env) (s : State) : State × Option Str :=
  let failed := fun what => str "CoordinationBurstAdapt read config from " ++ DOCKER_COORDINATION_BURST_CONFIG_PATH ++
    str " YAML parse failed: " ++ what
  match env.config with
  | none => (s, some (DOCKER_COORDINATION_BURST_CONFIG_PATH ++ str " config open failed."))
  | some (.error what) => (s, some (failed what))
  | some (.ok config) =>
    match checkYamlParam config with
    | some retMsg => (s, some retMsg)
    | none => withText failed (andThen
        (if s.isRatioSet then (s, none) else ifPresent (lookup (str "ratio") config) (parseYamlRatio env) s)
        (fun s => if s.isDockerListSet then (s, none)
          else ifPresent (lookup (str "docker_id") config) (readDockerList env) s))

/-! ### `Enable` and `Disable` -/

/-- One container of `GetAllDockers`. -/
def addDocker (env : Env) (k : Kernel) (s : State) (dockerId : Str) : State :=
  if env.cgroupPath dockerId = [] then s
  else { s with
    allContainers := s.allContainers.insert dockerId (env.cgroupPath dockerId)
    allContainerOriginSoftQuota :=
      s.allContainerOriginSoftQuota.insert dockerId (getSoftQuota env k (env.cgroupPath dockerId)) }

def getAllDockers (env : Env) (k : Kernel) (s : State) : State :=
  env.dockers.foldl (addDocker env k) { s with allContainers := .empty, allContainerOriginSoftQuota := .empty }

/-- `Init`, where the ratio can be opened. -/
def reset (env : Env) (k : Kernel) (s : State) : State :=
  { getAllDockers env k s with
    originRatio := getRatio env k, isDockerListSet := false, isRatioSet := false, containers := .empty
    ratio := DEFAULT_RATIO }

/-- The containers, where none is named. -/
def chooseContainers (s : State) : State × Option Str :=
  if s.containers.keys = [] then
    if s.isDockerListSet then
      (s, some (str "All config docker_id is invalid.Cannot found cgroup path or docker not exist."))
    else ({ s with containers := s.allContainers }, none)
  else (s, none)

/-- What `Enable` makes of the parameters and the configuration, before it writes anything. -/
def request (env : Env) (param : Str) (s : State) : State × Option Str :=
  andThen (andThen (parseParam env param s)
    (fun s => if s.isDockerListSet = false ∨ s.isRatioSet = false then readConfig env s else (s, none))) chooseContainers

/-- What was the quota of a container. -/
def restoreQuota (env : Env) (s : State) (k : Kernel) (id : Str) : Kernel :=
  let path := (s.allContainers.find id).getD []
  (setSoftQuota (env.restoresQuota path) ((s.allContainerOriginSoftQuota.find id).getD 0) path k).1

/-- `RollBack`. -/
def rollBack (env : Env) (s : State) (succeedContainers : List Str) (k : Kernel) : Kernel :=
  succeedContainers.foldl (restoreQuota env s) (setRatio env.restoresRatio s.originRatio k).1

/-- The loop of `Enable` over the containers. -/
def setAll (env : Env) (s : State) : List Str → USet Str → Kernel → Kernel × Result
  | [], _, k => (k, resultOk)
  | id :: ids, succeedContainers, k =>
    let path := (s.containers.find id).getD []
    let r := setSoftQuota (env.setsQuota path) 1 path k
    if r.2 then setAll env s ids (succeedContainers.insert id) r.1
    else (rollBack env s (succeedContainers.reorder env.order).elems r.1,
      failure (str "Set soft quota to " ++ id ++ str " failed."))

/-- `Enable`. -/
def enable (env : Env) (param : Str) (s : State) (k : Kernel) : (State × Kernel) × Result :=
  if checkEnv env = false then ((s, k), failure (str "Docker coordination burst init failed. may not support."))
  else
    let r := request env param (reset env k s)
    match r.2 with
    | some retMsg => ((r.1, k), failure retMsg)
    | none =>
      let w := setRatio env.setsRatio r.1.ratio k
      match w.2 with
      | some retMsg => ((r.1, w.1), failure retMsg)
      | none =>
        let all := setAll env r.1 (r.1.containers.reorder env.order).keys .empty w.1
        ((r.1, all.1), all.2)

/-- `Disable`. -/
def disable (env : Env) (s : State) (k : Kernel) : Kernel :=
  if checkEnv env = false then k else rollBack env s (s.allContainers.reorder env.order).keys k

/-! ### What is recorded -/

def InRange (ratio : ℤ) : Prop := MIN_RATIO ≤ ratio ∧ ratio ≤ MAX_RATIO

instance (ratio : ℤ) : Decidable (InRange ratio) := inferInstanceAs (Decidable (_ ∧ _))

def IsInt (n : ℤ) : Prop := -2 ^ 31 ≤ n ∧ n < 2 ^ 31

/-- The ratio and the quotas can be read, and are numbers. -/
structure Reads (env : Env) (k : Kernel) : Prop where
  ratioFile : env.ratioFile = true
  ratioBoth : env.ratioBoth = true
  ratio : ∃ n, IsInt n ∧ k.ratio = showLine n
  quota : ∀ id ∈ env.dockers, env.quotaFile (env.cgroupPath id) = true ∧
    ∃ q, IsInt q ∧ k.quota (env.cgroupPath id) = showLine q

/-- The writes succeed that put back. -/
structure Restores (env : Env) : Prop where
  ratio : env.restoresRatio = ⟨true, true⟩
  quota : ∀ path, env.restoresQuota path = true

/-- What there is in the kernel is recorded, and the containers are some of all. -/
structure Knows (s : State) (k : Kernel) : Prop where
  ratio : showLine s.originRatio = k.ratio
  quota : ∀ id p, s.allContainers.find id = some p →
    showLine ((s.allContainerOriginSoftQuota.find id).getD 0) = k.quota p
  sub : ∀ id p, s.containers.find id = some p → s.allContainers.find id = some p

section
variable {env : Env} {k : Kernel} {s : State}

theorem getRatio_eq (h : Reads env k) : showLine (getRatio env k) = k.ratio := by
  obtain ⟨n, ⟨hlow, hhigh⟩, hratio⟩ := h.ratio
  rw [getRatio, if_pos h.ratioBoth, hratio, extractInt_showLine hlow hhigh]

theorem getSoftQuota_eq (h : Reads env k) {id : Str} (hid : id ∈ env.dockers) :
    showLine (getSoftQuota env k (env.cgroupPath id)) = k.quota (env.cgroupPath id) := by
  obtain ⟨hfile, q, ⟨hlow, hhigh⟩, hquota⟩ := h.quota id hid
  rw [getSoftQuota, if_pos hfile, hquota, extractInt_showLine hlow hhigh]

theorem quota_foldl (h : Reads env k) : ∀ {ids : List Str} {s : State}, (∀ id ∈ ids, id ∈ env.dockers) →
    (∀ id p, s.allContainers.find id = some p →
      showLine ((s.allContainerOriginSoftQuota.find id).getD 0) = k.quota p) →
    ∀ id p, (ids.foldl (addDocker env k) s).allContainers.find id = some p →
      showLine (((ids.foldl (addDocker env k) s).allContainerOriginSoftQuota.find id).getD 0) = k.quota p
  | [], _, _, hs => hs
  | id :: ids, s, hids, hs => by
    obtain ⟨hid, hids⟩ := List.forall_mem_cons.mp hids
    rw [List.foldl_cons]
    refine quota_foldl h hids fun id' p hfind => ?_
    rw [addDocker] at hfind ⊢
    split at hfind
    · rename_i hnil
      rw [if_pos hnil]
      exact hs id' p hfind
    · rename_i hne
      rw [if_neg hne]
      dsimp only at hfind ⊢
      rw [UMap.find_insert] at hfind ⊢
      split at hfind
      · rename_i heq
        rw [if_pos heq]
        cases hfind
        exact getSoftQuota_eq h hid
      · rename_i hother
        rw [if_neg hother]
        exact hs id' p hfind

theorem knows_reset (h : Reads env k) : Knows (reset env k s) k where
  ratio := getRatio_eq h
  quota := quota_foldl h (fun _ hid => hid) fun id p hfind => by cases hfind
  sub := fun id p hfind => by cases hfind

/-! ### The parameters change none of it -/

theorem knows_parseYamlRatio {node : Node} (h : Knows s k) : Knows (parseYamlRatio env node s).1 k := by
  rw [parseYamlRatio]
  split
  · exact h
  · split
    · exact h
    · split
      · exact h
      · exact ⟨h.ratio, h.quota, h.sub⟩

theorem knows_updateDockerInfo {dockerId : Str} (h : Knows s k) : Knows (updateDockerInfo env s dockerId) k := by
  have hinsert : ∀ {id path : Str}, s.allContainers.find id = some path →
      Knows { s with containers := s.containers.insert id path } k := by
    intro id path hpath
    refine ⟨h.ratio, h.quota, fun id' p hfind => ?_⟩
    rw [UMap.find_insert] at hfind
    split at hfind
    · rename_i heq
      cases hfind
      rw [heq]
      exact hpath
    · exact h.sub id' p hfind
  rw [updateDockerInfo]
  split
  · split
    · rename_i path hpath
      exact hinsert hpath
    · exact h
  · split
    · split
      · rename_i id hid
        have hmem := List.mem_of_find?_eq_some hid
        rw [UMap.mem_keys_reorder, UMap.mem_keys] at hmem
        obtain ⟨path, hpath⟩ := Option.isSome_iff_exists.mp hmem
        rw [hpath]
        exact hinsert hpath
      · exact h
    · exact h

theorem knows_updateEach : ∀ {ids : List Node} {s : State}, Knows s k → Knows (updateEach env ids s).1 k
  | [], _, h => h
  | id :: ids, s, h => by
    rw [updateEach]
    split
    · exact h
    · exact knows_updateEach (knows_updateDockerInfo h)

theorem knows_foldl : ∀ {ids : List Str} {s : State}, Knows s k → Knows (ids.foldl (updateDockerInfo env) s) k
  | [], _, h => h
  | _ :: ids, _, h => @knows_foldl ids _ (knows_updateDockerInfo h)

theorem knows_andThen {ε : Type} {r : State × Option ε} {f : State → State × Option ε} (h : Knows r.1 k)
    (hf : ∀ {s}, Knows s k → Knows (f s).1 k) : Knows (andThen r f).1 k := by
  rw [andThen]
  split
  · exact h
  · exact hf h

theorem knows_ifPresent {ε : Type} {node : Option Node} {f : Node → State → State × Option ε} (h : Knows s k)
    (hf : ∀ {node}, Knows (f node s).1 k) : Knows (ifPresent node f s).1 k := by
  cases node with
  | some node => exact hf
  | none => exact h

theorem knows_parseDockerId {node : Node} (h : Knows s k) : Knows (parseDockerId env node s).1 k :=
  knows_andThen (knows_updateEach h) fun h => ⟨h.ratio, h.quota, h.sub⟩

theorem knows_parseParam {param : Str} (h : Knows s k) : Knows (parseParam env param s).1 k := by
  rw [parseParam]
  split
  · exact h
  · split
    · exact h
    · split
      · exact h
      · exact knows_andThen (knows_ifPresent h (knows_parseYamlRatio h)) fun h => knows_ifPresent h (knows_parseDockerId h)

theorem knows_readDockerList {node : Node} (h : Knows s k) : Knows (readDockerList env node s).1 k := by
  rw [readDockerList.eq_def]
  split
  · split
    · exact h
    · rename_i dockerList _
      have hall := @knows_foldl env k dockerList s h
      exact ⟨hall.ratio, hall.quota, hall.sub⟩
  · exact h

theorem knows_readConfig (h : Knows s k) : Knows (readConfig env s).1 k := by
  rw [readConfig]
  split
  · exact h
  · exact h
  · split
    · exact h
    · rw [withText]
      refine knows_andThen ?_ fun {s} h => ?_
      · split
        · exact h
        · exact knows_ifPresent h (knows_parseYamlRatio h)
      · split
        · exact h
        · exact knows_ifPresent h (knows_readDockerList h)

theorem knows_chooseContainers (h : Knows s k) : Knows (chooseContainers s).1 k := by
  rw [chooseContainers]
  split
  · split
    · exact h
    · exact ⟨h.ratio, h.quota, fun id p hfind => hfind⟩
  · exact h

/-- What is recorded is there when the writing begins. -/
theorem knows_request {param : Str} (h : Knows s k) : Knows (request env param s).1 k := by
  refine knows_andThen (knows_andThen (knows_parseParam h) fun {s} h => ?_) knows_chooseContainers
  split
  · exact knows_readConfig h
  · exact h

/-! ### What is written -/

theorem inRange_iff {ratioValue : ℤ} : InRange ratioValue ↔ ¬ (ratioValue < MIN_RATIO ∨ MAX_RATIO < ratioValue) := by
  rw [InRange, not_or, Int.not_lt, Int.not_lt]

theorem setRatio_ok_iff {file : Writing} {ratioValue : ℤ} :
    (setRatio file ratioValue k).2 = none ↔ InRange ratioValue ∧ file = ⟨true, true⟩ := by
  obtain ⟨opens, takes⟩ := file
  rw [setRatio, inRange_iff]
  split
  · rename_i hout
    exact iff_of_false (fun h => by cases h) fun h => h.1 hout
  · rename_i hin
    cases opens <;> cases takes <;> simp [hin]

/-- A ratio that is not in the range is not written. -/
theorem setRatio_eq {file : Writing} {ratioValue : ℤ} : (setRatio file ratioValue k).1 =
    if InRange ratioValue ∧ file = ⟨true, true⟩ then { k with ratio := showLine ratioValue } else k := by
  obtain ⟨opens, takes⟩ := file
  rw [setRatio]
  split
  · rename_i hout
    rw [if_neg fun h => inRange_iff.mp h.1 hout]
  · rename_i hin
    have hin := inRange_iff.mpr hin
    cases opens <;> cases takes <;> simp [hin]

/-- Where the container's quota is. -/
def State.path (s : State) (id : Str) : Str := (s.allContainers.find id).getD []

theorem foldl_restoreQuota (h : Restores env) : ∀ {ids : List Str} {k' : Kernel},
    ids.foldl (restoreQuota env s) k' = { k' with
      quota := ids.foldl (fun quota id => Function.update quota (s.path id)
        (showLine ((s.allContainerOriginSoftQuota.find id).getD 0))) k'.quota }
  | [], _ => rfl
  | id :: ids, k' => by
    rw [List.foldl_cons, foldl_restoreQuota h, restoreQuota, setSoftQuota, h.quota]
    rfl

/-- TAKEN BACK: where no quota differs but those that are put back, all of them are as they were; and so is the ratio, if it
    was one that `SetRatio` takes. -/
theorem rollBack_eq (h : Restores env) (hknows : Knows s k) {ids : List Str} {k' : Kernel}
    (hids : ∀ id ∈ ids, ∃ p, s.allContainers.find id = some p)
    (halike : AlikeBut (fun p => ∃ id ∈ ids, s.path id = p) k'.quota k.quota) :
    rollBack env s ids k' = ⟨if InRange s.originRatio then k.ratio else k'.ratio, k.quota⟩ := by
  have hback : ∀ id ∈ ids, showLine ((s.allContainerOriginSoftQuota.find id).getD 0) = k.quota (s.path id) := by
    intro id hid
    obtain ⟨p, hp⟩ := hids id hid
    rw [State.path, hp]
    exact hknows.quota id p hp
  have hratio : (setRatio env.restoresRatio s.originRatio k').1 =
      ⟨if InRange s.originRatio then k.ratio else k'.ratio, k'.quota⟩ := by
    rw [setRatio_eq, h.ratio]
    rcases em (InRange s.originRatio) with hin | hout
    · simp [hin, hknows.ratio]
    · simp [hout]
  rw [rollBack, hratio, foldl_restoreQuota h, foldl_update_back hback halike]

/-- The loop sets the quotas of all containers, or takes back what it has done. -/
theorem setAll_cases (h : Restores env) (hknows : Knows s k) : ∀ {ids : List Str} {succeed : USet Str} {k' : Kernel},
    (∀ id ∈ ids, ∃ p, s.containers.find id = some p) → (∀ id ∈ succeed.elems, ∃ p, s.allContainers.find id = some p) →
    AlikeBut (fun p => ∃ id ∈ succeed.elems, s.path id = p) k'.quota k.quota →
    ((setAll env s ids succeed k').2.failed = false ∧ (setAll env s ids succeed k').1.ratio = k'.ratio ∧
        AlikeBut (fun p => ∃ id ∈ s.allContainers.keys, s.path id = p) (setAll env s ids succeed k').1.quota k.quota) ∨
      ((setAll env s ids succeed k').2.failed = true ∧
        (setAll env s ids succeed k').1 = ⟨if InRange s.originRatio then k.ratio else k'.ratio, k.quota⟩)
  | [], succeed, k', _, hsucceed, halike => by
    refine Or.inl ⟨rfl, rfl, halike.mono ?_⟩
    rintro p ⟨id, hid, rfl⟩
    obtain ⟨p, hp⟩ := hsucceed id hid
    exact ⟨id, UMap.mem_keys_of_find hp, rfl⟩
  | id :: ids, succeed, k', hids, hsucceed, halike => by
    obtain ⟨⟨p, hp⟩, hids⟩ := List.forall_mem_cons.mp hids
    have hall := hknows.sub id p hp
    have hpath : (s.containers.find id).getD [] = s.path id := by rw [State.path, hp, hall]
    rw [setAll, hpath]
    rcases Bool.eq_false_or_eq_true (env.setsQuota (s.path id)) with hset | hset
    · have hr : setSoftQuota (env.setsQuota (s.path id)) 1 (s.path id) k' =
          ({ k' with quota := Function.update k'.quota (s.path id) (showLine 1) }, true) := by rw [setSoftQuota, if_pos hset]
      rw [hr]
      refine setAll_cases h hknows hids (fun id' hid' => ?_) (AlikeBut.update (halike.mono ?_) ⟨id, by simp, rfl⟩ _)
      · rcases USet.mem_insert.mp hid' with rfl | hid'
        · exact ⟨p, hall⟩
        · exact hsucceed id' hid'
      · rintro q ⟨id', hid', rfl⟩
        exact ⟨id', USet.mem_insert.mpr (Or.inr hid'), rfl⟩
    · have hr : setSoftQuota (env.setsQuota (s.path id)) 1 (s.path id) k' = (k', false) := by
        rw [setSoftQuota, if_neg (by rw [hset]; exact Bool.false_ne_true)]
      rw [hr]
      refine Or.inr ⟨rfl, rollBack_eq h hknows (fun id' hid' => hsucceed id' (USet.mem_reorder.mp hid')) ?_⟩
      refine halike.mono ?_
      rintro q ⟨id', hid', rfl⟩
      exact ⟨id', USet.mem_reorder.mpr hid', rfl⟩

theorem disable_eq (h : Restores env) (hfile : env.ratioFile = true) (hknows : Knows s k) {k' : Kernel}
    (halike : AlikeBut (fun p => ∃ id ∈ s.allContainers.keys, s.path id = p) k'.quota k.quota) :
    disable env s k' = ⟨if InRange s.originRatio then k.ratio else k'.ratio, k.quota⟩ := by
  rw [disable, checkEnv, if_neg (by rw [hfile]; exact Bool.true_eq_false_eq_False)]
  refine rollBack_eq h hknows (fun id hid => ?_) (halike.mono ?_)
  · rw [UMap.mem_keys_reorder, UMap.mem_keys] at hid
    exact Option.isSome_iff_exists.mp hid
  · rintro p ⟨id, hid, rfl⟩
    exact ⟨id, UMap.mem_keys_reorder .. |>.mpr hid, rfl⟩

/-! ### A whole call -/

/-- The call comes to the point where it writes the ratio: parameters and configuration are taken, the ratio is in the range,
    and the file takes it. -/
def Sets (env : Env) (param : Str) (s : State) (k : Kernel) : Prop :=
  (request env param (reset env k s)).2 = none ∧ InRange (request env param (reset env k s)).1.ratio ∧
    env.setsRatio = ⟨true, true⟩

instance (env : Env) (param : Str) (s : State) (k : Kernel) : Decidable (Sets env param s k) :=
  inferInstanceAs (Decidable (_ ∧ _ ∧ _))

/-- A call that fails leaves all as it was, and `Disable` after the call, failed or not, brings all back. -/
def Restored (env env' : Env) (param : Str) (s : State) (k : Kernel) : Prop :=
  ((enable env param s k).2.failed = true → (enable env param s k).1.2 = k) ∧
    disable env' (enable env param s k).1.1 (enable env param s k).1.2 = k

variable {param : Str}

theorem enable_idle (hfile : env.ratioFile = true) (h : ¬ Sets env param s k) :
    ∃ msg, enable env param s k = (((request env param (reset env k s)).1, k), failure msg) := by
  rw [enable, checkEnv, if_neg (by rw [hfile]; exact Bool.true_eq_false_eq_False)]
  rw [Sets] at h
  generalize request env param (reset env k s) = r at h
  obtain ⟨s', _ | msg⟩ := r
  · cases hmsg : (setRatio env.setsRatio s'.ratio k).2 with
    | none => exact absurd ⟨rfl, setRatio_ok_iff.mp hmsg⟩ h
    | some msg =>
      refine ⟨msg, ?_⟩
      dsimp only
      rw [hmsg, setRatio_eq, if_neg fun hok => h ⟨rfl, hok⟩]
  · exact ⟨msg, rfl⟩

theorem enable_sets (hfile : env.ratioFile = true) (h : Sets env param s k) : enable env param s k =
    (((request env param (reset env k s)).1, (setAll env (request env param (reset env k s)).1
      ((request env param (reset env k s)).1.containers.reorder env.order).keys .empty
      { k with ratio := showLine (request env param (reset env k s)).1.ratio }).1),
    (setAll env (request env param (reset env k s)).1
      ((request env param (reset env k s)).1.containers.reorder env.order).keys .empty
      { k with ratio := showLine (request env param (reset env k s)).1.ratio }).2) := by
  rw [enable, checkEnv, if_neg (by rw [hfile]; exact Bool.true_eq_false_eq_False)]
  rw [Sets] at h
  generalize request env param (reset env k s) = r at h
  obtain ⟨s', _ | msg⟩ := r
  · dsimp only at h ⊢
    rw [setRatio_ok_iff.mpr h.2, setRatio_eq, if_pos h.2]
  · cases h.1

/-- BACK AS IT WAS: whatever the containers, the parameters and the configuration, and whichever quotas cannot be set, a call
    that fails leaves all as it was, and `Disable` brings all back, just where the ratio was from 1 to 20 or the call does
    not come to writing one. -/
theorem quota_restored_iff {env' : Env} {n : ℤ} (hratio : k.ratio = showLine n) (hreads : Reads env k)
    (hfile' : env'.ratioFile = true) (hrest : Restores env) (hrest' : Restores env') :
    Restored env env' param s k ↔ InRange n ∨ ¬ Sets env param s k := by
  have hknows : Knows (request env param (reset env k s)).1 k := knows_request (knows_reset hreads)
  have horigin : (request env param (reset env k s)).1.originRatio = n := showLine_injective (hknows.ratio.trans hratio)
  rcases em (Sets env param s k) with hsets | hidle
  · have hcases := @setAll_cases env k _ hrest hknows
      ((request env param (reset env k s)).1.containers.reorder env.order).keys .empty
      { k with ratio := showLine (request env param (reset env k s)).1.ratio }
      (fun id hid => by
        rw [UMap.mem_keys_reorder, UMap.mem_keys] at hid
        exact Option.isSome_iff_exists.mp hid)
      (fun id hid => by cases hid) AlikeBut.refl
    have hset := hsets.2.1
    rw [or_iff_left (not_not.mpr hsets), Restored, enable_sets hreads.ratioFile hsets]
    generalize request env param (reset env k s) = r at hknows horigin hcases hset
    rw [horigin] at hcases
    have hne : ¬ InRange n → showLine r.1.ratio ≠ k.ratio := by
      intro hout heq
      rw [hratio] at heq
      exact hout (showLine_injective heq ▸ hset)
    rcases hcases with ⟨hok, hkept, halike⟩ | ⟨hfailed, heq⟩
    · have hdis := disable_eq hrest' hfile' hknows halike
      rw [horigin, hkept] at hdis
      dsimp only
      rw [hdis, hok]
      rcases em (InRange n) with hin | hout
      · rw [if_pos hin]
        exact iff_of_true ⟨Bool.noConfusion, rfl⟩ hin
      · rw [if_neg hout]
        exact iff_of_false (fun h => hne hout (congrArg Kernel.ratio h.2)) hout
    · have hdis := @disable_eq env' k r.1 hrest' hfile' hknows
        ⟨if InRange n then k.ratio else showLine r.1.ratio, k.quota⟩ AlikeBut.refl
      rw [horigin] at hdis
      dsimp only
      rw [heq, hdis, hfailed]
      rcases em (InRange n) with hin | hout
      · rw [if_pos hin, if_pos hin]
        exact iff_of_true ⟨fun _ => rfl, rfl⟩ hin
      · rw [if_neg hout]
        exact iff_of_false (fun h => hne hout (congrArg Kernel.ratio (h.1 rfl))) hout
  · obtain ⟨msg, heq⟩ := enable_idle hreads.ratioFile hidle
    rw [Restored, heq]
    refine iff_of_true ⟨fun _ => rfl, ?_⟩ (Or.inr hidle)
    rw [disable_eq hrest' hfile' hknows AlikeBut.refl]
    split <;> rfl

end

/-! ### Samples -/

namespace Example

/-- Two containers with a soft quota of 0, and a configuration that names none; `mute` cannot be set. -/
def sampleEnv (mute : Str) : Env where
  ratioFile := true
  ratioBoth := true
  dockers := [str "a", str "b"]
  cgroupPath := fun id => str "/cgroup/" ++ id
  quotaFile := fun _ => true
  order := []
  load := fun _ => .ok (.map [])
  asInt := fun _ => .ok 15
  badString := []
  config := some (.ok (.map [(str "ratio", .scalar (str "15"))]))
  setsRatio := ⟨true, true⟩
  setsQuota := fun path => path ≠ mute
  restoresRatio := ⟨true, true⟩
  restoresQuota := fun _ => true

def sampleKernel (ratio : ℤ) : Kernel := ⟨showLine ratio, fun _ => showLine 0⟩

def someState : State := ⟨20, 0, false, false, .empty, .empty, .empty⟩

theorem reads_sample {ratio : ℤ} (h : IsInt ratio) (mute : Str) : Reads (sampleEnv mute) (sampleKernel ratio) :=
  ⟨rfl, rfl, ⟨ratio, h, rfl⟩, fun _ _ => ⟨rfl, 0, ⟨by decide, by decide⟩, rfl⟩⟩

theorem restores_sample (mute : Str) : Restores (sampleEnv mute) := ⟨rfl, fun _ => rfl⟩

end Example

/-- A ratio of 10 is there again, and so are the quotas, though the second one cannot be set. -/
theorem quota_restored_iff_ten : Restored (Example.sampleEnv (str "/cgroup/b")) (Example.sampleEnv []) [] Example.someState
    (Example.sampleKernel 10) :=
  (quota_restored_iff rfl (Example.reads_sample ⟨by decide, by decide⟩ _) rfl (Example.restores_sample _)
    (Example.restores_sample _)).mpr (Or.inl ⟨by decide, by decide⟩)

/-- A ratio of 50 is not: neither when the second container cannot be set, nor when both can. -/
theorem quota_not_restored :
    ¬ Restored (Example.sampleEnv (str "/cgroup/b")) (Example.sampleEnv []) [] Example.someState (Example.sampleKernel 50) ∧
    ¬ Restored (Example.sampleEnv []) (Example.sampleEnv []) [] Example.someState (Example.sampleKernel 50) := by
  refine ⟨fun h => ?_, fun h => ?_⟩
  · have hratio := congrArg Kernel.ratio (h.1 (by decide +kernel))
    exact absurd hratio (by decide +kernel)
  · have hratio := congrArg Kernel.ratio h.2
    exact absurd hratio (by decide +kernel)

end CoordinationBurst
end OeAware

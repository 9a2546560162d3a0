import OeAware.Schemes.Run
import OeAware.Tune.Realtime

/-! @src src/plugin/tune/system/realtime/realtime_tune.cpp | name:RealTimeTune::Disable, DisableProcAndSys,
    OpenProcAndSys | scheme:state-machine

    One cycle: `Enable` keeps what it finds and sets the tunables, `Disable` writes back what was kept. What was kept
    stays there from cycle to cycle, and a value that stands for none may also be one that was found: then it is the
    value that was set, and nothing has to be written. Of the CPUs of one frequency policy the first to be visited
    finds the governor, the others find `performance`.

        others ─▶ found ──Enable──▶ set, found is kept ──Disable──▶ found
          ▲                                                          │
          └──────────────────────────────────────────────────────────┘ -/

namespace OeAware
open Schemes

namespace RealTimeTune

/-! ### `Disable` -/

/-- What one call of `Disable` meets: the order of the governors, and what becomes of each removal. -/
structure DisableOutcomes where
  kernel : Kernel
  order : List Str
  remove : Str → CommandOutcome

def disableKernelParams (g : Grubby) (remove : Str → CommandOutcome) (sw : RealtimeTuneSwitch) (b : g.Boot) : g.Boot :=
  KERNEL_PARAM_KEYS.foldl (fun b key =>
    if sw.featureSwitches.find key = some true ∧ (remove key).applied = true then g.removeArgs key b else b) b

/-- `Disable`: `none` when an exception leaves it. -/
def disable {g : Grubby} (o : DisableOutcomes) (s : Fields) (w : World g) : Option (Fields × World g) :=
  let w := { w with tunables := disableProcAndSys o.kernel o.order s.switchConfig s.backup w.tunables }
  if s.isRebooting then some ({ s with isRebooting := false }, w)
  else
    let range := s.switchConfig.cpuIsolationRange
    let needRemove := s.switchConfig.featureSwitches.values.any id
    let w := if range ≠ [] ∧ range ≠ str "0" ∧ needRemove = true then
        { w with boot := disableKernelParams g o.remove s.switchConfig w.boot }
      else w
    match w.config with
    | none => some (s, w)
    | some config => (removeRealtimeTuneFromConfig config).map (fun config => (s, { w with config := some config }))

/-! ### The kernel -/

/-- The number in the first line. -/
def numberOf (content : Str) : Option ℤ := stoi (firstLine content)

def numberAt (t : Tunables) (path : Str) : Option ℤ := (t.files path).bind numberOf

/-- The mode in brackets. -/
def modeOf (content : Str) : Str := getCurrentThpMode ⟨fun _ => some content, false⟩

def governorAt (t : Tunables) (path : Str) : Option Str := (t.files path).map firstLine

def numberPaths : List Str := [numaBalancingPath, ksmRunPath, timerMigrationPath, schedRuntimePath]

def IsGovernor (path : Str) : Prop := ∃ name, isCpuEntry name = true ∧ path = governorPath name

/-- Two states of the tunables show the same values. -/
structure SameTunables (t t' : Tunables) : Prop where
  number : ∀ path ∈ numberPaths, numberAt t' path = numberAt t path
  mode : getCurrentThpMode t' = getCurrentThpMode t
  governor : ∀ path, IsGovernor path → governorAt t' path = governorAt t path

/-- What the kernel promises: a value that a tunable takes can be written and is then read. Only the runtime takes
    `-1`, and only governors share a file. -/
structure Serves (K : Kernel) (takes : Str → Str → Prop) : Prop where
  number : ∀ path ∈ numberPaths, ∀ v, takes path (showInt v) → ∀ old, ∃ new,
    K.write path (showInt v) old = some new ∧ numberOf new = some v
  mode : ∀ m, takes thpEnabledPath m → ∀ old, ∃ new, K.write thpEnabledPath m old = some new ∧ modeOf new = m
  governor : ∀ path, IsGovernor path → ∀ gov, takes path gov → ∀ old, ∃ new,
    K.write path gov old = some new ∧ firstLine new = gov
  off : ∀ path ∈ [numaBalancingPath, ksmRunPath, timerMigrationPath],
    takes path (showInt 0) ∧ ¬takes path (showInt (-1))
  unlimited : takes schedRuntimePath (showInt (-1))
  never : takes thpEnabledPath (str "never") ∧ ¬takes thpEnabledPath []
  performance : ∀ path, IsGovernor path → takes path (str "performance")
  apart : ∀ path ∈ thpEnabledPath :: numberPaths, ∀ q, K.node q = K.node path → q = path

/-- What is found: each file that is there shows a value that its tunable takes, the directories of the CPUs are
    listed once, and paths that lead to one file read the same. -/
structure Found (K : Kernel) (takes : Str → Str → Prop) (t : Tunables) : Prop where
  number : ∀ path ∈ numberPaths, ∀ content, t.files path = some content →
    ∃ v, numberOf content = some v ∧ takes path (showInt v)
  mode : ∀ content, t.files thpEnabledPath = some content → takes thpEnabledPath (modeOf content)
  governor : ∀ path, IsGovernor path → ∀ content, t.files path = some content → takes path (firstLine content)
  listed : ∀ name, isCpuEntry name = true → t.files (governorPath name) ≠ none →
    ∃ entries, K.cpuDir = some entries ∧ name ∈ entries
  once : ∀ entries, K.cpuDir = some entries → entries.Nodup
  shared : ∀ p q, K.node p = K.node q → ∀ a b, t.files p = some a → t.files q = some b → a = b

section
variable {K : Kernel} {takes : Str → Str → Prop} {path p value content : Str} {t t0 : Tunables}

/-! ### One write -/

theorem set_none (h : t.files path = none) : setStringValue K path value t = (false, t) := by
  rw [setStringValue, h]
  rfl

theorem files_set_of_node_ne (h : K.node p ≠ K.node path) : (setStringValue K path value t).2.files p = t.files p := by
  unfold setStringValue
  split
  · rfl
  · exact if_neg h

theorem files_set {new : Str} (hc : t.files path = some content) (hw : K.write path value content = some new)
    (hp : K.node p = K.node path) :
    (setStringValue K path value t).2.files p = (t.files p).map (fun _ => new) := by
  have hbind : (t.files path).bind (K.write path value) = some new := by rw [hc, Option.bind_some, hw]
  unfold setStringValue
  split
  · rename_i hnone
    rw [hbind] at hnone
    cases hnone
  · rename_i hsome
    rw [hbind] at hsome
    cases hsome
    exact if_pos hp

/-- A write neither makes a file nor removes one. -/
theorem files_set_eq_none : (setStringValue K path value t).2.files p = none ↔ t.files p = none := by
  unfold setStringValue
  split
  · exact Iff.rfl
  · dsimp only
    split
    · exact Option.map_eq_none_iff
    · exact Iff.rfl

theorem mode_eq (h : t.files thpEnabledPath = some content) : getCurrentThpMode t = modeOf content := by
  rw [modeOf, getCurrentThpMode, getCurrentThpMode, h]

/-! ### One tunable -/

/-- Between the two calls: the tunable is not switched, or its file is not there, and it is as it was; or its value
    is kept, and it shows the one that was set. -/
def Kept {α : Type} (takes : Str → Prop) (read : Str → Option α) (text : α → Str) (on : Bool) (set kept : α)
    (found now : Option Str) : Prop :=
  now = found ∧ (on = true → found = none) ∨
    on = true ∧ ∃ a b, found = some a ∧ now = some b ∧ read a = some kept ∧ takes (text kept) ∧ read b = some set

section
variable {α : Type} {read : Str → Option α} {text : α → Str} {set kept : α} {on : Bool} {found : Option Str}

theorem kept_off : Kept (takes path) read text false set kept (t.files path) (t.files path) :=
  .inl ⟨rfl, fun h => by cases h⟩

/-- The value is kept and another one written. -/
theorem kept_set (hserves : ∀ v, takes path (text v) → ∀ old, ∃ new, K.write path (text v) old = some new ∧
    read new = some v) (hset : takes path (text set))
    (hfound : ∀ content, t.files path = some content → read content = some kept ∧ takes path (text kept)) :
    Kept (takes path) read text true set kept (t.files path) ((setStringValue K path (text set) t).2.files path) := by
  cases hc : t.files path with
  | none =>
    rw [set_none hc]
    exact .inl ⟨hc, fun _ => rfl⟩
  | some content =>
    obtain ⟨new, hw, hread⟩ := hserves set hset content
    obtain ⟨hkept, htakes⟩ := hfound content hc
    refine .inr ⟨rfl, content, new, rfl, ?_, hkept, htakes, hread⟩
    rw [files_set hc hw rfl, hc]
    rfl

/-- WHAT STANDS FOR NONE MAY BE A VALUE, if it is the one that was set. -/
theorem read_restored [DecidableEq α] (none : α) (hserves : ∀ v, takes path (text v) → ∀ old, ∃ new,
    K.write path (text v) old = some new ∧ read new = some v) (hnone : takes path (text none) → none = set)
    (h : Kept (takes path) read text on set kept found (t.files path)) :
    (((if on then if kept = none then t else (setStringValue K path (text kept) t).2 else t).files path).bind read) =
      found.bind read := by
  rcases h with ⟨hnow, hoff⟩ | ⟨rfl, a, b, hfound, hnow, hkept, htakes, hset⟩
  · cases on with
    | false => rw [if_neg Bool.false_ne_true, hnow]
    | true =>
      have hmissing := hoff rfl
      rw [hmissing] at hnow
      rw [if_pos rfl, set_none hnow, ite_self, hnow, hmissing]
  · rw [if_pos rfl, hfound, Option.bind_some, hkept]
    split
    · rename_i heq
      subst heq
      rw [hnow, Option.bind_some, hset, hnone htakes]
    · obtain ⟨new, hw, hread⟩ := hserves kept htakes b
      rw [files_set hnow hw rfl, hnow]
      exact hread

end

/-! ### The governors -/

/-- What is kept of the governors that were visited, and what their files show. -/
structure Governed (node : Str → Str) (visited : Str → Prop) (cpuGovs : UMap Str Str) (t0 t : Tunables) : Prop where
  unseen : ∀ p, (∀ q, visited q → t0.files q ≠ none → node q ≠ node p) → t.files p = t0.files p
  missing : ∀ p, t.files p = none ↔ t0.files p = none
  shown : ∀ p q, visited q → t0.files q ≠ none → node q = node p → t0.files p ≠ none →
    governorAt t p = some (str "performance")
  kept : ∀ p c q, visited q → t0.files q ≠ none → node q = node p → t0.files p = some c →
    ∃ q, visited q ∧ t0.files q ≠ none ∧ node q = node p ∧ cpuGovs.find q = some (firstLine c)
  values : ∀ q c, visited q → t0.files q = some c →
    cpuGovs.find q = some (firstLine c) ∨ cpuGovs.find q = some (str "performance")

theorem governed_nil (node : Str → Str) (cpuGovs : UMap Str Str) (t : Tunables) :
    Governed node (fun _ => False) cpuGovs t t :=
  ⟨fun _ _ => rfl, fun _ => Iff.rfl, fun _ _ h => h.elim, fun _ _ _ h => h.elim, fun _ _ h => h.elim⟩

namespace Governed
variable {visited : Str → Prop} {cpuGovs : UMap Str Str} {r cur : Str} {t1 : Tunables}

/-- One more is visited that is not there. -/
theorem absent (h : Governed K.node visited cpuGovs t0 t) (hr : t0.files r = none) :
    Governed K.node (fun q => q = r ∨ visited q) cpuGovs t0 t where
  unseen p hp := h.unseen p fun q hq => hp q (.inr hq)
  missing := h.missing
  shown := by
    rintro p q (rfl | hq) hne hnode hp
    · exact absurd hr hne
    · exact h.shown p q hq hne hnode hp
  kept := by
    rintro p c q (rfl | hq) hne hnode hp
    · exact absurd hr hne
    · obtain ⟨q', hq', hrest⟩ := h.kept p c q hq hne hnode hp
      exact ⟨q', .inr hq', hrest⟩
  values := by
    rintro q c (rfl | hq) hc
    · rw [hr] at hc
      cases hc
    · exact h.values q c hq hc

/-- One more that leads to a file that has been set. -/
theorem again {q1 : Str} (h : Governed K.node visited cpuGovs t0 t) (hnew : ¬visited r) (hq1 : visited q1)
    (hne1 : t0.files q1 ≠ none) (hnode1 : K.node q1 = K.node r) :
    Governed K.node (fun q => q = r ∨ visited q) (cpuGovs.insert r (str "performance")) t0 t where
  unseen p hp := h.unseen p fun q hq => hp q (.inr hq)
  missing := h.missing
  shown := by
    rintro p q (rfl | hq) hne hnode hp
    · exact h.shown p q1 hq1 hne1 (hnode1.trans hnode) hp
    · exact h.shown p q hq hne hnode hp
  kept := by
    intro p c q hq hne hnode hp
    have hfirst : ∃ q, visited q ∧ t0.files q ≠ none ∧ K.node q = K.node p ∧ cpuGovs.find q = some (firstLine c) := by
      rcases hq with rfl | hq
      · exact h.kept p c q1 hq1 hne1 (hnode1.trans hnode) hp
      · exact h.kept p c q hq hne hnode hp
    obtain ⟨q', hq', hne', hnode', hfind⟩ := hfirst
    have hqr : q' ≠ r := fun heq => hnew (heq ▸ hq')
    exact ⟨q', .inr hq', hne', hnode', by rw [UMap.find_insert, if_neg hqr, hfind]⟩
  values := by
    intro q c hq hc
    rw [UMap.find_insert]
    split
    · exact .inr rfl
    · rename_i hqr
      exact h.values q c (hq.resolve_left hqr) hc

/-- The first of those that lead to one file. -/
theorem first {c0 : Str} (h : Governed K.node visited cpuGovs t0 t) (hf : Found K takes t0) (hnew : ¬visited r)
    (hr : t0.files r = some c0) (hclass : ∀ q, visited q → t0.files q ≠ none → K.node q ≠ K.node r)
    (hother : ∀ p, K.node p ≠ K.node r → t1.files p = t.files p)
    (hset : ∀ p, K.node p = K.node r → t0.files p ≠ none → governorAt t1 p = some (str "performance"))
    (hmissing : ∀ p, t1.files p = none ↔ t.files p = none) :
    Governed K.node (fun q => q = r ∨ visited q) (cpuGovs.insert r (firstLine c0)) t0 t1 where
  unseen p hp := by
    have hpr : K.node p ≠ K.node r := (hp r (.inl rfl) (by simp [hr])).symm
    rw [hother p hpr]
    exact h.unseen p fun q hq => hp q (.inr hq)
  missing p := (hmissing p).trans (h.missing p)
  shown p q hq hne hnode hp := by
    rcases eq_or_ne (K.node p) (K.node r) with hpr | hpr
    · exact hset p hpr hp
    · rw [governorAt, hother p hpr]
      refine h.shown p q (hq.resolve_left ?_) hne hnode hp
      rintro rfl
      exact hpr hnode.symm
  kept p c q hq hne hnode hp := by
    rcases eq_or_ne (K.node p) (K.node r) with hpr | hpr
    · refine ⟨r, .inl rfl, by simp [hr], hpr.symm, ?_⟩
      rw [UMap.find_insert, if_pos rfl, hf.shared p r hpr c c0 hp hr]
    · have hqr : q ≠ r := by
        rintro rfl
        exact hpr hnode.symm
      obtain ⟨q', hq', hne', hnode', hfind⟩ := h.kept p c q (hq.resolve_left hqr) hne hnode hp
      have hqr' : q' ≠ r := fun heq => hnew (heq ▸ hq')
      exact ⟨q', .inr hq', hne', hnode', by rw [UMap.find_insert, if_neg hqr', hfind]⟩
  values q c hq hc := by
    rw [UMap.find_insert]
    split
    · rename_i hqr
      rw [hqr, hr] at hc
      cases hc
      exact .inl rfl
    · rename_i hqr
      exact h.values q c (hq.resolve_left hqr) hc

end Governed

/-- A write of `performance`, or none where it is what the file shows. -/
theorem performance_set {c0 : Str} {r : Str} (hs : Serves K takes) (hgov : IsGovernor r) (hr : t.files r = some c0)
    (hsame : ∀ p, K.node p = K.node r → ∀ c, t.files p = some c → c = c0) :
    ∀ p, K.node p = K.node r → t.files p ≠ none →
      governorAt (if firstLine c0 = str "performance" then t
        else (setStringValue K r (str "performance") t).2) p = some (str "performance") := by
  intro p hp hne
  obtain ⟨c, hc⟩ := Option.ne_none_iff_exists'.mp hne
  split
  · rename_i hperf
    rw [governorAt, hc, hsame p hp c hc, Option.map_some, hperf]
  · obtain ⟨new, hw, hline⟩ := hs.governor r hgov _ (hs.performance r hgov) c0
    rw [governorAt, files_set hr hw hp, hc, Option.map_some, Option.map_some, hline]

theorem setGovernor_eq {name c : Str} {x : SysTuneBackup × Tunables} (h : x.2.files (governorPath name) = some c) :
    (setGovernor K name x).2 = ({ x.1 with cpuGovs := x.1.cpuGovs.insert (governorPath name) (firstLine c) },
      if firstLine c = str "performance" then x.2
      else (setStringValue K (governorPath name) (str "performance") x.2).2) := by
  simp only [setGovernor, h, Setting.when, decide_not]
  split
  · rename_i hne
    rw [if_neg (by simpa using hne)]
    rfl
  · rename_i heq
    rw [if_pos (by simpa using heq)]

/-- One round of `SetCpuFreqPerformance`. -/
theorem governed_setGovernor {visited : Str → Prop} {name : Str} {x : SysTuneBackup × Tunables} (hs : Serves K takes)
    (hf : Found K takes t0) (hname : isCpuEntry name = true) (hnew : ¬visited (governorPath name))
    (h : Governed K.node visited x.1.cpuGovs t0 x.2) :
    Governed K.node (fun q => q = governorPath name ∨ visited q) (setGovernor K name x).2.1.cpuGovs t0
      (setGovernor K name x).2.2 := by
  cases hc : x.2.files (governorPath name) with
  | none =>
    have hx : (setGovernor K name x).2 = x := by simp only [setGovernor, hc]
    rw [hx]
    exact h.absent ((h.missing _).mp hc)
  | some c =>
    rw [setGovernor_eq hc]
    dsimp only
    obtain ⟨c0, hr⟩ : ∃ c0, t0.files (governorPath name) = some c0 := by
      refine Option.ne_none_iff_exists'.mp fun hnone => ?_
      rw [(h.missing _).mpr hnone] at hc
      cases hc
    rcases em (∃ q, visited q ∧ t0.files q ≠ none ∧ K.node q = K.node (governorPath name)) with
      ⟨q1, hq1, hne1, hnode1⟩ | hclass
    · -- the file was set when another path was visited
      have hshown := h.shown _ q1 hq1 hne1 hnode1 (by simp [hr])
      rw [governorAt, hc, Option.map_some, Option.some.injEq] at hshown
      rw [if_pos hshown, hshown]
      exact h.again hnew hq1 hne1 hnode1
    · have hclass : ∀ q, visited q → t0.files q ≠ none → K.node q ≠ K.node (governorPath name) :=
        fun q hq hne hnode => hclass ⟨q, hq, hne, hnode⟩
      have hold : ∀ p, K.node p = K.node (governorPath name) → x.2.files p = t0.files p :=
        fun p hp => h.unseen p fun q hq hne => hp ▸ hclass q hq hne
      obtain rfl : c = c0 := by
        rw [hold _ rfl, hr] at hc
        cases hc
        rfl
      refine h.first hf hnew hr hclass (fun p hp => ?_) (fun p hp hne => ?_) (fun p => ?_)
      · split
        · rfl
        · exact files_set_of_node_ne hp
      · refine performance_set hs ⟨name, hname, rfl⟩ hc (fun q hq d hd => ?_) p hp (by rwa [hold p hp])
        rw [hold q hq] at hd
        exact hf.shared q _ hq d c hd hr
      · split
        · exact Iff.rfl
        · exact files_set_eq_none

theorem governorPath_injective {n m : Str} (h : governorPath n = governorPath m) : n = m :=
  List.append_cancel_left (List.append_cancel_right h)

/-- All the rounds. -/
theorem governed_rounds (hs : Serves K takes) (hf : Found K takes t0) : ∀ (names : List Str) (visited : Str → Prop)
    (x : SysTuneBackup × Tunables), (∀ name ∈ names, isCpuEntry name = true) → names.Nodup →
    (∀ name ∈ names, ¬visited (governorPath name)) → Governed K.node visited x.1.cpuGovs t0 x.2 →
    let y := (names.foldr (fun name rest => (setGovernor K name).and rest) (fun x => (true, x)) x).2
    Governed K.node (fun q => (∃ name ∈ names, q = governorPath name) ∨ visited q) y.1.cpuGovs t0 y.2
  | [], _, _, _, _, _, h => by simpa using h
  | name :: names, visited, x, hcpu, hnd, hnew, h => by
    obtain ⟨hname, hnames⟩ := List.forall_mem_cons.mp hcpu
    obtain ⟨hfresh, hnew⟩ := List.forall_mem_cons.mp hnew
    obtain ⟨hnot, hnd⟩ := List.nodup_cons.mp hnd
    have hstep := governed_setGovernor hs hf hname hfresh h
    have hrest := governed_rounds hs hf names _ _ hnames hnd (fun m hm => ?_) hstep
    · have hvisited : (fun q => (∃ m ∈ name :: names, q = governorPath m) ∨ visited q) =
          fun q => (∃ m ∈ names, q = governorPath m) ∨ q = governorPath name ∨ visited q := by
        funext q
        rw [eq_iff_iff, List.exists_mem_cons_iff, or_assoc, or_left_comm]
      rw [hvisited]
      exact hrest
    · rintro (heq | hv)
      · exact hnot (governorPath_injective heq ▸ hm)
      · exact hnew m hm hv

/-- Every governor that is there is visited. -/
theorem governed_setCpuFreqPerformance {x : SysTuneBackup × Tunables} (hs : Serves K takes) (hf : Found K takes x.2) :
    Governed K.node IsGovernor (setCpuFreqPerformance K x).2.1.cpuGovs x.2 (setCpuFreqPerformance K x).2.2 := by
  -- whether a path that is not there has been visited makes no difference
  have hall : ∀ {cpuGovs t} {visited : Str → Prop}, (∀ q, visited q → IsGovernor q) →
      (∀ q, IsGovernor q → x.2.files q ≠ none → visited q) → Governed K.node visited cpuGovs x.2 t →
      Governed K.node IsGovernor cpuGovs x.2 t := by
    intro cpuGovs t visited hin hvisited h
    exact {
      unseen := fun p hp => h.unseen p fun q hq => hp q (hin q hq)
      missing := h.missing
      shown := fun p q hq hne => h.shown p q (hvisited q hq hne) hne
      kept := fun p c q hq hne hnode hp => by
        obtain ⟨q', hq', hrest⟩ := h.kept p c q (hvisited q hq hne) hne hnode hp
        exact ⟨q', hin q' hq', hrest⟩
      values := fun q c hq hc => h.values q c (hvisited q hq (by simp [hc])) hc }
  cases hdir : K.cpuDir with
  | none =>
    have hx : (setCpuFreqPerformance K x).2 = x := by rw [setCpuFreqPerformance, hdir]
    rw [hx]
    refine hall (fun q hq => hq.elim) (fun q hq hne => ?_) (governed_nil _ _ _)
    obtain ⟨name, hname, rfl⟩ := hq
    obtain ⟨entries, hentries, -⟩ := hf.listed name hname hne
    rw [hdir] at hentries
    cases hentries
  | some entries =>
    have hrounds := governed_rounds hs hf (entries.filter isCpuEntry) (fun _ => False) x
      (fun name hname => (List.mem_filter.mp hname).2) ((hf.once entries hdir).filter _) (fun _ _ h => h)
      (governed_nil _ _ _)
    rw [setCpuFreqPerformance, hdir]
    refine hall (fun q hq => ?_) (fun q hq hne => ?_) hrounds
    · rcases hq with ⟨name, hname, rfl⟩ | hq
      · exact ⟨name, (List.mem_filter.mp hname).2, rfl⟩
      · exact hq.elim
    · obtain ⟨name, hname, rfl⟩ := hq
      obtain ⟨entries', hentries, hmem⟩ := hf.listed name hname hne
      rw [hdir] at hentries
      cases hentries
      exact .inl ⟨name, List.mem_filter.mpr ⟨hmem, hname⟩, rfl⟩

/-- The governor is as it was, or one that was kept will be written. -/
def Due (node : Str → Str) (cpuGovs : UMap Str Str) (t0 : Tunables) (p gov : Str) (qs : List Str) (t : Tunables) : Prop :=
  governorAt t p = some gov ∨ governorAt t p = some (str "performance") ∧
    ∃ q ∈ qs, t0.files q ≠ none ∧ node q = node p ∧ cpuGovs.find q = some gov

/-- Each governor is written back, whatever the order and whatever is still kept of others. -/
theorem governor_restored {cpuGovs : UMap Str Str} {c : Str} (hs : Serves K takes) (hpgov : IsGovernor p)
    (hshared : ∀ p q, K.node p = K.node q → ∀ a b, t0.files p = some a → t0.files q = some b → a = b)
    (htakes : ∀ path, IsGovernor path → ∀ content, t0.files path = some content → takes path (firstLine content))
    (hp : t0.files p = some c) (hkeys : ∀ q, cpuGovs.find q ≠ none → IsGovernor q)
    (hvalues : ∀ q c, IsGovernor q → t0.files q = some c →
      cpuGovs.find q = some (firstLine c) ∨ cpuGovs.find q = some (str "performance")) :
    ∀ {qs : List Str} {t : Tunables}, (∀ q, IsGovernor q → (t.files q = none ↔ t0.files q = none)) →
      Due K.node cpuGovs t0 p (firstLine c) qs t →
      governorAt (qs.foldl (restoreGovernor K cpuGovs) t) p = some (firstLine c)
  | [], t, _, h => h.resolve_right fun ⟨_, _, hq, _⟩ => by cases hq
  | q :: qs, t, hmissing, h => by
    have hkeep : ∀ {t1}, governorAt t1 p = governorAt t p → (t0.files q ≠ none → K.node q = K.node p →
        cpuGovs.find q = some (firstLine c) → firstLine c = str "performance") →
        Due K.node cpuGovs t0 p (firstLine c) qs t1 := by
      intro t1 hsame hperf
      rw [Due, hsame]
      refine h.elim .inl fun ⟨hnow, q', hq', hne, hnode, hfind⟩ => ?_
      rcases List.mem_cons.mp hq' with rfl | hq'
      · exact .inl (by rw [hnow, hperf hne hnode hfind])
      · exact .inr ⟨hnow, q', hq', hne, hnode, hfind⟩
    rw [List.foldl_cons]
    unfold restoreGovernor
    split
    · rename_i hnone
      refine governor_restored hs hpgov hshared htakes hp hkeys hvalues hmissing (hkeep rfl fun _ _ hfind => ?_)
      rw [hnone] at hfind
      cases hfind
    · rename_i v hfind
      split
      · rename_i hperf
        refine governor_restored hs hpgov hshared htakes hp hkeys hvalues hmissing (hkeep rfl fun _ _ hsome => ?_)
        rw [hfind, hperf] at hsome
        exact (Option.some.inj hsome).symm
      · rename_i hperf
        refine governor_restored hs hpgov hshared htakes hp hkeys hvalues (fun q' hq' => files_set_eq_none.trans (hmissing q' hq')) ?_
        have hgov : IsGovernor q := hkeys q (by simp [hfind])
        cases hq : t.files q with
        | none =>
          rw [set_none hq]
          exact hkeep rfl fun hne => absurd ((hmissing q hgov).mp hq) hne
        | some cq =>
          obtain ⟨cq0, hq0⟩ := Option.ne_none_iff_exists'.mp fun hnone => by
            rw [(hmissing q hgov).mpr hnone] at hq
            cases hq
          rcases eq_or_ne (K.node p) (K.node q) with hnode | hnode
          · -- what is kept of a path to the same file is the value that was found
            obtain rfl := hshared p q hnode c cq0 hp hq0
            rcases hvalues q c hgov hq0 with hv | hv
            · rw [hfind] at hv
              cases hv
              obtain ⟨new, hw, hline⟩ := hs.governor q hgov _ (htakes q hgov c hq0) cq
              obtain ⟨cp, hcp⟩ := Option.ne_none_iff_exists'.mp fun hnone => by
                rw [(hmissing p hpgov).mp hnone] at hp
                cases hp
              exact .inl (by rw [governorAt, files_set hq hw hnode, hcp, Option.map_some, Option.map_some, hline])
            · rw [hfind] at hv
              exact absurd (Option.some.inj hv) hperf
          · refine hkeep ?_ fun _ hsame _ => absurd hsame.symm hnode
            rw [governorAt, governorAt, files_set_of_node_ne hnode]

/-! ### Between the two calls -/

/-- What is kept of the governors, and what they show. -/
structure GovernorsKept (node : Str → Str) (cpuGovs : UMap Str Str) (t0 t : Tunables) : Prop where
  missing : ∀ p, IsGovernor p → (t.files p = none ↔ t0.files p = none)
  shown : ∀ p, IsGovernor p → t0.files p ≠ none → governorAt t p = some (str "performance")
  kept : ∀ p c, IsGovernor p → t0.files p = some c →
    ∃ q, t0.files q ≠ none ∧ node q = node p ∧ cpuGovs.find q = some (firstLine c)
  values : ∀ q c, IsGovernor q → t0.files q = some c →
    cpuGovs.find q = some (firstLine c) ∨ cpuGovs.find q = some (str "performance")

/-- What `OpenProcAndSys` leaves of what it found. -/
structure Opened (node : Str → Str) (takes : Str → Str → Prop) (sw : RealtimeTuneSwitch) (t0 : Tunables)
    (b : SysTuneBackup) (t : Tunables) : Prop where
  numaBalancing : Kept (takes numaBalancingPath) numberOf showInt sw.numaBalancing 0 b.numaBalancing
    (t0.files numaBalancingPath) (t.files numaBalancingPath)
  ksm : Kept (takes ksmRunPath) numberOf showInt sw.ksm 0 b.ksmRun (t0.files ksmRunPath) (t.files ksmRunPath)
  timerMigration : Kept (takes timerMigrationPath) numberOf showInt sw.timerMigration 0 b.timerMigration
    (t0.files timerMigrationPath) (t.files timerMigrationPath)
  rtRuntime : Kept (takes schedRuntimePath) numberOf showInt (decide (sw.rtRuntimeUs = -1)) (-1) b.schedRtRuntime
    (t0.files schedRuntimePath) (t.files schedRuntimePath)
  thp : Kept (takes thpEnabledPath) (fun content => some (modeOf content)) id sw.transparentHugepage (str "never")
    b.thpEnabled (t0.files thpEnabledPath) (t.files thpEnabledPath)
  governors : sw.cpufreqPerformance = true → GovernorsKept node b.cpuGovs t0 t
  untouched : sw.cpufreqPerformance = false → ∀ p, IsGovernor p → t.files p = t0.files p

def fixedPaths : List Str := thpEnabledPath :: numberPaths

/-- The fixed paths are different. -/
@[simp] theorem paths_ne :
    thpEnabledPath ≠ numaBalancingPath ∧ thpEnabledPath ≠ ksmRunPath ∧ thpEnabledPath ≠ timerMigrationPath ∧
    thpEnabledPath ≠ schedRuntimePath ∧ numaBalancingPath ≠ thpEnabledPath ∧ numaBalancingPath ≠ ksmRunPath ∧
    numaBalancingPath ≠ timerMigrationPath ∧ numaBalancingPath ≠ schedRuntimePath ∧
    ksmRunPath ≠ thpEnabledPath ∧ ksmRunPath ≠ numaBalancingPath ∧ ksmRunPath ≠ timerMigrationPath ∧
    ksmRunPath ≠ schedRuntimePath ∧ timerMigrationPath ≠ thpEnabledPath ∧
    timerMigrationPath ≠ numaBalancingPath ∧ timerMigrationPath ≠ ksmRunPath ∧
    timerMigrationPath ≠ schedRuntimePath ∧ schedRuntimePath ≠ thpEnabledPath ∧
    schedRuntimePath ≠ numaBalancingPath ∧ schedRuntimePath ≠ ksmRunPath ∧
    schedRuntimePath ≠ timerMigrationPath := by
  -- as lists of characters, which are far cheaper to compare than strings
  simp -index only [thpEnabledPath, numaBalancingPath, ksmRunPath, timerMigrationPath, schedRuntimePath, str,
    String.toList_ofList]
  decide

@[simp] theorem mem_numberPaths : numaBalancingPath ∈ numberPaths ∧ ksmRunPath ∈ numberPaths ∧
    timerMigrationPath ∈ numberPaths ∧ schedRuntimePath ∈ numberPaths := by
  simp [numberPaths]

@[simp] theorem mem_fixedPaths : thpEnabledPath ∈ fixedPaths ∧ numaBalancingPath ∈ fixedPaths ∧ ksmRunPath ∈ fixedPaths ∧
    timerMigrationPath ∈ fixedPaths ∧ schedRuntimePath ∈ fixedPaths := by
  simp [fixedPaths]

theorem not_governor (h : path ∈ fixedPaths) : ¬IsGovernor path := by
  rintro ⟨name, -, rfl⟩
  have hhead : (governorPath name).take 6 = str "/sys/d" := rfl
  have hfixed : ∀ path ∈ fixedPaths, path.take 6 ≠ str "/sys/d" := by
    simp -index only [fixedPaths, numberPaths, thpEnabledPath, numaBalancingPath, ksmRunPath, timerMigrationPath,
      schedRuntimePath, str, String.toList_ofList]
    decide
  exact hfixed _ h hhead

theorem files_set_of_ne (hs : Serves K takes) (hpath : path ∈ fixedPaths) (hne : p ≠ path) :
    (setStringValue K path value t).2.files p = t.files p :=
  files_set_of_node_ne fun hnode => hne (hs.apart path hpath p hnode)

theorem files_set_governor (hs : Serves K takes) (hp : p ∈ fixedPaths) (hgov : IsGovernor path) :
    (setStringValue K path value t).2.files p = t.files p := by
  refine files_set_of_node_ne fun hnode => not_governor hp ?_
  rwa [← hs.apart p hp path hnode.symm]

theorem files_when {on : Bool} {f : Setting} {x : SysTuneBackup × Tunables} (h : (f x).2.2.files p = x.2.files p) :
    ((f.when on) x).2.2.files p = x.2.files p := by
  cases on with
  | false => rfl
  | true => exact h

theorem files_setGovernor (hs : Serves K takes) (hp : p ∈ fixedPaths) {name : Str} (hname : isCpuEntry name = true)
    (x : SysTuneBackup × Tunables) : (setGovernor K name x).2.2.files p = x.2.files p := by
  unfold setGovernor
  dsimp only
  split
  · rfl
  · exact files_when (files_set_governor hs hp ⟨name, hname, rfl⟩)

theorem files_setCpuFreqPerformance (hs : Serves K takes) (hp : p ∈ fixedPaths) (x : SysTuneBackup × Tunables) :
    (setCpuFreqPerformance K x).2.2.files p = x.2.files p := by
  have hrounds : ∀ {names : List Str} {x : SysTuneBackup × Tunables}, (∀ name ∈ names, isCpuEntry name = true) →
      ((names.foldr (fun name rest => (setGovernor K name).and rest) (fun x => (true, x))) x).2.2.files p =
        x.2.files p := by
    intro names
    induction names with
    | nil => exact fun _ => rfl
    | cons name names ih =>
      intro x hnames
      obtain ⟨hname, hnames⟩ := List.forall_mem_cons.mp hnames
      exact (ih hnames).trans (files_setGovernor hs hp hname x)
  unfold setCpuFreqPerformance
  split
  · rfl
  · exact hrounds fun name hname => (List.mem_filter.mp hname).2

/-- One of the steps that set a number. -/
theorem kept_number {set : ℤ} (on : Bool) (get : SysTuneBackup → ℤ) (put : ℤ → SysTuneBackup → SysTuneBackup)
    (f : Setting) (x : SysTuneBackup × Tunables) (hs : Serves K takes) (hpath : path ∈ numberPaths)
    (hset : takes path (showInt set))
    (hf : f = fun x => write K path (showInt set) (put (getInitialValue x.2 path (get x.1)) x.1, x.2))
    (hget : ∀ v b, get (put v b) = v)
    (hfound : ∀ content, x.2.files path = some content → ∃ v, numberOf content = some v ∧ takes path (showInt v)) :
    Kept (takes path) numberOf showInt on set (get ((f.when on) x).2.1) (x.2.files path)
      (((f.when on) x).2.2.files path) := by
  cases on with
  | false => exact kept_off
  | true =>
    subst hf
    refine kept_set (hs.number path hpath) hset fun content hc => ?_
    obtain ⟨v, hv, htakes⟩ := hfound content hc
    have hread : getInitialValue x.2 path (get x.1) = v := by
      rw [getInitialValue, hc, Option.bind_some]
      exact congrArg (Option.getD · _) hv
    dsimp only [Setting.when, write]
    rw [if_pos rfl, hget, hread]
    exact ⟨hv, htakes⟩

theorem kept_thp (on : Bool) (x : SysTuneBackup × Tunables) (hs : Serves K takes)
    (hfound : ∀ content, x.2.files thpEnabledPath = some content → takes thpEnabledPath (modeOf content)) :
    Kept (takes thpEnabledPath) (fun content => some (modeOf content)) id on (str "never")
      (((setThp K).when on) x).2.1.thpEnabled (x.2.files thpEnabledPath)
      ((((setThp K).when on) x).2.2.files thpEnabledPath) := by
  cases on with
  | false => exact kept_off
  | true =>
    refine kept_set (fun v hv old => ?_) hs.never.1 fun content hc => ?_
    · obtain ⟨new, hw, hmode⟩ := hs.mode v hv old
      exact ⟨new, hw, congrArg some hmode⟩
    · have hmode : (((setThp K).when true) x).2.1.thpEnabled = modeOf content := mode_eq hc
      rw [hmode]
      exact ⟨rfl, hfound content hc⟩

theorem backup_when {α : Type} {get : SysTuneBackup → α} {on : Bool} {f : Setting} {x : SysTuneBackup × Tunables}
    (h : get (f x).2.1 = get x.1) : get ((f.when on) x).2.1 = get x.1 := by
  cases on with
  | false => rfl
  | true => exact h

theorem backup_swapoff (x : SysTuneBackup × Tunables) : (swapoff K x).2.1 = x.1 := by
  unfold swapoff
  split <;> rfl

/-- No step but the first is about the governors. -/
theorem cpuGovs_open (sw : RealtimeTuneSwitch) (x : SysTuneBackup × Tunables) :
    (openProcAndSys K sw x).2.1.cpuGovs =
      (((setCpuFreqPerformance K).when sw.cpufreqPerformance) x).2.1.cpuGovs :=
  (backup_when rfl).trans <| (backup_when rfl).trans <| (backup_when (congrArg _ (backup_swapoff _))).trans <|
    (backup_when rfl).trans <| (backup_when rfl).trans (backup_when rfl)

/-- WHAT IS FOUND IS KEPT, and what is set is shown. -/
theorem opened_openProcAndSys (sw : RealtimeTuneSwitch) {x : SysTuneBackup × Tunables} (hs : Serves K takes)
    (hf : Found K takes x.2) :
    Opened K.node takes sw x.2 (openProcAndSys K sw x).2.1 (openProcAndSys K sw x).2.2 := by
  obtain ⟨x1, hx1⟩ : ∃ y, y = (((setCpuFreqPerformance K).when sw.cpufreqPerformance) x).2 := ⟨_, rfl⟩
  obtain ⟨x2, hx2⟩ : ∃ y, y = (((setThp K).when sw.transparentHugepage) x1).2 := ⟨_, rfl⟩
  obtain ⟨x3, hx3⟩ : ∃ y, y = (((setNumaBalancing K).when sw.numaBalancing) x2).2 := ⟨_, rfl⟩
  obtain ⟨x4, hx4⟩ : ∃ y, y = (((setKsm K).when sw.ksm) x3).2 := ⟨_, rfl⟩
  obtain ⟨x5, hx5⟩ : ∃ y, y = (((swapoff K).when sw.swap) x4).2 := ⟨_, rfl⟩
  obtain ⟨x6, hx6⟩ : ∃ y, y = (((setTimerMigration K).when sw.timerMigration) x5).2 := ⟨_, rfl⟩
  obtain ⟨x7, hx7⟩ : ∃ y, y = (((setSchedRuntime K).when (decide (sw.rtRuntimeUs = -1))) x6).2 := ⟨_, rfl⟩
  have hopen : (openProcAndSys K sw x).2 = x7 := by
    rw [hx7, hx6, hx5, hx4, hx3, hx2, hx1]
    rfl
  -- each step leaves the files of the others alone
  have h1 : ∀ p ∈ fixedPaths, x1.2.files p = x.2.files p := fun p hp => by
    rw [hx1]
    exact files_when (files_setCpuFreqPerformance hs hp x)
  have h2 : ∀ p, p ≠ thpEnabledPath → x2.2.files p = x1.2.files p := fun p hp => by
    rw [hx2]
    exact files_when (files_set_of_ne hs (by simp) hp)
  have h3 : ∀ p, p ≠ numaBalancingPath → x3.2.files p = x2.2.files p := fun p hp => by
    rw [hx3]
    exact files_when (files_set_of_ne hs (by simp) hp)
  have h4 : ∀ p, p ≠ ksmRunPath → x4.2.files p = x3.2.files p := fun p hp => by
    rw [hx4]
    exact files_when (files_set_of_ne hs (by simp) hp)
  have h5 : ∀ p, x5.2.files p = x4.2.files p := fun p => by
    rw [hx5]
    refine files_when ?_
    unfold swapoff
    split <;> rfl
  have h6 : ∀ p, p ≠ timerMigrationPath → x6.2.files p = x5.2.files p := fun p hp => by
    rw [hx6]
    exact files_when (files_set_of_ne hs (by simp) hp)
  have h7 : ∀ p, p ≠ schedRuntimePath → x7.2.files p = x6.2.files p := fun p hp => by
    rw [hx7]
    exact files_when (files_set_of_ne hs (by simp) hp)
  -- and what is kept of the others
  have k3 : ∀ {α : Type} {get : SysTuneBackup → α}, (∀ v b, get { b with numaBalancing := v } = get b) →
      get x3.1 = get x2.1 := fun h => hx3 ▸ backup_when (h _ _)
  have k4 : ∀ {α : Type} {get : SysTuneBackup → α}, (∀ v b, get { b with ksmRun := v } = get b) →
      get x4.1 = get x3.1 := fun h => hx4 ▸ backup_when (h _ _)
  have k5 : ∀ {α : Type} {get : SysTuneBackup → α}, get x5.1 = get x4.1 := fun {α get} =>
    hx5 ▸ backup_when (congrArg get (backup_swapoff x4))
  have k6 : ∀ {α : Type} {get : SysTuneBackup → α}, (∀ v b, get { b with timerMigration := v } = get b) →
      get x6.1 = get x5.1 := fun h => hx6 ▸ backup_when (h _ _)
  have k7 : ∀ {α : Type} {get : SysTuneBackup → α}, (∀ v b, get { b with schedRtRuntime := v } = get b) →
      get x7.1 = get x6.1 := fun h => hx7 ▸ backup_when (h _ _)
  rw [hopen]
  have hnuma : x7.1.numaBalancing = x3.1.numaBalancing :=
    (k7 fun _ _ => rfl).trans <| (k6 fun _ _ => rfl).trans <| k5.trans (k4 fun _ _ => rfl)
  have hksm : x7.1.ksmRun = x4.1.ksmRun := (k7 fun _ _ => rfl).trans <| (k6 fun _ _ => rfl).trans k5
  have htimer : x7.1.timerMigration = x6.1.timerMigration := k7 fun _ _ => rfl
  have hthp : x7.1.thpEnabled = x2.1.thpEnabled :=
    (k7 fun _ _ => rfl).trans <| (k6 fun _ _ => rfl).trans <| k5.trans <| (k4 fun _ _ => rfl).trans (k3 fun _ _ => rfl)
  have hgovs : x7.1.cpuGovs = x1.1.cpuGovs := by
    rw [← hopen, hx1]
    exact cpuGovs_open sw x
  have hgov : ∀ p, IsGovernor p → x7.2.files p = x1.2.files p := by
    intro p hp
    have hne : ∀ {path}, path ∈ fixedPaths → p ≠ path := fun hpath heq => not_governor hpath (heq ▸ hp)
    rw [h7 p (hne (by simp)), h6 p (hne (by simp)), h5, h4 p (hne (by simp)), h3 p (hne (by simp)),
      h2 p (hne (by simp))]
  have h0 : str "0" = showInt 0 := by decide
  have hm1 : str "-1" = showInt (-1) := by decide
  have hnuma2 : x2.2.files numaBalancingPath = x.2.files numaBalancingPath := by
    rw [h2 _ (by simp), h1 _ (by simp)]
  have hksm3 : x3.2.files ksmRunPath = x.2.files ksmRunPath := by
    rw [h3 _ (by simp), h2 _ (by simp), h1 _ (by simp)]
  have htimer5 : x5.2.files timerMigrationPath = x.2.files timerMigrationPath := by
    rw [h5, h4 _ (by simp), h3 _ (by simp), h2 _ (by simp), h1 _ (by simp)]
  have hsched6 : x6.2.files schedRuntimePath = x.2.files schedRuntimePath := by
    rw [h6 _ (by simp), h5, h4 _ (by simp), h3 _ (by simp), h2 _ (by simp), h1 _ (by simp)]
  have hthp1 : x1.2.files thpEnabledPath = x.2.files thpEnabledPath := h1 _ (by simp)
  exact {
    numaBalancing := by
      have h := kept_number sw.numaBalancing (·.numaBalancing) (fun v b => { b with numaBalancing := v }) (setNumaBalancing K) x2 hs
        (by simp : numaBalancingPath ∈ numberPaths)
        (hs.off _ (by simp)).1 (by rw [← h0]; rfl) (fun _ _ => rfl) (by rw [hnuma2]; exact hf.number _ (by simp))
      rwa [← hx3, hnuma2, ← hnuma, ← h4 _ (by simp), ← h5, ← h6 _ (by simp), ← h7 _ (by simp)] at h
    ksm := by
      have h := kept_number sw.ksm (·.ksmRun) (fun v b => { b with ksmRun := v }) (setKsm K) x3 hs
        (by simp : ksmRunPath ∈ numberPaths)
        (hs.off _ (by simp)).1 (by rw [← h0]; rfl) (fun _ _ => rfl) (by rw [hksm3]; exact hf.number _ (by simp))
      rwa [← hx4, hksm3, ← hksm, ← h5, ← h6 _ (by simp), ← h7 _ (by simp)] at h
    timerMigration := by
      have h := kept_number sw.timerMigration (·.timerMigration) (fun v b => { b with timerMigration := v }) (setTimerMigration K) x5 hs
        (by simp : timerMigrationPath ∈ numberPaths)
        (hs.off _ (by simp)).1 (by rw [← h0]; rfl) (fun _ _ => rfl) (by rw [htimer5]; exact hf.number _ (by simp))
      rwa [← hx6, htimer5, ← htimer, ← h7 _ (by simp)] at h
    rtRuntime := by
      have h := kept_number (decide (sw.rtRuntimeUs = -1)) (·.schedRtRuntime) (fun v b => { b with schedRtRuntime := v }) (setSchedRuntime K) x6 hs
        (by simp : schedRuntimePath ∈ numberPaths)
        hs.unlimited (by rw [← hm1]; rfl) (fun _ _ => rfl) (by rw [hsched6]; exact hf.number _ (by simp))
      rwa [← hx7, hsched6] at h
    thp := by
      have h := kept_thp sw.transparentHugepage x1 hs (by rw [hthp1]; exact hf.mode)
      rwa [← hx2, hthp1, ← hthp, ← h3 _ (by simp), ← h4 _ (by simp), ← h5, ← h6 _ (by simp),
        ← h7 _ (by simp)] at h
    governors := by
      intro hon
      have h := governed_setCpuFreqPerformance hs hf
      have hx : x1 = (setCpuFreqPerformance K x).2 := by rw [hx1, hon]; rfl
      rw [← hx] at h
      exact {
        missing := fun p hp => by rw [hgov p hp]; exact h.missing p
        shown := fun p hp hne => by
          rw [governorAt, hgov p hp]
          exact h.shown p p hp hne rfl hne
        kept := fun p c hp hc => by
          obtain ⟨q, -, hne, hnode, hfind⟩ := h.kept p c p hp (by simp [hc]) rfl hc
          exact ⟨q, hne, hnode, hgovs ▸ hfind⟩
        values := fun q c hq hc => by
          rw [hgovs]
          exact h.values q c hq hc }
    untouched := by
      intro hoff p hp
      rw [hgov p hp, hx1, hoff]
      rfl }

/-! ### What is written back -/

theorem mode_congr {t t' : Tunables} (h : (t'.files thpEnabledPath).bind (fun content => some (modeOf content)) =
    (t.files thpEnabledPath).bind (fun content => some (modeOf content))) :
    getCurrentThpMode t' = getCurrentThpMode t := by
  have hmode : ∀ t : Tunables, getCurrentThpMode t = ((t.files thpEnabledPath).bind
      (fun content => some (modeOf content))).getD [] := by
    intro t
    cases hc : t.files thpEnabledPath with
    | none => rw [getCurrentThpMode, hc]; rfl
    | some content => exact mode_eq hc
  rw [hmode, hmode, h]

theorem files_restoreGovernors {cpuGovs : UMap Str Str} (hs : Serves K takes) (hp : p ∈ fixedPaths)
    (hkeys : ∀ q, cpuGovs.find q ≠ none → IsGovernor q) : ∀ (qs : List Str) (t : Tunables),
    (qs.foldl (restoreGovernor K cpuGovs) t).files p = t.files p
  | [], _ => rfl
  | q :: qs, t => by
    rw [List.foldl_cons, files_restoreGovernors hs hp hkeys qs]
    unfold restoreGovernor
    split
    · rfl
    · rename_i v hfind
      split
      · rfl
      · exact files_set_governor hs hp (hkeys q (by simp [hfind]))

theorem missing_restoreGovernors {cpuGovs : UMap Str Str} (p : Str) : ∀ {qs : List Str} {t : Tunables},
    (qs.foldl (restoreGovernor K cpuGovs) t).files p = none ↔ t.files p = none
  | [], _ => Iff.rfl
  | q :: qs, t => by
    rw [List.foldl_cons, missing_restoreGovernors p]
    unfold restoreGovernor
    split
    · exact Iff.rfl
    · split
      · exact Iff.rfl
      · exact files_set_eq_none

/-- WHAT WAS FOUND IS SHOWN AGAIN: where the value that stands for none was kept, it is the one that was set. -/
theorem same_disableProcAndSys {sw : RealtimeTuneSwitch} {b : SysTuneBackup} {order : List Str} (hs : Serves K takes)
    (hshared : ∀ p q, K.node p = K.node q → ∀ a b, t0.files p = some a → t0.files q = some b → a = b)
    (htakes : ∀ path, IsGovernor path → ∀ content, t0.files path = some content → takes path (firstLine content))
    (hkeys : ∀ q, b.cpuGovs.find q ≠ none → IsGovernor q) (h : Opened K.node takes sw t0 b t) :
    SameTunables t0 (disableProcAndSys K order sw b t) := by
  obtain ⟨t1, ht1⟩ : ∃ y, y = if sw.swap then swapon K t else t := ⟨_, rfl⟩
  obtain ⟨t2, ht2⟩ : ∃ y, y = if sw.ksm then restoreNumber K ksmRunPath b.ksmRun t1 else t1 := ⟨_, rfl⟩
  obtain ⟨t3, ht3⟩ : ∃ y, y = if sw.numaBalancing then restoreNumber K numaBalancingPath b.numaBalancing t2 else t2 :=
    ⟨_, rfl⟩
  obtain ⟨t4, ht4⟩ : ∃ y, y = if sw.timerMigration then restoreNumber K timerMigrationPath b.timerMigration t3 else t3 :=
    ⟨_, rfl⟩
  obtain ⟨t5, ht5⟩ : ∃ y, y = if sw.rtRuntimeUs = -1 then restoreNumber K schedRuntimePath b.schedRtRuntime t4 else t4 :=
    ⟨_, rfl⟩
  obtain ⟨t6, ht6⟩ : ∃ y, y = if sw.transparentHugepage then restoreThp K b.thpEnabled t5 else t5 := ⟨_, rfl⟩
  obtain ⟨t7, ht7⟩ : ∃ y, y = if sw.cpufreqPerformance then
      (b.cpuGovs.reorder order).keys.foldl (restoreGovernor K b.cpuGovs) t6 else t6 := ⟨_, rfl⟩
  have hdisable : disableProcAndSys K order sw b t = t7 := by
    rw [ht7, ht6, ht5, ht4, ht3, ht2, ht1]
    rfl
  have hnumber : ∀ {path p v} {t : Tunables}, path ∈ fixedPaths → p ≠ path →
      (restoreNumber K path v t).files p = t.files p := by
    intro path p v t hpath hne
    unfold restoreNumber
    split
    · rfl
    · exact files_set_of_ne hs hpath hne
  have h1 : ∀ p, t1.files p = t.files p := fun p => by
    rw [ht1]
    unfold swapon
    split
    · split <;> rfl
    · rfl
  have h2 : ∀ p, p ≠ ksmRunPath → t2.files p = t1.files p := fun p hp => by
    rw [ht2]
    split
    · exact hnumber (by simp) hp
    · rfl
  have h3 : ∀ p, p ≠ numaBalancingPath → t3.files p = t2.files p := fun p hp => by
    rw [ht3]
    split
    · exact hnumber (by simp) hp
    · rfl
  have h4 : ∀ p, p ≠ timerMigrationPath → t4.files p = t3.files p := fun p hp => by
    rw [ht4]
    split
    · exact hnumber (by simp) hp
    · rfl
  have h5 : ∀ p, p ≠ schedRuntimePath → t5.files p = t4.files p := fun p hp => by
    rw [ht5]
    split
    · exact hnumber (by simp) hp
    · rfl
  have h6 : ∀ p, p ≠ thpEnabledPath → t6.files p = t5.files p := fun p hp => by
    rw [ht6]
    split
    · unfold restoreThp
      split
      · rfl
      · exact files_set_of_ne hs (by simp) hp
    · rfl
  have h7 : ∀ p ∈ fixedPaths, t7.files p = t6.files p := fun p hp => by
    rw [ht7]
    split
    · exact files_restoreGovernors hs hp hkeys _ _
    · rfl
  rw [hdisable]
  refine ⟨fun path hpath => ?_, ?_, fun p hp => ?_⟩
  · simp only [numberPaths, List.mem_cons, List.not_mem_nil, or_false] at hpath
    rcases hpath with rfl | rfl | rfl | rfl
    · have hkept := h.numaBalancing
      rw [← h1, ← h2 _ (by simp)] at hkept
      rw [numberAt, h7 _ (by simp), h6 _ (by simp), h5 _ (by simp), h4 _ (by simp), ht3]
      exact read_restored (-1) (hs.number _ (by simp)) (fun htakes => absurd htakes (hs.off _ (by simp)).2) hkept
    · have hkept := h.ksm
      rw [← h1] at hkept
      rw [numberAt, h7 _ (by simp), h6 _ (by simp), h5 _ (by simp), h4 _ (by simp), h3 _ (by simp), ht2]
      exact read_restored (-1) (hs.number _ (by simp)) (fun htakes => absurd htakes (hs.off _ (by simp)).2) hkept
    · have hkept := h.timerMigration
      rw [← h1, ← h2 _ (by simp), ← h3 _ (by simp)] at hkept
      rw [numberAt, h7 _ (by simp), h6 _ (by simp), h5 _ (by simp), ht4]
      exact read_restored (-1) (hs.number _ (by simp)) (fun htakes => absurd htakes (hs.off _ (by simp)).2) hkept
    · have hkept := h.rtRuntime
      rw [← h1, ← h2 _ (by simp), ← h3 _ (by simp), ← h4 _ (by simp)] at hkept
      rw [numberAt, h7 _ (by simp), h6 _ (by simp), ht5]
      have hread := read_restored (-1) (hs.number _ (by simp)) (fun _ => rfl) hkept
      simp only [decide_eq_true_eq] at hread
      exact hread
  · have hkept := h.thp
    rw [← h1, ← h2 _ (by simp), ← h3 _ (by simp), ← h4 _ (by simp), ← h5 _ (by simp)] at hkept
    have hserves : ∀ v, takes thpEnabledPath (id v) → ∀ old, ∃ new, K.write thpEnabledPath (id v) old = some new ∧
        some (modeOf new) = some v := by
      intro v hv old
      obtain ⟨new, hw, hmode⟩ := hs.mode v hv old
      exact ⟨new, hw, congrArg some hmode⟩
    have hread := read_restored [] hserves (fun htakes => absurd htakes hs.never.2) hkept
    have hnow : t7.files thpEnabledPath = (if sw.transparentHugepage then restoreThp K b.thpEnabled t5 else t5).files
        thpEnabledPath := by rw [h7 _ (by simp), ht6]
    exact mode_congr (by rw [hnow]; exact hread)
  · have hfiles : ∀ p, IsGovernor p → t6.files p = t.files p := by
      intro p hp
      have hne : ∀ {path}, path ∈ fixedPaths → p ≠ path := fun hpath heq => not_governor hpath (heq ▸ hp)
      rw [h6 p (hne (by simp)), h5 p (hne (by simp)), h4 p (hne (by simp)), h3 p (hne (by simp)),
        h2 p (hne (by simp)), h1]
    cases hon : sw.cpufreqPerformance with
    | false => rw [governorAt, governorAt, ht7, hon, if_neg Bool.false_ne_true, hfiles p hp, h.untouched hon p hp]
    | true =>
      have hgov := h.governors hon
      have hmissing : ∀ q, IsGovernor q → (t6.files q = none ↔ t0.files q = none) := fun q hq => by
        rw [hfiles q hq]
        exact hgov.missing q hq
      rw [ht7, hon, if_pos rfl]
      cases hc : t0.files p with
      | none =>
        rw [governorAt, governorAt, hc, (missing_restoreGovernors p).mpr ((hmissing p hp).mpr hc)]
      | some c =>
        have hc' : governorAt t0 p = some (firstLine c) := by rw [governorAt, hc, Option.map_some]
        rw [hc']
        refine governor_restored hs hp hshared htakes hc hkeys hgov.values hmissing (.inr ⟨?_, ?_⟩)
        · rw [governorAt, hfiles p hp]
          exact hgov.shown p hp (by simp [hc])
        · obtain ⟨q, hne, hnode, hfind⟩ := hgov.kept p c hp hc
          refine ⟨q, ?_, hne, hnode, hfind⟩
          rw [UMap.mem_keys, UMap.find_reorder, hfind]
          rfl

end

/-! ### Cycles -/

/-- The object and what there is outside; and, while it is enabled, the tunables that `OpenProcAndSys` found. -/
structure Machine (g : Grubby) where
  fields : Fields
  world : World g
  began : Option Tunables

/-- What happens: a call of `Enable` or of `Disable`, or others change what there is outside. -/
inductive CycleAct (g : Grubby) where
  | enable (o : Outcomes)
  | disable (o : DisableOutcomes)
  | others (w : World g)

/-- `Enable` counts where it succeeds. -/
def cycleStep {g : Grubby} (m : Machine g) : CycleAct g → Except Unit (Machine g)
  | .enable o =>
    match enable o m.fields m.world with
    | none => .error ()
    | some (res, s, w) => .ok ⟨s, w, if res.failed then none else some m.world.tunables⟩
  | .disable o =>
    match disable o m.fields m.world with
    | none => .error ()
    | some (s, w) => .ok ⟨s, w, none⟩
  | .others w => .ok { m with world := w }

/-- The calls alternate, others change something between two cycles only, and reads and writes succeed. -/
def Works {g : Grubby} (node : Str → Str) (takes : Str → Str → Prop) (m : Machine g) : CycleAct g → Prop
  | .enable o => m.began = none ∧ o.kernel.node = node ∧ Serves o.kernel takes ∧ Found o.kernel takes m.world.tunables
  | .disable o => m.began ≠ none ∧ o.kernel.node = node ∧ Serves o.kernel takes
  | .others _ => m.began = none

section
variable {g : Grubby} {node : Str → Str} {takes : Str → Str → Prop}

/-- What is kept of governors is kept of governors, and while it is enabled the object is as `OpenProcAndSys` left it. -/
structure Cycling (node : Str → Str) (takes : Str → Str → Prop) (m : Machine g) : Prop where
  keys : ∀ q, m.fields.backup.cpuGovs.find q ≠ none → IsGovernor q
  opened : ∀ t0, m.began = some t0 →
    Opened node takes m.fields.switchConfig t0 m.fields.backup m.world.tunables ∧
      (∀ p q, node p = node q → ∀ a b, t0.files p = some a → t0.files q = some b → a = b) ∧
      (∀ path, IsGovernor path → ∀ content, t0.files path = some content → takes path (firstLine content))

/-- No entry of the governors is of anything else. -/
theorem keys_setCpuFreqPerformance {K : Kernel} {x : SysTuneBackup × Tunables}
    (h : ∀ q, x.1.cpuGovs.find q ≠ none → IsGovernor q) :
    ∀ q, (setCpuFreqPerformance K x).2.1.cpuGovs.find q ≠ none → IsGovernor q := by
  have hround : ∀ {name : Str} {x : SysTuneBackup × Tunables}, isCpuEntry name = true →
      (∀ q, x.1.cpuGovs.find q ≠ none → IsGovernor q) →
      ∀ q, (setGovernor K name x).2.1.cpuGovs.find q ≠ none → IsGovernor q := by
    intro name x hname h q hq
    cases hc : x.2.files (governorPath name) with
    | none =>
      have hx : (setGovernor K name x).2 = x := by simp only [setGovernor, hc]
      rw [hx] at hq
      exact h q hq
    | some c =>
      rw [setGovernor_eq hc, UMap.find_insert] at hq
      split at hq
      · rename_i hqr
        exact ⟨name, hname, hqr⟩
      · exact h q hq
  have hrounds : ∀ {names : List Str} {x : SysTuneBackup × Tunables}, (∀ name ∈ names, isCpuEntry name = true) →
      (∀ q, x.1.cpuGovs.find q ≠ none → IsGovernor q) →
      ∀ q, ((names.foldr (fun name rest => (setGovernor K name).and rest) (fun x => (true, x))) x).2.1.cpuGovs.find q
        ≠ none → IsGovernor q := by
    intro names
    induction names with
    | nil => exact fun _ h => h
    | cons name names ih =>
      intro x hnames h
      obtain ⟨hname, hnames⟩ := List.forall_mem_cons.mp hnames
      exact ih hnames (hround hname h)
  unfold setCpuFreqPerformance
  split
  · exact h
  · exact hrounds (fun name hname => (List.mem_filter.mp hname).2) h

theorem keys_openProcAndSys (K : Kernel) (sw : RealtimeTuneSwitch) {x : SysTuneBackup × Tunables}
    (h : ∀ q, x.1.cpuGovs.find q ≠ none → IsGovernor q) :
    ∀ q, (openProcAndSys K sw x).2.1.cpuGovs.find q ≠ none → IsGovernor q := by
  have hfirst : ∀ q, ((((setCpuFreqPerformance K).when sw.cpufreqPerformance) x).2.1.cpuGovs).find q ≠ none →
      IsGovernor q := by
    cases sw.cpufreqPerformance with
    | false => exact h
    | true => exact keys_setCpuFreqPerformance h
  intro q hq
  rw [cpuGovs_open] at hq
  exact hfirst q hq

theorem finish_tunables (o : Outcomes) (s : Fields) (w : World g) :
    (finish o s w).2.1.switchConfig = s.switchConfig ∧
      ((finish o s w).2.1.backup, (finish o s w).2.2.tunables) =
        (openProcAndSys o.kernel s.switchConfig (s.backup, w.tunables)).2 := by
  unfold finish
  dsimp only
  split <;> exact ⟨rfl, rfl⟩

/-- `Enable` fails before it comes to the tunables, or keeps and sets them. -/
theorem enable_tunables {o : Outcomes} {s s' : Fields} {w w' : World g} {res : Result}
    (h : enable o s w = some (res, s', w')) :
    s'.backup = s.backup ∧ w'.tunables = w.tunables ∧ res.failed = true ∨
      (s'.backup, w'.tunables) = (openProcAndSys o.kernel s'.switchConfig (s.backup, w.tunables)).2 := by
  have hfinish : ∀ {s1 : Fields} {w1 : World g}, some (finish o s1 w1) = some (res, s', w') →
      s1.backup = s.backup → w1.tunables = w.tunables →
      (s'.backup, w'.tunables) = (openProcAndSys o.kernel s'.switchConfig (s.backup, w.tunables)).2 := by
    intro s1 w1 h hb ht
    obtain ⟨hsw, hopen⟩ := finish_tunables o s1 w1
    rw [Option.some.inj h, hb, ht] at hopen
    rw [Option.some.inj h] at hsw
    rw [hopen, hsw]
  unfold enable at h
  split at h
  · dsimp only at h
    split at h
    · split at h
      · cases h
        exact .inl ⟨rfl, rfl, rfl⟩
      · unfold updateAndFinish at h
        dsimp only at h
        split at h
        · obtain ⟨r, -, h⟩ := Option.bind_eq_some_iff.mp h
          split at h
          · exact .inr (hfinish h rfl rfl)
          · cases h
            exact .inl ⟨rfl, rfl, rfl⟩
        · exact .inr (hfinish h rfl rfl)
    · cases h
      exact .inl ⟨rfl, rfl, rfl⟩
  · cases h
    exact .inl ⟨rfl, rfl, rfl⟩

/-- `Disable` writes back, and keeps what is kept. -/
theorem disable_tunables {o : DisableOutcomes} {s s' : Fields} {w w' : World g} (h : disable o s w = some (s', w')) :
    s'.backup = s.backup ∧
      w'.tunables = disableProcAndSys o.kernel o.order s.switchConfig s.backup w.tunables := by
  have hrest : ∀ {w1 : World g}, (match w1.config with
      | none => some (s, w1)
      | some config => (removeRealtimeTuneFromConfig config).map fun config => (s, { w1 with config := some config })) =
        some (s', w') → s' = s ∧ w'.tunables = w1.tunables := by
    intro w1 h
    split at h
    · cases h
      exact ⟨rfl, rfl⟩
    · obtain ⟨config, -, h⟩ := Option.map_eq_some_iff.mp h
      cases h
      exact ⟨rfl, rfl⟩
  unfold disable at h
  dsimp only at h
  split at h
  · cases h
    exact ⟨rfl, rfl⟩
  · obtain ⟨rfl, ht⟩ := hrest h
    refine ⟨rfl, ht.trans ?_⟩
    split <;> rfl

namespace Cycling

theorem step {m m' : Machine g} {a : CycleAct g} (h : Cycling node takes m) (hok : Works node takes m a)
    (hstep : cycleStep m a = .ok m') : Cycling node takes m' := by
  cases a with
  | enable o =>
    obtain ⟨-, hnode, hserves, hfound⟩ := hok
    subst hnode
    rw [cycleStep] at hstep
    split at hstep
    · cases hstep
    · rename_i res s w henable
      cases hstep
      rcases enable_tunables henable with ⟨hb, -, hfailed⟩ | hopen
      · refine ⟨fun q hq => ?_, fun t0 ht0 => ?_⟩
        · dsimp only at hq
          rw [hb] at hq
          exact h.keys q hq
        · dsimp only at ht0
          rw [if_pos hfailed] at ht0
          cases ht0
      · have hopened := opened_openProcAndSys s.switchConfig
          (x := (m.fields.backup, m.world.tunables)) hserves hfound
        have hkeys := keys_openProcAndSys o.kernel s.switchConfig
          (x := (m.fields.backup, m.world.tunables)) h.keys
        rw [← hopen] at hopened hkeys
        refine ⟨hkeys, fun t0 ht0 => ?_⟩
        dsimp only at ht0
        split at ht0
        · cases ht0
        · cases ht0
          exact ⟨hopened, hfound.shared, hfound.governor⟩
  | disable o =>
    rw [cycleStep] at hstep
    split at hstep
    · cases hstep
    · rename_i s w hdisable
      cases hstep
      obtain ⟨hb, -⟩ := disable_tunables hdisable
      refine ⟨fun q hq => h.keys q ?_, fun t0 ht0 => by cases ht0⟩
      dsimp only at hq
      rwa [hb] at hq
  | others w =>
    cases hstep
    exact ⟨h.keys, fun t0 ht0 => by rw [show m.began = none from hok] at ht0; cases ht0⟩

theorem of_runs {w : World g} {m : Machine g}
    (h : Runs cycleStep ⟨Fields.init, w, none⟩ (Works node takes) m) : Cycling node takes m :=
  h.invariant ⟨fun _ hq => absurd rfl hq, fun _ h => by cases h⟩ (fun _ _ _ h hok hstep => h.step hok hstep)

end Cycling

/-- EACH `Disable` SHOWS WHAT THE SAME CYCLE FOUND: in every run, whatever the switches of each cycle are and whatever
    others change in between, all tunables show again what they showed when `OpenProcAndSys` began. -/
theorem disable_restores_of_runs {w : World g} {m m' : Machine g} {o : DisableOutcomes} {t0 : Tunables}
    (h : Runs cycleStep ⟨Fields.init, w, none⟩ (Works node takes) m) (hok : Works node takes m (.disable o))
    (hbegan : m.began = some t0) (hstep : cycleStep m (.disable o) = .ok m') :
    SameTunables t0 m'.world.tunables := by
  have hcycling := Cycling.of_runs h
  obtain ⟨hopened, hshared, htakes⟩ := hcycling.opened t0 hbegan
  obtain ⟨-, hnode, hserves⟩ := hok
  subst hnode
  rw [cycleStep] at hstep
  split at hstep
  · cases hstep
  · rename_i s w' hdisable
    cases hstep
    obtain ⟨-, ht⟩ := disable_tunables hdisable
    dsimp only
    rw [ht]
    exact same_disableProcAndSys hserves hshared htakes hcycling.keys hopened

theorem began_enable {m m' : Machine g} {o : Outcomes} (h : cycleStep m (.enable o) = .ok m')
    (hbegan : m'.began.isSome = true) : m'.began = some m.world.tunables := by
  rw [cycleStep] at h
  split at h
  · cases h
  · cases h
    dsimp only at hbegan ⊢
    split
    · rename_i hfailed
      rw [if_pos hfailed] at hbegan
      cases hbegan
    · rfl

end

/-! ### Two CPUs with one governor -/

def sampleNode (path : Str) : Str := if path = governorPath (str "cpu1") then governorPath (str "cpu0") else path

/-- What the files read. -/
def sampleFiles (path : Str) : Option Str :=
  [(numaBalancingPath, str "1\n"), (ksmRunPath, str "0\n"), (timerMigrationPath, str "1\n"),
    (schedRuntimePath, str "950000\n"), (thpEnabledPath, str "always [madvise] never\n"),
    (governorPath (str "cpu0"), str "powersave\n")].lookup (sampleNode path)

def sampleTakes (path value : Str) : Prop :=
  if path = schedRuntimePath then value = showInt (-1) ∨ value = showInt 950000
  else if path = thpEnabledPath then value = str "never" ∨ value = str "madvise"
  else if path ∈ numberPaths then value = showInt 0 ∨ value = showInt 1
  else value = str "performance" ∨ value = str "powersave"

def sampleKernel : Kernel where
  write path value _ :=
    if path = thpEnabledPath then
      some (if value = str "never" then str "always madvise [never]\n" else str "always [madvise] never\n")
    else some (value ++ [10])
  popen _ := true
  cpuDir := some [str "cpu0", str "cpu1", str "cpufreq"]
  node := sampleNode

theorem serves_sample : Serves sampleKernel sampleTakes where
  number path hpath v hv old := by
    have hvalues : v = -1 ∨ v = 950000 ∨ v = 0 ∨ v = 1 := by
      unfold sampleTakes at hv
      split at hv
      · exact hv.imp showInt_injective (fun h => .inl (showInt_injective h))
      · split at hv
        · rename_i hthp
          rw [hthp] at hpath
          simp [numberPaths] at hpath
        · -- the path is one of those with a number
          exact .inr (.inr (hv.imp showInt_injective showInt_injective))
    have hthp : path ≠ thpEnabledPath := by
      rintro rfl
      simp [numberPaths] at hpath
    refine ⟨showInt v ++ [10], if_neg hthp, ?_⟩
    rcases hvalues with rfl | rfl | rfl | rfl <;> decide
  mode m hm old := by
    rw [sampleTakes, if_neg (by simp), if_pos rfl] at hm
    rcases hm with rfl | rfl
    · exact ⟨str "always madvise [never]\n", rfl, by decide⟩
    · exact ⟨str "always [madvise] never\n", rfl, by decide⟩
  governor path hpath gov hgov old := by
    have hne : ∀ {p}, p ∈ fixedPaths → path ≠ p := fun hp heq => not_governor hp (heq ▸ hpath)
    have hnumber : path ∉ numberPaths := fun h => not_governor (List.mem_cons_of_mem _ h) hpath
    rw [sampleTakes, if_neg (hne (by simp)), if_neg (hne (by simp)), if_neg hnumber] at hgov
    refine ⟨gov ++ [10], if_neg (hne (by simp)), ?_⟩
    rcases hgov with rfl | rfl <;> decide
  off path hpath := by
    have hm1 : showInt (-1) ≠ showInt 0 ∧ showInt (-1) ≠ showInt 1 := by decide
    simp only [List.mem_cons, List.not_mem_nil, or_false] at hpath
    rcases hpath with rfl | rfl | rfl
    all_goals
      rw [sampleTakes, if_neg (by simp), if_neg (by simp), if_pos (by simp)]
      exact ⟨.inl rfl, by
        rw [sampleTakes, if_neg (by simp), if_neg (by simp), if_pos (by simp)]
        exact fun h => h.elim hm1.1 hm1.2⟩
  unlimited := by
    rw [sampleTakes, if_pos rfl]
    exact .inl rfl
  never := by
    rw [sampleTakes, if_neg (by simp), if_pos rfl]
    refine ⟨.inl rfl, ?_⟩
    rw [sampleTakes, if_neg (by simp), if_pos rfl]
    decide
  performance path hpath := by
    have hne : ∀ {p}, p ∈ fixedPaths → path ≠ p := fun hp heq => not_governor hp (heq ▸ hpath)
    have hnumber : path ∉ numberPaths := fun h => not_governor (List.mem_cons_of_mem _ h) hpath
    rw [sampleTakes, if_neg (hne (by simp)), if_neg (hne (by simp)), if_neg hnumber]
    exact .inl rfl
  apart path hpath q hq := by
    have hgov : ∀ {name}, isCpuEntry name = true → path ≠ governorPath name :=
      fun hname heq => not_governor hpath ⟨_, hname, heq⟩
    change sampleNode q = sampleNode path at hq
    rw [sampleNode, sampleNode, if_neg (hgov (by decide))] at hq
    split at hq
    · exact absurd hq.symm (hgov (by decide))
    · exact hq

theorem found_sample : Found sampleKernel sampleTakes ⟨sampleFiles, true⟩ := by
  have hfiles : ∀ p, sampleFiles p = sampleFiles (sampleNode p) := by
    intro p
    have hnode : sampleNode (sampleNode p) = sampleNode p := by
      unfold sampleNode
      split
      · exact if_neg (by decide)
      · rfl
    rw [sampleFiles, sampleFiles, hnode]
  have hgovernors : ∀ path, IsGovernor path → sampleFiles path ≠ none →
      sampleFiles path = some (str "powersave\n") ∧
        (path = governorPath (str "cpu0") ∨ path = governorPath (str "cpu1")) := by
    intro path hpath hne
    have hother : ∀ {p}, p ∈ fixedPaths → path ≠ p := fun hp heq => not_governor hp (heq ▸ hpath)
    have hcpu0 : sampleFiles (governorPath (str "cpu0")) = some (str "powersave\n") := by
      simp -index only [sampleFiles, sampleNode, governorPath, cpuFreqPath, thpEnabledPath, numaBalancingPath, ksmRunPath,
        timerMigrationPath, schedRuntimePath, str, String.toList_ofList]
      decide
    rcases eq_or_ne path (governorPath (str "cpu1")) with rfl | h1
    · rw [hfiles, show sampleNode (governorPath (str "cpu1")) = governorPath (str "cpu0") from if_pos rfl]
      exact ⟨hcpu0, .inr rfl⟩
    · rcases eq_or_ne path (governorPath (str "cpu0")) with rfl | h0
      · exact ⟨hcpu0, .inl rfl⟩
      · refine absurd ?_ hne
        rw [sampleFiles, sampleNode, if_neg h1, List.lookup_eq_none_iff]
        intro entry hentry
        rw [bne_iff_ne]
        simp only [List.mem_cons, List.not_mem_nil, or_false] at hentry
        rcases hentry with rfl | rfl | rfl | rfl | rfl | rfl
        · exact hother (by simp)
        · exact hother (by simp)
        · exact hother (by simp)
        · exact hother (by simp)
        · exact hother (by simp)
        · exact h0
  refine ⟨fun path hpath content hc => ?_, fun content hc => ?_, fun path hpath content hc => ?_,
    fun name hname hne => ?_, fun entries hentries => ?_, fun p q hnode a b ha hb => ?_⟩
  · simp only [numberPaths, List.mem_cons, List.not_mem_nil, or_false] at hpath
    rcases hpath with rfl | rfl | rfl | rfl
    · obtain rfl : str "1\n" = content := Option.some.inj hc
      exact ⟨1, by decide, .inr rfl⟩
    · obtain rfl : str "0\n" = content := Option.some.inj hc
      exact ⟨0, by decide, .inl rfl⟩
    · obtain rfl : str "1\n" = content := Option.some.inj hc
      exact ⟨1, by decide, .inr rfl⟩
    · obtain rfl : str "950000\n" = content := Option.some.inj hc
      exact ⟨950000, by decide, .inr rfl⟩
  · obtain rfl : str "always [madvise] never\n" = content := Option.some.inj hc
    exact .inr (by decide)
  · obtain ⟨hread, hpath'⟩ := hgovernors path hpath (fun hnone => by cases hnone.symm.trans hc)
    rw [show sampleFiles path = some content from hc] at hread
    cases hread
    rcases hpath' with rfl | rfl <;> exact .inr (by decide)
  · obtain ⟨-, hpath⟩ := hgovernors _ ⟨name, hname, rfl⟩ hne
    refine ⟨_, rfl, ?_⟩
    rcases hpath with h | h <;> rw [governorPath_injective h] <;> decide
  · cases hentries
    decide
  · have heq : sampleFiles p = sampleFiles q := by rw [hfiles p, hfiles q, show sampleNode p = sampleNode q from hnode]
    exact Option.some.inj (ha.symm.trans (heq.trans hb))

/-- Everything is on, but no CPU is isolated. -/
def cycleYaml : Node :=
  .map [(str "cpu_isolation", .map [(str "range", switchNode "0"), (str "features", .map
      [(str "isolcpus", switchNode "off"), (str "nohz_full", switchNode "off"), (str "rcu_nocbs", switchNode "off"),
        (str "irqaffinity", switchNode "off")])]),
    (str "cpufreq_performance", switchNode "on"),
    (str "memory", .map [(str "transparent_hugepage", switchNode "off"), (str "numa_balancing", switchNode "off"),
      (str "ksm", switchNode "off"), (str "swap", switchNode "off")]),
    (str "timer", .map [(str "migration", switchNode "off")]),
    (str "sched", .map [(str "rt_runtime_us", switchNode "off")])]

def cycleOutcomes : Outcomes where
  uname := some (str "#1 SMP PREEMPT_RT")
  nprocs := 2
  yaml := some cycleYaml
  grubby := ⟨true, true, fun _ => .done, true⟩
  kernel := sampleKernel

def cycleStart : Machine entryGrubby :=
  ⟨Fields.init, { flagWorld with tunables := ⟨sampleFiles, true⟩ }, none⟩

theorem cycle_ok : (cycleStep cycleStart (.enable cycleOutcomes)).toOption.any (fun m => m.began.isSome &&
    (governorAt m.world.tunables (governorPath (str "cpu1")) = some (str "performance")) &&
      (cycleStep m (.disable ⟨sampleKernel, [], fun _ => .done⟩)).toOption.isSome) = true := by
  decide +kernel

/-- Both have `performance` in between, and what they had again. -/
theorem disable_restores_of_runs_shared : ∃ m m' : Machine entryGrubby,
    governorAt m.world.tunables (governorPath (str "cpu1")) = some (str "performance") ∧
      SameTunables cycleStart.world.tunables m'.world.tunables := by
  cases hm : cycleStep cycleStart (.enable cycleOutcomes) with
  | error e =>
    have hok := cycle_ok
    rw [hm] at hok
    cases hok
  | ok m =>
    have hok := cycle_ok
    rw [hm] at hok
    simp only [Except.toOption, Option.any_some, Bool.and_eq_true, decide_eq_true_eq] at hok
    obtain ⟨⟨hbegan, hshown⟩, hdone⟩ := hok
    cases hm' : cycleStep m (.disable ⟨sampleKernel, [], fun _ => .done⟩) with
    | error e =>
      rw [hm'] at hdone
      cases hdone
    | ok m' =>
      have hrun : Runs cycleStep cycleStart (Works sampleNode sampleTakes) m :=
        .next (a := .enable cycleOutcomes) .start ⟨rfl, rfl, serves_sample, found_sample⟩ hm
      have ht0 := began_enable hm hbegan
      exact ⟨m, m', hshown, disable_restores_of_runs hrun
        ⟨by rw [ht0]; exact Option.some_ne_none _, rfl, serves_sample⟩ ht0 hm'⟩

end RealTimeTune
end OeAware

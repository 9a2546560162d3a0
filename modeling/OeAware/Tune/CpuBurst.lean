import Mathlib.Data.UInt
import OeAware.Analysis.Isolation
import OeAware.Schemes.Run

/-! @src src/plugin/tune/docker/cpu_burst/cpu_burst.cpp, cpu_burst_adapt.cpp | name:CpuBurst | scheme:run

    `Enable` takes the frequencies of the CPUs together, what comes in is counted up to the next `Tune`, and this decides
    whether the machine has cycles left: then the containers may burst, else they get back what they had.

        Enable ──▶ maxSysCycles ──┐
        cycles ──▶ curSysCycles ──┴──▶ Tune ──▶ cfs_burst_us := cfs_quota_us │ Exit: cfs_burst_us_ori
        list   ──▶ containers ───────────────────────────────────────────────┘

    There is one object for all cycles of `Enable` and `Disable`. It adds the frequencies to what it has, and it keeps the
    containers with what it first saw of them. -/

namespace OeAware
open Schemes

namespace CpuBurst

/-! ### State -/

structure ContainerTune where
  id : Str
  cfs_period_us : Int64
  cfs_quota_us : Int64
  cfs_burst_us : Int64
  cfs_burst_us_ori : Int64

structure State where
  cpuNum : UInt32
  maxSysCycles : UInt64
  curSysCycles : UInt64
  maxCpuFreqByDmi : UInt64
  containers : UMap Str ContainerTune

/-- The object as it is made; `maxCpuFreqByDmi` is not set then. -/
def fresh : State := ⟨0, 0, 0, 0, .empty⟩

/-- For each container the number in its `cpu.cfs_burst_us`, where the file can be opened. -/
abbrev Files := Str → Option ℤ

/-- What `Init` reads of the machine. -/
structure Machine where
  cpuNum : UInt32
  cpuCycles : ℕ → UInt64
  cpuFreqByDmi : UInt64

/-- One of the `pmuData`. -/
structure Sample where
  cpu : Int32
  count : UInt64

/-- What is read of a `Container`. -/
structure Container where
  id : Str
  cfs_period_us : Int64
  cfs_quota_us : Int64
  cfs_burst_us : Int64

/-! ### `Init` and `Update` -/

def init (machine : Machine) (s : State) : State × Bool :=
  let s := { s with curSysCycles := 0, maxCpuFreqByDmi := machine.cpuFreqByDmi, cpuNum := machine.cpuNum }
  if s.cpuNum = 0 then (s, false)
  else
    let sum := (List.range s.cpuNum.toNat).foldl (fun m i => m + machine.cpuCycles i) s.maxSysCycles
    let sum := if sum = 0 then s.maxCpuFreqByDmi * s.cpuNum.toUInt64 else sum
    ({ s with maxSysCycles := sum }, sum ≠ 0)

/-- A CPU is compared as `unsigned int`. -/
def updatePmu (data : List Sample) (s : State) : State :=
  data.foldl (fun s x =>
    if x.cpu.toUInt32 < s.cpuNum then { s with curSysCycles := s.curSysCycles + x.count } else s) s

/-- `SetCfsBurstUs`, which takes an `int`. -/
def setCfsBurstUs (id : Str) (cfsBurstUs : Int32) (files : Files) : Files :=
  if id = str "null" then files
  else if (files id).isSome then Function.update files id (some cfsBurstUs.toInt) else files

/-- `ContainerTune::Exit`. -/
def ContainerTune.exit (c : ContainerTune) (files : Files) : Files := setCfsBurstUs c.id c.cfs_burst_us_ori.toInt32 files

/-- What becomes of a container that is listed. -/
def merge (id : Str) (c : Container) : Option ContainerTune → ContainerTune
  | none => ⟨id, c.cfs_period_us, c.cfs_quota_us, c.cfs_burst_us, c.cfs_burst_us⟩
  | some t =>
    { t with cfs_period_us := c.cfs_period_us, cfs_quota_us := c.cfs_quota_us, cfs_burst_us := c.cfs_burst_us }

/-- The last entry of each container. -/
def collect (list : List Container) : UMap Str Container := list.foldl (fun m c => m.insert c.id c) .empty

/-- The first loop of `UpdateDocker`. -/
def addAll (collector : UMap Str Container) (ids : List Str) (m : UMap Str ContainerTune) : UMap Str ContainerTune :=
  ids.foldl (fun m id =>
    match collector.find id with
    | some c => m.insert id (merge id c (m.find id))
    | none => m) m

/-- The second one. -/
def removeAll (collector : UMap Str Container) (ids : List Str) (m : UMap Str ContainerTune) (files : Files) :
    UMap Str ContainerTune × Files :=
  ids.foldl (fun (m, files) id =>
    match m.find id with
    | some t => if collector.count id then (m, files) else (m.erase id, t.exit files)
    | none => (m, files)) (m, files)

/-- `UpdateDocker`; `order` is that of both maps. -/
def updateDocker (order : List Str) (list : List Container) (s : State) (files : Files) : State × Files :=
  let collector := collect list
  let added := addAll collector (collector.reorder order).keys s.containers
  let r := removeAll collector (added.reorder order).keys added files
  ({ s with containers := r.1 }, r.2)

/-! ### `Tune` and `Exit` -/

section
variable (D : Type) [Double D]

def NINETY_PERCENT : D := Double.div (Double.ofInt 9) (Double.ofInt 10)

/-- The comparison in `Tune`: whether so many cycles are too many for so many a second. -/
def exceeds (curSysCycles maxSysCycles : UInt64) (periodMs : Int32) : Bool :=
  Double.lt
    (Double.mul (Double.ofInt (maxSysCycles * periodMs.toInt64.toUInt64 / 1000).toNat) (NINETY_PERCENT D))
    (Double.ofInt curSysCycles.toNat)

end

/-- `Exit`, as far as files are written. -/
def exitAll (ids : List Str) (m : UMap Str ContainerTune) (files : Files) : Files :=
  ids.foldl (fun files id =>
    match m.find id with
    | some t => t.exit files
    | none => files) files

def exit (order : List Str) (s : State) (files : Files) : State × Files :=
  ({ s with curSysCycles := 0 }, exitAll (s.containers.reorder order).keys s.containers files)

/-- The loop of `Tune`. -/
def burstAll (ids : List Str) (m : UMap Str ContainerTune) (files : Files) : Files :=
  ids.foldl (fun files id =>
    match m.find id with
    | some t => if t.cfs_burst_us < t.cfs_quota_us then setCfsBurstUs id t.cfs_quota_us.toInt32 files else files
    | none => files) files

def tune (D : Type) [Double D] (order : List Str) (periodMs : Int32) (s : State) (files : Files) : State × Files :=
  if exceeds D s.curSysCycles s.maxSysCycles periodMs then exit order s files
  else ({ s with curSysCycles := 0 }, burstAll (s.containers.reorder order).keys s.containers files)

/-! ### Runs -/

/-- The object and the files; the samples that came since the last `Enable`, `Disable` or `Tune`; what the latest `Enable`
    read of the machine, if it succeeded; and for each container what its first list had, in the present cycle. -/
structure World where
  tune : State
  files : Files
  samples : List Sample
  read : UInt64
  first : Str → Option Int64

inductive Act where
  | enable (machine : Machine)
  | pmu (data : List Sample)
  | docker (order : List Str) (list : List Container)
  | run (order : List Str) (periodMs : Int32)
  | disable (order : List Str)

/-- The frequencies of the CPUs, all together. -/
def sumCycles (machine : Machine) : UInt64 :=
  (List.range machine.cpuNum.toNat).foldl (fun m i => m + machine.cpuCycles i) 0

/-- What there is in a second: the same frequency for all, where the CPUs tell none. -/
def frequency (machine : Machine) : UInt64 :=
  if sumCycles machine = 0 then machine.cpuFreqByDmi * machine.cpuNum.toUInt64 else sumCycles machine

def next (D : Type) [Double D] (w : World) : Act → World
  | .enable machine =>
    let r := init machine w.tune
    if r.2 then ⟨r.1, w.files, [], frequency machine, fun _ => none⟩ else { w with tune := r.1, samples := [] }
  | .pmu data => { w with tune := updatePmu data w.tune, samples := w.samples ++ data }
  | .docker order list =>
    let r := updateDocker order list w.tune w.files
    { w with
      tune := r.1, files := r.2
      first := fun id => (w.first id).or (((collect list).find id).map (·.cfs_burst_us)) }
  | .run order periodMs =>
    let r := tune D order periodMs w.tune w.files
    { w with tune := r.1, files := r.2, samples := [] }
  | .disable order =>
    let r := exit order w.tune w.files
    { w with tune := r.1, files := r.2, samples := [] }

/-- No act faults. -/
def step (D : Type) [Double D] (w : World) (act : Act) : Except Empty World := .ok (next D w act)

def World.init (files : Files) : World := ⟨fresh, files, [], 0, fun _ => none⟩

/-! ### What should hold -/

/-- The cycles of the samples that are on a CPU. -/
def counted (cpuNum : UInt32) (samples : List Sample) : UInt64 :=
  ((samples.filter (fun x => x.cpu.toUInt32 < cpuNum)).map (·.count)).sum

/-- Whether there is overload is decided from the cycles since the last time and from what the latest `Enable` read; and
    `Exit` gives each container what it had when the cycle first saw it. -/
structure Right (D : Type) [Double D] (w : World) : Prop where
  decision : ∀ periodMs, exceeds D w.tune.curSysCycles w.tune.maxSysCycles periodMs =
    exceeds D (counted w.tune.cpuNum w.samples) w.read periodMs
  restored : ∀ order id v, w.tune.containers.count id = true → w.first id = some v → (w.files id).isSome = true →
    (exit order w.tune w.files).2 id = some v.toInt

def IsInt (v : Int64) : Prop := v.toInt32.toInt = v.toInt

instance (v : Int64) : Decidable (IsInt v) := inferInstanceAs (Decidable (_ = _))

/-- When an act keeps that. `Enable` finds nothing to add to, or what it would read; and a container that is listed is one
    with a file, its value is an `int` and what is recorded of it, from an earlier cycle too, and what it had before in
    the cycle, if it went since. -/
def Fits (w : World) : Act → Prop
  | .enable machine =>
    w.tune.maxSysCycles = 0 ∨ machine.cpuNum = 0 ∨
    (sumCycles machine = 0 ∧ w.tune.maxSysCycles = machine.cpuFreqByDmi * machine.cpuNum.toUInt64) ∨
    (w.tune.maxSysCycles + sumCycles machine = 0 ∧ machine.cpuFreqByDmi * machine.cpuNum.toUInt64 = sumCycles machine)
  | .docker _ list => ∀ id c, (collect list).find id = some c →
    match w.first id, w.tune.containers.find id with
    | none, some t => id ≠ str "null" ∧ IsInt c.cfs_burst_us ∧ t.cfs_burst_us_ori = c.cfs_burst_us
    | none, none => id ≠ str "null" ∧ IsInt c.cfs_burst_us
    | some v, none => c.cfs_burst_us = v
    | some _, some _ => True
  | .pmu _ | .run _ _ | .disable _ => True

/-! ### `Init` and the samples -/

theorem foldl_cycles (f : ℕ → UInt64) : ∀ (l : List ℕ) (m : UInt64),
    l.foldl (fun m i => m + f i) m = m + l.foldl (fun m i => m + f i) 0
  | [], m => (UInt64.add_zero m).symm
  | i :: l, m => by
    rw [List.foldl_cons, List.foldl_cons, foldl_cycles f l (m + f i), foldl_cycles f l (0 + f i), UInt64.zero_add,
      UInt64.add_assoc]

/-- ONE `Enable`: it has what it should have read just where it fits. -/
theorem init_fits_iff {machine : Machine} {w : World} :
    (init machine w.tune).1.maxSysCycles = (if (init machine w.tune).2 then frequency machine else w.tune.maxSysCycles) ↔
      Fits w (.enable machine) := by
  rw [init, frequency, Fits]
  dsimp only
  rw [foldl_cycles, ← sumCycles]
  generalize sumCycles machine = sum
  generalize machine.cpuFreqByDmi * machine.cpuNum.toUInt64 = dmi
  generalize w.tune.maxSysCycles = max
  rcases eq_or_ne machine.cpuNum 0 with hnum | hnum
  · simp [hnum]
  · simp only [hnum, if_false, false_or]
    rcases eq_or_ne (max + sum) 0 with hwrap | hwrap
    · grind
    · grind

theorem updatePmu_eq : ∀ (data : List Sample) (s : State),
    updatePmu data s = { s with curSysCycles := s.curSysCycles + counted s.cpuNum data }
  | [], s => by simp [updatePmu, counted]
  | x :: data, s => by
    rw [updatePmu, List.foldl_cons]
    refine (updatePmu_eq data _).trans ?_
    rw [counted, counted]
    split
    · rename_i hcpu
      simp [hcpu, UInt64.add_assoc]
    · rename_i hcpu
      simp [hcpu]

theorem counted_append {cpuNum : UInt32} (l l' : List Sample) :
    counted cpuNum (l ++ l') = counted cpuNum l + counted cpuNum l' := by
  simp [counted]

/-! ### The containers -/

section
variable {collector : UMap Str Container} {id : Str}

theorem find_addAll : ∀ {ids : List Str} {m : UMap Str ContainerTune}, ids.Nodup →
    (addAll collector ids m).find id =
      if id ∈ ids then ((collector.find id).map (fun c => merge id c (m.find id))).or (m.find id) else m.find id
  | [], m, _ => rfl
  | id' :: ids, m, h => by
    obtain ⟨hnot, hnodup⟩ := List.nodup_cons.mp h
    rw [addAll, List.foldl_cons]
    refine (find_addAll hnodup).trans ?_
    rcases eq_or_ne id id' with rfl | hne
    · rw [if_neg hnot, if_pos List.mem_cons_self]
      cases collector.find id with
      | none => simp
      | some c => simp
    · have hsame : (match collector.find id' with
          | some c => m.insert id' (merge id' c (m.find id'))
          | none => m).find id = m.find id := by
        split
        · rw [UMap.find_insert, if_neg hne]
        · rfl
      simp [hsame, hne]

theorem find_removeAll : ∀ {ids : List Str} {m : UMap Str ContainerTune} {files : Files},
    (removeAll collector ids m files).1.find id = if id ∈ ids ∧ collector.count id = false then none else m.find id
  | [], m, files => by simp [removeAll]
  | id' :: ids, m, files => by
    rw [removeAll, List.foldl_cons]
    refine find_removeAll.trans ?_
    rcases eq_or_ne id id' with rfl | hne
    · cases hfind : m.find id with
      | none => simp [hfind]
      | some t =>
        cases hcount : collector.count id with
        | true => simp [hfind]
        | false => simp [UMap.find_erase]
    · have hsame : ((match m.find id' with
          | some t => if collector.count id' then (m, files) else (m.erase id', t.exit files)
          | none => (m, files)) : UMap Str ContainerTune × Files).1.find id = m.find id := by
        split
        · split
          · rfl
          · rw [UMap.find_erase, if_neg hne]
        · rfl
      rw [hsame]
      simp [hne]

/-- Left are the containers of the list, each with what is recorded of it. -/
theorem find_updateDocker {order : List Str} {list : List Container} {s : State} {files : Files} :
    (updateDocker order list s files).1.containers.find id =
      ((collect list).find id).map (fun c => merge id c (s.containers.find id)) := by
  rw [updateDocker]
  dsimp only
  rw [find_removeAll]
  simp only [UMap.mem_keys, UMap.find_reorder, UMap.count, find_addAll (UMap.nodup _)]
  cases hc : (collect list).find id with
  | none => cases s.containers.find id <;> simp
  | some c => simp

end

/-! ### `Exit` -/

theorem setCfsBurstUs_other {id id' : Str} (h : id' ≠ id) (v : Int32) (files : Files) :
    setCfsBurstUs id v files id' = files id' := by
  rw [setCfsBurstUs]
  split
  · rfl
  · split
    · exact Function.update_of_ne h _ _
    · rfl

/-- What `Exit` leaves in a container's file: what is recorded, as an `int`. -/
theorem exitAll_eq {m : UMap Str ContainerTune} {id : Str} {t : ContainerTune} (hown : ∀ id t, m.find id = some t → t.id = id)
    (hfind : m.find id = some t) (hnull : id ≠ str "null") : ∀ {ids : List Str} {files : Files}, (files id).isSome = true →
    exitAll ids m files id = if id ∈ ids then some t.cfs_burst_us_ori.toInt32.toInt else files id
  | [], files, _ => rfl
  | id' :: ids, files, hfile => by
    rw [exitAll, List.foldl_cons]
    rcases eq_or_ne id' id with rfl | hne
    · rw [hfind]
      dsimp only
      have hset : t.exit files id' = some t.cfs_burst_us_ori.toInt32.toInt := by
        rw [ContainerTune.exit, hown id' t hfind, setCfsBurstUs, if_neg hnull, if_pos hfile, Function.update_self]
      refine (exitAll_eq hown hfind hnull (by rw [hset]; rfl)).trans ?_
      rw [hset, if_pos List.mem_cons_self]
      split <;> rfl
    · have hsame : (match m.find id' with
          | some t => t.exit files
          | none => files) id = files id := by
        cases hfind' : m.find id' with
        | some t' =>
          dsimp only
          rw [ContainerTune.exit, hown id' t' hfind', setCfsBurstUs_other hne.symm]
        | none => rfl
      refine (exitAll_eq hown hfind hnull (by rw [hsame]; exact hfile)).trans ?_
      rw [hsame]
      simp [hne.symm]

/-! ### What holds in runs -/

/-- The cycles are those of the samples, the frequency is the one that was read, and of a container is recorded what its first
    list had. -/
structure Kept (w : World) : Prop where
  cur : w.tune.curSysCycles = counted w.tune.cpuNum w.samples
  max : w.tune.maxSysCycles = w.read
  own : ∀ id t, w.tune.containers.find id = some t → t.id = id
  ori : ∀ id t v, w.tune.containers.find id = some t → w.first id = some v → t.cfs_burst_us_ori = v
  plain : ∀ id v, w.first id = some v → id ≠ str "null" ∧ IsInt v

section
variable {D : Type} [Double D] {w : World}

theorem Kept.right (h : Kept w) : Right D w where
  decision := fun periodMs => by rw [h.cur, h.max]
  restored := fun order id v hcount hfirst hfile => by
    obtain ⟨t, hfind⟩ := Option.isSome_iff_exists.mp hcount
    obtain ⟨hnull, hint⟩ := h.plain id v hfirst
    rw [exit]
    dsimp only
    rw [exitAll_eq h.own hfind hnull hfile, if_pos, h.ori id t v hfind hfirst, hint]
    rw [UMap.mem_keys_reorder]
    exact UMap.mem_keys_of_find hfind

theorem kept_enable (h : Kept w) {machine : Machine} (hfits : Fits w (.enable machine)) :
    Kept (next D w (.enable machine)) := by
  have hmax := init_fits_iff.mpr hfits
  have hcur : (init machine w.tune).1.curSysCycles = 0 := by
    rw [init]
    dsimp only
    split <;> rfl
  have hcontainers : (init machine w.tune).1.containers = w.tune.containers := by
    rw [init]
    dsimp only
    split <;> rfl
  rw [next]
  split
  · rename_i hok
    rw [if_pos hok] at hmax
    refine ⟨hcur, hmax, ?_, fun id t v _ hfirst => ?_, fun id v hfirst => ?_⟩
    · dsimp only
      rw [hcontainers]
      exact h.own
    · cases hfirst
    · cases hfirst
  · rename_i hok
    rw [if_neg hok] at hmax
    refine ⟨hcur, hmax.trans h.max, ?_, ?_, h.plain⟩
    · dsimp only
      rw [hcontainers]
      exact h.own
    · dsimp only
      rw [hcontainers]
      exact h.ori

theorem kept_pmu (h : Kept w) {data : List Sample} : Kept (next D w (.pmu data)) := by
  rw [next, updatePmu_eq]
  refine ⟨?_, h.max, h.own, h.ori, h.plain⟩
  dsimp only
  rw [counted_append, h.cur]

theorem kept_docker (h : Kept w) {order : List Str} {list : List Container} (hfits : Fits w (.docker order list)) :
    Kept (next D w (.docker order list)) := by
  have hlisted : ∀ {id t}, (next D w (.docker order list)).tune.containers.find id = some t →
      ∃ c, (collect list).find id = some c ∧ t = merge id c (w.tune.containers.find id) := by
    intro id t hfind
    rw [next] at hfind
    dsimp only at hfind
    rw [find_updateDocker] at hfind
    obtain ⟨c, hc, rfl⟩ := Option.map_eq_some_iff.mp hfind
    exact ⟨c, hc, rfl⟩
  have hfirst : ∀ {id v}, (next D w (.docker order list)).first id = some v → w.first id = some v ∨
      (w.first id = none ∧ ∃ c, (collect list).find id = some c ∧ v = c.cfs_burst_us) := by
    intro id v hv
    rw [next] at hv
    dsimp only at hv
    cases hw : w.first id with
    | some v' =>
      rw [hw] at hv
      exact Or.inl hv
    | none =>
      rw [hw] at hv
      obtain ⟨c, hc, rfl⟩ := Option.map_eq_some_iff.mp (show Option.map _ _ = some v from hv)
      exact Or.inr ⟨rfl, c, hc, rfl⟩
  refine ⟨h.cur, h.max, ?_, ?_, ?_⟩
  · intro id t hfind
    obtain ⟨c, -, rfl⟩ := hlisted hfind
    cases hold : w.tune.containers.find id with
    | none => rfl
    | some t => exact h.own id t hold
  · intro id t v hfind hv
    obtain ⟨c, hc, rfl⟩ := hlisted hfind
    have hfit := hfits id c hc
    rcases hfirst hv with hv | ⟨hnone, c', hc', rfl⟩
    · cases hold : w.tune.containers.find id with
      | none =>
        rw [hv, hold] at hfit
        exact hfit
      | some t => exact h.ori id t v hold hv
    · rw [hc] at hc'
      cases hc'
      cases hold : w.tune.containers.find id with
      | none => rfl
      | some t =>
        rw [hnone, hold] at hfit
        exact hfit.2.2
  · intro id v hv
    rcases hfirst hv with hv | ⟨hnone, c, hc, rfl⟩
    · exact h.plain id v hv
    · have hfit := hfits id c hc
      rw [hnone] at hfit
      cases hold : w.tune.containers.find id with
      | none =>
        rw [hold] at hfit
        exact hfit
      | some t =>
        rw [hold] at hfit
        exact ⟨hfit.1, hfit.2.1⟩

theorem kept_next (h : Kept w) : ∀ {act : Act}, Fits w act → Kept (next D w act)
  | .enable _, hfits => kept_enable h hfits
  | .pmu _, _ => kept_pmu h
  | .docker _ _, hfits => kept_docker h hfits
  | .run order periodMs, _ => by
    rw [next, tune]
    split
    · exact ⟨rfl, h.max, h.own, h.ori, h.plain⟩
    · exact ⟨rfl, h.max, h.own, h.ori, h.plain⟩
  | .disable _, _ => ⟨rfl, h.max, h.own, h.ori, h.plain⟩

/-- EACH CYCLE LIKE THE FIRST: after acts that fit, `Tune` decides from the cycles since the last time and from what the
    latest `Enable` read, and `Exit` gives each container what it had when the cycle first saw it. -/
theorem burst_right_of_runs {files : Files} (h : Runs (step D) (World.init files) Fits w) : Right D w := by
  have hinit : Kept (World.init files) := by
    refine ⟨rfl, rfl, fun id t h => ?_, fun id t v h => ?_, fun id v h => ?_⟩
    · cases h
    · cases h
    · cases h
  have hkept : Kept w := by
    refine h.invariant hinit fun w act w' hkept hfits hstep => ?_
    cases hstep
    exact kept_next hkept hfits
  exact hkept.right

end

/-! ### Samples -/

namespace Example

def reach (acts : List Act) : World := acts.foldl (next ℚ) (World.init (fun _ => some 0))

/-- Two CPUs of 1000 cycles. -/
def sampleMachine : Machine := ⟨2, fun _ => 1000, 0⟩

def container (burst : Int64) : Container := ⟨str "a", 10, 8, burst⟩

def cycles (count : UInt64) : Act := .pmu [⟨0, count⟩, ⟨-1, 5⟩]

def busy : List Act := [.enable sampleMachine, .docker [] [container 5], cycles 1900]

theorem runs_busy : Runs (step ℚ) (World.init (fun _ => some 0)) Fits (reach busy) := by
  have hfirst : Runs (step ℚ) (World.init (fun _ => some 0)) Fits (reach [.enable sampleMachine]) :=
    .next (a := .enable sampleMachine) .start (Or.inl rfl) rfl
  refine .next (a := cycles 1900) (.next (a := .docker [] [container 5]) hfirst (fun id c hc => ?_) rfl) trivial rfl
  have hcollect : (collect [container 5]).find id = if id = str "a" then some (container 5) else none := by
    rw [collect, List.foldl_cons, List.foldl_nil, UMap.find_insert]
    rfl
  rw [hcollect] at hc
  split at hc
  · rename_i hid
    cases hc
    rw [hid]
    exact ⟨by decide +kernel, by decide +kernel⟩
  · cases hc

end Example

/-- 1900 cycles of 2000 are too many, and the container gets back its 5. -/
theorem burst_right_of_runs_busy :
    exceeds ℚ (Example.reach Example.busy).tune.curSysCycles (Example.reach Example.busy).tune.maxSysCycles 1000 = true ∧
    (exit [] (Example.reach Example.busy).tune (Example.reach Example.busy).files).2 (str "a") = some 5 := by
  have hright := burst_right_of_runs Example.runs_busy
  exact ⟨(hright.decision 1000).trans (by decide +kernel),
    hright.restored [] (str "a") 5 (by decide +kernel) (by decide +kernel) (by decide +kernel)⟩

/-- In the second cycle the frequency is twice what it was, so 1900 cycles are not too many; and a container whose value has
    changed in between gets back the old one. -/
theorem burst_not_right :
    ¬ Right ℚ (Example.reach [.enable Example.sampleMachine, .disable [], .enable Example.sampleMachine,
      Example.cycles 1900]) ∧
    ¬ Right ℚ (Example.reach [.enable Example.sampleMachine, .docker [] [Example.container 5], .disable [],
      .enable Example.sampleMachine, .docker [] [Example.container 7]]) := by
  refine ⟨fun h => ?_, fun h => ?_⟩
  · have hdecision := h.decision 1000
    revert hdecision
    decide +kernel
  · have hrestored := h.restored [] (str "a") 7 (by decide +kernel) (by decide +kernel) (by decide +kernel)
    revert hrestored
    decide +kernel

end CpuBurst
end OeAware

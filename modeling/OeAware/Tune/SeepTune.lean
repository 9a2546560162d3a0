import Mathlib.Data.List.Infix
import OeAware.Analysis.Instance
import OeAware.Common.Numbers
import OeAware.Schemes.Loops
import OeAware.Schemes.Run

/-! @src src/plugin/tune/system/power/seep_tune/seep_tune.cpp | name:Seep | scheme:run

    `Enable` loads a module, records the governor of each CPU and sets it to `seep`; where one cannot be set, those before it
    get back what is recorded. `Disable` does that for all.

        /proc/modules ──no cpufreq_seep──▶ modprobe ──▶ cpuScaling ++ governors ──▶ seep, seep, ─ ─ ✗ ─▶ cpuScaling[0], ..
                                                              │
                                                              └──Disable──▶ cpuScaling[0], cpuScaling[1], .. ; clear

    Nothing takes the module out again, and with it there `Enable` fails. What is recorded is put behind what has been
    recorded before, and only `Disable` clears it. -/

namespace OeAware
open Schemes

namespace Seep

/-! ### State -/

structure State where
  cpuNum : ℤ
  cpuScaling : List Str

def fresh : State := ⟨0, []⟩

/-- The lines of `/proc/modules`, and the governor of each CPU. -/
structure Kernel where
  modules : List Str
  governor : ℕ → Str

/-- What a call meets: whether `/proc/modules` can be opened; whether modprobe succeeds, and which lines there are after it
    (none for a module that is built in); how many CPUs are online; whose governor can be read, and which writes succeed,
    of those that set one and of those that put it back. -/
structure Env where
  modulesFile : Bool
  modprobe : Bool
  loaded : List Str
  cpuNum : ℤ
  opens : ℕ → Bool
  sets : ℕ → Bool
  restores : ℕ → Bool

/-- An index behind the end of `cpuScaling`. -/
inductive Fault where
  | outOfRange

/-! ### `Enable` and `Disable` -/

def listed (modules : List Str) : Bool := modules.any (fun line => str "cpufreq_seep" <:+: line)

def insertSeepKo (env : Env) (k : Kernel) : Kernel × Bool :=
  if env.modulesFile = false then (k, false)
  else if listed k.modules then (k, false)
  else if env.modprobe = false then (k, false)
  else ({ k with modules := k.modules ++ env.loaded }, true)

/-- `Init`, over the CPUs. -/
def initLoop (env : Env) (governor : ℕ → Str) : List ℕ → List Str → List Str × Bool
  | [], cpuScaling => (cpuScaling, true)
  | i :: is, cpuScaling =>
    if env.opens i then initLoop env governor is (cpuScaling ++ [governor i]) else (cpuScaling, false)

/-- The writes of what is recorded. -/
def restoreAll (env : Env) (cpuScaling : List Str) (is : List ℕ) (governor : ℕ → Str) : Except Fault (ℕ → Str) :=
  is.foldlM (fun governor i =>
    match cpuScaling[i]? with
    | none => .error .outOfRange
    | some value => .ok (if env.restores i then Function.update governor i value else governor)) governor

/-- The loop of `Enable`, from a CPU on, with so many left; the CPU where it stops, if it does. -/
def setFrom (env : Env) (cpuScaling : List Str) : ℕ → ℕ → (ℕ → Str) → Except Fault ((ℕ → Str) × Option ℕ)
  | _, 0, governor => .ok (governor, none)
  | i, left + 1, governor =>
    if env.sets i then setFrom env cpuScaling (i + 1) left (Function.update governor i (str "seep"))
    else (restoreAll env cpuScaling (List.range i) governor).map (fun governor => (governor, some i))

/-- `Enable`. -/
def enable (env : Env) (s : State) (k : Kernel) : Except Fault ((State × Kernel) × Result) :=
  let m := insertSeepKo env k
  if m.2 = false then .ok ((s, k), failure (str "modprobe cpufreq_seep.ko failed"))
  else if env.cpuNum = -1 then .ok ((⟨-1, s.cpuScaling⟩, m.1), failure (str "can not get the cpu num"))
  else
    let n := env.cpuNum.toNat
    let r := initLoop env k.governor (List.range n) s.cpuScaling
    if r.2 = false then .ok ((⟨env.cpuNum, r.1⟩, m.1), failure (str "Init failed"))
    else (setFrom env r.1 0 n k.governor).map (fun (governor, stop) =>
      ((⟨env.cpuNum, r.1⟩, { m.1 with governor := governor }),
        match stop with
        | some i => failure (str "write seep to cpu" ++ toStr i ++ str " failed")
        | none => resultOk))

/-- `Disable`. -/
def disable (env : Env) (s : State) (k : Kernel) : Except Fault (State × Kernel) :=
  (restoreAll env s.cpuScaling (List.range s.cpuNum.toNat) k.governor).map
    (fun governor => (⟨s.cpuNum, []⟩, { k with governor := governor }))

/-! ### Runs -/

/-- The tuner and the kernel; the governors when the first `Enable` since the last `Disable` began; and whether the last call
    was no `Enable` that succeeded. -/
structure World where
  tune : State
  kernel : Kernel
  orig : Option (ℕ → Str)
  free : Bool

inductive Act where
  | enable (env : Env)
  | disable (env : Env)

def step (w : World) : Act → Except Fault World
  | .enable env => (enable env w.tune w.kernel).map (fun r =>
      ⟨r.1.1, r.1.2, some (w.orig.getD w.kernel.governor), r.2.failed⟩)
  | .disable env => (disable env w.tune w.kernel).map (fun r => ⟨r.1, r.2, none, true⟩)

def World.init (k : Kernel) : World := ⟨fresh, k, none, true⟩

/-! ### What should hold -/

/-- `Enable` succeeds. -/
def Succeeds (env : Env) (s : State) (k : Kernel) : Prop := ∃ r, enable env s k = .ok r ∧ r.2.failed = false

/-- When an act does what it should; `modules` are the lines at the beginning. -/
def Exact (modules : List Str) (w : World) : Act → Prop
  | .enable env =>
    -- it succeeds if it does from the initial state
    (w.free = true → Succeeds env fresh ⟨modules, w.kernel.governor⟩ → Succeeds env w.tune w.kernel) ∧
    -- when it fails, the governors are as before
    ∃ r, enable env w.tune w.kernel = .ok r ∧ (r.2.failed = true → r.1.2.governor = w.kernel.governor)
  -- the governors are as when the matching `Enable` began
  | .disable env => ∀ o ∈ w.orig, ∃ r, disable env w.tune w.kernel = .ok r ∧ r.2.governor = o

/-- The number of CPUs is known, and each of them has a governor that can be read and set. -/
structure Ready (env : Env) : Prop where
  modulesFile : env.modulesFile = true
  modprobe : env.modprobe = true
  cpuNum : env.cpuNum ≠ -1
  opens : ∀ i < env.cpuNum.toNat, env.opens i = true
  sets : ∀ i < env.cpuNum.toNat, env.sets i = true

/-- The module is put in. -/
def Inserts (env : Env) (k : Kernel) : Prop := env.modulesFile = true ∧ listed k.modules = false ∧ env.modprobe = true

instance (env : Env) (k : Kernel) : Decidable (Inserts env k) := inferInstanceAs (Decidable (_ ∧ _ ∧ _))

/-- What is recorded when the CPUs have been read as far as they can be. -/
def recorded (env : Env) (s : State) (governor : ℕ → Str) : List Str :=
  s.cpuScaling ++ ((List.range env.cpuNum.toNat).takeWhile env.opens).map governor

/-- What is recorded for a CPU is the governor it had, and a CPU that is not counted any more has that. -/
def Records (env : Env) (s : State) (governor o : ℕ → Str) : Prop :=
  (∀ i v, i < env.cpuNum.toNat → (recorded env s governor)[i]? = some v → v = o i) ∧
    ∀ i, env.cpuNum.toNat ≤ i → governor i = o i

/-- The first CPU that cannot be set. -/
def Stops (env : Env) (b : ℕ) : Prop := b < env.cpuNum.toNat ∧ env.sets b = false ∧ ∀ j < b, env.sets j = true

/-- When it does so. The module is not there, if the call could succeed otherwise; with an earlier `Enable` since the last
    `Disable`, what is recorded is what there was before that; and where a CPU cannot be set, those before it can be put
    back to what they had, or had `seep`. `Disable` finds a record for each CPU, and can write what it has to. -/
def Fits (modules : List Str) (w : World) : Act → Prop
  | .enable env =>
    (w.free = true → Ready env → listed modules = false → listed w.kernel.modules = false) ∧
    (Inserts env w.kernel → ∀ o ∈ w.orig, Records env w.tune w.kernel.governor o) ∧
    (Inserts env w.kernel → env.cpuNum ≠ -1 → (∀ i < env.cpuNum.toNat, env.opens i = true) →
      ∀ b, Stops env b → ∀ j < b, if env.restores j then w.orig.getD w.kernel.governor j = w.kernel.governor j
        else w.kernel.governor j = str "seep")
  | .disable env => ∀ o ∈ w.orig, w.tune.cpuNum.toNat ≤ w.tune.cpuScaling.length ∧
    ∀ i < w.tune.cpuNum.toNat, env.restores i = true ∨ w.kernel.governor i = o i

/-! ### The loops -/

section
variable {env : Env} {cpuScaling : List Str}

theorem initLoop_eq {governor : ℕ → Str} : ∀ {is : List ℕ} {l : List Str}, initLoop env governor is l =
    (l ++ (is.takeWhile env.opens).map governor, is.all env.opens)
  | [], l => by simp [initLoop]
  | i :: is, l => by
    rw [initLoop]
    rcases Bool.eq_false_or_eq_true (env.opens i) with ho | ho
    · rw [if_pos ho, initLoop_eq]
      simp [ho]
    · simp [ho]

/-- What there is a record for is put back, where it can be written. -/
theorem restoreAll_ok : ∀ {is : List ℕ} {governor : ℕ → Str}, (∀ i ∈ is, i < cpuScaling.length) →
    ∃ governor', restoreAll env cpuScaling is governor = .ok governor' ∧ ∀ i, governor' i =
      if i ∈ is ∧ env.restores i = true then (cpuScaling[i]?).getD [] else governor i
  | [], governor, _ => ⟨governor, rfl, fun i => by simp⟩
  | i :: is, governor, h => by
    obtain ⟨hi, his⟩ := List.forall_mem_cons.mp h
    rw [restoreAll, List.foldlM_cons, List.getElem?_eq_getElem hi]
    obtain ⟨governor', hok, hval⟩ := @restoreAll_ok is (if env.restores i then
      Function.update governor i cpuScaling[i] else governor) his
    refine ⟨governor', hok, fun j => ?_⟩
    rw [hval]
    rcases eq_or_ne j i with rfl | hne
    · rcases Bool.eq_false_or_eq_true (env.restores j) with hr | hr
      · simp [hr, hi]
      · simp [hr]
    · have hother : (if env.restores i then Function.update governor i cpuScaling[i] else governor) j = governor j := by
        split
        · exact Function.update_of_ne hne _ _
        · rfl
      rw [hother]
      simp [hne]

theorem length_of_restoreAll : ∀ {is : List ℕ} {governor governor' : ℕ → Str},
    restoreAll env cpuScaling is governor = .ok governor' → ∀ i ∈ is, i < cpuScaling.length
  | [], _, _, _, i, hi => absurd hi List.not_mem_nil
  | i :: is, governor, governor', h, j, hj => by
    rw [restoreAll, List.foldlM_cons] at h
    obtain ⟨governor1, h1, h2⟩ := bind_ok h
    rcases List.mem_cons.mp hj with rfl | hj
    · cases hget : cpuScaling[j]? with
      | none =>
        rw [hget] at h1
        cases h1
      | some v => exact (List.getElem?_eq_some_iff.mp hget).1
    · exact length_of_restoreAll h2 j hj

/-- The governors with `seep` for those before a CPU. -/
def seeped (governor : ℕ → Str) (b : ℕ) : ℕ → Str := fun j => if j < b then str "seep" else governor j

theorem update_seeped (governor : ℕ → Str) (b : ℕ) :
    Function.update (seeped governor b) b (str "seep") = seeped governor (b + 1) := by
  funext j
  rcases eq_or_ne j b with rfl | hne
  · simp [seeped]
  · rw [Function.update_of_ne hne, seeped, seeped]
    have hiff : j < b ↔ j < b + 1 := by omega
    simp only [hiff]

theorem setFrom_cases {governor : ℕ → Str} : ∀ {left i : ℕ},
    ((∀ j < left, env.sets (i + j) = true) ∧
        setFrom env cpuScaling i left (seeped governor i) = .ok (seeped governor (i + left), none)) ∨
      ∃ b, i ≤ b ∧ b < i + left ∧ env.sets b = false ∧ (∀ j, i ≤ j → j < b → env.sets j = true) ∧
        setFrom env cpuScaling i left (seeped governor i) =
          (restoreAll env cpuScaling (List.range b) (seeped governor b)).map (fun governor => (governor, some b))
  | 0, i => Or.inl ⟨fun j hj => absurd hj (Nat.not_lt_zero j), rfl⟩
  | left + 1, i => by
    rcases Bool.eq_false_or_eq_true (env.sets i) with hset | hset
    · rw [setFrom, if_pos hset, update_seeped]
      rcases @setFrom_cases governor left (i + 1) with ⟨hall, hok⟩ | ⟨b, hlow, hhigh, hb, hall, hstop⟩
      · refine Or.inl ⟨?_, by rw [hok, Nat.add_right_comm]; rfl⟩
        rintro (_ | j) hj
        · exact hset
        · rw [← Nat.add_assoc, Nat.add_right_comm]
          exact hall j (Nat.lt_of_succ_lt_succ hj)
      · refine Or.inr ⟨b, by omega, by omega, hb, fun j hlow hj => ?_, hstop⟩
        rcases Nat.eq_or_lt_of_le hlow with rfl | hlt
        · exact hset
        · exact hall j hlt hj
    · rw [setFrom, if_neg (by rw [hset]; exact Bool.false_ne_true)]
      exact Or.inr ⟨i, by omega, by omega, hset, fun j hlow hj => absurd hj (by omega), rfl⟩

/-- All CPUs are set, or the first that cannot be is where it stops. -/
theorem setAll_cases {governor : ℕ → Str} :
    ((∀ i < env.cpuNum.toNat, env.sets i = true) ∧
        setFrom env cpuScaling 0 env.cpuNum.toNat governor = .ok (seeped governor env.cpuNum.toNat, none)) ∨
      ∃ b, Stops env b ∧ setFrom env cpuScaling 0 env.cpuNum.toNat governor =
        (restoreAll env cpuScaling (List.range b) (seeped governor b)).map (fun governor => (governor, some b)) := by
  have hzero : seeped governor 0 = governor := by
    funext j
    simp [seeped]
  have hcases := @setFrom_cases env cpuScaling governor env.cpuNum.toNat 0
  rw [hzero, Nat.zero_add] at hcases
  rcases hcases with ⟨hall, hok⟩ | ⟨b, -, hb, hset, hall, hstop⟩
  · refine Or.inl ⟨fun i hi => ?_, hok⟩
    have := hall i hi
    rwa [Nat.zero_add] at this
  · exact Or.inr ⟨b, ⟨hb, hset, fun j hj => hall j (Nat.zero_le j) hj⟩, hstop⟩

end

/-! ### One call -/

section
variable {env : Env} {s : State} {k : Kernel}

theorem insertSeepKo_eq : insertSeepKo env k =
    if Inserts env k then ({ k with modules := k.modules ++ env.loaded }, true) else (k, false) := by
  rw [insertSeepKo]
  rcases Bool.eq_false_or_eq_true env.modulesFile with hf | hf
  · rcases Bool.eq_false_or_eq_true (listed k.modules) with hl | hl
    · simp [hf, hl, Inserts]
    · rcases Bool.eq_false_or_eq_true env.modprobe with hm | hm
      · simp [hf, hl, hm, Inserts]
      · simp [hf, hl, hm, Inserts]
  · simp [hf, Inserts]

theorem enable_refused (h : ¬ Inserts env k) :
    enable env s k = .ok ((s, k), failure (str "modprobe cpufreq_seep.ko failed")) := by
  rw [enable, insertSeepKo_eq, if_neg h]
  rfl

theorem recorded_eq (governor : ℕ → Str) (hopens : ∀ i < env.cpuNum.toNat, env.opens i = true) :
    recorded env s governor = s.cpuScaling ++ (List.range env.cpuNum.toNat).map governor := by
  rw [recorded, List.takeWhile_eq_self_iff.mpr fun i hi => hopens i (List.mem_range.mp hi)]

/-- What becomes of a call that puts the module in. -/
theorem enable_cases (h : Inserts env k) :
    (env.cpuNum = -1 ∧ enable env s k = .ok ((⟨-1, s.cpuScaling⟩, { k with modules := k.modules ++ env.loaded }),
      failure (str "can not get the cpu num"))) ∨
    (env.cpuNum ≠ -1 ∧ (¬ ∀ i < env.cpuNum.toNat, env.opens i = true) ∧ enable env s k =
      .ok ((⟨env.cpuNum, recorded env s k.governor⟩, { k with modules := k.modules ++ env.loaded }),
        failure (str "Init failed"))) ∨
    (env.cpuNum ≠ -1 ∧ (∀ i < env.cpuNum.toNat, env.opens i = true) ∧ (∀ i < env.cpuNum.toNat, env.sets i = true) ∧
      enable env s k = .ok ((⟨env.cpuNum, recorded env s k.governor⟩,
        ⟨k.modules ++ env.loaded, seeped k.governor env.cpuNum.toNat⟩), resultOk)) ∨
    ∃ b governor', env.cpuNum ≠ -1 ∧ (∀ i < env.cpuNum.toNat, env.opens i = true) ∧ Stops env b ∧
      enable env s k = .ok ((⟨env.cpuNum, recorded env s k.governor⟩, ⟨k.modules ++ env.loaded, governor'⟩),
        failure (str "write seep to cpu" ++ toStr b ++ str " failed")) ∧
      ∀ i, governor' i = if i < b ∧ env.restores i = true then ((recorded env s k.governor)[i]?).getD []
        else seeped k.governor b i := by
  rw [enable, insertSeepKo_eq, if_pos h]
  dsimp only
  rw [if_neg Bool.true_eq_false_eq_False, initLoop_eq, ← recorded]
  rcases eq_or_ne env.cpuNum (-1) with hnum | hnum
  · rw [if_pos hnum]
    exact Or.inl ⟨hnum, rfl⟩
  · rw [if_neg hnum]
    have hall : (List.range env.cpuNum.toNat).all env.opens = true ↔ ∀ i < env.cpuNum.toNat, env.opens i = true := by
      simp
    rcases em (∀ i < env.cpuNum.toNat, env.opens i = true) with hopens | hopens
    · rw [if_neg (by rw [hall.mpr hopens]; exact Bool.true_eq_false_eq_False)]
      rcases @setAll_cases env (recorded env s k.governor) k.governor with ⟨hsets, hok⟩ | ⟨b, hstops, hstop⟩
      · rw [hok]
        exact Or.inr (Or.inr (Or.inl ⟨hnum, hopens, hsets, rfl⟩))
      · have hlength : ∀ i ∈ List.range b, i < (recorded env s k.governor).length := by
          intro i hi
          have hib := List.mem_range.mp hi
          have hbn := hstops.1
          rw [recorded_eq _ hopens]
          simp
          omega
        obtain ⟨governor', hok, hval⟩ := @restoreAll_ok env _ (List.range b) (seeped k.governor b) hlength
        rw [hstop, hok]
        refine Or.inr (Or.inr (Or.inr ⟨b, governor', hnum, hopens, hstops, rfl, fun i => ?_⟩))
        rw [hval]
        simp only [List.mem_range]
    · rw [if_pos (by rw [← Bool.not_eq_true, hall]; exact hopens)]
      exact Or.inr (Or.inl ⟨hnum, hopens, rfl⟩)

theorem not_succeeds {r : State × Kernel} {payload : Str} (h : enable env s k = .ok (r, failure payload)) :
    ¬ Succeeds env s k := by
  rintro ⟨r', hr, hok⟩
  rw [h] at hr
  cases hr
  cases hok

/-- It succeeds where it is ready and finds no module. -/
theorem succeeds_iff : Succeeds env s k ↔ Ready env ∧ listed k.modules = false := by
  rcases em (Inserts env k) with hins | hins
  · have hready : (env.cpuNum ≠ -1 ∧ (∀ i < env.cpuNum.toNat, env.opens i = true) ∧
        ∀ i < env.cpuNum.toNat, env.sets i = true) ↔ Ready env ∧ listed k.modules = false :=
      ⟨fun h => ⟨⟨hins.1, hins.2.2, h.1, h.2.1, h.2.2⟩, hins.2.1⟩, fun h => ⟨h.1.cpuNum, h.1.opens, h.1.sets⟩⟩
    rw [← hready, Succeeds]
    rcases @enable_cases env s k hins with ⟨hnum, heq⟩ | ⟨hnum, hopens, heq⟩ | ⟨hnum, hopens, hsets, heq⟩ |
      ⟨b, governor', hnum, hopens, hstops, heq, -⟩
    · exact iff_of_false (not_succeeds heq) fun h => h.1 hnum
    · exact iff_of_false (not_succeeds heq) fun h => hopens h.2.1
    · exact iff_of_true ⟨_, heq, rfl⟩ ⟨hnum, hopens, hsets⟩
    · refine iff_of_false (not_succeeds heq) fun h => ?_
      have := h.2.2 b hstops.1
      rw [hstops.2.1] at this
      cases this
  · exact iff_of_false (not_succeeds (enable_refused hins)) fun h => hins ⟨h.1.modulesFile, h.2, h.1.modprobe⟩

/-! ### Along a run -/

/-- What is recorded for a CPU is the governor it had when the matching `Enable` began, and a CPU that is not counted has that. -/
structure Held (w : World) : Prop where
  recorded : ∀ o ∈ w.orig, ∀ i v, i < w.tune.cpuNum.toNat → w.tune.cpuScaling[i]? = some v → v = o i
  others : ∀ o ∈ w.orig, ∀ i, w.tune.cpuNum.toNat ≤ i → w.kernel.governor i = o i
  cleared : w.orig = none → w.tune.cpuScaling = []

theorem held_init (k : Kernel) : Held (World.init k) :=
  ⟨fun o ho => (by cases ho), fun o ho => (by cases ho), fun _ => rfl⟩

/-- From nothing, the governors there are are recorded. -/
theorem records_first (hempty : s.cpuScaling = []) (governor : ℕ → Str) : Records env s governor governor := by
  refine ⟨fun i v _ hv => ?_, fun _ _ => rfl⟩
  rw [recorded, hempty, List.nil_append] at hv
  obtain ⟨hi, rfl⟩ := List.getElem?_eq_some_iff.mp hv
  have hpre : ((List.range env.cpuNum.toNat).takeWhile env.opens).map governor <+:
      (List.range env.cpuNum.toNat).map governor := (List.takeWhile_prefix _).map governor
  rw [hpre.getElem hi]
  simp

/-- What a call that puts the module in leaves. -/
theorem held_of_records {governor' o : ℕ → Str} {m : List Str} {free : Bool} (h : Records env s k.governor o)
    (hrest : ∀ i, env.cpuNum.toNat ≤ i → governor' i = k.governor i) :
    Held ⟨⟨env.cpuNum, recorded env s k.governor⟩, ⟨m, governor'⟩, some o, free⟩ where
  recorded := by
    rintro o' ho'
    cases ho'
    exact h.1
  others := by
    rintro o' ho' i hi
    cases ho'
    exact (hrest i hi).trans (h.2 i hi)
  cleared := fun hnone => by cases hnone

end

section
variable {modules : List Str} {w w' : World} {act : Act} {env : Env}

theorem records_of_fits (h : Held w) (hfits : Fits modules w (.enable env)) (hins : Inserts env w.kernel) :
    Records env w.tune w.kernel.governor (w.orig.getD w.kernel.governor) := by
  cases horig : w.orig with
  | none => exact records_first (h.cleared horig) _
  | some o => exact hfits.2.1 hins o horig

theorem held_enable (h : Held w) (hfits : Fits modules w (.enable env)) (hs : step w (.enable env) = .ok w') : Held w' := by
  rw [step] at hs
  rcases em (Inserts env w.kernel) with hins | hins
  · have hrec := records_of_fits h hfits hins
    rcases @enable_cases env w.tune w.kernel hins with ⟨hnum, heq⟩ | ⟨-, -, heq⟩ | ⟨-, -, -, heq⟩ |
      ⟨b, governor', -, -, hstops, heq, hval⟩
    · rw [heq] at hs
      cases hs
      have hsame : recorded env w.tune w.kernel.governor = w.tune.cpuScaling := by
        rw [recorded, hnum]
        exact List.append_nil _
      rw [← hsame, ← hnum]
      exact held_of_records hrec fun _ _ => rfl
    · rw [heq] at hs
      cases hs
      exact held_of_records hrec fun _ _ => rfl
    · rw [heq] at hs
      cases hs
      exact held_of_records hrec fun i hi => if_neg (Nat.not_lt.mpr hi)
    · rw [heq] at hs
      cases hs
      refine held_of_records hrec fun i hi => ?_
      have hib : ¬ i < b := Nat.not_lt.mpr (hstops.1.le.trans hi)
      rw [hval, if_neg fun hand => hib hand.1]
      exact if_neg hib
  · rw [enable_refused hins] at hs
    cases hs
    cases horig : w.orig with
    | none =>
      refine ⟨fun o _ i v _ hv => ?_, fun o ho i _ => ?_, fun hnone => by cases hnone⟩
      · rw [h.cleared horig] at hv
        cases hv
      · cases ho
        rfl
    | some o =>
      refine ⟨fun o' ho' => ?_, fun o' ho' => ?_, fun hnone => by cases hnone⟩
      · cases ho'
        exact h.recorded o horig
      · cases ho'
        exact h.others o horig

theorem held_step (h : Held w) (hfits : Fits modules w act) (hs : step w act = .ok w') : Held w' := by
  cases act with
  | enable env => exact held_enable h hfits hs
  | disable env =>
    rw [step] at hs
    obtain ⟨r, hr, rfl⟩ := map_ok hs
    obtain ⟨governor', -, rfl⟩ := map_ok hr
    exact ⟨fun o ho => (by cases ho), fun o ho => (by cases ho), fun _ => rfl⟩

theorem held_of_runs {k : Kernel} (h : Runs step (World.init k) (Fits modules) w) : Held w :=
  h.invariant (held_init k) fun _ _ _ hw hfits hs => held_step hw hfits hs

/-! ### Exactness -/

/-- The CPUs before the one where it stops have what they had. -/
theorem governor_eq_iff {o governor governor' : ℕ → Str} {s : State} {b : ℕ} (hrec : Records env s governor o)
    (hopens : ∀ i < env.cpuNum.toNat, env.opens i = true) (hb : b < env.cpuNum.toNat)
    (hval : ∀ i, governor' i = if i < b ∧ env.restores i = true then ((recorded env s governor)[i]?).getD []
      else seeped governor b i) :
    governor' = governor ↔
      ∀ j < b, if env.restores j then o j = governor j else governor j = str "seep" := by
  rw [funext_iff]
  refine forall_congr' fun j => ?_
  rcases Nat.lt_or_ge j b with hj | hj
  · rw [hval]
    rcases Bool.eq_false_or_eq_true (env.restores j) with hr | hr
    · have hlength : j < (recorded env s governor).length := by
        rw [recorded_eq _ hopens]
        simp
        omega
      have hget := List.getElem?_eq_getElem hlength
      have ho := hrec.1 j _ (hj.trans hb) hget
      simp [hj, hr, hget, ho]
    · simp [hj, hr, seeped, eq_comm]
  · have hnot : ¬ j < b := Nat.not_lt.mpr hj
    simp [hval, hnot, seeped]

theorem exact_enable (h : Held w) (hfits : Fits modules w (.enable env)) : Exact modules w (.enable env) := by
  refine ⟨fun hfree hinit => ?_, ?_⟩
  · obtain ⟨hready, hlisted⟩ := succeeds_iff.mp hinit
    exact succeeds_iff.mpr ⟨hready, hfits.1 hfree hready hlisted⟩
  · rcases em (Inserts env w.kernel) with hins | hins
    · rcases @enable_cases env w.tune w.kernel hins with ⟨-, heq⟩ | ⟨-, -, heq⟩ | ⟨-, -, -, heq⟩ |
        ⟨b, governor', hnum, hopens, hstops, heq, hval⟩
      · exact ⟨_, heq, fun _ => rfl⟩
      · exact ⟨_, heq, fun _ => rfl⟩
      · exact ⟨_, heq, fun hfailed => by cases hfailed⟩
      · refine ⟨_, heq, fun _ => ?_⟩
        exact (governor_eq_iff (records_of_fits h hfits hins) hopens hstops.1 hval).mpr
          (hfits.2.2 hins hnum hopens b hstops)
    · exact ⟨_, enable_refused hins, fun _ => rfl⟩

theorem exact_disable_iff (h : Held w) : Exact modules w (.disable env) ↔ Fits modules w (.disable env) := by
  refine forall₂_congr fun o ho => ?_
  have hall : ∀ i ∈ List.range w.tune.cpuNum.toNat, i < w.tune.cpuNum.toNat := fun i hi => List.mem_range.mp hi
  rcases Nat.lt_or_ge w.tune.cpuScaling.length w.tune.cpuNum.toNat with hlt | hle
  · refine iff_of_false ?_ fun hfits => absurd hfits.1 (Nat.not_le.mpr hlt)
    rintro ⟨r, hr, -⟩
    obtain ⟨governor', hok, -⟩ := map_ok hr
    exact absurd (length_of_restoreAll hok _ (List.mem_range.mpr hlt)) (Nat.lt_irrefl _)
  · obtain ⟨governor', hok, hval⟩ :=
      @restoreAll_ok env _ _ w.kernel.governor fun i hi => (hall i hi).trans_le hle
    have heq : disable env w.tune w.kernel = .ok (⟨w.tune.cpuNum, []⟩, { w.kernel with governor := governor' }) := by
      rw [disable, hok]
      rfl
    have hexact : (∃ r, disable env w.tune w.kernel = .ok r ∧ r.2.governor = o) ↔ governor' = o := by
      rw [heq]
      refine ⟨?_, fun hgov => ⟨_, rfl, hgov⟩⟩
      rintro ⟨r, hr, hgov⟩
      cases hr
      exact hgov
    rw [hexact, and_iff_right hle, funext_iff]
    refine forall_congr' fun i => ?_
    rw [hval]
    simp only [List.mem_range]
    rcases Nat.lt_or_ge i w.tune.cpuNum.toNat with hi | hi
    · have hget := List.getElem?_eq_getElem (hi.trans_le hle)
      have ho := h.recorded o ho i _ hi hget
      rcases Bool.eq_false_or_eq_true (env.restores i) with hr | hr
      · simp [hi, hr, hget, ho]
      · simp [hi, hr]
    · have hnot := Nat.not_lt.mpr hi
      simp [hnot, h.others o ho i hi]

/-- THE RUN: where every call meets its condition, `Enable` succeeds as it does from the initial state, and the governors are
    put back. -/
theorem governors_exact_of_runs {k : Kernel} (h : Runs step (World.init k) (Fits k.modules) w) (hfits : Fits k.modules w act) :
    Exact k.modules w act := by
  cases act with
  | enable env => exact exact_enable (held_of_runs h) hfits
  | disable env => exact (exact_disable_iff (held_of_runs h)).mpr hfits

end

/-! ### Samples -/

namespace Example

/-- So many CPUs are online, and all is as it should be but for the writes. -/
def sampleEnv (cpuNum : ℤ) (sets restores : ℕ → Bool) : Env where
  modulesFile := true
  modprobe := true
  loaded := [str "cpufreq_seep 16384 0 - Live 0x0000000000000000"]
  cpuNum := cpuNum
  opens := fun _ => true
  sets := sets
  restores := restores

def works (cpuNum : ℤ) : Env := sampleEnv cpuNum (fun _ => true) (fun _ => true)

def someKernel : Kernel := ⟨[str "xfs 1572864 1 - Live 0x0000000000000000"], fun _ => str "performance"⟩

/-- Two CPUs have `seep`. -/
def someWorld : World := ⟨⟨2, [str "performance", str "performance"]⟩,
  ⟨someKernel.modules ++ (works 2).loaded, seeped someKernel.governor 2⟩, some someKernel.governor, false⟩

/-- They have what they had. -/
def restored : ℕ → Str :=
  Function.update (Function.update (seeped someKernel.governor 2) 0 (str "performance")) 1 (str "performance")

def afterDisable (orig : Option (ℕ → Str)) : World := ⟨⟨2, []⟩, ⟨someWorld.kernel.modules, restored⟩, orig, true⟩

theorem fits_enable : Fits someKernel.modules (World.init someKernel) (.enable (works 2)) := by
  refine ⟨fun _ _ h => h, fun _ o ho => (by cases ho), fun _ _ _ b hstops => ?_⟩
  cases hstops.2.1

theorem runs_enable : Runs step (World.init someKernel) (Fits someKernel.modules) someWorld := by
  refine .next .start fits_enable ?_
  have hlisted : listed someKernel.modules = false := by decide +kernel
  have hrecorded : recorded (works 2) fresh someKernel.governor = [str "performance", str "performance"] := by
    rw [recorded_eq _ fun _ _ => rfl]
    rfl
  rcases @enable_cases (works 2) fresh someKernel ⟨rfl, hlisted, rfl⟩ with ⟨hnum, -⟩ | ⟨-, hopens, -⟩ | ⟨-, -, -, heq⟩ |
    ⟨b, -, -, -, hstops, -⟩
  · cases hnum
  · exact absurd (fun _ _ => rfl) hopens
  · simp only [step, World.init]
    rw [heq, hrecorded]
    rfl
  · cases hstops.2.1

theorem fits_disable : Fits someKernel.modules someWorld (.disable (works 2)) :=
  fun _ _ => ⟨by decide, fun _ _ => Or.inl rfl⟩

theorem runs_disable : Runs step (World.init someKernel) (fun _ _ => True) (afterDisable none) :=
  @Runs.next _ _ _ _ _ _ _ _ (.disable (works 2)) (runs_enable.mono fun _ _ _ => trivial) trivial rfl

theorem not_inserts (orig : Option (ℕ → Str)) : ¬ Inserts (works 2) (afterDisable orig).kernel := by
  have hlisted : listed someWorld.kernel.modules = true := by decide +kernel
  intro h
  have hfree := h.2.1
  rw [afterDisable, hlisted] at hfree
  cases hfree

end Example

/-- Two CPUs have `performance` again. -/
theorem governors_exact_of_runs_two : Exact Example.someKernel.modules Example.someWorld (.disable (Example.works 2)) :=
  governors_exact_of_runs Example.runs_enable Example.fits_disable

/-- Once the module is there `Enable` fails, though it does not from the initial state; and `Disable` after that reads behind
    the end of what is recorded. -/
theorem governors_not_exact :
    (∃ w, Runs step (World.init Example.someKernel) (fun _ _ => True) w ∧
      ¬ Exact Example.someKernel.modules w (.enable (Example.works 2))) ∧
    ∃ w, Runs step (World.init Example.someKernel) (fun _ _ => True) w ∧
      ¬ Exact Example.someKernel.modules w (.disable (Example.works 2)) := by
  refine ⟨⟨_, Example.runs_disable, fun h => ?_⟩, ⟨Example.afterDisable (some Example.restored), ?_, fun h => ?_⟩⟩
  · have hready : Ready (Example.works 2) := ⟨rfl, rfl, by decide, fun _ _ => rfl, fun _ _ => rfl⟩
    have hlisted : listed Example.someKernel.modules = false := by decide +kernel
    exact Example.not_inserts none ⟨rfl, (succeeds_iff.mp (h.1 rfl (succeeds_iff.mpr ⟨hready, hlisted⟩))).2, rfl⟩
  · refine @Runs.next _ _ _ _ _ _ _ _ (.enable (Example.works 2)) Example.runs_disable trivial ?_
    rw [step, enable_refused (Example.not_inserts none)]
    rfl
  · obtain ⟨r, hr, -⟩ := h _ rfl
    cases hr

end Seep
end OeAware

import OeAware.Tune.KernelParams
import OeAware.Tune.RealtimeConfig
import OeAware.Tune.RealtimeProcs

/-! @src src/plugin/tune/system/realtime/realtime_tune.cpp | name:RealTimeTune::Enable

    `Enable` lists `realtime_tune` in `config.yaml`, updates the arguments of the kernel and sets the tunables.

        CheckEnv ─▶ switches ─▶ config.yaml ─▶ grubby ─▶ proc and sys ─▶ config.yaml
                                               │ fails: the arguments are rolled back, `config.yaml` is not

    Only the step with `grubby` can fail behind one that has an effect. The second visit to `config.yaml` finds
    what the first has left. -/

namespace OeAware
open Schemes

namespace RealTimeTune

/-- What the object keeps between calls. -/
structure Fields where
  switchConfig : RealtimeTuneSwitch
  backup : SysTuneBackup
  isRebooting : Bool
  maxCpuId : ℤ

def Fields.init : Fields := ⟨.init, .init, false, 0⟩

/-- What there is outside: `config.yaml` where it can be loaded, the tunables and the boot entries. -/
structure World (g : Grubby) where
  config : Option Node
  tunables : Tunables
  boot : g.Boot

/-- What one call meets: the answer of `uname -v`, the number of CPUs, `realtime_tune.yaml` where it can be
    loaded, and what becomes of the commands. -/
structure Outcomes where
  uname : Option Str
  nprocs : ℤ
  yaml : Option Node
  grubby : GrubbyOutcomes
  kernel : Kernel

def checkEnv (o : Outcomes) : Bool := o.uname.any (fun kernel => decide (str "PREEMPT_RT" <:+: kernel))

/-- The end of `Enable`. -/
def finish {g : Grubby} (o : Outcomes) (s : Fields) (w : World g) : Result × Fields × World g :=
  let r := openProcAndSys o.kernel s.switchConfig (s.backup, w.tunables)
  let s := { s with backup := r.2.1 }
  let w := { w with tunables := r.2.2 }
  match w.config.bind addRealtimeTuneToConfig with
  | none => (⟨some FAILED, str "add realtime_tune to config failed"⟩, s, w)
  | some config =>
    (if r.1 then
      ⟨some OK, str "Realtime enabled successfully,all items are enabled,please reboot for changes to take effect"⟩
    else
      ⟨some OK,
        str "Realtime enabled successfully, but some items skiped,please reboot for changes to take effect"⟩,
      s, { w with config := some config })

/-- The part of `Enable` behind the first visit to `config.yaml`. -/
def updateAndFinish {g : Grubby} (o : Outcomes) (s : Fields) (w : World g) : Option (Result × Fields × World g) :=
  let range := s.switchConfig.cpuIsolationRange
  if range ≠ [] ∧ range ≠ str "0" then do
    let r ← checkAndUpdateKernelParamsWithGrubby g o.grubby s.switchConfig s.maxCpuId s.isRebooting w.boot
    let s := { s with isRebooting := r.2.1 }
    let w := { w with boot := r.2.2 }
    if r.1 then some (finish o s w)
    else some (⟨some FAILED, str "check and update grubby params failed"⟩, s, w)
  else some (finish o s w)

/-- `Enable`: `none` when an exception leaves it. -/
def enable {g : Grubby} (o : Outcomes) (s : Fields) (w : World g) : Option (Result × Fields × World g) :=
  if checkEnv o then
    let s := { s with maxCpuId := o.nprocs - 1 }
    let r := parseFromSwitchConfig s.maxCpuId o.yaml s.switchConfig
    let s := { s with switchConfig := r.2 }
    if r.1 then
      match w.config.bind addRealtimeTuneToConfig with
      | none => some (⟨some FAILED, str "add realtime_tune to config failed"⟩, s, w)
      | some config => updateAndFinish o s { w with config := some config }
    else some (⟨some FAILED, str "read realtime_tune.yaml failed"⟩, s, w)
  else
    some (⟨some FAILED, str "Current kernel is not PREEMPT_RT! yum install kernel-rt first."⟩, s, w)

/-! ### The list -/

/-- The `enable_list` of `config.yaml`. -/
def enableListOf (file : Option Node) : Option (Option Node) := file.bind (Node.get (str "enable_list"))

/-- The first item for `libsystem_tune.so` has no list of instances, or one with `realtime_tune`. -/
def alreadyListed : List Node → Bool
  | [] => false
  | item :: enableList =>
    if isSystemTune item = some true then
      match item.get (str "instances") with
      | some none | some (some .null) => true
      | some (some (.seq instances)) => decide (listsRealtime instances = some true)
      | _ => false
    else alreadyListed enableList

/-- `realtime_tune` is enabled by `config.yaml` as it is. -/
def Listed (file : Option Node) : Prop :=
  ∃ items, enableListOf file = some (some (.seq items)) ∧ alreadyListed items = true

theorem set_ne {item : Node} {instances : List Node} (h : item.get (str "instances") = some (some (.seq instances))) :
    item.set (str "instances") (.seq (instances ++ [.scalar REALTIME_TUNE])) ≠ item := by
  intro heq
  have hget := get_set h (.seq (instances ++ [.scalar REALTIME_TUNE]))
  rw [heq, h] at hget
  simp at hget

theorem addTo_eq_self_iff : ∀ {items : List Node} {r : Option (List Node)}, addTo items = some r →
    (r.getD items = items ↔ alreadyListed items = true)
  | [], r, h => by
    cases h
    simp [alreadyListed, newItem]
  | item :: items, r, h => by
    rw [addTo] at h
    rw [alreadyListed]
    cases hsys : isSystemTune item with
    | none => simp [hsys] at h
    | some b =>
      cases b with
      | false =>
        obtain ⟨r', hr', hr⟩ : ∃ r', addTo items = some r' ∧ r'.map (item :: ·) = r := by
          simpa [hsys, Option.bind_eq_some_iff] using h
        have hi := addTo_eq_self_iff hr'
        subst hr
        cases r' <;> simpa using hi
      | true =>
        rw [if_pos rfl]
        cases hget : item.get (str "instances") with
        | none => simp [hsys, hget] at h
        | some instances =>
          cases instances with
          | none =>
            simp only [hsys, hget, Option.bind_eq_bind, Option.bind_some, if_true, Option.some.injEq] at h
            subst h
            simp
          | some instances =>
            cases instances with
            | null =>
              simp only [hsys, hget, Option.bind_eq_bind, Option.bind_some, if_true, Option.some.injEq] at h
              subst h
              simp
            | scalar | map => simp [hsys, hget] at h
            | seq instances =>
              cases halready : listsRealtime instances with
              | none => simp [hsys, hget, halready] at h
              | some already =>
                simp only [hsys, hget, halready, Option.bind_eq_bind, Option.bind_some, if_true, Option.some.injEq] at h
                subst h
                cases already <;> simp [halready, set_ne hget]

/-- The list that `AddRealtimeTuneToConfig` finds is the one in the document. -/
theorem lookup_asMap {config : Node} {pairs : List (Str × Node)} (h : config.asMap = some pairs) (items : List Node) :
    pairs.lookup (str "enable_list") = some (.seq items) ↔ enableListOf (some config) = some (some (.seq items)) := by
  cases config with
  | null =>
    cases h
    simp [enableListOf, Node.get]
  | scalar value => cases h
  | seq list =>
    cases h
    have hnone : (list.zipIdx.map (fun item => (toStr item.2, item.1))).lookup (str "enable_list") = none := by
      rw [List.lookup_eq_none_iff]
      intro p hp
      obtain ⟨item, -, rfl⟩ := List.mem_map.mp hp
      rw [bne_iff_ne]
      intro heq
      have hdigit : (101 : UInt8) ∈ toStr item.2 := by
        rw [← show str "enable_list" = toStr item.2 from heq]
        decide
      exact absurd (mem_toStr hdigit).2 (by decide)
    simp [hnone, enableListOf, Node.get]
  | map l =>
    cases h
    simp [enableListOf, Node.get]

/-- `AddRealtimeTuneToConfig` leaves the list as it is where it enables `realtime_tune`, and only there. -/
theorem enableListOf_add_iff {config c1 : Node} (h : addRealtimeTuneToConfig config = some c1) :
    enableListOf (some c1) = enableListOf (some config) ↔ Listed (some config) := by
  have hset : ∀ (list : List Node) (pairs : List (Str × Node)),
      enableListOf (some (.map (Node.setPair (str "enable_list") (.seq list) pairs))) = some (some (.seq list)) :=
    fun list pairs => congrArg some (Node.lookup_setPair _ _ pairs)
  cases hmap : config.asMap with
  | none => simp [addRealtimeTuneToConfig, hmap] at h
  | some pairs =>
    have hlookup := lookup_asMap hmap
    rw [addRealtimeTuneToConfig, hmap] at h
    simp only [Option.bind_eq_bind, Option.bind_some] at h
    obtain ⟨r, hr, h⟩ := Option.bind_eq_some_iff.mp h
    rcases em (∃ items, enableListOf (some config) = some (some (.seq items))) with ⟨items, hitems⟩ | hno
    · rw [(hlookup items).mpr hitems] at hr
      have hself := addTo_eq_self_iff hr
      have hlisted : Listed (some config) ↔ alreadyListed items = true := by
        refine ⟨fun hlists => ?_, fun h' => ⟨items, hitems, h'⟩⟩
        obtain ⟨items', hitems', h'⟩ := hlists
        rw [hitems] at hitems'
        cases hitems'
        exact h'
      rw [hlisted, ← hself]
      cases r with
      | none =>
        cases h
        simp
      | some list =>
        cases h
        rw [hset, hitems]
        simp
    · have hnone : ∀ items, pairs.lookup (str "enable_list") ≠ some (.seq items) :=
        fun items hi => hno ⟨items, (hlookup items).mp hi⟩
      have hempty : addTo [] = some r := by
        split at hr
        · exact absurd ‹_› (hnone _)
        · exact hr
      cases hempty
      cases h
      refine iff_of_false (fun heq => hno ⟨[newItem], ?_⟩) fun hlists => ?_
      · rw [← heq, hset]
      · obtain ⟨items, hitems, -⟩ := hlists
        exact hno ⟨items, hitems⟩

/-! ### Where `Enable` fails -/

/-- The switches that are read. -/
def switches (o : Outcomes) (s : Fields) : RealtimeTuneSwitch :=
  (parseFromSwitchConfig (o.nprocs - 1) o.yaml s.switchConfig).2

/-- The step with `grubby` is reached. -/
structure Reached (o : Outcomes) (s : Fields) (file : Option Node) : Prop where
  env : checkEnv o = true
  parsed : (parseFromSwitchConfig (o.nprocs - 1) o.yaml s.switchConfig).1 = true
  added : (file.bind addRealtimeTuneToConfig).isSome = true
  range : (switches o s).cpuIsolationRange ≠ [] ∧ (switches o s).cpuIsolationRange ≠ str "0"

/-- The arguments of the default kernel, the list, the tunables and `isRebooting` are as they were. -/
structure Restored {g : Grubby} (s : Fields) (w : World g) (s' : Fields) (w' : World g) : Prop where
  boot : g.bootArgs w'.boot = g.bootArgs w.boot
  list : enableListOf w'.config = enableListOf w.config
  tunables : w'.tunables = w.tunables
  rebooting : s'.isRebooting = s.isRebooting

theorem finish_ok {g : Grubby} (o : Outcomes) (s : Fields) {w : World g} {c1 : Node} (hw : w.config = some c1)
    (h : addRealtimeTuneToConfig c1 = some c1) : (finish o s w).1.failed = false := by
  simp only [finish, hw, Option.bind_some, h]
  split <;> rfl

/-- The call from the first visit to `config.yaml` on. -/
theorem enable_of_added {g : Grubby} {o : Outcomes} {s : Fields} {w : World g} {c1 : Node} (henv : checkEnv o = true)
    (hp : (parseFromSwitchConfig (o.nprocs - 1) o.yaml s.switchConfig).1 = true)
    (hadd : w.config.bind addRealtimeTuneToConfig = some c1) :
    enable o s w = updateAndFinish o { s with switchConfig := switches o s, maxCpuId := o.nprocs - 1 }
      { w with config := some c1 } := by
  rw [enable, if_pos henv]
  simp only [hp, if_true, hadd]
  rfl

/-- A call that fails before the step with `grubby` has changed nothing, and one that does not fail before it
    does not fail behind it. -/
theorem restored_of_not_reached {g : Grubby} {o : Outcomes} {s s' : Fields} {w w' : World g} {res : Result}
    (hr : ¬Reached o s w.config) (h : enable o s w = some (res, s', w')) (hf : res.failed = true) :
    Restored s w s' w' := by
  rcases em (checkEnv o = true) with henv | henv
  · rcases em ((parseFromSwitchConfig (o.nprocs - 1) o.yaml s.switchConfig).1 = true) with hp | hp
    · cases hadd : w.config.bind addRealtimeTuneToConfig with
      | none =>
        rw [enable, if_pos henv] at h
        simp only [hp, if_true, hadd] at h
        cases h
        exact ⟨rfl, rfl, rfl, rfl⟩
      | some c1 =>
        rw [enable_of_added henv hp hadd, updateAndFinish] at h
        dsimp only at h
        rw [if_neg fun hrange => hr ⟨henv, hp, by rw [hadd]; rfl, hrange⟩] at h
        obtain ⟨config, -, hc1⟩ := Option.bind_eq_some_iff.mp hadd
        have hok : (res, s', w').1.failed = false := Option.some.inj h ▸ finish_ok o _ rfl (add_again hc1)
        rw [show res.failed = false from hok] at hf
        cases hf
    · rw [enable, if_pos henv] at h
      simp only [hp] at h
      cases h
      exact ⟨rfl, rfl, rfl, rfl⟩
  · rw [enable, if_neg henv] at h
    cases h
    exact ⟨rfl, rfl, rfl, rfl⟩

/-- There the call fails where the update of the parameters does, and leaves what that leaves. -/
theorem restored_iff_of_reached {g : Grubby} {o : Outcomes} {s : Fields} {w : World g} {c1 : Node}
    (hr : Reached o s w.config) (hadd : w.config.bind addRealtimeTuneToConfig = some c1) :
    (∀ res s' w', enable o s w = some (res, s', w') → res.failed = true → Restored s w s' w') ↔
      ∀ reb b', checkAndUpdateKernelParamsWithGrubby g o.grubby (switches o s) (o.nprocs - 1) s.isRebooting w.boot =
        some (false, reb, b') →
        g.bootArgs b' = g.bootArgs w.boot ∧ enableListOf (some c1) = enableListOf w.config ∧ reb = s.isRebooting := by
  obtain ⟨config, -, hc1⟩ := Option.bind_eq_some_iff.mp hadd
  rw [enable_of_added hr.env hr.parsed hadd, updateAndFinish]
  dsimp only
  rw [if_pos hr.range]
  refine ⟨fun h reb b' hcheck => ?_, fun h res s' w' heq hf => ?_⟩
  · rw [hcheck] at h
    have hres := h _ _ _ rfl rfl
    exact ⟨hres.boot, hres.list, hres.rebooting⟩
  · obtain ⟨⟨ok, reb, b'⟩, hcheck, heq⟩ := Option.bind_eq_some_iff.mp heq
    cases ok with
    | true =>
      have hok : (res, s', w').1.failed = false := Option.some.inj heq ▸ finish_ok o _ rfl (add_again hc1)
      rw [show res.failed = false from hok] at hf
      cases hf
    | false =>
      cases heq
      obtain ⟨hboot, hlist, hreb⟩ := h reb b' hcheck
      exact ⟨hboot, hlist, rfl, hreb⟩

/-- What a failure in the step with `grubby` needs so that nothing of the call is left: `realtime_tune` is listed
    already, the arguments can be restored if they are those of the default kernel, and where the configuration
    of the boot loader is not written a reboot was due before. -/
structure Undone (g : Grubby) (o : Outcomes) (s : Fields) (w : World g) : Prop where
  silent : Silent g o.grubby w.boot → Listed w.config
  fails : ¬Silent g o.grubby w.boot → ∀ expected,
    generateExpectedKernelParams (switches o s) (o.nprocs - 1) = some expected →
    UpdateFails o.grubby (changed (g.bootArgs w.boot) expected) ∨
      MkconfigFails o.grubby (changed (g.bootArgs w.boot) expected) →
    Listed w.config ∧ (g.isDefault = true →
      Undoable o.grubby.update (g.bootArgs w.boot) (changed (g.bootArgs w.boot) expected))
  rebooting : ¬Silent g o.grubby w.boot → ∀ expected,
    generateExpectedKernelParams (switches o s) (o.nprocs - 1) = some expected →
    MkconfigFails o.grubby (changed (g.bootArgs w.boot) expected) → s.isRebooting = true

theorem rolledBack_other {g : Grubby} (hg : g.Lawful) (hdef : g.isDefault = false)
    (outcome : Str → CommandOutcome) (m : ArgMap) : ∀ expected b,
    g.bootArgs (updateParams g outcome m expected b).2.2 = g.bootArgs b
  | [], _ => rfl
  | (key, value) :: expected, b => by
    rw [updateParams]
    split
    · exact rolledBack_other hg hdef outcome m expected b
    · dsimp only
      rw [rolledBack_other hg hdef outcome m expected]
      split
      · exact hg.update_other hdef _ b
      · rfl

theorem rollback_other {g : Grubby} (hg : g.Lawful) (hdef : g.isDefault = false) : ∀ updated b,
    g.bootArgs (rollback g updated b) = g.bootArgs b
  | [], _ => rfl
  | param :: updated, b => by
    rw [rollback, List.foldl_cons]
    refine (rollback_other hg hdef updated _).trans ?_
    rw [restoreParam]
    split
    · exact hg.remove_other hdef _ b
    · exact hg.update_other hdef _ b

/-- A FAILED `Enable` UNDOES ITS STEPS ONLY HERE: a call that fails leaves the arguments of the default kernel, the
    `enable_list`, the tunables and `isRebooting` as they were if and only if it does not fail in the step with
    `grubby`, or there is nothing to be undone there that is not. -/
theorem enable_restores_iff {g : Grubby} (hg : g.Lawful) (o : Outcomes) (s : Fields) (w : World g)
    (hplain : ∀ key ∈ KERNEL_PARAM_KEYS, ∀ v, g.bootArgs w.boot key = some v → Plain v) :
    (∀ res s' w', enable o s w = some (res, s', w') → res.failed = true → Restored s w s' w') ↔
      (Reached o s w.config → Undone g o s w) := by
  have hm : Writable (g.bootArgs w.boot) := fun key hkey v hv =>
    ⟨hplain key hkey v hv, noBlank_parse (g.info w.boot) key v hv⟩
  rcases em (Reached o s w.config) with hr | hr
  · rw [forall_prop_of_true hr]
    obtain ⟨c1, hadd⟩ := Option.isSome_iff_exists.mp hr.added
    obtain ⟨config, hconfig, hc1⟩ := Option.bind_eq_some_iff.mp hadd
    rw [restored_iff_of_reached hr hadd]
    have hlisted : enableListOf (some c1) = enableListOf w.config ↔ Listed w.config := by
      rw [hconfig]
      exact enableListOf_add_iff hc1
    have hrange : ∀ c ∈ (switches o s).cpuIsolationRange, rangeChar c = true := by
      have hvalid := validateCpuRange_of_parse hr.parsed
      rw [validateCpuRange, Bool.and_eq_true, Bool.and_eq_true] at hvalid
      exact List.all_eq_true.mp hvalid.1.2
    have hback : ∀ expected, generateExpectedKernelParams (switches o s) (o.nprocs - 1) = some expected →
        (g.bootArgs (rolledBack g o.grubby.update expected w.boot) = g.bootArgs w.boot ↔
          (g.isDefault = true →
            Undoable o.grubby.update (g.bootArgs w.boot) (changed (g.bootArgs w.boot) expected))) := by
      intro expected hgen
      cases hdef : g.isDefault with
      | true =>
        rw [forall_prop_of_true rfl]
        exact rollback_restores_iff hg hdef hm o.grubby.update (expected_of_generate hrange hgen)
      | false =>
        refine iff_of_true ?_ (fun h => by cases h)
        rw [rolledBack, rollback_other hg hdef, rolledBack_other hg hdef]
    constructor
    · intro h
      simp only [check_false_iff] at h
      refine ⟨fun hs => ?_, fun hs expected hgen hfails => ?_, fun hs expected hgen hmk => ?_⟩
      · exact hlisted.mp (h _ _ (.inl ⟨hs, rfl, rfl⟩)).2.1
      · rcases hfails with hu | hmk
        · obtain ⟨hboot, hlist, -⟩ := h _ _ (.inr ⟨hs, expected, hgen, rfl, .inl ⟨hu, rfl⟩⟩)
          exact ⟨hlisted.mp hlist, (hback expected hgen).mp hboot⟩
        · obtain ⟨hboot, hlist, -⟩ := h _ _ (.inr ⟨hs, expected, hgen, rfl, .inr ⟨hmk, rfl⟩⟩)
          exact ⟨hlisted.mp hlist, (hback expected hgen).mp hboot⟩
      · exact (h _ _ (.inr ⟨hs, expected, hgen, rfl, .inr ⟨hmk, rfl⟩⟩)).2.2.symm
    · intro h reb b' hcheck
      rcases (check_false_iff ..).mp hcheck with ⟨hs, rfl, rfl⟩ | ⟨hs, expected, hgen, rfl, hcase⟩
      · exact ⟨rfl, hlisted.mpr (h.silent hs), rfl⟩
      · rcases hcase with ⟨hu, rfl⟩ | ⟨hmk, rfl⟩
        · obtain ⟨hl, hundo⟩ := h.fails hs expected hgen (.inl hu)
          exact ⟨(hback expected hgen).mpr hundo, hlisted.mpr hl, rfl⟩
        · obtain ⟨hl, hundo⟩ := h.fails hs expected hgen (.inr hmk)
          exact ⟨(hback expected hgen).mpr hundo, hlisted.mpr hl, (h.rebooting hs expected hgen hmk).symm⟩
  · exact iff_of_true (fun res s' w' h hf => restored_of_not_reached hr h hf) fun h => absurd h hr

/-! ### A flag that is lost -/

def switchNode (value : String) : Node := .scalar (str value)

/-- One CPU, and one parameter that is on. -/
def flagYaml : Node :=
  .map [(str "cpu_isolation", .map [(str "range", switchNode "1"), (str "features", .map
      [(str "isolcpus", switchNode "off"), (str "nohz_full", switchNode "on"), (str "rcu_nocbs", switchNode "off"),
        (str "irqaffinity", switchNode "off")])]),
    (str "cpufreq_performance", switchNode "off"),
    (str "memory", .map [(str "transparent_hugepage", switchNode "on"), (str "numa_balancing", switchNode "on"),
      (str "ksm", switchNode "on"), (str "swap", switchNode "on")]),
    (str "timer", .map [(str "migration", switchNode "on")]),
    (str "sched", .map [(str "rt_runtime_us", switchNode "on")])]

/-- `grub2-mkconfig` fails. -/
def flagOutcomes : Outcomes where
  uname := some (str "#1 SMP PREEMPT_RT")
  nprocs := 4
  yaml := some flagYaml
  grubby := ⟨true, true, fun _ => .done, false⟩
  kernel := ⟨fun _ _ _ => none, fun _ => false, none, id⟩

/-- The entry has `nohz_full` without a value. -/
def flagWorld : World entryGrubby where
  config := some (.map [(str "enable_list", .null)])
  tunables := ⟨fun _ => none, false⟩
  boot := ([⟨str "nohz_full", by decide +kernel⟩] : List Token)

theorem plain_flag : ∀ key ∈ KERNEL_PARAM_KEYS, ∀ v, entryGrubby.bootArgs flagWorld.boot key = some v → Plain v := by
  have hargs : entryGrubby.bootArgs flagWorld.boot = insertArg (fun _ => none) (str "nohz_full") :=
    parse_entryInfo ([⟨str "nohz_full", by decide +kernel⟩] : List Token)
  intro key _ v hv
  rw [hargs, insertArg] at hv
  rcases eq_or_ne key (tokenKey (str "nohz_full")) with rfl | hkey
  · rw [Function.update_self, Option.some.injEq] at hv
    have hval : tokenValue (str "nohz_full") = [] := by decide
    rw [← hv, hval]
    exact fun c hc => absurd hc List.not_mem_nil
  · rw [Function.update_of_ne hkey] at hv
    cases hv

theorem enable_restores_iff_flag :
    (∀ res s' w', enable flagOutcomes Fields.init flagWorld = some (res, s', w') → res.failed = true →
      Restored Fields.init flagWorld s' w') ↔
      (Reached flagOutcomes Fields.init flagWorld.config → Undone entryGrubby flagOutcomes Fields.init flagWorld) :=
  enable_restores_iff lawful_entry flagOutcomes Fields.init flagWorld plain_flag

/-- There the call fails, with `nohz_full` gone, `realtime_tune` listed and a reboot due. -/
theorem not_restored_flag : ¬∀ (g : Grubby) (_ : g.Lawful) (o : Outcomes) (s : Fields) (w : World g) res s' w',
    enable o s w = some (res, s', w') → res.failed = true → Restored s w s' w' := by
  intro h
  have hends : (enable flagOutcomes Fields.init flagWorld).map
      (fun r => (r.1.failed, entryGrubby.bootArgs r.2.2.boot (str "nohz_full"))) = some (true, none) := by
    decide +kernel
  obtain ⟨r, hr, hvalues⟩ := Option.map_eq_some_iff.mp hends
  obtain ⟨hf, hafter⟩ := Prod.mk.inj hvalues
  have hbefore : entryGrubby.bootArgs flagWorld.boot (str "nohz_full") = some [] := rfl
  have hboot := (h entryGrubby lawful_entry flagOutcomes Fields.init flagWorld r.1 r.2.1 r.2.2 hr hf).boot
  rw [hboot, hbefore] at hafter
  cases hafter

end RealTimeTune
end OeAware

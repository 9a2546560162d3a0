import OeAware.Manager.Clock
import OeAware.Schemes.Cadence

/-! @src src/plugin_mgr/instance_run_handler.cpp | name:EnableInstance, Schedule, AddTime |
    scheme:state-machine

    What being enabled gets an instance. From the time its one entry is due until it is disabled or enabled once
    more, and whatever else the manager is told meanwhile, it is run at that time and a period after each run, and
    at no other time.

        entry at d ──tick at d──▶ Run, entry at d + period ──tick at d + period──▶ Run, ... -/

namespace OeAware
open Schemes

/-- The entries of `p`. -/
def State.entriesOf (s : State) (p : InstancePtr) : List ScheduleInstance :=
  s.scheduleQueue.filter (fun e => e.ptr = p)

/-- The instance that the step enables. -/
def State.enabledBy (s : State) : Action → Option InstancePtr
  | .message m ans => s.enables ans m
  | _ => none

/-- The step neither disables `p` nor enables it once more. -/
def LeavesEnabled (p : InstancePtr) (s : State) (a : Action) : Prop :=
  (step s a).toOption.all (fun s' => s'.enabled p) = true ∧ s.enabledBy a ≠ some p

instance (p : InstancePtr) (s : State) (a : Action) : Decidable (LeavesEnabled p s a) :=
  inferInstanceAs (Decidable (_ ∧ _))

/-- `p` has one entry, at a beat of `first, first + period, ...`; it has run at every beat before that one and not
    otherwise, and the beat before it is over at `clock`. -/
structure Beating (p : InstancePtr) (first period : ℕ) (old : List ℕ) (clock d : ℕ) (s : State) :
    Prop where
  enabled : s.enabled p = true
  made : (p : ℕ) < s.next
  again : s.runOnce p = false
  every : s.period p = period
  entries : s.entriesOf p = [⟨p, d⟩]
  runs : s.runs p = beats first period d ++ old
  onBeat : OnBeat first period d
  last : d = first ∨ d < clock + period

section
variable {p : InstancePtr} {first period clock d : ℕ} {old : List ℕ} {s s' : State}

theorem entriesOf_perm {e : ScheduleInstance} (hp : (s'.entriesOf p).Perm (s.entriesOf p))
    (h : s.entriesOf p = [e]) : s'.entriesOf p = [e] := by
  rw [h] at hp
  exact List.perm_singleton.mp hp

/-- What neither runs `p` nor touches its entry and its object leaves it where it is. -/
theorem Beating.congr (h : Beating p first period old clock d s) (hen : s'.enabled p = true)
    (hn : s.next ≤ s'.next) (he : s'.entriesOf p = s.entriesOf p)
    (hi : (s'.heap p).interface = (s.heap p).interface) (hr : s'.runs p = s.runs p) :
    Beating p first period old clock d s' where
  enabled := hen
  made := Nat.lt_of_lt_of_le h.made hn
  again := by rw [State.runOnce, hi]; exact h.again
  every := by rw [State.period, hi]; exact h.every
  entries := he.trans h.entries
  runs := hr.trans h.runs
  onBeat := h.onBeat
  last := h.last

/-- A round of `Schedule`: the entry that is popped is that of `p`, which runs and gets the next one, or another. -/
theorem Beating.round {e : ScheduleInstance} {rest : List ScheduleInstance}
    (h : Beating p first period old (s.time + 1) d s) (hpos : 0 < period)
    (hq : s.scheduleQueue = e :: rest) (ht : e.time = s.time) (hr : Round s s' e rest)
    (hen : s'.enabled p = true) : ∃ d', Beating p first period old (s'.time + 1) d' s' := by
  have hentries : s.entriesOf p = (e :: rest).filter (fun e => e.ptr = p) := by
    rw [State.entriesOf, hq]
  rw [h.entries] at hentries
  by_cases hep : e.ptr = p
  · -- the entry of `p` is due
    subst hep
    rw [List.filter_cons_of_pos (by simp)] at hentries
    obtain ⟨he, hrest⟩ := List.cons_eq_cons.mp hentries
    have hd : d = s.time := by rw [← ht, ← he]
    have hrun : s'.runs e.ptr = s.time :: s.runs e.ptr := by
      rw [hr.runs, if_pos ⟨rfl, h.enabled⟩]
    rcases hr.scheduleQueue with ⟨_, honce⟩ | ⟨_, _, hpush⟩
    · rw [h.again] at honce
      exact absurd (honce h.enabled) (by simp)
    refine ⟨d + period, hen, hr.frame.next ▸ h.made, ?_, ?_, ?_, ?_, h.onBeat.next, Or.inr ?_⟩
    · rw [hr.frame.runOnce]; exact h.again
    · rw [hr.frame.period]; exact h.every
    · have hperm := hpush.perm.filter (fun a => a.ptr = e.ptr)
      rw [List.filter_cons_of_pos (by simp), ← hrest, h.every, ← hd] at hperm
      exact List.perm_singleton.mp hperm
    · rw [hrun, h.runs, beats_next h.onBeat hpos, ← hd, List.cons_append]
    · rw [hr.time, ← hd]
      omega
  · -- that of another instance, which may be pushed again
    rw [List.filter_cons_of_neg (by simpa using hep)] at hentries
    have hsame : s'.entriesOf p = s.entriesOf p := by
      rw [h.entries, hentries]
      rcases hr.scheduleQueue with ⟨hs', _⟩ | ⟨_, _, hpush⟩
      · rw [State.entriesOf, hs']
      · have hperm := hpush.perm.filter (fun a => a.ptr = p)
        rw [List.filter_cons_of_neg (by simpa using hep), ← hentries] at hperm
        rw [← hentries]
        exact List.perm_singleton.mp hperm
    have hruns : s'.runs p = s.runs p := by
      rw [hr.runs, if_neg (fun hh => hep hh.1.symm)]
    exact ⟨d, hr.time ▸ h.congr hen hr.frame.next.ge hsame (hr.frame.interface p) hruns⟩

/-- A tick moves `p` on to the beat that the new clock has not passed. -/
theorem Beating.tick {s1 : State} (h : Beating p first period old s.time d s) (hpos : 0 < period)
    (hc : 0 < s.cycle) (he : s.schedule = .ok s1) (hen : s1.enabled p = true) :
    ∃ d', Beating p first period old s1.addTime.time d' s1.addTime := by
  have hstart : ∃ d, Beating p first period old (s.time + 1) d s :=
    ⟨d, { h with last := h.last.imp_right (fun hl => by omega) }⟩
  -- the rounds only ever disable, so that `p` is enabled before each of them
  have hrounds := tick_induct
    (P := fun s1 => s1.enabled p = true → ∃ d, Beating p first period old (s1.time + 1) d s1)
    (fun a b e rest ha hq ht hr hb => by
      obtain ⟨d, hd⟩ := ha (hr.enabled p hb).1
      exact hd.round hpos hq ht hr hb)
    (fun _ => hstart) he
  obtain ⟨d', hd'⟩ := hrounds hen
  have hcycle : 0 < s1.cycle := by rw [(schedule_frame he).cycle]; exact hc
  refine ⟨d', { hd' with last := hd'.last.imp_right (fun hl => ?_) }⟩
  show d' < s1.time + s1.cycle + period
  omega

theorem Beating.step {a : Action} (hs : StoreOk s) (hg : OnGrid s)
    (h : Beating p first period old s.time d s) (hok : LeavesEnabled p s a)
    (he : OeAware.step s a = .ok s') : ∃ d', Beating p first period old s'.time d' s' := by
  have hen : s'.enabled p = true := by
    have := hok.1
    rw [he] at this
    exact this
  have hpos : 0 < period := h.every ▸ (hg.periods p h.made).1
  cases a with
  | message m ans =>
    obtain ⟨⟨s1, r⟩, h1, rfl⟩ := map_ok he
    have hf := handle_frame hs h1
    rcases handle_schedule hs h1 with hq | ⟨q, hq, hn⟩
    · refine ⟨d, hq.time ▸ h.congr hen hf.next.ge ?_ (hf.interface p) (hq.runs p)⟩
      rw [State.entriesOf, hq.scheduleQueue]
      rfl
    · have hne : (s.firstEntry q).ptr ≠ p := by
        rintro rfl
        exact hok.2 hq
      have hperm := hn.scheduleQueue.perm.filter (fun e => e.ptr = p)
      rw [List.filter_cons_of_neg (by simpa using hne)] at hperm
      have hentries := entriesOf_perm hperm h.entries
      exact ⟨d, hn.time ▸ h.congr hen hf.next.ge (hentries.trans h.entries.symm) (hf.interface p)
        (hn.runs p)⟩
  | tick =>
    obtain ⟨s1, h1, rfl⟩ := map_ok he
    exact h.tick hpos hg.cycle h1 hen
  | load name file =>
    cases he
    rcases loadPlugin_cases s name file with he | ⟨interfaces, _, hl⟩
    · rw [he]; exact ⟨d, h⟩
    · have hheap : (s.loadPlugin name file).1.heap p = s.heap p :=
        hl.old p (fun hnew => Nat.not_le_of_lt h.made hnew.1)
      have htime : (s.loadPlugin name file).1.time = s.time := by rw [hl.eq]
      have hqueue : (s.loadPlugin name file).1.scheduleQueue = s.scheduleQueue := by rw [hl.eq]
      have hcalls : (s.loadPlugin name file).1.calls = s.calls := by rw [hl.eq]
      refine ⟨d, htime ▸ h.congr hen (hl.next ▸ Nat.le_add_right _ _) ?_ (by rw [hheap]) ?_⟩
      · rw [State.entriesOf, hqueue]
        rfl
      · rw [State.runs, hcalls]
        rfl
  | remove name =>
    cases he
    rcases remove_cases s name with he | ⟨plugin, hr⟩
    · rw [he]; exact ⟨d, h⟩
    · rw [hr.eq] at hen ⊢
      exact ⟨d, h.congr hen (Nat.le_refl _) rfl rfl rfl⟩
  | reorder o =>
    cases he
    have hentries := entriesOf_perm ((queue_reorder s o).1.filter _) h.entries
    exact ⟨d, h.congr hen (Nat.le_refl _) (hentries.trans h.entries.symm) rfl rfl⟩

end

/-- The instance `i` is enabled, and due at once. -/
def sampleEnabled : State :=
  (runAll step LoadsOnGrid State.init
    [sampleLoad, .message (.ENABLED (str "i") []) accepting]).getD State.init

end OeAware

import Mathlib.Algebra.Ring.Nat
import Mathlib.Data.List.Basic
import Mathlib.Data.List.Induction

/-! @src src/plugin/tune/system/network/smc_tune/kprobe/smc_acc.c | name:net_tcp2smc

    The module counts connects, messages and releases of the protocol in use, and goes over to the other one where the
    connections are too short, or long enough again, for it. The counts are 64 bits wide.

        smc ──release: 80·conn > send/2──▶ tcp
            ◀──fin: 80·conn < send/2─────

    Each time it decides, it begins to count anew. What it has counted is what came since then, in the `window`. -/

namespace OeAware

namespace SmcAcc

/-! ### The module -/

inductive Protocol where
  | smc
  | tcp
  deriving DecidableEq

/-- `conn_count_##type`, `send_count_##type`, `release_count_##type`. -/
structure Counts where
  conn : UInt64
  send : UInt64
  release : UInt64
  deriving DecidableEq

/-- `REFRESH_COUNT(type)` leaves these. -/
def REFRESH_COUNT : Counts := ⟨0, 0, 0⟩

structure State where
  counts : Protocol → Counts
  net_tcp2smc : Int32
  NET_TCP2SMC_THRESHOLD : UInt64

/-- What the handlers of the protocol ask for first. -/
def State.active (s : State) : Protocol → Prop
  | .smc => s.net_tcp2smc ≠ 0
  | .tcp => s.net_tcp2smc = 0

instance (s : State) : ∀ p, Decidable (s.active p)
  | .smc => inferInstanceAs (Decidable (_ ≠ _))
  | .tcp => inferInstanceAs (Decidable (_ = _))

def State.set (s : State) (p : Protocol) (c : Counts) : State := { s with counts := Function.update s.counts p c }

/-- `kprobe_init`, as far as the counts go. -/
def kprobe_init (short_connection : Int32) : State where
  counts _ := ⟨0, 0, 0⟩
  net_tcp2smc := 1
  NET_TCP2SMC_THRESHOLD := if short_connection = 0 then ~~~0 else 1024

def handleConn (p : Protocol) (s : State) : State :=
  if s.active p then s.set p { s.counts p with conn := (s.counts p).conn + 1 } else s

def handleSend (p : Protocol) (s : State) : State :=
  if s.active p then s.set p { s.counts p with send := (s.counts p).send + 1 } else s

/-- `flips conn real_send_count` is what a decision depends on, `net_tcp2smc` what it sets. -/
def handleRelease (p : Protocol) (flips : UInt64 → UInt64 → Bool) (net_tcp2smc : Int32) (s : State) : State :=
  if s.active p then
    let c := { s.counts p with release := (s.counts p).release + 1 }
    if c.conn > s.NET_TCP2SMC_THRESHOLD ∧ c.release ≥ s.NET_TCP2SMC_THRESHOLD then
      let real_send_count := c.send / 2
      { s.set p REFRESH_COUNT with
        net_tcp2smc := if flips c.conn real_send_count then net_tcp2smc else s.net_tcp2smc }
    else s.set p c
  else s

def handle_smc_connect : State → State := handleConn .smc
def handle_smc_sendmsg : State → State := handleSend .smc
def handle_smc_release : State → State := handleRelease .smc (fun conn real => conn * 80 > real) 0
def handle_tcp_conn : State → State := handleConn .tcp
def handle_tcp_recv : State → State := handleSend .tcp
def handle_tcp_fin : State → State := handleRelease .tcp (fun conn real => conn * 80 < real) 1

inductive Kind where
  | conn
  | send
  | release
  deriving DecidableEq

/-- A probe is hit. -/
structure Event where
  protocol : Protocol
  kind : Kind
  deriving DecidableEq

def step (s : State) : Event → State
  | ⟨.smc, .conn⟩ => handle_smc_connect s
  | ⟨.smc, .send⟩ => handle_smc_sendmsg s
  | ⟨.smc, .release⟩ => handle_smc_release s
  | ⟨.tcp, .conn⟩ => handle_tcp_conn s
  | ⟨.tcp, .send⟩ => handle_tcp_recv s
  | ⟨.tcp, .release⟩ => handle_tcp_fin s

def run (short_connection : Int32) (es : List Event) : State := es.foldl step (kprobe_init short_connection)

/-! ### The window -/

/-- There is a decision at the end of such a window. -/
def Due (threshold : ℕ) (w : List Kind) : Prop := threshold < w.count .conn ∧ threshold ≤ w.count .release

instance (threshold : ℕ) (w : List Kind) : Decidable (Due threshold w) := inferInstanceAs (Decidable (_ ∧ _))

/-- Half the messages are below 80 times the connects, or above. -/
def Turns (w : List Kind) : Protocol → Prop
  | .smc => w.count .send < 2 * (80 * w.count .conn)
  | .tcp => 2 * (80 * w.count .conn) < w.count .send

/-- What comes of a window by an event in `s`; it says nothing of the counts. -/
def widen (s : State) (w : List Kind) (e : Event) : List Kind :=
  if s.active e.protocol then
    if e.kind = .release ∧ Due s.NET_TCP2SMC_THRESHOLD.toNat (w ++ [e.kind]) then [] else w ++ [e.kind]
  else w

/-- The module and the events of the protocol in use since it is in use or the last decision. -/
def windowed (short_connection : Int32) (es : List Event) : State × List Kind :=
  es.foldl (fun r e => (step r.1 e, widen r.1 r.2 e)) (kprobe_init short_connection, [])

def window (short_connection : Int32) (es : List Event) : List Kind := (windowed short_connection es).2

variable {short_connection : Int32}

theorem widen_due {s : State} {w : List Kind} {p : Protocol} (hp : s.active p)
    (hdue : Due s.NET_TCP2SMC_THRESHOLD.toNat (w ++ [.release])) : widen s w ⟨p, .release⟩ = [] := by
  rw [widen, if_pos hp, if_pos ⟨rfl, hdue⟩]

theorem widen_not_due {s : State} {w : List Kind} {p : Protocol} (hp : s.active p)
    (hdue : ¬ Due s.NET_TCP2SMC_THRESHOLD.toNat (w ++ [.release])) : widen s w ⟨p, .release⟩ = w ++ [.release] := by
  rw [widen, if_pos hp, if_neg fun h => hdue h.2]

theorem widen_other {s : State} {w : List Kind} {p : Protocol} {k : Kind} (hp : s.active p) (hk : k ≠ .release) :
    widen s w ⟨p, k⟩ = w ++ [k] := by
  rw [widen, if_pos hp, if_neg fun h => hk h.1]

theorem windowed_fst (es : List Event) : (windowed short_connection es).1 = run short_connection es := by
  induction es using List.reverseRecOn with
  | nil => rfl
  | append_singleton es e ih =>
    simp only [windowed, run, List.foldl_append, List.foldl_cons, List.foldl_nil] at ih ⊢
    rw [ih]

theorem run_concat (es : List Event) (e : Event) :
    run short_connection (es ++ [e]) = step (run short_connection es) e := by
  simp [run]

theorem window_concat (es : List Event) (e : Event) : window short_connection (es ++ [e]) =
    widen (run short_connection es) (window short_connection es) e := by
  rw [window, windowed, List.foldl_append, List.foldl_cons, List.foldl_nil, ← windowed_fst]
  rfl

theorem length_window (es : List Event) : (window short_connection es).length ≤ es.length := by
  induction es using List.reverseRecOn with
  | nil => simp [window, windowed]
  | append_singleton es e ih =>
    rw [window_concat, widen]
    split
    · split
      · simp
      · simpa using ih
    · simp only [List.length_append, List.length_singleton]
      omega

/-! ### Counts and window -/

/-- The protocol in use is counted in the window, the other one not at all. -/
structure Counted (s : State) (w : List Kind) : Prop where
  flag : s.net_tcp2smc = 0 ∨ s.net_tcp2smc = 1
  idle : ∀ p, ¬ s.active p → s.counts p = ⟨0, 0, 0⟩
  conn : ∀ p, s.active p → (s.counts p).conn.toNat = w.count .conn
  send : ∀ p, s.active p → (s.counts p).send.toNat = w.count .send
  release : ∀ p, s.active p → (s.counts p).release.toNat = w.count .release

def other : Protocol → Protocol
  | .smc => .tcp
  | .tcp => .smc

theorem active_other {s : State} {p : Protocol} : s.active (other p) ↔ ¬ s.active p := by
  cases p <;> simp [other, State.active]

theorem eq_or_other (p q : Protocol) : q = p ∨ q = other p := by
  cases p <;> cases q <;> simp [other]

theorem counts_set_of_ne {s : State} {p q : Protocol} {c : Counts} (h : q ≠ p) : (s.set p c).counts q = s.counts q :=
  Function.update_of_ne h ..

@[simp] theorem active_set {s : State} {p : Protocol} {c : Counts} : ∀ q, (s.set p c).active q ↔ s.active q
  | .smc => Iff.rfl
  | .tcp => Iff.rfl

theorem counted_init : Counted (kprobe_init short_connection) [] where
  flag := .inr rfl
  idle _ _ := rfl
  conn _ _ := rfl
  send _ _ := rfl
  release _ _ := rfl

/-- What a decision depends on, and what it sets. -/
def flips : Protocol → UInt64 → UInt64 → Bool
  | .smc => fun conn real => conn * 80 > real
  | .tcp => fun conn real => conn * 80 < real

def target : Protocol → Int32
  | .smc => 0
  | .tcp => 1

theorem step_conn (s : State) (p : Protocol) : step s ⟨p, .conn⟩ = handleConn p s := by cases p <;> rfl

theorem step_send (s : State) (p : Protocol) : step s ⟨p, .send⟩ = handleSend p s := by cases p <;> rfl

theorem step_release (s : State) (p : Protocol) : step s ⟨p, .release⟩ = handleRelease p (flips p) (target p) s := by
  cases p <;> rfl

theorem step_idle {s : State} {e : Event} (h : ¬ s.active e.protocol) : step s e = s := by
  obtain ⟨p, k⟩ := e
  cases k with
  | conn => rw [step_conn, handleConn, if_neg h]
  | send => rw [step_send, handleSend, if_neg h]
  | release => rw [step_release, handleRelease, if_neg h]

theorem threshold_step (s : State) (e : Event) : (step s e).NET_TCP2SMC_THRESHOLD = s.NET_TCP2SMC_THRESHOLD := by
  obtain ⟨p, k⟩ := e
  cases k with
  | conn =>
    rw [step_conn, handleConn]
    split <;> rfl
  | send =>
    rw [step_send, handleSend]
    split <;> rfl
  | release =>
    rw [step_release, handleRelease]
    split
    · dsimp only
      split <;> rfl
    · rfl

theorem threshold_run (es : List Event) :
    (run short_connection es).NET_TCP2SMC_THRESHOLD = (kprobe_init short_connection).NET_TCP2SMC_THRESHOLD := by
  induction es using List.reverseRecOn with
  | nil => rfl
  | append_singleton es e ih => rw [run_concat, threshold_step, ih]

namespace Counted
variable {s : State} {w : List Kind}

/-- The counts of the protocol in use are changed. -/
theorem set (h : Counted s w) {p : Protocol} (hp : s.active p) {c : Counts} {w' : List Kind}
    (hconn : c.conn.toNat = w'.count .conn) (hsend : c.send.toNat = w'.count .send)
    (hrelease : c.release.toNat = w'.count .release) : Counted (s.set p c) w' := by
  have hsame : ∀ q, (s.set p c).active q → (s.set p c).counts q = c := by
    intro q hq
    rcases eq_or_other p q with rfl | rfl
    · exact Function.update_self ..
    · exact absurd hp (active_other.mp ((active_set _).mp hq))
  refine ⟨h.flag, fun q hq => ?_, fun q hq => ?_, fun q hq => ?_, fun q hq => ?_⟩
  · rw [active_set] at hq
    have hne : q ≠ p := fun heq => hq (heq ▸ hp)
    rw [counts_set_of_ne hne]
    exact h.idle q hq
  · rw [hsame q hq, hconn]
  · rw [hsame q hq, hsend]
  · rw [hsame q hq, hrelease]

/-- The release that has come is counted; there is a decision where the window says so. -/
theorem due_iff (h : Counted s w) (hw : w.length < 2 ^ 57) {p : Protocol} (hp : s.active p) :
    ((s.counts p).conn > s.NET_TCP2SMC_THRESHOLD ∧ (s.counts p).release + 1 ≥ s.NET_TCP2SMC_THRESHOLD) ↔
      Due s.NET_TCP2SMC_THRESHOLD.toNat (w ++ [.release]) := by
  have hle : w.count .release ≤ w.length := List.count_le_length
  have hadd : ((s.counts p).release + 1).toNat = w.count .release + 1 := by
    rw [UInt64.toNat_add, h.release p hp]
    exact Nat.mod_eq_of_lt (by simp; omega)
  rw [gt_iff_lt, ge_iff_le, UInt64.lt_iff_toNat_lt, UInt64.le_iff_toNat_le, h.conn p hp, hadd, Due, List.count_append,
    List.count_append]
  simp

/-- Where it goes over, the window says so too. -/
theorem turns (h : Counted s w) (hw : w.length < 2 ^ 57) {p : Protocol} (hp : s.active p)
    (hf : flips p (s.counts p).conn ((s.counts p).send / 2) = true) : Turns (w ++ [.release]) p := by
  have hle : w.count .conn ≤ w.length := List.count_le_length
  have hmul : ((s.counts p).conn * 80).toNat = w.count .conn * 80 := by
    rw [UInt64.toNat_mul, h.conn p hp]
    exact Nat.mod_eq_of_lt (by simp; omega)
  have hdiv : ((s.counts p).send / 2).toNat = w.count .send / 2 := by
    rw [UInt64.toNat_div, h.send p hp]
    rfl
  cases p with
  | smc =>
    have hlt : (s.counts .smc).send / 2 < (s.counts .smc).conn * 80 := of_decide_eq_true hf
    rw [UInt64.lt_iff_toNat_lt, hmul, hdiv] at hlt
    simp only [Turns, List.count_append]
    simp
    omega
  | tcp =>
    have hlt : (s.counts .tcp).conn * 80 < (s.counts .tcp).send / 2 := of_decide_eq_true hf
    rw [UInt64.lt_iff_toNat_lt, hmul, hdiv] at hlt
    simp only [Turns, List.count_append]
    simp
    omega

/-- ONE EVENT: the counts stay those of the window. -/
theorem step (h : Counted s w) (hw : w.length + 1 < 2 ^ 57) (e : Event) : Counted (step s e) (widen s w e) := by
  rcases em (s.active e.protocol) with hp | hp
  · obtain ⟨p, k⟩ := e
    dsimp only at hp
    cases k with
    | conn =>
      have hle : w.count .conn ≤ w.length := List.count_le_length
      rw [step_conn, handleConn, if_pos hp, widen_other hp (by simp)]
      refine h.set hp ?_ ?_ ?_
      · rw [UInt64.toNat_add, h.conn p hp, List.count_append]
        exact Nat.mod_eq_of_lt (by simp; omega)
      · rw [h.send p hp, List.count_append]
        rfl
      · rw [h.release p hp, List.count_append]
        rfl
    | send =>
      have hle : w.count .send ≤ w.length := List.count_le_length
      rw [step_send, handleSend, if_pos hp, widen_other hp (by simp)]
      refine h.set hp ?_ ?_ ?_
      · rw [h.conn p hp, List.count_append]
        rfl
      · rw [UInt64.toNat_add, h.send p hp, List.count_append]
        exact Nat.mod_eq_of_lt (by simp; omega)
      · rw [h.release p hp, List.count_append]
        rfl
    | release =>
      have hle : w.count .release ≤ w.length := List.count_le_length
      rw [step_release, handleRelease, if_pos hp]
      dsimp only
      rcases em (Due s.NET_TCP2SMC_THRESHOLD.toNat (w ++ [.release])) with hdue | hdue
      · rw [if_pos ((h.due_iff (by omega) hp).mpr hdue), widen_due hp hdue]
        have hzero : ∀ q, (s.set p REFRESH_COUNT).counts q = ⟨0, 0, 0⟩ := by
          intro q
          rcases eq_or_other p q with rfl | rfl
          · exact Function.update_self ..
          · rw [counts_set_of_ne (by cases p <;> simp [other])]
            exact h.idle _ fun hq => active_other.mp hq hp
        refine ⟨?_, fun q _ => hzero q, fun q _ => ?_, fun q _ => ?_, fun q _ => ?_⟩
        · dsimp only
          split
          · cases p <;> simp [target]
          · exact h.flag
        · rw [hzero]
          rfl
        · rw [hzero]
          rfl
        · rw [hzero]
          rfl
      · rw [if_neg fun hc => hdue ((h.due_iff (by omega) hp).mp hc), widen_not_due hp hdue]
        refine h.set hp ?_ ?_ ?_
        · rw [h.conn p hp, List.count_append]
          rfl
        · rw [h.send p hp, List.count_append]
          rfl
        · rw [UInt64.toNat_add, h.release p hp, List.count_append]
          exact Nat.mod_eq_of_lt (by simp; omega)
  · rw [step_idle hp, widen, if_neg hp]
    exact h

/-- ONE CHANGE: `net_tcp2smc` is changed by a decision only. -/
theorem changed (h : Counted s w) (hw : w.length < 2 ^ 57) {e : Event}
    (hne : (SmcAcc.step s e).net_tcp2smc ≠ s.net_tcp2smc) :
    (e = ⟨.smc, .release⟩ ∧ s.net_tcp2smc = 1 ∧ (SmcAcc.step s e).net_tcp2smc = 0 ∨
      e = ⟨.tcp, .release⟩ ∧ s.net_tcp2smc = 0 ∧ (SmcAcc.step s e).net_tcp2smc = 1) ∧
    Due s.NET_TCP2SMC_THRESHOLD.toNat (w ++ [.release]) ∧ Turns (w ++ [.release]) e.protocol := by
  obtain ⟨p, k⟩ := e
  have hp : s.active p := by
    refine Classical.byContradiction fun hp => hne ?_
    rw [step_idle hp]
  cases k with
  | conn =>
    rw [step_conn, handleConn, if_pos hp] at hne
    exact absurd rfl hne
  | send =>
    rw [step_send, handleSend, if_pos hp] at hne
    exact absurd rfl hne
  | release =>
    rw [step_release, handleRelease, if_pos hp] at hne ⊢
    dsimp only at hne ⊢
    split at hne
    · rename_i hdue
      rw [if_pos hdue]
      dsimp only at hne ⊢
      split at hne
      · rename_i hf
        rw [if_pos hf]
        refine ⟨?_, (h.due_iff hw hp).mp hdue, h.turns hw hp hf⟩
        cases p with
        | smc => exact .inl ⟨rfl, h.flag.resolve_left hp, rfl⟩
        | tcp => exact .inr ⟨rfl, hp, rfl⟩
      · exact absurd rfl hne
    · exact absurd rfl hne

end Counted

theorem counted_run (es : List Event) : es.length < 2 ^ 57 →
    Counted (run short_connection es) (window short_connection es) := by
  induction es using List.reverseRecOn with
  | nil => exact fun _ => counted_init
  | append_singleton es e ih =>
    intro h
    rw [List.length_append, List.length_singleton] at h
    have hlen := @length_window short_connection es
    rw [run_concat, window_concat]
    exact (ih (by omega)).step (by omega) e

/-- Without `short_connection` nothing is ever due. -/
theorem net_tcp2smc_eq_one (h0 : short_connection = 0) (es : List Event) : es.length < 2 ^ 57 →
    (run short_connection es).net_tcp2smc = 1 := by
  induction es using List.reverseRecOn with
  | nil => exact fun _ => rfl
  | append_singleton es e ih =>
    intro h
    rw [List.length_append, List.length_singleton] at h
    rw [run_concat, ← ih (by omega)]
    refine Classical.byContradiction fun hne => ?_
    have hlen := @length_window short_connection es
    have hcounted := @counted_run short_connection es (by omega)
    obtain ⟨-, ⟨hdue, -⟩, -⟩ := hcounted.changed (by omega) hne
    rw [threshold_run, h0] at hdue
    have hle : (window short_connection es ++ [Kind.release]).count .conn ≤ _ := List.count_le_length
    have hmax : (kprobe_init 0).NET_TCP2SMC_THRESHOLD.toNat = 2 ^ 64 - 1 := by decide
    rw [h0] at hle hlen
    rw [hmax] at hdue
    rw [List.length_append, List.length_singleton] at hle
    omega

/-- NO COUNT LEAKS: after less than 2^57 events the counts of the idle protocol are zero, and those of the other one what
    came since it is in use or its last decision. On the way `net_tcp2smc` is changed only by a release that makes a
    decision due, where what came in that time is for it; what makes a decision due leaves no counts; and without
    `short_connection` nothing is changed. -/
theorem changed_of_run (short_connection : Int32) (es : List Event) (h : es.length < 2 ^ 57) :
    Counted (run short_connection es) (window short_connection es) ∧
    (short_connection = 0 → (run short_connection es).net_tcp2smc = 1) ∧
    ∀ before e after, es = before ++ e :: after →
      ((run short_connection (before ++ [e])).net_tcp2smc ≠ (run short_connection before).net_tcp2smc →
        (e = ⟨.smc, .release⟩ ∧ (run short_connection before).net_tcp2smc = 1 ∧
            (run short_connection (before ++ [e])).net_tcp2smc = 0 ∨
          e = ⟨.tcp, .release⟩ ∧ (run short_connection before).net_tcp2smc = 0 ∧
            (run short_connection (before ++ [e])).net_tcp2smc = 1) ∧
        Due (kprobe_init short_connection).NET_TCP2SMC_THRESHOLD.toNat (window short_connection before ++ [.release]) ∧
        Turns (window short_connection before ++ [.release]) e.protocol) ∧
      (e.kind = .release → (run short_connection before).active e.protocol →
        Due (kprobe_init short_connection).NET_TCP2SMC_THRESHOLD.toNat (window short_connection before ++ [.release]) →
        window short_connection (before ++ [e]) = [] ∧
          ∀ p, (run short_connection (before ++ [e])).counts p = ⟨0, 0, 0⟩) := by
  refine ⟨counted_run es h, fun h0 => net_tcp2smc_eq_one h0 es h, fun before e after hes => ?_⟩
  have hlen : before.length + 1 < 2 ^ 57 := by
    rw [hes, List.length_append, List.length_cons] at h
    omega
  have hwindow := @length_window short_connection before
  have hcounted := @counted_run short_connection before (by omega)
  have hafter := hcounted.step (by omega) e
  rw [← run_concat, ← window_concat] at hafter
  constructor
  · intro hne
    rw [run_concat] at hne ⊢
    have hchanged := hcounted.changed (by omega) hne
    rwa [threshold_run] at hchanged
  · intro hkind hactive hdue
    have hnil : window short_connection (before ++ [e]) = [] := by
      obtain ⟨p, k⟩ := e
      dsimp only at hkind hactive
      subst hkind
      rw [window_concat, widen_due hactive (by rwa [threshold_run])]
    refine ⟨hnil, fun p => ?_⟩
    rw [hnil] at hafter
    rcases em ((run short_connection (before ++ [e])).active p) with hp | hp
    · have hconn := hafter.conn p hp
      have hsend := hafter.send p hp
      have hrelease := hafter.release p hp
      generalize (run short_connection (before ++ [e])).counts p = c at hconn hsend hrelease
      obtain ⟨conn, send, release⟩ := c
      simp only [List.count_nil] at hconn hsend hrelease
      rw [UInt64.toNat_inj.mp (hconn.trans UInt64.toNat_zero.symm), UInt64.toNat_inj.mp (hsend.trans UInt64.toNat_zero.symm),
        UInt64.toNat_inj.mp (hrelease.trans UInt64.toNat_zero.symm)]
    · exact hafter.idle p hp

/-- One connect after loading. -/
theorem changed_of_run_connect : (run 1 [⟨.smc, .conn⟩]).counts .tcp = ⟨0, 0, 0⟩ :=
  (changed_of_run 1 [⟨.smc, .conn⟩] (by decide)).1.idle .tcp (by decide)

end SmcAcc
end OeAware

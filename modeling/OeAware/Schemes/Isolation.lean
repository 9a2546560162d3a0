import Mathlib.Data.List.Nodup
import Mathlib.Data.List.Perm.Basic
import Mathlib.Logic.Function.Basic
import OeAware.Schemes.Run

/-! @scheme isolation | name:sessions that do not interfere | models:services that keep several topics open

    A service opens and closes topics, is fed data, and reports when it is run. Each opening starts a
    session, of which the data and the runs since are part. Sessions are isolated if the service reports
    for each what it would report if it were its only one ever; that is what `Separate` says of a run.

        openTopic t · feed d · [ openTopic u ] · run e          t: openTopic t · feed d · run e
                                                                u: openTopic u · run e

    It is shown with a view: what of the state the reports of one topic depend on while it is open.
    Whatever is called, what is seen of different topics changes apart from each other. -/

namespace Schemes

/-- Topics `τ` are told apart by their keys; `openTopic` tells whether it opened one, `about` the key of
    what a report is for. -/
structure Service (τ κ : Type) where
  State : Type
  Env : Type
  Feed : Type
  Report : Type
  init : State
  key : τ → κ
  about : Report → κ
  openTopic : τ → Env → State → State × Bool
  closeTopic : τ → State → State
  reset : State → State
  feed : Feed → State → State
  run : Env → State → State × List Report

namespace Service
variable {τ κ : Type}

/-- What a service is asked. -/
inductive Call (S : Service τ κ) where
  | openTopic (topic : τ) (env : S.Env)
  | closeTopic (topic : τ)
  | reset
  | feed (data : S.Feed)
  | run (env : S.Env)

variable (S : Service τ κ)

def step (s : S.State) : S.Call → S.State
  | .openTopic topic env => (S.openTopic topic env s).1
  | .closeTopic topic => S.closeTopic topic s
  | .reset => S.reset s
  | .feed data => S.feed data s
  | .run env => (S.run env s).1

/-- The state after calls on a service of one's own. -/
def after (calls : List S.Call) : S.State := calls.foldl S.step S.init

/-- All reports that calls on it bring. -/
def reportsFrom (s : S.State) : List S.Call → List S.Report
  | [] => []
  | .run env :: calls => (S.run env s).2 ++ reportsFrom (S.run env s).1 calls
  | c :: calls => reportsFrom (S.step s c) calls

/-- The calls of the session under each key, for those that are open. -/
abbrev Sessions := κ → Option (List S.Call)

/-- A service that is used, and what its sessions have come to. -/
structure Traced where
  state : S.State
  sessions : S.Sessions

def Traced.init : S.Traced := ⟨S.init, fun _ => none⟩

variable {S} in
/-- The topics that are open. -/
def Traced.isOpen (x : S.Traced) (k : κ) : Bool := (x.sessions k).isSome

variable {S} in
/-- The sessions that are open take part in a call. -/
def extend (sessions : S.Sessions) (c : S.Call) : S.Sessions :=
  fun k => (sessions k).map (· ++ [c])

variable [DecidableEq κ]

/-- What a call makes of the topics that are open. -/
def openStep (s : S.State) (o : κ → Bool) : S.Call → κ → Bool
  | .openTopic topic env =>
    if (S.openTopic topic env s).2 then Function.update o (S.key topic) true else o
  | .closeTopic topic => Function.update o (S.key topic) false
  | .reset => fun _ => false
  | .feed _ => o
  | .run _ => o

/-- And of their sessions. -/
def sessionsStep (x : S.Traced) (c : S.Call) : S.Sessions :=
  match c with
  | .openTopic topic env =>
    if (S.openTopic topic env x.state).2 then Function.update x.sessions (S.key topic) (some [c])
    else x.sessions
  | .closeTopic topic => Function.update x.sessions (S.key topic) none
  | .reset => fun _ => none
  | .feed _ => extend x.sessions c
  | .run _ => extend x.sessions c

def tracedStep (x : S.Traced) (c : S.Call) : Except Empty S.Traced :=
  .ok ⟨S.step x.state c, S.sessionsStep x c⟩

/-- A condition on calls, by the state and the topics that are open. -/
abbrev Condition := S.State → (κ → Bool) → S.Call → Prop

/-- What is reached by calls that meet a condition. -/
abbrev Uses (ok : S.Condition) : S.Traced → Prop :=
  Runs S.tracedStep (Traced.init S) (fun x c => ok x.state x.isOpen c)

/-- A run reports for each open topic what a service of its own would, and nothing else. -/
def Separate (x : S.Traced) (env : S.Env) : Prop :=
  ∃ keys : List κ, keys.Nodup ∧ (∀ k, k ∈ keys ↔ x.isOpen k = true) ∧
    ((S.run env x.state).2).Perm
      (keys.flatMap (fun k => (S.run env (S.after ((x.sessions k).getD []))).2))

/-- What it reports is for topics that are open. -/
def OnlyOpen (x : S.Traced) (env : S.Env) : Prop :=
  ∀ r ∈ (S.run env x.state).2, x.isOpen (S.about r) = true

/-- A session has brought one report at most. -/
def Once (x : S.Traced) : Prop :=
  ∀ k calls, x.sessions k = some calls → (S.reportsFrom S.init calls).length ≤ 1

/-- What the reports of an open topic depend on, under calls that meet `ok`. -/
structure View (ok : S.Condition) where
  V : Type
  /-- What is seen of a topic. -/
  look : S.State → κ → V
  feedV : S.Feed → V → V
  runV : S.Env → κ → V → V
  report : S.Env → κ → V → List S.Report
  /-- It has reported. -/
  done : V → Prop
  /-- Holds of the state and the topics that are open. -/
  inv : S.State → (κ → Bool) → Prop
  inv_init : inv S.init (fun _ => false)
  inv_step : ∀ {s o} c, inv s o → ok s o c → inv (S.step s c) (S.openStep s o c)
  /-- Opening a topic makes of it what it would on a new service, and of the others nothing. -/
  opened : ∀ {s o topic env}, inv s o → ok s o (.openTopic topic env) →
    (S.openTopic topic env s).2 = true →
    ok S.init (fun _ => false) (.openTopic topic env) ∧ (S.openTopic topic env S.init).2 = true ∧
    look (S.openTopic topic env s).1 (S.key topic) =
      look (S.openTopic topic env S.init).1 (S.key topic) ∧
    ¬ done (look (S.openTopic topic env S.init).1 (S.key topic)) ∧
    ∀ k, o k = true → k ≠ S.key topic → look (S.openTopic topic env s).1 k = look s k
  refused : ∀ {s o topic env}, inv s o → ok s o (.openTopic topic env) →
    (S.openTopic topic env s).2 = false →
    ∀ k, o k = true → look (S.openTopic topic env s).1 k = look s k
  closed : ∀ {s o topic}, inv s o → ok s o (.closeTopic topic) →
    ∀ k, o k = true → k ≠ S.key topic → look (S.closeTopic topic s) k = look s k
  fed : ∀ {s o data}, inv s o → ok s o (.feed data) →
    ∀ k, o k = true → look (S.feed data s) k = feedV data (look s k)
  ran : ∀ {s o env}, inv s o → ok s o (.run env) →
    ∀ k, o k = true → look (S.run env s).1 k = runV env k (look s k)
  /-- While a topic is open, it may be fed and run. -/
  allowed : ∀ {s o k}, inv s o → o k = true →
    (∀ data, ok s o (.feed data)) ∧ ∀ env, ok s o (.run env)
  reports : ∀ {s o env}, inv s o → ok s o (.run env) → ∃ keys : List κ, keys.Nodup ∧
    (∀ k, k ∈ keys ↔ o k = true) ∧
    ((S.run env s).2).Perm (keys.flatMap (fun k => report env k (look s k)))
  about : ∀ {s o env k r}, inv s o → o k = true → r ∈ report env k (look s k) → S.about r = k
  once : ∀ env k v, (report env k v).length ≤ 1 ∧ (report env k v ≠ [] → done (runV env k v))
  done_feed : ∀ data v, done v → done (feedV data v)
  done_run : ∀ env k v, done v → report env k v = [] ∧ done (runV env k v)

omit [DecidableEq κ] in
theorem after_append (calls : List S.Call) (c : S.Call) :
    S.after (calls ++ [c]) = S.step (S.after calls) c := by
  rw [after, List.foldl_append]
  rfl

omit [DecidableEq κ] in
theorem reportsFrom_append : ∀ (calls : List S.Call) (s : S.State) (c : S.Call),
    S.reportsFrom s (calls ++ [c]) = S.reportsFrom s calls ++ S.reportsFrom (calls.foldl S.step s) [c]
  | [], _, _ => rfl
  | .run _ :: calls, _, c => by
    rw [List.cons_append, reportsFrom, reportsFrom, reportsFrom_append calls, List.append_assoc]
    rfl
  | .openTopic _ _ :: calls, _, c => reportsFrom_append calls _ c
  | .closeTopic _ :: calls, _, c => reportsFrom_append calls _ c
  | .reset :: calls, _, c => reportsFrom_append calls _ c
  | .feed _ :: calls, _, c => reportsFrom_append calls _ c

omit [DecidableEq κ] in
theorem isSome_extend (x : S.Traced) (c : S.Call) :
    (fun k => (extend x.sessions c k).isSome) = x.isOpen := by
  funext k
  rw [extend, Option.isSome_map]
  rfl

theorem isSome_update {α : Type} (f : κ → Option α) (k : κ) (v : Option α) :
    (fun k' => (Function.update f k v k').isSome) =
      Function.update (fun k' => (f k').isSome) k v.isSome := by
  funext k'
  by_cases hk : k' = k
  · subst hk
    simp
  · simp [hk]

/-- The sessions are those of the topics that are open. -/
theorem isSome_sessionsStep (x : S.Traced) (c : S.Call) :
    (fun k => (S.sessionsStep x c k).isSome) = S.openStep x.state x.isOpen c := by
  cases c with
  | openTopic topic env =>
    simp only [sessionsStep, openStep]
    split
    · exact isSome_update _ _ _
    · rfl
  | closeTopic topic => exact isSome_update _ _ _
  | reset => rfl
  | feed data => exact S.isSome_extend x _
  | run env => exact S.isSome_extend x _

/-! ### Views of sessions -/

namespace View
variable {S} {ok : S.Condition} (w : S.View ok)

/-- The session under `k` on a service of its own, where `v` is seen of it. -/
structure Own (k : κ) (calls : List S.Call) (v : w.V) : Prop where
  inv : w.inv (S.after calls) (Function.update (fun _ => false) k true)
  look : w.look (S.after calls) k = v
  once : S.reportsFrom S.init calls = [] ∨
    (S.reportsFrom S.init calls).length ≤ 1 ∧ w.done v

/-- What is seen of each open topic is what its own session makes of it. -/
structure Tracks (x : S.Traced) : Prop where
  inv : w.inv x.state x.isOpen
  own : ∀ k calls, x.sessions k = some calls → w.Own k calls (w.look x.state k)

theorem tracks_init : w.Tracks (Traced.init S) where
  inv := w.inv_init
  own _ _ h := by cases h

/-- With one topic open, a run reports that topic's. -/
theorem Own.report {w : S.View ok} {k : κ} {calls : List S.Call} {v : w.V} (h : w.Own k calls v)
    (env : S.Env) : ((S.run env (S.after calls)).2).Perm (w.report env k v) := by
  have hok := (w.allowed h.inv (Function.update_self ..)).2 env
  obtain ⟨keys, hnd, hkeys, hperm⟩ := w.reports h.inv hok
  have honly : keys = [k] := by
    refine List.perm_singleton.mp ((List.perm_ext_iff_of_nodup hnd (List.nodup_singleton k)).mpr
      (fun k' => ?_))
    rw [hkeys, List.mem_singleton]
    by_cases he : k' = k
    · simp [he]
    · simp [he]
  rw [honly, List.flatMap_singleton, h.look] at hperm
  exact hperm

theorem Own.opened {w : S.View ok} {s : S.State} {o : κ → Bool} (hs : w.inv s o) {topic : τ}
    {env : S.Env} (hok : ok s o (.openTopic topic env)) (ha : (S.openTopic topic env s).2 = true) :
    w.Own (S.key topic) [.openTopic topic env]
      (w.look (S.openTopic topic env s).1 (S.key topic)) := by
  obtain ⟨hok0, ha0, hlook, -, -⟩ := w.opened hs hok ha
  have hinv := w.inv_step _ w.inv_init hok0
  rw [openStep, if_pos ha0] at hinv
  exact ⟨hinv, hlook.symm, .inl rfl⟩

theorem Own.fed {w : S.View ok} {k : κ} {calls : List S.Call} {v : w.V} (h : w.Own k calls v)
    (data : S.Feed) : w.Own k (calls ++ [.feed data]) (w.feedV data v) := by
  have hopen := Function.update_self k true (fun _ : κ => false)
  have hok := (w.allowed h.inv hopen).1 data
  refine ⟨?_, ?_, ?_⟩
  · rw [after_append]
    exact w.inv_step _ h.inv hok
  · rw [after_append, step, w.fed h.inv hok k hopen, h.look]
  · rw [reportsFrom_append, show S.reportsFrom _ [.feed data] = [] from rfl, List.append_nil]
    exact h.once.imp id (fun hd => ⟨hd.1, w.done_feed data v hd.2⟩)

theorem Own.ran {w : S.View ok} {k : κ} {calls : List S.Call} {v : w.V} (h : w.Own k calls v)
    (env : S.Env) : w.Own k (calls ++ [.run env]) (w.runV env k v) := by
  have hopen := Function.update_self k true (fun _ : κ => false)
  have hok := (w.allowed h.inv hopen).2 env
  refine ⟨?_, ?_, ?_⟩
  · rw [after_append]
    exact w.inv_step _ h.inv hok
  · rw [after_append, step, w.ran h.inv hok k hopen, h.look]
  · have hrun : S.reportsFrom (S.after calls) [.run env] = (S.run env (S.after calls)).2 :=
      List.append_nil _
    have hperm := h.report env
    rw [reportsFrom_append]
    change S.reportsFrom S.init calls ++ S.reportsFrom (S.after calls) [.run env] = [] ∨
      (S.reportsFrom S.init calls ++ S.reportsFrom (S.after calls) [.run env]).length ≤ 1 ∧ _
    rw [hrun]
    rcases h.once with hnone | ⟨hlen, hdone⟩
    · rw [hnone, List.nil_append, hperm.length_eq]
      by_cases hr : w.report env k v = []
      · rw [hr] at hperm
        exact .inl hperm.eq_nil
      · exact .inr ⟨(w.once env k v).1, (w.once env k v).2 hr⟩
    · obtain ⟨hr, hdone'⟩ := w.done_run env k v hdone
      rw [hr] at hperm
      rw [hperm.eq_nil, List.append_nil]
      exact .inr ⟨hlen, hdone'⟩

/-- A call that all open sessions take part in. -/
theorem Own.extend {w : S.View ok} {x : S.Traced} (h : w.Tracks x) {c : S.Call} {f : κ → w.V → w.V}
    (hlook : ∀ k, x.isOpen k = true → w.look (S.step x.state c) k = f k (w.look x.state k))
    (hown : ∀ k calls v, w.Own k calls v → w.Own k (calls ++ [c]) (f k v)) (k : κ)
    (calls : List S.Call) (hk : Service.extend x.sessions c k = some calls) :
    w.Own k calls (w.look (S.step x.state c) k) := by
  obtain ⟨calls', hcalls, rfl⟩ := Option.map_eq_some_iff.mp hk
  rw [hlook k (Option.isSome_of_eq_some hcalls)]
  exact hown k calls' _ (h.own k calls' hcalls)

/-- A session under another key, of a topic of which the same is seen. -/
theorem Own.other {w : S.View ok} {x : S.Traced} (h : w.Tracks x) {s : S.State} {k : κ}
    {calls : List S.Call} (hk : x.sessions k = some calls)
    (hlook : ∀ k, x.isOpen k = true → w.look s k = w.look x.state k) : w.Own k calls (w.look s k) := by
  rw [hlook k (Option.isSome_of_eq_some hk)]
  exact h.own k calls hk

theorem Tracks.step {w : S.View ok} {x x' : S.Traced} {c : S.Call} (h : w.Tracks x)
    (hok : ok x.state x.isOpen c) (he : S.tracedStep x c = .ok x') : w.Tracks x' := by
  have hinv := w.inv_step _ h.inv hok
  rw [← S.isSome_sessionsStep x c] at hinv
  cases he
  refine ⟨hinv, fun k calls hk => ?_⟩
  cases c with
  | openTopic topic env =>
    simp only [sessionsStep] at hk
    split at hk
    · rename_i ha
      by_cases he : k = S.key topic
      · rw [he, Function.update_self] at hk
        cases hk
        rw [he]
        exact Own.opened h.inv hok ha
      · rw [Function.update_of_ne he] at hk
        have hlook := (w.opened h.inv hok ha).2.2.2.2 k (Option.isSome_of_eq_some hk) he
        simp only [Service.step]
        rw [hlook]
        exact h.own k calls hk
    · rename_i ha
      exact Own.other h hk (w.refused h.inv hok (Bool.not_eq_true _ ▸ ha))
  | closeTopic topic =>
    simp only [sessionsStep] at hk
    by_cases he : k = S.key topic
    · rw [he, Function.update_self] at hk
      cases hk
    · rw [Function.update_of_ne he] at hk
      have hlook := w.closed h.inv hok k (Option.isSome_of_eq_some hk) he
      simp only [Service.step]
      rw [hlook]
      exact h.own k calls hk
  | reset => cases hk
  | feed data =>
    refine Own.extend (c := .feed data) (f := fun _ => w.feedV data) h (w.fed h.inv hok) ?_ k calls hk
    exact fun _ _ _ ho => ho.fed data
  | run env =>
    refine Own.extend (c := .run env) (f := w.runV env) h (w.ran h.inv hok) ?_ k calls hk
    exact fun _ _ _ ho => ho.ran env

/-- ISOLATION: a service that has a view keeps its sessions apart, however it is used. -/
theorem isolated (w : S.View ok) {x : S.Traced} (h : S.Uses ok x) :
    (∀ env, ok x.state x.isOpen (.run env) → S.Separate x env ∧ S.OnlyOpen x env) ∧ S.Once x := by
  have ht : w.Tracks x := Runs.invariant w.tracks_init (fun _ _ _ h hok he => h.step hok he) h
  refine ⟨fun env hok => ?_, fun k calls hk => ?_⟩
  · obtain ⟨keys, hnd, hkeys, hperm⟩ := w.reports ht.inv hok
    refine ⟨⟨keys, hnd, hkeys, hperm.trans (List.Perm.flatMap_left _ ?_)⟩, fun r hr => ?_⟩
    · intro k hk
      obtain ⟨calls, hcalls⟩ := Option.isSome_iff_exists.mp ((hkeys k).mp hk)
      rw [hcalls]
      exact ((ht.own k calls hcalls).report env).symm
    · obtain ⟨k, hk, hrk⟩ := List.mem_flatMap.mp (hperm.mem_iff.mp hr)
      rw [w.about ht.inv ((hkeys k).mp hk) hrk]
      exact (hkeys k).mp hk
  · rcases (ht.own k calls hk).once with hnone | hone
    · rw [hnone]
      exact Nat.zero_le 1
    · exact hone.1

end View

end Service
end Schemes

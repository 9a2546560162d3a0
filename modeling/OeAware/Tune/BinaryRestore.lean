import OeAware.Schemes.Run
import OeAware.Tune.BinaryMasks

/-! @src src/plugin/tune/system/binary/binary_tune.cpp | name:Run, SetAffinity, Disable | scheme:invariant

    The first mask of a thread is saved when it is bound, and given back when its node is overloaded, or by `Disable`.
    A thread keeps its home: the saved mask, or where there is none its own.

        bind       home = affinity        ──▶  home = saved
        give back  home = saved           ──▶  home = affinity
        trim       saved dropped          ──▶  home = affinity, which may be that of the binding

    Giving back is for all nodes, in the middle of the loop over them: threads that an earlier node has just bound, and
    those of nodes that are not overloaded, get their old masks too. -/

namespace OeAware
open Schemes

namespace BinaryTune

/-! ### One call -/

variable {outcome : Outcome} {k : Kernel} {a b : Affinities} {t tid : Int32} {mask newMask : CpuSet}

theorem set_other (h : t ≠ tid) : (k.set outcome tid mask).1.affinity t = k.affinity t ∧
    (k.set outcome tid mask).1.calls t = k.calls t ∧ (k.set outcome tid mask).1.first t = k.first t := by
  rw [Kernel.set]
  split
  · exact ⟨rfl, rfl, rfl⟩
  · dsimp only
    split
    · exact ⟨rfl, Function.update_of_ne h _ _, rfl⟩
    · exact ⟨Function.update_of_ne h _ _, Function.update_of_ne h _ _, Function.update_of_ne h _ _⟩

/-- The call for the thread itself. -/
theorem set_self {currentMask : CpuSet} (h : k.affinity t = some currentMask) :
    (∃ m, outcome t (k.calls t + 1) mask = some m ∧ (k.set outcome t mask).2 = true ∧
      (k.set outcome t mask).1.affinity t = some m ∧ (k.set outcome t mask).1.calls t = k.calls t + 1 ∧
      (k.set outcome t mask).1.first t = some ((k.first t).getD currentMask)) ∨
    (outcome t (k.calls t + 1) mask = none ∧ (k.set outcome t mask).2 = false ∧
      (k.set outcome t mask).1.affinity t = some currentMask ∧ (k.set outcome t mask).1.calls t = k.calls t + 1 ∧
      (k.set outcome t mask).1.first t = k.first t) := by
  rw [Kernel.set, h]
  dsimp only
  rw [Function.update_self]
  cases houtcome : outcome t (k.calls t + 1) mask with
  | none => exact .inr ⟨rfl, rfl, h, Function.update_self _ _ _, rfl⟩
  | some m =>
    exact .inl ⟨m, rfl, rfl, Function.update_self _ _ _, Function.update_self _ _ _, Function.update_self _ _ _⟩

theorem set_dead (h : k.affinity tid = none) : k.set outcome tid mask = (k, false) := by
  rw [Kernel.set, h]

/-- What `SetAffinity` leaves alone. -/
theorem setAffinity_other (h : t ≠ tid) :
    (setAffinity outcome newMask a tid).tuneThreads.find t = a.tuneThreads.find t ∧
    (setAffinity outcome newMask a tid).kernel.affinity t = a.kernel.affinity t ∧
    (setAffinity outcome newMask a tid).kernel.calls t = a.kernel.calls t ∧
    (setAffinity outcome newMask a tid).kernel.first t = a.kernel.first t := by
  rw [setAffinity]
  split
  · exact ⟨rfl, rfl, rfl, rfl⟩
  · split
    · exact ⟨rfl, rfl, rfl, rfl⟩
    · refine ⟨?_, set_other h⟩
      dsimp only
      split
      · rw [UMap.find_insertNew, if_neg (fun heq => h heq.1)]
      · rfl

/-- What it does to the thread itself: nothing, or a call that succeeds and saves the mask, or one that fails. -/
theorem setAffinity_self {currentMask : CpuSet} (h : a.kernel.affinity t = some currentMask) :
    (setAffinity outcome newMask a t = a) ∨
    (∃ m, (setAffinity outcome newMask a t).kernel.affinity t = some m ∧
      (setAffinity outcome newMask a t).tuneThreads.find t = some ((a.tuneThreads.find t).getD currentMask) ∧
      (setAffinity outcome newMask a t).kernel.first t = some ((a.kernel.first t).getD currentMask)) ∨
    ((setAffinity outcome newMask a t).kernel.affinity t = some currentMask ∧
      (setAffinity outcome newMask a t).tuneThreads.find t = a.tuneThreads.find t ∧
      (setAffinity outcome newMask a t).kernel.first t = a.kernel.first t) := by
  rw [setAffinity, h]
  dsimp only
  split
  · exact .inl rfl
  · rcases @set_self outcome a.kernel t newMask currentMask h with ⟨m, -, hsuccess, haffinity, -, hfirst⟩ |
      ⟨-, hsuccess, haffinity, -, hfirst⟩
    · refine .inr (.inl ⟨m, haffinity, ?_, hfirst⟩)
      rw [hsuccess, if_pos rfl, UMap.find_insertNew]
      cases hfind : a.tuneThreads.find t with
      | none =>
        rw [if_pos ⟨rfl, by rw [UMap.count, hfind]; rfl⟩]
        rfl
      | some saved =>
        rw [if_neg (fun hnone => by rw [UMap.count, hfind] at hnone; exact absurd hnone.2 (by simp))]
        rfl
    · refine .inr (.inr ⟨haffinity, ?_, hfirst⟩)
      rw [hsuccess, if_neg Bool.false_ne_true]

theorem setAffinity_dead (h : a.kernel.affinity tid = none) : setAffinity outcome newMask a tid = a := by
  rw [setAffinity, h]

/-! ### Home -/

/-- The mask that a thread goes back to. -/
def home (a : Affinities) (t : Int32) : Option CpuSet := (a.tuneThreads.find t).or (a.kernel.affinity t)

/-- A saved mask is what the thread had before its mask was first set, and a thread without one has that. -/
structure Saved (a : Affinities) : Prop where
  kept : ∀ t m, (a.kernel.affinity t).isSome → a.tuneThreads.find t = some m → a.kernel.first t = some m
  back : ∀ t cur m, a.kernel.affinity t = some cur → a.tuneThreads.find t = none → a.kernel.first t = some m → cur = m

/-- How the masks of the threads alive are changed where their homes are kept. -/
structure Keeps (a b : Affinities) : Prop where
  alive : ∀ t, (b.kernel.affinity t).isSome = (a.kernel.affinity t).isSome
  home : ∀ t, (a.kernel.affinity t).isSome → home b t = home a t
  saved : Saved a → Saved b

theorem Keeps.refl (a : Affinities) : Keeps a a := ⟨fun _ => rfl, fun _ _ => rfl, fun h => h⟩

theorem Keeps.trans {c : Affinities} (h : Keeps a b) (h' : Keeps b c) : Keeps a c where
  alive t := (h'.alive t).trans (h.alive t)
  home t halive := (h'.home t ((h.alive t).trans halive)).trans (h.home t halive)
  saved hs := h'.saved (h.saved hs)

theorem keeps_of_same (h : ∀ t, b.tuneThreads.find t = a.tuneThreads.find t ∧ b.kernel.affinity t = a.kernel.affinity t ∧
    b.kernel.first t = a.kernel.first t) : Keeps a b := by
  refine ⟨fun t => by rw [(h t).2.1], fun t _ => by rw [home, home, (h t).1, (h t).2.1], fun hs => ⟨fun t m ht hm => ?_,
    fun t cur m ht hm hf => ?_⟩⟩
  · rw [(h t).2.2]
    exact hs.kept t m ((h t).2.1 ▸ ht) ((h t).1 ▸ hm)
  · exact hs.back t cur m ((h t).2.1 ▸ ht) ((h t).1 ▸ hm) ((h t).2.2 ▸ hf)

/-- Binding a thread keeps the homes. -/
theorem keeps_setAffinity : Keeps a (setAffinity outcome newMask a tid) := by
  cases halive : a.kernel.affinity tid with
  | none =>
    rw [setAffinity_dead halive]
    exact .refl a
  | some currentMask =>
    rcases @setAffinity_self outcome a tid newMask currentMask halive with hsame |
      ⟨m, haffinity, hfind, hfirst⟩ | ⟨haffinity, hfind, hfirst⟩
    · rw [hsame]
      exact .refl a
    · refine ⟨fun t => ?_, fun t ht => ?_, fun hs => ⟨fun t m' ht ht' => ?_, fun t cur m' ht ht' ht'' => ?_⟩⟩
      · rcases eq_or_ne t tid with rfl | hne
        · rw [haffinity, halive]
          rfl
        · rw [(setAffinity_other hne).2.1]
      · rcases eq_or_ne t tid with rfl | hne
        · rw [home, home, hfind, halive]
          cases a.tuneThreads.find t <;> rfl
        · rw [home, home, (setAffinity_other hne).1, (setAffinity_other hne).2.1]
      · rcases eq_or_ne t tid with rfl | hne
        · rw [hfind] at ht'
          rw [hfirst, ← ht']
          congr 1
          cases hsaved : a.tuneThreads.find t with
          | some saved =>
            rw [hs.kept t saved (by rw [halive]; rfl) hsaved, Option.getD_some]
          | none =>
            cases hf : a.kernel.first t with
            | none => rfl
            | some orig => exact (hs.back t currentMask orig halive hsaved hf).symm
        · rw [(setAffinity_other hne).2.2.2]
          rw [(setAffinity_other hne).2.1] at ht
          rw [(setAffinity_other hne).1] at ht'
          exact hs.kept t m' ht ht'
      · rcases eq_or_ne t tid with rfl | hne
        · rw [hfind] at ht'
          cases ht'
        · rw [(setAffinity_other hne).2.1] at ht
          rw [(setAffinity_other hne).1] at ht'
          rw [(setAffinity_other hne).2.2.2] at ht''
          exact hs.back t cur m' ht ht' ht''
    · have hsame : ∀ t, (setAffinity outcome newMask a tid).tuneThreads.find t = a.tuneThreads.find t ∧
          (setAffinity outcome newMask a tid).kernel.affinity t = a.kernel.affinity t ∧
          (setAffinity outcome newMask a tid).kernel.first t = a.kernel.first t := by
        intro t
        rcases eq_or_ne t tid with rfl | hne
        · exact ⟨hfind, haffinity.trans halive.symm, hfirst⟩
        · exact ⟨(setAffinity_other hne).1, (setAffinity_other hne).2.1, (setAffinity_other hne).2.2.2⟩
      exact keeps_of_same hsame

theorem keeps_foldl {α : Type} {f : Affinities → α → Affinities} (h : ∀ a x, Keeps a (f a x)) : ∀ (l : List α)
    (a : Affinities), Keeps a (l.foldl f a)
  | [], a => .refl a
  | x :: l, a => (h a x).trans (keeps_foldl h l (f a x))

/-! ### Giving back -/

/-- One thread of the loop. -/
def giveBack (outcome : Outcome) (tuneThreads : UMap Int32 CpuSet) (k : Kernel) (tid : Int32) : Kernel :=
  match tuneThreads.find tid with
  | some oldMask => (k.set outcome tid oldMask).1
  | none => k

theorem restore_kernel : (restore outcome a).kernel = a.tuneThreads.keys.foldl (giveBack outcome a.tuneThreads) a.kernel :=
  rfl

variable {tuneThreads : UMap Int32 CpuSet}

theorem giveBack_other (h : t ≠ tid) : (giveBack outcome tuneThreads k tid).affinity t = k.affinity t ∧
    (giveBack outcome tuneThreads k tid).calls t = k.calls t ∧ (giveBack outcome tuneThreads k tid).first t = k.first t := by
  rw [giveBack]
  split
  · exact set_other h
  · exact ⟨rfl, rfl, rfl⟩

theorem foldl_giveBack_other {outcome : Outcome} {tuneThreads : UMap Int32 CpuSet} : ∀ {l : List Int32} {k : Kernel}, t ∉ l →
    (l.foldl (giveBack outcome tuneThreads) k).affinity t = k.affinity t ∧
    (l.foldl (giveBack outcome tuneThreads) k).calls t = k.calls t ∧
    (l.foldl (giveBack outcome tuneThreads) k).first t = k.first t
  | [], _, _ => ⟨rfl, rfl, rfl⟩
  | tid :: l, k, h => by
    obtain ⟨hne, hl⟩ := List.ne_and_not_mem_of_not_mem_cons h
    obtain ⟨h1, h2, h3⟩ := @foldl_giveBack_other outcome tuneThreads l
      (giveBack outcome tuneThreads k tid) hl
    obtain ⟨h4, h5, h6⟩ := @giveBack_other outcome k t tid tuneThreads hne
    exact ⟨h1.trans h4, h2.trans h5, h3.trans h6⟩

/-- A thread without a saved mask is left alone. -/
theorem restore_none (h : a.tuneThreads.find t = none) : (restore outcome a).kernel.affinity t = a.kernel.affinity t ∧
    (restore outcome a).kernel.calls t = a.kernel.calls t ∧ (restore outcome a).kernel.first t = a.kernel.first t := by
  rw [restore_kernel]
  refine foldl_giveBack_other fun hmem => ?_
  have hsome := (a.tuneThreads.mem_keys t).mp hmem
  rw [h] at hsome
  cases hsome

/-- And one with a saved mask gets this, where the system takes it as it is. -/
theorem restore_some {saved cur : CpuSet} (h : a.tuneThreads.find t = some saved) (halive : a.kernel.affinity t = some cur)
    (hexact : ∀ n, outcome t n saved = some saved) : (restore outcome a).kernel.affinity t = some saved ∧
      (restore outcome a).kernel.first t = some ((a.kernel.first t).getD cur) := by
  have hnodup := a.tuneThreads.nodup
  obtain ⟨before, after, hsplit⟩ := List.append_of_mem (UMap.mem_keys_of_find h)
  rw [hsplit] at hnodup
  have hbefore : t ∉ before := fun hmem => (List.nodup_append.mp hnodup).2.2 t hmem t List.mem_cons_self rfl
  have hafter : t ∉ after := (List.nodup_cons.mp (List.nodup_append.mp hnodup).2.1).1
  rw [restore_kernel, hsplit, List.foldl_append, List.foldl_cons]
  obtain ⟨h1, -, h3⟩ := @foldl_giveBack_other t outcome a.tuneThreads before a.kernel hbefore
  generalize before.foldl (giveBack outcome a.tuneThreads) a.kernel = k at h1 h3
  obtain ⟨h4, -, h6⟩ := @foldl_giveBack_other t outcome a.tuneThreads after
    (giveBack outcome a.tuneThreads k t) hafter
  rw [h4, h6, giveBack, h]
  dsimp only
  rcases @set_self outcome k t saved cur (h1.trans halive) with ⟨m, hm, -, haffinity, -, hfirst⟩ | ⟨hfail, -⟩
  · rw [hexact] at hm
    cases hm
    exact ⟨haffinity, by rw [hfirst, h3]⟩
  · rw [hexact] at hfail
    cases hfail

theorem giveBack_dead (h : k.affinity t = none) : (giveBack outcome tuneThreads k tid).affinity t = none := by
  rcases eq_or_ne t tid with rfl | hne
  · rw [giveBack]
    split
    · rw [set_dead h]
      exact h
    · exact h
  · rw [(giveBack_other hne).1, h]

theorem restore_dead (h : a.kernel.affinity t = none) : (restore outcome a).kernel.affinity t = none := by
  rw [restore_kernel]
  generalize a.tuneThreads.keys = l
  generalize a.kernel = k at h
  induction l generalizing k with
  | nil => exact h
  | cons tid l ih => exact ih _ (giveBack_dead h)

/-- Giving back keeps the homes, where the system takes the masks as they are. -/
theorem keeps_restore (hexact : ∀ t saved, (a.kernel.affinity t).isSome → a.tuneThreads.find t = some saved →
    ∀ n, outcome t n saved = some saved) : Keeps a (restore outcome a) := by
  have hkind : ∀ t cur, a.kernel.affinity t = some cur → (restore outcome a).kernel.affinity t = home a t ∧
      (a.tuneThreads.find t = none ∧ (restore outcome a).kernel.first t = a.kernel.first t ∨
        ∃ saved, a.tuneThreads.find t = some saved ∧
          (restore outcome a).kernel.first t = some ((a.kernel.first t).getD cur)) := by
    intro t cur halive
    cases hfind : a.tuneThreads.find t with
    | none =>
      obtain ⟨h1, -, h3⟩ := @restore_none outcome a t hfind
      exact ⟨by rw [h1, home, hfind, Option.none_or], .inl ⟨rfl, h3⟩⟩
    | some saved =>
      obtain ⟨h1, h2⟩ := restore_some hfind halive (hexact t saved (by rw [halive]; rfl) hfind)
      exact ⟨by rw [h1, home, hfind, Option.some_or], .inr ⟨saved, rfl, h2⟩⟩
  have halive : ∀ t, ((restore outcome a).kernel.affinity t).isSome = (a.kernel.affinity t).isSome := by
    intro t
    cases hcur : a.kernel.affinity t with
    | none => rw [restore_dead hcur]
    | some cur =>
      rw [(hkind t cur hcur).1, home, hcur]
      cases a.tuneThreads.find t <;> rfl
  refine ⟨halive, fun t ht => ?_, fun hs => ⟨nofun, fun t cur m ht _ hf => ?_⟩⟩
  · obtain ⟨cur, hcur⟩ := Option.isSome_iff_exists.mp ht
    rw [home, show (restore outcome a).tuneThreads.find t = none from rfl, Option.none_or]
    exact (hkind t cur hcur).1
  · have hlive : (a.kernel.affinity t).isSome := by rw [← halive, ht]; rfl
    obtain ⟨old, hold⟩ := Option.isSome_iff_exists.mp hlive
    obtain ⟨hhome, hfirst⟩ := hkind t old hold
    rw [hhome] at ht
    rcases hfirst with ⟨hnone, hfirst⟩ | ⟨saved, hsaved, hfirst⟩
    · rw [home, hnone, Option.none_or] at ht
      exact hs.back t cur m ht hnone (hfirst ▸ hf)
    · rw [home, hsaved, Option.some_or] at ht
      rw [hfirst, hs.kept t saved hlive hsaved, Option.getD_some] at hf
      exact (Option.some.inj ht).symm.trans (Option.some.inj hf)

/-! ### One thread -/

/-- Nothing about the thread is changed. -/
def Same (t : Int32) (a b : Affinities) : Prop :=
  b.tuneThreads.find t = a.tuneThreads.find t ∧ b.kernel.affinity t = a.kernel.affinity t ∧
    b.kernel.calls t = a.kernel.calls t ∧ b.kernel.first t = a.kernel.first t

theorem Same.refl (t : Int32) (a : Affinities) : Same t a a := ⟨rfl, rfl, rfl, rfl⟩

theorem Same.trans {c : Affinities} (h : Same t a b) (h' : Same t b c) : Same t a c :=
  ⟨h'.1.trans h.1, h'.2.1.trans h.2.1, h'.2.2.1.trans h.2.2.1, h'.2.2.2.trans h.2.2.2⟩

/-- The system will treat the thread in the one state as in the other. -/
def Alike (t : Int32) (a b : Affinities) : Prop :=
  b.kernel.affinity t = a.kernel.affinity t ∧ b.kernel.calls t = a.kernel.calls t

theorem Same.alike (h : Same t a b) : Alike t a b := ⟨h.2.1, h.2.2.1⟩

/-- A request for a mask. -/
def ask (outcome : Outcome) (a : Affinities) (p : CpuSet × Int32) : Affinities := setAffinity outcome p.1 a p.2

theorem same_asks : ∀ {l : List (CpuSet × Int32)} (a : Affinities), (∀ p ∈ l, p.2 ≠ t) →
    Same t a (l.foldl (ask outcome) a)
  | [], a, _ => .refl t a
  | p :: l, a, h => by
    obtain ⟨hp, hl⟩ := List.forall_mem_cons.mp h
    have h1 : Same t a (ask outcome a p) := setAffinity_other hp.symm
    exact h1.trans (same_asks (ask outcome a p) hl)

theorem alike_set (h : k.affinity t = (b.kernel).affinity t ∧ k.calls t = b.kernel.calls t) :
    (k.set outcome tid mask).1.affinity t = (b.kernel.set outcome tid mask).1.affinity t ∧
      (k.set outcome tid mask).1.calls t = (b.kernel.set outcome tid mask).1.calls t := by
  rcases eq_or_ne t tid with rfl | hne
  · cases halive : b.kernel.affinity t with
    | none =>
      rw [set_dead halive, set_dead (h.1.trans halive)]
      exact h
    | some cur =>
      rcases @set_self outcome b.kernel t mask cur halive with ⟨m, hm, -, h1, h2, -⟩ | ⟨hm, -, h1, h2, -⟩ <;>
        rcases @set_self outcome k t mask cur (h.1.trans halive) with
          ⟨m', hm', -, h1', h2', -⟩ | ⟨hm', -, h1', h2', -⟩
      · rw [h.2, hm] at hm'
        cases hm'
        exact ⟨h1'.trans h1.symm, by rw [h2', h2, h.2]⟩
      · rw [h.2, hm] at hm'
        cases hm'
      · rw [h.2, hm] at hm'
        cases hm'
      · exact ⟨h1'.trans h1.symm, by rw [h2', h2, h.2]⟩
  · obtain ⟨h1, h2, -⟩ := @set_other outcome k t tid mask hne
    obtain ⟨h3, h4, -⟩ := @set_other outcome b.kernel t tid mask hne
    exact ⟨by rw [h1, h3, h.1], by rw [h2, h4, h.2]⟩

theorem Alike.ask (h : Alike t a b) (p : CpuSet × Int32) : Alike t (ask outcome a p) (ask outcome b p) := by
  obtain ⟨mask, tid⟩ := p
  rcases eq_or_ne t tid with rfl | hne
  · have hset := @alike_set outcome b.kernel a t t mask h
    rw [BinaryTune.ask, BinaryTune.ask, setAffinity, setAffinity, h.1]
    dsimp only
    split
    · exact h
    · split
      · exact h
      · exact hset
  · obtain ⟨-, h1, h2, -⟩ := @setAffinity_other outcome a t tid mask hne
    obtain ⟨-, h3, h4, -⟩ := @setAffinity_other outcome b t tid mask hne
    exact ⟨h3.trans (h.1.trans h1.symm), h4.trans (h.2.trans h2.symm)⟩

theorem Alike.asks : ∀ {l : List (CpuSet × Int32)} {a b : Affinities}, Alike t a b →
    Alike t (l.foldl (BinaryTune.ask outcome) a) (l.foldl (BinaryTune.ask outcome) b)
  | [], _, _, h => h
  | p :: _, _, _, h => (h.ask p).asks

/-- The system takes the mask as it is, whenever it is asked for. -/
def Takes (outcome : Outcome) (t : Int32) (mask : CpuSet) : Prop := ∀ n, outcome t n mask = some mask

theorem setAffinity_takes {currentMask : CpuSet} (h : a.kernel.affinity t = some currentMask)
    (htakes : Takes outcome t newMask) : (setAffinity outcome newMask a t).kernel.affinity t = some newMask := by
  rw [setAffinity, h]
  dsimp only
  split
  · rename_i hsame
    rw [h, hsame]
  · rcases @set_self outcome a.kernel t newMask currentMask h with ⟨m, hm, -, haffinity, -⟩ | ⟨hfail, -⟩
    · rw [htakes] at hm
      cases hm
      exact haffinity
    · rw [htakes] at hfail
      cases hfail

/-- The mask that a thread has after some requests, where the system takes them. -/
def aim (t : Int32) (l : List (CpuSet × Int32)) (mask : CpuSet) : CpuSet :=
  l.foldl (fun mask p => if p.2 = t then p.1 else mask) mask

theorem affinity_asks : ∀ {l : List (CpuSet × Int32)} {a : Affinities} {cur : CpuSet}, a.kernel.affinity t = some cur →
    (∀ p ∈ l, p.2 = t → Takes outcome t p.1) → (l.foldl (ask outcome) a).kernel.affinity t = some (aim t l cur)
  | [], _, _, h, _ => h
  | (mask, tid) :: l, a, cur, h, htakes => by
    obtain ⟨hp, hl⟩ := List.forall_mem_cons.mp htakes
    refine affinity_asks (l := l) ?_ hl
    dsimp only [ask]
    split
    · rename_i heq
      cases heq
      exact setAffinity_takes h (hp rfl)
    · rename_i hne
      exact (setAffinity_other (Ne.symm hne)).2.1.trans h

/-! ### What is asked for -/

variable {env : Env} {s : State} {w : Waiting} {node : ℤ}

/-- The load of a node, in cores. -/
def load (s : State) (node : ℤ) : Int64 :=
  (s.containers.filter (OnNode s node)).foldl (fun load container => load + cores container) 0

/-- The node has containers, and too little is left. -/
def Overloaded (s : State) (node : ℤ) : Prop :=
  (∃ container ∈ s.containers, OnNode s node container) ∧ (perNuma s).tdiv 2 < (load s node).toInt

instance (s : State) (node : ℤ) : Decidable (Overloaded s node) := inferInstanceAs (Decidable (_ ∧ _))

/-- The threads of the node that are for all its physical cores. -/
def numaThreads (env : Env) (s : State) (node : ℤ) : List Int32 :=
  (s.containers.filter (OnNode s node)).flatMap (fun container => withPolicy [1] (foundIn env s container))

/-- What is asked for on a node that is not overloaded. -/
def wanted (env : Env) (s : State) (node : ℤ) : List (CpuSet × Int32) :=
  (bound env s node).flatMap (fun b => b.1.2.map (fun tid => (b.2, tid))) ++
    (numaThreads env s node).map (fun tid => (phy s node, tid))

/-- One node, where nothing faults. -/
def pass (env : Env) (outcome : Outcome) (s : State) (a : Affinities) (node : ℤ) : Affinities :=
  if Overloaded s node then restore outcome a else (wanted env s node).foldl (ask outcome) a

theorem foldl_wanted : (wanted env s node).foldl (ask outcome) a =
    (numaThreads env s node).foldl (setAffinity outcome (phy s node))
      ((bound env s node).foldl (fun a b => b.1.2.foldl (setAffinity outcome b.2) a) a) := by
  rw [wanted, List.foldl_append, List.foldl_map, List.foldl_flatMap]
  simp only [List.foldl_map]
  rfl

/-- One node does not fault. -/
def Passes (env : Env) (s : State) (node : ℤ) : Prop :=
  s.numaNum ≠ 0 ∧ (¬ Overloaded s node → numaThreads env s node = [] ∨ vecAt s.phyNumaMask node = .ok (phy s node))

theorem tuneNode_iff {a' : Affinities} (h : Holding env s s.containers w)
    (hon : ∃ container ∈ s.containers, OnNode s node container) :
    tuneNode outcome s w a node = .ok a' ↔ Passes env s node ∧ pass env outcome s a node = a' := by
  have hload : (w.dockerCpuOnNuma.find node).getD 0 = load s node := by
    rw [h.load, load]
    split
    · rename_i hnil
      rw [hnil]
      rfl
    · rfl
  have hover : Overloaded s node ↔ (perNuma s).tdiv 2 < (load s node).toInt := ⟨fun h => h.2, fun h => ⟨hon, h⟩⟩
  rw [tuneNode, coresPerNuma]
  rcases eq_or_ne s.numaNum 0 with hzero | hnuma
  · rw [if_pos hzero]
    exact iff_of_false (fun h => by cases h) fun h => absurd hzero h.1.1
  rw [if_neg hnuma]
  simp only [bind, Except.bind, hload, pass, Passes]
  rw [show s.cpuCoreNum.tdiv s.numaNum = perNuma s from rfl]
  rcases em (Overloaded s node) with hyes | hno
  · rw [if_pos (hover.mp hyes), if_pos hyes]
    exact ⟨fun h => ⟨⟨hnuma, fun hno => absurd hyes hno⟩, Except.ok.inj h⟩, fun h => congrArg Except.ok h.2⟩
  · rw [if_neg (fun h => hno (hover.mpr h)), if_neg hno]
    rw [bindCpuCore_eq h hnuma]
    dsimp only
    rw [h.byNuma, show (s.containers.filter (OnNode s node)).flatMap
      (fun container => withPolicy [1] (foundIn env s container)) = numaThreads env s node from rfl, foldl_wanted, bindNuma]
    split
    · rename_i hnil
      rw [hnil]
      exact ⟨fun h => ⟨⟨hnuma, fun _ => .inl rfl⟩, Except.ok.inj h⟩, fun h => congrArg Except.ok h.2⟩
    · rename_i hsome
      constructor
      · intro hok
        obtain ⟨mask, hmask, hok⟩ := bind_ok hok
        have hphy : phy s node = mask := by rw [phy, hmask]
        cases hok
        exact ⟨⟨hnuma, fun _ => .inr (hphy ▸ hmask)⟩, by rw [hphy]⟩
      · rintro ⟨⟨-, hmask⟩, rfl⟩
        rw [(hmask hno).resolve_left hsome]
        rfl

/-! ### The containers -/

def allCores (s : State) : CpuSet := (List.range s.cpuCoreNum.toNat).foldl (fun mask i => CPU_SET i mask) ∅

/-- What is asked for a container that is on no node. -/
def crossed (env : Env) (s : State) (container : InternalContainer) : List (CpuSet × Int32) :=
  if fullNuma s container = .ok none then
    (withPolicy [1, 2] (foundIn env s container)).map (fun tid => (allCores s, tid))
  else []

/-- The loop does not fault at the container. -/
structure Searchable (env : Env) (s : State) (container : InternalContainer) : Prop where
  place : ∃ full, fullNuma s container = .ok full ∧ (full.isSome → container.cfsPeriodUs ≠ 0)
  found : policies env s .empty container.tasks = .ok (foundIn env s container)

theorem searchable_addContainer {r r' : Waiting × Affinities} {container : InternalContainer}
    (h : addContainer env outcome s r container = .ok r') :
    Searchable env s container ∧ r'.2 = (crossed env s container).foldl (ask outcome) r.2 := by
  obtain ⟨w, a⟩ := r
  have hcases := addContainer_cases h
  obtain ⟨full, hfull, h⟩ := bind_ok h
  obtain ⟨found, hfound, h⟩ := bind_ok h
  have hin : policies env s .empty container.tasks = .ok (foundIn env s container) := by rw [foundIn, hfound]
  refine ⟨⟨⟨full, hfull, fun hsome hzero => ?_⟩, hin⟩, ?_⟩
  · obtain ⟨node, rfl⟩ := Option.isSome_iff_exists.mp hsome
    dsimp only at h
    rw [if_pos hzero] at h
    cases h
  · rw [crossed]
    rcases hcases with ⟨node, hon, rfl⟩ | ⟨hnone, rfl⟩
    · have hnot : ¬ fullNuma s container = .ok none := fun hnone => by cases hon.symm.trans hnone
      rw [if_neg hnot]
      rfl
    · rw [if_pos hnone, List.foldl_map]
      rfl

theorem addContainer_of_searchable {container : InternalContainer} (h : Searchable env s container) (r : Waiting × Affinities) :
    ∃ r', addContainer env outcome s r container = .ok r' := by
  obtain ⟨full, hfull, hperiod⟩ := h.place
  rw [addContainer, hfull, h.found]
  cases full with
  | none => exact ⟨_, rfl⟩
  | some node =>
    simp only [bind, Except.bind]
    rw [if_neg (hperiod rfl)]
    exact ⟨_, rfl⟩

theorem foldlM_addContainer : ∀ {containers : List InternalContainer} {r r' : Waiting × Affinities},
    containers.foldlM (addContainer env outcome s) r = .ok r' → (∀ container ∈ containers, Searchable env s container) ∧
      r'.2 = (containers.flatMap (crossed env s)).foldl (ask outcome) r.2
  | [], _, _, h => by
    cases h
    exact ⟨nofun, rfl⟩
  | container :: containers, r, r', h => by
    rw [List.foldlM_cons] at h
    obtain ⟨r1, h1, h2⟩ := bind_ok h
    obtain ⟨hsearchable, hr1⟩ := searchable_addContainer h1
    obtain ⟨hrest, hr'⟩ := foldlM_addContainer h2
    refine ⟨List.forall_mem_cons.mpr ⟨hsearchable, hrest⟩, ?_⟩
    rw [hr', hr1, List.flatMap_cons, List.foldl_append]

theorem foldlM_of_searchable : ∀ {containers : List InternalContainer} (r : Waiting × Affinities),
    (∀ container ∈ containers, Searchable env s container) →
    ∃ r', containers.foldlM (addContainer env outcome s) r = .ok r'
  | [], r, _ => ⟨r, rfl⟩
  | container :: containers, r, h => by
    obtain ⟨hc, hrest⟩ := List.forall_mem_cons.mp h
    obtain ⟨r1, h1⟩ := @addContainer_of_searchable outcome env s container hc r
    obtain ⟨r2, h2⟩ := foldlM_of_searchable r1 hrest
    refine ⟨r2, ?_⟩
    rw [List.foldlM_cons, h1]
    exact h2

/-- The tasks of the containers. -/
def listed (s : State) : List Int32 := s.containers.flatMap (fun container => container.tasks)

/-- The masks of the others are forgotten. -/
def trim (s : State) (a : Affinities) : Affinities := { a with
  tuneThreads := (a.tuneThreads.keys.filter (fun tid => tid ∉ listed s)).foldl
    (fun tuneThreads tid => tuneThreads.erase tid) a.tuneThreads }

theorem find_foldl_erase (tuneThreads : UMap Int32 CpuSet) : ∀ l : List Int32,
    (l.foldl (fun tuneThreads tid => tuneThreads.erase tid) tuneThreads).find t =
      if t ∈ l then none else tuneThreads.find t := by
  intro l
  induction l generalizing tuneThreads with
  | nil => rfl
  | cons tid l ih =>
    rw [List.foldl_cons, ih, UMap.find_erase]
    rcases eq_or_ne t tid with rfl | hne
    · simp
    · simp [hne]

theorem find_trim : (trim s a).tuneThreads.find t = if t ∈ listed s then a.tuneThreads.find t else none := by
  rw [trim, find_foldl_erase]
  rcases em (t ∈ listed s) with hin | hout
  · rw [if_pos hin, if_neg (fun hmem => by simpa [hin] using List.mem_filter.mp hmem)]
  · rw [if_neg hout]
    split
    · rfl
    · rename_i hmem
      refine UMap.find_eq_none fun hkey => hmem (List.mem_filter.mpr ⟨hkey, by simpa using hout⟩)

/-- What comes before the loop over the nodes. -/
def begun (env : Env) (outcome : Outcome) (s : State) (a : Affinities) : Affinities :=
  trim s ((s.containers.flatMap (crossed env s)).foldl (ask outcome) a)

theorem findSpecialBin_eq {r : Waiting × Affinities} (h : findSpecialBin env outcome s a = .ok r) :
    (∀ container ∈ s.containers, Searchable env s container) ∧ r.2 = begun env outcome s a := by
  obtain ⟨⟨w, a1⟩, h1, h2⟩ := bind_ok h
  obtain ⟨hsearchable, ha1⟩ := foldlM_addContainer h1
  dsimp only at ha1
  cases h2
  exact ⟨hsearchable, by rw [ha1]; rfl⟩

theorem findSpecialBin_of_searchable (h : ∀ container ∈ s.containers, Searchable env s container) :
    ∃ w, findSpecialBin env outcome s a = .ok (w, begun env outcome s a) := by
  obtain ⟨r, hr⟩ := @foldlM_of_searchable outcome env s s.containers (⟨.empty, .empty, .empty⟩, a) h
  have hfind : ∃ r, findSpecialBin env outcome s a = .ok r := by
    rw [findSpecialBin, hr]
    exact ⟨_, rfl⟩
  obtain ⟨⟨w, a1⟩, hfind⟩ := hfind
  obtain ⟨-, rfl⟩ := findSpecialBin_eq hfind
  exact ⟨w, hfind⟩

/-! ### A run -/

theorem foldlM_tuneNode (h : Holding env s s.containers w) : ∀ {nodes : List ℤ} {a a' : Affinities},
    (∀ node ∈ nodes, ∃ container ∈ s.containers, OnNode s node container) →
    (nodes.foldlM (tuneNode outcome s w) a = .ok a' ↔
      (∀ node ∈ nodes, Passes env s node) ∧ nodes.foldl (pass env outcome s) a = a')
  | [], a, a', _ => by
    constructor
    · intro hok
      cases hok
      exact ⟨nofun, rfl⟩
    · rintro ⟨-, rfl⟩
      rfl
  | node :: nodes, a, a', hon => by
    obtain ⟨hnode, hnodes⟩ := List.forall_mem_cons.mp hon
    rw [List.foldlM_cons, List.forall_mem_cons, List.foldl_cons]
    constructor
    · intro hok
      obtain ⟨a1, h1, h2⟩ := bind_ok hok
      obtain ⟨hpass, rfl⟩ := (tuneNode_iff h hnode).mp h1
      obtain ⟨hrest, heq⟩ := (foldlM_tuneNode h hnodes).mp h2
      exact ⟨⟨hpass, hrest⟩, heq⟩
    · rintro ⟨⟨hpass, hrest⟩, heq⟩
      rw [(tuneNode_iff h hnode).mpr ⟨hpass, rfl⟩]
      exact (foldlM_tuneNode h hnodes).mpr ⟨hrest, heq⟩

theorem mem_keys_load (h : Holding env s s.containers w) :
    node ∈ w.dockerCpuOnNuma.keys ↔ ∃ container ∈ s.containers, OnNode s node container := by
  rw [UMap.mem_keys, h.load]
  split
  · rename_i hnil
    refine ⟨nofun, ?_⟩
    rintro ⟨container, hmem, hon⟩
    have hin : container ∈ s.containers.filter (OnNode s node) := List.mem_filter.mpr ⟨hmem, by simpa using hon⟩
    rw [hnil] at hin
    cases hin
  · rename_i hne
    obtain ⟨container, hin⟩ := List.exists_mem_of_ne_nil _ hne
    obtain ⟨hmem, hon⟩ := List.mem_filter.mp hin
    exact ⟨fun _ => ⟨container, hmem, by simpa using hon⟩, fun _ => rfl⟩

/-- The nodes are gone through in order. -/
theorem run_eq {a' : Affinities} (h : run env outcome s a = .ok a') (honline : s.cpuNumOnline = s.cpuCoreNum) :
    (∀ container ∈ s.containers, Searchable env s container) ∧ ∃ nodes : List ℤ, nodes.Pairwise (· < ·) ∧
      (∀ node, node ∈ nodes ↔ ∃ container ∈ s.containers, OnNode s node container) ∧
      (∀ node ∈ nodes, Passes env s node) ∧ nodes.foldl (pass env outcome s) (begun env outcome s a) = a' := by
  rw [run, if_neg (fun hne => hne honline)] at h
  obtain ⟨⟨w, a1⟩, h1, h2⟩ := bind_ok h
  obtain ⟨hsearchable, ha1⟩ := findSpecialBin_eq h1
  dsimp only at ha1 h2
  subst ha1
  have hholding := holding_findSpecialBin h1
  have hmem : ∀ node, node ∈ w.dockerCpuOnNuma.keys.insertionSort (· ≤ ·) ↔
      ∃ container ∈ s.containers, OnNode s node container := fun node => by
    rw [List.mem_insertionSort, mem_keys_load hholding]
  obtain ⟨hpass, heq⟩ := (foldlM_tuneNode hholding fun node hnode => (hmem node).mp hnode).mp h2
  refine ⟨hsearchable, _, ?_, hmem, hpass, heq⟩
  have hnodup : (w.dockerCpuOnNuma.keys.insertionSort (· ≤ ·)).Nodup :=
    (List.perm_insertionSort _ _).nodup_iff.mpr w.dockerCpuOnNuma.nodup
  exact ((List.pairwise_insertionSort _ _).and hnodup).imp fun hlt => lt_of_le_of_ne hlt.1 hlt.2

/-- The state with the containers of one node only. -/
def only (s : State) (node : ℤ) : State := { s with containers := s.containers.filter (OnNode s node) }

theorem allOn_only {initNuma : ℤ} : ∀ {cpus : List ℤ}, allOn (only s node) initNuma cpus = allOn s initNuma cpus
  | [] => rfl
  | cpu :: cpus => by
    rw [allOn, allOn]
    simp only [@allOn_only initNuma cpus]
    rfl

theorem fullNuma_only (container : InternalContainer) : fullNuma (only s node) container = fullNuma s container := by
  rw [fullNuma, fullNuma]
  simp only [allOn_only]
  rfl

theorem onNode_only {m : ℤ} {container : InternalContainer} : OnNode (only s node) m container ↔ OnNode s m container := by
  rw [OnNode, OnNode, fullNuma_only]

theorem policies_only : ∀ {tasks : List Int32} {threadPolicy : UMap Str Int32},
    policies env (only s node) threadPolicy tasks = policies env s threadPolicy tasks
  | [], _ => rfl
  | j :: tasks, threadPolicy => by
    rw [policies, policies]
    simp only [@policies_only tasks]
    rfl

theorem foundIn_only (container : InternalContainer) : foundIn env (only s node) container = foundIn env s container := by
  rw [foundIn, foundIn, policies_only]

theorem filter_only : (only s node).containers.filter (OnNode (only s node) node) = s.containers.filter (OnNode s node) := by
  rw [show (only s node).containers = s.containers.filter (OnNode s node) from rfl, List.filter_filter]
  refine List.filter_congr fun container _ => ?_
  simp only [onNode_only, Bool.and_self]

theorem overloaded_only : Overloaded (only s node) node ↔ Overloaded s node := by
  rw [Overloaded, Overloaded, load, load, filter_only]
  refine and_congr_left fun _ => ?_
  constructor
  · rintro ⟨container, hmem, hon⟩
    exact ⟨container, (List.mem_filter.mp hmem).1, onNode_only.mp hon⟩
  · rintro ⟨container, hmem, hon⟩
    exact ⟨container, List.mem_filter.mpr ⟨hmem, by simpa using hon⟩, onNode_only.mpr hon⟩

theorem numaThreads_only : numaThreads env (only s node) node = numaThreads env s node := by
  rw [numaThreads, numaThreads, filter_only]
  simp only [foundIn_only]

theorem wanted_only : wanted env (only s node) node = wanted env s node := by
  have hbindings : bindings env (only s node) node (only s node).containers = bindings env s node s.containers := by
    rw [bindings, bindings, filter_only]
    simp only [foundIn_only]
  rw [wanted, wanted, numaThreads_only, bound, bound, hbindings]
  rfl

theorem pass_only : pass env outcome (only s node) a node = pass env outcome s a node := by
  rw [pass, pass, wanted_only]
  simp only [overloaded_only]

/-- A run with the containers of one node. -/
theorem run_only (hsearchable : ∀ container ∈ s.containers, Searchable env s container) (hpass : Passes env s node)
    (honline : s.cpuNumOnline = s.cpuCoreNum) (hon : ∃ container ∈ s.containers, OnNode s node container) :
    run env outcome (only s node) a = .ok (pass env outcome s (trim (only s node) a) node) := by
  have hsearchable' : ∀ container ∈ (only s node).containers, Searchable env (only s node) container := by
    intro container hmem
    obtain ⟨hplace, hfound⟩ := hsearchable container (List.mem_filter.mp hmem).1
    exact ⟨by rwa [fullNuma_only], by rwa [policies_only, foundIn_only]⟩
  obtain ⟨w, hfind⟩ := @findSpecialBin_of_searchable outcome a env (only s node) hsearchable'
  have hholding := holding_findSpecialBin hfind
  have hcross : (only s node).containers.flatMap (crossed env (only s node)) = [] := by
    refine List.flatMap_eq_nil_iff.mpr fun container hmem => ?_
    have hon : OnNode s node container := by simpa using (List.mem_filter.mp hmem).2
    rw [crossed, if_neg]
    intro hnone
    rw [fullNuma_only] at hnone
    cases hon.symm.trans hnone
  have hbegun : begun env outcome (only s node) a = trim (only s node) a := by
    rw [begun, hcross]
    rfl
  have hon' : ∀ m, (∃ container ∈ (only s node).containers, OnNode (only s node) m container) ↔ m = node := by
    intro m
    constructor
    · rintro ⟨container, hmem, hm⟩
      exact OnNode.unique (onNode_only.mp hm) (by simpa using (List.mem_filter.mp hmem).2)
    · rintro rfl
      obtain ⟨container, hmem, hm⟩ := hon
      exact ⟨container, List.mem_filter.mpr ⟨hmem, by simpa using hm⟩, onNode_only.mpr hm⟩
  have hkeys : w.dockerCpuOnNuma.keys = [node] := by
    refine List.perm_singleton.mp ((List.perm_ext_iff_of_nodup w.dockerCpuOnNuma.nodup (List.nodup_singleton node)).mpr
      fun m => ?_)
    rw [mem_keys_load hholding, hon', List.mem_singleton]
  have hpass' : Passes env (only s node) node := by
    refine ⟨hpass.1, fun hno => ?_⟩
    rw [overloaded_only] at hno
    rw [numaThreads_only]
    exact hpass.2 hno
  rw [run, if_neg (fun hne => hne honline), hfind, hbegun]
  simp only [bind, Except.bind, hkeys]
  rw [List.insertionSort_cons, List.insertionSort_nil, List.orderedInsert_nil]
  refine (foldlM_tuneNode hholding fun m hm => (hon' m).mpr (List.mem_singleton.mp hm)).mpr ⟨?_, ?_⟩
  · intro m hm
    rw [List.mem_singleton.mp hm]
    exact hpass'
  · exact pass_only

/-! ### Whose threads -/

/-- The thread is in containers of the node, and in no others. -/
def OfNode (s : State) (node : ℤ) (t : Int32) : Prop :=
  (∃ container ∈ s.containers, t ∈ container.tasks) ∧ ∀ container ∈ s.containers, t ∈ container.tasks → OnNode s node container

theorem mem_foundIn {container : InternalContainer} {task : Int32 × Int32} (h : task ∈ foundIn env s container) :
    task.1 ∈ container.tasks := by
  rw [foundIn] at h
  split at h
  · rename_i found hfound
    exact ((mem_policies hfound).1 task h).1
  · cases h

theorem mem_withPolicy {ps : List Int32} {container : InternalContainer} (h : t ∈ withPolicy ps (foundIn env s container)) :
    t ∈ container.tasks := by
  obtain ⟨task, htask, rfl⟩ := List.mem_map.mp h
  exact mem_foundIn (List.mem_filter.mp htask).1

/-- Only threads of containers of the node are bound on it. -/
theorem mem_wanted {p : CpuSet × Int32} (h : p ∈ wanted env s node) :
    ∃ container ∈ s.containers, OnNode s node container ∧ p.2 ∈ container.tasks := by
  rcases List.mem_append.mp h with h | h
  · obtain ⟨⟨⟨container, threads⟩, mask⟩, hb, hp⟩ := List.mem_flatMap.mp h
    obtain ⟨tid, htid, rfl⟩ := List.mem_map.mp hp
    obtain ⟨before, cores, after, hsplit, -⟩ := mem_coreMasks.mp hb
    have hitem : (cores, (container, threads)) ∈ before ++ (cores, (container, threads)) :: after :=
      List.mem_append_right _ List.mem_cons_self
    rw [← hsplit] at hitem
    obtain ⟨b, hb, heq⟩ := List.mem_map.mp hitem
    cases heq
    obtain ⟨c, hc, heq⟩ := List.mem_filterMap.mp hb
    obtain ⟨hmem, hon⟩ := List.mem_filter.mp hc
    split at heq
    · cases heq
    · cases heq
      exact ⟨_, hmem, by simpa using hon, mem_withPolicy htid⟩
  · obtain ⟨tid, htid, rfl⟩ := List.mem_map.mp h
    obtain ⟨container, hc, htid⟩ := List.mem_flatMap.mp htid
    obtain ⟨hmem, hon⟩ := List.mem_filter.mp hc
    exact ⟨container, hmem, by simpa using hon, mem_withPolicy htid⟩

theorem mem_crossed {container : InternalContainer} {p : CpuSet × Int32} (h : p ∈ crossed env s container) :
    fullNuma s container = .ok none ∧ p.2 ∈ container.tasks := by
  rw [crossed] at h
  split at h
  · rename_i hnone
    obtain ⟨tid, htid, rfl⟩ := List.mem_map.mp h
    exact ⟨hnone, mem_withPolicy htid⟩
  · cases h

theorem OfNode.listed (h : OfNode s node t) : t ∈ listed s :=
  have ⟨container, hmem, ht⟩ := h.1
  List.mem_flatMap.mpr ⟨container, hmem, ht⟩

theorem OfNode.not_wanted {m : ℤ} (h : OfNode s node t) (hne : m ≠ node) : ∀ p ∈ wanted env s m, p.2 ≠ t := by
  rintro p hp rfl
  obtain ⟨container, hmem, hon, ht⟩ := mem_wanted hp
  exact hne (hon.unique (h.2 container hmem ht))

/-- Before the loop over the nodes nothing is done with the threads of nodes. -/
theorem OfNode.begun (h : OfNode s node t) : Same t a (begun env outcome s a) := by
  have hcross : ∀ p ∈ s.containers.flatMap (crossed env s), p.2 ≠ t := by
    rintro p hp rfl
    obtain ⟨container, hmem, hp⟩ := List.mem_flatMap.mp hp
    obtain ⟨hnone, ht⟩ := mem_crossed hp
    cases (h.2 container hmem ht).symm.trans hnone
  refine (same_asks a hcross).trans ⟨?_, rfl, rfl, rfl⟩
  rw [BinaryTune.begun, find_trim, if_pos h.listed]

/-! ### A run that fits -/

/-- What a `Run` is to find, so that one saved mask for each thread is enough. -/
structure RunFits (env : Env) (outcome : Outcome) (s : State) (a : Affinities) : Prop where
  /-- A thread alive that is in no container has the mask that is forgotten. -/
  trimmed : ∀ t cur m, a.kernel.affinity t = some cur → a.tuneThreads.find t = some m → t ∉ listed s → cur = m
  /-- Where a node is overloaded, the system takes the masks that threads go back to, -/
  taken : ∀ full, Overloaded s full → ∀ t m, (a.kernel.affinity t).isSome →
    (a.tuneThreads.find t).isSome ∨ t ∈ listed s → home a t = some m → Takes outcome t m
  /-- and those that other nodes ask for; -/
  asked : ∀ full, Overloaded s full → ∀ node, ¬ Overloaded s node → ∀ p ∈ wanted env s node,
    (a.kernel.affinity p.2).isSome → Takes outcome p.2 p.1
  /-- a thread of a node before it is meant to have the mask that it goes back to, -/
  before : ∀ full, Overloaded s full → ∀ node, node < full → ¬ Overloaded s node → ∀ t cur, OfNode s node t →
    a.kernel.affinity t = some cur → home a t = some (aim t (wanted env s node) cur)
  /-- and one of a node behind it is bound there again, or is so, too. -/
  behind : ∀ full, Overloaded s full → ∀ node, full < node → ¬ Overloaded s node → ∀ t cur old, OfNode s node t →
    a.kernel.affinity t = some cur → home a t = some old → aim t (wanted env s node) cur = aim t (wanted env s node) old

/-- The homes are as in the first, and entries only for threads that had one or are in a container. -/
structure Within (s : State) (a b : Affinities) : Prop where
  keeps : Keeps a b
  entries : ∀ t, (b.tuneThreads.find t).isSome → (a.tuneThreads.find t).isSome ∨ t ∈ listed s

theorem Within.asks {l : List (CpuSet × Int32)} (h : Within s a b) (hl : ∀ p ∈ l, p.2 ∈ listed s) :
    Within s a (l.foldl (ask outcome) b) := by
  refine ⟨h.keeps.trans (keeps_foldl (fun _ _ => keeps_setAffinity) l b), fun t ht => ?_⟩
  rcases em (t ∈ listed s) with hin | hout
  · exact .inr hin
  · have hsame : Same t b (l.foldl (ask outcome) b) := same_asks b fun p hp heq => hout (heq ▸ hl p hp)
    rw [hsame.1] at ht
    exact h.entries t ht

theorem within_begun (hfits : RunFits env outcome s a) : Within s a (begun env outcome s a) := by
  have hcross : ∀ p ∈ s.containers.flatMap (crossed env s), p.2 ∈ listed s := by
    intro p hp
    obtain ⟨container, hmem, hp⟩ := List.mem_flatMap.mp hp
    exact List.mem_flatMap.mpr ⟨container, hmem, (mem_crossed hp).2⟩
  have hasks : Within s a ((s.containers.flatMap (crossed env s)).foldl (ask outcome) a) :=
    Within.asks ⟨.refl a, fun _ => .inl⟩ hcross
  have hunlisted : ∀ t, t ∉ listed s → Same t a ((s.containers.flatMap (crossed env s)).foldl (ask outcome) a) :=
    fun t hout => same_asks a fun p hp heq => hout (heq ▸ hcross p hp)
  have htrimmed := hfits.trimmed
  rw [begun]
  generalize (s.containers.flatMap (crossed env s)).foldl (ask outcome) a = b at hasks hunlisted
  -- what is forgotten is what the thread has
  have hgone : ∀ t cur m, b.kernel.affinity t = some cur → b.tuneThreads.find t = some m → t ∉ listed s → cur = m := by
    intro t cur m hcur hm hout
    obtain ⟨hfind, haff, -⟩ := hunlisted t hout
    exact htrimmed t cur m (haff ▸ hcur) (hfind ▸ hm) hout
  refine ⟨hasks.keeps.trans ⟨fun _ => rfl, fun t ht => ?_, fun hs => ⟨fun t m ht hm => ?_, fun t cur m ht hm hf => ?_⟩⟩,
    fun t ht => ?_⟩
  · rw [home, home, find_trim]
    split
    · rfl
    · rename_i hout
      obtain ⟨cur, hcur⟩ := Option.isSome_iff_exists.mp ht
      rw [Option.none_or, show (trim s b).kernel.affinity t = b.kernel.affinity t from rfl, hcur]
      cases hm : b.tuneThreads.find t with
      | none => rfl
      | some m => rw [hgone t cur m hcur hm hout, Option.some_or]
  · rw [find_trim] at hm
    split at hm
    · exact hs.kept t m ht hm
    · cases hm
  · rw [find_trim] at hm
    split at hm
    · exact hs.back t cur m ht hm hf
    · rename_i hout
      cases hfind : b.tuneThreads.find t with
      | none => exact hs.back t cur m ht hfind hf
      | some m' =>
        have hfirst := hs.kept t m' (by rw [show b.kernel.affinity t = some cur from ht]; rfl) hfind
        rw [show (trim s b).kernel.first t = b.kernel.first t from rfl, hfirst] at hf
        cases hf
        exact hgone t cur m ht hfind hout
  · rw [find_trim] at ht
    split at ht
    · exact hasks.entries t ht
    · cases ht

theorem within_pass (hfits : RunFits env outcome s a) (h : Within s a b) : Within s a (pass env outcome s b node) := by
  rw [pass]
  split
  · rename_i hover
    refine ⟨h.keeps.trans (keeps_restore fun t m ht hm => ?_), nofun⟩
    have halive : (a.kernel.affinity t).isSome := (h.keeps.alive t) ▸ ht
    have hhome : home b t = some m := by rw [home, hm, Option.some_or]
    exact hfits.taken node hover t m halive (h.entries t (by rw [hm]; rfl)) ((h.keeps.home t halive).symm.trans hhome)
  · refine h.asks fun p hp => ?_
    obtain ⟨container, hmem, -, ht⟩ := mem_wanted hp
    exact List.mem_flatMap.mpr ⟨container, hmem, ht⟩

theorem within_foldl (hfits : RunFits env outcome s a) : ∀ {nodes : List ℤ} {b : Affinities}, Within s a b →
    Within s a (nodes.foldl (pass env outcome s) b)
  | [], _, h => h
  | node :: nodes, b, h => by
    rw [List.foldl_cons]
    exact within_foldl hfits (within_pass hfits h)

/-- Giving back leaves the thread at home. -/
theorem pass_overloaded (hfits : RunFits env outcome s a) (h : Within s a b) (hover : Overloaded s node)
    (halive : (a.kernel.affinity t).isSome) : (pass env outcome s b node).kernel.affinity t = home a t ∧
      (pass env outcome s b node).tuneThreads.find t = none := by
  have hnone : (pass env outcome s b node).tuneThreads.find t = none := by
    rw [pass, if_pos hover]
    rfl
  have hwithin : Within s a (pass env outcome s b node) := within_pass hfits h
  have hhome := hwithin.keeps.home t halive
  rw [home, hnone, Option.none_or] at hhome
  exact ⟨hhome, hnone⟩

/-- What other nodes make of a thread. -/
theorem foldl_others (hfits : RunFits env outcome s a) {n : ℤ} (ht : OfNode s n t) (halive : (a.kernel.affinity t).isSome) :
    ∀ {nodes : List ℤ} {b : Affinities}, n ∉ nodes → Within s a b →
    ((∀ node ∈ nodes, ¬ Overloaded s node) → Same t b (nodes.foldl (pass env outcome s) b)) ∧
    ((∃ node ∈ nodes, Overloaded s node) ∨ b.kernel.affinity t = home a t →
      (nodes.foldl (pass env outcome s) b).kernel.affinity t = home a t) ∧
    ((∃ node ∈ nodes, Overloaded s node) ∨ b.tuneThreads.find t = none →
      (nodes.foldl (pass env outcome s) b).tuneThreads.find t = none)
  | [], b, _, _ => ⟨fun _ => .refl t b, fun h => h.resolve_left nofun, fun h => h.resolve_left nofun⟩
  | node :: nodes, b, hn, h => by
    obtain ⟨hne, hn⟩ := List.ne_and_not_mem_of_not_mem_cons hn
    have hwithin : Within s a (pass env outcome s b node) := within_pass hfits h
    obtain ⟨hsame, haff, hfind⟩ := foldl_others hfits ht halive hn hwithin
    rw [List.foldl_cons]
    rcases em (Overloaded s node) with hover | hno
    · obtain ⟨hhome, hnone⟩ := pass_overloaded hfits h hover halive
      exact ⟨fun hall => absurd hover (hall node List.mem_cons_self), fun _ => haff (.inr hhome), fun _ => hfind (.inr hnone)⟩
    · have hpass : Same t b (pass env outcome s b node) := by
        rw [pass, if_neg hno]
        exact same_asks b (ht.not_wanted hne.symm)
      have hsplit : (∃ m ∈ node :: nodes, Overloaded s m) ↔ ∃ m ∈ nodes, Overloaded s m := by
        rw [List.exists_mem_cons_iff]
        exact or_iff_right hno
      rw [hsplit]
      refine ⟨fun hall => hpass.trans (hsame (List.forall_mem_cons.mp hall).2), fun h => haff (h.imp_right ?_),
        fun h => hfind (h.imp_right ?_)⟩
      · exact hpass.2.1.trans
      · exact hpass.1.trans

/-- The threads of a node that is not overloaded get the affinity that they get where its containers are the only ones. -/
def Independent (env : Env) (outcome : Outcome) (s : State) (a a' : Affinities) : Prop :=
  ∀ node t, OfNode s node t → ¬ Overloaded s node → (a.kernel.affinity t).isSome →
    ∃ b, run env outcome (only s node) a = .ok b ∧ b.kernel.affinity t = a'.kernel.affinity t

/-- A thread has the mask that it had before its mask was first set. -/
def AtFirst (a : Affinities) (t : Int32) : Prop :=
  ∀ cur m, a.kernel.affinity t = some cur → a.kernel.first t = some m → cur = m

theorem independent_of_fits {a' : Affinities} (h : run env outcome s a = .ok a')
    (hfits : s.cpuNumOnline = s.cpuCoreNum → RunFits env outcome s a) : Independent env outcome s a a' := by
  intro node t ht hno halive
  rcases ne_or_eq s.cpuNumOnline s.cpuCoreNum with hoffline | honline
  · rw [run, if_pos hoffline] at h
    cases h
    exact ⟨a, if_pos hoffline, rfl⟩
  have hfits := hfits honline
  obtain ⟨hsearchable, nodes, hsorted, hmem, hpasses, rfl⟩ := run_eq h honline
  obtain ⟨container, hc, htc⟩ := ht.1
  have hon : ∃ container ∈ s.containers, OnNode s node container := ⟨container, hc, ht.2 container hc htc⟩
  obtain ⟨l1, l2, rfl⟩ := List.append_of_mem ((hmem node).mpr hon)
  refine ⟨_, run_only hsearchable (hpasses node (List.mem_append_right _ List.mem_cons_self)) honline hon, ?_⟩
  obtain ⟨-, hsorted2, hlt1⟩ := List.pairwise_append.mp hsorted
  obtain ⟨hlt2, -⟩ := List.pairwise_cons.mp hsorted2
  have h1 : node ∉ l1 := fun hin => lt_irrefl _ (hlt1 node hin node List.mem_cons_self)
  have h2 : node ∉ l2 := fun hin => lt_irrefl _ (hlt2 node hin)
  obtain ⟨cur, hcur⟩ := Option.isSome_iff_exists.mp halive
  have hwithin0 := within_begun hfits
  have hbegun : Same t a (begun env outcome s a) := ht.begun
  generalize begun env outcome s a = b0 at hwithin0 hbegun ⊢
  obtain ⟨hsame1, haff1, -⟩ := foldl_others hfits ht halive h1 hwithin0
  have hwithin1 : Within s a (l1.foldl (pass env outcome s) b0) := within_foldl hfits hwithin0
  rw [List.foldl_append, List.foldl_cons]
  generalize l1.foldl (pass env outcome s) b0 = b1 at hsame1 haff1 hwithin1 ⊢
  have hwithin2 : Within s a (pass env outcome s b1 node) := within_pass hfits hwithin1
  obtain ⟨hsame2, haff2, -⟩ := foldl_others hfits ht halive h2 hwithin2
  have hpass : ∀ b, pass env outcome s b node = (wanted env s node).foldl (ask outcome) b := fun _ => if_neg hno
  rw [hpass] at hsame2 haff2
  rw [hpass, hpass]
  have hbound : ∀ full, Overloaded s full → ∀ {b : Affinities} {cur : CpuSet}, b.kernel.affinity t = some cur →
      ((wanted env s node).foldl (ask outcome) b).kernel.affinity t = some (aim t (wanted env s node) cur) :=
    fun full hover _ _ hb => affinity_asks hb fun p hp heq =>
      heq ▸ hfits.asked full hover node hno p hp (heq ▸ halive)
  have hcur' : (trim (only s node) a).kernel.affinity t = some cur := hcur
  rcases em (∃ full ∈ l2, Overloaded s full) with ⟨full, hin, hover⟩ | hnone2
  · -- a node behind it gives the masks back
    rw [hbound full hover hcur', haff2 (.inl ⟨full, hin, hover⟩)]
    exact (hfits.before full hover node (hlt2 full hin) hno t cur ht hcur).symm
  · rw [(hsame2 fun full hin hover => hnone2 ⟨full, hin, hover⟩).2.1]
    rcases em (∃ full ∈ l1, Overloaded s full) with ⟨full, hin, hover⟩ | hnone1
    · -- only nodes before it do
      have hold := haff1 (.inl ⟨full, hin, hover⟩)
      have hsome : ∃ old, home a t = some old := by
        rw [home, hcur]
        cases a.tuneThreads.find t with
        | none => exact ⟨cur, rfl⟩
        | some old => exact ⟨old, rfl⟩
      obtain ⟨old, hhome⟩ := hsome
      rw [hbound full hover hcur', hbound full hover (hold.trans hhome)]
      rw [hfits.behind full hover node (hlt1 full hin node List.mem_cons_self) hno t cur old ht hcur hhome]
    · have hsame := hbegun.trans (hsame1 fun full hin hover => hnone1 ⟨full, hin, hover⟩)
      have halike : Alike t b1 (trim (only s node) a) := ⟨hsame.2.1.symm, hsame.2.2.1.symm⟩
      exact halike.asks.1

/-- An overload of its own node gives a thread its first mask. -/
theorem atFirst_of_fits {a' : Affinities} (h : run env outcome s a = .ok a') (honline : s.cpuNumOnline = s.cpuCoreNum)
    (hfits : RunFits env outcome s a) (hs : Saved a) (ht : OfNode s node t) (hover : Overloaded s node) : AtFirst a' t := by
  intro cur m hcur hm
  obtain ⟨-, nodes, hsorted, hmem, -, rfl⟩ := run_eq h honline
  have hin : node ∈ nodes := (hmem node).mpr hover.1
  have hwithin : Within s a (nodes.foldl (pass env outcome s) (begun env outcome s a)) :=
    within_foldl hfits (within_begun hfits)
  have halive : (a.kernel.affinity t).isSome := by
    rw [← hwithin.keeps.alive, hcur]
    rfl
  refine (hwithin.keeps.saved hs).back t cur m hcur ?_ hm
  obtain ⟨l1, l2, rfl⟩ := List.append_of_mem hin
  obtain ⟨hlt2, -⟩ := List.pairwise_cons.mp (List.pairwise_append.mp hsorted).2.1
  have hwithin1 : Within s a (l1.foldl (pass env outcome s) (begun env outcome s a)) :=
    within_foldl hfits (within_begun hfits)
  rw [List.foldl_append, List.foldl_cons]
  exact (foldl_others hfits ht halive (fun hin => lt_irrefl _ (hlt2 node hin)) (within_pass hfits hwithin1)).2.2
    (.inr (pass_overloaded hfits hwithin1 hover halive).2)

/-- A run keeps the homes. -/
theorem keeps_run {a' : Affinities} (h : run env outcome s a = .ok a')
    (hfits : s.cpuNumOnline = s.cpuCoreNum → RunFits env outcome s a) : Keeps a a' := by
  rcases ne_or_eq s.cpuNumOnline s.cpuCoreNum with hoffline | honline
  · rw [run, if_pos hoffline] at h
    cases h
    exact .refl a
  · obtain ⟨-, nodes, -, -, -, rfl⟩ := run_eq h honline
    exact (within_foldl (hfits honline) (within_begun (hfits honline))).keeps

/-! ### Sequences of calls -/

structure World where
  state : State
  a : Affinities

inductive Act where
  | enable (configBinary : UMap Str Int32)
  | static (data : EnvStaticInfo)
  | realtime (data : EnvRealTimeInfo)
  | docker (data : List DockerAdapt.Entry)
  | threads (data : List ThreadInfo)
  | run (env : Env) (outcome : Outcome)
  | disable (outcome : Outcome)
  /-- A thread begins, with some mask, or ends. -/
  | start (tid : Int32) (mask : CpuSet)
  | exit (tid : Int32)

def Kernel.start (k : Kernel) (tid : Int32) (mask : CpuSet) : Kernel :=
  if (k.affinity tid).isSome then k
  else { k with
    affinity := Function.update k.affinity tid (some mask)
    first := Function.update k.first tid none }

def Kernel.exit (k : Kernel) (tid : Int32) : Kernel := { k with affinity := Function.update k.affinity tid none }

def step (w : World) : Act → Except Fault World
  | .enable configBinary => .ok { w with state := { w.state with configBinary } }
  | .static data => do
    let state ← updateStatic data w.state
    return { w with state }
  | .realtime data => .ok { w with state := updateRealtime data w.state }
  | .docker data => .ok { w with state := updateDocker data w.state }
  | .threads data => .ok { w with state := updateThreads data w.state }
  | .run env outcome => do
    let a ← run env outcome w.state w.a
    return { w with a }
  | .disable outcome => .ok { w with a := disable outcome w.a }
  | .start tid mask => .ok { w with a := { w.a with kernel := w.a.kernel.start tid mask } }
  | .exit tid => .ok { w with a := { w.a with kernel := w.a.kernel.exit tid } }

/-- The step fits the state that it is taken in. -/
def Fits (w : World) : Act → Prop
  | .run env outcome => w.state.cpuNumOnline = w.state.cpuCoreNum → RunFits env outcome w.state w.a
  | .disable outcome => ∀ t m, (w.a.kernel.affinity t).isSome → w.a.tuneThreads.find t = some m → Takes outcome t m
  -- no mask is saved under the thread's number
  | .start tid _ => w.a.tuneThreads.find tid = none
  | _ => True

theorem saved_start (hs : Saved a) (hnone : a.tuneThreads.find tid = none) :
    Saved { a with kernel := a.kernel.start tid mask } := by
  rw [Kernel.start]
  split
  · exact hs
  · refine ⟨fun t m ht hm => ?_, fun t cur m ht hm hf => ?_⟩
    · have hne : t ≠ tid := by
        rintro rfl
        cases hnone.symm.trans hm
      dsimp only at ht ⊢
      rw [Function.update_of_ne hne] at ht ⊢
      exact hs.kept t m ht hm
    · dsimp only at ht hf
      rcases eq_or_ne t tid with rfl | hne
      · rw [Function.update_self] at hf
        cases hf
      · rw [Function.update_of_ne hne] at ht hf
        exact hs.back t cur m ht hm hf

theorem saved_exit (hs : Saved a) : Saved { a with kernel := a.kernel.exit tid } := by
  have halive : ∀ t cur, (a.kernel.exit tid).affinity t = some cur → a.kernel.affinity t = some cur := by
    intro t cur ht
    rw [Kernel.exit] at ht
    dsimp only at ht
    rcases eq_or_ne t tid with rfl | hne
    · rw [Function.update_self] at ht
      cases ht
    · rwa [Function.update_of_ne hne] at ht
  refine ⟨fun t m ht hm => ?_, fun t cur m ht hm hf => hs.back t cur m (halive t cur ht) hm hf⟩
  obtain ⟨cur, hcur⟩ := Option.isSome_iff_exists.mp ht
  exact hs.kept t m (by rw [halive t cur hcur]; rfl) hm

/-- What a step keeps. -/
theorem saved_step {w w' : World} {act : Act} (hs : Saved w.a) (hfits : Fits w act) (h : step w act = .ok w') : Saved w'.a := by
  cases act with
  | enable configBinary =>
    cases h
    exact hs
  | static data =>
    obtain ⟨state, -, h⟩ := bind_ok h
    cases h
    exact hs
  | realtime data =>
    cases h
    exact hs
  | docker data =>
    cases h
    exact hs
  | threads data =>
    cases h
    exact hs
  | run env outcome =>
    obtain ⟨a', hrun, h⟩ := bind_ok h
    cases h
    exact (keeps_run hrun hfits).saved hs
  | disable outcome =>
    cases h
    exact (keeps_restore hfits).saved hs
  | start tid mask =>
    cases h
    exact saved_start hs hfits
  | exit tid =>
    cases h
    exact saved_exit hs

/-- Nothing is saved, and no mask has been set. -/
def Fresh (a : Affinities) : Prop := ∀ t, a.tuneThreads.find t = none ∧ a.kernel.first t = none

/-- BACK TO THE FIRST MASK: in runs of steps that fit, what is saved for a thread alive is what it had before its mask was
    first set; a `Run` binds the threads of a node as if there were no other, and gives those of an overloaded node their
    first masks, as `Disable` gives them to all threads. -/
theorem restored_of_runs {config : UMap Str Int32} {a : Affinities} (ha : Fresh a) {w : World}
    (h : Runs step ⟨init config, a⟩ Fits w) :
    (∀ t m, (w.a.kernel.affinity t).isSome → w.a.tuneThreads.find t = some m → w.a.kernel.first t = some m) ∧
    (∀ env outcome w', Fits w (.run env outcome) → step w (.run env outcome) = .ok w' →
      Independent env outcome w.state w.a w'.a ∧
      (w.state.cpuNumOnline = w.state.cpuCoreNum → ∀ node t, OfNode w.state node t → Overloaded w.state node →
        AtFirst w'.a t)) ∧
    ∀ outcome w', Fits w (.disable outcome) → step w (.disable outcome) = .ok w' → ∀ t, AtFirst w'.a t := by
  have hs : Saved w.a := by
    refine h.invariant (I := fun w => Saved w.a) ⟨fun t m _ hm => ?_, fun t cur m _ _ hf => ?_⟩
      fun w act w' hs hfits hstep => saved_step hs hfits hstep
    · rw [(ha t).1] at hm
      cases hm
    · rw [(ha t).2] at hf
      cases hf
  refine ⟨hs.kept, fun env outcome w' hfits hstep => ?_, fun outcome w' hfits hstep t cur m hcur hm => ?_⟩
  · obtain ⟨a', hrun, hstep⟩ := bind_ok hstep
    cases hstep
    exact ⟨independent_of_fits hrun hfits, fun honline node t ht hover => atFirst_of_fits hrun honline (hfits honline) hs ht hover⟩
  · have hafter := saved_step hs hfits hstep
    refine hafter.back t cur m hcur ?_ hm
    cases hstep
    rfl


/-! ### Two nodes -/

namespace Example

/-- All masks are taken. -/
def exact : Outcome := fun _ _ mask => some mask

/-- Three threads have all CPUs. -/
def alive : Affinities := ⟨.empty, fun t => if t ∈ [1, 2, 3] then some {0, 1, 2, 3} else none, fun _ => 0, fun _ => none⟩

def entry (cpus : Str) (quota : Int64) (tasks : List Int32) : DockerAdapt.Entry :=
  ⟨⟨[97], 100000, quota, 0, 0, 0⟩, 0, cpus, [], 0, tasks⟩

/-- One thread is in a container on the node 0, and the thread 2, to be bound to some cores, in one on the node 1. -/
def onBoth (tid : Int32) (quota : Int64) : Act := .docker [entry (str "0,1") 100000 [tid], entry (str "2,3") quota [2]]

/-- Where some calls lead. -/
def world (acts : List Act) : World :=
  match acts.foldlM step ⟨init config, alive⟩ with
  | .ok w => w
  | .error _ => ⟨init config, alive⟩

def setUp : List Act := [.static (static [0, 0, 1, 1]), .realtime ⟨0, 4, 4, []⟩,
  .threads [⟨3, 3, [122]⟩, ⟨2, 2, [121]⟩, ⟨1, 1, [120]⟩]]

def toBind : World := world (setUp ++ [onBoth 3 100000])

def overload : World := world (setUp ++ [onBoth 3 100000, .run sampleEnv exact, onBoth 3 200000])

/-- Two calls that are taken without a condition, and a `Run` between them. -/
theorem runs_overload (hfits : Fits toBind (.run sampleEnv exact)) : Runs step ⟨init config, alive⟩ Fits overload := by
  have hsetUp : Runs step ⟨init config, alive⟩ Fits toBind := by
    have hacts : ∀ act ∈ setUp ++ [onBoth 3 100000], ∀ w, Fits w act := by
      intro act hact w
      simp only [setUp, onBoth, List.cons_append, List.nil_append, List.mem_cons, List.not_mem_nil, or_false] at hact
      rcases hact with rfl | rfl | rfl | rfl <;> trivial
    exact Runs.of_foldlM hacts .start rfl
  have hrun : Runs step ⟨init config, alive⟩ Fits (world (setUp ++ [onBoth 3 100000, .run sampleEnv exact])) :=
    hsetUp.next hfits rfl
  exact hrun.next (a := onBoth 3 200000) trivial rfl

theorem containers_overload : ∀ container ∈ overload.state.containers,
    (OnNode overload.state 0 container ∧ container.tasks = [3]) ∨ (OnNode overload.state 1 container ∧ container.tasks = [2]) := by
  decide +kernel

theorem containers_toBind : ∀ container ∈ toBind.state.containers,
    OnNode toBind.state 0 container ∨ OnNode toBind.state 1 container := by
  decide +kernel

theorem fits_toBind : Fits toBind (.run sampleEnv exact) := by
  intro _
  have hno : ∀ full, ¬ Overloaded toBind.state full := by
    rintro full hover
    obtain ⟨container, hmem, hon⟩ := hover.1
    rcases containers_toBind container hmem with h | h
    · cases hon.unique h
      revert hover
      decide +kernel
    · cases hon.unique h
      revert hover
      decide +kernel
  exact ⟨fun t cur m _ hm => (by cases hm), fun full hover => absurd hover (hno full), fun full hover => absurd hover (hno full),
    fun full hover => absurd hover (hno full), fun full hover => absurd hover (hno full)⟩

theorem fits_overload : Fits overload (.run sampleEnv exact) := by
  intro _
  have hover : ∀ full, Overloaded overload.state full → full = 1 := by
    rintro full hover
    obtain ⟨container, hmem, hon⟩ := hover.1
    rcases containers_overload container hmem with ⟨h, -⟩ | ⟨h, -⟩
    · cases hon.unique h
      revert hover
      decide +kernel
    · exact hon.unique h
  have hnode : ∀ node t, OfNode overload.state node t → ¬ Overloaded overload.state node → node = 0 ∧ t = 3 := by
    intro node t ht hno
    obtain ⟨container, hmem, hin⟩ := ht.1
    have hon := ht.2 container hmem hin
    rcases containers_overload container hmem with ⟨h, htasks⟩ | ⟨h, -⟩
    · rw [htasks] at hin
      exact ⟨hon.unique h, List.mem_singleton.mp hin⟩
    · cases hon.unique h
      exact absurd (by decide +kernel) hno
  refine ⟨fun t cur m _ hm hout => ?_, fun _ _ _ _ _ _ _ _ => rfl, fun _ _ _ _ _ _ _ _ => rfl,
    fun full hover' node _ hno t cur ht hcur => ?_, fun full hover' node hlt hno t cur old ht => ?_⟩
  · have hkey : t ∈ overload.a.tuneThreads.keys := UMap.mem_keys_of_find hm
    rw [show overload.a.tuneThreads.keys = [2] by decide +kernel] at hkey
    rw [List.mem_singleton.mp hkey] at hout
    exact absurd (by decide +kernel) hout
  · obtain ⟨rfl, rfl⟩ := hnode node t ht hno
    rw [home, show overload.a.tuneThreads.find 3 = none by decide +kernel, Option.none_or, hcur,
      show wanted sampleEnv overload.state 0 = [] by decide +kernel]
    rfl
  · obtain ⟨rfl, rfl⟩ := hnode node t ht hno
    rw [hover full hover'] at hlt
    omega

end Example

/-- The thread 2 was bound to the core 2; once its node is overloaded it has all CPUs again. -/
theorem restored_of_runs_overload : ∃ w', step Example.overload (.run Example.sampleEnv Example.exact) = .ok w' ∧
    Example.overload.a.kernel.affinity 2 = some {2} ∧ AtFirst w'.a 2 := by
  have hfresh : Fresh Example.alive := fun _ => ⟨rfl, rfl⟩
  have hall := restored_of_runs hfresh (Example.runs_overload Example.fits_toBind)
  have hof : OfNode Example.overload.state 1 2 := by
    refine ⟨by decide +kernel, fun container hmem hin => ?_⟩
    rcases Example.containers_overload container hmem with ⟨-, htasks⟩ | ⟨h, -⟩
    · rw [htasks] at hin
      exact absurd hin (by decide)
    · exact h
  have hstep : ∃ w', step Example.overload (.run Example.sampleEnv Example.exact) = .ok w' := ⟨_, rfl⟩
  obtain ⟨w', hstep⟩ := hstep
  exact ⟨w', hstep, by decide +kernel, (hall.2.1 _ _ w' Example.fits_overload hstep).2 rfl 1 2 hof (by decide +kernel)⟩

namespace Example

/-- The thread 1 is to be bound on the node 0, and the node 1 is overloaded. -/
def besideActs : List Act := setUp ++ [onBoth 1 200000]

/-- The thread 1 is bound on the node 0, then in no container, and then bound on the node 1. -/
def missedActs : List Act := setUp ++ [.docker [entry (str "0,1") 100000 [1]], .run sampleEnv exact,
  .docker [entry (str "0,1") 100000 []], .run sampleEnv exact,
  .docker [entry (str "2,3") 100000 [1]], .run sampleEnv exact]

def beside : World := world besideActs

def missed : World := world missedActs

theorem reached (acts : List Act) {w : World} (h : acts.foldlM step ⟨init config, alive⟩ = .ok w) :
    Runs step ⟨init config, alive⟩ (fun _ _ => True) w :=
  Runs.of_foldlM (fun _ _ _ => trivial) .start h

end Example

/-- The node 1 is overloaded: the thread 1, which has just been bound on the node 0, is unbound again. And a thread that is
    missing in one list of containers and then bound elsewhere goes back to the mask of its first binding. -/
theorem not_restored :
    (∃ w w', Runs step ⟨init Example.config, Example.alive⟩ (fun _ _ => True) w ∧
      step w (.run Example.sampleEnv Example.exact) = .ok w' ∧
      ¬ Independent Example.sampleEnv Example.exact w.state w.a w'.a) ∧
    ∃ w, Runs step ⟨init Example.config, Example.alive⟩ (fun _ _ => True) w ∧
      w.a.tuneThreads.find 1 = some {0} ∧ w.a.kernel.first 1 = some {0, 1, 2, 3} ∧
      ¬ AtFirst (disable Example.exact w.a) 1 := by
  constructor
  · refine ⟨Example.beside, _, Example.reached Example.besideActs rfl, rfl, fun h => ?_⟩
    have hof : OfNode Example.beside.state 0 1 := by
      rw [OfNode]
      decide +kernel
    obtain ⟨b, hb, heq⟩ := h 0 1 hof (by decide +kernel) (by decide +kernel)
    have hbound : ∃ b, run Example.sampleEnv Example.exact (only Example.beside.state 0) Example.beside.a = .ok b ∧
        b.kernel.affinity 1 = some {0} := ⟨_, rfl, by decide +kernel⟩
    obtain ⟨b', hb', haff⟩ := hbound
    rw [hb] at hb'
    cases hb'
    rw [haff] at heq
    revert heq
    decide +kernel
  · refine ⟨Example.missed, Example.reached Example.missedActs rfl, by decide +kernel, by decide +kernel, fun h => ?_⟩
    have heq := h {0} {0, 1, 2, 3} (by decide +kernel) (by decide +kernel)
    exact absurd heq (by decide +kernel)

end BinaryTune
end OeAware

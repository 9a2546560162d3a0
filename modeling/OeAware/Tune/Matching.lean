import Mathlib.Data.Nat.Basic
import OeAware.Common.Topic
import OeAware.Schemes.Windows

/-! @src src/plugin/tune/system/network/hardirq_tune/hardirq_tune.cpp,
    src/plugin/scenario/analysis/analysis/analysis.cpp |
    name:MatchThreadAndQueue, UpdateRecNetQueue | scheme:two-pointers

    The interrupt of a queue and the thread that then reads the packet are traced with the address of the
    packet. Both tunings look for the thread of each queue event among the next thread events; the scan
    is the same, once for `NetHardIrq` and once for `Analysis`. -/

namespace OeAware
open Schemes

namespace NetHardIrq

structure RecNetQueue where
  ts : UInt64
  queueMapping : UInt64
  skbaddr : UInt64
  dev : Str
  deriving DecidableEq

structure RecNetThreads where
  ts : UInt64
  core : UInt32
  skbaddr : UInt64
  deriving DecidableEq

def slidingWinLen : ℕ := 200

/-- `MatchThreadAndQueue`: for each queue event the thread event that `UpdateThreadAndQueueInfo` is given with it. -/
def matchThreadAndQueue (queueData : List RecNetQueue) (threadData : List RecNetThreads) :
    List (Option RecNetThreads) :=
  Windows.scan (fun que => que.ts.toNat) (fun thr => thr.ts.toNat) (·.skbaddr) (·.skbaddr) slidingWinLen
    threadData queueData 0 0

/-- What is to be matched. -/
def Matched (queueData : List RecNetQueue) (threadData : List RecNetThreads)
    (matched : List (Option RecNetThreads)) : Prop :=
  Windows.Joined (fun que => que.ts.toNat) (fun thr => thr.ts.toNat) (·.skbaddr) (·.skbaddr) slidingWinLen
    queueData threadData matched

/-- Of the queue events that are after all thread events, none has its packet in the window where the last of
    the others begins. -/
def TailClear (queueData : List RecNetQueue) (threadData : List RecNetThreads) : Prop :=
  let i := Windows.lastStart (fun que : RecNetQueue => que.ts.toNat) (fun thr => thr.ts.toNat) threadData
    queueData 0
  ∀ que ∈ queueData, (∀ thr ∈ threadData, thr.ts.toNat < que.ts.toNat) →
    ∀ thr ∈ (threadData.drop i).take slidingWinLen, que.skbaddr ≠ thr.skbaddr

end NetHardIrq

namespace Analysis

structure RecNetQueue where
  ts : UInt64
  skbaddr : UInt64
  core : UInt32
  dev : Str
  queueMapping : UInt64
  deriving DecidableEq

structure RecNetThreads where
  ts : UInt64
  core : UInt32
  pid : Int32
  tid : Int32
  skbaddr : UInt64
  deriving DecidableEq

/-- `UpdateRecNetQueue`: for each queue event the thread event that `UpdateRemoteNetInfo` is given with it. -/
def updateRecNetQueue (recNetQueue : List RecNetQueue) (recNetThreads : List RecNetThreads) :
    List (Option RecNetThreads) :=
  Windows.scan (fun que => que.ts.toNat) (fun thr => thr.ts.toNat) (·.skbaddr) (·.skbaddr) 200
    recNetThreads recNetQueue 0 0

/-- What is to be matched. -/
def Matched (recNetQueue : List RecNetQueue) (recNetThreads : List RecNetThreads)
    (matched : List (Option RecNetThreads)) : Prop :=
  Windows.Joined (fun que => que.ts.toNat) (fun thr => thr.ts.toNat) (·.skbaddr) (·.skbaddr) 200
    recNetQueue recNetThreads matched

/-- The same of its queue events. -/
def TailClear (recNetQueue : List RecNetQueue) (recNetThreads : List RecNetThreads) : Prop :=
  let i := Windows.lastStart (fun que : RecNetQueue => que.ts.toNat) (fun thr => thr.ts.toNat) recNetThreads
    recNetQueue 0
  ∀ que ∈ recNetQueue, (∀ thr ∈ recNetThreads, thr.ts.toNat < que.ts.toNat) →
    ∀ thr ∈ (recNetThreads.drop i).take 200, que.skbaddr ≠ thr.skbaddr

end Analysis

namespace NetHardIrq

theorem search_eq_none {α β κ : Type} [DecidableEq κ] {key : α → κ} {key' : β → κ} {win i : ℕ}
    {entries : List β} {q : α} :
    Windows.search key key' win entries i q = none ↔ ∀ t ∈ (entries.drop i).take win, key q ≠ key' t := by
  rw [Windows.search, List.find?_eq_none]
  simp only [decide_eq_true_eq, Ne]

/-- WHERE BOTH SCANS MATCH what is to be matched: on the traces in whose tail no queue event has its packet in the
    window at which the search has stopped. -/
theorem matched_iff {queueData : List RecNetQueue} {threadData : List RecNetThreads}
    {recNetQueue : List Analysis.RecNetQueue} {recNetThreads : List Analysis.RecNetThreads}
    (hqueue : queueData.Pairwise (fun a b => a.ts ≤ b.ts))
    (hthread : threadData.Pairwise (fun a b => a.ts ≤ b.ts))
    (hrecQueue : recNetQueue.Pairwise (fun a b => a.ts ≤ b.ts))
    (hrecThreads : recNetThreads.Pairwise (fun a b => a.ts ≤ b.ts)) :
    (Matched queueData threadData (matchThreadAndQueue queueData threadData) ↔
      TailClear queueData threadData) ∧
    (Analysis.Matched recNetQueue recNetThreads (Analysis.updateRecNetQueue recNetQueue recNetThreads) ↔
      Analysis.TailClear recNetQueue recNetThreads) := by
  constructor
  · refine (Windows.joined_iff hthread hqueue).trans ?_
    simp only [search_eq_none]
    rfl
  · refine (Windows.joined_iff hrecThreads hrecQueue).trans ?_
    simp only [search_eq_none]
    rfl

/-- A packet that is read by two threads, and a late one that nobody has read. -/
theorem matched_iff_tail : Matched [⟨10, 0, 7, []⟩, ⟨40, 0, 8, []⟩] [⟨5, 0, 8⟩, ⟨20, 1, 7⟩, ⟨30, 2, 7⟩]
    [some ⟨20, 1, 7⟩, none] := by
  have h := (@matched_iff [⟨10, 0, 7, []⟩, ⟨40, 0, 8, []⟩] [⟨5, 0, 8⟩, ⟨20, 1, 7⟩, ⟨30, 2, 7⟩] [] []
    (by decide) (by decide) .nil .nil).1
  have hclear : TailClear [⟨10, 0, 7, []⟩, ⟨40, 0, 8, []⟩] [⟨5, 0, 8⟩, ⟨20, 1, 7⟩, ⟨30, 2, 7⟩] := by
    unfold TailClear
    decide
  have heq : matchThreadAndQueue [⟨10, 0, 7, []⟩, ⟨40, 0, 8, []⟩] [⟨5, 0, 8⟩, ⟨20, 1, 7⟩, ⟨30, 2, 7⟩] =
      [some ⟨20, 1, 7⟩, none] := by decide
  exact heq ▸ h.mpr hclear

/-- An event after all thread events is matched with one before it. -/
theorem matched_not_late :
    (¬ Matched [⟨10, 0, 7, []⟩] [⟨5, 0, 7⟩] (matchThreadAndQueue [⟨10, 0, 7, []⟩] [⟨5, 0, 7⟩])) ∧
    ¬ Analysis.Matched [⟨10, 7, 0, [], 0⟩] [⟨5, 0, 1, 1, 7⟩]
      (Analysis.updateRecNetQueue [⟨10, 7, 0, [], 0⟩] [⟨5, 0, 1, 1, 7⟩]) := by
  refine ⟨fun h => ?_, fun h => ?_⟩
  · exact absurd h.eq (by decide)
  · exact absurd h.eq (by decide)

end NetHardIrq
end OeAware

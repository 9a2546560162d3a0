import Mathlib.Data.Rat.Floor
import OeAware.Analysis.NetHirqView
import OeAware.Analysis.NumaView
import OeAware.Analysis.SmcDView
import OeAware.Analysis.XcallView

/-! @src src/plugin/scenario/analysis | name:the reports of the analysis instances | scheme:isolation

    A report should be a function of its topic's own parameters and of the data received since the topic
    was opened. Three of the instances keep everything by topic and see to it themselves; the other
    four have it only as long as their callers leave the shared members to one session at a time. -/

namespace OeAware
open Schemes

/-- The analysis instances; `D` and `F` are `double` and `float`. -/
inductive AnalysisKind where
  | numa
  | xcall
  | smcD
  | netHirq
  | hugePage (riscv : Bool)
  | dynamicSmt
  | dockerBurst (hostCpuNum : Int32)

namespace AnalysisKind
variable (D F : Type) [Double D] [Double F] (fixed : F → Str)

/-- What a build for the processor counts. -/
def tlb (riscv : Bool) : TlbKind D := if riscv then riscvTlbKind else tlbKind

def toInstance : AnalysisKind → AnalysisInstance
  | numa => numaAnalysis D
  | xcall => xcallAnalysis D
  | smcD => smcDAnalysis D
  | netHirq => netHirqAnalysis F fixed
  | hugePage riscv => (hugePageAnalysis (tlb D riscv)).toInstance
  | dynamicSmt => (dynamicSmtAnalysis D).toInstance
  | dockerBurst hostCpuNum => (dockerCoordinationBurstAnalysis D hostCpuNum).toInstance

/-- The calls that leave each session to itself. -/
def Allowed : (i : AnalysisKind) → (i.toInstance D F fixed).service.Condition
  | numa => NumaAnalysis.Allowed D
  | xcall => XcallAnalysis.Allowed D
  | smcD => SmcDAnalysis.Allowed D
  | netHirq => NetHirqAnalysis.Allowed F fixed
  | hugePage riscv => (hugePageRules (tlb D riscv)).Allowed
  | dynamicSmt => (dynamicSmtRules D).Allowed
  | dockerBurst hostCpuNum => (dockerCoordinationBurstRules D hostCpuNum).Allowed

/-- What the reports of a topic depend on. -/
def view : (i : AnalysisKind) → (i.toInstance D F fixed).service.View (i.Allowed D F fixed)
  | numa => NumaAnalysis.view D
  | xcall => XcallAnalysis.view D
  | smcD => SmcDAnalysis.view D
  | netHirq => NetHirqAnalysis.view F fixed
  | hugePage riscv => (hugePageRules (tlb D riscv)).view
  | dynamicSmt => (dynamicSmtRules D).view
  | dockerBurst hostCpuNum => (dockerCoordinationBurstRules D hostCpuNum).view

end AnalysisKind

/-! ### Samples -/

/-- Exact numbers in place of `double`, read and printed as whole ones. -/
instance sampleDouble : Double ℚ where
  ofInt n := n
  add := (· + ·)
  sub := (· - ·)
  mul := (· * ·)
  div := (· / ·)
  lt a b := decide (a < b)
  le a b := decide (a ≤ b)
  toStr q := str (toString q.floor)
  atof s := atoi s

namespace AnalysisKind

/-- A topic of `hugepage` that is opened, and counts that come for it. -/
def sampleHuge : Str × Str := (str "hugepage", str "t:1,threshold1:5")

abbrev hugeService : Service (Str × Str) Str :=
  ((hugePage false).toInstance ℚ ℚ Double.toStr).service

def sampleOpened : hugeService.Traced where
  state := hugeService.after [.openTopic sampleHuge (0, ())]
  sessions := Function.update (fun _ => none) (hugeService.key sampleHuge)
    (some [.openTopic sampleHuge (0, ())])

def sampleCounts : hugeService.Call := .feed ⟨str "l1d_tlb", [100, 20]⟩

def sampleCounted : hugeService.Traced :=
  ⟨hugeService.step sampleOpened.state sampleCounts, hugeService.sessionsStep sampleOpened sampleCounts⟩

/-- Two topics of `numa`, to be reported after 100 seconds and after one. -/
def sampleLong : Str × Str := (str "numa_analysis", str "t:100")
def sampleShort : Str × Str := (str "numa_analysis", str "t:1")

abbrev sampleService : Service (Str × Str) Str := (toInstance ℚ ℚ Double.toStr numa).service

def sampleOpen (topic : Str × Str) : sampleService.Call := .openTopic topic ⟨0, []⟩

/-- Both are open. -/
def sampleTwo : sampleService.Traced where
  state := sampleService.after [sampleOpen sampleLong, sampleOpen sampleShort]
  sessions := Function.update (Function.update (fun _ => none)
    (sampleService.key sampleLong) (some [sampleOpen sampleLong]))
    (sampleService.key sampleShort) (some [sampleOpen sampleShort])

theorem sampleTwo_runs : sampleService.Uses (fun _ _ _ => True) sampleTwo := by
  have h1 : sampleService.Uses (fun _ _ _ => True)
      ⟨sampleService.after [sampleOpen sampleLong], Function.update (fun _ => none)
        (sampleService.key sampleLong) (some [sampleOpen sampleLong])⟩ :=
    .next (a := sampleOpen sampleLong) .start trivial rfl
  exact .next (a := sampleOpen sampleShort) h1 trivial rfl

theorem sampleTwo_keys (k : Str) : sampleTwo.isOpen k = true ↔
    k ∈ [sampleService.key sampleLong, sampleService.key sampleShort] := by
  rw [List.mem_pair, or_comm]
  simp only [Service.Traced.isOpen, sampleTwo]
  by_cases hs : k = sampleService.key sampleShort
  · rw [hs, Function.update_self]
    exact ⟨fun _ => .inl rfl, fun _ => rfl⟩
  · rw [Function.update_of_ne hs]
    by_cases hl : k = sampleService.key sampleLong
    · rw [hl, Function.update_self]
      exact ⟨fun _ => .inr rfl, fun _ => rfl⟩
    · rw [Function.update_of_ne hl]
      exact iff_of_false Bool.false_ne_true (not_or.mpr ⟨hs, hl⟩)

end AnalysisKind
end OeAware

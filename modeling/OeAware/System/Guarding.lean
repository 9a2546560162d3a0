import OeAware.Manager.Alternating
import OeAware.System.Threads

/-! @src src/plugin_mgr/event/enable_handler.cpp, disable_handler.cpp, instance_run_handler.cpp |
    name:EnableHandler, DisableHandler | scheme:state-machine

    The manager thread looks at `enabled`, then sends its message; the scheduler thread handles
    whatever lies before it in the queue first. In every interleaving in which the message finds the
    instance as the manager has seen it, the calls on each interface alternate.

        manager     enabled? ──no──▶ push ENABLED ─ ─ ─ ─ ─ ─ ─ ─ ─ ╮
        scheduler              SUBSCRIBE ──▶ Enable (1st)    ENABLED ──▶ Enable (2nd) -/

namespace OeAware
open Schemes

/-- IN TURN: over every run of the server in which `ENABLED` and `DISABLED` messages still find what
    their handlers saw, `Enable` is only called on a disabled and `Disable` only on an enabled
    instance; the calls on each interface alternate, and `enabled` says what the latest one was. -/
theorem calls_alternate {reg : Register} {s : System}
    (h : SystemRuns reg (System.Lifted reg GuardsHold) s) :
    TogglesInTurn s.state.calls ∧
    ∀ p, Alternating (toggles p s.state.calls) ∧ s.state.enabled p = isOn p s.state.calls := by
  have ht := toggled_runs (System.state_runs (fun _ _ hok => hok) h)
  exact ⟨ht.inTurn, fun p => ⟨alternating_toggles p _ ht.inTurn, ht.enabled p⟩⟩

/-- `LOAD`, then `ENABLED` of `i` up to the point where the handler has made its message. -/
def enabling : List Act :=
  [.internal (.load (str "a.so")), .manage sampleOut, .internal (.enable (str "i")),
    .manage sampleOut]

/-- `i` is enabled by the manager, and a subscription finds it enabled. -/
theorem calls_alternate_enabled :
    ∃ s, SystemRuns noCodecs (System.Lifted noCodecs GuardsHold) s ∧
      s.state.subs (sampleTopic "i").getType = [str "j"] ∧
      toggles 0 s.state.calls = [true] ∧ s.state.enabled 0 = isOn 0 s.state.calls := by
  have h : SystemRuns noCodecs (System.Lifted noCodecs GuardsHold) _ :=
    Runs.of_runAll (System.Lifted noCodecs GuardsHold)
      (enabling ++ [.push, .plugin 1 (.subscribe (sampleTopic "i")), .handle accepting 0,
        .finish sampleOut, .handle accepting 0]) .start rfl
  exact ⟨_, h, by decide, by decide, ((calls_alternate h).2 0).2⟩

/-- A subscription that is queued between the look at `enabled` and the message enables `i`, and the
    message enables it again. -/
theorem calls_not_alternate :
    ∃ s, SystemRuns noCodecs (fun _ _ => True) s ∧ ¬ TogglesInTurn s.state.calls ∧
      toggles 0 s.state.calls = [true, true] ∧ ¬ Alternating (toggles 0 s.state.calls) := by
  have h : SystemRuns noCodecs (fun _ _ => True) _ :=
    Runs.of_runAll (fun _ _ => True)
      (enabling ++ [.plugin 1 (.subscribe (sampleTopic "i")), .push, .handle accepting 0,
        .handle accepting 0]) .start rfl
  refine ⟨_, h, ?_, by decide, by decide⟩
  intro hc
  have := hc.1
  revert this
  decide

end OeAware

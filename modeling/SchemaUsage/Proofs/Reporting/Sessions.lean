import SchemaUsage.Proofs.Reporting.Batching
import SchemaUsage.Reporting.Recorder

/-!
# Runs of a recorder

About `UsageRecorder`, step by step. A step of a recorder offers its batcher one thing at most, so
that a run of the recorder is a run of its batcher: the reports tell what the batches do, and what
is answered with `recorded` is what the batcher takes in. The results of sending are told and
otherwise not looked at.

* `startedBehind` and `Action.completes` say which executions the steps of a run start and complete,
  by these steps alone. `recorded` are those of them that the recorder has answered so.
* `Told` is what a report tells of an execution apart from the times.

Results:
- `Session.act_cases`, `Session.act_status`: all that a step can do and answer.
- `Session.run_follows`: a run of a recorder is a run of its batcher.
- `Session.run_alike`: nothing depends on the sender.
-/

namespace SchemaUsage.Reporting

open SchemaUsage.Usage SchemaUsage.Number

/-! ## What is told of an execution -/

/-- What a report tells of an execution, apart from the times. -/
structure Told where
  key : String
  metadata : Option Metadata
  ok : Bool
  errorsTotal : Nat
  errors : List ExecutionError
  deriving DecidableEq

/-- What is told in a report. -/
def ReportedOperation.told (o : ReportedOperation) : Told :=
  ⟨o.operationKey, o.metadata, o.execution.ok, o.execution.errorsTotal, o.execution.errors⟩

/-- What will be told of an execution that waits to be reported. -/
def RecordedExecution.told (e : RecordedExecution) : Told := (e.reported 0).told

/-- What a report tells of its executions. -/
def Report.told (report : Report) : List Told := report.operations.map ReportedOperation.told

namespace Recorder

/-! ## What a run completes -/

/-- An execution that has been started, apart from the time. -/
structure Started where
  operation : UsageRecord
  client : Option ClientInfo

/-- A completed execution, with the draw that may leave it out. -/
structure Completed where
  operation : UsageRecord
  client : Option ClientInfo
  outcome : Outcome
  draw : Bool

/-- **What is to be told of a completed execution**: it is ok if its outcome is, and has no
errors. -/
def Completed.told (c : Completed) : Told where
  key := c.operation.key
  metadata := c.client.map fun client => ⟨some client⟩
  ok := c.outcome.ok && c.outcome.errors.isEmpty
  errorsTotal := c.outcome.errors.length
  errors := c.outcome.errors.map OutcomeError.reported

/-- The started executions behind a step, given those before it. -/
def Action.note (started : List (String × Started)) : Action → List (String × Started)
  | .collect name operation client => (name, ⟨operation, client⟩) :: started
  | .complete name _ _ => started.filter fun entry => entry.1 != name
  | .advance _ => started
  | .dispose => started

/-- The started executions behind the steps of a run. -/
def startedBehind (actions : List Action) : List (String × Started) :=
  actions.foldl Action.note []

/-- The execution that a step completes, if it has been started. -/
def Action.completes (started : List (String × Started)) : Action → Option Completed
  | .complete name outcome draw => (started.lookup name).map fun execution =>
      ⟨execution.operation, execution.client, outcome, draw⟩
  | _ => none

/-- Whether a step disposes of the recorder. -/
def Action.isDispose : Action → Bool
  | .dispose => true
  | _ => false

/-- The executions that the steps of a run complete, step by step. -/
def completions (started : List (String × Started)) : List Action → List (Option Completed)
  | [] => []
  | action :: actions => action.completes started :: completions (action.note started) actions

variable {σ ε : Type}

/-- The reports that a step has sent. -/
def Shown.reports (shown : Shown ε) : List Report := shown.sent.map Sent.report

/-- What a step shows apart from the results of sending. -/
def Shown.told (shown : Shown ε) : Option Status × List Report := (shown.status, shown.reports)

/-- The reports that a run has sent, in the order of its steps. -/
def reports (shown : List (Shown ε)) : List Report := shown.flatMap Shown.reports

/-- The completed execution of a step, if it was answered with `recorded`. -/
def recordedAt (completed : Option Completed) (shown : Shown ε) : List Completed :=
  if shown.status = some .recorded then completed.toList else []

/-- **The executions that were answered with `recorded`**, in the order of their completion. -/
def recorded (started : List (String × Started)) (actions : List Action)
    (shown : List (Shown ε)) : List Completed :=
  (List.zipWith recordedAt (completions started actions) shown).flatten

theorem reports_cons (first : Shown ε) (later : List (Shown ε)) :
    reports (first :: later) = first.reports ++ reports later :=
  List.flatMap_cons

theorem recorded_cons (started : List (String × Started)) (action : Action)
    (actions : List Action) (first : Shown ε) (later : List (Shown ε)) :
    recorded started (action :: actions) (first :: later) =
      recordedAt (action.completes started) first ++
        recorded (action.note started) actions later := by
  rw [recorded, completions, List.zipWith_cons_cons, List.flatten_cons]
  rfl

/-! ## Sending -/

theorem sendAll_reports (send : Send σ ε) (reports : List Report) (s : σ) :
    (sendAll send reports s).1.map Sent.report = reports := by
  induction reports generalizing s with
  | nil => rfl
  | cons report reports ih =>
    rw [sendAll]
    exact congrArg (report :: ·) (ih _)

theorem forward_reports (r : Recorder σ ε) (status : Option Status)
    (step : Batcher.Shown RecordedExecution × Batcher RecordedExecution) (s : σ) :
    (r.forward status step s).1.reports =
      step.1.flushed.map { r with batcher := step.2 }.reportOn :=
  sendAll_reports _ _ _

section Complete

variable {r : Recorder σ ε} {draw : Bool}

/-- An execution that is not left out is offered to the batcher. -/
theorem complete_taken (included : r.rate.includes draw = true) (p : Pending) (o : Outcome)
    (s : σ) :
    r.complete p o draw s =
      let step := r.batcher.add (p.finished r.batcher.now o)
      r.forward (some (statusOf step.1.accepted)) step s :=
  if_pos included

theorem complete_left (excluded : ¬ r.rate.includes draw = true) (p : Pending) (o : Outcome)
    (s : σ) : r.complete p o draw s = ({ status := some .sampledOut }, r, s) :=
  if_neg excluded

end Complete

theorem statusOf_add (b : Batcher RecordedExecution) (item : RecordedExecution) :
    statusOf (b.add item).1.accepted = if b.closed then .dropped else .recorded := by
  rw [b.add_accepted item]
  cases b.closed <;> rfl

theorem takenAt_add (b : Batcher RecordedExecution) (item : RecordedExecution) :
    Batcher.takenAt (.add item) (b.act (.add item)).1 = if b.closed then [] else [item] := by
  rw [Batcher.takenAt, Batcher.act, b.add_accepted item]
  cases b.closed <;> rfl

theorem told_reportOn (r : Recorder σ ε) (batch : List (Stamped RecordedExecution)) :
    (r.reportOn batch).told = batch.map fun s => s.item.told := by
  simp [Report.told, reportOn, Report.assemble, RecordedExecution.told, RecordedExecution.reported,
    ReportedOperation.told]

namespace Session

/-! ## Steps -/

/-- The executions that a session has started. -/
def started (s : Session σ ε) : List (String × Started) :=
  s.pending.map fun entry => (entry.1, ⟨entry.2.operation, entry.2.client⟩)

/-- **What a step offers to the batcher**, if anything. -/
def offered (s : Session σ ε) : Action → Option (Batcher.Action RecordedExecution)
  | .collect _ _ _ => none
  | .complete name outcome draw =>
    if s.recorder.rate.includes draw then
      (s.pending.lookup name).map fun p => .add (p.finished s.recorder.batcher.now outcome)
    else none
  | .advance time => some (.advance time)
  | .dispose => some .shutDown

theorem lookup_started (s : Session σ ε) (name : String) :
    s.started.lookup name =
      (s.pending.lookup name).map fun p => ⟨p.operation, p.client⟩ := by
  unfold started
  induction s.pending with
  | nil => rfl
  | cons entry entries ih =>
    rw [List.map_cons, List.lookup_cons, List.lookup_cons]
    cases name == entry.1 with
    | true => rfl
    | false => exact ih

section Complete

variable {s : Session σ ε} {name : String} {outcome : Outcome} {draw : Bool}

theorem act_unknown (unknown : s.pending.lookup name = none) :
    s.act (.complete name outcome draw) = ({}, s) := by
  simp only [act, unknown]

/-- The session behind the completion of an execution. -/
theorem act_known {p : Pending} (known : s.pending.lookup name = some p) :
    s.act (.complete name outcome draw) =
      let completed := s.recorder.complete p outcome draw s.outside
      (completed.1, ⟨completed.2.1, s.pending.filter fun entry => entry.1 != name,
        completed.2.2⟩) := by
  simp only [act, known]

end Complete

theorem completes_started (s : Session σ ε) (name : String) (outcome : Outcome) (draw : Bool) :
    (Action.complete name outcome draw).completes s.started =
      (s.pending.lookup name).map fun p => ⟨p.operation, p.client, outcome, draw⟩ := by
  rw [Action.completes, lookup_started, Option.map_map]
  rfl

/-- **All that a step can do**: nothing of consequence, or what it offers to the batcher, whose
batches are reported. -/
theorem act_cases (s : Session σ ε) (action : Action) :
    s.offered action = none ∧ (s.act action).1.reports = [] ∧
      (s.act action).2.recorder = s.recorder ∨
    ∃ step, s.offered action = some step ∧
      (s.act action).1.reports =
        (s.recorder.batcher.act step).1.flushed.map (s.act action).2.recorder.reportOn ∧
      (s.act action).2.recorder =
        { s.recorder with batcher := (s.recorder.batcher.act step).2 } := by
  cases action with
  | collect name operation client => exact .inl ⟨rfl, rfl, rfl⟩
  | complete name outcome draw =>
    cases known : s.pending.lookup name with
    | none =>
      rw [act_unknown known]
      exact .inl ⟨by simp only [offered, known, Option.map_none, ite_self], rfl, rfl⟩
    | some p =>
      rw [act_known known]
      by_cases included : s.recorder.rate.includes draw = true
      · rw [complete_taken included, offered, if_pos included, known]
        exact .inr ⟨_, rfl, forward_reports _ _ _ _, rfl⟩
      · rw [complete_left included]
        exact .inl ⟨if_neg included, rfl, rfl⟩
  | advance time => exact .inr ⟨_, rfl, forward_reports _ _ _ _, rfl⟩
  | dispose => exact .inr ⟨_, rfl, forward_reports _ _ _ _, rfl⟩

theorem act_started (s : Session σ ε) (action : Action) :
    (s.act action).2.started = action.note s.started := by
  cases action with
  | complete name outcome draw =>
    have filtered : (Action.complete name outcome draw).note s.started =
        (s.pending.filter fun entry => entry.1 != name).map
          fun entry => (entry.1, ⟨entry.2.operation, entry.2.client⟩) := List.filter_map
    cases known : s.pending.lookup name with
    | none =>
      -- nothing is completed and nothing has the name, so that noting the step changes nothing
      have all : (s.pending.filter fun entry => entry.1 != name) = s.pending :=
        List.filter_eq_self.mpr fun entry mem => by
          have other := List.lookup_eq_none_iff.mp known entry mem
          rwa [bne, Bool.beq_comm]
      rw [act_unknown known, filtered, all]
      rfl
    | some p =>
      rw [act_known known, filtered]
      rfl
  | _ => rfl

/-- What a recorder answers to a completion with a certain draw. -/
def answer (s : Session σ ε) (draw : Bool) : Status :=
  if s.recorder.rate.includes draw then
    if s.recorder.batcher.closed then .dropped else .recorded
  else .sampledOut

/-- **What a step answers**: it does if it completes an execution. -/
theorem act_status (s : Session σ ε) (action : Action) :
    (s.act action).1.status =
      (action.completes s.started).map fun completed => s.answer completed.draw := by
  cases action with
  | complete name outcome draw =>
    rw [completes_started]
    cases known : s.pending.lookup name with
    | none =>
      rw [act_unknown known]
      rfl
    | some p =>
      rw [act_known known]
      by_cases included : s.recorder.rate.includes draw = true
      · have answered : s.answer draw = _ := if_pos included
        rw [complete_taken included]
        exact congrArg some ((statusOf_add _ _).trans answered.symm)
      · have answered : s.answer draw = _ := if_neg included
        rw [complete_left included]
        exact congrArg some answered.symm
  | _ => rfl

/-- **What the batcher takes in is what is answered with `recorded`.** -/
theorem act_recorded (s : Session σ ε) (action : Action) :
    (recordedAt (action.completes s.started) (s.act action).1).map Completed.told =
      match s.offered action with
      | none => []
      | some step => (Batcher.takenAt step (s.recorder.batcher.act step).1).map
          RecordedExecution.told := by
  unfold recordedAt
  rw [act_status]
  cases action with
  | complete name outcome draw =>
    rw [completes_started]
    cases known : s.pending.lookup name with
    | none => simp [offered, known]
    | some p =>
      by_cases included : s.recorder.rate.includes draw = true
      · have same : (⟨p.operation, p.client, outcome, draw⟩ : Completed).told =
            (p.finished s.recorder.batcher.now outcome).told := rfl
        cases closed : s.recorder.batcher.closed with
        | true => simp [offered, known, answer, included, closed, takenAt_add]
        | false => simp [offered, known, answer, included, closed, takenAt_add, same]
      · simp [offered, answer, included]
  | _ => rfl

/-! ## Runs -/

theorem run_cons (s : Session σ ε) (action : Action) (actions : List Action) :
    s.run (action :: actions) =
      ((s.act action).1 :: ((s.act action).2.run actions).1, ((s.act action).2.run actions).2) :=
  rfl

theorem run_append (s : Session σ ε) (before after : List Action) :
    s.run (before ++ after) =
      ((s.run before).1 ++ ((s.run before).2.run after).1, ((s.run before).2.run after).2) := by
  induction before generalizing s with
  | nil => rfl
  | cons action before ih => rw [List.cons_append, run_cons, run_cons, ih, List.cons_append]

theorem length_run (s : Session σ ε) (actions : List Action) :
    (s.run actions).1.length = actions.length := by
  induction actions generalizing s with
  | nil => rfl
  | cons action actions ih => rw [run_cons, List.length_cons, List.length_cons, ih]

/-- What the steps of a run offer to the batcher. -/
def offers (s : Session σ ε) : List Action → List (Batcher.Action RecordedExecution)
  | [] => []
  | action :: actions => (s.offered action).toList ++ (s.act action).2.offers actions

/-- What a batch of the batcher tells. -/
def toldOf (batch : List (Stamped RecordedExecution)) : List Told := batch.map fun s => s.item.told

/-- **A run of a recorder is a run of its batcher.** The reports tell what the batches do, and what
is answered with `recorded` is what the batcher takes in. -/
structure Follows (s : Session σ ε) (actions : List Action) : Prop where
  batcher : (s.run actions).2.recorder.batcher =
    (s.recorder.batcher.run (s.offers actions)).2
  reports : (reports (s.run actions).1).map Report.told =
    (Batcher.flushed (s.recorder.batcher.run (s.offers actions)).1).map toldOf
  recorded : (recorded s.started actions (s.run actions).1).map Completed.told =
    (Batcher.taken (s.offers actions) (s.recorder.batcher.run (s.offers actions)).1).map
      RecordedExecution.told

theorem map_told_reportOn (r : Recorder σ ε) (batches : List (List (Stamped RecordedExecution))) :
    (batches.map r.reportOn).map Report.told = batches.map toldOf := by
  rw [List.map_map]
  exact List.map_congr_left fun batch _ => told_reportOn r batch

theorem run_follows (s : Session σ ε) (actions : List Action) : Follows s actions := by
  -- the two runs need not have the same length: a step without an offer is none of the batcher's
  induction actions generalizing s with
  | nil => exact ⟨rfl, rfl, rfl⟩
  | cons action actions ih =>
    obtain ⟨batcher, told, answered⟩ := ih (s.act action).2
    rw [act_started] at answered
    have first := s.act_recorded action
    rcases s.act_cases action with ⟨quiet, silent, same⟩ | ⟨step, offer, sent, behind⟩
    · have offers : s.offers (action :: actions) = (s.act action).2.offers actions := by
        rw [Session.offers, quiet]
        rfl
      rw [quiet] at first
      rw [same] at batcher told answered
      constructor
      · rw [offers, run_cons, batcher]
      · rw [offers, run_cons, reports_cons, silent, List.nil_append, told]
      · rw [offers, run_cons, recorded_cons, List.map_append, first, List.nil_append, answered]
    · have offers : s.offers (action :: actions) = step :: (s.act action).2.offers actions := by
        rw [Session.offers, offer]
        rfl
      rw [offer] at first
      rw [behind] at batcher told answered
      constructor
      · rw [offers, run_cons, batcher, Batcher.run_cons]
      · rw [offers, run_cons, reports_cons, sent, List.map_append, map_told_reportOn, told,
          ← List.map_append, ← Batcher.flushed_cons]
        rfl
      · rw [offers, run_cons, recorded_cons, List.map_append, first, answered, ← List.map_append,
          ← Batcher.taken_cons]
        rfl

theorem shutDown_mem_offers (s : Session σ ε) {actions : List Action}
    (disposed : actions.any Action.isDispose = true) : .shutDown ∈ s.offers actions := by
  induction actions generalizing s with
  | nil => cases disposed
  | cons action actions ih =>
    rw [offers, List.mem_append]
    cases action with
    | dispose => exact .inl List.mem_cons_self
    | _ => exact .inr (ih _ disposed)

theorem run_idle (s : Session σ ε) {actions : List Action}
    (disposed : actions.any Action.isDispose = true) : (s.run actions).2.recorder.batcher.Idle := by
  rw [(s.run_follows actions).batcher]
  exact Batcher.run_idle_of_shutDown (s.shutDown_mem_offers disposed)

end Session

end Recorder

end SchemaUsage.Reporting

import SchemaUsage.Log.Event
import SchemaUsage.Reporting.Batcher
import SchemaUsage.Reporting.Report
import SchemaUsage.Reporting.SampleRate

/-!
# Recorders

Model of `UsageRecorder` with its builder, of `PendingExecution` and of `ReportFlusher`. A recorder
takes the outcomes of executions, leaves some out by its sample rate, batches the rest and hands a
report on each batch to a sender. Its clock counts nanoseconds.

* The sender is a function with a state of its own (`SendReport`). What it answers is logged; the
  items of a report that fails to be sent are gone.
* `Session` runs a recorder: executions are started under a name, and completed under it.

Out of scope: clones of a recorder in use at the same time (see `Reporting.Interleaving` for what
they share), and a wall clock that is set while items wait.
-/

namespace SchemaUsage.Reporting

open SchemaUsage.Usage SchemaUsage.Number

/-- Sends a report (`SendReport`). Failures may depend on a state that each attempt changes. -/
abbrev Send (σ ε : Type) := Report → σ → Except ε Unit × σ

/-- Nanoseconds of a millisecond. -/
def nanosPerMilli : Nat := 1000000

/-! ## Construction -/

/-- How a recorder is set up (`UsageRecorderBuilder`); times are in nanoseconds. -/
structure RecorderSettings (σ ε : Type) where
  rate : Binary := Binary.one
  interval : Nat := 5000 * nanosPerMilli
  capacity : Nat := 25
  send : Option (Send σ ε) := none

/-- Why there is no recorder (`RecorderError`). -/
inductive RecorderError where
  | invalidSampleRate (value : Binary)
  | invalidSendInterval
  | invalidMaxSize
  | missingSender
  deriving Repr, DecidableEq

/-- The wording of the error. -/
def RecorderError.message : RecorderError → String
  | invalidSampleRate value => SampleRate.outOfRange value
  | invalidSendInterval => "send interval must be greater than zero"
  | invalidMaxSize => "max size must be greater than zero"
  | missingSender => "a send function is required"

/-- A recorder (`UsageRecorder`): `epoch` is the time of the Unix epoch at which its clock shows
zero. -/
structure Recorder (σ ε : Type) where
  rate : SampleRate
  send : Send σ ε
  epoch : Nat
  batcher : Batcher RecordedExecution

/-- **Sets a recorder up** (`UsageRecorderBuilder::build`). -/
def RecorderSettings.recorder {σ ε : Type} (s : RecorderSettings σ ε) (epoch : Nat) :
    Except RecorderError (Recorder σ ε) :=
  match SampleRate.ofValue? s.rate with
  | none => .error (.invalidSampleRate s.rate)
  | some rate =>
    if s.interval = 0 then .error .invalidSendInterval
    else if s.capacity = 0 then .error .invalidMaxSize
    else
      match s.send with
      | none => .error .missingSender
      | some send => .ok ⟨rate, send, epoch, .start s.capacity s.interval⟩

namespace Recorder

variable {σ ε : Type}

/-! ## Reports -/

/-- The timestamp of an item in a report made at `now`: the wall clock's milliseconds
(`unix_millis`), less those that the item has waited. -/
def timestamp (epoch now addedAt : Nat) : Nat :=
  (epoch + now) / nanosPerMilli - (now - addedAt) / nanosPerMilli

/-- The report on a batch (`ReportFlusher::on_flush`). -/
def reportOn (r : Recorder σ ε) (batch : List (Stamped RecordedExecution)) : Report :=
  Report.assemble (batch.map fun s => (s.item, timestamp r.epoch r.batcher.now s.addedAt))

/-- A report that was handed to the sender, and what came of it. -/
structure Sent (ε : Type) where
  report : Report
  result : Except ε Unit

/-- Hands reports to the sender one after another. -/
def sendAll (send : Send σ ε) : List Report → σ → List (Sent ε) × σ
  | [], s => ([], s)
  | report :: reports, s =>
    let (result, s) := send report s
    let (others, s) := sendAll send reports s
    (⟨report, result⟩ :: others, s)

/-- What is told when a batch is taken for a report. -/
def Sent.takenEvent (sent : Sent ε) : Log.Event :=
  ⟨.debug, "hive_usage_sdk::agent::batcher",
    "flushing " ++ toString sent.report.size ++ " buffered items"⟩

/-- What is told of the result of sending. -/
def Sent.resultEvent (describe : ε → String) (sent : Sent ε) : Log.Event :=
  match sent.result with
  | .ok () => ⟨.debug, "hive_usage_sdk::agent::recorder",
      "reported " ++ toString sent.report.size ++ " operations"⟩
  | .error e => ⟨.error, "hive_usage_sdk::agent::recorder",
      "failed to send usage report: " ++ describe e⟩

/-! ## Steps -/

/-- An execution that has been started (`PendingExecution`). -/
structure Pending where
  operation : UsageRecord
  client : Option ClientInfo
  startedAt : Nat
  deriving Repr, DecidableEq

/-- What becomes of a completed execution (`RecordStatus`). -/
inductive Status where
  | recorded
  | sampledOut
  | dropped
  deriving Repr, DecidableEq

/-- Starts an execution (`UsageRecorder::collect`). -/
def collect (r : Recorder σ ε) (operation : UsageRecord) (client : Option ClientInfo) : Pending :=
  ⟨operation, client, r.batcher.now⟩

/-- The record of a started execution with its outcome. -/
def Pending.finished (p : Pending) (now : Nat) (o : Outcome) : RecordedExecution :=
  ⟨p.operation, o.execution (now - p.startedAt), p.client⟩

/-- What a step of a recorder shows: what becomes of the execution that it completes, and the
reports that it sends. -/
structure Shown (ε : Type) where
  status : Option Status := none
  sent : List (Sent ε) := []

/-- Sends the reports on what a step of the batcher has flushed. -/
def forward (r : Recorder σ ε) (status : Option Status)
    (step : Batcher.Shown RecordedExecution × Batcher RecordedExecution) (s : σ) :
    Shown ε × Recorder σ ε × σ :=
  let r := { r with batcher := step.2 }
  let (sent, s) := sendAll r.send (step.1.flushed.map r.reportOn) s
  ({ status := status, sent := sent }, r, s)

/-- What becomes of an execution that the batcher was offered. -/
def statusOf : Option Batcher.Accepted → Status
  | some .no => .dropped
  | _ => .recorded

/-- **Completes an execution** (`PendingExecution::complete`). The draw decides for rates between
the extremes. -/
def complete (r : Recorder σ ε) (p : Pending) (o : Outcome) (draw : Bool) (s : σ) :
    Shown ε × Recorder σ ε × σ :=
  if r.rate.includes draw then
    let step := r.batcher.add (p.finished r.batcher.now o)
    r.forward (some (statusOf step.1.accepted)) step s
  else ({ status := some .sampledOut }, r, s)

/-- Lets time pass. -/
def advance (r : Recorder σ ε) (time : Nat) (s : σ) : Shown ε × Recorder σ ε × σ :=
  r.forward none (r.batcher.advance time) s

/-- **Disposes of the recorder** (`UsageRecorder::dispose`): what is buffered is sent, what comes
later is dropped. -/
def dispose (r : Recorder σ ε) (s : σ) : Shown ε × Recorder σ ε × σ :=
  r.forward none r.batcher.shutDown s

/-! ## Runs -/

/-- A step of a run; started executions carry a name until they are completed. -/
inductive Action where
  | collect (name : String) (operation : UsageRecord) (client : Option ClientInfo)
  | complete (name : String) (outcome : Outcome) (draw : Bool)
  | advance (time : Nat)
  | dispose

/-- A recorder, the executions that have been started, and the state of its sender. -/
structure Session (σ ε : Type) where
  recorder : Recorder σ ε
  pending : List (String × Pending) := []
  outside : σ

namespace Session

/-- One step of a run. Completing what has not been started does nothing. -/
def act (s : Session σ ε) : Action → Shown ε × Session σ ε
  | .collect name operation client =>
    ({}, { s with pending := (name, s.recorder.collect operation client) :: s.pending })
  | .complete name outcome draw =>
    match s.pending.lookup name with
    | none => ({}, s)
    | some p =>
      let (shown, r, outside) := s.recorder.complete p outcome draw s.outside
      (shown, ⟨r, s.pending.filter fun entry => entry.1 != name, outside⟩)
  | .advance time =>
    let (shown, r, outside) := s.recorder.advance time s.outside
    (shown, ⟨r, s.pending, outside⟩)
  | .dispose =>
    let (shown, r, outside) := s.recorder.dispose s.outside
    (shown, ⟨r, s.pending, outside⟩)

/-- What the steps of a run show, and the session behind them. -/
def run (s : Session σ ε) : List Action → List (Shown ε) × Session σ ε
  | [] => ([], s)
  | action :: actions =>
    let (shown, s) := s.act action
    let (others, s) := s.run actions
    (shown :: others, s)

end Session

end Recorder

end SchemaUsage.Reporting

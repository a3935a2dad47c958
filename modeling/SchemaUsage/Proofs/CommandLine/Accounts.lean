import SchemaUsage.Proofs.CommandLine.Collections
import SchemaUsage.Proofs.CommandLine.Replays

/-!
# Every document is accounted for

About the command `report` and its `ReportSummary`. A report replays all of its documents, and its
summary has a place for each: recorded, sampled out or dropped, unless it only asks for the schema.
A document that fails is dropped, and the others go on. What is recorded stands in some report,
whenever the recorder sends and whatever becomes of what it sends.

* A replay is **at work** as long as its recorder takes items and its processor is sound.
* `Books` is what holds of a replay behind some documents, `Accounts` what is left of it in the end.

Results:
- `Books.quiet`: the books stay right when the recorder sends what it holds.
- `Books.document`: a document is entered in the books.
- `Books.paced`: behind all documents, everything that was recorded has been reported.
- `report_accounts`: the same for the command.
-/

namespace SchemaUsage.Reporting

open Usage

theorem Tells.sizes {reports : List Report} {records : List UsageRecord}
    (tells : Tells reports records) : (reports.map Report.size).sum = records.length := by
  obtain ⟨batches, rfl, rfl⟩ := tells
  rw [List.map_map, List.length_map, List.length_flatten]
  rfl

/-- A report on what has been flushed is not empty. -/
theorem Recorder.forward_filled {σ ε : Type} (r : Recorder σ ε) (roomy : r.batcher.Roomy)
    (status : Option Recorder.Status) (action : Batcher.Action RecordedExecution) (s : σ) :
    ∀ report ∈ (r.forward status (r.batcher.act action) s).1.reports, report.size ≠ 0 := by
  intro report mem
  rw [Recorder.forward_reports] at mem
  obtain ⟨batch, flushed, rfl⟩ := List.mem_map.mp mem
  have filled := (Batcher.act_batch_length roomy flushed).1
  simpa [Recorder.reportOn, Report.assemble] using filled

end SchemaUsage.Reporting

namespace SchemaUsage.CommandLine

open Files Graphql Usage Reporting Delivery Number

variable {σ : Type}

/-- A document that cannot be processed. -/
def fails (c : Collector) (source : Source) : Bool := !(ownAnswer c none source).isOk

section Counts

variable {c : Collector} {source : Source} {e : ProcessingError} {answer : Option UsageRecord}

theorem fails_of_error (own : ownAnswer c none source = .error e) : fails c source = true := by
  rw [fails, own]
  rfl

theorem fails_of_ok (own : ownAnswer c none source = .ok answer) : fails c source = false := by
  rw [fails, own]
  rfl

theorem ownRecord_of_error (own : ownAnswer c none source = .error e) :
    ownRecord c none source = none := by
  rw [ownRecord, own]
  rfl

/-- The number of executions that documents stand for. -/
def executions (c : Collector) (documents : List Source) : Nat :=
  (documents.filterMap (ownRecord c none)).length

theorem executions_concat (c : Collector) (documents : List Source) (source : Source) :
    executions c (documents ++ [source]) =
      executions c documents + (ownRecord c none source).toList.length := by
  rw [executions, List.filterMap_append, List.length_append]
  cases record : ownRecord c none source with
  | none => rw [List.filterMap_cons_none record]; rfl
  | some record' => rw [List.filterMap_cons_some record]; rfl

theorem countP_fails_concat (c : Collector) (documents : List Source) (source : Source) :
    (documents ++ [source]).countP (fails c) =
      documents.countP (fails c) + if fails c source then 1 else 0 := by
  rw [List.countP_append, List.countP_singleton]

/-- A document fails, or only asks for the schema, or stands for an execution. -/
theorem one_place (c : Collector) (source : Source) :
    (ownRecord c none source).toList.length + (if fails c source then 1 else 0) +
      (if introspects source then 1 else 0) = 1 := by
  have skipped : introspects source = true ↔ ownAnswer c none source = .ok none :=
    ownAnswer_eq_none_iff.symm
  rcases own : ownAnswer c none source with e | _ | record
  · simp [skipped, own, ownRecord_of_error own, fails_of_error own]
  · simp [skipped, own, ownRecord_eq own, fails_of_ok own]
  · simp [skipped, own, ownRecord_eq own, fails_of_ok own]

/-- **Every document has one place.** -/
theorem length_documents (c : Collector) (documents : List Source) :
    executions c documents + documents.countP (fails c) + documents.countP introspects =
      documents.length := by
  induction documents using List.reverseRecOn with
  | nil => rfl
  | append_singleton documents source ih =>
    have here := one_place c source
    rw [executions_concat, countP_fails_concat, List.countP_append, List.countP_singleton,
      List.length_append, List.length_singleton]
    omega

end Counts

namespace Replay

/-- **A replay at work**: its processor is sound, and its recorder has a certain rate, is open and
has room. -/
structure AtWork (c : Collector) (rate : SampleRate) (r : Replay σ) : Prop where
  sound : r.processor.Sound c
  rate : r.recorder.rate = rate
  opened : r.recorder.batcher.closed = false
  roomy : r.recorder.batcher.Roomy

/-- **The books of a replay** behind some documents. -/
structure Books (c : Collector) (rate : SampleRate) (documents : List Source) (r : Replay σ) :
    Prop where
  executed : r.summary.recorded + r.summary.sampledOut = executions c documents
  dropped : r.summary.dropped = documents.countP (fails c)
  carries : ∃ records, r.Carries records ∧ records.length = r.summary.recorded
  filled : ∀ report ∈ r.reports, report.size ≠ 0
  always : (∀ draw, rate.includes draw = true) → r.summary.sampledOut = 0
  never : (∀ draw, rate.includes draw = false) → r.summary.recorded = 0

variable {c : Collector} {rate : SampleRate} {documents : List Source} {r : Replay σ}
  {source : Source}

theorem AtWork.filled (work : r.AtWork c rate) (books : r.Books c rate documents)
    (status : Option Recorder.Status) (action : Batcher.Action RecordedExecution) :
    ∀ report ∈ (r.after (r.recorder.forward status (r.recorder.batcher.act action)
      r.outside)).reports, report.size ≠ 0 := by
  intro report mem
  rw [reports_after] at mem
  rcases List.mem_append.mp mem with before | here
  · exact books.filled report before
  · exact r.recorder.forward_filled work.roomy status action r.outside report here

/-- **The books stay right when the recorder sends what it holds.** -/
theorem Books.quiet (books : r.Books c rate documents) (work : r.AtWork c rate)
    (action : Batcher.Action RecordedExecution)
    (takes : Batcher.takenAt action (r.recorder.batcher.act action).1 = []) :
    (r.after (r.recorder.forward none (r.recorder.batcher.act action) r.outside)).Books c rate
      documents := by
  obtain ⟨records, carries, length⟩ := books.carries
  have carries' := carries.forward none action [] takes
  rw [List.map_nil, List.append_nil] at carries'
  exact ⟨books.executed, books.dropped, ⟨records, carries', length⟩, work.filled books none action,
    books.always, books.never⟩

theorem AtWork.pause (work : r.AtWork c rate) (time : Nat) : (r.pause time).AtWork c rate :=
  ⟨work.sound, work.rate, (r.recorder.batcher.advance_closed time).trans work.opened,
    Batcher.act_roomy work.roomy (.advance time)⟩

theorem Books.pause (books : r.Books c rate documents) (work : r.AtWork c rate) (time : Nat) :
    (r.pause time).Books c rate documents := books.quiet work (.advance time) rfl

/-- What the books lack behind a document with a record. -/
theorem Books.lacks (books : r.Books c rate documents) {record : UsageRecord}
    (own : ownAnswer c none source = .ok (some record)) :
    r.summary.recorded + r.summary.sampledOut + 1 = executions c (documents ++ [source]) ∧
      r.summary.dropped = (documents ++ [source]).countP (fails c) := by
  rw [executions_concat, ownRecord_eq own, ← books.executed, countP_fails_concat, fails_of_ok own,
    ← books.dropped]
  exact ⟨rfl, rfl⟩

/-- An execution that is included is entered as recorded. -/
theorem Books.record (books : r.Books c rate documents) (work : r.AtWork c rate)
    {record : UsageRecord} (own : ownAnswer c none source = .ok (some record)) {draw : Nat → Bool}
    (included : r.recorder.rate.includes (draw r.summary.total) = true) :
    (r.execute draw record).AtWork c rate ∧
      (r.execute draw record).Books c rate (documents ++ [source]) := by
  obtain ⟨executed, dropped⟩ := books.lacks own
  obtain ⟨item, -, offered, takes⟩ := execute_taken included work.opened record
  obtain ⟨records, carries, length⟩ := books.carries
  rw [offered]
  refine ⟨⟨work.sound, work.rate, (r.recorder.batcher.add_closed item).trans work.opened,
    Batcher.act_roomy work.roomy (.add item)⟩, ?_, dropped,
    ⟨_, carries.forward _ _ _ takes, ?_⟩, work.filled books _ _, books.always, fun never => ?_⟩
  · rw [← executed]
    exact Nat.add_right_comm _ _ _
  · rw [List.length_append, length]
    rfl
  · rw [work.rate, never] at included
    cases included

/-- An execution that is not included is entered as sampled out. -/
theorem Books.leave (books : r.Books c rate documents) (work : r.AtWork c rate)
    {record : UsageRecord} (own : ownAnswer c none source = .ok (some record)) {draw : Nat → Bool}
    (excluded : ¬ r.recorder.rate.includes (draw r.summary.total) = true) :
    (r.execute draw record).AtWork c rate ∧
      (r.execute draw record).Books c rate (documents ++ [source]) := by
  obtain ⟨executed, dropped⟩ := books.lacks own
  have left : r.execute draw record =
      { r with summary := r.summary.count .sampledOut } := by
    rw [Replay.execute, Recorder.complete_left excluded, Replay.after]
    simp
  rw [left]
  refine ⟨⟨work.sound, work.rate, work.opened, work.roomy⟩, executed, dropped, books.carries,
    books.filled, fun always => ?_, books.never⟩
  rw [work.rate, always] at excluded
  exact absurd rfl excluded

/-- **A document is entered in the books.** -/
theorem Books.document (books : r.Books c rate documents) (work : r.AtWork c rate)
    (source : Source) (draw : Nat → Bool) :
    (r.document draw source).AtWork c rate ∧
      (r.document draw source).Books c rate (documents ++ [source]) := by
  obtain ⟨path, text⟩ := source
  rw [Replay.document]
  cases own : ownAnswer c none (path, text) with
  | error e =>
    rw [work.sound.process_eq_error (ownAnswer_eq_processText.symm.trans own)]
    refine ⟨⟨work.sound, work.rate, work.opened, work.roomy⟩, ?_, ?_, books.carries, books.filled,
      books.always, books.never⟩
    · rw [executions_concat, ownRecord_of_error own, ← books.executed]
      rfl
    · rw [countP_fails_concat, fails_of_error own, ← books.dropped]
      rfl
  | ok answer =>
    obtain ⟨shared, q, answered, rfl, sound⟩ :=
      work.sound.process_eq_ok (ownAnswer_eq_processText.symm.trans own)
    rw [answered]
    have work' : AtWork c rate { r with processor := q } :=
      ⟨sound, work.rate, work.opened, work.roomy⟩
    cases shared with
    | none =>
      refine ⟨⟨sound, work.rate, work.opened, work.roomy⟩, ?_, ?_, books.carries, books.filled,
        books.always, books.never⟩
      · rw [executions_concat, ownRecord_eq own, ← books.executed]
        rfl
      · rw [countP_fails_concat, fails_of_ok own, ← books.dropped]
        rfl
    | some shared =>
      have books' : Books c rate documents { r with processor := q } :=
        ⟨books.executed, books.dropped, books.carries, books.filled, books.always, books.never⟩
      by_cases included : r.recorder.rate.includes (draw r.summary.total) = true
      · exact books'.record work' own included
      · exact books'.leave work' own included

/-- **What is left of the books in the end.** -/
structure Accounts (c : Collector) (rate : SampleRate) (documents : List Source) (r : Replay σ) :
    Prop where
  /-- Every document has a place. -/
  total : r.summary.recorded + r.summary.sampledOut + r.summary.dropped +
    documents.countP introspects = documents.length
  /-- The documents that fail are dropped, and no others. -/
  dropped : r.summary.dropped = documents.countP (fails c)
  /-- What is recorded has been reported. -/
  sizes : (r.reports.map Report.size).sum = r.summary.recorded
  /-- A rate of one leaves nothing out. -/
  always : Binary.one.le rate.value = true → r.summary.sampledOut = 0
  /-- A rate of zero records nothing, and sends nothing. -/
  never : rate.value.isZero = true → r.summary.recorded = 0 ∧ r.reports = []

/-- **Behind all documents, everything that was recorded has been reported.** -/
theorem Books.close (books : r.Books c rate documents) (work : r.AtWork c rate) :
    (r.after (r.recorder.dispose r.outside)).Accounts c rate documents := by
  have closed : (r.after (r.recorder.dispose r.outside)).Books c rate documents :=
    books.quiet work .shutDown rfl
  obtain ⟨records, ⟨told, tells, all⟩, length⟩ := closed.carries
  -- nothing is held behind a shutdown
  have told_eq : told ++ [] = records := all
  rw [List.append_nil] at told_eq
  subst told_eq
  have sizes := tells.sizes.trans length
  refine ⟨?_, closed.dropped, sizes, fun one => closed.always fun draw => if_pos one,
    fun zero => ?_⟩
  · rw [closed.executed, closed.dropped]
    exact length_documents c documents
  · have none := closed.never (SampleRate.includes_zero zero)
    refine ⟨none, List.eq_nil_iff_forall_not_mem.mpr fun report sent => ?_⟩
    rw [none] at sizes
    exact closed.filled report sent
      (List.sum_eq_zero_iff.mp sizes _ (List.mem_map_of_mem sent))

/-- **A replay accounts for all documents**, those behind it and those that follow. -/
theorem Books.paced (books : r.Books c rate documents) (work : r.AtWork c rate)
    (draw : Nat → Bool) (pauses : Nat → Nat) (sources : List Source) :
    (r.paced draw pauses sources).Accounts c rate (documents ++ sources) := by
  induction sources generalizing r documents pauses with
  | nil =>
    rw [List.append_nil]
    exact (books.pause work (pauses 0)).close (work.pause (pauses 0))
  | cons source sources ih =>
    obtain ⟨work', books'⟩ :=
      (books.pause work (pauses 0)).document (work.pause (pauses 0)) source draw
    have later := ih books' work' fun n => pauses (n + 1)
    rw [List.append_assoc] at later
    exact later

end Replay

/-! ## The command -/

end SchemaUsage.CommandLine

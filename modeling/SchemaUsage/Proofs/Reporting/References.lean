import SchemaUsage.Proofs.Reporting.Assembly

/-!
# References within a report

About `assemble_report`. The operations of a report name what they have executed by its key, and the
map of the report holds text, name and usage under that key. Both are filled in one pass over the
buffered executions, which may repeat a key any number of times, also with different records. Still
no key of an operation leads nowhere, no entry of the map is left unused, and which of several
records is kept depends on their order alone.

* `ReportedOperation.Carries` says what an operation takes over from an execution.

Results:
- `nodup_keys_assemble`: no key is mapped twice.
- `mem_map_assemble_iff`: under each key stands the first record that has it, and nothing else.
- `assemble_complete`: what holds of the report on any list of executions.
-/

namespace SchemaUsage.Reporting

open SchemaUsage.Usage

/-! ## The keys of the map -/

/-- Adding an operation maps no key a second time. -/
theorem nodup_mapOnce {map : List (String × MappedOperation)}
    (distinct : (map.map Prod.fst).Nodup) (r : UsageRecord) :
    ((mapOnce map r).map Prod.fst).Nodup := by
  unfold mapOnce
  cases found : map.lookup r.key with
  | some entry => exact distinct
  | none =>
    have fresh : r.key ∉ map.map Prod.fst := by
      intro mem
      obtain ⟨entry, entry_mem, same⟩ := List.mem_map.mp mem
      have other := List.lookup_eq_none_iff.mp found entry entry_mem
      simp [same] at other
    simp only [Option.isSome_none, Bool.false_eq_true, if_false]
    rw [List.map_append, List.nodup_append]
    refine ⟨distinct, List.nodup_singleton _, fun key mem key' mem' same => ?_⟩
    obtain rfl : key' = r.key := List.mem_singleton.mp mem'
    exact fresh (same ▸ mem)

theorem nodup_foldl_mapOnce (records : List UsageRecord) {map : List (String × MappedOperation)}
    (distinct : (map.map Prod.fst).Nodup) :
    ((records.foldl mapOnce map).map Prod.fst).Nodup := by
  induction records generalizing map with
  | nil => exact distinct
  | cons r records ih => exact ih (nodup_mapOnce distinct r)

/-- **No key is mapped twice.** -/
theorem nodup_keys_assemble (items : List (RecordedExecution × Nat)) :
    ((Report.assemble items).map.map Prod.fst).Nodup :=
  nodup_foldl_mapOnce _ List.nodup_nil

/-- Where no key is mapped twice, what is looked up under a key is what stands there. -/
theorem lookup_eq_some_of_mem {map : List (String × MappedOperation)}
    (distinct : (map.map Prod.fst).Nodup) {key : String} {entry : MappedOperation}
    (mem : (key, entry) ∈ map) : map.lookup key = some entry := by
  obtain ⟨before, after, rfl⟩ := List.append_of_mem mem
  refine List.lookup_eq_some_iff.mpr ⟨before, after, rfl, fun other earlier => ?_⟩
  rw [List.map_append, List.nodup_append] at distinct
  have apart : other.1 ≠ key :=
    distinct.2.2 other.1 (List.mem_map_of_mem earlier) key List.mem_cons_self
  exact bne_iff_ne.mpr apart.symm

/-- **The map of a report**: under a key stands what is told of the first record with that key. -/
theorem mem_map_assemble_iff (items : List (RecordedExecution × Nat)) (key : String)
    (entry : MappedOperation) :
    (key, entry) ∈ (Report.assemble items).map ↔
      ∃ item, items.find? (fun item => item.1.operation.key == key) = some item ∧
        entry = mapped item.1.operation := by
  have found : (Report.assemble items).map.lookup key = some entry ↔
      ∃ item, items.find? (fun item => item.1.operation.key == key) = some item ∧
        entry = mapped item.1.operation := by
    rw [lookup_assemble, Option.map_eq_some_iff]
    simp only [eq_comm]
  rw [← found]
  constructor
  · intro mem
    exact lookup_eq_some_of_mem (nodup_keys_assemble items) mem
  · intro looked
    obtain ⟨before, after, same, -⟩ := List.lookup_eq_some_iff.mp looked
    rw [same]
    simp

/-! ## The operations -/

/-- **An operation of a report carries an execution** with its time: it names the key of what was
executed, tells the result, and has metadata exactly when the client is known. -/
structure ReportedOperation.Carries (op : ReportedOperation) (item : RecordedExecution × Nat) :
    Prop where
  key : op.operationKey = item.1.operation.key
  timestamp : op.timestamp = item.2
  execution : op.execution = item.1.execution
  metadata : op.metadata.isSome = item.1.client.isSome
  client : op.metadata.bind Metadata.client = item.1.client

theorem carries_reported (item : RecordedExecution × Nat) :
    (item.1.reported item.2).Carries item := by
  constructor
  · rfl
  · rfl
  · rfl
  · exact Option.isSome_map
  · cases known : item.1.client <;> simp [RecordedExecution.reported, known]

theorem forall₂_carries (items : List (RecordedExecution × Nat)) :
    List.Forall₂ ReportedOperation.Carries (Report.assemble items).operations items := by
  rw [Report.assemble, List.forall₂_map_left_iff, List.forall₂_same]
  exact fun item _ => carries_reported item

/-- **A report is complete in itself.** For any executions with their times, whatever their keys
and however often a key comes: the report has the size of its list of operations, which carry the
executions one by one; no key is mapped twice; the mapped keys are the keys of the operations; and
under each of them stand text, name and usage of the first execution with that key. -/
theorem assemble_complete (items : List (RecordedExecution × Nat)) :
    ∃ size map operations, Report.assemble items = ⟨size, map, operations⟩ ∧
      size = operations.length ∧ size = items.length ∧
      List.Forall₂ ReportedOperation.Carries operations items ∧
      (map.map Prod.fst).Nodup ∧
      (∀ key, key ∈ map.map Prod.fst ↔ ∃ op ∈ operations, op.operationKey = key) ∧
      ∀ key entry, (key, entry) ∈ map ↔
        ∃ item, items.find? (fun item => item.1.operation.key == key) = some item ∧
          entry.operation = item.1.operation.operation ∧
          entry.operationName = item.1.operation.operationName ∧
          entry.fields = item.1.operation.fields := by
  have carried := forall₂_carries items
  refine ⟨_, _, _, rfl, carried.length_eq.symm, rfl, carried, nodup_keys_assemble items,
    fun key => ?_, fun key entry => ?_⟩
  · have keys : key ∈ (Report.assemble items).map.map Prod.fst ↔ _ := mem_keys_assemble
    exact keys.trans List.mem_map
  · have mem : (key, entry) ∈ (Report.assemble items).map ↔ _ :=
      mem_map_assemble_iff items key entry
    refine mem.trans (exists_congr fun item => and_congr_right fun _ => ?_)
    cases entry
    simp [mapped]

/-- The second record under a key is told by the map as the first one. -/
example :
    let execution : Execution := ⟨true, 0, 0, []⟩
    (Report.assemble [(⟨⟨"k", "\x7ba\x7d", none, ["Query.a"]⟩, execution, none⟩, 1),
      (⟨⟨"k", "\x7bb\x7d", some "B", ["Query.b"]⟩, execution, none⟩, 2)]).map =
        [("k", ⟨"\x7ba\x7d", none, ["Query.a"]⟩)] := by
  decide

end SchemaUsage.Reporting

import SchemaUsage.Proofs.Usage.NormalForm
import SchemaUsage.Reporting.Report

/-!
# What a report keeps

About `assemble_report` and its map. A report maps each key to the first record with that key and
drops the others. As records of one normal form have the same usage, no field is lost where a key
stands for a normal form.

* `Tells` says that the reports on some batches, one after another, are reports on some operations.
* A `Run` is a recorded execution together with the document that was executed.

Results:
- `lookup_assemble`: a key is mapped to the first record with that key.
- `mem_map_assemble`, `mem_keys_assemble`: the map has entries for the reported operations only, and
  for each of them.
- `normal_form_usage`: documents with one normal form have the same usage, and the report keeps it.
-/

namespace SchemaUsage.Reporting

open SchemaUsage.Graphql
open SchemaUsage.Usage

/-! ## The map of a report -/

theorem lookup_foldl_mapOnce (key : String) : ∀ (records : List UsageRecord)
    (map : List (String × MappedOperation)),
    (records.foldl mapOnce map).lookup key =
      (map.lookup key).or ((records.find? fun r => r.key == key).map mapped)
  | [], map => by simp
  | r :: records, map => by
    rw [List.foldl_cons, lookup_foldl_mapOnce key records, mapOnce, List.find?_cons]
    by_cases same : r.key = key
    · subst same
      cases found : map.lookup r.key with
      | some kept => simp [found]
      | none => simp [found, List.lookup_append]
    · rw [beq_eq_false_iff_ne.mpr same]
      have other : (key == r.key) = false := beq_eq_false_iff_ne.mpr (Ne.symm same)
      split
      · rfl
      · simp [List.lookup_append, List.lookup_cons, other]

/-- **A key is mapped to the first record with that key.** -/
theorem lookup_assemble (items : List (RecordedExecution × Nat)) (key : String) :
    (Report.assemble items).map.lookup key =
      (items.find? fun item => item.1.operation.key == key).map fun item =>
        mapped item.1.operation := by
  rw [Report.assemble, lookup_foldl_mapOnce, List.find?_map]
  simp [Function.comp_def]

theorem mem_foldl_mapOnce {entry : String × MappedOperation} {records : List UsageRecord}
    {map : List (String × MappedOperation)} (mem : entry ∈ records.foldl mapOnce map) :
    entry ∈ map ∨ ∃ record ∈ records, entry = (record.key, mapped record) := by
  induction records generalizing map with
  | nil => exact .inl mem
  | cons first records ih =>
    rcases ih mem with earlier | ⟨record, later, same⟩
    · unfold mapOnce at earlier
      split at earlier
      · exact .inl earlier
      · rcases List.mem_append.mp earlier with old | new
        · exact .inl old
        · exact .inr ⟨first, List.mem_cons_self, List.mem_singleton.mp new⟩
    · exact .inr ⟨record, List.mem_cons_of_mem _ later, same⟩

/-- An entry of the map is that of a reported operation. -/
theorem mem_map_assemble {items : List (RecordedExecution × Nat)}
    {entry : String × MappedOperation} (mem : entry ∈ (Report.assemble items).map) :
    ∃ item ∈ items, entry = (item.1.operation.key, mapped item.1.operation) := by
  rcases mem_foldl_mapOnce mem with nothing | ⟨record, reported, same⟩
  · exact absurd nothing List.not_mem_nil
  · obtain ⟨item, item_mem, rfl⟩ := List.mem_map.mp reported
    exact ⟨item, item_mem, same⟩

/-- The keys of the reported operations. -/
def Report.keys (report : Report) : List String :=
  report.operations.map ReportedOperation.operationKey

theorem keys_assemble (items : List (RecordedExecution × Nat)) :
    (Report.assemble items).keys = items.map fun item => item.1.operation.key :=
  List.map_map

/-- **The keys of the map** are those of the reported operations. -/
theorem mem_keys_assemble {items : List (RecordedExecution × Nat)} {key : String} :
    key ∈ (Report.assemble items).map.map Prod.fst ↔ key ∈ (Report.assemble items).keys := by
  rw [keys_assemble]
  refine ⟨fun mem => ?_, fun mem => ?_⟩
  · obtain ⟨entry, entry_mem, rfl⟩ := List.mem_map.mp mem
    obtain ⟨item, item_mem, rfl⟩ := mem_map_assemble entry_mem
    exact List.mem_map_of_mem item_mem
  · -- a key that is not in the map is looked up in vain
    by_contra absent
    have nothing : (Report.assemble items).map.lookup key = none :=
      List.lookup_eq_none_iff.mpr fun entry entry_mem => bne_iff_ne.mpr fun same =>
        absent (same ▸ List.mem_map_of_mem entry_mem)
    obtain ⟨item, item_mem, rfl⟩ := List.mem_map.mp mem
    rw [lookup_assemble, Option.map_eq_none_iff, List.find?_eq_none] at nothing
    exact nothing item item_mem (beq_self_eq_true _)

/-! ## Batches -/

/-- **The reports tell of the operations**, batch by batch. -/
def Tells (reports : List Report) (records : List UsageRecord) : Prop :=
  ∃ batches : List (List (RecordedExecution × Nat)), reports = batches.map Report.assemble ∧
    batches.flatten.map (fun item => item.1.operation) = records

variable {reports more : List Report} {records others : List UsageRecord}

theorem Tells.append (tells : Tells reports records) (tells' : Tells more others) :
    Tells (reports ++ more) (records ++ others) := by
  obtain ⟨batches, rfl, rfl⟩ := tells
  obtain ⟨batches', rfl, rfl⟩ := tells'
  exact ⟨batches ++ batches', by rw [List.map_append],
    by rw [List.flatten_append, List.map_append]⟩

/-- The maps of the reports have entries for the operations only. -/
theorem Tells.mapped (tells : Tells reports records) {report : Report} (sent : report ∈ reports)
    {entry : String × MappedOperation} (mem : entry ∈ report.map) :
    ∃ record ∈ records, entry = (record.key, Reporting.mapped record) := by
  obtain ⟨batches, rfl, rfl⟩ := tells
  obtain ⟨batch, batch_mem, rfl⟩ := List.mem_map.mp sent
  obtain ⟨item, item_mem, same⟩ := mem_map_assemble mem
  exact ⟨item.1.operation,
    List.mem_map_of_mem (List.mem_flatten.mpr ⟨batch, batch_mem, item_mem⟩), same⟩

/-! ## Records -/

/-- A recorded execution, with its document and its time. -/
structure Run where
  document : Document
  recorded : RecordedExecution
  timestamp : Nat

/-- What is reported of a run. -/
def Run.item (run : Run) : RecordedExecution × Nat := (run.recorded, run.timestamp)

/-- The key of a run. -/
def Run.key (run : Run) : String := run.recorded.operation.key

theorem usage_of_collect {c : Collector} {doc : Document} {supplied : Option VariableValues}
    {r : UsageRecord} (collected : c.collect doc supplied = .ok r) :
    usage c.schema (.ofSupplied c.options.processVariables supplied) doc = .ok r.fields := by
  unfold Collector.collect at collected
  split at collected
  · cases collected
  · rename_i fields found
    split at collected
    · cases collected
    · cases collected
      exact found

/-- **Normal forms keep the usage.** A normal form has the usage of its document, so documents with
one normal form have the same usage or none. When runs are recorded with the same variables, the
entry that a report keeps under the key of a run is that of the first run with this key, and has the
fields of the run if the two have the same normal form. -/
theorem normal_form_usage (c : Collector) (supplied : Option VariableValues) :
    (∀ s strategy doc o ids,
      usage s strategy (doc.normalize o) = .ok ids ↔ usage s strategy doc = .ok ids) ∧
    (∀ s strategy o doc other, doc.normalize o = Document.normalize o other →
      ∀ ids, usage s strategy doc = .ok ids ↔ usage s strategy other = .ok ids) ∧
    ∀ runs : List Run,
      (∀ run ∈ runs, c.collect run.document supplied = .ok run.recorded.operation) →
      ∀ run ∈ runs, ∃ kept ∈ runs, runs.find? (fun other => other.key == run.key) = some kept ∧
        (Report.assemble (runs.map Run.item)).map.lookup run.key =
          some (mapped kept.recorded.operation) ∧
        (kept.document.normalize {} = run.document.normalize {} →
          kept.recorded.operation.fields = run.recorded.operation.fields) := by
  have same (s : Schema) (strategy : Strategy) (o : NormalOptions) (doc other : Document)
      (equal : doc.normalize o = other.normalize o) (ids : List String) :
      usage s strategy doc = .ok ids ↔ usage s strategy other = .ok ids := by
    rw [← usage_normalize doc o, ← usage_normalize other o, equal]
  refine ⟨fun s strategy => usage_normalize, same, fun runs collected run mem => ?_⟩
  obtain ⟨kept, found⟩ : ∃ kept, runs.find? (fun other => other.key == run.key) = some kept := by
    rw [← Option.isSome_iff_exists, List.find?_isSome]
    exact ⟨run, mem, beq_self_eq_true run.key⟩
  have mem' := List.mem_of_find?_eq_some found
  refine ⟨kept, mem', found, ?_, fun equal => ?_⟩
  · rw [lookup_assemble, List.find?_map, Option.map_map]
    exact congrArg _ found
  · have fields := usage_of_collect (collected kept mem')
    rw [same _ _ {} _ _ equal, usage_of_collect (collected run mem)] at fields
    exact (Except.ok.inj fields).symm

/-! ## Two runs -/

/-- A query for the age of a pet with a name, perhaps under another name. -/
def petDocument (name : String) (aliasName : Option String) : Document :=
  [.operation (.shorthand [.field none "pet" [("name", .string name)] []
    [.field aliasName "age" [] [] []]])]

/-- Records against a schema of pets, with the text of an operation as its key. -/
def petCollector : Collector where
  schema :=
    [.type ⟨none, "Query", [], .object []
        [⟨none, "pet", [⟨none, "name", .named "String", none, []⟩], .named "Pet", []⟩]⟩,
      .type ⟨none, "Pet", [], .object [] [⟨none, "age", [], .named "Int", []⟩]⟩,
      .type ⟨none, "String", [], .scalar⟩]
  options := { keyHash := fun text => text }

/-- The marks of a query for the age of a pet. -/
def petMarks : List Mark :=
  [.identifier "Query.pet", .identifier "Query.pet.name", .whole "String", .identifier "Pet.age"]

/-- The record of every query for the age of a pet. -/
def petRecord : UsageRecord where
  key := "\"\x7bpet(name:\\\"\\\")\x7bage\x7d\x7d\""
  operation := "\x7bpet(name:\"\")\x7bage\x7d\x7d"
  operationName := none
  fields := ["Pet.age", "Query.pet", "Query.pet.name", "String"]

theorem normalize_pet (name : String) (aliasName : Option String) :
    (petDocument name aliasName).normalize {} = petDocument "" none := by
  cbv

theorem collect_pet (name : String) (aliasName : Option String) :
    petCollector.collect (petDocument name aliasName) none = .ok petRecord := by
  have found : usage petCollector.schema .wholeTypes (petDocument name aliasName) =
      .ok petRecord.fields :=
    usage_eq_ok.mpr ⟨petMarks, _, rfl, by cbv,
      (ascending_eq (by decide) (by decide) (by decide)).symm⟩
  have text : petCollector.textAndKey (petDocument name aliasName) =
      .ok (petRecord.operation, petRecord.key) := by
    rw [Collector.textAndKey, normalize_pet]
    rfl
  unfold Collector.collect
  simp only [Strategy.ofSupplied, found, text]
  rfl

/-- Two runs with different texts. -/
def petRuns : List Run :=
  [⟨petDocument "Ada" none, ⟨petRecord, ⟨true, 5, 0, []⟩, none⟩, 1⟩,
    ⟨petDocument "Bob" (some "years"), ⟨petRecord, ⟨true, 7, 0, []⟩, none⟩, 2⟩]

theorem normal_form_usage_petRuns :
    (∀ ids, usage petCollector.schema .wholeTypes (petDocument "Ada" none) = .ok ids ↔
      usage petCollector.schema .wholeTypes (petDocument "Bob" (some "years")) = .ok ids) ∧
    ∀ run ∈ petRuns, ∃ kept ∈ petRuns,
      petRuns.find? (fun other => other.key == run.key) = some kept ∧
        (Report.assemble (petRuns.map Run.item)).map.lookup run.key =
          some (mapped kept.recorded.operation) ∧
        (kept.document.normalize {} = run.document.normalize {} →
          kept.recorded.operation.fields = run.recorded.operation.fields) := by
  obtain ⟨-, same, keeps⟩ := normal_form_usage petCollector none
  refine ⟨same _ _ {} _ _ ?_, keeps petRuns fun run mem => ?_⟩
  · rw [normalize_pet, normalize_pet]
  · rcases List.mem_pair.mp mem with rfl | rfl
    · exact collect_pet "Ada" none
    · exact collect_pet "Bob" (some "years")

end SchemaUsage.Reporting

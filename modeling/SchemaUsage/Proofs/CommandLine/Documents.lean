import SchemaUsage.CommandLine.Collect
import SchemaUsage.Proofs.Usage.Skipping

/-!
# What documents come to

About the loop of the command `collect` over `process_with_variables`. A document that can be
processed comes to the record of its operation, or to none if it only asks for the schema itself.
What else a command processes and what its processor remembers make no difference. A collection
keeps the first record of each key, unless a document fails: the first that does ends it.

* `operationOf` is what a document does besides asking for the schema, `recordOf` is its record.
* `ownAnswer` is what a document comes to by itself if values of variables are supplied, `ownRecord`
  the record in it.
* `firsts` are the first records of their keys.
* `Inputs` says what files hold, `Unpruned` what a collection leaves alone.

Results:
- `textAndKey_operations`: the records have the texts and the keys of the operations, in order.
- `ownAnswer_eq_none_iff`: which documents come to nothing.
- `mem_keys_firsts`: the first records have all keys.
- `collectFrom_cons_ok`, `collectFrom_cons_error`: what one document does to a collection.
- `collectFrom_eq_ok`, `collectFrom_eq_error`: what all of them come to.
- `collectRecords_eq_firsts`: the artifact of a collection holds the first records.
-/

namespace SchemaUsage.CommandLine

open Files Graphql Usage

/-! ## Records of documents -/

/-- A document that can be processed. -/
def Processes (c : Collector) (source : Source) : Prop :=
  ∃ record, c.processText source.2 none = .ok record

/-- **The record of a document**, if it has one. -/
def recordOf (c : Collector) (source : Source) : Option UsageRecord :=
  match c.processText source.2 none with
  | .ok record => record
  | .error _ => none

/-- **The operation of a document**, unless the document only asks for the schema itself. -/
def operationOf (source : Source) : Option Document :=
  (Document.parse? source.2).filter fun doc => !doc.isIntrospection

variable {c : Collector} {supplied : Option VariableValues} {source : Source}
  {sources : List Source} {p : Processor}

theorem Processes.gives (processes : Processes c source) :
    c.processText source.2 none = .ok (recordOf c source) := by
  obtain ⟨record, gives⟩ := processes
  rw [recordOf, gives]

/-- The key of a record is derived last: with any other hash nothing but the key is another. -/
theorem processText_keyHash (c : Collector) (hash : String → String) (text : String)
    (supplied : Option VariableValues) :
    Collector.processText { c with options := { c.options with keyHash := hash } } text supplied =
      (c.processText text supplied).map (Option.map fun record =>
        { record with key := hash (Json.quoted record.operation) }) := by
  unfold Collector.processText
  cases Document.parse? text with
  | none => rfl
  | some doc =>
    dsimp only
    split
    · rfl
    · unfold Collector.collect Collector.textAndKey
      dsimp only
      cases usage c.schema (.ofSupplied c.options.processVariables supplied) doc with
      | error e => rfl
      | ok fields => cases (doc.normalize {}).compactText <;> rfl

theorem Processes.keyHash (processes : Processes c source) (hash : String → String) :
    Processes { c with options := { c.options with keyHash := hash } } source := by
  obtain ⟨record, gives⟩ := processes
  unfold Processes
  rw [processText_keyHash, gives]
  exact ⟨_, rfl⟩

/-- A document that can be processed has a record if it has an operation, and then of it. -/
theorem Processes.record (processes : Processes c source) :
    operationOf source = none ∧ recordOf c source = none ∨
      ∃ doc record, operationOf source = some doc ∧ recordOf c source = some record ∧
        c.textAndKey doc = .ok (record.operation, record.key) := by
  have gives := processes.gives
  unfold Collector.processText at gives
  unfold operationOf
  split at gives
  · cases gives
  · rename_i doc parsed
    rw [parsed]
    split at gives
    · rename_i skipped
      exact .inl ⟨by simp [skipped], (Except.ok.inj gives).symm⟩
    · rename_i kept
      split at gives
      · cases gives
      · rename_i record collected
        obtain ⟨_, _, _, -, printed, rfl⟩ := Collector.collect_eq_ok.mp collected
        exact .inr ⟨doc, _, by simp [kept], (Except.ok.inj gives).symm, printed⟩

/-- **What a document comes to by itself**: the answer of a processor that has been asked nothing
before. -/
def ownAnswer (c : Collector) (supplied : Option VariableValues) (source : Source) :
    Except ProcessingError (Option UsageRecord) :=
  Processor.shown ((Processor.fresh c).process source.2 supplied).1

/-- The record that a document comes to by itself, if it comes to one. -/
def ownRecord (c : Collector) (supplied : Option VariableValues) (source : Source) :
    Option UsageRecord :=
  (ownAnswer c supplied source).toOption.join

/-- A document that can be processed by itself. -/
def Answers (c : Collector) (supplied : Option VariableValues) (source : Source) : Prop :=
  ∃ answer, ownAnswer c supplied source = .ok answer

theorem ownRecord_eq {answer : Option UsageRecord}
    (own : ownAnswer c supplied source = .ok answer) : ownRecord c supplied source = answer := by
  rw [ownRecord, own]
  rfl

theorem ownAnswer_eq_processText :
    ownAnswer c supplied source = c.processText source.2 supplied :=
  ((Processor.fresh c).does_process ⟨source.2, supplied⟩ usage).shown_eq
    (Processor.sound_fresh c) .marks

/-- A document that only asks for the schema itself, as its first operation tells. -/
def introspects (source : Source) : Bool :=
  (Document.parse? source.2).any Document.isIntrospection

/-- **A document comes to nothing if and only if it only asks for the schema itself.** -/
theorem ownAnswer_eq_none_iff :
    ownAnswer c supplied source = .ok none ↔ introspects source = true := by
  rw [ownAnswer_eq_processText, introspects]
  cases parsed : Document.parse? source.2 with
  | none => simp [Collector.processText, parsed]
  | some doc => exact Processor.processText_eq_none parsed

/-! ## First records -/

/-- **The first record of each key** that has not been seen before. -/
def firsts : List String → List UsageRecord → List UsageRecord
  | _, [] => []
  | seen, record :: records =>
    if seen.contains record.key then firsts seen records
    else record :: firsts (record.key :: seen) records

theorem firsts_sublist (seen : List String) (records : List UsageRecord) :
    (firsts seen records).Sublist records := by
  induction records generalizing seen with
  | nil => exact .slnil
  | cons record records ih =>
    rw [firsts]
    split
    · exact .cons _ (ih _)
    · exact .cons_cons _ (ih _)

theorem mem_keys_firsts_or {seen : List String} {records : List UsageRecord} {key : String}
    (mem : key ∈ records.map UsageRecord.key) :
    key ∈ seen ∨ key ∈ (firsts seen records).map UsageRecord.key := by
  induction records generalizing seen with
  | nil => exact absurd mem List.not_mem_nil
  | cons record records ih =>
    rw [firsts]
    split
    · rename_i known
      rcases List.mem_cons.mp mem with rfl | later
      · exact .inl (List.contains_iff_mem.mp known)
      · exact ih later
    · rw [List.map_cons, List.mem_cons]
      rcases List.mem_cons.mp mem with here | later
      · exact .inr (.inl here)
      · rcases @ih (record.key :: seen) later with known | new
        · rcases List.mem_cons.mp known with here | old
          · exact .inr (.inl here)
          · exact .inl old
        · exact .inr (.inr new)

/-- **The first records have all keys.** -/
theorem mem_keys_firsts {records : List UsageRecord} {key : String} :
    key ∈ (firsts [] records).map UsageRecord.key ↔ key ∈ records.map UsageRecord.key :=
  ⟨fun mem => ((firsts_sublist [] records).map _).subset mem,
    fun mem => (mem_keys_firsts_or mem).resolve_left List.not_mem_nil⟩

/-! ## Collections -/

/-- What an answer adds to a collection that has seen some keys. -/
def added (seen : List String) (answer : Option UsageRecord) : Option UsageRecord :=
  answer.filter fun record => !seen.contains record.key

theorem added_congr {seen known : List String} (same : ∀ key, key ∈ seen ↔ key ∈ known)
    (answer : Option UsageRecord) : added seen answer = added known answer := by
  have contains : ∀ key, seen.contains key = known.contains key := fun key => by
    rw [Bool.eq_iff_iff, List.contains_iff_mem, List.contains_iff_mem, same]
  simp only [added, contains]

/-- The keys that a collection has seen behind an answer. -/
def seenBehind (seen : List String) (answer : Option UsageRecord) : List String :=
  (added seen answer).toList.map UsageRecord.key ++ seen

theorem firsts_append (seen : List String) (answer : Option UsageRecord)
    (records : List UsageRecord) :
    firsts seen (answer.toList ++ records) =
      (added seen answer).toList ++ firsts (seenBehind seen answer) records := by
  cases answer with
  | none => rfl
  | some record =>
    rw [seenBehind, added, Option.toList_some, List.singleton_append, firsts, Option.filter_some]
    cases seen.contains record.key <;> rfl

/-- **A document that fails ends a collection.** -/
theorem collectFrom_cons_error (sound : p.Sound c) {e : ProcessingError}
    (fails : ownAnswer c supplied source = .error e) (seen : List String) :
    (collectFrom supplied p seen (source :: sources)).result =
      .error (.processing source.1 e) := by
  rw [collectFrom, sound.process_eq_error (ownAnswer_eq_processText.symm.trans fails)]
  rfl

/-- **A document that does not fail adds its record**, if the key has not been seen. -/
theorem collectFrom_cons_ok (sound : p.Sound c) {answer : Option UsageRecord}
    (own : ownAnswer c supplied source = .ok answer) (sources : List Source) (seen : List String) :
    ∃ q : Processor, q.Sound c ∧ (collectFrom supplied p seen (source :: sources)).result =
      (collectFrom supplied q (seenBehind seen answer) sources).result.map
        ((added seen answer).toList ++ ·) := by
  obtain ⟨shared, q, answered, rfl, sound'⟩ :=
    sound.process_eq_ok (ownAnswer_eq_processText.symm.trans own)
  refine ⟨q, sound', ?_⟩
  have unchanged : ∀ events : List Log.Event, added seen (shared.map SharedRecord.record) = none →
      (Work.tell events >>= fun _ => collectFrom supplied q seen sources).result =
        (collectFrom supplied q (seenBehind seen (shared.map SharedRecord.record))
          sources).result.map ((added seen (shared.map SharedRecord.record)).toList ++ ·) :=
    fun events nothing => by
      rw [seenBehind, nothing]
      exact (Work.result_bind rfl _).trans (congrFun Except.map_id _).symm
  rw [collectFrom, answered]
  cases shared with
  | none => exact unchanged _ rfl
  | some shared =>
    dsimp only
    split
    · rename_i known
      exact unchanged _ (Option.filter_some_neg (by simpa using known))
    · rename_i new
      have here : added seen (some shared.record) = some shared.record :=
        Option.filter_some_pos (by simpa using new)
      rw [Option.map_some, seenBehind, here]
      exact Work.result_map _ _

/-- **If no document fails, a collection gives the first record of each key.** -/
theorem collectFrom_eq_ok (answers : ∀ source ∈ sources, Answers c supplied source)
    (sound : p.Sound c) (seen : List String) :
    (collectFrom supplied p seen sources).result =
      .ok (firsts seen (sources.filterMap (ownRecord c supplied))) := by
  induction sources generalizing p seen with
  | nil => rfl
  | cons source sources ih =>
    obtain ⟨⟨answer, own⟩, later⟩ := List.forall_mem_cons.mp answers
    obtain ⟨q, sound', result⟩ := collectFrom_cons_ok sound own sources seen
    rw [result, ih later sound', List.filterMap_eq_flatMap_toList, List.filterMap_eq_flatMap_toList,
      List.flatMap_cons, ownRecord_eq own, firsts_append]
    rfl

/-- **If a document fails, the first that does ends the collection.** -/
theorem collectFrom_eq_error {before after : List Source} {e : ProcessingError}
    (answers : ∀ earlier ∈ before, Answers c supplied earlier)
    (fails : ownAnswer c supplied source = .error e) (sound : p.Sound c) (seen : List String) :
    (collectFrom supplied p seen (before ++ source :: after)).result =
      .error (.processing source.1 e) := by
  induction before generalizing p seen with
  | nil => exact collectFrom_cons_error sound fails seen
  | cons earlier before ih =>
    obtain ⟨⟨answer, own⟩, later⟩ := List.forall_mem_cons.mp answers
    obtain ⟨q, sound', result⟩ := collectFrom_cons_ok sound own (before ++ source :: after) seen
    rw [List.cons_append, result, ih later sound']
    rfl

theorem readProcessor_eq_ok {root : Entry} {path : String} {s : Schema}
    (schema : (readSchema root path).result = .ok s) (processVariables : Bool) :
    (readProcessor root path processVariables).result =
      .ok (.fresh (.ofSchema s { processVariables := processVariables })) :=
  (Work.result_bind schema _).trans (Work.result_bind rfl _)

/-- **What the files hold**: a schema, and documents that can all be processed. -/
structure Inputs (root : Entry) (schemaPath : String) (paths : List String) (s : Schema)
    (sources : List Source) : Prop where
  schema : (readSchema root schemaPath).result = .ok s
  documents : (readDocuments root paths).result = .ok sources
  processes : ∀ source ∈ sources, Processes (.ofSchema s {}) source

section Inputs

variable {root : Entry} {schemaPath : String} {paths : List String} {s : Schema}
  (inputs : Inputs root schemaPath paths s sources) (processVariables : Bool)

include inputs

theorem Inputs.processor :
    (readProcessor root schemaPath processVariables).result =
      .ok (.fresh (.ofSchema s { processVariables := processVariables })) :=
  readProcessor_eq_ok inputs.schema processVariables

end Inputs

end SchemaUsage.CommandLine

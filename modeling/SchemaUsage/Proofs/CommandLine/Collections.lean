import SchemaUsage.CommandLine.Program
import SchemaUsage.Proofs.CommandLine.Documents

/-!
# All or nothing

About the command `collect`. A collection succeeds if none of its documents fails. Its artifact then
holds the record of the first document of each key, in order, and each record is what the document
comes to by itself: neither what the processor remembers nor what has been seen before changes it.
If a document fails, nothing is published.

* `firstAt` is the record at a place, unless an earlier place has one with the same key.
* `Reads` says what the files of a collection hold.

Results:
- `collectFrom_succeeds_iff`: when a collection succeeds.
- `firsts_eq_firstAt`: the first records are those at the first places of their keys.
- `collection_exact`: when a collection succeeds, what it gives then, and what is left else.
-/

namespace SchemaUsage.CommandLine

open Files Graphql Usage Delivery

variable {c : Collector} {supplied : Option VariableValues} {source : Source}
  {sources : List Source} {p : Processor}

/-! ## Success -/

/-- Either no document fails, or there is a first that does. -/
theorem firstFailure (c : Collector) (supplied : Option VariableValues) (sources : List Source) :
    (∀ source ∈ sources, Answers c supplied source) ∨
      ∃ before source after e, sources = before ++ source :: after ∧
        (∀ earlier ∈ before, Answers c supplied earlier) ∧
        ownAnswer c supplied source = .error e := by
  induction sources with
  | nil => exact .inl nofun
  | cons source sources ih =>
    cases own : ownAnswer c supplied source with
    | error e => exact .inr ⟨[], source, sources, e, rfl, nofun, own⟩
    | ok answer =>
      rcases ih with answers | ⟨before, failing, after, e, rfl, answers, fails⟩
      · exact .inl (List.forall_mem_cons.mpr ⟨⟨answer, own⟩, answers⟩)
      · exact .inr ⟨source :: before, failing, after, e, rfl,
          List.forall_mem_cons.mpr ⟨⟨answer, own⟩, answers⟩, fails⟩

/-- **A collection succeeds if and only if none of its documents fails.** -/
theorem collectFrom_succeeds_iff (sound : p.Sound c) (seen : List String) :
    (∃ records, (collectFrom supplied p seen sources).result = .ok records) ↔
      ∀ source ∈ sources, Answers c supplied source := by
  rcases firstFailure c supplied sources with
    answers | ⟨before, source, after, e, rfl, answers, fails⟩
  · exact ⟨fun _ => answers, fun _ => ⟨_, collectFrom_eq_ok answers sound seen⟩⟩
  · refine ⟨fun ⟨records, given⟩ => ?_, fun all => ?_⟩
    · exact nomatch (collectFrom_eq_error answers fails sound seen).symm.trans given
    · obtain ⟨answer, own⟩ := all source (by simp)
      exact nomatch fails.symm.trans own

/-! ## First places -/

/-- **The record at a place**, unless there is one with the same key at an earlier place. -/
def firstAt (records : List (Option UsageRecord)) (place : Nat) : Option UsageRecord :=
  (records[place]?.join).filter fun record =>
    (records.take place).all fun earlier => earlier.all fun other => other.key != record.key

/-- What comes later makes no difference. -/
theorem firstAt_append {records : List (Option UsageRecord)} {place : Nat}
    (inside : place < records.length) (more : List (Option UsageRecord)) :
    firstAt (records ++ more) place = firstAt records place := by
  rw [firstAt, firstAt, List.getElem?_append_left inside,
    List.take_append_of_le_length (Nat.le_of_lt inside)]

/-- Behind all records, an answer adds its record unless the key is known. -/
theorem firstAt_length (records : List (Option UsageRecord)) (answer : Option UsageRecord) :
    firstAt (records ++ [answer]) records.length =
      added ((records.filterMap id).map UsageRecord.key) answer := by
  have earlier : (records ++ [answer]).take records.length = records := List.take_left
  rw [firstAt, List.getElem?_concat_length, Option.join_some, earlier, added]
  congr 1
  funext record
  rw [Bool.eq_iff_iff]
  simp only [List.all_eq_true, Option.all_eq_true, bne_iff_ne, Bool.not_eq_true',
    ← Bool.not_eq_true, List.contains_iff_mem, List.mem_map, List.mem_filterMap, id_eq]
  grind

theorem firsts_concat (seen : List String) (records : List UsageRecord)
    (answer : Option UsageRecord) :
    firsts seen (records ++ answer.toList) = firsts seen records ++
      (added (seen ++ records.map UsageRecord.key) answer).toList := by
  induction records generalizing seen with
  | nil =>
    have alone := firsts_append seen answer []
    rw [List.append_nil, firsts, List.append_nil] at alone
    rw [List.nil_append, alone, List.map_nil, List.append_nil, firsts, List.nil_append]
  | cons other records ih =>
    rw [List.cons_append, firsts, firsts]
    split
    · rename_i known
      have same : added (seen ++ records.map UsageRecord.key) answer =
          added (seen ++ (other :: records).map UsageRecord.key) answer :=
        added_congr (by simp_all; grind) answer
      rw [ih, same]
    · have same : added (other.key :: seen ++ records.map UsageRecord.key) answer =
          added (seen ++ (other :: records).map UsageRecord.key) answer :=
        added_congr (by simp; grind) answer
      rw [ih, same, List.cons_append]

/-- **The first records are those at the first places of their keys.** -/
theorem firsts_eq_firstAt (records : List (Option UsageRecord)) :
    firsts [] (records.filterMap id) =
      (List.range records.length).filterMap (firstAt records) := by
  induction records using List.reverseRecOn with
  | nil => rfl
  | append_singleton records answer ih =>
    have before : (List.range records.length).filterMap (firstAt (records ++ [answer])) =
        (List.range records.length).filterMap (firstAt records) :=
      List.filterMap_congr fun place inside => firstAt_append (List.mem_range.mp inside) _
    have last : ∀ {α β : Type} (f : α → Option β) (a : α), [a].filterMap f = (f a).toList := by
      intro α β f a
      simp [List.filterMap_eq_flatMap_toList]
    rw [List.length_append, List.length_singleton, List.range_succ, List.filterMap_append,
      List.filterMap_append, before, ← ih, last, last, firstAt_length]
    exact firsts_concat [] _ answer

theorem not_mem_seen_of_mem_firsts {seen : List String} {records : List UsageRecord}
    {record : UsageRecord} (mem : record ∈ firsts seen records) : record.key ∉ seen := by
  induction records generalizing seen with
  | nil => exact absurd mem List.not_mem_nil
  | cons other records ih =>
    rw [firsts] at mem
    split at mem
    · exact ih mem
    · rename_i new
      rcases List.mem_cons.mp mem with rfl | later
      · simpa using new
      · exact fun known => ih later (List.mem_cons_of_mem _ known)

/-- **No two first records have one key.** -/
theorem nodup_keys_firsts (seen : List String) (records : List UsageRecord) :
    ((firsts seen records).map UsageRecord.key).Nodup := by
  induction records generalizing seen with
  | nil => exact .nil
  | cons record records ih =>
    rw [firsts]
    split
    · exact ih seen
    · refine List.nodup_cons.mpr ⟨fun mem => ?_, ih _⟩
      obtain ⟨other, later, same⟩ := List.mem_map.mp mem
      exact not_mem_seen_of_mem_firsts later (same ▸ List.mem_cons_self)

/-! ## The command -/

/-- **What the files of a collection hold**: a schema, perhaps values of variables, and
documents. -/
structure Reads (root : Entry) (request : CollectRequest) (s : Schema)
    (supplied : Option VariableValues) (sources : List Source) : Prop where
  schema : (readSchema root request.schema).result = .ok s
  values : (readVariablesIfNamed root request.variableFile).result = .ok supplied
  documents : (readDocuments root request.documents).result = .ok sources

/-- The collector of a collection: variables are processed if the request or the settings ask for
it. -/
def collectorFor (settings : Settings) (request : CollectRequest) (s : Schema) : Collector :=
  .ofSchema s { processVariables :=
    request.processVariables || settings.collector.processVariables }

theorem Reads.collectRecords_result {root : Entry} {request : CollectRequest} {s : Schema}
    (reads : Reads root request s supplied sources) (settings : Settings) :
    (collectRecords root settings request).result =
      (collectFrom supplied (.fresh (collectorFor settings request s)) [] sources).result := by
  refine (Work.result_bind (readProcessor_eq_ok reads.schema _) _).trans ?_
  refine (Work.result_bind reads.values _).trans ?_
  exact Work.result_bind reads.documents _

/-- The files after a run. -/
def Run.tree {σ : Type} (r : Run σ) (root : Entry) : Entry := r.outcome.elim root Outcome.directory

/-- A run of a collection that fails publishes nothing. -/
theorem shown_of_collectRecords_error {σ : Type} (exchange : Exchange σ) (net : σ)
    (draw : Nat → Bool) (prepared : Prepared) {root : Entry} {request : CollectRequest}
    {failure : Failure}
    (failed : (collectRecords root prepared.settings request).result = .error failure) :
    let shown :=
      prepared.shown (perform exchange net draw root prepared.settings (.collect request))
    shown.exit = 1 ∧ shown.failure = some failure ∧ shown.standardOutput = "" ∧
      shown.tree root = root := by
  have collects : (collect root prepared.settings request).result = .error failure := by
    rw [collect, Work.bind_error failed]
  have performs : (perform exchange net draw root prepared.settings (.collect request)).result =
      .error failure := by
    rw [perform, Work.bind_error collects]
  simp only [Prepared.shown, performs]
  exact ⟨trivial, trivial, trivial, rfl⟩

/-- A run of a collection that succeeds publishes the artifact. -/
theorem shown_of_collectRecords_ok {σ : Type} (exchange : Exchange σ) (net : σ)
    (draw : Nat → Bool) (prepared : Prepared) {root : Entry} {request : CollectRequest}
    {records : List UsageRecord} {published : String × Entry}
    (given : (collectRecords root prepared.settings request).result = .ok records)
    (writes : (publish root (artifact records) request.out).result = .ok published) :
    let shown :=
      prepared.shown (perform exchange net draw root prepared.settings (.collect request))
    shown.exit = 0 ∧ shown.standardOutput = published.1 ∧ shown.tree root = published.2 := by
  have collects : (collect root prepared.settings request).result = .ok published :=
    (Work.result_bind given _).trans ((Work.result_bind writes _).trans (Work.result_bind rfl _))
  have performs : (perform exchange net draw root prepared.settings (.collect request)).result =
      .ok { standardOutput := published.1, directory := published.2 } :=
    Work.result_bind collects _
  simp only [Prepared.shown, performs]
  exact ⟨trivial, trivial, rfl⟩

/-- **All or nothing.** A collection succeeds if and only if none of its documents fails. It then
gives, in the order of the documents, the record of the first document of each key, as this document
comes to it by itself; a document comes to none if and only if it only asks for the schema. No two
of the records have one key, and every document that comes to a record has its key among theirs. The
artifact of the records is published, unless there is no place for it.

If there is a document that fails, and none before it does, the run ends with its error. Nothing is
written to the standard output, and the files stay as they are. -/
theorem collection_exact {σ : Type} (exchange : Exchange σ) (net : σ) (draw : Nat → Bool)
    (prepared : Prepared) {root : Entry} {request : CollectRequest} {s : Schema}
    {supplied : Option VariableValues} {sources : List Source}
    (reads : Reads root request s supplied sources) :
    let c := collectorFor prepared.settings request s
    let collected := (collectRecords root prepared.settings request).result
    let shown :=
      prepared.shown (perform exchange net draw root prepared.settings (.collect request))
    ((∃ records, collected = .ok records) ↔
      ∀ source ∈ sources, Answers c supplied source) ∧
    (∀ source ∈ sources, ownAnswer c supplied source = .ok none ↔ introspects source = true) ∧
    (∀ records, collected = .ok records →
      records = (List.range sources.length).filterMap
        (firstAt (sources.map (ownRecord c supplied))) ∧
      (records.map UsageRecord.key).Nodup ∧
      (∀ source ∈ sources, ∀ record, ownAnswer c supplied source = .ok (some record) →
        record.key ∈ records.map UsageRecord.key) ∧
      ∀ published, (publish root (artifact records) request.out).result = .ok published →
        shown.exit = 0 ∧ shown.standardOutput = published.1 ∧ shown.tree root = published.2) ∧
    ∀ before source after e, sources = before ++ source :: after →
      (∀ earlier ∈ before, Answers c supplied earlier) →
      ownAnswer c supplied source = .error e →
      collected = .error (.processing source.1 e) ∧
        shown.exit = 1 ∧ shown.failure = some (.processing source.1 e) ∧
        shown.standardOutput = "" ∧ shown.tree root = root := by
  intro c collected shown
  have sound := Processor.sound_fresh c
  have result : collected = (collectFrom supplied (.fresh c) [] sources).result :=
    reads.collectRecords_result prepared.settings
  have succeeds : (∃ records, collected = .ok records) ↔
      ∀ source ∈ sources, Answers c supplied source := by
    rw [result]
    exact collectFrom_succeeds_iff sound []
  refine ⟨succeeds, fun source _ => ownAnswer_eq_none_iff, fun records given => ?_,
    fun before source after e parts answers fails => ?_⟩
  · have answers := succeeds.mp ⟨records, given⟩
    have all := (collectFrom_eq_ok answers sound []).symm.trans (result.symm.trans given)
    obtain rfl := Except.ok.inj all
    refine ⟨?_, nodup_keys_firsts _ _, fun source mem record own => ?_,
      fun published => shown_of_collectRecords_ok exchange net draw prepared given⟩
    · have places := firsts_eq_firstAt (sources.map (ownRecord c supplied))
      rwa [List.filterMap_map, List.length_map] at places
    · exact mem_keys_firsts.mpr (List.mem_map_of_mem
        (List.mem_filterMap.mpr ⟨source, mem, ownRecord_eq own⟩))
  · subst parts
    have failed := result.trans (collectFrom_eq_error answers fails sound [])
    exact ⟨failed, shown_of_collectRecords_error exchange net draw prepared failed⟩

/-- A document with one field. -/
def usedDocument : Source := ("a.graphql", "{a}")

/-- A document that breaks off. -/
def brokenDocument : Source := ("b.graphql", "\x7b")

/-- A document that only asks for the schema. -/
def askingDocument : Source := ("i.graphql", "\x7b__schema\x7btypes\x7bname\x7d\x7d\x7d")

/-- The files of the three documents, and of a schema. -/
def brokenTree : Entry :=
  .directory [("a.graphql", .file (.text usedDocument.2)),
    ("b.graphql", .file (.text brokenDocument.2)), ("i.graphql", .file (.text askingDocument.2)),
    ("schema.graphql", .file (.text "type Query{a:ID}scalar ID"))]

/-- The schema in `brokenTree`. -/
def brokenSchema : Schema :=
  [.type ⟨none, "Query", [], .object [] [⟨none, "a", [], .named "ID", []⟩]⟩,
    .type ⟨none, "ID", [], .scalar⟩]

/-- A request for documents in `brokenTree`. -/
def brokenRequest (documents : List String) : CollectRequest :=
  { schema := "schema.graphql", documents := documents }

theorem readSchema_brokenTree :
    (readSchema brokenTree "schema.graphql").result = .ok brokenSchema := by cbv

theorem ownAnswer_usedDocument :
    ∃ record, ownAnswer (.ofSchema brokenSchema {}) none usedDocument = .ok (some record) := by
  -- the key is a hash, which is left alone
  let c : Collector := ⟨brokenSchema.prepare, { keyHash := fun text => text }⟩
  have gives : c.processText "{a}" none =
      .ok (some ⟨"\"{a}\"", "{a}", none, ["Query.a"]⟩) := by cbv
  have hashed := processText_keyHash c Text.Md5.hex "{a}" none
  rw [gives] at hashed
  exact ⟨_, ownAnswer_eq_processText.trans hashed⟩

theorem ownAnswer_brokenDocument :
    ownAnswer (.ofSchema brokenSchema {}) none brokenDocument = .error .parse :=
  ownAnswer_eq_processText.trans (by cbv)

theorem ownAnswer_askingDocument :
    ownAnswer (.ofSchema brokenSchema {}) none askingDocument = .ok none :=
  ownAnswer_eq_none_iff.mpr (by cbv)

theorem collection_exact_brokenTree :
    Reads brokenTree (brokenRequest ["a.graphql", "i.graphql", "a.graphql"]) brokenSchema none
      [usedDocument, askingDocument, usedDocument] ∧
    Reads brokenTree (brokenRequest ["a.graphql", "b.graphql"]) brokenSchema none
      [usedDocument, brokenDocument] ∧
    (∃ records, (collectRecords brokenTree {}
        (brokenRequest ["a.graphql", "i.graphql", "a.graphql"])).result = .ok records ∧
      records.length = 1) ∧
    let shown := Prepared.shown ⟨{}, ⟨[]⟩⟩ (perform unreachable () (fun _ => true) brokenTree {}
      (.collect (brokenRequest ["a.graphql", "b.graphql"])))
    shown.exit = 1 ∧ shown.failure = some (.processing "b.graphql" .parse) ∧
      shown.standardOutput = "" ∧ shown.tree brokenTree = brokenTree := by
  have whole : Reads brokenTree (brokenRequest ["a.graphql", "i.graphql", "a.graphql"])
      brokenSchema none [usedDocument, askingDocument, usedDocument] :=
    ⟨readSchema_brokenTree, rfl, by cbv⟩
  have broken : Reads brokenTree (brokenRequest ["a.graphql", "b.graphql"]) brokenSchema none
      [usedDocument, brokenDocument] :=
    ⟨readSchema_brokenTree, rfl, by cbv⟩
  obtain ⟨record, used⟩ := ownAnswer_usedDocument
  refine ⟨whole, broken, ?_, ?_⟩
  · obtain ⟨succeeds, -, given, -⟩ :=
      collection_exact unreachable () (fun _ => true) ⟨{}, ⟨[]⟩⟩ whole
    obtain ⟨records, collected⟩ := succeeds.mpr (by
      simpa using And.intro ⟨_, used⟩ ⟨⟨_, ownAnswer_askingDocument⟩, ⟨_, used⟩⟩)
    have places : records = (List.range 3).filterMap
        (firstAt ([usedDocument, askingDocument, usedDocument].map
          (ownRecord (.ofSchema brokenSchema {}) none))) :=
      (given records collected).1
    refine ⟨records, collected, ?_⟩
    rw [places]
    simp [firstAt, List.range_succ, ownRecord_eq used, ownRecord_eq ownAnswer_askingDocument]
  · obtain ⟨-, -, -, fails⟩ :=
      collection_exact unreachable () (fun _ => true) ⟨{}, ⟨[]⟩⟩ broken
    exact (fails [usedDocument] brokenDocument [] .parse rfl
      (by simpa using ⟨_, used⟩) ownAnswer_brokenDocument).2

end SchemaUsage.CommandLine

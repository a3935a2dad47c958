import SchemaUsage.Graphql.Document.Printer
import SchemaUsage.Graphql.Extension
import SchemaUsage.Graphql.Normal
import SchemaUsage.Json.Text
import SchemaUsage.Text.Md5
import SchemaUsage.Usage.Expansion
import SchemaUsage.Usage.Walk

/-!
# Collection

Model of `collect_schema_usage` and `UsageCollector::collect`: the usage of a document as ascending
list of identifiers, and the record that is reported of an operation, which is its compact normal
text, a key derived from that text, its name and its usage.

* `usage` reads the table of used types in the order of the marks. The order of the hash table is
  another one each time, so records are made with a `Telling` for a parameter.
* The key is made of the text's JSON string by `keyHash`, by default `md5_hex`.

Results:
- `usage_eq_ok`: a document uses what its marks stand for.
- `Collector.collect_eq_ok`: a record is made of a usage, a text and a key.
-/

namespace SchemaUsage.Usage

open SchemaUsage.Graphql

/-- **The identifiers that a document uses**, ascending and without repetitions
(`collect_schema_usage`). The schema is expected to be prepared: look-ups see no extensions. -/
def usage (s : Schema) (strategy : Strategy) (doc : Document) :
    Except UsageError (List String) := do
  let marks ← documentMarks s strategy doc
  let ids ← resolve s marks
  pure (ascending ids)

theorem usage_eq_ok {s : Schema} {strategy : Strategy} {doc : Document} {ids : List String} :
    usage s strategy doc = .ok ids ↔ ∃ marks used, documentMarks s strategy doc = .ok marks ∧
      resolve s marks = .ok used ∧ ids = ascending used := by
  unfold usage
  cases documentMarks s strategy doc with
  | error e => simp [bind, Except.bind]
  | ok marks =>
    cases found : resolve s marks with
    | error e => simp [bind, Except.bind, found]
    | ok used => simp [bind, Except.bind, pure, Except.pure, found, eq_comm]

/-- **A way to tell usages.** What is marked of types is kept in a hash table, and the order in
which that is read is another one each time: `usage` reads in the order of the marks, the tellings
of `Telling.inOrder` in that of a table. -/
abbrev Telling := Schema → Strategy → Document → Except UsageError (List String)

/-! ## Records -/

/-- What is reported of an operation (`OperationDefinition` of the collector). -/
structure UsageRecord where
  key : String
  operation : String
  operationName : Option String
  fields : List String
  deriving Repr, DecidableEq, Inhabited

/-- Why there is no record of an operation (`CollectError`, its case `Print` included). -/
inductive CollectError where
  | usage (error : UsageError)
  | print (error : Document.PrintError)
  deriving Repr, DecidableEq

/-- The wording of the error. -/
def CollectError.message : CollectError → String
  | usage error => error.message
  | print error => error.message

/-- How records are made (`CollectorOptions`). -/
structure CollectorOptions where
  processVariables : Bool := false
  keyHash : String → String := Text.Md5.hex

/-- Makes records against a prepared schema (`UsageCollector`). -/
structure Collector where
  schema : Schema
  options : CollectorOptions

/-- The collector for a schema, whose extensions are merged first
(`UsageCollector::with_options`). -/
def Collector.ofSchema (s : Schema) (options : CollectorOptions) : Collector :=
  ⟨s.prepare, options⟩

/-- The name of the first operation of a document. -/
def operationName (doc : Document) : Option String :=
  doc.firstOperation?.bind Operation.name

/-- The text of a document's normal form and the key derived from that text, quoted as in
JSON. -/
def Collector.textAndKey (c : Collector) (doc : Document) :
    Except Document.PrintError (String × String) := do
  let text ← (doc.normalize {}).compactText
  pure (text, c.options.keyHash (Json.quoted text))

/-- **The record of a document**, whose usage is told in some way (`UsageCollector::collect`). -/
def Collector.collect (c : Collector) (doc : Document) (supplied : Option VariableValues)
    (tell : Telling := usage) : Except CollectError UsageRecord :=
  match tell c.schema (.ofSupplied c.options.processVariables supplied) doc with
  | .error e => .error (.usage e)
  | .ok fields =>
    match c.textAndKey doc with
    | .error e => .error (.print e)
    | .ok (text, key) =>
      .ok { key := key, operation := text, operationName := operationName doc, fields := fields }

theorem Collector.collect_eq_ok {c : Collector} {doc : Document}
    {supplied : Option VariableValues} {tell : Telling} {record : UsageRecord} :
    c.collect doc supplied tell = .ok record ↔ ∃ fields text key,
      tell c.schema (.ofSupplied c.options.processVariables supplied) doc = .ok fields ∧
      c.textAndKey doc = .ok (text, key) ∧ record = ⟨key, text, operationName doc, fields⟩ := by
  unfold collect
  cases tell c.schema (.ofSupplied c.options.processVariables supplied) doc with
  | error e => simp
  | ok fields =>
    cases c.textAndKey doc with
    | error e => simp
    | ok printed =>
      obtain ⟨text, key⟩ := printed
      simp [and_assoc, eq_comm]

end SchemaUsage.Usage

import SchemaUsage.Reporting.Report

/-!
# JSON form of reports, outcomes and operations

Model of the derived encoding and decoding of `Report` and its parts, of `ExecutionOutcome` and of
the collector's `OperationDefinition`. A record is written as an object. It is read from an object,
whose further members are ignored, or from an array of its fields in order, which may end early
where the rest is optional. A missing field or `null` stands for an absent optional value. Whole
numbers are words of 64 bits.

Out of scope: objects that give one field twice, which the reader of JSON texts has made one member
of, and the wording of errors.
-/

namespace SchemaUsage.Reporting

open SchemaUsage.Usage

/-! ## Fields -/

/-- The values of the named fields of a record, in the order of the names. -/
def fieldsOf? (names : List String) : Json → Option (List (Option Json))
  | .obj members => some (names.map fun name => members.lookup name)
  | .arr items =>
    if items.length ≤ names.length then
      some (items.map some ++ List.replicate (names.length - items.length) none)
    else none
  | _ => none

/-- Reads a field that must be present. -/
def required (read : Json → Option α) (field : Option Json) : Option α :=
  field.bind read

/-- Reads a field that may be missing or `null`. -/
def optional (read : Json → Option α) : Option Json → Option (Option α)
  | none => some none
  | some .null => some none
  | some j => (read j).map some

/-- Reads a list that is empty when it is missing. -/
def orEmpty (read : Json → Option (List α)) : Option Json → Option (List α)
  | none => some []
  | some j => read j

/-- Reads an array, item by item. -/
def listOf? (read : Json → Option α) (j : Json) : Option (List α) :=
  j.items?.bind fun items => items.mapM read

/-- The member of a written record; absent values are left out. -/
def optionalMember (name : String) (write : α → Json) : Option α → List (String × Json)
  | none => []
  | some a => [(name, write a)]

/-- A written list. -/
def listJson (write : α → Json) (xs : List α) : Json := .arr (xs.map write)

/-- A whole number. -/
def natJson (n : Nat) : Json := .int n

/-! ## Clients -/

namespace ClientInfo

/-- A client as JSON. -/
def toJson (c : ClientInfo) : Json :=
  .obj (optionalMember "name" .str c.name ++ optionalMember "version" .str c.version)

/-- Reads a client. -/
def ofJson? (j : Json) : Option ClientInfo := do
  let [name, version] ← fieldsOf? ["name", "version"] j | none
  pure { name := ← optional Json.str? name, version := ← optional Json.str? version }

end ClientInfo

namespace Metadata

/-- Metadata as JSON. -/
def toJson (m : Metadata) : Json :=
  .obj (optionalMember "client" ClientInfo.toJson m.client)

/-- Reads metadata. -/
def ofJson? (j : Json) : Option Metadata := do
  let [client] ← fieldsOf? ["client"] j | none
  pure { client := ← optional ClientInfo.ofJson? client }

end Metadata

/-! ## Executions -/

namespace ExecutionError

/-- An error as JSON. -/
def toJson (e : ExecutionError) : Json :=
  .obj (("message", .str e.message) :: optionalMember "path" .str e.path)

/-- Reads an error. -/
def ofJson? (j : Json) : Option ExecutionError := do
  let [message, path] ← fieldsOf? ["message", "path"] j | none
  pure { message := ← required Json.str? message, path := ← optional Json.str? path }

end ExecutionError

namespace Execution

/-- An execution as JSON. -/
def toJson (e : Execution) : Json :=
  .obj [("ok", .bool e.ok), ("duration", natJson e.duration),
    ("errorsTotal", natJson e.errorsTotal), ("errors", listJson ExecutionError.toJson e.errors)]

/-- Reads an execution. -/
def ofJson? (j : Json) : Option Execution := do
  let [ok, duration, total, errors] ← fieldsOf? ["ok", "duration", "errorsTotal", "errors"] j
    | none
  pure {
    ok := ← required Json.bool? ok
    duration := ← required Json.nat64? duration
    errorsTotal := ← required Json.nat64? total
    errors := ← orEmpty (listOf? ExecutionError.ofJson?) errors }

end Execution

namespace ReportedOperation

/-- A reported execution as JSON. -/
def toJson (r : ReportedOperation) : Json :=
  .obj ([("operationMapKey", .str r.operationKey), ("timestamp", natJson r.timestamp),
    ("execution", r.execution.toJson)] ++ optionalMember "metadata" Metadata.toJson r.metadata)

/-- Reads a reported execution. -/
def ofJson? (j : Json) : Option ReportedOperation := do
  let [key, timestamp, execution, metadata] ←
    fieldsOf? ["operationMapKey", "timestamp", "execution", "metadata"] j | none
  pure {
    operationKey := ← required Json.str? key
    timestamp := ← required Json.nat64? timestamp
    execution := ← required Execution.ofJson? execution
    metadata := ← optional Metadata.ofJson? metadata }

end ReportedOperation

/-! ## Reports -/

namespace MappedOperation

/-- A map entry as JSON. -/
def toJson (m : MappedOperation) : Json :=
  .obj (("operation", .str m.operation) :: optionalMember "operationName" .str m.operationName ++
    [("fields", listJson .str m.fields)])

/-- Reads a map entry. -/
def ofJson? (j : Json) : Option MappedOperation := do
  let [operation, name, fields] ← fieldsOf? ["operation", "operationName", "fields"] j | none
  pure {
    operation := ← required Json.str? operation
    operationName := ← optional Json.str? name
    fields := ← required (listOf? Json.str?) fields }

end MappedOperation

namespace Report

/-- A report as JSON. -/
def toJson (r : Report) : Json :=
  .obj [("size", natJson r.size),
    ("map", .obj (r.map.map fun entry => (entry.1, entry.2.toJson))),
    ("operations", listJson ReportedOperation.toJson r.operations)]

/-- Reads the map of a report, which must be an object. -/
def mapOfJson? (j : Json) : Option (List (String × MappedOperation)) :=
  j.members?.bind fun members =>
    members.mapM fun m => (MappedOperation.ofJson? m.2).map fun entry => (m.1, entry)

/-- **Reads a report.** -/
def ofJson? (j : Json) : Option Report := do
  let [size, map, operations] ← fieldsOf? ["size", "map", "operations"] j | none
  pure {
    size := ← required Json.nat64? size
    map := ← required mapOfJson? map
    operations := ← required (listOf? ReportedOperation.ofJson?) operations }

end Report

/-! ## Outcomes -/

namespace PathSegment

/-- A path segment as JSON. -/
def toJson : PathSegment → Json
  | key name => .str name
  | index position => natJson position

/-- Reads a path segment: a text or a whole number. -/
def ofJson? : Json → Option PathSegment
  | .str name => some (key name)
  | j => j.nat64?.map index

end PathSegment

namespace OutcomeError

/-- An error as JSON, whose path is written even if it is absent. -/
def toJson (e : OutcomeError) : Json :=
  .obj [("message", .str e.message),
    ("path", match e.path with
      | none => .null
      | some segments => listJson PathSegment.toJson segments)]

/-- Reads an error. -/
def ofJson? (j : Json) : Option OutcomeError := do
  let [message, path] ← fieldsOf? ["message", "path"] j | none
  pure {
    message := ← required Json.str? message
    path := ← optional (listOf? PathSegment.ofJson?) path }

end OutcomeError

namespace Outcome

/-- An outcome as JSON. -/
def toJson (o : Outcome) : Json :=
  .obj [("ok", .bool o.ok), ("errors", listJson OutcomeError.toJson o.errors)]

/-- **Reads an outcome.** -/
def ofJson? (j : Json) : Option Outcome := do
  let [ok, errors] ← fieldsOf? ["ok", "errors"] j | none
  pure {
    ok := ← required Json.bool? ok
    errors := ← orEmpty (listOf? OutcomeError.ofJson?) errors }

end Outcome

/-! ## Operations -/

/-- The record of an operation as JSON. -/
def recordJson (r : UsageRecord) : Json :=
  .obj ([("key", .str r.key), ("operation", .str r.operation)] ++
    optionalMember "operationName" .str r.operationName ++ [("fields", listJson .str r.fields)])

/-- **Reads the record of an operation.** -/
def recordOfJson? (j : Json) : Option UsageRecord := do
  let [key, operation, name, fields] ←
    fieldsOf? ["key", "operation", "operationName", "fields"] j | none
  pure {
    key := ← required Json.str? key
    operation := ← required Json.str? operation
    operationName := ← optional Json.str? name
    fields := ← required (listOf? Json.str?) fields }

end SchemaUsage.Reporting

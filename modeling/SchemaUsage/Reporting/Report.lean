import SchemaUsage.Number.Power
import SchemaUsage.Usage.Collection

/-!
# Usage reports

Model of `Report` with its parts, of `ExecutionOutcome::into_execution` and of `assemble_report`. A
report lists executions in the order of their arrival and holds the text, the name and the usage of
each operation once, under its key. An execution is made of the outcome that a caller supplies.

* The map of a report is a hash table; here it is a list in the order in which keys are first seen,
  and nothing is said about the order in which it is written.

Results:
- `ClientInfo.ofNames?_eq_none`: a client without a non-empty name or version is no client.
-/

namespace SchemaUsage.Reporting

open SchemaUsage.Usage

/-! ## Reports -/

/-- The client that has sent an operation (`ClientInfo`). -/
structure ClientInfo where
  name : Option String
  version : Option String
  deriving Repr, DecidableEq, Inhabited

/-- A client by its name and version, where an empty text counts as none (`ClientInfo::new`). -/
def ClientInfo.ofNames? (name version : Option String) : Option ClientInfo :=
  let given (text : Option String) : Option String := text.filter fun s => !s.isEmpty
  if (given name).isNone && (given version).isNone then none
  else some ⟨given name, given version⟩

theorem ClientInfo.ofNames?_eq_none {name version : Option String} :
    ClientInfo.ofNames? name version = none ↔
      (∀ s, name = some s → s = "") ∧ (∀ s, version = some s → s = "") := by
  unfold ClientInfo.ofNames?
  cases name <;> cases version <;> simp [Option.filter]

/-- What is known of an execution besides its result. -/
structure Metadata where
  client : Option ClientInfo
  deriving Repr, DecidableEq, Inhabited

/-- An error of an execution; the path is joined by points. -/
structure ExecutionError where
  message : String
  path : Option String
  deriving Repr, DecidableEq, Inhabited

/-- The result of an execution, with its duration in nanoseconds. -/
structure Execution where
  ok : Bool
  duration : Nat
  errorsTotal : Nat
  errors : List ExecutionError
  deriving Repr, DecidableEq, Inhabited

/-- An execution of the operation with the given key (`RequestOperation`), with its time in
milliseconds of the Unix epoch. -/
structure ReportedOperation where
  operationKey : String
  timestamp : Nat
  execution : Execution
  metadata : Option Metadata
  deriving Repr, DecidableEq, Inhabited

/-- What a report tells about an operation besides its key (`OperationMapRecord`). -/
structure MappedOperation where
  operation : String
  operationName : Option String
  fields : List String
  deriving Repr, DecidableEq, Inhabited

/-- A usage report (`Report`). -/
structure Report where
  size : Nat
  map : List (String × MappedOperation)
  operations : List ReportedOperation
  deriving Repr, DecidableEq, Inhabited

/-! ## Outcomes -/

/-- A step on the way to the value that an error concerns. -/
inductive PathSegment where
  | key (name : String)
  | index (position : Nat)
  deriving Repr, DecidableEq, Inhabited

/-- The text of a path segment. -/
def PathSegment.text : PathSegment → String
  | key name => name
  | index position => toString position

/-- An error as the caller knows it (`GraphQLErrorInfo`). -/
structure OutcomeError where
  message : String
  path : Option (List PathSegment)
  deriving Repr, DecidableEq, Inhabited

/-- The outcome of an execution as the caller knows it (`ExecutionOutcome`). -/
structure Outcome where
  ok : Bool
  errors : List OutcomeError
  deriving Repr, DecidableEq, Inhabited

/-- An error in reported form. -/
def OutcomeError.reported (e : OutcomeError) : ExecutionError where
  message := e.message
  path := e.path.map fun segments => ".".intercalate (segments.map PathSegment.text)

/-- **The execution of an outcome** that took so many nanoseconds (`into_execution`); durations are
words of 64 bits. -/
def Outcome.execution (o : Outcome) (nanoseconds : Nat) : Execution where
  ok := o.ok && o.errors.isEmpty
  duration := min nanoseconds (Number.wordCount - 1)
  errorsTotal := o.errors.length
  errors := o.errors.map OutcomeError.reported

/-! ## Assembly -/

/-- An execution that waits to be reported (`UsageItem`). -/
structure RecordedExecution where
  operation : UsageRecord
  execution : Execution
  client : Option ClientInfo
  deriving Repr, DecidableEq, Inhabited

/-- The entry of an operation in a report's map. -/
def mapped (r : UsageRecord) : MappedOperation :=
  ⟨r.operation, r.operationName, r.fields⟩

/-- Adds an operation to a report's map unless its key is there already. -/
def mapOnce (map : List (String × MappedOperation)) (r : UsageRecord) :
    List (String × MappedOperation) :=
  if (map.lookup r.key).isSome then map else map ++ [(r.key, mapped r)]

/-- The reported form of an execution. -/
def RecordedExecution.reported (e : RecordedExecution) (timestamp : Nat) : ReportedOperation where
  operationKey := e.operation.key
  timestamp := timestamp
  execution := e.execution
  metadata := e.client.map fun client => ⟨some client⟩

/-- **The report on executions**, each given with its timestamp (`assemble_report`). Of several
operations with one key the first is mapped. -/
def Report.assemble (items : List (RecordedExecution × Nat)) : Report where
  size := items.length
  map := (items.map fun item => item.1.operation).foldl mapOnce []
  operations := items.map fun item => item.1.reported item.2

end SchemaUsage.Reporting

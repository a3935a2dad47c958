import SchemaUsage.Graphql.Document.Reader
import SchemaUsage.Graphql.Introspection
import SchemaUsage.Usage.Collection

/-!
# Processing of operation texts

Model of `OperationProcessor`. A processor turns texts into records. It remembers the answer to each
text that it could process; only answers that depend on supplied variables are computed anew each
time. Texts that only ask for the schema itself are skipped.

* Records are shared by reference; `SharedRecord.number` tells them apart, as the pointers do.
* A failing text is not remembered, so each of its calls tells the usage anew: `runTold` has a
  `Telling` for every call.

Out of scope: the capacity of the cache (`CACHE_CAPACITY` texts), behind which answers may be
forgotten at any time, and calls at the same time.
-/

namespace SchemaUsage.Usage

open SchemaUsage.Graphql

/-- Why a text has no record (`ProcessingError`, without the wording of syntax errors). -/
inductive ProcessingError where
  | parse
  | collect (error : CollectError)
  deriving Repr, DecidableEq

/-! ## Processors -/

/-- The answer to a text by itself: none for a text that is skipped
(`OperationProcessor::transform`). -/
def Collector.processText (c : Collector) (text : String) (supplied : Option VariableValues)
    (tell : Telling := usage) : Except ProcessingError (Option UsageRecord) :=
  match Document.parse? text with
  | none => .error .parse
  | some doc =>
    if doc.isIntrospection then .ok none
    else
      match c.collect doc supplied tell with
      | .error e => .error (.collect e)
      | .ok record => .ok (some record)

/-- A record that may be handed out several times; each has a number of its own. -/
structure SharedRecord where
  number : Nat
  record : UsageRecord
  deriving Repr, DecidableEq

/-- A processor (`OperationProcessor`): what it remembers, and how many records it has made. -/
structure Processor where
  collector : Collector
  remembered : List (String × Option SharedRecord) := []
  made : Nat := 0

namespace Processor

/-- A processor that remembers nothing (`OperationProcessor::new`). -/
def fresh (c : Collector) : Processor := { collector := c }

/-- Whether the answer to a text may depend on the supplied variables. -/
def dependsOnVariables (p : Processor) (supplied : Option VariableValues) : Bool :=
  p.collector.options.processVariables && supplied.isSome

/-- A new answer, and the processor that has given it. -/
def compute (p : Processor) (text : String) (supplied : Option VariableValues)
    (tell : Telling := usage) : Except ProcessingError (Option SharedRecord) × Processor :=
  match p.collector.processText text supplied tell with
  | .error e => (.error e, p)
  | .ok none => (.ok none, p)
  | .ok (some record) => (.ok (some ⟨p.made, record⟩), { p with made := p.made + 1 })

/-- **The answer to a text**, and the processor behind it (`process_with_variables`). -/
def process (p : Processor) (text : String) (supplied : Option VariableValues)
    (tell : Telling := usage) : Except ProcessingError (Option SharedRecord) × Processor :=
  if p.dependsOnVariables supplied then p.compute text supplied tell
  else
    match p.remembered.lookup text with
    | some answer => (.ok answer, p)
    | none =>
      match p.compute text supplied tell with
      | (.ok answer, q) => (.ok answer, { q with remembered := (text, answer) :: q.remembered })
      | (.error e, q) => (.error e, q)

/-! ## Runs -/

/-- What a call is answered. -/
abbrev Answer := Except ProcessingError (Option SharedRecord)

/-- A call of a processor: a text, and the variables that are supplied with it. -/
structure Call where
  text : String
  supplied : Option VariableValues := none

/-- **What the calls of a run are answered**, and the processor behind them. For each call that is
computed anew the usage is told in a way of its own. -/
def runTold (p : Processor) : List (Call × Telling) → List Answer × Processor
  | [] => ([], p)
  | (call, tell) :: calls =>
    let (answer, p) := p.process call.text call.supplied tell
    let (others, p) := p.runTold calls
    (answer :: others, p)

/-- A run whose usages are told in the order of the marks. -/
def run (p : Processor) (calls : List Call) : List Answer × Processor :=
  p.runTold (calls.map fun call => (call, usage))

/-! ## Skipped texts -/

/-- Whether the answer to a text is computed and the text is skipped then. -/
def skipsAnew (p : Processor) (text : String) (supplied : Option VariableValues) : Bool :=
  (p.dependsOnVariables supplied || (p.remembered.lookup text).isNone) &&
    match Document.parse? text with
    | some doc => doc.isIntrospection
    | none => false

end Processor

end SchemaUsage.Usage

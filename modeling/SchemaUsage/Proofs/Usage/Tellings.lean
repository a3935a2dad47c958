import SchemaUsage.Proofs.Usage.Orders
import SchemaUsage.Usage.Processor

/-!
# Usages that are told anew

About `CollectedInputTypes::resolve`, called once for each telling. Each time a usage is told, what
is marked of types stands in a new hash table, which is read in an order of its own. Whatever the
orders are, two tellings of one document give the same usage, or they fail alike, unless the walk
succeeds and types are missed behind it: then each of the two names a missed type. Records and
answers that are made of the usage agree in the same way.

* `MissedBy` tells which errors name a type that is missed behind the walk of a document.
* `AgreeOrMiss` says that two outcomes are the same, or that both name a missed type.

Results:
- `Telling.Occurs.eq_ok`: tellings succeed together, with the same usage.
- `Telling.Occurs.agree`: two tellings of a document agree, or each names a missed type.
- `Telling.Occurs.collect_agree`, `Telling.Occurs.processText_agree`: so do records and answers.
-/

namespace SchemaUsage.Usage

open SchemaUsage.Graphql

/-! ## Outcomes that agree -/

/-- **An error that names a missed type**: the walk of the document succeeds, and the type is not
defined but within the reach of one that is marked as a whole. -/
inductive MissedBy (s : Schema) (strategy : Strategy) (doc : Document) : UsageError → Prop where
  | miss {marks : List Mark} {type name : String}
      (walked : documentMarks s strategy doc = .ok marks) (marked : .whole type ∈ marks)
      (reaches : Reaches s type name) (undefined : s.firstType? name = none) :
      MissedBy s strategy doc (.unknownType name)

/-- **Two outcomes agree**: they are the same, or both are failures that name missed types. -/
inductive AgreeOrMiss {ε α : Type} (wrap : UsageError → ε) (missed : UsageError → Prop) :
    Except ε α → Except ε α → Prop where
  | same (r : Except ε α) : AgreeOrMiss wrap missed r r
  | miss {e e' : UsageError} (here : missed e) (there : missed e') :
      AgreeOrMiss wrap missed (.error (wrap e)) (.error (wrap e'))

theorem AgreeOrMiss.ok_iff {ε α : Type} {wrap : UsageError → ε} {missed : UsageError → Prop}
    {r r' : Except ε α} (agree : AgreeOrMiss wrap missed r r') (a : α) : r = .ok a ↔ r' = .ok a := by
  cases agree with
  | same => exact .rfl
  | miss => exact iff_of_false nofun nofun

namespace Telling.Occurs

variable {s : Schema} {strategy : Strategy} {doc : Document} {tell other : Telling}

/-! ## Tellings -/

/-- Of each document the usage is told in some order of the table. -/
theorem exists_order (occurs : tell.Occurs) (s : Schema) (strategy : Strategy) (doc : Document) :
    ∃ order, Rearranges order ∧
    usageInOrder s order strategy doc = tell s strategy doc := by
  cases occurs with
  | marks => exact exists_order_usage
  | table reads => exact ⟨_, reads, rfl⟩

theorem eq_usage (occurs : tell.Occurs) {ids : List String} :
    tell s strategy doc = .ok ids ↔ usage s strategy doc = .ok ids := by
  obtain ⟨order, reads, same⟩ := occurs.exists_order s strategy doc
  rw [← same, usageInOrder_eq_ok reads]

/-- **Tellings succeed together**, and with the same usage. -/
theorem eq_ok (occurs : tell.Occurs) (occurs' : other.Occurs) {ids : List String} :
    tell s strategy doc = .ok ids ↔ other s strategy doc = .ok ids :=
  occurs.eq_usage.trans occurs'.eq_usage.symm

/-- A failure behind the walk names a missed type. -/
theorem missed (occurs : tell.Occurs) {marks : List Mark}
    (walked : documentMarks s strategy doc = .ok marks) {e : UsageError}
    (failed : tell s strategy doc = .error e) : MissedBy s strategy doc e := by
  obtain ⟨order, reads, same⟩ := occurs.exists_order s strategy doc
  obtain ⟨type, marked, alone⟩ := exists_blamed walked reads (same.trans failed)
  obtain ⟨name, reaches, undefined, rfl⟩ := unknownType_of_alone alone
  exact .miss walked marked reaches undefined

/-- A failure of the walk is told as such. -/
theorem walk_error (occurs : tell.Occurs) {e : UsageError}
    (failed : documentMarks s strategy doc = .error e) : tell s strategy doc = .error e := by
  obtain ⟨order, -, same⟩ := occurs.exists_order s strategy doc
  rw [← same, usageInOrder_of_error failed]

/-- **Two tellings of a document agree**, or each of them names a missed type. -/
theorem agree (occurs : tell.Occurs) (occurs' : other.Occurs) (s : Schema) (strategy : Strategy)
    (doc : Document) :
    AgreeOrMiss id (MissedBy s strategy doc) (tell s strategy doc) (other s strategy doc) := by
  cases walked : documentMarks s strategy doc with
  | error e =>
    rw [occurs.walk_error walked, occurs'.walk_error walked]
    exact .same _
  | ok marks =>
    cases told : tell s strategy doc with
    | ok ids =>
      rw [(occurs.eq_ok occurs').mp told]
      exact .same _
    | error e =>
      cases told' : other s strategy doc with
      | ok ids =>
        rw [(occurs.eq_ok occurs').mpr told'] at told
        cases told
      | error e' => exact .miss (occurs.missed walked told) (occurs'.missed walked told')

/-! ## Records and answers -/

variable (c : Collector) (supplied : Option VariableValues)

/-- **Two records of a document agree**, however its usage is told. -/
theorem collect_agree (occurs : tell.Occurs) (occurs' : other.Occurs) (doc : Document) :
    AgreeOrMiss CollectError.usage
      (MissedBy c.schema (.ofSupplied c.options.processVariables supplied) doc)
      (c.collect doc supplied tell) (c.collect doc supplied other) := by
  have told := occurs.agree occurs' c.schema
    (.ofSupplied c.options.processVariables supplied) doc
  unfold Collector.collect
  generalize tell c.schema _ doc = r, other c.schema _ doc = r' at told
  cases told with
  | same => exact .same _
  | miss here there => exact .miss here there

/-- **Two answers to a text agree**, however the usage of its document is told. -/
theorem processText_agree (occurs : tell.Occurs) (occurs' : other.Occurs) (text : String) :
    AgreeOrMiss (fun e => ProcessingError.collect (.usage e))
      (fun e => ∃ doc, Document.parse? text = some doc ∧
        MissedBy c.schema (.ofSupplied c.options.processVariables supplied) doc e)
      (c.processText text supplied tell) (c.processText text supplied other) := by
  unfold Collector.processText
  cases parsed : Document.parse? text with
  | none => exact .same _
  | some doc =>
    dsimp only
    split
    · exact .same _
    · have collected := collect_agree c supplied occurs occurs' doc
      generalize c.collect doc supplied tell = r, c.collect doc supplied other = r' at collected
      cases collected with
      | same => exact .same _
      | miss here there => exact .miss ⟨doc, rfl, here⟩ ⟨doc, rfl, there⟩

end Telling.Occurs

end SchemaUsage.Usage

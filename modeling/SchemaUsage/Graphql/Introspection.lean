import SchemaUsage.Graphql.Document

/-!
# Introspection

Model of `is_introspection`: operations that ask for the schema itself and for nothing else.
`Operation.OnlyIntrospects` says which these are, `Operation.isIntrospection` decides it.

* Of a document with several operations the first one is looked at, and fragments not at all.

Results:
- `Operation.isIntrospection_iff`: the check decides what it is meant to.
-/

namespace SchemaUsage.Graphql

/-- A selection that asks for the schema itself. -/
def Selection.asksForSchema : Selection → Bool
  | .field _ name .. => name == "__schema" || name == "__type"
  | _ => false

/-- A selection that asks for the schema itself or for a type's name. -/
def Selection.isMeta : Selection → Bool
  | .field _ name .. => name == "__schema" || name == "__type" || name == "__typename"
  | _ => false

/-- Whether an operation asks for the schema and for nothing else (the second half of
`is_introspection`). -/
def Operation.isIntrospection (op : Operation) : Bool :=
  op.kind == .query && op.selections.all Selection.isMeta &&
    op.selections.any Selection.asksForSchema

/-- **A selection picks a field** with one of several names, under any alias. -/
inductive Selection.Picks (names : List String) : Selection → Prop where
  | field {aliasName : Option String} {name : String} {args : Arguments}
      {directives : List Directive} {selections : List Selection} (mem : name ∈ names) :
      Picks names (.field aliasName name args directives selections)

/-- **An operation that asks for the schema and for nothing else**: a query that picks nothing but
meta fields at its root, and among them one that leads to the schema or to a type. -/
structure Operation.OnlyIntrospects (op : Operation) : Prop where
  query : op.kind = .query
  picks : ∀ sel ∈ op.selections, sel.Picks ["__schema", "__type", "__typename"]
  asks : ∃ sel ∈ op.selections, sel.Picks ["__schema", "__type"]

theorem Selection.isMeta_iff {sel : Selection} :
    sel.isMeta = true ↔ sel.Picks ["__schema", "__type", "__typename"] := by
  constructor
  · intro special
    cases sel with
    | field => exact .field (by simpa [isMeta, or_assoc] using special)
    | _ => cases special
  · rintro ⟨mem⟩
    simpa [isMeta, or_assoc] using mem

theorem Selection.asksForSchema_iff {sel : Selection} :
    sel.asksForSchema = true ↔ sel.Picks ["__schema", "__type"] := by
  constructor
  · intro asks
    cases sel with
    | field => exact .field (by simpa [asksForSchema] using asks)
    | _ => cases asks
  · rintro ⟨mem⟩
    simpa [asksForSchema] using mem

/-- **The check decides what it is meant to.** -/
theorem Operation.isIntrospection_iff {op : Operation} :
    op.isIntrospection = true ↔ op.OnlyIntrospects := by
  simp only [isIntrospection, Bool.and_eq_true, beq_iff_eq, List.all_eq_true, List.any_eq_true,
    Selection.isMeta_iff, Selection.asksForSchema_iff]
  exact ⟨fun ⟨⟨query, picks⟩, asks⟩ => ⟨query, picks, asks⟩,
    fun ⟨query, picks, asks⟩ => ⟨⟨query, picks⟩, asks⟩⟩

/-- Whether the first operation of a document asks for the schema and for nothing else
(`is_introspection`). -/
def Document.isIntrospection (doc : Document) : Bool :=
  match doc.firstOperation? with
  | some op => op.isIntrospection
  | none => false

end SchemaUsage.Graphql

import SchemaUsage.Graphql.Value

/-!
# Executable documents

Operations and fragments as `parse_query` gives them, without their positions in the text.

Results:
- `mem_operations`, `mem_fragments`: operations and fragments are definitions of the document.
-/

namespace SchemaUsage.Graphql

/-- The three kinds of operations (`OperationKind`). -/
inductive OperationKind where
  | query
  | mutation
  | subscription
  deriving Repr, DecidableEq, Inhabited

/-- The keyword of an operation kind (`OperationKind::as_str`). -/
def OperationKind.keyword : OperationKind → String
  | query => "query"
  | mutation => "mutation"
  | subscription => "subscription"

/-- One entry of a selection set. A field without selections has an empty list of them. -/
inductive Selection where
  | field (aliasName : Option String) (name : String) (arguments : Arguments)
      (directives : List Directive) (selections : List Selection)
  | spread (fragment : String) (directives : List Directive)
  | inline (condition : Option String) (directives : List Directive)
      (selections : List Selection)
  deriving Repr, Inhabited

/-- A variable that an operation declares. -/
structure VariableDefinition where
  name : String
  type : TypeRef
  default : Option Value
  deriving Repr, Inhabited

/-- An operation: a bare selection set, or one behind a keyword. -/
inductive Operation where
  | shorthand (selections : List Selection)
  | full (kind : OperationKind) (name : Option String) (variableList : List VariableDefinition)
      (directives : List Directive) (selections : List Selection)
  deriving Repr, Inhabited

namespace Operation

/-- A bare selection set is a query (`walk_operation`, its first step). -/
def kind : Operation → OperationKind
  | shorthand _ => .query
  | full kind .. => kind

/-- The name of an operation. -/
def name : Operation → Option String
  | shorthand _ => none
  | full _ name .. => name

/-- The variables that an operation declares. -/
def variableList : Operation → List VariableDefinition
  | shorthand _ => []
  | full _ _ variableList .. => variableList

/-- The root selections of an operation. -/
def selections : Operation → List Selection
  | shorthand selections => selections
  | full _ _ _ _ selections => selections

end Operation

/-- A named fragment. -/
structure Fragment where
  name : String
  condition : String
  directives : List Directive
  selections : List Selection
  deriving Repr, Inhabited

/-- A definition of an executable document. -/
inductive Definition where
  | operation (op : Operation)
  | fragment (frag : Fragment)
  deriving Repr, Inhabited

/-- An executable document. -/
abbrev Document := List Definition

namespace Document

/-- The operations of a document, in order. -/
def operations (doc : Document) : List Operation :=
  doc.filterMap fun
    | .operation op => some op
    | .fragment _ => none

/-- The fragments of a document, in order. -/
def fragments (doc : Document) : List Fragment :=
  doc.filterMap fun
    | .operation _ => none
    | .fragment frag => some frag

theorem mem_operations {doc : Document} {op : Operation} :
    op ∈ doc.operations ↔ .operation op ∈ doc := by
  unfold operations
  rw [List.mem_filterMap]
  constructor
  · rintro ⟨definition, mem, same⟩
    cases definition <;> cases same
    exact mem
  · exact fun mem => ⟨_, mem, rfl⟩

theorem mem_fragments {doc : Document} {frag : Fragment} :
    frag ∈ doc.fragments ↔ .fragment frag ∈ doc := by
  unfold fragments
  rw [List.mem_filterMap]
  constructor
  · rintro ⟨definition, mem, same⟩
    cases definition <;> cases same
    exact mem
  · exact fun mem => ⟨_, mem, rfl⟩

/-- The first operation of a document. -/
def firstOperation? (doc : Document) : Option Operation :=
  doc.operations.head?

end Document

end SchemaUsage.Graphql

import SchemaUsage.Graphql.Document

/-!
# Normal form of documents

Model of `normalize_operation`. The normal form of a document hides literals, drops aliases and
orders whatever may be written in any order: arguments, object fields, directives and variable
definitions by name, selections by kind and name, fragments by name behind the operations. All
sorting is stable (`sort_by`).

* Each function returns what the original of its name leaves behind in place.
* Two inline fragments compare equal (`compare_selections`), so they keep their written order.

Results:
- `normalize_perm`: normal forms hold the normalized definitions, in another order.
-/

namespace SchemaUsage.Graphql

/-- What normalization changes besides the order (`NormalizeOptions`). -/
structure NormalOptions where
  hideLiterals : Bool := true
  removeAliases : Bool := true
  deriving Repr, DecidableEq

/-- Sorts by a name, stably: `sort_by` with names compared. -/
def sortByName (name : α → String) (items : List α) : List α :=
  items.mergeSort fun a b => decide (name a ≤ name b)

/-! ## Values -/

mutual
/-- A value with its literals hidden and its object fields sorted (`normalize_value`). -/
def Value.normalize (o : NormalOptions) : Value → Value
  | .int i => if o.hideLiterals then .int 0 else .int i
  | .float x => if o.hideLiterals then .float (.finite false 0 0) else .float x
  | .string s => if o.hideLiterals then .string "" else .string s
  | .list items => .list (normalizeItems o items)
  | .object fields => .object (sortByName Prod.fst (normalizeFields o fields))
  | .var name => .var name
  | .boolean b => .boolean b
  | .null => .null
  | .enum name => .enum name
/-- The normalized items of a list, in their order (`normalize_value`, the case of a list). -/
def normalizeItems (o : NormalOptions) : List Value → List Value
  | [] => []
  | v :: vs => v.normalize o :: normalizeItems o vs
/-- Named values, normalized and in their order: the loop before the sorting in `normalize_value`
and in `normalize_arguments`. -/
def normalizeFields (o : NormalOptions) : Arguments → Arguments
  | [] => []
  | (name, v) :: rest => (name, v.normalize o) :: normalizeFields o rest
end

/-- Arguments, normalized and sorted by name (`normalize_arguments`). -/
def normalizeArguments (o : NormalOptions) (args : Arguments) : Arguments :=
  sortByName Prod.fst (normalizeFields o args)

/-- Directives with normalized arguments, sorted by name (`normalize_directives`). -/
def normalizeDirectives (o : NormalOptions) (directives : List Directive) : List Directive :=
  sortByName Directive.name
    (directives.map fun d => { d with arguments := normalizeArguments o d.arguments })

/-- Variable definitions with normalized default values, sorted by name
(`normalize_variable_definitions`). -/
def normalizeVariables (o : NormalOptions) (variableList : List VariableDefinition) :
    List VariableDefinition :=
  sortByName VariableDefinition.name
    (variableList.map fun v => { v with default := v.default.map (Value.normalize o) })

/-! ## Selections -/

/-- Spreads come first, then inline fragments, then fields (`selection_kind_ordering`). -/
def Selection.rank : Selection → Nat
  | .spread .. => 1
  | .inline .. => 2
  | .field .. => 3

/-- The order of selections: by rank, spreads and fields among each other by name
(`compare_selections`). -/
def Selection.le : Selection → Selection → Bool
  | .field _ a .., .field _ b .. => decide (a ≤ b)
  | .spread a _, .spread b _ => decide (a ≤ b)
  | a, b => decide (a.rank ≤ b.rank)

mutual
/-- A selection with everything in it normalized (the body of the loop in
`normalize_selection_set`). -/
def Selection.normalize (o : NormalOptions) : Selection → Selection
  | .field aliasName name args directives selections =>
    .field (if o.removeAliases then none else aliasName) name (normalizeArguments o args)
      (normalizeDirectives o directives) ((normalizeEach o selections).mergeSort Selection.le)
  | .spread fragment directives => .spread fragment (normalizeDirectives o directives)
  | .inline condition directives selections =>
    .inline condition (normalizeDirectives o directives)
      ((normalizeEach o selections).mergeSort Selection.le)
/-- Each selection normalized, in their order. -/
def normalizeEach (o : NormalOptions) : List Selection → List Selection
  | [] => []
  | s :: rest => s.normalize o :: normalizeEach o rest
end

/-- A selection set, normalized and sorted (`normalize_selection_set`). -/
def normalizeSelections (o : NormalOptions) (selections : List Selection) : List Selection :=
  (normalizeEach o selections).mergeSort Selection.le

/-! ## Definitions -/

/-- An operation with everything in it normalized (`normalize_operation_definition`). -/
def Operation.normalize (o : NormalOptions) : Operation → Operation
  | .shorthand selections => .shorthand (normalizeSelections o selections)
  | .full kind name variableList directives selections =>
    .full kind name (normalizeVariables o variableList) (normalizeDirectives o directives)
      (normalizeSelections o selections)

/-- A fragment with everything in it normalized (`normalize_fragment`). -/
def Fragment.normalize (o : NormalOptions) (f : Fragment) : Fragment :=
  { f with
    directives := normalizeDirectives o f.directives
    selections := normalizeSelections o f.selections }

/-- A definition with everything in it normalized. -/
def Definition.normalize (o : NormalOptions) : Definition → Definition
  | .operation op => .operation (op.normalize o)
  | .fragment frag => .fragment (frag.normalize o)

/-- The order of definitions: operations first and as they are, fragments by name
(`compare_definitions`). -/
def Definition.le : Definition → Definition → Bool
  | .operation _, _ => true
  | .fragment _, .operation _ => false
  | .fragment a, .fragment b => decide (a.name ≤ b.name)

/-- **The normal form of a document** (`normalize_operation`). -/
def Document.normalize (o : NormalOptions) (doc : Document) : Document :=
  (doc.map (Definition.normalize o)).mergeSort Definition.le

theorem Document.normalize_perm (o : NormalOptions) (doc : Document) :
    (doc.normalize o).Perm (doc.map (Definition.normalize o)) :=
  List.mergeSort_perm _ _

end SchemaUsage.Graphql

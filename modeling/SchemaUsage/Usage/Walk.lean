import SchemaUsage.Usage.Variables

/-!
# The walk over a document

Model of `UsageWalker` with its `TraversalContext`, from `walk_operation` down to `walk_value`, and
of the loop of `collect_schema_usage` over the definitions. The walk visits every selection and
notes what it uses. It keeps three stacks: the types whose selections are visited, the fields whose
arguments are visited, and the types of the values that are visited.

* Every `enter_…` is paired with the `leave_…` of its stack, also when the walk fails in between:
  that is `within`.
* `type_map` keeps the last of several types with one name, so names are looked up by `lastType?`;
  `type_by_name` and `lookup` take the first one, which is `firstType`.
* Directives are not walked, as in `walk_field_contents`: their arguments are no part of the usage.

Results:
- `run_within`: inside of a frame the walk sees the stack with one entry more, and drops one entry
  behind it.

Out of scope: the depth of the recursion.
-/

namespace SchemaUsage.Usage

open SchemaUsage.Graphql

/-! ## State -/

/-- The stacks of the walk (`TraversalContext`), innermost first, and the marks so far, latest
first. -/
structure Trail where
  parents : List TypeDefinition := []
  fields : List FieldDefinition := []
  inputs : List TypeRef := []
  marks : List Mark := []

/-- A step of the walk. A failing step keeps the state that it has reached. -/
abbrev Walk (α : Type) := ExceptT UsageError (StateM Trail) α

/-- One of the stacks of a trail. -/
structure Stack (α : Type) where
  push : α → Trail → Trail
  pop : Trail → Trail

/-- The stack of types whose selections are visited (`enter_parent_type`, `leave_parent_type`). -/
def parents : Stack TypeDefinition where
  push t trail := { trail with parents := t :: trail.parents }
  pop trail := { trail with parents := trail.parents.tail }

/-- The stack of fields whose arguments and selections are visited (`enter_field`,
`leave_field`). -/
def fields : Stack FieldDefinition where
  push f trail := { trail with fields := f :: trail.fields }
  pop trail := { trail with fields := trail.fields.tail }

/-- The stack of types whose values are visited (`enter_input_type`, `leave_input_type`). -/
def inputs : Stack TypeRef where
  push t trail := { trail with inputs := t :: trail.inputs }
  pop trail := { trail with inputs := trail.inputs.tail }

/-- Runs a step with one more entry on a stack, and drops an entry behind it in any case. -/
def within (stack : Stack α) (entry : α) (step : Walk β) : Walk β := fun trail =>
  let (result, reached) := step.run.run (stack.push entry trail)
  (result, stack.pop reached)

theorem run_within (stack : Stack α) (entry : α) (step : Walk β) (trail : Trail) :
    (within stack entry step).run.run trail =
      ((step.run.run (stack.push entry trail)).1,
        stack.pop (step.run.run (stack.push entry trail)).2) := rfl

/-- Notes a mark. -/
def note (mark : Mark) : Walk Unit :=
  modify fun trail => { trail with marks := mark :: trail.marks }

/-- Notes several marks. -/
def noteAll (marks : List Mark) : Walk Unit :=
  modify fun trail => { trail with marks := marks.reverse ++ trail.marks }

/-- The type whose selections are visited (`current_parent_type`); `node` is what asks for it. -/
def parent (node : String) : Walk TypeDefinition := do
  match (← get).parents with
  | t :: _ => pure t
  | [] => throw (.missingParentType node)

/-- The field whose arguments and selections are visited (`current_field`). -/
def currentField (node : String) : Walk FieldDefinition := do
  match (← get).fields with
  | f :: _ => pure f
  | [] => throw (.missingParentType node)

/-- The type of the value that is visited (`current_input_type`). -/
def inputType : Walk TypeRef := do
  match (← get).inputs with
  | t :: _ => pure t
  | [] => throw .missingInputType

/-- The last type of a name (`TraversalContext::resolve`). -/
def lookUp (s : Schema) (name : String) : Walk TypeDefinition :=
  match s.lastType? name with
  | some t => pure t
  | none => throw (.unknownType name)

/-- The named type of the value that is visited (`current_named_input_type`). -/
def namedInputType (s : Schema) : Walk TypeDefinition := do
  lookUp s (← inputType).innerName

/-! ## Values -/

/-- Whether a value is a list or an object. -/
def isComposite : Value → Bool
  | .list _ => true
  | .object _ => true
  | _ => false

/-- Marks the type of the value that is visited according to the kind of the value
(`collect_input_value`): an enum literal marks the enum's value, a literal the type as a whole.
Lists and objects are looked into elsewhere; a variable counts by its value where values are
supplied. -/
def noteValue (s : Schema) (strategy : Strategy) (value : Value) : Walk Unit := do
  let type ← namedInputType s
  match value with
  | .enum name => note (.field type.name name)
  | .object _ => pure ()
  | .list _ => pure ()
  | .var _ => if strategy.prunes then pure () else note (.whole type.name)
  | _ => note (.whole type.name)

mutual
/-- Visits what is inside of a value (`walk_value`). An item that is neither a list nor an object
marks the type of the items as a whole, and an object that is given to anything but an input object
marks that type as a whole. -/
def walkValue (s : Schema) (strategy : Strategy) : Value → Walk Unit
  | .list items => do
    let listType ← inputType
    if items.any fun item => !isComposite item then do
      let type ← lookUp s listType.innerName
      note (.whole type.name)
    walkItems s strategy listType.itemType items
  | .object members => do
    let type ← namedInputType s
    if type.kind = .inputObject then walkMembers s strategy type members
    else note (.whole type.name)
  | _ => pure ()
/-- Visits the items of a list, each at `list_item_type` (the loop of `walk_value`). -/
def walkItems (s : Schema) (strategy : Strategy) (itemType : TypeRef) :
    List Value → Walk Unit
  | [] => pure ()
  | item :: items => do
    within inputs itemType (walkValue s strategy item)
    walkItems s strategy itemType items
/-- Visits the members of an object given to an input object (`walk_value`, the case of an object).
A member is marked behind what is inside of it. -/
def walkMembers (s : Schema) (strategy : Strategy) (type : TypeDefinition) :
    Arguments → Walk Unit
  | [] => pure ()
  | (name, value) :: members => do
    match type.inputField? name with
    | none => throw (.unknownInputField type.name name)
    | some field => do
      within inputs field.type do
        noteValue s strategy value
        walkValue s strategy value
      note (.field type.name name)
      walkMembers s strategy type members
end

/-- Visits an argument of the field that is visited (`walk_argument`). -/
def walkArgument (s : Schema) (strategy : Strategy) (name : String) (value : Value) :
    Walk Unit := do
  let type ← parent name
  let field ← currentField name
  match field.argument? name with
  | none => throw (.unknownArgument type.name field.name name)
  | some argument => do
    note (.identifier (argumentId type.name field.name name))
    within inputs argument.type do
      noteValue s strategy value
      walkValue s strategy value

/-- Visits arguments in order (the first half of `walk_field_contents`). -/
def walkArguments (s : Schema) (strategy : Strategy) (args : Arguments) : Walk Unit :=
  args.forM fun (name, value) => walkArgument s strategy name value

/-! ## Selections -/

mutual
/-- Visits a selection (`walk_field`, and the other cases of `walk_selection_set`). Spreads are
passed over: the fragments themselves are visited. -/
def walkSelection (s : Schema) (strategy : Strategy) : Selection → Walk Unit
  | .field _ name args _ selections => do
    let type ← parent name
    if name = "__typename" then note (.identifier (fieldId type.name name))
    else if name = "__schema" ∨ name = "__type" then pure ()
    else
      match type.field? name with
      | none => throw (.unknownField type.name name)
      | some field => do
        note (.identifier (fieldId type.name name))
        within Usage.fields field do
          walkArguments s strategy args
          walkNested s strategy name selections
  | .spread _ _ => pure ()
  | .inline condition _ selections => do
    let type ← match condition with
      | some name => lookUp s name
      | none => parent "..."
    within parents type (walkSelections s strategy selections)
/-- Visits the selections of the field that is visited, if there are any (the second half of
`walk_field_contents`). -/
def walkNested (s : Schema) (strategy : Strategy) (name : String) :
    List Selection → Walk Unit
  | [] => pure ()
  | first :: others => do
    let field ← currentField name
    let type ← lookUp s field.type.innerName
    within parents type do
      walkSelection s strategy first
      walkSelections s strategy others
/-- Visits selections in order (`walk_selection_set`). -/
def walkSelections (s : Schema) (strategy : Strategy) : List Selection → Walk Unit
  | [] => pure ()
  | first :: others => do
    walkSelection s strategy first
    walkSelections s strategy others
end

/-! ## Definitions -/

/-- The root type of an operation kind. That it is not named and that it is not defined are one
error. -/
def rootType (s : Schema) (kind : OperationKind) : Walk TypeDefinition :=
  match (s.rootName? kind).bind s.lastType? with
  | some t => pure t
  | none => throw (.missingRootType kind)

/-- Visits an operation: its variables, then its selections (`walk_operation`). -/
def walkOperation (s : Schema) (strategy : Strategy) (op : Operation) : Walk Unit := do
  op.variableList.forM fun v => do
    let marks ← (variableMarks s strategy v : Except UsageError (List Mark))
    noteAll marks
  let type ← rootType s op.kind
  within parents type (walkSelections s strategy op.selections)

/-- Visits a fragment in the type of its condition (`collect_schema_usage`, the case of a
fragment). -/
def walkFragment (s : Schema) (strategy : Strategy) (frag : Fragment) : Walk Unit := do
  let type ← lookUp s frag.condition
  within parents type (walkSelections s strategy frag.selections)

/-- Visits the definitions of a document in order, every fragment once (`collect_schema_usage`). -/
def walkDocument (s : Schema) (strategy : Strategy) (doc : Document) : Walk Unit :=
  doc.forM fun
    | .operation op => walkOperation s strategy op
    | .fragment frag => walkFragment s strategy frag

/-- The marks of a document: what the walk has told `CollectedUsage` when it ends. -/
def documentMarks (s : Schema) (strategy : Strategy) (doc : Document) :
    Except UsageError (List Mark) :=
  let (result, trail) := (walkDocument s strategy doc).run.run {}
  result.map fun () => trail.marks.reverse

end SchemaUsage.Usage

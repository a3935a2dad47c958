import SchemaUsage.Usage.Walk

/-!
# The visits of a walk

The calls of `UsageWalker` as a record: the walk of `Usage.Walk` once more, which notes every field,
argument, value and selection set that it comes to, and the state in which it comes there and leaves
again. A visit is noted when its call returns, also when it fails.

* `Subject` is what is visited, `Subject.step` the step of the walk that does it.
* `Recorded` is a step with a record; what is no visit is a plain step.

Results:
- `run_recorded`: a visit is noted behind all visits that it makes itself.
-/

namespace SchemaUsage.Usage

open SchemaUsage.Graphql

/-! ## Records -/

/-- **What a walk visits**: one case for each of `walk_selection_set_in`, `walk_selection_set`,
`walk_field`, `walk_argument`, `collect_input_value` and `walk_value`. -/
inductive Subject where
  /-- Selections, in a type that is entered for them. -/
  | selectionsIn (type : TypeDefinition) (sels : List Selection)
  /-- Selections in the type that is visited. -/
  | selections (sels : List Selection)
  /-- A selection that is a field. -/
  | field (sel : Selection)
  | argument (name : String) (value : Value)
  /-- A value as such, which is marked by its kind. -/
  | kind (value : Value)
  /-- What is inside of a value. -/
  | inside (value : Value)

/-- The step that visits. -/
def Subject.step (s : Schema) (strategy : Strategy) : Subject → Walk Unit
  | .selectionsIn type sels => within parents type (walkSelections s strategy sels)
  | .selections sels => walkSelections s strategy sels
  | .field sel => walkSelection s strategy sel
  | .argument name value => walkArgument s strategy name value
  | .kind value => noteValue s strategy value
  | .inside value => walkValue s strategy value

/-- A visit, with the state before it and behind it. -/
structure Visit where
  subject : Subject
  before : Trail
  result : Except UsageError Unit
  after : Trail

/-- A step with a record of its visits, latest first. -/
abbrev Recorded (α : Type) := ExceptT UsageError (StateM (Trail × List Visit)) α

/-- A step that makes no visits. -/
def unrecorded (step : Walk α) : Recorded α := fun (trail, visits) =>
  let (result, reached) := step.run.run trail
  (result, (reached, visits))

instance : MonadLift Walk Recorded := ⟨unrecorded⟩

/-- Notes a step as visit. -/
def recorded (subject : Subject) (step : Recorded Unit) : Recorded Unit := fun (trail, visits) =>
  let (result, (reached, made)) := step.run.run (trail, visits)
  (result, (reached, ⟨subject, trail, result, reached⟩ :: made))

theorem run_recorded (subject : Subject) (step : Recorded Unit) (trail : Trail)
    (visits : List Visit) :
    (recorded subject step).run.run (trail, visits) =
      let (result, (reached, made)) := step.run.run (trail, visits)
      (result, (reached, ⟨subject, trail, result, reached⟩ :: made)) := rfl

/-- Runs a step with one more entry on a stack. -/
def recordedWithin (stack : Stack α) (entry : α) (step : Recorded β) : Recorded β :=
  fun (trail, visits) =>
    let (result, (reached, made)) := step.run.run (stack.push entry trail, visits)
    (result, (stack.pop reached, made))

theorem run_recordedWithin (stack : Stack α) (entry : α) (step : Recorded β) (trail : Trail)
    (visits : List Visit) :
    (recordedWithin stack entry step).run.run (trail, visits) =
      let (result, (reached, made)) := step.run.run (stack.push entry trail, visits)
      (result, (stack.pop reached, made)) := rfl

/-! ## Values -/

/-- Marks the type of the value that is visited. -/
def recordedKind (s : Schema) (strategy : Strategy) (value : Value) : Recorded Unit :=
  recorded (.kind value) (noteValue s strategy value)

mutual
/-- Visits what is inside of a value. -/
def recordedInside (s : Schema) (strategy : Strategy) : Value → Recorded Unit
  | .list items => recorded (.inside (.list items)) do
    let listType ← inputType
    if items.any fun item => !isComposite item then do
      let type ← lookUp s listType.innerName
      note (.whole type.name)
    recordedItems s strategy listType.itemType items
  | .object members => recorded (.inside (.object members)) do
    let type ← namedInputType s
    if type.kind = .inputObject then recordedMembers s strategy type members
    else note (.whole type.name)
  | value => recorded (.inside value) (pure ())
/-- Visits the items of a list. -/
def recordedItems (s : Schema) (strategy : Strategy) (itemType : TypeRef) :
    List Value → Recorded Unit
  | [] => pure ()
  | item :: items => do
    recordedWithin inputs itemType (recordedInside s strategy item)
    recordedItems s strategy itemType items
/-- Visits the members of an object given to an input object. -/
def recordedMembers (s : Schema) (strategy : Strategy) (type : TypeDefinition) :
    Arguments → Recorded Unit
  | [] => pure ()
  | (name, value) :: members => do
    match type.inputField? name with
    | none => throw (.unknownInputField type.name name)
    | some field => do
      recordedWithin inputs field.type do
        recordedKind s strategy value
        recordedInside s strategy value
      note (.field type.name name)
      recordedMembers s strategy type members
end

/-- Visits an argument of the field that is visited. -/
def recordedArgument (s : Schema) (strategy : Strategy) (name : String) (value : Value) :
    Recorded Unit :=
  recorded (.argument name value) do
    let type ← parent name
    let field ← currentField name
    match field.argument? name with
    | none => throw (.unknownArgument type.name field.name name)
    | some argument => do
      note (.identifier (argumentId type.name field.name name))
      recordedWithin inputs argument.type do
        recordedKind s strategy value
        recordedInside s strategy value

/-! ## Selections -/

/-- Visits selections in a type, one after another. -/
def recordedIn (type : TypeDefinition) (selections : List Selection) (each : Recorded Unit) :
    Recorded Unit :=
  recorded (.selectionsIn type selections)
    (recordedWithin parents type (recorded (.selections selections) each))

mutual
/-- Visits a selection. -/
def recordedSelection (s : Schema) (strategy : Strategy) : Selection → Recorded Unit
  | .field aliasName name args directives selections =>
    recorded (.field (.field aliasName name args directives selections)) do
      let type ← parent name
      if name = "__typename" then note (.identifier (fieldId type.name name))
      else if name = "__schema" ∨ name = "__type" then pure ()
      else
        match type.field? name with
        | none => throw (.unknownField type.name name)
        | some field => do
          note (.identifier (fieldId type.name name))
          recordedWithin Usage.fields field do
            args.forM fun (name, value) => recordedArgument s strategy name value
            recordedNested s strategy name selections
  | .spread _ _ => pure ()
  | .inline condition _ selections => do
    let type ← match condition with
      | some name => (lookUp s name : Recorded TypeDefinition)
      | none => parent "..."
    recordedIn type selections (recordedEach s strategy selections)
/-- Visits the selections of the field that is visited, if there are any. -/
def recordedNested (s : Schema) (strategy : Strategy) (name : String) :
    List Selection → Recorded Unit
  | [] => pure ()
  | first :: others => do
    let field ← currentField name
    let type ← lookUp s field.type.innerName
    recordedIn type (first :: others) do
      recordedSelection s strategy first
      recordedEach s strategy others
/-- Visits each of some selections. -/
def recordedEach (s : Schema) (strategy : Strategy) : List Selection → Recorded Unit
  | [] => pure ()
  | first :: others => do
    recordedSelection s strategy first
    recordedEach s strategy others
end

/-! ## Definitions -/

/-- Visits an operation: its variables, then its selections. -/
def recordedOperation (s : Schema) (strategy : Strategy) (op : Operation) : Recorded Unit := do
  op.variableList.forM fun v => do
    let marks ← (variableMarks s strategy v : Except UsageError (List Mark))
    noteAll marks
  let type ← rootType s op.kind
  recordedIn type op.selections (recordedEach s strategy op.selections)

/-- Visits a fragment in the type of its condition. -/
def recordedFragment (s : Schema) (strategy : Strategy) (frag : Fragment) : Recorded Unit := do
  let type ← lookUp s frag.condition
  recordedIn type frag.selections (recordedEach s strategy frag.selections)

/-- Visits the definitions of a document in order, every fragment once. -/
def recordedDocument (s : Schema) (strategy : Strategy) (doc : Document) : Recorded Unit :=
  doc.forM fun
    | .operation op => recordedOperation s strategy op
    | .fragment frag => recordedFragment s strategy frag

/-- **The visits of the walk over a document**, as they end. -/
def visits (s : Schema) (strategy : Strategy) (doc : Document) : List Visit :=
  ((recordedDocument s strategy doc).run.run ({}, [])).2.2.reverse

end SchemaUsage.Usage

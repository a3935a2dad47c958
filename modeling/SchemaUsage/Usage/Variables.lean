import SchemaUsage.Json.Basic
import SchemaUsage.Usage.Mark

/-!
# Variables

Model of `VariableStrategy` and `collect_value`: how the variables of an operation count, either
their declared type as a whole or only those fields of input objects that occur in the values that
were supplied.

* Values are supplied as JSON. A missing value counts like `null`, as in `collect_value`.
* `flatten_lists` gathers the elements of nested lists before they are looked at; `itemMarks` looks
  at them while it goes through the lists, which finds the same elements in the same order.
-/

namespace SchemaUsage.Usage

open SchemaUsage.Graphql

/-- The values of an operation's variables, by name. -/
abbrev VariableValues := List (String × Json)

/-- How variables count (`VariableStrategy`). -/
inductive Strategy where
  /-- The declared type of every variable is used as a whole. -/
  | wholeTypes
  /-- Of input objects only the fields in the supplied values are used. -/
  | fromValues (values : VariableValues)

namespace Strategy

/-- Supplied values count if values are to be processed (`VariableStrategy::new`). -/
def ofSupplied (processVariables : Bool) : Option VariableValues → Strategy
  | some values => if processVariables then fromValues values else wholeTypes
  | none => wholeTypes

/-- Whether only supplied values count (`VariableStrategy::prunes`). -/
def prunes : Strategy → Bool
  | wholeTypes => false
  | fromValues _ => true

end Strategy

/-! ## Marks of a value -/

mutual
/-- The marks of a value for a variable or an input field of type `t` (`collect_value`). Only input
objects are looked into; lists of any depth count by their elements, and a missing element marks the
bare name of the input object. -/
def valueMarks (s : Schema) (t : TypeDefinition) : Json → Except UsageError (List Mark)
  | .null => .ok [if t.kind = .inputObject then .identifier t.name else .whole t.name]
  | .arr items =>
    if t.kind = .inputObject then itemMarks s t items else .ok [.whole t.name]
  | .obj members =>
    if t.kind = .inputObject then memberMarks s t members else .ok [.whole t.name]
  | .bool _ => .ok (if t.kind = .inputObject then [] else [.whole t.name])
  | .int _ => .ok (if t.kind = .inputObject then [] else [.whole t.name])
  | .float _ => .ok (if t.kind = .inputObject then [] else [.whole t.name])
  | .str _ => .ok (if t.kind = .inputObject then [] else [.whole t.name])
/-- The marks of a list's elements (`flatten_lists`, with the loop over what it has gathered). -/
def itemMarks (s : Schema) (t : TypeDefinition) : List Json → Except UsageError (List Mark)
  | [] => .ok []
  | item :: items => do
    let first ← valueMarks s t item
    let others ← itemMarks s t items
    pure (first ++ others)
/-- The marks of an object's members (`collect_value`, the case of an object). Members that the
input object does not declare count for nothing. -/
def memberMarks (s : Schema) (t : TypeDefinition) :
    List (String × Json) → Except UsageError (List Mark)
  | [] => .ok []
  | (name, value) :: members => do
    let first ← match t.inputField? name with
      | none => pure []
      | some field => do
        let type ← firstType s field.type.innerName
        let nested ← valueMarks s type value
        pure (.field t.name name :: nested)
    let others ← memberMarks s t members
    pure (first ++ others)
end

/-- The marks of a variable's value, which may be missing. -/
def suppliedMarks (s : Schema) (t : TypeDefinition) (value : Option Json) :
    Except UsageError (List Mark) :=
  valueMarks s t (value.getD .null)

/-- The marks of a variable definition (`collect_variable`). -/
def variableMarks (s : Schema) (strategy : Strategy) (v : VariableDefinition) :
    Except UsageError (List Mark) :=
  match strategy with
  | .wholeTypes => .ok [.whole v.type.innerName]
  | .fromValues values => do
    let type ← firstType s v.type.innerName
    suppliedMarks s type (values.lookup v.name)

end SchemaUsage.Usage

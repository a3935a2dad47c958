import SchemaUsage.Usage.Standing
import SchemaUsage.Usage.Variables

/-!
# Two ways to pass data

Data can be given to an argument as it is written, or be supplied for a variable that is given to
the argument instead. The relations here put a document of the one kind beside one of the other.

* `Conforms` says which data a type takes without any doubt about how it counts.
* `Exchanged` selections differ in the value of one argument, which is of a certain type.
* `PassedByVariable` documents differ in that value, and in the declaration of a variable for it.

Results:
- `literalItems_eq`, `literalMembers_eq`: items and members are written one by one.
-/

namespace SchemaUsage.Usage

open SchemaUsage.Graphql

/-! ## Data -/

mutual
/-- The literal that says what some data says. -/
def literalOf : Json → Value
  | .null => .null
  | .bool value => .boolean value
  | .int value => .int value
  | .float value => .float value
  | .str value => .string value
  | .arr items => .list (literalItems items)
  | .obj members => .object (literalMembers members)
/-- The literals of items. -/
def literalItems : List Json → List Value
  | [] => []
  | item :: items => literalOf item :: literalItems items
/-- The literals of members, each with its name. -/
def literalMembers : List (String × Json) → Arguments
  | [] => []
  | (name, value) :: members => (name, literalOf value) :: literalMembers members
end

theorem literalItems_eq (items : List Json) : literalItems items = items.map literalOf := by
  induction items with
  | nil => rfl
  | cons item items ih => rw [literalItems, ih, List.map_cons]

theorem literalMembers_eq (members : List (String × Json)) :
    literalMembers members = members.map fun member => (member.1, literalOf member.2) := by
  induction members with
  | nil => rfl
  | cons member members ih => rw [literalMembers, ih, List.map_cons]

/-- **Data conforms to a type**: anything but a list to a scalar, an object whose keys are declared
to an input object, if the members conform in turn, and a list that is not empty to the type of
its items. So nothing conforms to an enum, and no input object takes `null`. -/
inductive Conforms (s : Schema) : TypeDefinition → Json → Prop where
  | scalar {t : TypeDefinition} {data : Json} (kind : t.kind = .scalar)
      (single : ∀ items, data ≠ .arr items) : Conforms s t data
  | list {t : TypeDefinition} {items : List Json} (nonempty : items ≠ [])
      (each : ∀ item ∈ items, Conforms s t item) : Conforms s t (.arr items)
  | object {t : TypeDefinition} {members : List (String × Json)} (kind : t.kind = .inputObject)
      (declared : ∀ member ∈ members, ∃ field, t.inputField? member.1 = some field)
      (each : ∀ member ∈ members, ∀ field u, t.inputField? member.1 = some field →
        s.firstType? field.type.innerName = some u → Conforms s u member.2) :
      Conforms s t (.obj members)

/-! ## Documents -/

/-- **Two selections differ in one argument**, of the given type, that has the value `a` in the
first and `b` in the second. Both stand in the type that comes first. -/
inductive Exchanged (s : Schema) (type : TypeDefinition) (a b : Value) :
    TypeDefinition → Selection → Selection → Prop where
  | argument {t : TypeDefinition} {aliasName : Option String} {name key : String}
      {before after : Arguments} {directives : List Directive} {selections : List Selection}
      {field : FieldDefinition} {argument : InputValue} (ordinary : name ∉ metaFields)
      (declared : t.field? name = some field) (takes : field.argument? key = some argument)
      (named : s.lastType? argument.type.innerName = some type) :
      Exchanged s type a b t
        (.field aliasName name (before ++ (key, a) :: after) directives selections)
        (.field aliasName name (before ++ (key, b) :: after) directives selections)
  | nested {t u : TypeDefinition} {aliasName : Option String} {name : String} {args : Arguments}
      {directives : List Directive} {before after : List Selection} {sel sel' : Selection}
      {field : FieldDefinition} (ordinary : name ∉ metaFields)
      (declared : t.field? name = some field) (named : s.lastType? field.type.innerName = some u)
      (inside : Exchanged s type a b u sel sel') :
      Exchanged s type a b t (.field aliasName name args directives (before ++ sel :: after))
        (.field aliasName name args directives (before ++ sel' :: after))
  | conditional {t u : TypeDefinition} {condition : String} {directives : List Directive}
      {before after : List Selection} {sel sel' : Selection}
      (named : s.lastType? condition = some u) (inside : Exchanged s type a b u sel sel') :
      Exchanged s type a b t (.inline (some condition) directives (before ++ sel :: after))
        (.inline (some condition) directives (before ++ sel' :: after))
  | unconditional {t : TypeDefinition} {directives : List Directive}
      {before after : List Selection} {sel sel' : Selection}
      (inside : Exchanged s type a b t sel sel') :
      Exchanged s type a b t (.inline none directives (before ++ sel :: after))
        (.inline none directives (before ++ sel' :: after))

/-- Two definitions differ in one argument. -/
inductive ExchangedIn (s : Schema) (type : TypeDefinition) (a b : Value) :
    Definition → Definition → Prop where
  | operation {op op' : Operation} {root : String} {t : TypeDefinition}
      {before after : List Selection} {sel sel' : Selection} (kind : op'.kind = op.kind)
      (vars : op'.variableList = op.variableList) (rooted : s.rootName? op.kind = some root)
      (named : s.lastType? root = some t) (inside : Exchanged s type a b t sel sel')
      (selections : op.selections = before ++ sel :: after)
      (selections' : op'.selections = before ++ sel' :: after) :
      ExchangedIn s type a b (.operation op) (.operation op')
  | fragment {frag frag' : Fragment} {t : TypeDefinition} {before after : List Selection}
      {sel sel' : Selection} (condition : frag'.condition = frag.condition)
      (named : s.lastType? frag.condition = some t) (inside : Exchanged s type a b t sel sel')
      (selections : frag.selections = before ++ sel :: after)
      (selections' : frag'.selections = before ++ sel' :: after) :
      ExchangedIn s type a b (.fragment frag) (.fragment frag')

/-- The second operation declares one variable more than the first. -/
structure Declared (x : VariableDefinition) (op op' : Operation) : Prop where
  kind : op'.kind = op.kind
  selections : op'.selections = op.selections
  vars : ∃ before after,
    op.variableList = before ++ after ∧ op'.variableList = before ++ x :: after

/-- **One document passes data as a literal, another one by a variable**: they differ in one
argument of the given type, which has the literal in the first and the variable in the second, and
in the declaration of the variable by some operation. -/
inductive PassedByVariable (s : Schema) (type : TypeDefinition) (data : Json)
    (x : VariableDefinition) : Document → Document → Prop where
  | mk {before after first last : Document} {definition definition' : Definition}
      {op op' : Operation}
      (exchanged : ExchangedIn s type (literalOf data) (.var x.name) definition definition')
      (declares : before ++ definition' :: after = first ++ .operation op :: last)
      (declared : Declared x op op') :
      PassedByVariable s type data x (before ++ definition :: after)
        (first ++ .operation op' :: last)

end SchemaUsage.Usage

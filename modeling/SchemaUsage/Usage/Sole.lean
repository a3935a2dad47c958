import SchemaUsage.Usage.Standing

/-!
# Documents that consist of one use

A document that supplies one literal and does nothing else: a single operation without variables, or
a single fragment, that selects its way to the field whose only argument takes the literal. The
literal is the value of the argument, or it is held by objects with one key each, and by lists of
one such object.

* `Holds` leads from a value to the literal in it, `Selects` from a selection to the argument.
* `Sole` documents consist of the use of one literal at one type.
* `isHollow` tells lists in which there is nothing but lists of this kind.

Results:
- `eachHollow_eq`: items are looked at one by one.
-/

namespace SchemaUsage.Usage

open SchemaUsage.Graphql

/-! ## Literals -/

mutual
/-- Whether a value is a list that is empty, or holds nothing but such lists. -/
def isHollow : Value → Bool
  | .list items => eachHollow items
  | _ => false
/-- Whether all items are such lists. -/
def eachHollow : List Value → Bool
  | [] => true
  | item :: items => isHollow item && eachHollow items
end

theorem eachHollow_eq (items : List Value) : eachHollow items = items.all isHollow := by
  induction items with
  | nil => rfl
  | cons item items ih => rw [eachHollow, ih, List.all_cons]

/-! ## Uses -/

/-- **A value holds a literal and nothing else** besides the keys that lead to it, given the types
at which the literal and the value stand. -/
inductive Holds (s : Schema) (t : TypeDefinition) (literal : Value) :
    TypeDefinition → Value → Prop where
  | here : Holds s t literal t literal
  | key {u w : TypeDefinition} {name : String} {value : Value} {field : InputValue}
      (kind : u.kind = .inputObject) (declared : u.inputField? name = some field)
      (named : s.lastType? field.type.innerName = some w) (inside : Holds s t literal w value) :
      Holds s t literal u (.object [(name, value)])
  | item {u : TypeDefinition} {value : Value} (kind : u.kind = .inputObject)
      (inside : Holds s t literal u value) : Holds s t literal u (.list [value])

/-- **The least that is selected from a field**: nothing, or the name of its type where that can
have selections. -/
inductive Bare (s : Schema) (field : FieldDefinition) : List Selection → Prop where
  | nothing : Bare s field []
  | typename {u : TypeDefinition} {aliasName : Option String} {directives : List Directive}
      (named : s.lastType? field.type.innerName = some u) (kind : u.kind ≠ .scalar) :
      Bare s field [.field aliasName "__typename" [] directives []]

/-- **A selection leads to one use** of a literal, from the type in which it stands. -/
inductive Selects (s : Schema) (t : TypeDefinition) (literal : Value) :
    TypeDefinition → Selection → Prop where
  | argument {u w : TypeDefinition} {aliasName : Option String} {name key : String}
      {value : Value} {directives : List Directive} {selections : List Selection}
      {field : FieldDefinition} {argument : InputValue} (ordinary : name ∉ metaFields)
      (declared : u.field? name = some field) (takes : field.argument? key = some argument)
      (named : s.lastType? argument.type.innerName = some w) (holds : Holds s t literal w value)
      (bare : Bare s field selections) :
      Selects s t literal u (.field aliasName name [(key, value)] directives selections)
  | nested {u w : TypeDefinition} {aliasName : Option String} {name : String}
      {directives : List Directive} {sel : Selection} {field : FieldDefinition}
      (ordinary : name ∉ metaFields) (declared : u.field? name = some field)
      (named : s.lastType? field.type.innerName = some w) (inside : Selects s t literal w sel) :
      Selects s t literal u (.field aliasName name [] directives [sel])
  | conditional {u w : TypeDefinition} {condition : String} {directives : List Directive}
      {sel : Selection} (named : s.lastType? condition = some w)
      (inside : Selects s t literal w sel) :
      Selects s t literal u (.inline (some condition) directives [sel])
  | unconditional {u : TypeDefinition} {directives : List Directive} {sel : Selection}
      (inside : Selects s t literal u sel) :
      Selects s t literal u (.inline none directives [sel])

/-- **A document that consists of one use** of a literal at a type. -/
inductive Sole (s : Schema) (t : TypeDefinition) (literal : Value) : Document → Prop where
  | operation {op : Operation} {root : String} {u : TypeDefinition} {sel : Selection}
      (vars : op.variableList = []) (rooted : s.rootName? op.kind = some root)
      (named : s.lastType? root = some u) (selections : op.selections = [sel])
      (selects : Selects s t literal u sel) : Sole s t literal [.operation op]
  | fragment {frag : Fragment} {u : TypeDefinition} {sel : Selection}
      (named : s.lastType? frag.condition = some u) (selections : frag.selections = [sel])
      (selects : Selects s t literal u sel) : Sole s t literal [.fragment frag]

end SchemaUsage.Usage

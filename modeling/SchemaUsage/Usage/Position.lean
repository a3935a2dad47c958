import SchemaUsage.Usage.Walk

/-!
# Positions in values

The positions that `collect_value` and `walk_value` come to, as relations: the value itself, the
items of lists, and the members of objects that are given to input objects and declared there. Lists
may nest in any way; they do not change the type.
-/

namespace SchemaUsage.Usage

open SchemaUsage.Graphql

/-! ## Supplied values -/

/-- **A part of supplied data stands at a type**, given the type at which the whole stands. -/
inductive DataAt (s : Schema) (type : TypeDefinition) (data : Json) :
    TypeDefinition → Json → Prop where
  | whole : DataAt s type data type data
  | item {t : TypeDefinition} {items : List Json} {item : Json}
      (outer : DataAt s type data t (.arr items)) (mem : item ∈ items) :
      DataAt s type data t item
  | member {t u : TypeDefinition} {members : List (String × Json)} {name : String} {value : Json}
      {field : InputValue} (outer : DataAt s type data t (.obj members))
      (kind : t.kind = .inputObject) (mem : (name, value) ∈ members)
      (declared : t.inputField? name = some field)
      (named : s.firstType? field.type.innerName = some u) : DataAt s type data u value

/-! ## Written values -/

/-- How a part of a written value is held: as an item of a list, or otherwise. -/
inductive Held where
  | alone
  | item
  deriving Repr, DecidableEq

/-- **A part of a written value stands at a type**, given the type at which the whole stands. -/
inductive ValueAt (s : Schema) (type : TypeDefinition) (value : Value) :
    TypeDefinition → Held → Value → Prop where
  | whole : ValueAt s type value type .alone value
  | item {t : TypeDefinition} {held : Held} {items : List Value} {item : Value}
      (outer : ValueAt s type value t held (.list items)) (mem : item ∈ items) :
      ValueAt s type value t .item item
  | member {t u : TypeDefinition} {held : Held} {members : Arguments} {name : String}
      {part : Value} {field : InputValue} (outer : ValueAt s type value t held (.object members))
      (kind : t.kind = .inputObject) (mem : (name, part) ∈ members)
      (declared : t.inputField? name = some field)
      (named : s.lastType? field.type.innerName = some u) : ValueAt s type value u .alone part

end SchemaUsage.Usage

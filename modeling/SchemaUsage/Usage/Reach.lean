import SchemaUsage.Usage.Mark

/-!
# Types in reach

What `mark_entire_type` goes through, without its stack: a type reaches the types of the fields that
it declares, and what these reach. Scalars, enums and unions declare no fields, so they reach
nothing but themselves.

Results:
- `Reaches.trans`: what is in reach of a type in reach is in reach.
-/

namespace SchemaUsage.Usage

open SchemaUsage.Graphql

/-- **A type declares a field** whose type has the given name within all lists. -/
inductive Declares (t : TypeDefinition) : String → String → Prop where
  | inputObject {fields : List InputValue} {f : InputValue} (body : t.body = .inputObject fields)
      (mem : f ∈ fields) : Declares t f.name f.type.innerName
  | object {interfaces : List String} {fields : List FieldDefinition} {f : FieldDefinition}
      (body : t.body = .object interfaces fields) (mem : f ∈ fields) :
      Declares t f.name f.type.innerName
  | interface {interfaces : List String} {fields : List FieldDefinition} {f : FieldDefinition}
      (body : t.body = .interface interfaces fields) (mem : f ∈ fields) :
      Declares t f.name f.type.innerName

/-- **An identifier that a type gives by itself**: the name of a scalar, each value of an enum and
each declared field. A union gives none. -/
inductive Contributes (t : TypeDefinition) : String → Prop where
  | scalar (body : t.body = .scalar) : Contributes t t.name
  | value {values : List EnumValue} {v : EnumValue} (body : t.body = .enum values)
      (mem : v ∈ values) : Contributes t (fieldId t.name v.name)
  | field {field type : String} (declared : Declares t field type) :
      Contributes t (fieldId t.name field)

/-- **A type reaches another one** through the fields of the types between them. Types are given
by their names, and the last of them need not be defined. -/
inductive Reaches (s : Schema) : String → String → Prop where
  | refl (name : String) : Reaches s name name
  | field {name between field other : String} {t : TypeDefinition}
      (first : Reaches s name between) (type : s.firstType? between = some t)
      (declared : Declares t field other) : Reaches s name other

theorem Reaches.trans {s : Schema} {a b c : String} (h : Reaches s a b) (h' : Reaches s b c) :
    Reaches s a c := by
  induction h' with
  | refl => exact h
  | field _ type declared ih => exact .field ih type declared

/-- A type within reach of one that is marked as a whole. -/
def InReach (s : Schema) (marked : Mark → Prop) (name : String) : Prop :=
  ∃ start, marked (.whole start) ∧ Reaches s start name

/-- All types within reach are defined. -/
def ReachDefined (s : Schema) (marked : Mark → Prop) : Prop :=
  ∀ name, InReach s marked name → ∃ t, s.firstType? name = some t

/-- What the types within reach give. -/
def GivenInReach (s : Schema) (marked : Mark → Prop) (id : String) : Prop :=
  ∃ name t, InReach s marked name ∧ s.firstType? name = some t ∧ Contributes t id

/-- **What marks stand for**: an identifier for itself, a field for its identifier unless its type
is marked as a whole, and a whole type for what is given within its reach. -/
def Denotes (s : Schema) (marked : Mark → Prop) (id : String) : Prop :=
  marked (.identifier id) ∨
  (∃ type field, marked (.field type field) ∧ ¬ marked (.whole type) ∧ id = fieldId type field) ∨
  GivenInReach s marked id

end SchemaUsage.Usage

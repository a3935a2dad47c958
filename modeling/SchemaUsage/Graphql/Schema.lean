import SchemaUsage.Graphql.Document

/-!
# Schemas

The definitions of a schema document (`SchemaDocument`), the look-ups on them, and the names of the
root types (`OperationKind::root_type_name`).

* Several types may have one name. `type_by_name` finds the first of them, the table `type_map`
  holds the last one; both look-ups see definitions only, no extensions.

Results:
- `TypeDefinition.kind_of_field?`: only objects and interfaces have output fields.
- `firstType?_mem`, `lastType?_mem`: a look-up finds a type of the schema with the name asked for.
- `firstType?_eq_none_iff`, `lastType?_eq_none_iff`: both look-ups fail on the same names.
-/

namespace SchemaUsage.Graphql

/-! ## Definitions -/

/-- An argument of a field or a directive, or a field of an input object. -/
structure InputValue where
  description : Option String
  name : String
  type : TypeRef
  default : Option Value
  directives : List Directive
  deriving Repr, Inhabited

/-- A field of an object or an interface. -/
structure FieldDefinition where
  description : Option String
  name : String
  arguments : List InputValue
  type : TypeRef
  directives : List Directive
  deriving Repr, Inhabited

/-- A value of an enum. -/
structure EnumValue where
  description : Option String
  name : String
  directives : List Directive
  deriving Repr, Inhabited

/-- What a type consists of, according to its kind. -/
inductive TypeBody where
  | scalar
  | object (interfaces : List String) (fields : List FieldDefinition)
  | interface (interfaces : List String) (fields : List FieldDefinition)
  | union (members : List String)
  | enum (values : List EnumValue)
  | inputObject (fields : List InputValue)
  deriving Repr, Inhabited

/-- The kinds of types. -/
inductive TypeKind where
  | scalar
  | object
  | interface
  | union
  | enum
  | inputObject
  deriving Repr, DecidableEq

/-- The kind of a type with a certain body. -/
def TypeBody.kind : TypeBody → TypeKind
  | scalar => .scalar
  | object .. => .object
  | interface .. => .interface
  | union _ => .union
  | enum _ => .enum
  | inputObject _ => .inputObject

/-- A type definition. -/
structure TypeDefinition where
  description : Option String
  name : String
  directives : List Directive
  body : TypeBody
  deriving Repr, Inhabited

/-- What an extension adds to the type of its name. -/
structure TypeExtension where
  name : String
  directives : List Directive
  body : TypeBody
  deriving Repr, Inhabited

/-- A directive definition. -/
structure DirectiveDefinition where
  description : Option String
  name : String
  arguments : List InputValue
  repeatable : Bool
  locations : List String
  deriving Repr, Inhabited

/-- The root types that a schema definition names. -/
structure Roots where
  directives : List Directive
  query : Option String
  mutation : Option String
  subscription : Option String
  deriving Repr, Inhabited

/-- A definition of a schema document. -/
inductive SchemaItem where
  | roots (roots : Roots)
  | type (type : TypeDefinition)
  | extension (ext : TypeExtension)
  | directive (directive : DirectiveDefinition)
  deriving Repr, Inhabited

/-- A type definition. -/
def SchemaItem.type? : SchemaItem → Option TypeDefinition
  | .type t => some t
  | _ => none

/-- A type extension. -/
def SchemaItem.extension? : SchemaItem → Option TypeExtension
  | .extension e => some e
  | _ => none

/-- A schema definition. -/
def SchemaItem.roots? : SchemaItem → Option Roots
  | .roots r => some r
  | _ => none

/-- A schema document. -/
abbrev Schema := List SchemaItem

/-! ## Look-ups in a type -/

namespace TypeDefinition

/-- The kind of a type. -/
def kind (t : TypeDefinition) : TypeKind := t.body.kind

/-- The output fields of an object or an interface; none for the other kinds. -/
def outputFields (t : TypeDefinition) : List FieldDefinition :=
  match t.body with
  | .object _ fields => fields
  | .interface _ fields => fields
  | _ => []

/-- The fields of an input object; none for the other kinds. -/
def inputFields (t : TypeDefinition) : List InputValue :=
  match t.body with
  | .inputObject fields => fields
  | _ => []

/-- The first output field of a name (`field_by_name`). -/
def field? (t : TypeDefinition) (name : String) : Option FieldDefinition :=
  t.outputFields.find? fun f => f.name == name

/-- The first input field of a name (`input_field_by_name`). -/
def inputField? (t : TypeDefinition) (name : String) : Option InputValue :=
  t.inputFields.find? fun f => f.name == name

/-- Only objects and interfaces have output fields. -/
theorem kind_of_field? {t : TypeDefinition} {name : String} {field : FieldDefinition}
    (declared : t.field? name = some field) : t.kind = .object ∨ t.kind = .interface := by
  unfold field? outputFields at declared
  unfold kind
  cases body : t.body with
  | object => exact .inl rfl
  | interface => exact .inr rfl
  | _ =>
    rw [body] at declared
    cases declared

end TypeDefinition

/-- The first argument of a name, as `walk_argument` finds it. -/
def FieldDefinition.argument? (f : FieldDefinition) (name : String) : Option InputValue :=
  f.arguments.find? fun a => a.name == name

/-! ## Look-ups in a schema -/

namespace Schema

/-- The type definitions of a schema, in order. -/
def types (s : Schema) : List TypeDefinition := s.filterMap SchemaItem.type?

/-- The type extensions of a schema, in order. -/
def extensions (s : Schema) : List TypeExtension := s.filterMap SchemaItem.extension?

/-- The schema definitions of a schema, in order. -/
def rootDefinitions (s : Schema) : List Roots := s.filterMap SchemaItem.roots?

/-- The first type of a name (`type_by_name`). -/
def firstType? (s : Schema) (name : String) : Option TypeDefinition :=
  s.types.find? fun t => t.name == name

/-- The last type of a name (`type_map`). -/
def lastType? (s : Schema) (name : String) : Option TypeDefinition :=
  s.types.reverse.find? fun t => t.name == name

theorem firstType?_mem {s : Schema} {name : String} {t : TypeDefinition}
    (h : s.firstType? name = some t) : t ∈ s.types ∧ t.name = name :=
  ⟨List.mem_of_find?_eq_some h, by simpa using List.find?_some h⟩

theorem lastType?_mem {s : Schema} {name : String} {t : TypeDefinition}
    (h : s.lastType? name = some t) : t ∈ s.types ∧ t.name = name :=
  ⟨List.mem_reverse.mp (List.mem_of_find?_eq_some h), by simpa using List.find?_some h⟩

theorem firstType?_eq_none_iff {s : Schema} {name : String} :
    s.firstType? name = none ↔ ∀ t ∈ s.types, t.name ≠ name := by
  simp [firstType?]

theorem lastType?_eq_none_iff {s : Schema} {name : String} :
    s.lastType? name = none ↔ ∀ t ∈ s.types, t.name ≠ name := by
  simp [lastType?]

end Schema

/-- The root type that a schema definition names for an operation kind. -/
def Roots.name? (r : Roots) : OperationKind → Option String
  | .query => r.query
  | .mutation => r.mutation
  | .subscription => r.subscription

/-- The name of a root type that no schema definition names. -/
def OperationKind.defaultRoot : OperationKind → String
  | query => "Query"
  | mutation => "Mutation"
  | subscription => "Subscription"

/-- The name of the root type for an operation kind: the first that a schema definition gives, else
the default name if an object type has it (`query_type_name`, `mutation_type_name`,
`subscription_type_name`). -/
def Schema.rootName? (s : Schema) (kind : OperationKind) : Option String :=
  match s.rootDefinitions.findSome? fun r => r.name? kind with
  | some name => some name
  | none =>
    if s.types.any fun t => t.kind == .object && t.name == kind.defaultRoot then
      some kind.defaultRoot
    else none

end SchemaUsage.Graphql

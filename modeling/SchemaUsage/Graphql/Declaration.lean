import SchemaUsage.Graphql.Extension

/-!
# What a schema document declares

What `prepare_schema` is to give, type by type: each type has its own parts and behind them those of
all extensions of its name and kind, in the order of the document. Names that are only extended
declare a type each, and so do the built-in scalars. Nothing is merged step by step here, so a
position in the document matters only among extensions.
-/

namespace SchemaUsage.Graphql

namespace TypeBody

/-- The interfaces that an object or an interface implements. -/
def interfaces : TypeBody → List String
  | object is _ => is
  | interface is _ => is
  | _ => []

/-- The output fields of an object or an interface. -/
def outputFields : TypeBody → List FieldDefinition
  | object _ fs => fs
  | interface _ fs => fs
  | _ => []

/-- The members of a union. -/
def members : TypeBody → List String
  | union ms => ms
  | _ => []

/-- The values of an enum. -/
def values : TypeBody → List EnumValue
  | enum vs => vs
  | _ => []

/-- The fields of an input object. -/
def inputFields : TypeBody → List InputValue
  | inputObject fs => fs
  | _ => []

/-- The body of a kind with the parts of several bodies. -/
def ofParts (kind : TypeKind) (bodies : List TypeBody) : TypeBody :=
  match kind with
  | .scalar => scalar
  | .object => object (bodies.flatMap interfaces) (bodies.flatMap outputFields)
  | .interface => interface (bodies.flatMap interfaces) (bodies.flatMap outputFields)
  | .union => union (bodies.flatMap members)
  | .enum => enum (bodies.flatMap values)
  | .inputObject => inputObject (bodies.flatMap inputFields)

theorem ofParts_singleton (b : TypeBody) : ofParts b.kind [b] = b := by
  cases b <;> simp [ofParts, kind, interfaces, outputFields, members, values, inputFields]

end TypeBody

namespace Schema

/-- The extensions of a name and a kind, in order. -/
def extensionsOf (s : Schema) (name : String) (kind : TypeKind) : List TypeExtension :=
  s.extensions.filter fun e => e.name == name && e.body.kind == kind

/-- **A type with all its extensions.** -/
def complete (s : Schema) (t : TypeDefinition) : TypeDefinition :=
  let added := s.extensionsOf t.name t.kind
  { t with
    directives := t.directives ++ added.flatMap (·.directives)
    body := .ofParts t.kind (t.body :: added.map (·.body)) }

/-- The definitions that are no extensions, with the first type of each name completed. The names
in `seen` have had their first type. -/
def completeFirst (s : Schema) (seen : List String) : Schema → Schema
  | [] => []
  | .extension _ :: rest => completeFirst s seen rest
  | .type t :: rest =>
    .type (if t.name ∈ seen then t else s.complete t) :: completeFirst s (t.name :: seen) rest
  | item :: rest => item :: completeFirst s seen rest

/-- The names of the types that a document defines. -/
def typeNames (s : Schema) : List String := s.types.map (·.name)

/-- The names that a document extends without defining them, by their first extensions. -/
def onlyExtended (s : Schema) : List String :=
  ((s.extensions.map (·.name)).filter fun name => name ∉ s.typeNames).eraseDups

/-- The type that the extensions of an undefined name declare, of the kind of the first one. -/
def ofExtensions? (s : Schema) (name : String) : Option TypeDefinition :=
  (s.extensions.find? fun e => e.name == name).map fun e => s.complete e.blank

/-- The built-in scalars that a document neither defines nor extends. -/
def missingScalars (s : Schema) : List String :=
  builtinScalars.filter fun name => name ∉ s.typeNames ∧ name ∉ s.onlyExtended

/-- **The schema that a document declares.** -/
def declared (s : Schema) : Schema :=
  s.completeFirst [] s ++ (s.onlyExtended.filterMap s.ofExtensions?).map .type ++
    s.missingScalars.map scalarItem

end Schema

end SchemaUsage.Graphql

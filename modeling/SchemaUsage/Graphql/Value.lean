import SchemaUsage.Number.Binary

/-!
# Values and types of GraphQL

What both kinds of GraphQL documents share: type references (`Type`), input values (`Value`) and
directives (`Directive`).

Results:
- `innerName_itemType`: unwrapping one list level keeps the named type.
-/

namespace SchemaUsage.Graphql

/-! ## Type references -/

/-- A type as it is written at a field, an argument or a variable. -/
inductive TypeRef where
  | named (name : String)
  | list (item : TypeRef)
  | nonNull (inner : TypeRef)
  deriving Repr, DecidableEq, Inhabited

namespace TypeRef

/-- The named type within all lists and non-null marks (`inner_type`). -/
def innerName : TypeRef → String
  | named name => name
  | list item => item.innerName
  | nonNull inner => inner.innerName

/-- The type of a list's items, below a non-null mark if there is one; any other type is its own
item type (`list_item_type`). -/
def itemType : TypeRef → TypeRef
  | list item => item
  | nonNull (list item) => item
  | other => other

theorem innerName_itemType (t : TypeRef) : t.itemType.innerName = t.innerName := by
  unfold itemType
  split <;> rfl

/-- The written form of a type. -/
def text : TypeRef → String
  | named name => name
  | list item => "[" ++ item.text ++ "]"
  | nonNull inner => inner.text ++ "!"

end TypeRef

/-! ## Values -/

/-- An input value as it is written in a document. -/
inductive Value where
  | var (name : String)
  | int (value : Int)
  | float (value : Number.Binary)
  | string (value : String)
  | boolean (value : Bool)
  | null
  | enum (name : String)
  | list (items : List Value)
  | object (fields : List (String × Value))
  deriving Repr, Inhabited

/-- Values by name, in written order. -/
abbrev Arguments := List (String × Value)

/-- A directive with its arguments. -/
structure Directive where
  name : String
  arguments : Arguments := []
  deriving Repr, Inhabited

end SchemaUsage.Graphql

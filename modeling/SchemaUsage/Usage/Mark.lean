import SchemaUsage.Graphql.Schema

/-!
# Marks of usage

Model of what `CollectedUsage` is told during a walk (`mark_used`, `mark_all`, `mark_field`), of
`make_id` and of the errors `CollectError`. What a document uses is noted as a list of marks, in
which order and repetition mean nothing: an identifier that is used as such, a type that is used as
a whole, a field (or enum value) of a type.

Results:
- `identifier_injective_right`: two fields of one type have different identifiers.

Out of scope here: the hash set and the hash table that the marks are kept in. The order of the
table is the matter of `Usage.Table`.
-/

namespace SchemaUsage.Usage

open SchemaUsage.Graphql

/-- Something that a document uses: a call of `mark_used`, `mark_all` or `mark_field`. -/
inductive Mark where
  /-- An identifier as it is reported. -/
  | identifier (id : String)
  /-- A type with everything that can be reached from it. -/
  | whole (type : String)
  /-- A field of an input object, or a value of an enum. -/
  | field (type field : String)
  deriving Repr, DecidableEq

/-- The identifier of a field or an enum value: `make_id` of two parts. -/
def fieldId (type field : String) : String := type ++ "." ++ field

/-- The identifier of an argument: `make_id` of three parts. -/
def argumentId (type field argument : String) : String :=
  type ++ "." ++ field ++ "." ++ argument

theorem identifier_injective_right {type a b : String} (h : fieldId type a = fieldId type b) :
    a = b := by
  have := congrArg String.toList h
  simp only [fieldId, String.toList_append] at this
  exact String.toList_injective (List.append_cancel_left this)

/-- Why the usage of a document cannot be told: `CollectError` but for its case `Print`. -/
inductive UsageError where
  | unknownType (name : String)
  | unknownField (type field : String)
  | unknownArgument (type field argument : String)
  | unknownInputField (type field : String)
  | missingRootType (kind : OperationKind)
  | missingParentType (node : String)
  | missingInputType
  deriving Repr, DecidableEq

/-- The wording of the error, as `CollectError` displays it. -/
def UsageError.message : UsageError → String
  | unknownType name => "type '" ++ name ++ "' is not defined in the schema"
  | unknownField type field => "field '" ++ field ++ "' is not defined on type '" ++ type ++ "'"
  | unknownArgument type field argument =>
    "argument '" ++ argument ++ "' is not defined on field '" ++ fieldId type field ++ "'"
  | unknownInputField type field =>
    "field '" ++ field ++ "' is not defined on input type '" ++ type ++ "'"
  | missingRootType kind => "schema has no root type for " ++ kind.keyword ++ " operations"
  | missingParentType node => "unable to find parent type of '" ++ node ++ "'"
  | missingInputType => "unable to resolve the input type of a value"

/-- The first type of a name, or the error that there is none (`lookup`). -/
def firstType (s : Schema) (name : String) : Except UsageError TypeDefinition :=
  match s.firstType? name with
  | some t => .ok t
  | none => .error (.unknownType name)

end SchemaUsage.Usage

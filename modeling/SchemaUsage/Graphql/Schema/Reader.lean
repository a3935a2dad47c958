import SchemaUsage.Graphql.Grammar
import SchemaUsage.Graphql.Schema

/-!
# Reading schema documents

Model of `parse_schema`: the grammar of definitions and extensions over the tokens of a text.

Out of scope: the wording of syntax errors, and the positions of what is read.
-/

namespace SchemaUsage.Graphql.Schema

open SchemaUsage.Text SchemaUsage.Graphql.Grammar

/-! ## Parts of types -/

/-- Whether a token starts an entry that may be described. -/
def startsDescribed (t : Token) : Bool := isString t || isName t

/-- An argument or an input field. -/
def inputValue : Rule InputValue := do
  let described ← description
  let key ← name
  mark ':'
  let type ← typeRef Grammar.depth
  let default ← optional (isMark '=') (do mark '='; value true Grammar.depth)
  pure { description := described, name := key, type := type, default := default
         directives := ← directives }

/-- Argument definitions in parentheses, if there are any. -/
def argumentDefinitions : Rule (List InputValue) :=
  bracketedOrNone '(' ')' startsDescribed inputValue

/-- An output field. -/
def fieldDefinition : Rule FieldDefinition := do
  let described ← description
  let key ← name
  let args ← argumentDefinitions
  mark ':'
  let type ← typeRef Grammar.depth
  pure { description := described, name := key, arguments := args, type := type
         directives := ← directives }

/-- An enum value. -/
def enumValue : Rule EnumValue := do
  let described ← description
  let key ← name
  pure { description := described, name := key, directives := ← directives }

/-- Names separated by a punctuator, at least one. -/
def namesBetween (separator : Char) : Rule (List String) := do
  let first ← name
  let others ← Scan.many (isMark separator) (do mark separator; name)
  pure (first :: others)

/-- The interfaces that a type implements, if it tells any. -/
def interfaces : Rule (List String) := do
  let listed ← optional (· == .name "implements") (do
    keyword "implements"
    let _ ← Scan.accept (.mark '&')
    namesBetween '&')
  pure (listed.getD [])

/-- The members of a union, if it tells any. -/
def members : Rule (List String) := do
  let listed ← optional (isMark '=') (do
    mark '='
    let _ ← Scan.accept (.mark '|')
    namesBetween '|')
  pure (listed.getD [])

/-- Output fields in braces, if there are any. -/
def fields : Rule (List FieldDefinition) :=
  bracketedOrNone '{' '}' startsDescribed fieldDefinition

/-- The name, the directives and the body behind the keyword of a type. -/
def typeParts (word : String) : Rule (String × List Directive × TypeBody) :=
  match word with
  | "scalar" => do
    let key ← name
    pure (key, ← directives, .scalar)
  | "type" => do
    let key ← name
    let implemented ← interfaces
    let dirs ← directives
    pure (key, dirs, .object implemented (← fields))
  | "interface" => do
    let key ← name
    let implemented ← interfaces
    let dirs ← directives
    pure (key, dirs, .interface implemented (← fields))
  | "union" => do
    let key ← name
    let dirs ← directives
    pure (key, dirs, .union (← members))
  | "enum" => do
    let key ← name
    let dirs ← directives
    pure (key, dirs, .enum (← bracketedOrNone '{' '}' startsDescribed enumValue))
  | "input" => do
    let key ← name
    let dirs ← directives
    pure (key, dirs, .inputObject (← bracketedOrNone '{' '}' startsDescribed inputValue))
  | _ => Scan.refuse

/-- An extension adds something. The interfaces that an interface extension names do not count. -/
def adds (directives : List Directive) (body : TypeBody) : Bool :=
  !directives.isEmpty ||
  match body with
  | .scalar => false
  | .object interfaces fields => !interfaces.isEmpty || !fields.isEmpty
  | .interface _ fields => !fields.isEmpty
  | .union members => !members.isEmpty
  | .enum values => !values.isEmpty
  | .inputObject fields => !fields.isEmpty

/-! ## Definitions -/

/-- Where a directive may stand. -/
def locations : List String :=
  ["QUERY", "MUTATION", "SUBSCRIPTION", "FIELD", "FRAGMENT_DEFINITION", "FRAGMENT_SPREAD",
    "INLINE_FRAGMENT", "VARIABLE_DEFINITION", "SCHEMA", "SCALAR", "OBJECT", "FIELD_DEFINITION",
    "ARGUMENT_DEFINITION", "INTERFACE", "UNION", "ENUM", "ENUM_VALUE", "INPUT_OBJECT",
    "INPUT_FIELD_DEFINITION"]

/-- A known directive location. -/
def location : Rule String := do
  let place ← name
  if locations.contains place then pure place else Scan.refuse

/-- What follows the keyword of a directive definition. -/
def directiveBody (described : Option String) : Rule DirectiveDefinition := do
  mark '@'
  let key ← name
  let args ← argumentDefinitions
  let repeatable ← Scan.accept (.name "repeatable")
  keyword "on"
  let _ ← Scan.accept (.mark '|')
  let places ← optional isName (do
    let first ← location
    let others ← Scan.many (isMark '|') (do mark '|'; location)
    pure (first :: others))
  pure { description := described, name := key, arguments := args, repeatable := repeatable
         locations := places.getD [] }

/-- Sets a root type that is not set yet. -/
def Roots.set? (r : Roots) (operation type : String) : Option Roots :=
  match operation with
  | "query" => if r.query.isSome then none else some { r with query := some type }
  | "mutation" => if r.mutation.isSome then none else some { r with mutation := some type }
  | "subscription" =>
    if r.subscription.isSome then none else some { r with subscription := some type }
  | _ => none

/-- What follows the keyword of a schema definition. -/
def rootsBody : Rule Roots := do
  let dirs ← directives
  mark '{'
  let entries ← Scan.many isName (do
    let operation ← name
    mark ':'
    pure (operation, ← name))
  mark '}'
  let start : Roots :=
    { directives := dirs, query := none, mutation := none, subscription := none }
  match entries.foldlM (fun r e => Roots.set? r e.1 e.2) start with
  | some roots => pure roots
  | none => Scan.refuse

/-- A definition. Schema definitions and extensions take no description. -/
def item : Rule SchemaItem := do
  let described ← description
  let word ← name
  match word, described with
  | "schema", none => .roots <$> rootsBody
  | "extend", none => do
    let (key, dirs, body) ← typeParts (← name)
    if adds dirs body then
      pure (.extension { name := key, directives := dirs, body := body })
    else Scan.refuse
  | "directive", _ => .directive <$> directiveBody described
  | _, _ => do
    let (key, dirs, body) ← typeParts word
    pure (.type { description := described, name := key, directives := dirs, body := body })

/-- The schema that a text writes; none if it writes none (`parse_schema`). -/
def parse? (text : String) : Option Schema :=
  (Token.scan text).bind (Scan.whole (Scan.some (fun _ => true) item))

end SchemaUsage.Graphql.Schema

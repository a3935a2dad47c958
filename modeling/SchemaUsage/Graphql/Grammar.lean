import SchemaUsage.Graphql.Token
import SchemaUsage.Graphql.Value

/-!
# The grammar that all GraphQL texts share

The rules that `parse_query` and `parse_schema` have in common: scanners over tokens for names,
keywords, type references, values, arguments and directives. A scanner that may nest takes the depth
to which brackets may still open.

Out of scope: the wording of syntax errors. A rule refuses or it does not.
-/

namespace SchemaUsage.Graphql.Grammar

open SchemaUsage.Text

/-- Scanners over tokens. -/
abbrev Rule (α : Type) := Scan Token α

/-- A name. -/
def name : Rule String := do
  match ← Scan.next with
  | .name text => pure text
  | _ => Scan.refuse

/-- The name `word`. -/
def keyword (word : String) : Rule Unit := Scan.expect (.name word)

/-- A punctuator. -/
def mark (c : Char) : Rule Unit := Scan.expect (.mark c)

/-- Whether a token is a certain punctuator. -/
def isMark (c : Char) (t : Token) : Bool := t == .mark c

/-- Whether a token is a name. -/
def isName : Token → Bool
  | .name _ => true
  | _ => false

/-- Whether a token is a string. -/
def isString : Token → Bool
  | .string _ => true
  | _ => false

/-- Runs a rule if the next token satisfies `starts`. -/
def optional (starts : Token → Bool) (rule : Rule α) : Rule (Option α) := do
  match ← Scan.peek with
  | some t => if starts t then some <$> rule else pure none
  | none => pure none

/-- The items between two brackets, at least one. -/
def bracketed (opening closing : Char) (starts : Token → Bool) (item : Rule α) :
    Rule (List α) := do
  mark opening
  let items ← Scan.some starts item
  mark closing
  pure items

/-- The items between two brackets, at least one, or none without the brackets. -/
def bracketedOrNone (opening closing : Char) (starts : Token → Bool) (item : Rule α) :
    Rule (List α) := do
  pure ((← optional (isMark opening) (bracketed opening closing starts item)).getD [])

/-- A string. -/
def string : Rule String := do
  match ← Scan.next with
  | .string text => pure text
  | _ => Scan.refuse

/-- A string that describes what follows it. -/
def description : Rule (Option String) := optional isString string

/-- A type reference. -/
def typeRef : Nat → Rule TypeRef
  | 0 => Scan.refuse
  | depth + 1 => do
    let inner ← match ← Scan.next with
      | .name text => pure (.named text)
      | .mark '[' => do
        let item ← typeRef depth
        mark ']'
        pure (.list item)
      | _ => Scan.refuse
    if ← Scan.accept (.mark '!') then pure (.nonNull inner) else pure inner

/-- Whether a token starts a value. -/
def startsValue : Token → Bool
  | .mark c => c == '$' || c == '[' || c == '{'
  | .dots => false
  | _ => true

/-- A value; a constant holds no variables. -/
def value (constant : Bool) : Nat → Rule Value
  | 0 => Scan.refuse
  | depth + 1 => do
    match ← Scan.next with
    | .name "true" => pure (.boolean true)
    | .name "false" => pure (.boolean false)
    | .name "null" => pure .null
    | .name text => pure (.enum text)
    | .int i => pure (.int i)
    | .float x => pure (.float x)
    | .string text => pure (.string text)
    | .mark '$' => if constant then Scan.refuse else .var <$> name
    | .mark '[' => do
      let items ← Scan.many startsValue (value constant depth)
      mark ']'
      pure (.list items)
    | .mark '{' => do
      let fields ← Scan.many isName (do
        let key ← name
        mark ':'
        pure (key, ← value constant depth))
      mark '}'
      pure (.object fields)
    | _ => Scan.refuse

/-- How deep rules may nest: no deeper than brackets may be open. -/
def depth : Nat := Token.maxDepth + 1

/-- Arguments in parentheses, if there are any. -/
def arguments : Rule Arguments :=
  bracketedOrNone '(' ')' isName do
    let key ← name
    mark ':'
    pure (key, ← value false depth)

/-- A row of directives. -/
def directives : Rule (List Directive) :=
  Scan.many (isMark '@') do
    mark '@'
    let key ← name
    pure { name := key, arguments := ← arguments }

end SchemaUsage.Graphql.Grammar

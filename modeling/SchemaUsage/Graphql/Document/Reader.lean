import SchemaUsage.Graphql.Document
import SchemaUsage.Graphql.Grammar

/-!
# Reading executable documents

Model of `parse_query`: the grammar of operations and fragments over the tokens of a text.

Out of scope: the wording of syntax errors, and the positions of what is read.
-/

namespace SchemaUsage.Graphql.Document

open SchemaUsage.Text SchemaUsage.Graphql.Grammar

/-- Whether a token starts a selection. -/
def startsSelection (t : Token) : Bool := isName t || t == .dots

/-- The selections between braces, at least one. -/
def selectionSet : Nat → Rule (List Selection)
  | 0 => Scan.refuse
  | depth + 1 => bracketed '{' '}' startsSelection do
    match ← Scan.next with
    | .name first => do
      let second ← optional (isMark ':') (do mark ':'; name)
      let args ← arguments
      let dirs ← directives
      let nested ← optional (isMark '{') (selectionSet depth)
      match second with
      | some own => pure (.field (some first) own args dirs (nested.getD []))
      | none => pure (.field none first args dirs (nested.getD []))
    | .dots => do
      match ← Scan.peek with
      | some (.name "on") => do
        keyword "on"
        let condition ← name
        let dirs ← directives
        pure (.inline (some condition) dirs (← selectionSet depth))
      | some (.name fragment) => do
        let _ ← Scan.next
        pure (.spread fragment (← directives))
      | _ => do
        let dirs ← directives
        pure (.inline none dirs (← selectionSet depth))
    | _ => Scan.refuse

/-- A variable definition; its default value is a constant. -/
def variableDefinition : Rule VariableDefinition := do
  let _ ← description
  mark '$'
  let key ← name
  mark ':'
  let type ← typeRef Grammar.depth
  let default ← optional (isMark '=') (do mark '='; value true Grammar.depth)
  pure { name := key, type := type, default := default }

/-- What follows the keyword of an operation. -/
def operationBody (kind : OperationKind) : Rule Operation := do
  let key ← optional isName name
  let variableList ← bracketedOrNone '(' ')' (fun t => isString t || isMark '$' t) variableDefinition
  let dirs ← directives
  pure (.full kind key variableList dirs (← selectionSet Grammar.depth))

/-- What follows the keyword of a fragment. -/
def fragmentBody : Rule Fragment := do
  let key ← name
  keyword "on"
  let condition ← name
  let dirs ← directives
  let selections ← selectionSet Grammar.depth
  pure { name := key, condition := condition, directives := dirs, selections := selections }

/-- An operation or a fragment. -/
def definition : Rule Definition := do
  match ← Scan.peek with
  | some (.mark '{') => do pure (.operation (.shorthand (← selectionSet Grammar.depth)))
  | some (.name word) => do
    let _ ← Scan.next
    match word with
    | "query" => .operation <$> operationBody .query
    | "mutation" => .operation <$> operationBody .mutation
    | "subscription" => .operation <$> operationBody .subscription
    | "fragment" => .fragment <$> fragmentBody
    | _ => Scan.refuse
  | _ => Scan.refuse

/-- The document that a text writes; none if it writes none (`parse_query`). -/
def parse? (text : String) : Option Document :=
  (Token.scan text).bind (Scan.whole (Scan.some (fun _ => true) definition))

end SchemaUsage.Graphql.Document

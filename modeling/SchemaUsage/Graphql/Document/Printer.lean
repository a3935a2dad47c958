import SchemaUsage.Graphql.Document
import SchemaUsage.Graphql.StringLiteral
import SchemaUsage.Number.Shortest
import SchemaUsage.Text.Digits

/-!
# Compact text of executable documents

Model of `print_operation`, which minifies the displayed form of a document (`minify_query`). A
document is laid out as a row of pieces, one for each token. The compact text joins them with one
blank between two words and nothing elsewhere.

* Minifying reads the displayed form again and keeps its tokens as they are written. So the
  indentation of block strings is part of the text, and a piece that is no token is an error.

Results:
- `compactText_eq_ok_iff`: a document has a compact text iff each of its pieces is a token.
-/

namespace SchemaUsage.Graphql

/-! ## Pieces -/

/-- A printed token: a punctuator, or a word (a name, a number, a string). -/
inductive Piece where
  | mark (text : String)
  | word (text : String)
  deriving Repr, DecidableEq

namespace Piece

/-- The text of a piece. -/
def text : Piece → String
  | mark text => text
  | word text => text

/-- A minus opens a number, so a digit follows it. -/
def isToken : Piece → Bool
  | mark _ => true
  | word text =>
    match text.toList with
    | '-' :: c :: _ => Text.isDigit c
    | ['-'] => false
    | _ => true

/-- The pieces in a row; one blank separates two words. -/
def join : List Piece → String
  | [] => ""
  | [piece] => piece.text
  | word a :: word b :: rest => a ++ " " ++ join (word b :: rest)
  | piece :: rest => piece.text ++ join rest

end Piece

/-! ## Values -/

mutual
/-- The pieces of a value. Blocks of text are indented by `indent`. -/
def Value.pieces (indent : Nat) : Value → List Piece
  | .var name => [.mark "$", .word name]
  | .int i => [.word (toString i)]
  | .float x => [.word (Number.Format.double.text x)]
  | .string s => [.word (StringLiteral.written indent s)]
  | .boolean b => [.word (if b then "true" else "false")]
  | .null => [.word "null"]
  | .enum name => [.word name]
  | .list items => .mark "[" :: itemPieces indent items ++ [.mark "]"]
  | .object fields => .mark "\x7b" :: fieldPieces indent fields ++ [.mark "\x7d"]
/-- The pieces of list items. -/
def itemPieces (indent : Nat) : List Value → List Piece
  | [] => []
  | v :: vs => v.pieces indent ++ itemPieces indent vs
/-- The pieces of named values. -/
def fieldPieces (indent : Nat) : Arguments → List Piece
  | [] => []
  | (name, v) :: rest => .word name :: .mark ":" :: v.pieces indent ++ fieldPieces indent rest
end

/-- The pieces of arguments; without any, there are no parentheses. -/
def Arguments.pieces (indent : Nat) (args : Arguments) : List Piece :=
  if args.isEmpty then [] else .mark "(" :: fieldPieces indent args ++ [.mark ")"]

/-- The pieces of a row of directives. -/
def directivePieces (indent : Nat) (directives : List Directive) : List Piece :=
  directives.flatMap fun d => .mark "@" :: .word d.name :: d.arguments.pieces indent

/-- The pieces of a type reference. -/
def TypeRef.pieces : TypeRef → List Piece
  | named name => [.word name]
  | list item => .mark "[" :: item.pieces ++ [.mark "]"]
  | nonNull inner => inner.pieces ++ [.mark "!"]

/-! ## Selections and definitions -/

mutual
/-- The pieces of a selection inside of selection sets that indent by `indent`. -/
def Selection.pieces (indent : Nat) : Selection → List Piece
  | .field aliasName name args directives selections =>
    (match aliasName with
      | some own => [.word own, .mark ":"]
      | none => []) ++
    .word name :: args.pieces indent ++ directivePieces indent directives ++
      bracedPieces indent selections
  | .spread fragment directives =>
    .mark "..." :: .word fragment :: directivePieces indent directives
  | .inline condition directives selections =>
    .mark "..." ::
    (match condition with
      | some name => [.word "on", .word name]
      | none => []) ++
    directivePieces indent directives ++ bracedPieces indent selections
/-- The pieces of selections in braces; without any, there are no braces. -/
def bracedPieces (indent : Nat) : List Selection → List Piece
  | [] => []
  | s :: rest =>
    .mark "\x7b" :: s.pieces (indent + 2) ++ selectionPieces (indent + 2) rest ++
      [.mark "\x7d"]
/-- The pieces of selections in a row. -/
def selectionPieces (indent : Nat) : List Selection → List Piece
  | [] => []
  | s :: rest => s.pieces indent ++ selectionPieces indent rest
end

/-- The pieces of a variable definition. -/
def VariableDefinition.pieces (v : VariableDefinition) : List Piece :=
  .mark "$" :: .word v.name :: .mark ":" :: v.type.pieces ++
  match v.default with
  | some value => .mark "=" :: value.pieces 0
  | none => []

/-- The pieces of variable definitions; without any, there are no parentheses. -/
def variablePieces (variableList : List VariableDefinition) : List Piece :=
  if variableList.isEmpty then []
  else .mark "(" :: variableList.flatMap VariableDefinition.pieces ++ [.mark ")"]

/-- The pieces of an operation. The variables of a subscription are printed behind its name
only. -/
def Operation.pieces : Operation → List Piece
  | .shorthand selections => bracedPieces 0 selections
  | .full kind name variableList directives selections =>
    let head := match name with
      | some name => [.word name]
      | none => []
    let shown := if kind = .subscription ∧ name = none then [] else variableList
    .word kind.keyword :: head ++ variablePieces shown ++ directivePieces 0 directives ++
      bracedPieces 0 selections

/-- The pieces of a fragment definition. -/
def Fragment.pieces (f : Fragment) : List Piece :=
  .word "fragment" :: .word f.name :: .word "on" :: .word f.condition ::
    directivePieces 0 f.directives ++ bracedPieces 0 f.selections

/-- The pieces of a definition. -/
def Definition.pieces : Definition → List Piece
  | .operation op => op.pieces
  | .fragment frag => frag.pieces

namespace Document

/-- The pieces of a document. -/
def pieces (doc : Document) : List Piece :=
  doc.flatMap Definition.pieces

/-- A printed document holds a piece that is no token: minus infinity (`PrintError`). -/
inductive PrintError where
  | notAToken (piece : String)
  deriving Repr, DecidableEq

/-- The wording of the error. -/
def PrintError.message : PrintError → String
  | .notAToken piece => "failed to print the normalized operation: unexpected " ++ piece

/-- **The compact text of a document** (`print_operation`). -/
def compactText (doc : Document) : Except PrintError String :=
  match doc.pieces.find? (fun piece => !piece.isToken) with
  | some piece => .error (.notAToken piece.text)
  | none => .ok (Piece.join doc.pieces)

theorem compactText_eq_ok_iff (doc : Document) (text : String) :
    compactText doc = .ok text ↔
      (∀ piece ∈ doc.pieces, piece.isToken = true) ∧ text = Piece.join doc.pieces := by
  unfold compactText
  split
  · rename_i piece h
    have hmem := List.mem_of_find?_eq_some h
    have hbad := List.find?_some h
    constructor
    · intro h'; cases h'
    · rintro ⟨hall, -⟩
      rw [hall piece hmem] at hbad
      exact absurd hbad (by simp)
  · rename_i h
    have hall : ∀ piece ∈ doc.pieces, piece.isToken = true := by
      simpa using List.find?_eq_none.mp h
    constructor
    · intro h'
      cases h'
      exact ⟨hall, rfl⟩
    · rintro ⟨-, rfl⟩
      rfl

end Document

end SchemaUsage.Graphql

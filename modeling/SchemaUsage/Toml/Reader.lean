import SchemaUsage.Toml.Scalar
import SchemaUsage.Toml.Table

/-!
# TOML documents

The reader of configuration files with the extension `toml` (TOML 1.1). A document is a row of
lines: headers, each of which opens a table or adds one to a list, and keys with their values in the
table that was opened last.

Out of scope: where an error stands and what it says.
-/

namespace SchemaUsage.Toml

open SchemaUsage.Text

/-! ## Keys -/

/-- The characters of keys without quotes. -/
def isBareChar (c : Char) : Bool := c.isAlphanum || c == '_' || c == '-'

/-- A key between dots. -/
def simpleKey : Scan Char String := do
  match ← Scan.peek with
  | some '"' => Scan.expect '"' *> lineString '"'
  | some '\'' => Scan.expect '\'' *> lineString '\''
  | _ => do
    let chars ← Scan.takeWhile isBareChar
    if chars.isEmpty then Scan.refuse else pure (String.ofList chars)

/-- A key with dots: the path in front of the last dot, and what follows it. -/
def dottedKey : Nat → Scan Char (List String × String)
  | 0 => Scan.refuse
  | n + 1 => do
    let first ← simpleKey
    skipSpace
    if ← Scan.accept '.' then do
      skipSpace
      let (path, key) ← dottedKey n
      pure (first :: path, key)
    else pure ([], first)

/-! ## Values -/

/-- Items of a list up to its bracket; the last one may have a comma too. -/
def items (item : Scan Char Json) : Nat → Scan Char (List Json)
  | 0 => Scan.refuse
  | n + 1 => do
    skipLines (n + 1)
    if ← Scan.accept ']' then pure []
    else do
      let first ← item
      skipLines (n + 1)
      if ← Scan.accept ',' then do
        let others ← items item n
        pure (first :: others)
      else do
        Scan.expect ']'
        pure [first]

/-- A key and its value; `blank` skips what may stand around the equals sign. -/
def pair (blank : Scan Char Unit) (value : Scan Char Json) (n : Nat) :
    Scan Char ((List String × String) × Json) := do
  let key ← dottedKey n
  blank
  Scan.expect '='
  blank
  let j ← value
  pure (key, j)

/-- Pairs of a table up to its brace; the last one may have a comma too. -/
def inlinePairs (value : Scan Char Json) : Nat →
    Scan Char (List ((List String × String) × Json))
  | 0 => Scan.refuse
  | n + 1 => do
    skipLines (n + 1)
    if ← Scan.accept '}' then pure []
    else do
      let first ← pair (skipLines (n + 1)) value (n + 1)
      skipLines (n + 1)
      if ← Scan.accept ',' then do
        let others ← inlinePairs value n
        pure (first :: others)
      else do
        Scan.expect '}'
        pure [first]

/-- The table of some pairs. -/
def tableOf? (pairs : List ((List String × String) × Json)) : Option Members :=
  pairs.foldlM (fun members p => put? p.1.1 p.1.2 p.2 members) []

/-- A table behind its brace. -/
def inlineTable (value : Scan Char Json) (n : Nat) : Scan Char Json := do
  match tableOf? (← inlinePairs value n) with
  | some members => pure (.obj (membersJson members))
  | none => Scan.refuse

/-- How deep lists and tables in braces nest at most. -/
def maxDepth : Nat := 80

/-- A value of a text of `n` characters at most, in which lists and tables nest no deeper than
`depth`. -/
def value (n : Nat) : Nat → Scan Char Json
  | 0 => do if (← Scan.peek).any ['[', '{'].contains then Scan.refuse else scalar
  | depth + 1 => do
    if ← Scan.accept '[' then do pure (.arr (← items (value n depth) n))
    else if ← Scan.accept '{' then inlineTable (value n depth) n
    else scalar
where
  /-- A string or a word. -/
  scalar : Scan Char Json := do
    match ← Scan.peek with
    | some '"' => .str <$> string '"'
    | some '\'' => .str <$> string '\''
    | _ => word

/-! ## Documents -/

/-- What a line of a document says. -/
inductive Line where
  | blank
  | header (path : List String) (key : String)
  | listHeader (path : List String) (key : String)
  | pair (path : List String) (key : String) (value : Json)
  deriving Repr, Inhabited

/-- What stands on a line in front of its comment. -/
def line (n : Nat) : Scan Char Line := do
  match ← Scan.peek with
  | some '[' => do
    Scan.expect '['
    let isList ← Scan.accept '['
    skipSpace
    let (path, key) ← dottedKey n
    Scan.expect ']'
    if isList then do
      Scan.expect ']'
      pure (.listHeader path key)
    else pure (.header path key)
  | some c =>
    if c = '#' ∨ c = '\n' ∨ c = '\r' then pure .blank
    else do
      let ((path, key), j) ← pair skipSpace (value n maxDepth) n
      pure (.pair path key j)
  | none => pure .blank

/-- The lines of a text. -/
def lines (n : Nat) : Nat → Scan Char (List Line)
  | 0 => Scan.refuse
  | m + 1 => do
    skipSpace
    let first ← line n
    skipSpace
    skipComment
    if ← lineEnd then do
      let others ← lines n m
      pure (first :: others)
    else do
      Scan.atEnd
      pure [first]

/-- A document as far as it has been read: its table, and the path of the table that was opened
last. -/
structure Draft where
  members : Members := []
  path : List String := []

/-- Adds a line. -/
def Draft.add? (d : Draft) : Line → Option Draft
  | .blank => some d
  | .header path key => (openTable? path key d.members).map fun ms => ⟨ms, path ++ [key]⟩
  | .listHeader path key => (addTable? path key d.members).map fun ms => ⟨ms, path ++ [key]⟩
  | .pair path key j =>
    (descend? false (fun _ inner => put? path key j inner) d.path .header d.members).map
      fun ms => { d with members := ms }

/-- **The value of a TOML text.** -/
def parse? (text : String) : Option Json := do
  let cs := text.toList
  let read ← Scan.whole (lines (cs.length + 1) (cs.length + 1)) cs
  let draft ← read.foldlM Draft.add? {}
  pure (.obj (membersJson draft.members))

end SchemaUsage.Toml

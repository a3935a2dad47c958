import SchemaUsage.Ron.Scalar

/-!
# RON texts

The reader of configuration files with the extension `ron`. A text holds one value. Structures with
named fields and maps are tables, and tuples are lists. A name in front of them says nothing about
their value; one that stands alone is nothing.

Out of scope: where an error stands and what it says.
-/

namespace SchemaUsage.Ron

open SchemaUsage.Text

/-- Items separated by commas up to a closing symbol; the last one may have a comma too. -/
def separated (close : Char) (item : Scan Char α) : Nat → Scan Char (List α)
  | 0 => Scan.refuse
  | n + 1 => do
    skipSpace (n + 1)
    if ← Scan.accept close then pure []
    else do
      let first ← item
      skipSpace (n + 1)
      if ← Scan.accept ',' then do
        let others ← separated close item n
        pure (first :: others)
      else do
        Scan.expect close
        pure [first]

/-- Whether a field with a name comes. -/
def fieldAhead (n : Nat) : Scan Char Bool := fun cs =>
  let ahead : Scan Char Unit := do
    skipSpace n
    let _ ← name
    skipSpace n
    Scan.expect ':'
  some ((ahead cs).isSome, cs)

/-- What stands in parentheses: fields with names, or the items of a tuple. -/
def parenthesized (value : Scan Char Json) (n : Nat) : Scan Char Json := do
  if ← fieldAhead n then do
    let fields ← separated ')' (do
      let field ← name
      skipSpace n
      Scan.expect ':'
      skipSpace n
      let j ← value
      pure (field, j)) n
    pure (Json.ofMembers fields)
  else do
    pure (.arr (← separated ')' value n))

/-- A value and its name in a map. Only texts are names. -/
def mapEntry (value : Scan Char Json) (n : Nat) : Scan Char (String × Json) := do
  match ← value with
  | .str key => do
    skipSpace n
    Scan.expect ':'
    skipSpace n
    let j ← value
    pure (key, j)
  | _ => Scan.refuse

/-- What a name starts. -/
def named (value : Scan Char Json) (n : Nat) : Scan Char Json := do
  match ← name with
  | "true" => pure (.bool true)
  | "false" => pure (.bool false)
  | "None" => pure .null
  | "Some" => do
    skipSpace n
    Scan.expect '('
    skipSpace n
    let j ← value
    skipSpace n
    let _ ← Scan.accept ','
    skipSpace n
    Scan.expect ')'
    pure j
  | _ => do
    skipSpace n
    if ← Scan.accept '(' then parenthesized value n else pure .null

/-- How deep values nest at most. -/
def maxDepth : Nat := 128

/-- A value that nests less deep than the fuel, in a text of `n` characters at most. -/
def value (n : Nat) : Nat → Scan Char Json
  | 0 => Scan.refuse
  | depth + 1 => do
    match ← get with
    | '(' :: ')' :: _ => do
      let _ ← Scan.next
      let _ ← Scan.next
      pure .null
    | '(' :: _ => do
      Scan.expect '('
      parenthesized (value n depth) n
    | '[' :: _ => do
      Scan.expect '['
      pure (.arr (← separated ']' (value n depth) n))
    | '{' :: _ => do
      Scan.expect '{'
      pure (Json.ofMembers (← separated '}' (mapEntry (value n depth) n) n))
    | '"' :: _ => .str <$> string
    | '\'' :: _ => .str <$> character
    | cs =>
      if startsRaw cs then .str <$> rawString
      else if (word? false cs).isSome then number
      else if cs.head?.any startsName then named (value n depth) n
      else number

/-- The names of the extensions that a text may switch on. -/
def extensions : List String :=
  ["unwrap_newtypes", "implicit_some", "unwrap_variant_newtypes", "explicit_struct_names"]

/-- Switches in front of the value. -/
def switches (n : Nat) : Nat → Scan Char Unit
  | 0 => Scan.refuse
  | m + 1 => do
    skipSpace n
    if ← Scan.accept '#' then do
      let mark (c : Char) : Scan Char Unit := do
        skipSpace n
        Scan.expect c
      mark '!'
      mark '['
      skipSpace n
      let word ← name
      mark '('
      let found ← separated ')' name n
      mark ']'
      if word == "enable" && found.all extensions.contains then switches n m else Scan.refuse

/-- **The value of a RON text.** -/
def parse? (text : String) : Option Json :=
  let cs := text.toList
  let n := cs.length + 1
  Scan.whole (do
    switches n n
    let j ← value n maxDepth
    skipSpace n
    pure j) cs

end SchemaUsage.Ron

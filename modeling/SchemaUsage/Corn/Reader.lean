import SchemaUsage.Json.Basic
import SchemaUsage.Number.Literal
import SchemaUsage.Number.Power
import SchemaUsage.Text.Lines
import SchemaUsage.Text.Scan

/-!
# Corn texts

The reader of configuration files with the extension `corn`. A text holds one object, and in front
of it perhaps inputs: values with names, which the object and its strings may use. Pairs and items
are separated by blanks alone. The key of a pair is a path into objects, which are made on the way.

Out of scope: where an error stands and what it says.
-/

namespace SchemaUsage.Corn

open SchemaUsage.Text SchemaUsage.Number

/-- Values with names. -/
abbrev Inputs := List (String × Json)

/-! ## Blanks and names -/

/-- The characters between symbols. -/
def isSpace (c : Char) : Bool := [' ', '\t', '\n', '\r'].contains c

/-- Skips blanks and a number of comments at most. -/
def skipSpace : Nat → Scan Char Unit
  | 0 => pure ()
  | n + 1 => do
    let _ ← Scan.takeWhile isSpace
    match ← get with
    | '/' :: '/' :: rest => do
      set (rest.dropWhile fun c => c != '\n' && c != '\r')
      skipSpace n
    | _ => pure ()

/-- Takes a word if it comes, and tells whether it did. -/
def acceptWord (word : String) : Scan Char Bool := fun cs =>
  let letters := word.toList
  if letters.isPrefixOf cs then some (true, cs.drop letters.length) else some (false, cs)

/-- The name of an input behind its mark: letters and digits, and single underscores in between. -/
def nameRest : List Char → List Char
  | '_' :: c :: rest => if c.isAlphanum then '_' :: c :: nameRest rest else []
  | c :: rest => if c.isAlphanum then c :: nameRest rest else []
  | [] => []

/-- An input with its mark. -/
def inputName : Scan Char String := do
  Scan.expect '$'
  let c ← Scan.next
  if c.isAlpha then do
    let others := nameRest (← get)
    modify (·.drop others.length)
    pure (String.ofList (c :: others))
  else Scan.refuse

/-- The value of an input. -/
def input (inputs : Inputs) : Scan Char Json := do
  match inputs.lookup (← inputName) with
  | some j => pure j
  | none => Scan.refuse

/-! ## Strings -/

/-- The lines of a string without the blanks that all but the first have in common. The line end
right behind the opening quote does not count. -/
def unindented (text : List Char) : List Char :=
  match Text.lines text with
  | [] => []
  | first :: others =>
    let indentation (line : List Char) : Nat := (line.takeWhile isSpace).length
    let common := ((others.map indentation).min?).getD 0
    let shown := others.map (·.drop common)
    join ['\n'] (if first.isEmpty && !others.isEmpty then shown else first :: shown)

/-- What an escape behind its backslash stands for. -/
def escaped : Scan Char Char := do
  match ← Scan.next with
  | '"' => pure '"'
  | '\\' => pure '\\'
  | '$' => pure '$'
  | 'n' => pure '\n'
  | 'r' => pure '\r'
  | 't' => pure '\t'
  | 'u' => do
    Scan.expect '{'
    let digits ← Scan.takeWhile (· != '}')
    Scan.expect '}'
    match hexValue? digits with
    | some n =>
      if h : n.isValidChar ∧ digits ≠ [] then pure (Char.ofNatAux n h.1) else Scan.refuse
    | none => Scan.refuse
  | _ => Scan.refuse

/-- A piece of a string: a character, an escape, or an input that stands for a text. -/
def stringPiece (inputs : Inputs) : Scan Char (List Char) := do
  match ← Scan.peek with
  | some '$' => do
    match ← input inputs with
    | .str text => pure text.toList
    | _ => Scan.refuse
  | _ => do
    let c ← Scan.next
    if c = '\\' then pure [← escaped] else pure [c]

/-- A string. -/
def string (inputs : Inputs) : Scan Char String := do
  Scan.expect '"'
  let pieces ← Scan.many (· != '"') (stringPiece inputs)
  Scan.expect '"'
  let text := pieces.flatten
  pure (String.ofList (if text.contains '\n' then unindented text else text))

/-! ## Numbers -/

/-- The number that digits of a base write, with single underscores between them. -/
def based? (base : Nat) (cs : List Char) : Option Json :=
  let groups := split '_' cs
  let values := groups.flatten.map hexDigit?
  if groups.any List.isEmpty || values.any (·.all (base ≤ ·)) then none
  else
    let n : Nat := (values.filterMap id).foldl (fun n d => base * n + d) 0
    if isSigned64 n then some (.int n) else none

/-- A decimal number; one with a point is real. -/
def decimal? (word : List Char) : Option Json :=
  let body := if word.head? = some '-' then word.drop 1 else word
  let whole := body.takeWhile fun c => c != '.'
  let isPlain := whole == ['0'] || whole.head? != some '0'
  if !isPlain || !whole.head?.any isDigit then none
  else if body.contains '.' then
    if (body.drop (whole.length + 1)).head?.any isDigit then
      (Format.double.read (String.ofList word)).toOption.map .float
    else none
  else
    (based? 10 body).bind fun
      | .int n =>
        let i := if word.head? = some '-' then -n else n
        if isSigned64 i then some (.int i) else none
      | _ => none

/-- A number. -/
def number : Scan Char Json := do
  let word ← Scan.takeWhile fun c => c.isAlphanum || ['_', '.', '+', '-'].contains c
  let found := match word with
    | '0' :: 'x' :: digits => based? 16 digits
    | '0' :: 'o' :: digits => based? 8 digits
    | '0' :: 'b' :: digits => based? 2 digits
    | _ => decimal? word
  match found with
  | some j => pure j
  | none => Scan.refuse

/-! ## Objects -/

/-- A key of a path: in single quotes, or up to a blank, a point or an equals sign. -/
def pathKey : Scan Char String := do
  let quoted ← Scan.accept '\''
  let key ← Scan.takeWhile fun c =>
    if quoted then c != '\'' else !isSpace c && c != '.' && c != '='
  if quoted then Scan.expect '\''
  if key.isEmpty then Scan.refuse else pure (String.ofList key)

/-- The keys of a path, with points between them. -/
def path : Nat → Scan Char (List String)
  | 0 => Scan.refuse
  | n + 1 => do
    let first ← pathKey
    if ← Scan.accept '.' then do
      let others ← path n
      pure (first :: others)
    else pure [first]

/-- Sets the value at a path, through objects only. -/
def putAt : List String → Json → List (String × Json) → Option (List (String × Json))
  | [], _, members => some members
  | [key], j, members => some (Named.insert key j members)
  | key :: keys, j, members => do
    let inner ← match members.lookup key with
      | none => some []
      | some (.obj inner) => some inner
      | some _ => none
    let inner ← putAt keys j inner
    pure (Named.insert key (.obj inner) members)

/-- Items up to a closing symbol. -/
def upTo (close : Char) (item : Scan Char α) : Nat → Scan Char (List α)
  | 0 => Scan.refuse
  | n + 1 => do
    skipSpace (n + 1)
    if ← Scan.accept close then pure []
    else do
      let first ← item
      let others ← upTo close item n
      pure (first :: others)

/-- What stands in an object: a pair, or the members of an input. -/
def objectPart (inputs : Inputs) (value : Scan Char Json) (n : Nat) :
    Scan Char (List (List String × Json)) := do
  if ← acceptWord ".." then do
    match ← input inputs with
    | .obj members => pure (members.map fun (key, j) => ([key], j))
    | _ => Scan.refuse
  else do
    let keys ← path n
    skipSpace n
    Scan.expect '='
    skipSpace n
    let j ← value
    pure [(keys, j)]

/-- What stands in an array: a value, or the items of an input. -/
def arrayPart (inputs : Inputs) (value : Scan Char Json) : Scan Char (List Json) := do
  if ← acceptWord ".." then do
    match ← input inputs with
    | .arr items => pure items
    | _ => Scan.refuse
  else do
    let j ← value
    pure [j]

/-- An object behind its brace. -/
def object (inputs : Inputs) (value : Scan Char Json) (n : Nat) : Scan Char Json := do
  let parts ← upTo '}' (objectPart inputs value n) n
  match parts.flatten.foldlM (fun members p => putAt p.1 p.2 members) [] with
  | some members => pure (.obj members)
  | none => Scan.refuse

/-- A value that nests less deep than the fuel, in a text of `n` characters at most. -/
def value (inputs : Inputs) (n : Nat) : Nat → Scan Char Json
  | 0 => Scan.refuse
  | depth + 1 => do
    if ← Scan.accept '{' then object inputs (value inputs n depth) n
    else if ← Scan.accept '[' then do
      let parts ← upTo ']' (arrayPart inputs (value inputs n depth)) n
      pure (.arr parts.flatten)
    else if ← acceptWord "true" then pure (.bool true)
    else if ← acceptWord "false" then pure (.bool false)
    else if ← acceptWord "null" then pure .null
    else
      match ← Scan.peek with
      | some '$' => input inputs
      | some '"' => .str <$> string inputs
      | _ => number

/-- Inputs up to the closing brace; each may use those in front of it. -/
def inputsFrom (n : Nat) : Nat → Inputs → Scan Char Inputs
  | 0, _ => Scan.refuse
  | m + 1, inputs => do
    skipSpace n
    if ← Scan.accept '}' then pure inputs
    else do
      let name ← inputName
      skipSpace n
      Scan.expect '='
      skipSpace n
      let j ← value inputs n n
      inputsFrom n m ((name, j) :: inputs)

/-- The inputs in front of the object. -/
def letBlock (n : Nat) : Scan Char Inputs := do
  if ← acceptWord "let" then do
    skipSpace n
    Scan.expect '{'
    let inputs ← inputsFrom n n []
    skipSpace n
    if ← acceptWord "in" then pure inputs else Scan.refuse
  else pure []

/-- **The value of a Corn text.** -/
def parse? (text : String) : Option Json :=
  let cs := text.toList
  let n := cs.length + 1
  Scan.whole (do
    skipSpace n
    let inputs ← letBlock n
    skipSpace n
    Scan.expect '{'
    let j ← object inputs (value inputs n n) n
    skipSpace n
    pure j) cs

end SchemaUsage.Corn

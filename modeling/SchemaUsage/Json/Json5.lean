import SchemaUsage.Json.Basic
import SchemaUsage.Number.Literal
import SchemaUsage.Text.Blank
import SchemaUsage.Text.Scan

/-!
# JSON5 texts

The reader behind the default file `usage.config.json5`: JSON as people write it by hand, with
comments, trailing commas, unquoted names, single quotes, and more forms of numbers. Integers keep
64 bits; other numbers are doubles.

Out of scope: where an error stands and what it says.
-/

namespace SchemaUsage.Json.Json5

open SchemaUsage.Text SchemaUsage.Number

/-! ## Blanks -/

/-- The characters that end a line. -/
def isLineEnd (c : Char) : Bool :=
  c == '\n' || c == '\r' || c.toNat == 0x2028 || c.toNat == 0x2029

/-- The characters between symbols. -/
def isSpace (c : Char) : Bool :=
  (isBlank c && c.toNat != 0x85) || c.toNat == 0xFEFF

/-- Drops a comment behind its first two characters; none if it does not end. -/
def dropBlockComment : List Char → Option (List Char)
  | [] => none
  | '*' :: '/' :: rest => some rest
  | _ :: rest => dropBlockComment rest

theorem length_dropBlockComment {cs rest : List Char} (h : dropBlockComment cs = some rest) :
    rest.length < cs.length := by
  fun_induction dropBlockComment cs with
  | case1 => cases h
  | case2 =>
    cases h
    simp only [List.length_cons]
    omega
  | case3 _ _ _ ih =>
    have := ih h
    simp only [List.length_cons]
    omega

/-- Drops blanks and comments. -/
def dropSpace : List Char → List Char
  | [] => []
  | '/' :: '/' :: rest => dropSpace (rest.dropWhile fun c => !isLineEnd c)
  | '/' :: '*' :: rest =>
    match _h : dropBlockComment rest with
    | some others => dropSpace others
    | none => '/' :: '*' :: rest
  | c :: rest => if isSpace c then dropSpace rest else c :: rest
termination_by cs => cs.length
decreasing_by
  · have h := (List.dropWhile_sublist (fun c => !isLineEnd c) (l := rest)).length_le
    simp only [List.length_cons]
    omega
  · have h := length_dropBlockComment _h
    simp only [List.length_cons]
    omega
  · simp

/-- Skips blanks and comments. -/
def skipSpace : Scan Char Unit := fun cs => some ((), dropSpace cs)

/-- Takes a symbol and the blanks behind it. -/
def symbol (c : Char) : Scan Char Unit := do
  Scan.expect c
  skipSpace

/-! ## Strings and names -/

/-- A number of hexadecimal digits, as a character. -/
def hexChar (width : Nat) : Scan Char Char := fun cs =>
  let digits := cs.take width
  if digits.length < width then none
  else (hexValue? digits).bind fun n =>
    if h : n.isValidChar then some (Char.ofNatAux n h, cs.drop width) else none

/-- What an escape behind its backslash stands for; a line end stands for nothing. -/
def escaped : Scan Char (List Char) := do
  let c ← Scan.next
  match c with
  | 'b' => pure [Char.ofNat 8]
  | 'f' => pure [Char.ofNat 12]
  | 'n' => pure ['\n']
  | 'r' => pure ['\r']
  | 't' => pure ['\t']
  | 'v' => pure [Char.ofNat 11]
  | 'x' => do pure [← hexChar 2]
  | 'u' => do pure [← hexChar 4]
  | '\r' => do
    let _ ← Scan.accept '\n'
    pure []
  | '0' => do
    match ← Scan.peek with
    | some d => if isDigit d then Scan.refuse else pure [Char.ofNat 0]
    | none => Scan.refuse
  | _ => if isLineEnd c then pure [] else if isDigit c then Scan.refuse else pure [c]

/-- A piece of a string. -/
def stringPiece : Scan Char (List Char) := do
  let c ← Scan.next
  if c = '\\' then escaped
  else if c = '\n' || c = '\r' then Scan.refuse
  else pure [c]

/-- A string in the given quotes. -/
def string (quote : Char) : Scan Char String := do
  Scan.expect quote
  let pieces ← Scan.many (· != quote) stringPiece
  symbol quote
  pure (String.ofList pieces.flatten)

/-- The characters that start an unquoted name. -/
def startsName (c : Char) : Bool :=
  c.isAlpha || c == '$' || c == '_' || (127 < c.toNat && !isSpace c)

/-- A character of an unquoted name, which an escape may stand for. -/
def nameChar (allowed : Char → Bool) : Scan Char Char := do
  let c ← Scan.next
  if c = '\\' then do
    Scan.expect 'u'
    hexChar 4
  else if allowed c then pure c
  else Scan.refuse

/-- An unquoted name. -/
def bareName : Scan Char String := do
  let isPart (c : Char) : Bool := startsName c || isDigit c
  let first ← nameChar startsName
  let others ← Scan.many (fun c => c == '\\' || isPart c) (nameChar isPart)
  skipSpace
  pure (String.ofList (first :: others))

/-- A name of a member. -/
def memberName : Scan Char String := do
  match ← Scan.peek with
  | some '"' => string '"'
  | some '\'' => string '\''
  | _ => bareName

/-! ## Numbers -/

/-- The characters of a number. -/
def isNumberChar (c : Char) : Bool := c.isAlphanum || c == '.' || c == '+' || c == '-'

/-- A whole number in decimal digits, with its sign. -/
def decimal? (negative : Bool) (digits : List Char) : Option Json :=
  let n : Int := if negative then -(decimalValue digits : Int) else decimalValue digits
  if isSigned64 n then some (.int n) else none

/-- The number that a word writes. -/
def numberOf? (word : List Char) : Option Json :=
  let (negative, body) := takeSign word
  let signed := word.length != body.length
  match body with
  | '0' :: x :: digits =>
    if x = 'x' ∨ x = 'X' then
      if signed || digits.isEmpty then none
      else (hexValue? digits).bind fun n => if n < twoTo 32 then some (.int n) else none
    else if isDigit x then none
    else other negative word body
  | _ => other negative word body
where
  /-- A number that is not hexadecimal. No plus stands in front of a word, and no number is too great
  for its digits. -/
  other (negative : Bool) (word body : List Char) : Option Json :=
    if body == "Infinity".toList || body == "NaN".toList then
      if word.head? = some '+' then none
      else some (.float (if body == "NaN".toList then .nan else .infinite negative))
    else if body.isEmpty then none
    else if body.all isDigit then decimal? negative body
    else if body.any fun c => c.isAlpha && c != 'e' && c != 'E' then none
    else
      match Format.double.read (String.ofList word) with
      | .ok (.infinite _) => none
      | .ok x => some (.float x)
      | .error _ => none

/-- A number. -/
def number : Scan Char Json := do
  let word ← Scan.takeWhile isNumberChar
  match numberOf? word with
  | some j => do
    skipSpace
    pure j
  | none => Scan.refuse

/-! ## Values -/

/-- Items separated by commas up to a closing symbol; the last one may have a comma too. -/
def separated (close : Char) (item : Scan Char α) : Nat → Scan Char (List α)
  | 0 => Scan.refuse
  | n + 1 => do
    if (← Scan.peek) = some close then do
      symbol close
      pure []
    else do
      let first ← item
      if (← Scan.peek) = some ',' then do
        symbol ','
        let others ← separated close item n
        pure (first :: others)
      else do
        symbol close
        pure [first]

/-- The value of a bare word. -/
def word (letters : String) (value : Json) : Scan Char Json := do
  letters.toList.forM fun c => Scan.expect c
  skipSpace
  pure value

/-- A value that nests less deep than the fuel. -/
def value : Nat → Scan Char Json
  | 0 => Scan.refuse
  | n + 1 => do
    match ← Scan.peek with
    | some '[' => do
      symbol '['
      pure (.arr (← separated ']' (value n) (n + 1)))
    | some '{' => do
      symbol '{'
      let members ← separated '}' (do
        let name ← memberName
        symbol ':'
        let v ← value n
        pure (name, v)) (n + 1)
      pure (ofMembers members)
    | some '"' => do pure (.str (← string '"'))
    | some '\'' => do pure (.str (← string '\''))
    | some 't' => word "true" (.bool true)
    | some 'f' => word "false" (.bool false)
    | some 'n' => word "null" .null
    | _ => number

/-- **The value of a JSON5 text.** -/
def parse? (text : String) : Option Json :=
  let cs := text.toList
  Scan.whole (do
    skipSpace
    value (cs.length + 1)) cs

end SchemaUsage.Json.Json5

import SchemaUsage.Graphql.StringLiteral
import SchemaUsage.Number.Literal
import SchemaUsage.Text.Scan

/-!
# Tokens of GraphQL texts

The first half of `parse_query` and `parse_schema`: a text is cut into punctuators, names, numbers
and strings; blanks, commas and comments between them are dropped. Brackets may be open to a depth
of fifty. Number and string tokens carry the value that they denote.

* The rules are those of the parser that the program is linked with. They differ from the GraphQL
  specification in the exponents of numbers (`isExponent`) and in the escapes of strings
  (`Graphql.StringLiteral`).

Out of scope: the positions of tokens, and the wording of syntax errors.
-/

namespace SchemaUsage.Graphql

open SchemaUsage.Text SchemaUsage.Number

/-- A token. `mark` is a punctuator of one character, `dots` the one of three points. -/
inductive Token where
  | mark (c : Char)
  | dots
  | name (text : String)
  | int (value : Int)
  | float (value : Binary)
  | string (value : String)
  deriving Repr, DecidableEq, Inhabited

namespace Token

/-! ## Character classes -/

/-- Characters dropped between tokens; a comment is dropped as well. -/
def isIgnored (c : Char) : Bool :=
  c == ' ' || c == '\t' || c == '\r' || c == '\n' || c == ',' || c.toNat == 0xFEFF

/-- The end of a comment. -/
def isLineEnd (c : Char) : Bool := c == '\r' || c == '\n'

/-- A character that starts a name. -/
def isNameStart (c : Char) : Bool :=
  c == '_' || ('a' ≤ c && c ≤ 'z') || ('A' ≤ c && c ≤ 'Z')

/-- A character that continues a name. -/
def isNameChar (c : Char) : Bool := isNameStart c || isDigit c

/-- A character in front of which a number ends. -/
def endsNumber (c : Char) : Bool :=
  [' ', '\n', '\r', '\t', ',', '#', '!', '$', ':', '=', '@', '|', '&', '(', ')', '[', ']', '{',
    '}'].contains c

/-- Opening brackets. -/
def isOpening (c : Char) : Bool := c == '(' || c == '[' || c == '{'

/-- Closing brackets. -/
def isClosing (c : Char) : Bool := c == ')' || c == ']' || c == '}'

/-- Punctuators of one character that are no brackets. -/
def isPlainMark (c : Char) : Bool :=
  c == '!' || c == '$' || c == ':' || c == '=' || c == '@' || c == '|' || c == '&'

/-! ## Numbers -/

/-- The integer part of a number: an optional minus and digits without a leading zero. -/
def isInteger : List Char → Bool
  | ['0'] => true
  | ['-', '0'] => true
  | '-' :: '0' :: _ => false
  | '0' :: _ => false
  | ['-'] => false
  | '-' :: digits => digits.all isDigit
  | c :: digits => isDigit c && digits.all isDigit
  | [] => false

/-- The digits behind a point. -/
def isFraction (cs : List Char) : Bool := !cs.isEmpty && cs.all isDigit

/-- The text behind an exponent mark: a sign or a digit from one to eight, then digits. -/
def isExponent : List Char → Bool
  | [] => false
  | c :: digits => (c == '+' || c == '-' || ('1' ≤ c && c ≤ '8')) && digits.all isDigit

/-- The part before and the part behind the last character that satisfies `p`. -/
def splitAtLast? (p : Char → Bool) (cs : List Char) : Option (List Char × List Char) :=
  match cs.reverse.dropWhile (fun c => !p c) with
  | [] => none
  | _ :: before => some (before.reverse, (cs.reverse.takeWhile (fun c => !p c)).reverse)

/-- An exponent mark. -/
def isExponentMark (c : Char) : Bool := c == 'e' || c == 'E'

/-- Whether a text with a point or an exponent mark is a number. -/
def isFloat (cs : List Char) : Bool :=
  match splitAtLast? isExponentMark cs with
  | some (front, exponent) =>
    if exponent.contains '.' then false
    else
      match splitAtLast? (· == '.') front with
      | some (whole, fraction) => isInteger whole && isFraction fraction && isExponent exponent
      | none => isInteger front && isExponent exponent
  | none =>
    match splitAtLast? (· == '.') cs with
    | some (whole, fraction) => isInteger whole && isFraction fraction
    | none => false

/-- The integer that a text with an optional minus writes. -/
def integerOf : List Char → Int
  | '-' :: digits => -(decimalValue digits : Int)
  | digits => decimalValue digits

/-- The number token of a text. Integers have 64 bits; a float may lack nothing but range. -/
def ofNumber? (cs : List Char) : Option Token :=
  if cs.any fun c => c == '.' || isExponentMark c then
    if isFloat cs then
      match Format.double.read (String.ofList cs) with
      | .ok x => some (.float x)
      | .error _ => none
    else none
  else if isInteger cs then
    let i := integerOf cs
    if isSigned64 i then some (.int i) else none
  else none

/-! ## Scanning -/

/-- The string token behind a quote, and what follows it. -/
def ofString? : List Char → Option (Token × List Char)
  | '"' :: '"' :: rest => do
    let (body, rest) ← StringLiteral.blockBody false rest
    pure (.string (String.ofList (StringLiteral.unindentBlock body)), rest)
  | rest => do
    let (body, rest) ← StringLiteral.quotedBody false rest
    let text ← StringLiteral.unescape body
    pure (.string (String.ofList text), rest)

/-- How many brackets may be open at a time. -/
def maxDepth : Nat := 50

/-- The tokens of a text of at most `n` characters inside of `depth` open brackets. -/
def scanFrom : Nat → Nat → List Char → Option (List Token)
  | _, _, [] => some []
  | 0, _, _ :: _ => none
  | n + 1, depth, c :: cs =>
    if isIgnored c then scanFrom n depth cs
    else if c = '#' then scanFrom n depth (cs.dropWhile fun c => !isLineEnd c)
    else if isOpening c then
      if depth < maxDepth then (scanFrom n (depth + 1) cs).map (.mark c :: ·) else none
    else if isClosing c then (scanFrom n (depth - 1) cs).map (.mark c :: ·)
    else if isPlainMark c then (scanFrom n depth cs).map (.mark c :: ·)
    else if c = '.' then
      match cs with
      | '.' :: '.' :: rest => (scanFrom n depth rest).map (.dots :: ·)
      | _ => none
    else if isNameStart c then
      (scanFrom n depth (cs.dropWhile isNameChar)).map
        (.name (String.ofList (c :: cs.takeWhile isNameChar)) :: ·)
    else if c = '-' ∨ isDigit c then do
      let token ← ofNumber? (c :: cs.takeWhile fun c => !endsNumber c)
      let tokens ← scanFrom n depth (cs.dropWhile fun c => !endsNumber c)
      pure (token :: tokens)
    else if c = '"' then do
      let (token, rest) ← ofString? cs
      let tokens ← scanFrom n depth rest
      pure (token :: tokens)
    else none

/-- The tokens of a text; none if some part of it is no token. -/
def scan (text : String) : Option (List Token) :=
  scanFrom text.toList.length 0 text.toList

end Token

end SchemaUsage.Graphql

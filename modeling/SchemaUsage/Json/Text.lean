import SchemaUsage.Json.Basic
import SchemaUsage.Number.Shortest
import SchemaUsage.Text.Digits
import SchemaUsage.Text.Scan

/-!
# JSON texts

Writing and reading of JSON values, as artifacts, reports, hashed texts (`Collector.textAndKey`) and
files of variable values need them. Strings escape the quote, the backslash and the control
characters, those with a short form by it. Reading refuses whatever RFC 8259 does not allow,
unpaired surrogates, numbers beyond the range of a double, and nesting beyond a given depth.

Out of scope: where an error stands and what it says.
-/

namespace SchemaUsage.Json

open SchemaUsage.Text SchemaUsage.Number

/-! ## Writing -/

/-- The written form of a character inside of a string. -/
def escape (c : Char) : List Char :=
  if c = '"' then ['\\', '"']
  else if c = '\\' then ['\\', '\\']
  else if c = '\n' then ['\\', 'n']
  else if c = '\r' then ['\\', 'r']
  else if c = '\t' then ['\\', 't']
  else if c.toNat = 8 then ['\\', 'b']
  else if c.toNat = 12 then ['\\', 'f']
  else if c.toNat < 32 then ['\\', 'u', '0', '0'] ++ hexOfWidth c.toNat 2
  else [c]

/-- A text as JSON string, quotes included. -/
def quoted (s : String) : String :=
  String.ofList ('"' :: s.toList.flatMap escape ++ ['"'])

/-- The text of a number; an integral double keeps a point. -/
def floatText (x : Binary) : String :=
  let text := Format.double.text x
  if text.toList.contains '.' then text else text ++ ".0"

mutual
/-- The JSON text of a value, without any blanks. -/
def compact : Json → String
  | .null => "null"
  | .bool b => if b then "true" else "false"
  | .int i => toString i
  | .float x => floatText x
  | .str s => quoted s
  | .arr [] => "[]"
  | .arr (j :: js) => "[" ++ compact j ++ compactItems js ++ "]"
  | .obj [] => "\x7b\x7d"
  | .obj ((k, j) :: ms) => "\x7b" ++ quoted k ++ ":" ++ compact j ++ compactMembers ms ++ "\x7d"
/-- Further items of an array. -/
def compactItems : List Json → String
  | [] => ""
  | j :: js => "," ++ compact j ++ compactItems js
/-- Further members of an object. -/
def compactMembers : List (String × Json) → String
  | [] => ""
  | (k, j) :: ms => "," ++ quoted k ++ ":" ++ compact j ++ compactMembers ms
end

/-- A line end and the indentation of a nesting depth, two blanks each. -/
def newline (depth : Nat) : String :=
  String.ofList ('\n' :: List.replicate (2 * depth) ' ')

mutual
/-- The JSON text of a value over several lines, indented by two blanks a level. -/
def pretty (depth : Nat) : Json → String
  | .arr [] => "[]"
  | .arr (j :: js) =>
    "[" ++ newline (depth + 1) ++ pretty (depth + 1) j ++ prettyItems (depth + 1) js ++
      newline depth ++ "]"
  | .obj [] => "\x7b\x7d"
  | .obj ((k, j) :: ms) =>
    "\x7b" ++ newline (depth + 1) ++ quoted k ++ ": " ++ pretty (depth + 1) j ++
      prettyMembers (depth + 1) ms ++ newline depth ++ "\x7d"
  | .null => compact .null
  | .bool b => compact (.bool b)
  | .int i => compact (.int i)
  | .float x => compact (.float x)
  | .str s => compact (.str s)
/-- Further items of an array. -/
def prettyItems (depth : Nat) : List Json → String
  | [] => ""
  | j :: js => "," ++ newline depth ++ pretty depth j ++ prettyItems depth js
/-- Further members of an object. -/
def prettyMembers (depth : Nat) : List (String × Json) → String
  | [] => ""
  | (k, j) :: ms =>
    "," ++ newline depth ++ quoted k ++ ": " ++ pretty depth j ++ prettyMembers depth ms
end

/-! ## Reading -/

/-- The white space of JSON. -/
def isSpace (c : Char) : Bool := c == ' ' || c == '\t' || c == '\n' || c == '\r'

/-- Drops white space. -/
def skipSpace : Scan Char Unit := fun cs => some ((), cs.dropWhile isSpace)

/-- Takes a symbol and the white space behind it. -/
def symbol (c : Char) : Scan Char Unit := do
  Scan.expect c
  skipSpace

/-- Four hexadecimal digits. -/
def hex4 : Scan Char Nat
  | a :: b :: c :: d :: rest => (hexValue? [a, b, c, d]).map fun n => (n, rest)
  | _ => none

/-- The character behind an escape with four digits; a high surrogate takes its partner along. -/
def unicodeEscape : Scan Char Char := do
  let unit ← hex4
  if 0xD800 ≤ unit ∧ unit < 0xDC00 then
    Scan.expect '\\'
    Scan.expect 'u'
    let low ← hex4
    if 0xDC00 ≤ low ∧ low < 0xE000 then
      pure (Char.ofNat (0x10000 + (unit - 0xD800) * 0x400 + (low - 0xDC00)))
    else Scan.refuse
  else if 0xDC00 ≤ unit ∧ unit < 0xE000 then Scan.refuse
  else pure (Char.ofNat unit)

/-- The character that an escape stands for. -/
def escaped : Scan Char Char := do
  match ← Scan.next with
  | '"' => pure '"'
  | '\\' => pure '\\'
  | '/' => pure '/'
  | 'b' => pure (Char.ofNat 8)
  | 'f' => pure (Char.ofNat 12)
  | 'n' => pure '\n'
  | 'r' => pure '\r'
  | 't' => pure '\t'
  | 'u' => unicodeEscape
  | _ => Scan.refuse

/-- One character of a string. -/
def stringChar : Scan Char Char := do
  let c ← Scan.next
  if c = '\\' then escaped else if c.toNat < 32 then Scan.refuse else pure c

/-- A string behind its opening quote, and the white space that follows it. -/
def stringBody : Scan Char String := do
  let cs ← Scan.many (· != '"') stringChar
  symbol '"'
  pure (String.ofList cs)

/-- Appends digits to a number as long as it stays a word of 64 bits; the second part is the
number of digits left over. -/
def appendDigits (n : Nat) : List Char → Nat × Nat
  | [] => (n, 0)
  | c :: cs =>
    let longer := decimalValue [c] + 10 * n
    if longer < wordCount then appendDigits longer cs else (n, cs.length + 1)

/-- The greatest power of ten that is a double. -/
def greatestPower : Nat := 308

/-- A double times a power of ten that is a double itself, or divided by one. -/
def scaleByPower (x : Binary) (exponent : Int) : Binary :=
  match Format.double.ofRatio false (tenTo exponent.natAbs) 1 with
  | .finite _ m q =>
    let num := m * twoTo q.toNat
    let den := twoTo (-q).toNat
    if 0 ≤ exponent then Format.double.scale x num den else Format.double.scale x den num
  | _ => x

/-- A double times a power of ten, in steps of the greatest power; none beyond the range of
doubles. -/
def shiftDecimal (x : Binary) (exponent : Int) : Option Binary :=
  if exponent.natAbs ≤ greatestPower then
    match scaleByPower x exponent with
    | .finite s m q => some (.finite s m q)
    | _ => none
  else if x.isZero then some x
  else if 0 ≤ exponent then none
  else shiftDecimal (scaleByPower x (-(greatestPower : Int))) (exponent + greatestPower)
termination_by (-exponent).toNat
decreasing_by simp only [greatestPower] at *; omega

/-- A number from its parts: an integer where neither point nor exponent is written and 64 bits
suffice, minus zero and all others a double. A double is made of the first digits that 64 bits
hold and a power of ten, each rounded by itself. None beyond the range of doubles. -/
def numberOf (negative : Bool) (whole places : List Char) (exponent : Option Int) :
    Option Json :=
  let (front, dropped) := appendDigits 0 whole
  let (significand, unread) := appendDigits front places
  let shift : Int := dropped - (places.length - unread : Nat) + exponent.getD 0
  let asFloat : Option Json :=
    (shiftDecimal (Format.double.ofRatio negative significand 1) shift).map .float
  if places.isEmpty && exponent.isNone && dropped = 0 then
    if negative then
      if front = 0 ∨ twoTo 63 < front then asFloat else some (.int (-(front : Int)))
    else some (.int front)
  else asFloat

/-- Digits, at least one. -/
def digits : Scan Char (List Char) := do
  let ds ← Scan.takeWhile isDigit
  if ds.isEmpty then Scan.refuse else pure ds

/-- An exponent, if one is written. -/
def exponentPart : Scan Char (Option Int) := do
  match ← Scan.peek with
  | some c =>
    if c = 'e' ∨ c = 'E' then
      let _ ← Scan.next
      let negative ← Scan.accept '-'
      let _ ← if negative then pure false else Scan.accept '+'
      let ds ← digits
      pure (some (if negative then -(decimalValue ds : Int) else decimalValue ds))
    else pure none
  | none => pure none

/-- A number. -/
def number : Scan Char Json := do
  let negative ← Scan.accept '-'
  let whole ← digits
  if whole.length > 1 ∧ whole.head? = some '0' then Scan.refuse
  let places ← if ← Scan.accept '.' then digits else pure []
  let exponent ← exponentPart
  match numberOf negative whole places exponent with
  | some j => do skipSpace; pure j
  | none => Scan.refuse

/-- The remaining letters of a word. -/
def word (letters : List Char) (value : Json) : Scan Char Json := do
  letters.forM fun c => Scan.expect c
  skipSpace
  pure value

/-- Items separated by commas up to a closing symbol. -/
def separated (close : Char) (item : Scan Char α) : Scan Char (List α) := do
  if (← Scan.peek) = some close then do
    symbol close
    pure []
  else do
    let first ← item
    let others ← Scan.many (· == ',') (do symbol ','; item)
    symbol close
    pure (first :: others)

/-- A value whose arrays and objects nest less deep than `depth`, and the white space behind it. -/
def value (depth : Nat) : Scan Char Json := do
  match ← Scan.peek with
  | none => Scan.refuse
  | some c =>
    if c = '[' ∨ c = '{' then
      match depth with
      | 0 | 1 => Scan.refuse
      | depth + 1 =>
        if c = '[' then do
          symbol '['
          pure (.arr (← separated ']' (value depth)))
        else do
          symbol '{'
          let members ← separated '}' (do
            Scan.expect '"'
            let name ← stringBody
            symbol ':'
            let v ← value depth
            pure (name, v))
          pure (ofMembers members)
    else if c = '"' then do
      Scan.expect '"'
      pure (.str (← stringBody))
    else if c = 't' then word ['t', 'r', 'u', 'e'] (.bool true)
    else if c = 'f' then word ['f', 'a', 'l', 's', 'e'] (.bool false)
    else if c = 'n' then word ['n', 'u', 'l', 'l'] .null
    else number

/-- The value of a JSON text; none if the text is no JSON or nests `depth` levels. -/
def parse? (depth : Nat) (text : String) : Option Json :=
  Scan.whole (do skipSpace; value depth) text.toList

end SchemaUsage.Json

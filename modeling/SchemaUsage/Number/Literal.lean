import SchemaUsage.Number.Binary
import SchemaUsage.Text.Digits

/-!
# Number literals

The texts that write a decimal number: an optional sign, digits with an optional point, an
optional exponent, or one of the words for infinity and for "not a number" in any case.
-/

namespace SchemaUsage.Number

open SchemaUsage.Text

/-- Why a text is no number. -/
inductive LiteralError where
  | empty
  | invalid
  deriving Repr, DecidableEq

/-- The wording of the error. -/
def LiteralError.message : LiteralError → String
  | .empty => "cannot parse float from empty string"
  | .invalid => "invalid float literal"

/-- Takes a sign off the front; `true` is a minus. -/
def takeSign : List Char → Bool × List Char
  | '-' :: cs => (true, cs)
  | '+' :: cs => (false, cs)
  | cs => (false, cs)

/-- An exponent with its mark; none where the mark is missing or has no digits. -/
def exponent? : List Char → Option Int
  | [] => some 0
  | c :: cs =>
    if c = 'e' ∨ c = 'E' then
      let (negative, digits) := takeSign cs
      if digits.isEmpty || !digits.all isDigit then none
      else some (if negative then -(decimalValue digits : Int) else decimalValue digits)
    else none

/-- The value of unsigned digits with an optional point and exponent. -/
def digitsLiteral? (fmt : Format) (negative : Bool) (cs : List Char) : Option Binary :=
  let whole := cs.takeWhile isDigit
  let rest := cs.dropWhile isDigit
  let (places, rest) := match rest with
    | '.' :: more => (more.takeWhile isDigit, more.dropWhile isDigit)
    | _ => ([], rest)
  if whole.isEmpty && places.isEmpty then none
  else (exponent? rest).map fun e =>
    fmt.ofDecimal negative (decimalValue (whole ++ places)) (e - places.length)

/-- Reads a number literal. -/
def Format.read (fmt : Format) (text : String) : Except LiteralError Binary :=
  if text.isEmpty then .error .empty
  else
    let (negative, body) := takeSign text.toList
    match String.ofList (body.map Char.toLower) with
    | "inf" | "infinity" => .ok (.infinite negative)
    | "nan" => .ok .nan
    | _ =>
      match digitsLiteral? fmt negative body with
      | some x => .ok x
      | none => .error .invalid

end SchemaUsage.Number

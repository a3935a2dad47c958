/-!
# Digits

Decimal and hexadecimal digits, and the numbers that they write.
-/

namespace SchemaUsage.Text

/-- The ASCII digits. -/
def isDigit (c : Char) : Bool := '0' ≤ c && c ≤ '9'

/-- The value of a hexadecimal digit, in either case. -/
def hexDigit? (c : Char) : Option Nat :=
  if '0' ≤ c && c ≤ '9' then some (c.toNat - '0'.toNat)
  else if 'a' ≤ c && c ≤ 'f' then some (c.toNat - 'a'.toNat + 10)
  else if 'A' ≤ c && c ≤ 'F' then some (c.toNat - 'A'.toNat + 10)
  else none

/-- ASCII hexadecimal digits. -/
def isHexDigit (c : Char) : Bool := (hexDigit? c).isSome

/-- The number that a row of decimal digits writes. -/
def decimalValue (cs : List Char) : Nat :=
  cs.foldl (fun n c => 10 * n + (c.toNat - '0'.toNat)) 0

/-- The number that a row of hexadecimal digits writes; none for any other character. -/
def hexValue? : List Char → Option Nat :=
  let rec go (n : Nat) : List Char → Option Nat
    | [] => some n
    | c :: cs => (hexDigit? c).bind fun d => go (16 * n + d) cs
  go 0

/-- The lower-case hexadecimal digit of a number below 16. -/
def hexChar (n : Nat) : Char :=
  Nat.digitChar n

/-- The last `width` hexadecimal digits of a number. -/
def hexOfWidth (n : Nat) : Nat → List Char
  | 0 => []
  | width + 1 => hexOfWidth (n / 16) width ++ [hexChar (n % 16)]

/-- Puts `c` in front until the text has `width` characters. -/
def padStart (c : Char) (width : Nat) (cs : List Char) : List Char :=
  List.replicate (width - cs.length) c ++ cs

end SchemaUsage.Text

import SchemaUsage.Json.Basic
import SchemaUsage.Number.Literal
import SchemaUsage.Text.Lines
import SchemaUsage.Text.Scan

/-!
# TOML scalars

Blanks, strings and the words of a TOML text: truth values, numbers, dates and times. Dates and
times stand for their own text, with a `T` between them and a `Z` for the zone of zero.
-/

namespace SchemaUsage.Toml

open SchemaUsage.Text SchemaUsage.Number

/-! ## Blanks -/

/-- The blanks within a line. -/
def isSpace (c : Char) : Bool := c == ' ' || c == '\t'

/-- The characters that comments and strings of one line may hold. -/
def isText (c : Char) : Bool := c == '\t' || (0x20 ≤ c.toNat && c.toNat ≠ 0x7F)

/-- Skips the blanks within a line. -/
def skipSpace : Scan Char Unit := do
  let _ ← Scan.takeWhile isSpace

/-- Takes a line end; tells whether there was one. -/
def lineEnd : Scan Char Bool
  | '\n' :: cs => some (true, cs)
  | '\r' :: '\n' :: cs => some (true, cs)
  | cs => some (false, cs)

/-- Skips a comment, if there is one. -/
def skipComment : Scan Char Unit := do
  if (← Scan.peek) = some '#' then do
    let _ ← Scan.takeWhile isText

/-- Skips blanks, comments and line ends. -/
def skipLines : Nat → Scan Char Unit
  | 0 => pure ()
  | n + 1 => do
    skipSpace
    skipComment
    if ← lineEnd then skipLines n

/-! ## Strings -/

/-- A character by the number of its hexadecimal digits. -/
def codePoint (width : Nat) : Scan Char Char := fun cs =>
  let digits := cs.take width
  if digits.length < width then none
  else (hexValue? digits).bind fun n =>
    if h : n.isValidChar then some (Char.ofNatAux n h, cs.drop width) else none

/-- What an escape behind its backslash stands for. -/
def escaped : Scan Char Char := do
  match ← Scan.next with
  | 'b' => pure (Char.ofNat 8)
  | 't' => pure '\t'
  | 'n' => pure '\n'
  | 'f' => pure (Char.ofNat 12)
  | 'r' => pure '\r'
  | 'e' => pure (Char.ofNat 27)
  | '"' => pure '"'
  | '\\' => pure '\\'
  | 'x' => codePoint 2
  | 'u' => codePoint 4
  | 'U' => codePoint 8
  | _ => Scan.refuse

/-- A string of one line behind its quote; only double quotes know escapes. -/
def lineString (quote : Char) : Scan Char String := do
  let chars ← Scan.many (· != quote) (do
    let c ← Scan.next
    if c = '\\' ∧ quote = '"' then escaped
    else if isText c then pure c
    else Scan.refuse)
  Scan.expect quote
  pure (String.ofList chars)

/-- A backslash at the end of a line, with all blanks and line ends behind it. -/
def continuation : Scan Char Bool := fun cs =>
  match cs with
  | '\\' :: rest =>
    match lineEnd (rest.dropWhile isSpace) with
    | some (true, others) =>
      some (true, others.dropWhile fun c => isSpace c || c == '\n' || c == '\r')
    | _ => some (false, cs)
  | _ => some (false, cs)

/-- A piece of a string of several lines. -/
def blockPiece (quote : Char) : Scan Char (List Char) := do
  if ← lineEnd then pure ['\n']
  else if ← (if quote = '"' then continuation else pure false) then pure []
  else do
    let c ← Scan.next
    if c = '\\' ∧ quote = '"' then pure [← escaped]
    else if isText c then pure [c]
    else Scan.refuse

/-- The rest of a string of several lines. Up to two quotes may stand in front of its end. -/
def blockRest (quote : Char) : Nat → Scan Char (List Char)
  | 0 => Scan.refuse
  | n + 1 => fun cs =>
    let quotes := (cs.takeWhile (· == quote)).length
    if 3 ≤ quotes then
      if quotes ≤ 5 then some (List.replicate (quotes - 3) quote, cs.drop quotes) else none
    else
      (do
        let piece ← blockPiece quote
        let others ← blockRest quote n
        pure (piece ++ others)) cs

/-- A string: three quotes open one of several lines, whose first line end does not count. -/
def string (quote : Char) : Scan Char String := fun cs =>
  match cs with
  | a :: b :: c :: rest =>
    if a = quote ∧ b = quote ∧ c = quote then
      (do
        let _ ← lineEnd
        pure (String.ofList (← blockRest quote (rest.length + 1)))) rest
    else if a = quote then lineString quote (b :: c :: rest)
    else none
  | a :: rest => if a = quote then lineString quote rest else none
  | [] => none

/-! ## Numbers -/

/-- Digits without the underscores between them; none if an underscore stands elsewhere. -/
def grouped? (isDigit : Char → Bool) (cs : List Char) : Option (List Char) :=
  let groups := split '_' cs
  if groups.all fun group => !group.isEmpty && group.all isDigit then some groups.flatten else none

/-- The number that digits of a base write. -/
def valueIn (base : Nat) (digits : List Char) : Nat :=
  digits.foldl (fun n c => base * n + (hexDigit? c).getD 0) 0

/-- A whole number of a base behind its mark. -/
def basedNumber? (base : Nat) (cs : List Char) : Option Json :=
  (grouped? (fun c => (hexDigit? c).any fun d => decide (d < base)) cs).bind fun digits =>
    let n : Int := valueIn base digits
    if isSigned64 n then some (.int n) else none

/-- Digits of which none leads with a zero, unless it is the only one. -/
def wholeDigits? (cs : List Char) : Option (List Char) :=
  (grouped? isDigit cs).bind fun digits =>
    match digits with
    | '0' :: _ :: _ => none
    | _ => some digits

/-- A fraction or an exponent behind its mark, with the text that it writes. -/
def floatTail? : List Char → Option (List Char)
  | [] => some []
  | '.' :: cs => do
    let isMark (c : Char) : Bool := c == 'e' || c == 'E'
    let places ← grouped? isDigit (cs.takeWhile fun c => !isMark c)
    let exponent ← exponentTail? (cs.dropWhile fun c => !isMark c)
    pure ('.' :: places ++ exponent)
  | cs => exponentTail? cs
where
  /-- An exponent with its mark, if there is one. -/
  exponentTail? : List Char → Option (List Char)
    | [] => some []
    | c :: cs =>
      if c = 'e' ∨ c = 'E' then do
        let (negative, body) := takeSign cs
        let digits ← grouped? isDigit body
        pure ((if negative then ['e', '-'] else ['e']) ++ digits)
      else none

/-- A decimal number with its sign taken off. -/
def decimalNumber? (negative : Bool) (body : List Char) : Option Json := do
  let isMark (c : Char) : Bool := c == '.' || c == 'e' || c == 'E'
  let whole ← wholeDigits? (body.takeWhile fun c => !isMark c)
  let tail ← floatTail? (body.dropWhile fun c => !isMark c)
  if tail.isEmpty then
    let n : Int := if negative then -(decimalValue whole : Int) else decimalValue whole
    if isSigned64 n then some (.int n) else none
  else
    match Format.double.read (String.ofList ((if negative then ['-'] else []) ++ whole ++ tail)) with
    | .ok (.infinite _) => none
    | .ok x => some (.float x)
    | .error _ => none

/-- The number that a word writes. -/
def number? (word : List Char) : Option Json :=
  match word with
  | '0' :: 'x' :: digits => basedNumber? 16 digits
  | '0' :: 'o' :: digits => basedNumber? 8 digits
  | '0' :: 'b' :: digits => basedNumber? 2 digits
  | _ =>
    let (negative, body) := takeSign word
    if body == "inf".toList then some (.float (.infinite negative))
    else if body == "nan".toList then some (.float .nan)
    else decimalNumber? negative body

/-! ## Dates and times -/

/-- Exactly so many digits, whose number lies between two bounds. -/
def between (width low high : Nat) : Scan Char (List Char) := fun cs =>
  let digits := cs.take width
  let n := decimalValue digits
  if digits.length = width && digits.all isDigit && low ≤ n && n ≤ high then
    some (digits, cs.drop width)
  else none

/-- The days of a month. -/
def daysIn (year month : Nat) : Nat :=
  if month = 2 then if year % 4 = 0 ∧ (year % 100 ≠ 0 ∨ year % 400 = 0) then 29 else 28
  else if [4, 6, 9, 11].contains month then 30
  else 31

/-- A date. -/
def date : Scan Char Unit := do
  let year ← between 4 0 9999
  Scan.expect '-'
  let month ← between 2 1 12
  Scan.expect '-'
  let _ ← between 2 1 (daysIn (decimalValue year) (decimalValue month))

/-- The text of the digits of a fraction: nine at most, without zeros at the end, but one digit at
least. -/
def shownFraction (digits : List Char) : List Char :=
  match ((digits.take 9).reverse.dropWhile (· == '0')).reverse with
  | [] => ['0']
  | shown => shown

/-- The text of a fraction of a second, if there is one. -/
def fraction : Scan Char (List Char) := do
  if ← Scan.accept '.' then do
    let digits ← Scan.takeWhile isDigit
    if digits.isEmpty then Scan.refuse else pure ('.' :: shownFraction digits)
  else pure []

/-- The text of the seconds, if there are any. -/
def seconds : Scan Char (List Char) := do
  if ← Scan.accept ':' then do
    let second ← between 2 0 60
    pure (':' :: second ++ (← fraction))
  else pure []

/-- The text of a time of day. -/
def time : Scan Char (List Char) := do
  let hour ← between 2 0 23
  Scan.expect ':'
  let minute ← between 2 0 59
  pure (hour ++ ':' :: minute ++ (← seconds))

/-- The text of an offset from the zone of zero, if there is one. An offset of zero has a plus. -/
def offset : Scan Char (List Char) := do
  match ← Scan.peek with
  | none => pure []
  | some c =>
    if c = 'Z' ∨ c = 'z' then do
      let _ ← Scan.next
      pure ['Z']
    else if c = '+' ∨ c = '-' then do
      let _ ← Scan.next
      let hours ← between 2 0 23
      Scan.expect ':'
      let minutes ← between 2 0 59
      let isZero := (hours ++ minutes).all (· == '0')
      pure ((if isZero then '+' else c) :: hours ++ ':' :: minutes)
    else Scan.refuse

/-- The text of the date, the time or both that a word writes. -/
def moment? (word : List Char) : Option (List Char) :=
  let day := word.take 10
  match Scan.whole date day with
  | some () =>
    match word.drop 10 with
    | [] => some day
    | c :: cs =>
      if c = 'T' ∨ c = 't' ∨ c = ' ' then do
        let (shown, rest) ← time cs
        let zone ← Scan.whole offset rest
        pure (day ++ 'T' :: shown ++ zone)
      else none
  | none => Scan.whole time word

/-! ## Words -/

/-- The characters of a word. -/
def isWordChar (c : Char) : Bool :=
  c.isAlphanum || c == '_' || c == '+' || c == '-' || c == '.' || c == ':'

/-- The value of a word. -/
def ofWord? (word : List Char) : Option Json :=
  if word == "true".toList then some (.bool true)
  else if word == "false".toList then some (.bool false)
  else
    match number? word with
    | some j => some j
    | none => (moment? word).map fun shown => .str (String.ofList shown)

/-- A word; the time of a date may follow behind a blank. -/
def word : Scan Char Json := fun cs =>
  let first := cs.takeWhile isWordChar
  let rest := cs.dropWhile isWordChar
  let taken := match rest with
    | ' ' :: c :: _ =>
      if isDigit c && (Scan.whole date first).isSome then
        (first ++ ' ' :: (rest.drop 1).takeWhile isWordChar, (rest.drop 1).dropWhile isWordChar)
      else (first, rest)
    | _ => (first, rest)
  (ofWord? taken.1).map fun j => (j, taken.2)

end SchemaUsage.Toml

import SchemaUsage.Json.Basic
import SchemaUsage.Number.Literal
import SchemaUsage.Number.Power
import SchemaUsage.Text.Scan

/-!
# RON scalars

Blanks, names, strings, characters and numbers of a RON text. Digits may be grouped by underscores,
and a suffix may tell the type of a number.
-/

namespace SchemaUsage.Ron

open SchemaUsage.Text SchemaUsage.Number

/-! ## Blanks -/

/-- The characters between symbols. -/
def isSpace (c : Char) : Bool :=
  (9 ≤ c.toNat && c.toNat ≤ 13) || [0x20, 0x85, 0x200E, 0x200F, 0x2028, 0x2029].contains c.toNat

/-- Drops the rest of a comment in which `depth` further ones are open; none if it does not end. -/
def dropComment : Nat → List Char → Option (List Char)
  | depth, '/' :: '*' :: rest => dropComment (depth + 1) rest
  | 0, '*' :: '/' :: rest => some rest
  | depth + 1, '*' :: '/' :: rest => dropComment depth rest
  | depth, _ :: rest => dropComment depth rest
  | _, [] => none

/-- Skips blanks and a number of comments at most. -/
def skipSpace : Nat → Scan Char Unit
  | 0 => pure ()
  | n + 1 => do
    let _ ← Scan.takeWhile isSpace
    match ← get with
    | '/' :: '/' :: rest => do
      set (rest.dropWhile (· != '\n'))
      skipSpace n
    | '/' :: '*' :: rest =>
      match dropComment 0 rest with
      | some others => do
        set others
        skipSpace n
      | none => Scan.refuse
    | '/' :: _ => Scan.refuse
    | _ => pure ()

/-! ## Names -/

/-- The characters that start a name. -/
def startsName (c : Char) : Bool := c.isAlpha || c == '_' || 128 ≤ c.toNat

/-- The characters of a name. -/
def isNameChar (c : Char) : Bool := startsName c || isDigit c

/-- A name. -/
def name : Scan Char String := do
  let c ← Scan.next
  if startsName c then do
    let others ← Scan.takeWhile isNameChar
    pure (String.ofList (c :: others))
  else Scan.refuse

/-! ## Strings and characters -/

/-- The character of a number. -/
def ofCode (n : Nat) : Scan Char Char :=
  if h : n.isValidChar then pure (Char.ofNatAux n h) else Scan.refuse

/-- The character of a row of hexadecimal digits. -/
def ofDigits (digits : List Char) : Scan Char Char :=
  match hexValue? digits with
  | some n => if digits.isEmpty then Scan.refuse else ofCode n
  | none => Scan.refuse

/-- What an escape behind its backslash stands for. -/
def escaped : Scan Char Char := do
  match ← Scan.next with
  | '\'' => pure '\''
  | '"' => pure '"'
  | '\\' => pure '\\'
  | 'n' => pure '\n'
  | 'r' => pure '\r'
  | 't' => pure '\t'
  | '0' => pure (Char.ofNat 0)
  | 'x' => do
    let a ← Scan.next
    let b ← Scan.next
    ofDigits [a, b]
  | 'u' => do
    Scan.expect '{'
    let digits ← Scan.takeWhile (· != '}')
    Scan.expect '}'
    if 6 < digits.length then Scan.refuse else ofDigits digits
  | _ => Scan.refuse

/-- A character, which an escape may stand for. -/
def piece : Scan Char Char := do
  let c ← Scan.next
  if c = '\\' then escaped else pure c

/-- A string in quotes. -/
def string : Scan Char String := do
  Scan.expect '"'
  let chars ← Scan.many (· != '"') piece
  Scan.expect '"'
  pure (String.ofList chars)

/-- The text in front of a quote that the marks follow, and what stands behind them. -/
def splitRaw (marks : List Char) : List Char → Option (List Char × List Char)
  | [] => none
  | '"' :: rest =>
    if marks.isPrefixOf rest then some ([], rest.drop marks.length)
    else (splitRaw marks rest).map fun (text, others) => ('"' :: text, others)
  | c :: rest => (splitRaw marks rest).map fun (text, others) => (c :: text, others)

/-- Whether a string without escapes starts here. -/
def startsRaw : List Char → Bool
  | 'r' :: rest => (rest.dropWhile (· == '#')).head? == some '"'
  | _ => false

/-- A string without escapes, between quotes and as many marks on both sides. -/
def rawString : Scan Char String := do
  Scan.expect 'r'
  let marks ← Scan.takeWhile (· == '#')
  Scan.expect '"'
  match splitRaw marks (← get) with
  | some (text, rest) => do
    set rest
    pure (String.ofList text)
  | none => Scan.refuse

/-- A character in single quotes. -/
def character : Scan Char String := do
  Scan.expect '\''
  let c ← piece
  Scan.expect '\''
  pure (String.singleton c)

/-! ## Numbers -/

/-- The characters of whole numbers. -/
def isWholeChar (c : Char) : Bool := isHexDigit c || c == '_'

/-- The characters of numbers with a point or an exponent. -/
def isRealChar (c : Char) : Bool :=
  isDigit c || ['e', 'E', '.', '+', '-', '_'].contains c

/-- Takes a word off the front that does not go on. -/
def afterWord? (word cs : List Char) : Option (List Char) :=
  let rest := cs.drop word.length
  if word.isPrefixOf cs && !rest.head?.any isNameChar then some rest else none

/-- What is left behind one of the suffixes that tell a type. -/
def afterSuffix (suffixes : List String) (cs : List Char) : List Char :=
  (suffixes.findSome? fun suffix => afterWord? suffix.toList cs).getD cs

/-- A whole number without its sign, in digits of its base. -/
def magnitude? (cs : List Char) : Option (Nat × List Char) :=
  let (base, body) := match cs with
    | '0' :: 'x' :: rest => (16, rest)
    | '0' :: 'o' :: rest => (8, rest)
    | '0' :: 'b' :: rest => (2, rest)
    | cs => (10, cs)
  let word := body.takeWhile isWholeChar
  let digits := word.filter (· != '_')
  let values := digits.filterMap hexDigit?
  if word.isEmpty || word.head? = some '_' || values.any (base ≤ ·) then none
  else
    let rest := body.drop word.length
    let suffixes := ["i8", "i16", "i32", "i64", "u8", "u16", "u32", "u64"]
    some (values.foldl (fun n d => base * n + d) 0, afterSuffix suffixes rest)

/-- A number with a point or an exponent. No underscore stands at its start or behind a point. -/
def real? (cs : List Char) : Option (Json × List Char) :=
  let word := cs.takeWhile isRealChar
  let rest := cs.drop word.length
  let misplaced := (word.zip ('.' :: word)).any fun p => p.1 == '_' && !(isWholeChar p.2)
  if word.isEmpty || misplaced then none
  else
    match Format.double.read (String.ofList (word.filter (· != '_'))) with
    | .ok x => some (.float x, afterSuffix ["f32", "f64"] rest)
    | .error _ => none

/-- The words for infinity and for "not a number". -/
def word? (negative : Bool) (cs : List Char) : Option (Json × List Char) :=
  let infinite := ["inf", "inff32", "inff64"].findSome? fun w => afterWord? w.toList cs
  let notNumber := ["NaN", "NaNf32", "NaNf64"].findSome? fun w => afterWord? w.toList cs
  (infinite.map fun rest => (.float (.infinite negative), rest)).or
    (notNumber.map fun rest => (.float .nan, rest))

/-- A whole number of 64 bits with its sign; a greater one is a real number. -/
def whole? (cs : List Char) : Option (Json × List Char) :=
  let (negative, body) := takeSign cs
  (magnitude? body).bind fun (n, rest) =>
    let i : Int := if negative then -(n : Int) else n
    if isSigned64 i then some (.int i, rest) else none

/-- **A number.** What goes on further as a real number than as a whole one is real. -/
def number : Scan Char Json := fun cs =>
  let (negative, body) := takeSign cs
  let isReal := (body.takeWhile isWholeChar).length < (body.takeWhile isRealChar).length
  (word? negative body).or
    (if isReal then real? cs else (whole? cs).or (real? cs))

end SchemaUsage.Ron

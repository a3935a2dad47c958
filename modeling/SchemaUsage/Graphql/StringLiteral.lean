import SchemaUsage.Text.Blank
import SchemaUsage.Text.Digits
import SchemaUsage.Text.Lines

/-!
# String literals

The two written forms of a string, as `parse_query` reads them and the printed form of a document
writes them: quoted on one line with escapes, and as a block between triple quotes whose lines share
an indentation.

* A written string may fail to be read back as the same: `escape` writes the code point in decimal
  digits, `unescape` reads it in hexadecimal ones.

Results:
- `unescape_plain`: a body without backslash denotes itself.
-/

namespace SchemaUsage.Graphql.StringLiteral

open SchemaUsage.Text

/-! ## Reading -/

/-- The body of a quoted string up to its closing quote, and what follows it. A quote behind an
unpaired backslash does not close; a line feed must not occur. -/
def quotedBody (escaped : Bool) : List Char → Option (List Char × List Char)
  | [] => none
  | c :: cs =>
    if c = '"' ∧ escaped = false then some ([], cs)
    else if c = '\n' then none
    else (quotedBody (!escaped && c == '\\') cs).map fun (body, rest) => (c :: body, rest)

/-- The body of a block string up to the first triple quote that follows no backslash, and what
follows it. -/
def blockBody (escaped : Bool) : List Char → Option (List Char × List Char)
  | '"' :: '"' :: '"' :: cs =>
    if escaped then
      (blockBody false cs).map fun (body, rest) => ('"' :: '"' :: '"' :: body, rest)
    else some ([], cs)
  | c :: cs => (blockBody (c == '\\') cs).map fun (body, rest) => (c :: body, rest)
  | [] => none

/-- The character with a code point, if there is one. -/
def charOfCode? (n : Nat) : Option Char :=
  if h : n.isValidChar then some (Char.ofNatAux n h) else none

/-- The code point that four characters write: hexadecimal digits, of which the first may be
a plus sign. -/
def fourDigits? : List Char → Option Nat
  | '+' :: rest => if rest.isEmpty then none else hexValue? rest
  | cs => hexValue? cs

/-- The text that the body of a quoted string denotes. -/
def unescape : List Char → Option (List Char)
  | [] => some []
  | '\\' :: 'u' :: a :: b :: c :: d :: rest => do
    let code ← fourDigits? [a, b, c, d]
    let char ← charOfCode? code
    let others ← unescape rest
    pure (char :: others)
  | '\\' :: c :: rest => do
    let char ← match c with
      | '"' => some '"'
      | '\\' => some '\\'
      | '/' => some '/'
      | 'b' => some (Char.ofNat 0x10)
      | 'f' => some (Char.ofNat 0x0C)
      | 'n' => some '\n'
      | 'r' => some '\r'
      | 't' => some '\t'
      | _ => none
    let others ← unescape rest
    pure (char :: others)
  | '\\' :: [] => none
  | c :: rest => (unescape rest).map (c :: ·)

theorem unescape_plain {cs : List Char} (h : '\\' ∉ cs) : unescape cs = some cs := by
  induction cs with
  | nil => rfl
  | cons c cs ih =>
    simp only [List.mem_cons, not_or] at h
    rw [unescape.eq_def]
    split <;> simp_all

/-- The bytes of a text in UTF-8. -/
def byteLength (cs : List Char) : Nat :=
  cs.foldr (fun c rest => c.utf8Size + rest) 0

/-- Drops characters of `n` bytes at least. -/
def dropBytes : Nat → List Char → List Char
  | 0, cs => cs
  | _, [] => []
  | n, c :: cs => dropBytes (n - c.utf8Size) cs

/-- The width of the blanks at the front of a line, in bytes; none for a blank line. -/
def indentation? (line : List Char) : Option Nat :=
  if line.all isBlank then none else some (byteLength (line.takeWhile isBlank))

/-- The least indentation of some lines; none if all are blank. -/
def commonIndentation? (lines : List (List Char)) : Option Nat :=
  (lines.filterMap indentation?).min?

/-- Drops the blank lines at both ends. -/
def dropBlankEnds (lines : List (List Char)) : List (List Char) :=
  let blank (line : List Char) : Bool := line.all isBlank
  ((lines.dropWhile blank).reverse.dropWhile blank).reverse

/-- A line of a block string without `indent` bytes, unless it is shorter than that. -/
def unindent (indent : Nat) (line : List Char) : List Char :=
  if indent ≤ byteLength line then dropBytes indent line else line

/-- The text that the body of a block string denotes: the first line keeps its indentation, the
others lose the common one; blank lines at both ends go. -/
def unindentBlock (body : List Char) : List Char :=
  let stripped := match lines body with
    | [] => []
    | first :: others =>
      match commonIndentation? others with
      | some indent => first :: others.map (unindent indent)
      | none => first :: others
  join ['\n'] ((dropBlankEnds stripped).map (replace ['\\', '"', '"', '"'] ['"', '"', '"']))

/-! ## Writing -/

/-- Whether a text is written as block: it has a line feed, and besides CR, LF and TAB only
characters of the basic plane from the blank on. -/
def isBlock (cs : List Char) : Bool :=
  cs.contains '\n' &&
    cs.all fun c => c == '\n' || c == '\r' || c == '\t' || (0x20 ≤ c.toNat && c.toNat ≤ 0xFFFF)

/-- The written form of a character between quotes. Characters outside of the printed range are
written by their decimal code point. -/
def escape (c : Char) : List Char :=
  if c = '\r' then ['\\', 'r']
  else if c = '\n' then ['\\', 'n']
  else if c = '\t' then ['\\', 't']
  else if c = '"' then ['\\', '"']
  else if c = '\\' then ['\\', '\\']
  else if 0x20 ≤ c.toNat ∧ c.toNat ≤ 0xFFFF then [c]
  else '\\' :: 'u' :: padStart '0' 4 (Nat.toDigits 10 c.toNat)

/-- A text in quotes. -/
def quoted (cs : List Char) : List Char :=
  '"' :: cs.flatMap escape ++ ['"']

/-- A line inside of a block: indented unless it is blank. -/
def blockLine (indent : Nat) (line : List Char) : List Char :=
  if line.all isBlank then []
  else List.replicate indent ' ' ++ replace ['"', '"', '"'] ['\\', '"', '"', '"'] line

/-- A text as block whose end is indented by `indent` and whose lines by two more. -/
def block (indent : Nat) (cs : List Char) : List Char :=
  let quotes := ['"', '"', '"']
  quotes ++ '\n' :: (lines cs).flatMap (fun line => blockLine (indent + 2) line ++ ['\n']) ++
    List.replicate indent ' ' ++ quotes

/-- The written form of a text at an indentation. -/
def written (indent : Nat) (s : String) : String :=
  String.ofList (if isBlock s.toList then block indent s.toList else quoted s.toList)

end SchemaUsage.Graphql.StringLiteral

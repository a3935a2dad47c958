import SchemaUsage.Json.Basic
import SchemaUsage.Text.Blank
import SchemaUsage.Text.Digits
import SchemaUsage.Text.Scan

/-!
# INI texts

The reader of configuration files with the extension `ini`. A text of this form holds keys with
values, first those of no section, then those of sections with names. All values are texts. A
comment has a line of its own, from its first character on. Of several values of a key the last one
counts, and so does the last of several sections of one name.

Out of scope: where an error stands and what it says.
-/

namespace SchemaUsage.Ini

open SchemaUsage.Text

/-! ## Texts -/

/-- The character of the number that four characters write. -/
def numbered : Scan Char Char := fun cs =>
  let code := cs.take 4
  let digits := if code.head? = some '+' then code.drop 1 else code
  if code.length < 4 then none
  else (hexValue? digits).bind fun n =>
    if h : n.isValidChar then some (Char.ofNatAux n h, cs.drop 4) else none

/-- What an escape behind its backslash stands for; a line end stands for nothing. -/
def escaped : Scan Char (List Char) := do
  match ← Scan.next with
  | '0' => pure [Char.ofNat 0]
  | 'a' => pure [Char.ofNat 7]
  | 'b' => pure [Char.ofNat 8]
  | 't' => pure ['\t']
  | 'r' => pure ['\r']
  | 'n' => pure ['\n']
  | '\n' => pure []
  | 'x' => do pure [← numbered]
  | c => pure [c]

/-- A character of a text, or an escape. -/
def piece : Scan Char (List Char) := do
  let c ← Scan.next
  if c = '\\' then escaped else pure [c]

/-- The text in front of one of the given characters, or of the end. -/
def textUntil (ends : List Char) : Scan Char (List Char) := do
  let pieces ← Scan.many (fun c => !ends.contains c) piece
  pure pieces.flatten

/-- The text in front of one of the given characters, which must come. -/
def textBefore (ends : List Char) : Scan Char (List Char) := do
  let text ← textUntil ends
  if (← Scan.peek).isNone then Scan.refuse else pure text

/-! ## Values -/

/-- A part of a value between quotes. -/
def quotedPart : Scan Char (List Char) := do
  let quote ← Scan.next
  let text ← textBefore [quote]
  Scan.expect quote
  pure text

/-- The value behind its mark, up to the end of the line. Quoted parts stand in front of an unquoted
one, and only the blanks in front of the first of all do not count, and those at the end. -/
def value : Scan Char String := do
  let _ ← Scan.takeWhile fun c => isBlank c && c != '\n' && c != '\r'
  let parts ← Scan.many (fun c => c == '"' || c == '\'') quotedPart
  let rest ← textUntil ['\n', '\r']
  let bare := if parts.isEmpty then trim rest else trimEnd rest
  pure (String.ofList (parts.flatten ++ bare))

/-! ## Entries -/

/-- What stands in a text. -/
inductive Entry where
  | comment
  | heading (name : String)
  | pair (key value : String)
  deriving Repr, DecidableEq

/-- An entry. A comment may start only where a line does. -/
def entry (lineStart : Bool) : Scan Char Entry := do
  match ← Scan.peek with
  | some '[' => do
    Scan.expect '['
    let name ← textBefore [']']
    Scan.expect ']'
    pure (.heading (String.ofList (trim name)))
  | some c =>
    if c = ';' || c = '#' then
      if lineStart then do
        let _ ← Scan.takeWhile (· != '\n')
        pure .comment
      else Scan.refuse
    else do
      let key ← textBefore ['=', ':']
      let key := trim key
      let _ ← Scan.next
      if key.isEmpty then Scan.refuse else do pure (.pair (String.ofList key) (← value))
  | none => Scan.refuse

/-- The entries of a text, with the blanks between them. -/
def entries : Nat → Bool → Scan Char (List Entry)
  | 0, _ => Scan.refuse
  | n + 1, textStart => do
    let blanks ← Scan.takeWhile isBlank
    if (← Scan.peek).isNone then pure []
    else
      let lineStart := if blanks.isEmpty then textStart else blanks.getLast? == some '\n'
      let first ← entry lineStart
      let others ← entries n false
      pure (first :: others)

/-! ## Tables -/

/-- The values in front of the first section, and the sections with theirs, the last section first. -/
structure Draft where
  general : List (String × String) := []
  sections : List (String × List (String × String)) := []

/-- Adds an entry. -/
def Draft.add (d : Draft) : Entry → Draft
  | .comment => d
  | .heading name => { d with sections := (name, []) :: d.sections }
  | .pair key value =>
    match d.sections with
    | [] => { d with general := d.general ++ [(key, value)] }
    | (name, pairs) :: others => { d with sections := (name, pairs ++ [(key, value)]) :: others }

/-- Texts as members. -/
def members (pairs : List (String × String)) : List (String × Json) :=
  pairs.map fun (key, value) => (key, .str value)

/-- The table of a draft. -/
def Draft.table (d : Draft) : Json :=
  Json.ofMembers (members d.general ++
    d.sections.reverse.map fun (name, pairs) => (name, Json.ofMembers (members pairs)))

/-- **The table of an INI text.** -/
def parse? (text : String) : Option Json :=
  let cs := text.toList
  (Scan.whole (entries (cs.length + 1) true) cs).map fun found =>
    (found.foldl Draft.add {}).table

end SchemaUsage.Ini

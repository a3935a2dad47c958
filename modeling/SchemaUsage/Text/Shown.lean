import SchemaUsage.Text.Unshown

/-!
# Shown texts

Texts between quotes, as `CliError::NoDocuments` shows paths: quotes and backslashes are escaped,
and so is what would not show as a character of its own.
-/

namespace SchemaUsage.Text

/-- The lower-case hexadecimal digits of a number. -/
def hexText (n : Nat) : List Char := Nat.toDigits 16 n

/-- A character between quotes. -/
def shownChar (c : Char) : List Char :=
  if c = '\t' then ['\\', 't']
  else if c = '\n' then ['\\', 'n']
  else if c = '\r' then ['\\', 'r']
  else if c.toNat = 0 then ['\\', '0']
  else if c = '"' ∨ c = '\'' ∨ c = '\\' then ['\\', c]
  else if !isUnshown c then [c]
  else ['\\', 'u', Char.ofNat 0x7B] ++ hexText c.toNat ++ [Char.ofNat 0x7D]

/-- **A text between quotes.** -/
def shown (s : String) : String :=
  "\"" ++ String.ofList (s.toList.flatMap shownChar) ++ "\""

/-- Texts between quotes, in a list. -/
def shownList (texts : List String) : String :=
  "[" ++ ", ".intercalate (texts.map shown) ++ "]"

end SchemaUsage.Text

import SchemaUsage.Text.Digits
import SchemaUsage.Yaml.Cursor

/-!
# Anchors, tags and directives

What may stand in front of a node: the name of an anchor, and a tag. A tag is written as a whole
between angle brackets, or as a handle and the rest behind it. Directives in front of a document
give handles a meaning.
-/

namespace SchemaUsage.Yaml

open SchemaUsage.Text Read

/-! ## Characters -/

/-- The characters of a name of an anchor. -/
def isNameChar (c : Char) : Bool :=
  !isBlank c && c != '\n' && !isFlowIndicator c && c.toNat != 0xFEFF

/-- The characters of a word. -/
def isWordChar (c : Char) : Bool := c.isAlphanum || c == '_' || c == '-'

/-- The characters of a resource name. -/
def isUriChar (c : Char) : Bool :=
  c.isAlphanum || c == '-' || "#;/?:@&=+$,_.!~*'()[]%".toList.contains c

/-- The characters of a tag behind its handle. -/
def isTagChar (c : Char) : Bool := isUriChar c && !isFlowIndicator c && c != '!'

/-! ## Anchors -/

/-- A name of an anchor behind its mark. -/
def anchorName : Read String := do
  let _ ← next
  let name ← takeWhile isNameChar
  require !name.isEmpty
  pure (String.ofList name)

/-! ## Tags -/

/-- A tag: a handle and the rest behind it. A tag that is written as a whole has no handle. -/
structure Tag where
  handle : String
  suffix : String
  deriving Repr, DecidableEq

namespace Tag

/-- Whether a handle stands between two marks, so that only a directive gives it a meaning. -/
def isNamed (handle : String) : Bool :=
  let cs := handle.toList
  2 ≤ cs.length && cs.head? == some '!' && cs.getLast? == some '!'

end Tag

/-- The byte of an escape: two hexadecimal digits behind a percent sign. -/
def escapedByte : Read Nat := do
  match ← take 3 with
  | ['%', a, b] =>
    match hexValue? [a, b] with
    | some n => pure n
    | none => refuse
  | _ => refuse

/-- The number of bytes that the first byte announces. -/
def escapedWidth (first : Nat) : Option Nat :=
  if first < 0x80 then some 1
  else if 0xC0 ≤ first && first < 0xE0 then some 2
  else if 0xE0 ≤ first && first < 0xF0 then some 3
  else if 0xF0 ≤ first && first < 0xF8 then some 4
  else none

/-- Further bytes of an escaped character, each behind the digits so far. -/
def escapedRest : Nat → Nat → Read Nat
  | 0, code => pure code
  | n + 1, code => do
    let byte ← escapedByte
    require (0x80 ≤ byte && byte < 0xC0)
    escapedRest n (code * 256 + byte)

/-- An escaped character: its number is that of its bytes in a row. -/
def escapedChar : Read Char := do
  let first ← escapedByte
  match escapedWidth first with
  | none => refuse
  | some width => do
    let code ← escapedRest (width - 1) first
    if h : code.isValidChar then pure (Char.ofNatAux code h) else refuse

/-- Characters that satisfy `p`, where a percent sign starts an escape. -/
def escapedWhile (p : Char → Bool) : Read String :=
  repeatFrom "" fun text => do
    match ← peek with
    | none => pure (.done text)
    | some c =>
      if !p c then pure (.done text)
      else if c = '%' then do
        let d ← escapedChar
        pure (.yield (text.push d))
      else do
        let _ ← next
        pure (.yield (text.push c))

/-- A handle: a word behind a mark, perhaps with a mark behind it. -/
def tagHandle : Read String := do
  require (← accept '!')
  let word ← takeWhile isWordChar
  let closed ← accept '!'
  pure (String.ofList ('!' :: word ++ if closed then ['!'] else []))

/-- A tag that is written as a whole. -/
def verbatimTag : Read Tag := do
  let _ ← take 2
  let name ← escapedWhile isUriChar
  require (← accept '>')
  pure ⟨"", name⟩

/-- A tag with a handle. What seems to be a handle without a mark behind it belongs to the rest. -/
def shorthandTag : Read Tag := do
  let handle ← tagHandle
  let rest ← escapedWhile isTagChar
  if Tag.isNamed handle then do
    require !rest.isEmpty
    pure ⟨handle, rest⟩
  else
    let suffix := String.ofList (handle.toList.drop 1) ++ rest
    pure (if suffix.isEmpty then ⟨"", "!"⟩ else ⟨"!", suffix⟩)

/-- A tag, which nothing may touch. -/
def tag (flow : Bool) : Read Tag := do
  let t ← if (← peekSecond) = some '<' then verbatimTag else shorthandTag
  let after ← peek
  require (isBreak after || (flow && after.any isFlowIndicator))
  pure t

/-! ## Directives -/

/-- A directive: the version of the format, or what a handle stands for. Any other directive counts
as one that gives the empty handle no meaning. -/
inductive Directive where
  | version
  | handle (name meaning : String)
  deriving Repr, DecidableEq

/-- A number of a version. -/
def versionNumber : Read Unit := do
  let digits ← takeWhile isDigit
  require (!digits.isEmpty && digits.length ≤ 9)

/-- The version behind the name of its directive. -/
def versionDirective : Read Directive := do
  versionNumber
  require (← accept '.')
  versionNumber
  pure .version

/-- What a handle stands for: a mark, or a character of a tag, and further characters. -/
def handleMeaning : Read String := do
  if ← accept '!' then do pure ("!" ++ (← escapedWhile isUriChar))
  else
    require ((← peek).any isTagChar)
    escapedWhile isUriChar

/-- A handle and what it stands for. -/
def handleDirective : Read Directive := do
  let handle ← tagHandle
  require (handle == "!" || Tag.isNamed handle)
  let _ ← takeWhile isBlank
  let meaning ← handleMeaning
  require (isBreak (← peek))
  pure (.handle handle meaning)

/-- A directive behind its mark, with the end of its line. -/
def directive : Read Directive := do
  let _ ← next
  let name ← takeWhile isWordChar
  require (!name.isEmpty && isBreak (← peek))
  let d ←
    if String.ofList name == "YAML" then do
      let _ ← takeWhile isBlank
      versionDirective
    else if String.ofList name == "TAG" then do
      let _ ← takeWhile isBlank
      handleDirective
    else do
      skipLine
      pure (.handle "" "")
  let _ ← skipBlanks true
  require (← atLineEnd)
  let _ ← accept '\n'
  pure d

end SchemaUsage.Yaml

import SchemaUsage.Text.Digits
import SchemaUsage.Yaml.Cursor

/-!
# Scalars that flow over lines

Quoted and plain scalars. Within them a single line end counts as a space, and each further one as a
line end; the blanks around line ends do not count.
-/

namespace SchemaUsage.Yaml

open SchemaUsage.Text Read

/-! ## Gaps -/

/-- What stands between two words: blanks of one line, or line ends with blanks around them. -/
structure Gap where
  blanks : List Char := []
  lineEnds : Nat := 0
  deriving Repr

namespace Gap

/-- The text of line ends in a row. -/
def folded (count : Nat) : List Char :=
  if count = 1 then [' '] else List.replicate (count - 1) '\n'

/-- The text that a gap stands for. -/
def text (g : Gap) : List Char :=
  if g.lineEnds = 0 then g.blanks else folded g.lineEnds

end Gap

/-- Takes blanks and line ends. `leading` says that a line has begun already; `leftTab` treats a tab
that stands at the start of a line, to the left of the least column. -/
def gap (least : Int) (leading : Bool) (leftTab : Read Unit) : Read Gap :=
  repeatFrom {} fun g => do
    match ← peek with
    | some '\n' => do
      let _ ← next
      pure (.yield { lineEnds := g.lineEnds + 1 })
    | some c =>
      if !isBlank c then pure (.done g)
      else if !leading && g.lineEnds = 0 then do
        let _ ← next
        pure (.yield { g with blanks := g.blanks ++ [c] })
      else do
        if c = '\t' && (← column) < least then leftTab
        else
          let _ ← next
        pure (.yield g)
    | none => pure (.done g)

/-! ## Quoted scalars -/

/-- The number of hexadecimal digits behind an escape letter. -/
def escapeWidth : Char → Option Nat
  | 'x' => some 2
  | 'u' => some 4
  | 'U' => some 8
  | _ => none

/-- The character that a one-letter escape stands for. -/
def shortEscape? : Char → Option Char
  | '0' => some (Char.ofNat 0)
  | 'a' => some (Char.ofNat 7)
  | 'b' => some (Char.ofNat 8)
  | 't' => some '\t'
  | '\t' => some '\t'
  | 'n' => some '\n'
  | 'v' => some (Char.ofNat 11)
  | 'f' => some (Char.ofNat 12)
  | 'r' => some '\r'
  | 'e' => some (Char.ofNat 27)
  | ' ' => some ' '
  | '"' => some '"'
  | '/' => some '/'
  | '\\' => some '\\'
  | 'N' => some (Char.ofNat 0x85)
  | '_' => some (Char.ofNat 0xA0)
  | 'L' => some (Char.ofNat 0x2028)
  | 'P' => some (Char.ofNat 0x2029)
  | _ => none

/-- The character that a number of hexadecimal digits names. -/
def numbered (width : Nat) : Read Char := do
  let digits ← take width
  require (digits.length == width)
  match hexValue? digits with
  | some n => if h : n.isValidChar then pure (Char.ofNatAux n h) else refuse
  | none => refuse

/-- What an escape stands for. -/
def escape : Read Char := do
  let _ ← next
  let c ← next
  match shortEscape? c, escapeWidth c with
  | some d, _ => pure d
  | none, some width => numbered width
  | none, none => refuse

/-- The characters of a quoted scalar up to a blank, a line end or the closing quote, and whether
they end with a line end that is escaped. -/
def quotedRun (quote : Char) : Read (String × Bool) :=
  repeatFrom ("", false) fun (text, _) => do
    match ← peek with
    | none => pure (.done (text, false))
    | some c =>
      let second ← peekSecond
      if isBlank c || c = '\n' then pure (.done (text, false))
      else if c = quote then
        if c = '\'' && second = some '\'' then do
          let _ ← take 2
          pure (.yield (text.push c, false))
        else pure (.done (text, false))
      else if c = '\\' && quote = '"' then
        if second = some '\n' then do
          let _ ← next
          let _ ← next
          pure (.done (text, true))
        else do
          let d ← escape
          pure (.yield (text.push d, false))
      else do
        let _ ← next
        pure (.yield (text.push c, false))

/-- The text of a quoted scalar up to its closing quote. No line of it starts with a document marker
or to the left of the least column. -/
def quotedText (quote : Char) (least : Int) : Read String :=
  repeatFrom "" fun text => do
    require !(← atDocumentMarker)
    require ((← peek) != none)
    require (least ≤ (← column))
    let (word, joined) ← quotedRun quote
    let text := text ++ word
    if (← peek) = some quote then pure (.done text)
    else
      let g ← gap least joined refuse
      let between := if joined then List.replicate g.lineEnds '\n' else g.text
      pure (.yield (text ++ String.ofList between))

/-- Whether the character may follow a quoted scalar. Outside of flow collections a scalar is a key
only if it stands on one line. -/
def mayFollowQuoted (flow oneLine : Bool) : Option Char → Bool
  | none => true
  | some '\n' => true
  | some ':' => flow || oneLine
  | some ',' => flow
  | some ']' => flow
  | some '}' => flow
  | _ => false

/-- **A quoted scalar.** -/
def quoted (flow : Bool) (least : Int) : Read String := do
  let line := (← get).line
  let quote ← next
  let text ← quotedText quote least
  let _ ← next
  let _ ← skipBlanks true
  let oneLine := (← get).line == line
  require (mayFollowQuoted flow oneLine (← peek))
  pure text

/-! ## Plain scalars -/

/-- Whether a plain scalar goes on with the character, given the one behind it. -/
def isPlain (flow : Bool) (c : Char) (second : Option Char) : Bool :=
  !isBreak (some c) && !(flow && isFlowIndicator c) &&
    !(c == ':' && (isBreak second || (flow && second.any isFlowIndicator)))

/-- The number of characters in a row that belong to a plain scalar. -/
def plainLength (flow : Bool) : List Char → Nat
  | [] => 0
  | c :: rest => if isPlain flow c rest.head? then plainLength flow rest + 1 else 0

/-- The characters in a row that belong to a plain scalar. -/
def plainRun (flow : Bool) : Read (List Char) := do
  take (plainLength flow (← get).rest)

/-- **A plain scalar.** Outside of flow collections its further lines reach the least column; inside
of one it starts there. -/
def plain (flow : Bool) (least : Int) : Read String := do
  require (!flow || least ≤ (← column))
  let (text, _) ← repeatFrom ("", ({} : Gap)) fun (text, g) => do
    let marker ← atDocumentMarker
    if marker || (← peek) = some '#' then pure (.done (text, g))
    else
      require !(flow && (← peek) == some '-' && (← peekSecond).any isFlowIndicator)
      let word ← plainRun flow
      let text := if word.isEmpty then text else text ++ String.ofList (g.text ++ word)
      if isBreak (← peek) && (← peek) != none then do
        let g ← gap least false skipLeftTab
        if !flow && (← column) < least then pure (.done (text, g))
        else pure (.yield (text, g))
      else pure (.done (text, g))
  require !text.isEmpty
  pure text

end SchemaUsage.Yaml

import SchemaUsage.Text.Digits
import SchemaUsage.Yaml.Cursor

/-!
# Block scalars

A block scalar is a run of lines that are indented alike. A literal one keeps its line ends. In a
folded one a single line end between lines that start with no blank becomes a space. The header says
how the line ends behind the text are treated, and perhaps how deep the lines are indented.
-/

namespace SchemaUsage.Yaml

open SchemaUsage.Text Read

/-- How the line ends behind a block scalar are treated. -/
inductive Chomping where
  | strip
  | clip
  | keep
  deriving Repr, DecidableEq

/-! ## Headers -/

/-- The mark of a treatment, if it comes. -/
def chompingMark : Read (Option Chomping) := do
  if ← accept '+' then pure (some .keep)
  else if ← accept '-' then pure (some .strip)
  else pure none

/-- A digit that tells the depth of the lines, if it comes. -/
def depthMark : Read (Option Nat) := do
  match ← peek with
  | some c =>
    if isDigit c then do
      let _ ← next
      require (c != '0')
      pure (some (decimalValue [c]))
    else pure none
  | none => pure none

/-- The two marks of a header, in either order. -/
def blockMarks : Read (Chomping × Option Nat) := do
  match ← chompingMark with
  | some chomping => do pure (chomping, ← depthMark)
  | none => do
    match ← depthMark with
    | none => pure (.clip, none)
    | some depth => do pure ((← chompingMark).getD .clip, some depth)

/-- A header with what ends its line. -/
def blockHeader : Read (Chomping × Option Nat) := do
  let marks ← blockMarks
  let _ ← skipBlanks true
  require (← atLineEnd)
  let _ ← accept '\n'
  require ((← peek) != some '\t')
  pure marks

/-! ## Lines -/

/-- Skips lines that hold nothing but spaces, and the indentation of the line behind them up to the
depth. Counts the line ends. -/
def skipToLine (depth : Nat) : Read Nat :=
  repeatFrom 0 fun count => do
    let c ← get
    let _ ← take ((c.run (· == ' ')).take (depth - c.column)).length
    if ← accept '\n' then pure (.yield (count + 1)) else pure (.done count)

/-- Skips lines that hold nothing but spaces, and the indentation of the line behind them. Gives the
greatest indentation and the number of line ends. -/
def skipToFirstLine : Read (Nat × Nat) :=
  repeatFrom (0, 0) fun (deepest, count) => do
    let _ ← takeWhile (· == ' ')
    let deepest := max deepest (← column)
    if ← accept '\n' then pure (.yield (deepest, count + 1)) else pure (.done (deepest, count))

/-- The text of a block scalar so far: the lines, whether the last one ended, whether it started
with a blank, and the number of blank lines behind it. -/
structure BlockText where
  text : String := ""
  ended : Bool := false
  blank : Bool := false
  blankLines : Nat := 0
  deriving Repr

namespace BlockText

/-- The text of a number of line ends. -/
def lineEnds (count : Nat) : String := String.ofList (List.replicate count '\n')

/-- Adds a line. -/
def add (literal : Bool) (b : BlockText) (line : List Char) : BlockText :=
  let blank := line.head?.any isBlank
  let joined := !literal && b.ended && !b.blank && !blank
  let between :=
    if joined then if b.blankLines = 0 then " " else lineEnds b.blankLines
    else lineEnds (b.ended.toNat + b.blankLines)
  { text := b.text ++ between ++ String.ofList line, blank := blank }

/-- The text under a treatment of the line ends behind it. `unended` says that the text of the
document ends behind blanks that are as deep as the lines, or behind the last line itself. -/
def shown (b : BlockText) (unended : Bool) : Chomping → String
  | .strip => b.text
  | .clip => b.text ++ lineEnds (b.ended.toNat + unended.toNat)
  | .keep => b.text ++ lineEnds (b.ended.toNat + unended.toNat + b.blankLines)

end BlockText

/-- The lines at the given depth, behind a number of blank ones. -/
def blockLines (literal : Bool) (depth blankLines : Nat) : Read BlockText :=
  repeatFrom { blankLines := blankLines } fun b => do
    let here := (← column) == depth && (← peek) != none
    if !here || (depth = 0 && (← atMarker '.')) then pure (.done b)
    else
      let b := b.add literal (← takeWhile fun _ => true)
      if ← accept '\n' then do
        let count ← skipToLine depth
        pure (.yield { b with ended := true, blankLines := count })
      else pure (.done b)

/-- The text of a block scalar that holds no line, from the number of its blank lines. -/
def emptyBlock (headed : Bool) (blankLines : Nat) : Chomping → String
  | .strip => ""
  | .clip => BlockText.lineEnds headed.toNat
  | .keep => if headed then BlockText.lineEnds (max blankLines 1) else ""

/-- **A block scalar** behind its first character, in a collection of the given indentation. -/
def block (literal : Bool) (indent : Int) : Read String := do
  let line := (← get).line
  let (chomping, given) ← blockHeader
  let (depth, blankLines) ← match given with
    | some n => do
      let depth := indent.toNat + n
      pure (depth, ← skipToLine depth)
    | none => do
      let (deepest, count) ← skipToFirstLine
      pure (max deepest (indent + 1).toNat, count)
  if (← peek) = none then pure (emptyBlock ((← get).line != line) blankLines chomping)
  else
    let column ← column
    require !(column < depth && indent < column)
    let b ← blockLines literal depth blankLines
    let unended := (← peek) == none && max depth 1 ≤ (← Read.column)
    pure (b.shown unended chomping)

end SchemaUsage.Yaml

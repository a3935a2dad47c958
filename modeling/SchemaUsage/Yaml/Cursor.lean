/-!
# A place in a YAML text

A cursor knows its line and column, and whether only blanks stand between the start of the line and
itself. The readers of this module move over blanks, comments and line ends.

Results:
- `takeWhile_rest`: what a run takes and what it leaves are the text.
-/

namespace SchemaUsage.Yaml

/-- A place in a text whose lines end with LF. -/
structure Cursor where
  rest : List Char
  index : Nat := 0
  line : Nat := 0
  column : Nat := 0
  leading : Bool := true
  deriving Repr, Inhabited

/-- The characters that separate within a line. -/
def isBlank (c : Char) : Bool := c == ' ' || c == '\t'

/-- Whether a line or the text ends where the character comes. -/
def isLineEnd (c : Option Char) : Bool := c == none || c == some '\n'

/-- Whether a blank, a line end or the end of the text comes. -/
def isBreak (c : Option Char) : Bool := isLineEnd c || c.any isBlank

/-- The characters that structure flow collections. -/
def isFlowIndicator (c : Char) : Bool := [',', '[', ']', '{', '}'].contains c

namespace Cursor

/-- The cursor behind `n` characters that lie on its line. -/
def advance (n : Nat) (c : Cursor) : Cursor :=
  { c with
    rest := c.rest.drop n
    index := c.index + n
    column := c.column + n
    leading := c.leading && (c.rest.take n).all isBlank }

/-- The cursor at the start of the next line, behind the line end that comes. -/
def nextLine (c : Cursor) : Cursor :=
  { c with
    rest := c.rest.drop 1, index := c.index + 1, line := c.line + 1, column := 0, leading := true }

/-- The characters of this line that come and satisfy `p`. -/
def run (p : Char → Bool) (c : Cursor) : List Char :=
  c.rest.takeWhile fun d => d != '\n' && p d

end Cursor

/-- Reads an `α`, or refuses. -/
abbrev Read (α : Type) := StateT Cursor Option α

namespace Read

/-- Refuses. -/
def refuse : Read α := fun _ => none

/-- Refuses unless the condition holds. -/
def require (condition : Bool) : Read Unit := if condition then pure () else refuse

/-- The next character. -/
def peek : Read (Option Char) := fun c => some (c.rest.head?, c)

/-- The character behind the next one. -/
def peekSecond : Read (Option Char) := fun c => some ((c.rest.drop 1).head?, c)

/-- The column of the next character. -/
def column : Read Nat := fun c => some (c.column, c)

/-- Takes the next character. -/
def next : Read Char := fun c =>
  match c.rest with
  | [] => none
  | d :: _ => some (d, if d == '\n' then c.nextLine else c.advance 1)

/-- Takes `n` characters, which lie on this line. -/
def take (n : Nat) : Read (List Char) := fun c =>
  some (c.rest.take n, c.advance n)

/-- Takes characters of this line as long as they satisfy `p`. -/
def takeWhile (p : Char → Bool) : Read (List Char) := fun c =>
  some (c.run p, c.advance (c.run p).length)

/-- Takes the given character if it comes, and tells whether it did. -/
def accept (d : Char) : Read Bool := do
  if (← peek) = some d then do
    let _ ← next
    pure true
  else pure false

theorem takeWhile_rest (p : Char → Bool) (c : Cursor) :
    ∃ taken c', takeWhile p c = some (taken, c') ∧ taken ++ c'.rest = c.rest := by
  refine ⟨c.run p, c.advance (c.run p).length, rfl, ?_⟩
  have h : ∀ (q : Char → Bool) (l : List Char),
      l.takeWhile q ++ l.drop (l.takeWhile q).length = l := by
    intro q l
    induction l with
    | nil => rfl
    | cons d l ih => by_cases hd : q d <;> simp [hd, ih]
  exact h _ c.rest

/-- Repeats a step until it is done. Each step but the last takes a character, so the length of the
text bounds the steps. -/
def repeatFrom (start : σ) (step : σ → Read (ForInStep σ)) : Read σ := fun c =>
  go (c.rest.length + 1) start c
where
  /-- At most the given number of steps. -/
  go : Nat → σ → Read σ
  | 0, _ => refuse
  | n + 1, s => do
    match ← step s with
    | .done s => pure s
    | .yield s => go n s

/-! ## Blanks and comments -/

/-- Skips the rest of the line. -/
def skipLine : Read Unit := do
  let _ ← takeWhile fun _ => true

/-- Whether a line ends here. -/
def atLineEnd : Read Bool := do
  pure (isLineEnd (← peek))

/-- Takes spaces, with `tabs` also tabs, and the comment behind them. A comment does not touch what
stands in front of it. -/
def skipBlanks (tabs : Bool) : Read (List Char) := do
  let blanks ← takeWhile fun c => c == ' ' || (tabs && c == '\t')
  if (← peek) = some '#' then
    require !blanks.isEmpty
    skipLine
  pure blanks

/-- Takes a tab to the left of the least column of a line. It may stand in a line without content
only. -/
def skipLeftTab : Read Unit := do
  let _ ← skipBlanks true
  require (← atLineEnd)

/-- Skips blanks, comments and line ends up to the next content, and tells whether a line ended. No
tab stands in front of content to the left of the least column. -/
def skipToContent (least : Int) : Read Bool :=
  repeatFrom false fun ended => do
    let c ← get
    match c.rest.head? with
    | some '\n' => do
      let _ ← next
      pure (.yield true)
    | some '#' => do
      skipLine
      pure (.yield ended)
    | some ' ' => do
      let _ ← next
      pure (.yield ended)
    | some '\t' => do
      if c.leading && c.column < least then skipLeftTab
      else
        let _ ← next
      pure (.yield ended)
    | _ => pure (.done ended)

/-- Skips spaces, line ends and comments, but no tabs, and tells whether a line ended. There is a
space or a line end at least. -/
def skipSpaces : Read Bool := do
  let (found, ended) ← repeatFrom (false, false) fun (found, ended) => do
    match ← peek with
    | some '\n' => do
      let _ ← next
      pure (.yield (true, true))
    | some ' ' => do
      let _ ← next
      pure (.yield (true, ended))
    | some '#' => do
      skipLine
      pure (.yield (found, ended))
    | _ => pure (.done (found, ended))
  require found
  pure ended

/-! ## Document markers -/

/-- Whether three of the character stand here at the start of a line, and nothing touches them. -/
def atMarker (c : Char) : Read Bool := fun cursor =>
  let here := cursor.column == 0 && cursor.rest.take 3 == [c, c, c] &&
    isBreak (cursor.rest.drop 3).head?
  some (here, cursor)

/-- Whether a document starts or ends here. -/
def atDocumentMarker : Read Bool := do
  pure ((← atMarker '-') || (← atMarker '.'))

end Read

end SchemaUsage.Yaml

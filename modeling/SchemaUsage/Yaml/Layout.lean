import SchemaUsage.Yaml.Block
import SchemaUsage.Yaml.Scalar
import SchemaUsage.Yaml.Token

/-!
# The layout of a YAML text

Block collections start where a line is indented further and end where one is indented less. What
may turn out to be a key is remembered until its colon comes: a simple key stands on one line with
it, unless it lies in a flow collection. `Layout.tokens?` reads a text with these rules.

Results:
- `Layout.indent_popTo`: closing collections to a column leaves none that lies further right, if the
  outermost one lies at the left of all columns.
-/

namespace SchemaUsage.Yaml

open Read

/-- An indentation, and whether a block collection ends where it ends. -/
structure Indent where
  column : Int
  closes : Bool
  deriving Repr, DecidableEq

/-- What may be a simple key: whether it still may, whether it must since it starts a line of a
block mapping, the number of tokens in front of it, and its place. -/
structure KeyPlace where
  possible : Bool := false
  required : Bool := false
  token : Nat := 0
  index : Nat := 0
  line : Nat := 0
  column : Nat := 0
  deriving Repr

/-- A place in a text with all that decides how it goes on: the tokens so far, the indentations from
the inside out, a possible key for each flow collection from the inside out and one for the block
around them, whether a key may start here, where a value may touch its colon, whether a pair in
braces is being read, and for each flow sequence from the inside out whether a pair without braces
is open in it. -/
structure Layout where
  cursor : Cursor
  tokens : Array Token := #[]
  indents : List Indent := []
  keys : List KeyPlace := [{}]
  keyAllowed : Bool := true
  valueIndex : Nat := 0
  braced : Bool := false
  pairs : List Bool := []

namespace Layout

/-- The column of the innermost collection; to the left of all columns if there is none. -/
def indent (l : Layout) : Int := (l.indents.head?.map Indent.column).getD (-1)

/-- The number of flow collections around the place. -/
def depth (l : Layout) : Nat := l.keys.length - 1

/-- Whether the place is in a flow collection. -/
def inFlow (l : Layout) : Bool := 0 < l.depth

/-- How deep flow collections nest at most. -/
def maxDepth : Nat := 255

/-- How far a simple key reaches at most. -/
def maxKeyLength : Nat := 1024

/-- The possible key of the innermost collection. -/
def lastKey (l : Layout) : KeyPlace := l.keys.head?.getD {}

/-- Puts the possible key of the innermost collection. -/
def putKey (k : KeyPlace) (l : Layout) : Layout := { l with keys := k :: l.keys.drop 1 }

/-- Appends a token. -/
def push (t : Token) (l : Layout) : Layout := { l with tokens := l.tokens.push t }

/-- Inserts a token in front of the token with the given number. -/
def insert (n : Nat) (t : Token) (l : Layout) : Layout :=
  { l with tokens := l.tokens.insertIdxIfInBounds n t }

/-! ## Indentation -/

/-- The indentations that are left where a line starts at the column, and the ends of the block
collections that it closes. -/
def popTo (column : Int) : List Indent → List Indent × List Token
  | [] => ([], [])
  | i :: outer =>
    if column < i.column then
      let (left, ends) := popTo column outer
      (left, if i.closes then .blockEnd :: ends else ends)
    else (i :: outer, [])

theorem indent_popTo (column : Int) (indents : List Indent) :
    ∀ i, (popTo column indents).1.head? = some i → i.column ≤ column := by
  induction indents with
  | nil => simp [popTo]
  | cons i outer ih =>
    unfold popTo
    split
    · exact ih
    · intro j hj
      simp only [List.head?_cons, Option.some.injEq] at hj
      subst hj
      omega

/-- Closes the block collections that lie further right than the column. -/
def closeTo (column : Int) (l : Layout) : Layout :=
  if l.inFlow then l
  else
    let (left, ends) := popTo column l.indents
    { l with indents := left, tokens := ends.foldl Array.push l.tokens }

/-- Drops the indentation of a value that turned out to be no collection. -/
def dropValueIndents (l : Layout) : Layout :=
  { l with indents := l.indents.dropWhile fun i => !i.closes }

/-- Opens a block collection at the column unless one is open there; its start is inserted in front
of the given token. -/
def openAt (column : Int) (n : Nat) (start : Token) (l : Layout) : Layout :=
  if l.inFlow then l
  else
    let spare := l.indents.head?.any fun i => i.column ≤ column && !i.closes
    let indents := if spare then l.indents.drop 1 else l.indents
    let l := { l with indents := indents }
    if l.indent < column then
      ({ l with indents := ⟨column, true⟩ :: indents }).insert n start
    else l

/-- A value of a block collection lies further right than the collection. -/
def indentValue (l : Layout) : Layout :=
  if !l.inFlow && l.indents.head?.any Indent.closes then
    { l with indents := ⟨l.indent + 1, false⟩ :: l.indents }
  else l

/-! ## Simple keys -/

/-- Remembers that a key may start here. -/
def saveKey (l : Layout) : Layout :=
  if l.keyAllowed then
    let c := l.cursor
    l.putKey {
      possible := true
      required := !l.inFlow && l.indents.head? == some ⟨c.column, true⟩
      token := l.tokens.size
      index := c.index, line := c.line, column := c.column }
  else l

/-- Gives up the possible key, which must not be a required one. -/
def dropKey? (l : Layout) : Option Layout :=
  let k := l.lastKey
  if k.possible && k.required then none
  else some (l.putKey { k with possible := false })

/-- Whether the colon of a key would come too late. -/
def isStale (c : Cursor) (k : KeyPlace) : Bool :=
  k.possible && (k.line < c.line || k.index + maxKeyLength < c.index)

/-- Outside of flow collections, gives up the keys whose colon would come too late. -/
def dropStaleKeys? (l : Layout) : Option Layout :=
  if l.inFlow then some l
  else if l.keys.any fun k => isStale l.cursor k && k.required then none
  else
    some { l with keys := l.keys.map fun k =>
      { k with possible := k.possible && !isStale l.cursor k } }

/-- Tells whether a key may start here. -/
def allowKey (allowed : Bool) (l : Layout) : Layout := { l with keyAllowed := allowed }

/-! ## Pairs of flow sequences -/

/-- Whether a colon here belongs to a pair without braces in a flow sequence. -/
def opensPair (l : Layout) : Bool := !l.pairs.isEmpty && !l.braced

/-- Ends the pair without braces that is open in the innermost flow sequence. -/
def closePair (l : Layout) : Layout :=
  match l.pairs with
  | true :: outer => ({ l with braced := false, pairs := false :: outer }).push .flowMappingEnd
  | _ => l

end Layout

/-- Reads an `α` by the rules of layout, or refuses. -/
abbrev Arrange (α : Type) := StateT Layout Option α

namespace Arrange

open Layout

/-- Refuses unless the condition holds. -/
def require (condition : Bool) : Arrange Unit := if condition then pure () else fun _ => none

/-- Reads characters. -/
def read (p : Read α) : Arrange α := fun l =>
  (p l.cursor).map fun (a, c) => (a, { l with cursor := c })

/-- Changes the layout if that is possible. -/
def change (f : Layout → Option Layout) : Arrange Unit := fun l => (f l).map fun l => ((), l)

/-- Reads blanks or line ends. Outside of flow collections a key may start behind a line end. -/
def readBlanks (p : Read Bool) : Arrange Unit := do
  if ← read p then
    modify fun l => if l.inFlow then l else l.allowKey true

/-- Skips blanks, comments and line ends up to the next content. -/
def skipToContent : Arrange Unit := do
  readBlanks (Read.skipToContent (← get).indent)

/-- Takes the next character, and the blanks and the comment behind it. -/
def takeMark : Arrange Unit := do
  let _ ← read next
  let _ ← read (skipBlanks true)

/-! ## Tokens -/

/-- A directive or a document marker: all that is open ends. -/
def outermost (p : Read Token) : Arrange Unit := do
  modify (closeTo (-1))
  change dropKey?
  modify (allowKey false)
  let t ← read p
  modify (push t)

/-- The end of a document. Nothing but a comment may stand behind it. -/
def documentEnd : Arrange Unit := do
  outermost do
    let _ ← take 3
    pure .documentEnd
  let _ ← read (skipBlanks true)
  require (← read atLineEnd)

/-- The start of a flow collection. -/
def flowStart (braces : Bool) : Arrange Unit := do
  modify fun l => l.saveKey.indentValue
  modify fun l => { l with keys := {} :: l.keys, keyAllowed := true }
  require ((← get).depth ≤ maxDepth)
  modify fun l => if braces then { l with braced := true } else { l with pairs := false :: l.pairs }
  takeMark
  modify (push (if braces then .flowMappingStart else .flowSequenceStart))

/-- The end of a flow collection. A value may touch the colon behind it if it is a key. -/
def flowEnd (braces : Bool) : Arrange Unit := do
  change dropKey?
  modify fun l => { l with keys := if l.inFlow then l.keys.drop 1 else l.keys, keyAllowed := false }
  if !braces then
    modify fun l =>
      let l := l.closePair
      { l with pairs := l.pairs.drop 1 }
  takeMark
  modify fun l => if l.inFlow then { l with valueIndex := l.cursor.index } else l
  modify (push (if braces then .flowMappingEnd else .flowSequenceEnd))

/-- The comma of a flow collection. -/
def flowEntry : Arrange Unit := do
  change dropKey?
  modify fun l => (l.allowKey true).closePair
  takeMark
  modify (push .flowEntry)

/-- The dash of a block sequence. Another dash on the same line does not stand behind a tab. -/
def blockEntry : Arrange Unit := do
  let l ← get
  require (!l.inFlow && l.keyAllowed)
  let _ ← read next
  modify (openAt l.cursor.column l.tokens.size .blockSequenceStart)
  let blanks ← read (skipBlanks true)
  let dash := (← read peek) == some '-' && isBreak (← read peekSecond)
  require !(dash && blanks.contains '\t')
  let after ← read peek
  if after = some '\n' || after.any isFlowIndicator then modify indentValue
  change dropKey?
  modify fun l => (l.allowKey true).push .blockEntry

/-- The question mark of a key. -/
def explicitKey : Arrange Unit := do
  let l ← get
  if l.inFlow then modify fun l => { l with braced := true }
  else
    require l.keyAllowed
    modify (openAt l.cursor.column l.tokens.size .blockMappingStart)
  change dropKey?
  modify (allowKey !l.inFlow)
  let _ ← read next
  readBlanks skipSpaces
  require ((← read peek) != some '\t')
  modify (push .key)

/-- Takes the colon of a value. A tab alone does not separate it from a word or a dash. -/
def takeColon : Arrange Unit := do
  let _ ← read next
  if (← read peek) = some '\t' then
    let blanks ← read (skipBlanks true)
    let after ← read peek
    require (blanks.contains ' ' || !after.any fun c => isWordChar c)

/-- The colon of a value. If a simple key stands in front of it, the key is marked as such. -/
def value : Arrange Unit := do
  let l ← get
  let k := l.lastKey
  let pair := l.opensPair
  if pair then modify fun l => { l with pairs := true :: l.pairs.drop 1 }
  takeColon
  if k.possible then
    modify (insert k.token .key)
    if pair then
      require (k.line == l.cursor.line)
      modify (insert k.token .flowMappingStart)
    modify fun l => (l.openAt k.column k.token .blockMappingStart).indentValue
    modify fun l => (l.putKey { l.lastKey with possible := false }).allowKey false
  else
    if pair then modify (push .flowMappingStart)
    require (l.inFlow || l.keyAllowed)
    modify fun now => (now.openAt l.cursor.column now.tokens.size .blockMappingStart).indentValue
    modify (allowKey !l.inFlow)
  modify (push .value)

/-- A colon that touches what stands behind it. -/
def touchingValue : Arrange Unit := do
  let second ← read peekSecond
  let l ← get
  require (l.cursor.index == l.valueIndex || (second != some '[' && second != some '{'))
  value

/-- What may be a key, or belong to one. -/
def keyToken (p : Layout → Read Token) : Arrange Unit := do
  modify fun l => l.saveKey.allowKey false
  let t ← read (p (← get))
  modify (push t)

/-- A quoted scalar. A value may touch the colon behind it. -/
def quotedScalar : Arrange Unit := do
  modify fun l => l.saveKey.allowKey false
  let l ← get
  let text ← read (quoted l.inFlow l.indent)
  skipToContent
  modify fun l => { l with valueIndex := l.cursor.index }.push (.scalar false text)

/-- A block scalar. A key may start behind it. -/
def blockScalar (literal : Bool) : Arrange Unit := do
  modify fun l => (l.saveKey.allowKey true).dropValueIndents
  let _ ← read next
  let text ← read (block literal (← get).indent)
  modify (push (.scalar false text))

/-- A plain scalar. A key may start behind it if a line ended. -/
def plainScalar : Arrange Unit := do
  modify fun l => (l.saveKey.allowKey false).dropValueIndents
  let l ← get
  let text ← read (plain l.inFlow (l.indent + 1))
  modify fun l => (if l.cursor.leading then l.allowKey true else l).push (.scalar true text)

/-- The token that starts with the character, given the one behind it. -/
def content (c : Char) (second : Option Char) : Arrange Unit := do
  let l ← get
  let separate := isBreak second
  let touching := second.any isFlowIndicator || l.cursor.index == l.valueIndex
  match c with
  | '[' => flowStart false
  | '{' => flowStart true
  | ']' => flowEnd false
  | '}' => flowEnd true
  | ',' => flowEntry
  | '-' => if separate then blockEntry else plainScalar
  | '?' => if separate then explicitKey else plainScalar
  | ':' =>
    if separate then value
    else if l.inFlow && touching then touchingValue
    else plainScalar
  | '*' => keyToken fun _ => do pure (.reference (← anchorName))
  | '&' => keyToken fun _ => do pure (.anchor (← anchorName))
  | '!' => keyToken fun l => do pure (.tag (← tag l.inFlow))
  | '|' => if l.inFlow then plainScalar else blockScalar true
  | '>' => if l.inFlow then plainScalar else blockScalar false
  | '\'' => quotedScalar
  | '"' => quotedScalar
  | '%' => require false
  | '@' => require false
  | c => if c = graveAccent then require false else plainScalar
where
  /-- The grave accent, which is kept for later versions of the format. -/
  graveAccent : Char := Char.ofNat 0x60

/-- The end of the text: all that is open ends. -/
def finish : Arrange Unit := do
  require !((← get).keys.any fun k => k.possible && k.required)
  modify (closeTo (-1))

/-- Reads a token, and tells whether there is one. -/
def token : Arrange Bool := do
  skipToContent
  change dropStaleKeys?
  let l ← get
  modify (closeTo l.cursor.column)
  match ← read peek with
  | none => do
    finish
    pure false
  | some c => do
    if l.cursor.column = 0 && c = '%' then
      outermost do pure (.directive (← directive))
    else if ← read (atMarker '-') then
      outermost do
        let _ ← take 3
        pure .documentStart
    else if ← read (atMarker '.') then documentEnd
    else
      require ((← get).indent ≤ l.cursor.column)
      content c (← read peekSecond)
    pure true

/-- Reads at most a number of tokens up to the end of the text. -/
def tokens : Nat → Arrange Unit
  | 0 => require false
  | n + 1 => do if ← token then tokens n

end Arrange

namespace Layout

/-- **The tokens of a text.** Each takes a character at least, so the length of the text bounds
their number. -/
def tokens? (text : List Char) : Option (List Token) :=
  (Arrange.tokens (text.length + 1) { cursor := { rest := text } }).map fun (_, l) =>
    l.tokens.toList

end Layout

end SchemaUsage.Yaml

import SchemaUsage.Yaml.Layout
import SchemaUsage.Yaml.Node

/-!
# YAML documents

The reader behind `parse_yaml_config` and the default file `usage.config.yaml`. It reads the node of
a document from its tokens. A node may have an anchor and a tag in front of it; where nothing is
written there is the node that stands for nothing.

Out of scope: where an error stands and what it says.
-/

namespace SchemaUsage.Yaml

/-- The tokens that are left, what the handles of tags stand for, the numbers of the anchors so far,
the last one of a name first, and the nodes behind them that have been read whole. -/
structure Reading where
  tokens : List Token
  handles : List (String × String) := []
  anchors : List (String × Nat) := []
  nodes : List (Nat × Node) := []

/-- Reads an `α` from tokens, or refuses. -/
abbrev Build (α : Type) := StateT Reading Option α

namespace Build

/-- Refuses. -/
def refuse : Build α := fun _ => none

/-- The next token. -/
def peek : Build (Option Token) := fun r => some (r.tokens.head?, r)

/-- Takes the next token. -/
def skip : Build Unit := modify fun r => { r with tokens := r.tokens.drop 1 }

/-- Takes the given token if it comes, and tells whether it did. -/
def accept (t : Token) : Build Bool := do
  if (← peek) = some t then do
    skip
    pure true
  else pure false

/-! ## Anchors and tags -/

/-- What a tag stands for. -/
def resolve (t : Tag) : Build Tag := do
  match (← get).handles.lookup t.handle with
  | some meaning => pure { t with handle := meaning }
  | none =>
    if t.handle = "!!" then pure { t with handle := Node.coreHandle }
    else if Tag.isNamed t.handle then refuse
    else pure t

/-- Numbers an anchor. -/
def number (name : String) : Build Nat := do
  let r ← get
  set { r with anchors := (name, r.anchors.length) :: r.anchors }
  pure r.anchors.length

/-- The anchor that comes, if any. -/
def anchor? : Build (Option Nat) := do
  match ← peek with
  | some (.anchor name) => do
    skip
    pure (some (← number name))
  | _ => pure none

/-- The tag that comes, if any. -/
def tag? : Build (Option Tag) := do
  match ← peek with
  | some (.tag t) => do
    skip
    pure (some (← resolve t))
  | _ => pure none

/-- An anchor and a tag, in either order. -/
def properties : Build (Option Nat × Option Tag) := do
  match ← anchor? with
  | some a => do pure (some a, ← tag?)
  | none => do
    match ← tag? with
    | some t => do pure (← anchor?, some t)
    | none => pure (none, none)

/-- The node that a name refers to. It is unreadable as long as it is still being read. -/
def referred (name : String) : Build Node := do
  let r ← get
  match r.anchors.lookup name with
  | some a => pure ((r.nodes.lookup a).getD .unreadable)
  | none => refuse

/-- Remembers a node that has been read whole. -/
def finish (a : Option Nat) (node : Node) : Build Node := do
  match a with
  | some a => modify fun r => { r with nodes := (a, node) :: r.nodes }
  | none => pure ()
  pure node

/-! ## Nodes -/

/-- A node, or nothing in front of the given tokens. -/
def orNothing (ends : List Token) (node : Build Node) : Build Node := do
  if (← peek).any ends.contains then pure .null else node

/-- The value behind its mark, or nothing where there is no mark. -/
def valueOrNothing (ends : List Token) (node : Build Node) : Build Node := do
  if ← accept .value then orNothing ends node else pure .null

/-- A mapping of keys and values in a row. -/
def mapping (nodes : List Node) : Build Node :=
  match Node.mapping? nodes with
  | some node => pure node
  | none => refuse

mutual
/-- A node. A block collection may start here only if `block` is set, and a sequence whose dashes
stand at the column of the mapping around it only if `level` is set. -/
def node : Nat → Bool → Bool → Build Node
  | 0, _, _ => refuse
  | n + 1, block, level => do
    match ← peek with
    | some (.reference name) => do
      skip
      referred name
    | _ => do
      let (a, t) ← properties
      let given := a.isSome || t.isSome
      let found ← match ← peek with
        | some (.scalar plain text) => do
          skip
          pure (Node.scalar t plain text)
        | some .flowSequenceStart => do
          skip
          pure (.sequence (← flowItems n true))
        | some .flowMappingStart => do
          skip
          mapping (← flowEntries n true)
        | some .blockSequenceStart =>
          if block then do
            skip
            pure (.sequence (← blockItems n))
          else missing given t
        | some .blockMappingStart =>
          if block then do
            skip
            mapping (← blockEntries n)
          else missing given t
        | some .blockEntry =>
          if level then do pure (.sequence (← levelItems n)) else missing given t
        | _ => missing given t
      finish a found
/-- The node that is not there behind an anchor or a tag. -/
def missing (given : Bool) (t : Option Tag) : Build Node :=
  if given then pure (Node.scalar t true "") else refuse
/-- The items of a block sequence. -/
def blockItems : Nat → Build (List Node)
  | 0 => refuse
  | n + 1 => do
    if ← accept .blockEnd then pure []
    else if ← accept .blockEntry then do
      let item ← orNothing [.blockEntry, .blockEnd] (node n true false)
      let others ← blockItems n
      pure (item :: others)
    else refuse
/-- The items of a block sequence at the level of the mapping around it. -/
def levelItems : Nat → Build (List Node)
  | 0 => refuse
  | n + 1 => do
    if ← accept .blockEntry then do
      let item ← orNothing [.blockEntry, .key, .value, .blockEnd] (node n true false)
      let others ← levelItems n
      pure (item :: others)
    else pure []
/-- The keys and values of a block mapping. -/
def blockEntries : Nat → Build (List Node)
  | 0 => refuse
  | n + 1 => do
    let ends := [.key, .value, .blockEnd]
    if ← accept .blockEnd then pure []
    else
      let key ←
        if ← accept .key then orNothing ends (node n true true)
        else if (← peek) = some .value then pure .null
        else refuse
      let value ← valueOrNothing ends (node n true true)
      let others ← blockEntries n
      pure (key :: value :: others)
/-- The items of a flow sequence. Behind the first one they start with a comma; an item may be a
single entry. -/
def flowItems : Nat → Bool → Build (List Node)
  | 0, _ => refuse
  | n + 1, first => do
    if ← accept .flowSequenceEnd then pure []
    else
      let goesOn ← if first then pure true else accept .flowEntry
      if !goesOn then refuse
      else if ← accept .flowSequenceEnd then pure []
      else
        let item ← if ← accept .key then flowPair n else node n false false
        let others ← flowItems n false
        pure (item :: others)
/-- A single entry of a flow sequence. A mark in place of its key is taken. -/
def flowPair : Nat → Build Node
  | 0 => refuse
  | n + 1 => do
    let key ←
      if (← peek).any [Token.value, .flowEntry, .flowSequenceEnd].contains then do
        skip
        pure .null
      else node n false false
    let value ← valueOrNothing [.flowEntry, .flowSequenceEnd] (node n false false)
    mapping [key, value]
/-- The keys and values of a flow mapping. Behind the first entry they start with a comma. -/
def flowEntries : Nat → Bool → Build (List Node)
  | 0, _ => refuse
  | n + 1, first => do
    if ← accept .flowMappingEnd then pure []
    else
      let goesOn ← if first then pure true else accept .flowEntry
      if !goesOn then refuse
      else if ← accept .flowMappingEnd then pure []
      else
        let marked ← accept .key
        let valued := (← peek) = some .value
        let key ←
          if marked then orNothing [.value, .flowEntry, .flowMappingEnd] (node n false false)
          else if valued then pure .null
          else node n false false
        let value ←
          if marked || valued then valueOrNothing [.flowEntry, .flowMappingEnd] (node n false false)
          else pure .null
        let others ← flowEntries n false
        pure (key :: value :: others)
end

/-! ## Documents -/

/-- What the handles of tags stand for behind directives: only the last directive counts. -/
def handlesOf (directives : List Directive) : List (String × String) :=
  match directives.getLast? with
  | some (.handle name meaning) => [(name, meaning)]
  | _ => []

/-- The directives that come. The version is given once at most. -/
def directives : Build (List Directive) := do
  let r ← get
  let isDirective : Token → Option Directive
    | .directive d => some d
    | _ => none
  let found := (r.tokens.takeWhile fun t => (isDirective t).isSome).filterMap isDirective
  if 1 < found.count .version then refuse
  else
    set { r with tokens := r.tokens.drop found.length, handles := handlesOf found }
    pure found

/-- Takes the ends of documents. -/
def skipEnds : Build Unit :=
  modify fun r => { r with tokens := r.tokens.dropWhile (· == .documentEnd) }

/-- The node of the one document, if there is one. Directives are followed by a marker. -/
def document : Build (Option Node) := do
  skipEnds
  if (← get).tokens.isEmpty then pure none
  else
    let found ← directives
    let marked ← accept .documentStart
    if !found.isEmpty && !marked then refuse
    else
      let atEnd := (← peek).all fun t => t matches .directive _ | .documentStart | .documentEnd
      let root ←
        if marked && atEnd then pure .null else do node (2 * (← get).tokens.length + 4) true false
      skipEnds
      if (← get).tokens.isEmpty then pure (some root) else refuse

end Build

/-! ## Texts -/

/-- A text whose lines all end with LF. -/
def withLineFeeds : List Char → List Char
  | [] => []
  | '\r' :: '\n' :: rest => '\n' :: withLineFeeds rest
  | '\r' :: rest => '\n' :: withLineFeeds rest
  | c :: rest => c :: withLineFeeds rest

/-- **The value of a YAML text**, which ends in front of its first NUL. A text without a document is
an empty mapping; one with several has no value. -/
def value? (text : String) : Option Json := do
  let tokens ← Layout.tokens? (withLineFeeds (text.toList.takeWhile fun c => c.toNat ≠ 0))
  let (root, _) ← Build.document { tokens := tokens }
  match root with
  | some node => node.value?
  | none => pure (.obj [])

end SchemaUsage.Yaml

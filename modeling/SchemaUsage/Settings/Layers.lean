import SchemaUsage.Json.Basic
import SchemaUsage.Number.Power
import SchemaUsage.Text.Digits
import SchemaUsage.Text.Scan

/-!
# Layers of configured values

How the builder of a configuration puts its sources together (`add_source`, `set_override`). A table
is laid over another one key by key, and any other value takes the place of what was there. The keys
of a whole layer may be paths into tables and lists, such as `log.level`.

Results:
- `overlay_scalar`: what is no table replaces what it is laid over.
-/

namespace SchemaUsage.Settings.Layers

open SchemaUsage.Text Json

/-! ## Tables -/

/-- The members of a table; other values have none. -/
def entries (j : Json) : List (String × Json) := j.members?.getD []

mutual
/-- **Lays a value over another one.** An empty table covers nothing. -/
def overlay : Json → Json → Json
  | .obj members, under => overlayMembers members under
  | j, _ => j
/-- Lays members over a value, which a first member makes a table. -/
def overlayMembers : List (String × Json) → Json → Json
  | [], under => under
  | (name, j) :: members, under =>
    overlayMembers members (.obj (Named.insert name
      (overlay j ((entries under).lookup name |>.getD (.obj []))) (entries under)))
end

theorem overlay_scalar {j : Json} (h : j.members? = none) (under : Json) : overlay j under = j := by
  cases j <;> first | rfl | simp [members?] at h

/-- Lays one member over a value. -/
def overlayMember (name : String) (j under : Json) : Json := overlayMembers [(name, j)] under

/-! ## Paths -/

/-- A step into a table or a list. Negative indices count from the end. -/
inductive Place where
  | member (name : String)
  | item (index : Int)
  deriving Repr, DecidableEq

/-- The characters of names in paths. -/
def isNameChar (c : Char) : Bool := c.isAlphanum || c == '_' || c == '-'

/-- A name in a path. -/
def pathName : Scan Char String := do
  let name ← Scan.takeWhile isNameChar
  if name.isEmpty then Scan.refuse else pure (String.ofList name)

/-- Spaces and tabs. -/
def gap : Scan Char Unit := do
  let _ ← Scan.takeWhile fun c => c == ' ' || c == '\t'

/-- An index in a path. -/
def pathIndex : Scan Char Int := do
  gap
  let negative ← Scan.accept '-'
  let digits ← Scan.takeWhile isDigit
  let n : Int := if negative then -(decimalValue digits : Int) else decimalValue digits
  gap
  if digits.isEmpty || !Number.isSigned64 n then Scan.refuse else pure n

/-- A further step of a path. -/
def pathStep : Scan Char Place := do
  if ← Scan.accept '.' then do
    pure (.member (← pathName))
  else do
    Scan.expect '['
    let index ← pathIndex
    Scan.expect ']'
    pure (.item index)

/-- The steps of a path. -/
def path : Scan Char (List Place) := do
  let first ← pathName
  let others ← Scan.many (fun _ => true) pathStep
  pure (.member first :: others)

/-- The steps that a key stands for. A key that is no path is a name. -/
def placesOf (key : String) : List Place :=
  (Scan.whole path key.toList).getD [.member key]

/-- Makes room for an index, and tells the place that it stands for. -/
def withIndex (items : List Json) (index : Int) : List Json × Nat :=
  if 0 ≤ index then
    (items ++ List.replicate (index.toNat + 1 - items.length) .null, index.toNat)
  else
    let back := (-index).toNat
    (List.replicate (back - items.length) .null ++ items, items.length - back)

/-- **Puts a value at a path**, through tables and lists that are made on the way. -/
def putAt : List Place → Json → Json → Json
  | [], j, _ => j
  | [.member name], j, under => overlayMember name j under
  | .member name :: place :: places, j, under =>
    let child := ((entries under).lookup name).getD .null
    .obj (Named.insert name (putAt (place :: places) j child) (entries under))
  | .item index :: places, j, under =>
    let (items, i) := withIndex (under.items?.getD []) index
    .arr (items.set i (putAt places j (items[i]?.getD .null)))

/-- **Lays a layer over a configuration**, key by key. -/
def put (layer : List (String × Json)) (under : Json) : Json :=
  layer.foldl (fun under m => putAt (placesOf m.1) m.2 under) under

end SchemaUsage.Settings.Layers

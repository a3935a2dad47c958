import SchemaUsage.Text.Blank
import SchemaUsage.Text.Lines
import SchemaUsage.Text.Named
import SchemaUsage.Text.Utf8

/-!
# File trees

Files and directories below a working directory, and the paths that lead to them, as `read_file`,
`load_documents` and the sources of settings see them. A path is a row of steps; each step needs a
directory to start from, also one that goes nowhere or back up.

Results:
- `find?_put`: what has been put at names is found there.

Out of scope: absolute paths, links, permissions, and files that change while they are read.
-/

namespace SchemaUsage.Files

open SchemaUsage.Text

/-- What a file holds: a text, or bytes that are none; in the readable part of those, replacement
characters stand for what does not decode. -/
inductive Content where
  | text (text : String)
  | damaged (readable : String)
  deriving Repr, DecidableEq, Inhabited

namespace Content

/-- The replacement character. -/
def replacement : Char := Char.ofNat 0xFFFD

/-- What a file of the given bytes holds. -/
def ofBytes (bytes : List Nat) : Content :=
  let chars := Utf8.decode bytes
  let readable := String.ofList (chars.map fun c => c.getD replacement)
  if chars.all Option.isSome then .text readable else .damaged readable

/-- The text, if it is one. -/
def text? : Content → Option String
  | text s => some s
  | damaged _ => none

/-- The readable part. -/
def readable : Content → String
  | text s => s
  | damaged s => s

end Content

/-- A file, or a directory with its named entries in ascending order. -/
inductive Entry where
  | file (content : Content)
  | directory (children : List (String × Entry))
  deriving Repr, Inhabited

namespace Entry

/-- The directory without entries. -/
def empty : Entry := .directory []

/-- The children of a directory. -/
def children? : Entry → Option (List (String × Entry))
  | directory children => some children
  | file _ => none

/-- Whether an entry is a directory. -/
def isDirectory (e : Entry) : Bool := e.children?.isSome

/-! ## Names -/

/-- The entry below the given names. -/
def find? : List String → Entry → Option Entry
  | [], e => some e
  | name :: names, .directory children => (children.lookup name).bind (find? names)
  | _ :: _, .file _ => none

/-- Puts an entry below the given names, with directories on the way. -/
def put (entry : Entry) : List String → Entry → Entry
  | [], _ => entry
  | name :: names, e =>
    let children := e.children?.getD []
    .directory (Named.insert name (put entry names ((children.lookup name).getD empty)) children)

theorem find?_put (entry : Entry) (names : List String) (e : Entry) :
    find? names (put entry names e) = some entry := by
  induction names generalizing e with
  | nil => rfl
  | cons name names ih =>
    rw [put, find?, Named.lookup_insert]
    exact ih _

/-! ## Paths -/

/-- The steps of a path. -/
def steps (path : String) : List String :=
  (split '/' path.toList).map String.ofList

/-- Where a step leads from the directory at `trail`: its names from the root, the last first. -/
def step? (root : Entry) (trail : List String) (step : String) : Option (List String) :=
  match (root.find? trail.reverse).bind children? with
  | none => none
  | some children =>
    if step == "" || step == "." then some trail
    else if step == ".." then (if trail.isEmpty then none else some (trail.drop 1))
    else (children.lookup step).map fun _ => step :: trail

/-- The names that steps lead to; none if they leave the root or meet no entry. -/
def walkTo? (root : Entry) (steps : List String) : Option (List String) :=
  (steps.foldlM (step? root) []).map List.reverse

/-- Whether a path starts below the working directory: an absolute one does not. -/
def isRelative (path : String) : Bool := !path.isEmpty && path.toList.head? != some '/'

/-- The entry at a path. -/
def at? (root : Entry) (path : String) : Option Entry :=
  if isRelative path then (walkTo? root (steps path)).bind (find? · root) else none

/-- What the file at a path holds. -/
def content? (root : Entry) (path : String) : Option Content :=
  match root.at? path with
  | some (.file content) => some content
  | _ => none

/-- The text of the file at a path. -/
def read? (root : Entry) (path : String) : Option String :=
  (root.content? path).bind Content.text?

/-- The tree with a file at a path, whose directory has to exist. -/
def write? (root : Entry) (path text : String) : Option Entry :=
  if !isRelative path then none
  else
    let name := (steps path).getLast?.getD ""
    if ["", ".", ".."].contains name then none
    else
      match walkTo? root (steps path).dropLast with
      | none => none
      | some names =>
        match root.find? names with
        | some (.directory children) =>
          if (children.lookup name).any isDirectory then none
          else some (put (.file (.text text)) (names ++ [name]) root)
        | _ => none

/-! ## Walks -/

/-- A name behind a path. -/
def join (path name : String) : String :=
  if path.toList.getLast? = some '/' then path ++ name else path ++ "/" ++ name

/-- The extension of the last step of a path: what stands behind its last point, unless the step
starts with that point. -/
def extension? (path : String) : Option String :=
  let cs := ((split '/' path.toList).getLast?).getD []
  let dotted := dropEndWhile (· != '.') cs
  if dotted.length ≤ 1 then none else some (String.ofList (cs.drop dotted.length))

mutual
/-- **The paths of the files of an entry**, which is at `path`, in the order of their names (a walk
that is sorted by file name). -/
def filePaths (path : String) : Entry → List String
  | .file _ => [path]
  | .directory children => childPaths path children
/-- The paths of the files of children. -/
def childPaths (path : String) : List (String × Entry) → List String
  | [] => []
  | (name, e) :: children => filePaths (join path name) e ++ childPaths path children
end

end Entry

end SchemaUsage.Files

import SchemaUsage.CommandLine.Program

/-!
# Command line

Model of `main` with what is around it. Reads the files below the working directory that the
arguments name, runs the program on them, and prints what it shows.

Out of scope: the network. Reports are made, but no connection succeeds.
-/

namespace SchemaUsage.CommandLine

open Files

/-- The entry of a directory, with all that lies below it. -/
partial def readEntry (e : IO.FS.DirEntry) : IO Entry := do
  if ← e.path.isDir then
    let children ← (← e.path.readDir).toList.mapM fun child => do
      pure (child.fileName, ← readEntry child)
    pure (.directory (Text.Named.ofList children))
  else
    let bytes ← IO.FS.readBinFile e.path
    pure (.file (.ofBytes (bytes.toList.map UInt8.toNat)))

/-- The names in a path. -/
def namesIn (path : String) : List String :=
  (Entry.steps path).filter fun step => step != "" && step != "."

/-- Adds what is at a path to the tree of the working directory. -/
def readPath (tree : Entry) (path : String) : IO Entry := do
  let e : IO.FS.DirEntry := { root := ← IO.currentDir, fileName := path }
  if Entry.isRelative path && !(namesIn path).contains ".." && (← e.path.pathExists) then
    pure (Entry.put (← readEntry e) (namesIn path) tree)
  else pure tree

/-- Adds the directory at a path, without what is in it, unless the tree has it. -/
def readDirectory (tree : Entry) (path : String) : IO Entry := do
  let e : IO.FS.DirEntry := { root := ← IO.currentDir, fileName := path }
  if !(namesIn path).isEmpty && (tree.at? path).isNone && (← e.path.isDir) then
    pure (Entry.put .empty (namesIn path) tree)
  else pure tree

/-- The variables of the environment that matter. -/
def variableNames : List String :=
  [configVariable, Settings.Overrides.truthVariable, "LOG_LEVEL", "LOG_FORMAT", "LOG_FILTER",
    "HIVE_ACCESS_TOKEN", "HIVE_TARGET", "HIVE_USAGE_ENDPOINT"]

/-- The variables of the environment that are set. -/
def readEnvironment : IO (List (String × String)) := do
  let values ← variableNames.mapM fun name => do
    pure ((← IO.getEnv name).map fun value => (name, value))
  pure (values.filterMap id)

/-- An event as a line. -/
def eventLine (e : Log.Event) : String :=
  (Json.obj [("level", .str e.severity.name), ("target", .str e.target),
    ("message", .str e.message)]).compact

/-- Runs the program and prints what it shows. -/
def runHere (arguments : List String) : IO UInt32 := do
  let bare : Surroundings := { arguments, environment := ← readEnvironment }
  let (paths, directories) := match bare.invocation with
    | .ok i => (i.paths, i.outDirectory?.toList)
    | .error _ => ([], [])
  let tree ← paths.foldlM readPath .empty
  let s := { bare with directory := ← directories.foldlM readDirectory tree }
  let r : Run Unit := run Delivery.unreachable () (fun _ => true) s
  r.events.forM fun e => IO.eprintln (eventLine e)
  IO.print r.standardOutput
  match r.failure with
  | some f => IO.eprintln ("error: " ++ f.message)
  | none => pure ()
  match s.invocation, r.outcome with
  | .ok i, some outcome =>
    match i.written? outcome.directory with
    | some (path, text) => IO.FS.writeFile path text
    | none => pure ()
  | _, _ => pure ()
  pure (UInt32.ofNat r.exit)

end SchemaUsage.CommandLine

/-- The program's entry. -/
def main (arguments : List String) : IO UInt32 :=
  SchemaUsage.CommandLine.runHere arguments

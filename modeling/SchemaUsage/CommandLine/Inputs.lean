import SchemaUsage.CommandLine.Failure
import SchemaUsage.Files.Tree
import SchemaUsage.Graphql.Schema.Reader
import SchemaUsage.Json.Text

/-!
# Inputs of commands

Model of `load_schema`, `load_variables` and `load_documents`: the schema, the variable values and
the documents that a command works on. A directory stands for all documents below it, in the order
of their names; a named file is taken whatever its extension.
-/

namespace SchemaUsage.CommandLine

open Files Graphql Usage

/-- The text of a file (`read_file`). -/
def readText (root : Entry) (path : String) : Work String :=
  .ofOption (.read path) (root.read? path)

/-- The schema of a file (`load_schema`). -/
def readSchema (root : Entry) (path : String) : Work Schema := do
  let text ← readText root path
  .ofOption (.schema path) (Schema.parse? text)

/-- How deep the values of variables may nest. -/
def variablesDepth : Nat := 128

/-- The variable values of a file: the members of an object (`load_variables`). -/
def readVariables (root : Entry) (path : String) : Work VariableValues := do
  let text ← readText root path
  let value ← .ofOption (.variableValues path) (Json.parse? variablesDepth text)
  .ofOption (.variablesNotObject path) value.members?

/-- The variable values of a file, if one is named. -/
def readVariablesIfNamed (root : Entry) : Option String → Work (Option VariableValues)
  | none => .done none
  | some path => do
    let values ← readVariables root path
    pure (some values)

/-! ## Documents -/

/-- The extensions of documents (`DOCUMENT_EXTENSIONS`). -/
def documentExtensions : List String := ["graphql", "gql"]

/-- Whether a path names a document (`has_document_extension`). -/
def isDocumentPath (path : String) : Bool :=
  (Entry.extension? path).any documentExtensions.contains

/-- The paths of the documents that a path stands for (the loop of `load_documents`). -/
def documentPaths (root : Entry) (path : String) : List String :=
  match root.at? path with
  | some (.directory children) => (Entry.childPaths path children).filter isDocumentPath
  | _ => [path]

/-- A document with the path of its file. -/
abbrev Source := String × String

/-- The texts of files, up to the first that has none. -/
def readSources (root : Entry) : List String → Work (List Source)
  | [] => .done []
  | path :: paths => do
    let text ← readText root path
    let others ← readSources root paths
    pure ((path, text) :: others)

/-- The documents below several paths, each with its path (`load_documents`). -/
def readDocuments (root : Entry) (paths : List String) : Work (List Source) :=
  match paths.flatMap (documentPaths root) with
  | [] => .fail (.noDocuments paths)
  | found => readSources root found

/-! ## Collectors -/

/-- The target of the events of commands. -/
def ownTarget : String := "hive_usage_cli::commands"

/-- What an ignored extension is told as. -/
def ignoredEvent (e : TypeExtension) : Log.Event :=
  ⟨.debug, "hive_usage_sdk::schema", "ignoring extension of '" ++ e.name ++
    "', it does not match the kind of the extended type"⟩

/-- The processor for the schema of a file. -/
def readProcessor (root : Entry) (path : String) (processVariables : Bool) : Work Processor := do
  let s ← readSchema root path
  .tell (s.ignoredExtensions.map ignoredEvent)
  pure (.fresh (.ofSchema s { processVariables := processVariables }))

/-- What is told of a document that is skipped: by the processor when it looks at the text, and by
the command each time. -/
def skippedEvents (p : Processor) (path text : String) (supplied : Option VariableValues) :
    List Log.Event :=
  (if p.skipsAnew text supplied then
    [⟨.debug, "hive_usage_sdk::processor", "skipping introspection operation"⟩]
  else []) ++
    [⟨.debug, ownTarget, "'" ++ path ++ "' is an introspection query, skipping"⟩]

end SchemaUsage.CommandLine

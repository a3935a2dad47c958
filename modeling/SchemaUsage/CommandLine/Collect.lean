import SchemaUsage.CommandLine.Arguments
import SchemaUsage.CommandLine.Inputs
import SchemaUsage.Reporting.Wire
import SchemaUsage.Settings.Basic

/-!
# Collection of the usage of documents

Model of the command `collect` and of its artifact. An artifact holds the record of the first
document of each key, in the order of the documents. A document that fails ends the collection.
-/

namespace SchemaUsage.CommandLine

open Files Usage

/-- **The records of documents**, less those with a key in `seen` (the loop of `collect`). -/
def collectFrom (supplied : Option VariableValues) :
    Processor → List String → List Source → Work (List UsageRecord)
  | _, _, [] => .done []
  | p, seen, (path, text) :: sources =>
    match p.process text supplied with
    | (.error e, _) => .fail (.processing path e)
    | (.ok none, q) => do
      .tell (skippedEvents p path text supplied)
      collectFrom supplied q seen sources
    | (.ok (some shared), q) =>
      let record := shared.record
      if seen.contains record.key then do
        .tell [⟨.debug, ownTarget,
          "'" ++ path ++ "' duplicates operation " ++ record.key⟩]
        collectFrom supplied q seen sources
      else do
        let others ← collectFrom supplied q (record.key :: seen) sources
        pure (record :: others)

/-- The records that a request asks for (`collect`). -/
def collectRecords (root : Entry) (settings : Settings) (request : CollectRequest) :
    Work (List UsageRecord) := do
  let process := request.processVariables || settings.collector.processVariables
  let p ← readProcessor root request.schema process
  let supplied ← readVariablesIfNamed root request.variableFile
  let sources ← readDocuments root request.documents
  collectFrom supplied p [] sources

/-- The artifact of records: an indented list, and a line end. -/
def artifact (records : List UsageRecord) : String :=
  (Json.arr (records.map Reporting.recordJson)).pretty 0 ++ "\n"

/-- Writes an artifact to a file, or else to the standard output; this gives the text for the
standard output, and the tree afterwards. -/
def publish (root : Entry) (text : String) : Option String → Work (String × Entry)
  | none => .done (text, root)
  | some path => do
    let root ← .ofOption .write (root.write? path text)
    pure ("", root)

/-- **Collects** what a request asks for, and publishes the artifact (`run`, the case of
`Command::Collect`). -/
def collect (root : Entry) (settings : Settings) (request : CollectRequest) :
    Work (String × Entry) := do
  let records ← collectRecords root settings request
  let published ← publish root (artifact records) request.out
  .tell [⟨.info, ownTarget, "collected " ++ toString records.length ++ " operation(s)"⟩]
  pure published

end SchemaUsage.CommandLine

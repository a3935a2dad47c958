import SchemaUsage.Corn.Reader
import SchemaUsage.Files.Tree
import SchemaUsage.Ini.Reader
import SchemaUsage.Json.Json5
import SchemaUsage.Json.Text
import SchemaUsage.Ron.Reader
import SchemaUsage.Settings.Decoding
import SchemaUsage.Settings.Overrides
import SchemaUsage.Toml.Reader
import SchemaUsage.Yaml.Document

/-!
# Sources of settings

Model of `load_config_with_overrides` and `parse_yaml_config`. Settings come from a named file, or
from all files of the default names that are there, the later ones over the earlier ones, and from
overrides over these.

* Every default file that is present is a source. The description of `load_config` speaks of the
  first one found, which is another thing: see `Proofs.Settings.DefaultFiles`.

Results:
- `load_nothing`: without any file the settings are those of the overrides alone.

Out of scope: what the errors say.
-/

namespace SchemaUsage.Settings

open Files Layers

/-! ## Formats -/

/-- The formats of configuration files. -/
inductive FileFormat where
  | yaml
  | json
  | json5
  | toml
  | ini
  | ron
  | corn
  deriving Repr, DecidableEq

namespace FileFormat

/-- The extensions, each with its format. -/
def extensions : List (String × FileFormat) :=
  [("yaml", yaml), ("yml", yaml), ("json", json), ("json5", json5), ("toml", toml),
    ("ini", ini), ("ron", ron), ("corn", corn)]

mutual
/-- A value whose integers have 64 bits and a sign; greater ones become floating-point numbers. -/
def signed : Json → Json
  | .int i => if Number.isSigned64 i then .int i else .float (Number.Format.double.ofInt i)
  | .arr items => .arr (signedItems items)
  | .obj members => .obj (signedMembers members)
  | j => j
/-- The items of a list. -/
def signedItems : List Json → List Json
  | [] => []
  | j :: items => signed j :: signedItems items
/-- The members of a table. -/
def signedMembers : List (String × Json) → List (String × Json)
  | [] => []
  | (name, j) :: members => (name, signed j) :: signedMembers members
end

/-- How deep values may nest in a JSON file. -/
def jsonDepth : Nat := 128

/-- The value of a text. -/
def value? : FileFormat → String → Option Json
  | yaml, text => Yaml.value? text
  | json, text => (Json.parse? jsonDepth text).map signed
  | json5, text => Json.Json5.parse? text
  | toml, text => Toml.parse? text
  | ini, text => Ini.parse? text
  | ron, text => Ron.parse? text
  | corn, text => Corn.parse? text

/-- **The layer that a text describes**: the members of a table. -/
def layer? (f : FileFormat) (text : String) : Option (List (String × Json)) :=
  (f.value? text).bind Json.members?

end FileFormat

/-! ## Files -/

/-- A text without a byte order mark at its start. -/
def withoutMark (text : String) : String :=
  match text.toList with
  | c :: rest => if c.toNat = 0xFEFF then String.ofList rest else text
  | [] => text

/-- A path without the steps at its end that go nowhere. -/
def bareEnd : Nat → List Char → List Char
  | 0, path => path
  | n + 1, path =>
    match path.reverse with
    | '/' :: rest => bareEnd n rest.reverse
    | '.' :: '/' :: rest => bareEnd n rest.reverse
    | _ => path

/-- The path that a name leads to, by itself or with an extension behind it. A file of the very name
may not be passed over, even if its extension is none of the known ones. -/
def locate? (root : Entry) (path : String) : Option (FileFormat × Content) :=
  match root.content? path with
  | some content =>
    (Entry.extension? path).bind fun extension =>
      (FileFormat.extensions.lookup extension).map fun format => (format, content)
  | none =>
    let stem := String.ofList (bareEnd path.length path.toList)
    FileFormat.extensions.findSome? fun (extension, format) =>
      (root.content? (stem ++ "." ++ extension)).map fun content => (format, content)

/-- The layer of a file. What does not decode as text is read as replacement characters. -/
def fileLayer? (found : FileFormat × Content) : Option (List (String × Json)) :=
  found.1.layer? (withoutMark found.2.readable)

/-- The names of the files that are read where none is named (`DEFAULT_FILE_NAMES`). -/
def defaultNames : List String :=
  ["usage.config.yaml", "usage.config.yml", "usage.config.json", "usage.config.json5"]

/-- The layers of a named file, or of the default ones that are there. -/
def layers? (root : Entry) : Option String → Option (List (List (String × Json)))
  | some path => (locate? root path).bind fun found => (fileLayer? found).map ([·])
  | none => (defaultNames.filterMap (locate? root)).mapM fileLayer?

/-! ## Loading -/

/-- **Loads the settings** from a named file or from the default ones, under overrides
(`load_config_with_overrides`). -/
def load? (root : Entry) (path : Option String) (overrides : Overrides) : Option Settings := do
  let layers ← layers? root path
  ofJson? (overrides.put (layers.foldl (fun under layer => put layer under) (.obj [])))

/-- Loads the settings of a YAML text (`parse_yaml_config`). -/
def ofYaml? (text : String) : Option Settings := do
  let layer ← FileFormat.yaml.layer? text
  ofJson? (put layer (.obj []))

theorem load_nothing (overrides : Overrides) :
    load? .empty none overrides = ofJson? (overrides.put (.obj [])) := by
  have h : defaultNames.filterMap (locate? .empty) = [] := by decide +kernel
  simp [load?, layers?, h]

end SchemaUsage.Settings

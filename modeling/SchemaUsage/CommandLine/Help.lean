import SchemaUsage.CommandLine.Arguments
import SchemaUsage.CommandLine.Report
import SchemaUsage.Text.Lines

/-!
# Help

The texts that the program prints instead of working, from the descriptions of `Cli` and its
commands. Descriptions of options stand in a column of their own and are broken between words.

Out of scope: the short form of help, and the texts of usage errors, which go to the standard error.
-/

namespace SchemaUsage.CommandLine

open SchemaUsage.Text

/-! ## Layout -/

/-- The width of printed lines. -/
def lineWidth : Nat := 100

/-- Puts a word behind the last line, or on a line of its own where it does not fit. -/
def addWord (width : Nat) (lines : List String) (word : String) : List String :=
  match lines.getLast? with
  | some last =>
    if last.length + 1 + word.length ≤ width then lines.dropLast ++ [last ++ " " ++ word]
    else lines ++ [word]
  | none => [word]

/-- The lines of words. -/
def wrap (width : Nat) (words : List String) : List String := words.foldl (addWord width) []

/-- Spaces. -/
def blanks (n : Nat) : String := String.ofList (List.replicate n ' ')

/-- An entry of a table: a name, and the words that describe it. -/
structure HelpEntry where
  name : String
  description : String

/-- The lines of an entry, whose description starts at the given column. -/
def HelpEntry.text (column : Nat) (e : HelpEntry) : String :=
  let words := (split ' ' e.description.toList).map String.ofList
  let lines := wrap (lineWidth - column) words
  "  " ++ e.name ++ blanks (column - 2 - e.name.length) ++
    ("\n" ++ blanks column).intercalate lines ++ "\n"

/-- A table under its title. -/
def helpTable (title : String) (entries : List HelpEntry) : String :=
  let column := (entries.map fun e => e.name.length).foldl max 0 + 4
  "\n" ++ title ++ ":\n" ++ String.join (entries.map (HelpEntry.text column))

/-! ## Contents -/

/-- The commands. -/
def commandEntries : List HelpEntry :=
  [⟨"collect", "Writes the schema usage of every distinct operation as a JSON artifact"⟩,
    ⟨"report", "Records every document as one successful execution and sends the report"⟩,
    ⟨"help", "Print this message or the help of the given subcommand(s)"⟩]

/-- The positional arguments of a command. -/
def argumentEntries : List HelpEntry :=
  [⟨"<SCHEMA>", "Path to the schema SDL"⟩,
    ⟨"<DOCUMENTS>...",
      "Operation documents (`.graphql`, `.gql`) or directories containing them"⟩]

/-- The option for the configuration file, with the value of its variable. -/
def configEntry (environment : Option String) : HelpEntry :=
  ⟨"-c, --config <CONFIG>",
    "Path to the configuration file. Defaults to the first `usage.config.*` file found in the " ++
      "working directory [env: HIVE_USAGE_CONFIG_FILE_PATH=" ++ environment.getD "" ++ "]"⟩

/-- The option for help. -/
def helpEntry : HelpEntry := ⟨"-h, --help", "Print help"⟩

/-- The options of a level. -/
def optionEntries (environment : Option String) : Level → List HelpEntry
  | .root => [configEntry environment, helpEntry, ⟨"-V, --version", "Print version"⟩]
  | .collect =>
    [⟨"    --out <OUT>", "Writes the artifact to this file instead of stdout"⟩,
      ⟨"    --variables <VARIABLES>", "JSON object with the variable values of the operations"⟩,
      ⟨"    --process-variables",
        "Narrows input object usage to the fields present in the variable values"⟩,
      configEntry environment, helpEntry]
  | .report => [configEntry environment, helpEntry]

/-- The help on a level. -/
def levelHelp (environment : Option String) (level : Level) : String :=
  let options := helpTable "Options" (optionEntries environment level)
  match level with
  | .root =>
    "Collects and reports the schema usage of GraphQL operation documents\n\n" ++
      "Usage: hive-usage-cli [OPTIONS] <COMMAND>\n" ++ helpTable "Commands" commandEntries ++ options
  | .collect =>
    "Writes the schema usage of every distinct operation as a JSON artifact\n\n" ++
      "Usage: hive-usage-cli collect [OPTIONS] <SCHEMA> <DOCUMENTS>...\n" ++
      helpTable "Arguments" argumentEntries ++ options
  | .report =>
    "Records every document as one successful execution and sends the report\n\n" ++
      "Usage: hive-usage-cli report [OPTIONS] <SCHEMA> <DOCUMENTS>...\n" ++
      helpTable "Arguments" argumentEntries ++ options

/-- The help on help. -/
def helpOnHelp : String :=
  "Print this message or the help of the given subcommand(s)\n\n" ++
    "Usage: hive-usage-cli help [COMMAND]...\n" ++
    helpTable "Arguments" [⟨"[COMMAND]...", "Print help for the subcommand(s)"⟩]

/-! ## What is printed -/

/-- The exit code where there is no work. -/
def NoWork.exit : NoWork → Nat
  | .help _ | .version => 0
  | _ => 2

/-- What is printed to the standard output where there is no work. -/
def NoWork.text (environment : Option String) : NoWork → String
  | .help (.level level) => levelHelp environment level
  | .help .help => helpOnHelp
  | .version => "hive-usage-cli " ++ programVersion ++ "\n"
  | _ => ""

end SchemaUsage.CommandLine

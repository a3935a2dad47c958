import SchemaUsage.CommandLine.Collect
import SchemaUsage.CommandLine.Report
import SchemaUsage.CommandLine.Help
import SchemaUsage.Log.Filter
import SchemaUsage.Settings.Sources

/-!
# The program

Model of `main` and `run`. The program reads its arguments, its settings and its filter of events,
in this order, and carries out the command. What a caller sees is the exit code, two output texts,
and the files.

* Events are kept as such. How a format lays them out is left to the outside.

Results:
- `run_exit`: the exit code tells what came of the arguments and of the work.

Out of scope: timestamps of events, colours, and events of other libraries.
-/

namespace SchemaUsage.CommandLine

open Files Delivery

/-- What the program starts from. -/
structure Surroundings where
  arguments : List String
  environment : List (String × String) := []
  directory : Entry := .empty

/-- The variable that names a configuration file. -/
def configVariable : String := "HIVE_USAGE_CONFIG_FILE_PATH"

/-- What the arguments ask for. -/
def Surroundings.invocation (s : Surroundings) : Except NoWork Invocation :=
  parse (s.environment.lookup configVariable) s.arguments

/-- The paths that an invocation may read: configuration files, and the inputs of its command. -/
def Invocation.paths (i : Invocation) : List String :=
  let configured := match i.config with
    | some path =>
      path :: Settings.FileFormat.extensions.map fun extension => path ++ "." ++ extension.1
    | none => Settings.defaultNames
  match i.command with
  | .collect r => configured ++ r.variableFile.toList ++ r.schema :: r.documents
  | .report r => configured ++ r.schema :: r.documents

/-- The directory that an invocation writes to. -/
def Invocation.outDirectory? (i : Invocation) : Option String :=
  match i.command with
  | .collect r => r.out.map fun path => "/".intercalate (Entry.steps path).dropLast
  | .report _ => none

/-- The text that an invocation has asked to be written to a file, with the file's path. -/
def Invocation.written? (i : Invocation) (directory : Entry) : Option (String × String) :=
  match i.command with
  | .collect r => r.out.bind fun path => (directory.read? path).map fun text => (path, text)
  | .report _ => none

/-! ## Settings -/

/-- The settings that hold for an invocation (`load_config`). -/
def Surroundings.settings (s : Surroundings) (config : Option String) :
    Except Failure Settings :=
  match Settings.Overrides.ofEnvironment? s.environment with
  | none => .error .environment
  | some overrides =>
    match Settings.load? s.directory config overrides with
    | none => .error .configuration
    | some settings => .ok settings

/-- Settings together with the filter of events that they describe. -/
structure Prepared where
  settings : Settings
  filter : Log.Filter

/-- The settings and the filter that hold for an invocation (`load_config`, then `init` of the
logger). -/
def Surroundings.prepare (s : Surroundings) (config : Option String) : Except Failure Prepared := do
  let settings ← s.settings config
  match Log.Filter.parse? settings.log.directive with
  | none => .error .filter
  | some filter => .ok ⟨settings, filter⟩

/-! ## Commands -/

/-- What a command leaves behind. -/
structure Outcome (σ : Type) where
  standardOutput : String := ""
  directory : Entry
  replay : Option (Replay σ) := none

/-- Carries out a command (`commands::run`). -/
def perform {σ : Type} (exchange : Exchange σ) (net : σ) (draw : Nat → Bool) (directory : Entry)
    (settings : Settings) : Command → Work (Outcome σ)
  | .collect request => do
    let (text, directory) ← collect directory settings request
    pure { standardOutput := text, directory := directory }
  | .report request => do
    let replay ← report exchange net draw directory settings request
    pure { directory := directory, replay := some replay }

/-! ## Runs -/

/-- What a caller sees: events only in the format that is meant for programs, and what is printed
besides. -/
structure Run (σ : Type) where
  exit : Nat
  standardOutput : String := ""
  events : List Log.Event := []
  failure : Option Failure := none
  outcome : Option (Outcome σ) := none

/-- The events that are written one by one. -/
def Prepared.written (p : Prepared) (events : List Log.Event) : List Log.Event :=
  if p.settings.log.format = .json then events.filter p.filter.admits else []

/-- What a caller sees of some work. -/
def Prepared.shown {σ : Type} (p : Prepared) (work : Work (Outcome σ)) : Run σ :=
  match work.result with
  | .error failure => { exit := 1, events := p.written work.events, failure := some failure }
  | .ok outcome =>
    { exit := 0, standardOutput := outcome.standardOutput, events := p.written work.events,
      outcome := some outcome }

theorem Prepared.shown_exit {σ : Type} (p : Prepared) (work : Work (Outcome σ)) :
    (p.shown work).exit = if (p.shown work).failure.isSome then 1 else 0 := by
  obtain ⟨events, result⟩ := work
  cases result <;> rfl

/-- **Runs the program** (`main`). -/
def run {σ : Type} (exchange : Exchange σ) (net : σ) (draw : Nat → Bool) (s : Surroundings) :
    Run σ :=
  match s.invocation with
  | .error noWork =>
    { exit := noWork.exit, standardOutput := noWork.text (s.environment.lookup configVariable) }
  | .ok invocation =>
    match s.prepare invocation.config with
    | .error failure => { exit := 1, failure := some failure }
    | .ok prepared =>
      prepared.shown
        (perform exchange net draw s.directory prepared.settings invocation.command)

theorem run_exit {σ : Type} (exchange : Exchange σ) (net : σ) (draw : Nat → Bool)
    (s : Surroundings) {invocation : Invocation} (h : s.invocation = .ok invocation) :
    (run exchange net draw s).exit = if (run exchange net draw s).failure.isSome then 1 else 0 := by
  simp only [run, h]
  cases hp : s.prepare invocation.config with
  | error failure => rfl
  | ok prepared => exact prepared.shown_exit _

end SchemaUsage.CommandLine

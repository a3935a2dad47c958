import SchemaUsage.Delivery.Sender
import SchemaUsage.Reporting.Recorder
import SchemaUsage.Text.Shown
import SchemaUsage.Usage.Processor

/-!
# Failures of commands

Model of `CliError`, and of work that tells events until it succeeds or fails.

* A failure names its kind and the paths that it concerns. What a library says about the cause is
  replaced by a fixed text in `Failure.message`.
* `CliError::Serialize` is missing, since records can always be written as JSON, and so is
  `CliError::Walk`: in the tree of `Files.Tree` nothing keeps a directory from being walked.

Results:
- `bind_error`: work that has failed goes no further.
- `result_bind`: work that has succeeded goes on with its value.
-/

namespace SchemaUsage.CommandLine

open Usage Reporting Delivery

/-- Why a command fails (`CliError`). -/
inductive Failure where
  | configuration
  | environment
  | filter
  | read (path : String)
  | schema (path : String)
  | variableValues (path : String)
  | variablesNotObject (path : String)
  | noDocuments (paths : List String)
  | processing (path : String) (error : ProcessingError)
  | write
  | setup (error : SetupError)
  | recorder (error : RecorderError)
  deriving Repr, DecidableEq

/-- The wording of an error of processing. -/
def processingMessage : ProcessingError → String
  | .parse => "failed to parse operation: the text is no document"
  | .collect e => e.message

/-- The wording of the failure. -/
def Failure.message : Failure → String
  | configuration => "Failed to load configuration: invalid value or file"
  | environment => "Failed to load the environment variables: invalid value"
  | filter => "failed to initialize the logger: invalid filter directive"
  | read path => "failed to read '" ++ path ++ "': no readable text"
  | schema path => "failed to parse schema '" ++ path ++ "': invalid definition"
  | variableValues path => "failed to parse variables '" ++ path ++ "': invalid value"
  | variablesNotObject path => "variables file '" ++ path ++ "' must contain a JSON object"
  | noDocuments paths => "no documents found in " ++ Text.shownList paths
  | processing path error => "failed to process '" ++ path ++ "': " ++ processingMessage error
  | write => "failed to write the artifact: no such place"
  | setup error => error.message
  | recorder error => error.message

/-- Work that tells events and ends with a value or a failure. -/
structure Work (α : Type) where
  events : List Log.Event
  result : Except Failure α

namespace Work

variable {α β : Type}

/-- Work that tells nothing and succeeds. -/
def done (a : α) : Work α := ⟨[], .ok a⟩

/-- Work that tells nothing and fails. -/
def fail (failure : Failure) : Work α := ⟨[], .error failure⟩

/-- Goes on with the value of some work. -/
def andThen (w : Work α) (f : α → Work β) : Work β :=
  match w.result with
  | .error failure => ⟨w.events, .error failure⟩
  | .ok a => ⟨w.events ++ (f a).events, (f a).result⟩

/-- Tells events. -/
def tell (events : List Log.Event) : Work Unit := ⟨events, .ok ()⟩

/-- The value of an option, or a failure. -/
def ofOption (failure : Failure) : Option α → Work α
  | some a => done a
  | none => fail failure

/-- A value, or an error as a failure. -/
def ofExcept (failure : ε → Failure) : Except ε α → Work α
  | .ok a => done a
  | .error e => fail (failure e)

instance : Monad Work where
  pure := done
  bind := andThen

theorem bind_error {w : Work α} {failure : Failure} (h : w.result = .error failure)
    (f : α → Work β) : (w >>= f) = ⟨w.events, .error failure⟩ := by
  show w.andThen f = _
  simp [andThen, h]

theorem result_bind {w : Work α} {a : α} (h : w.result = .ok a) (f : α → Work β) :
    (w >>= f).result = (f a).result := by
  show (w.andThen f).result = _
  rw [andThen, h]

theorem result_map (w : Work α) (f : α → β) :
    (w >>= fun a => pure (f a)).result = w.result.map f := by
  cases ended : w.result with
  | error failure => rw [bind_error ended]; rfl
  | ok a => exact result_bind ended _

end Work

end SchemaUsage.CommandLine

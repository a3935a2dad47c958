/-!
# Arguments

Model of `Cli` with its commands (`CollectArgs`, `ReportArgs`): what the arguments of the program
ask for. Options may stand before or behind the name of a command, in long or short form, with their
value attached or as the next argument. A value is taken up only when something else begins, so an
unknown option is noticed before an empty value in front of it.

* `--config` counts at every level, and the variable `configVariable` stands in for it.

Out of scope: arguments that are no text, and the wording of usage errors.
-/

namespace SchemaUsage.CommandLine

/-! ## Requests -/

/-- A request to collect the usage of documents (`CollectArgs`). -/
structure CollectRequest where
  schema : String
  documents : List String
  out : Option String := none
  variableFile : Option String := none
  processVariables : Bool := false
  deriving Repr, DecidableEq

/-- A request to report documents as executed (`ReportArgs`). -/
structure ReportRequest where
  schema : String
  documents : List String
  deriving Repr, DecidableEq

/-- What the program is to do (`Command`). -/
inductive Command where
  | collect (request : CollectRequest)
  | report (request : ReportRequest)
  deriving Repr, DecidableEq

/-- A command, and the configuration file that is named (`Cli`). -/
structure Invocation where
  config : Option String
  command : Command
  deriving Repr, DecidableEq

/-- The places that take options: in front of the command's name, and behind it. -/
inductive Level where
  | root
  | collect
  | report
  deriving Repr, DecidableEq

/-- What help can be about. -/
inductive Topic where
  | level (level : Level)
  | help
  deriving Repr, DecidableEq

/-- Why arguments ask for no work. -/
inductive NoWork where
  | help (topic : Topic)
  | version
  | nothingGiven
  | missingCommand
  | unknownCommand
  | missingArgument
  | unknownArgument
  | invalidValue
  | repeatedOption
  | unexpectedValue
  deriving Repr, DecidableEq

/-! ## Options -/

/-- What takes a text of the arguments. -/
inductive Slot where
  | config
  | out
  | variableFile
  | schema
  | documents
  deriving Repr, DecidableEq

/-- Options without a value. -/
inductive Flag where
  | processVariables
  | help
  | version
  deriving Repr, DecidableEq

/-- What an option means. -/
inductive Meaning where
  | value (slot : Slot)
  | flag (flag : Flag)
  deriving Repr, DecidableEq

namespace Level

/-- The meanings of long options. -/
def long : Level → List (String × Meaning)
  | root => [("config", .value .config), ("help", .flag .help), ("version", .flag .version)]
  | collect =>
    [("out", .value .out), ("variables", .value .variableFile),
      ("process-variables", .flag .processVariables), ("config", .value .config),
      ("help", .flag .help)]
  | report => [("config", .value .config), ("help", .flag .help)]

/-- The meanings of short options. -/
def short : Level → List (Char × Meaning)
  | root => [('c', .value .config), ('h', .flag .help), ('V', .flag .version)]
  | _ => [('c', .value .config), ('h', .flag .help)]

/-- The level behind a command's name. -/
def ofName? : String → Option Level
  | "collect" => some collect
  | "report" => some report
  | _ => none

end Level

/-! ## Reading -/

/-- What has been read at a level. What is pending has been read but not taken up yet; `awaits`
tells that an option waits for its value. -/
structure Reading where
  level : Level
  pending : Option (Slot × List String) := none
  awaits : Bool := false
  values : List (Slot × String) := []
  processVariables : Bool := false
  deriving Repr, DecidableEq

namespace Reading

/-- Whether a slot has a value or is about to get one. -/
def isTaken (r : Reading) (slot : Slot) : Bool :=
  r.values.any (·.1 == slot) || r.pending.any (·.1 == slot)

/-- **Takes up what is pending.** Only documents may come again. -/
def settle (r : Reading) : Except NoWork Reading :=
  match r.pending with
  | none => .ok r
  | some (slot, texts) =>
    if texts.isEmpty then .error .invalidValue
    else if slot != .documents && r.values.any (·.1 == slot) then .error .repeatedOption
    else if texts.any String.isEmpty then .error .invalidValue
    else .ok { r with pending := none, values := r.values ++ texts.map (slot, ·) }

/-- Takes an option whose value is the next argument. -/
def await (r : Reading) (slot : Slot) : Except NoWork Reading := do
  let r ← r.settle
  pure { r with pending := some (slot, []), awaits := true }

/-- Takes an option with its value. -/
def attach (r : Reading) (slot : Slot) (text : String) : Except NoWork Reading := do
  let r ← r.settle
  settle { r with pending := some (slot, [text]), awaits := false }

/-- Takes an option without a value. -/
def raise (r : Reading) (flag : Flag) : Except NoWork Reading := do
  let r ← r.settle
  match flag with
  | .help => .error (.help (.level r.level))
  | .version => .error .version
  | .processVariables =>
    if r.processVariables then .error .repeatedOption
    else pure { r with processVariables := true, awaits := false }

/-- Takes a long option behind its two dashes. -/
def takeLong (r : Reading) (text : List Char) : Except NoWork Reading :=
  let name := text.takeWhile (· != '=')
  let attached := (text.drop name.length).drop 1
  let hasValue := name.length < text.length
  match r.level.long.lookup (String.ofList name) with
  | none => .error .unknownArgument
  | some (.flag flag) => if hasValue then .error .unexpectedValue else r.raise flag
  | some (.value slot) =>
    if hasValue then r.attach slot (String.ofList attached) else r.await slot

/-- Takes short options behind their dash. The rest behind one with a value is its value. -/
def takeShort (r : Reading) : List Char → Except NoWork Reading
  | [] => .ok r
  | c :: rest =>
    match r.level.short.lookup c with
    | none => .error .unknownArgument
    | some (.flag flag) => do
      let r ← r.raise flag
      r.takeShort rest
    | some (.value slot) =>
      match rest with
      | [] => r.await slot
      | '=' :: text => r.attach slot (String.ofList text)
      | text => r.attach slot (String.ofList text)

/-- Takes an argument by its place: first the schema, then documents. -/
def takePlaced (r : Reading) (text : String) : Except NoWork Reading :=
  if !r.isTaken .schema then do
    let r ← r.settle
    pure { r with pending := some (.schema, [text]), awaits := false }
  else
    match r.pending with
    | some (.documents, texts) => .ok { r with pending := some (.documents, texts ++ [text]) }
    | _ => do
      let r ← r.settle
      pure { r with pending := some (.documents, [text]), awaits := false }

/-- Takes the value that an option waits for. -/
def takeAwaited (r : Reading) (text : String) : Reading :=
  { r with pending := r.pending.map fun p => (p.1, p.2 ++ [text]), awaits := false }

/-- The value of a slot. -/
def value? (r : Reading) (slot : Slot) : Option String := r.values.lookup slot

/-- The documents. -/
def documents (r : Reading) : List String :=
  (r.values.filter (·.1 == .documents)).map Prod.snd

end Reading

/-- The forms of an argument. -/
inductive Form where
  | divider
  | long (text : List Char)
  | short (text : List Char)
  | plain
  deriving Repr, DecidableEq

/-- The form of an argument. A lone dash is a text like any other. -/
def formOf (arg : String) : Form :=
  match arg.toList with
  | ['-', '-'] => .divider
  | '-' :: '-' :: text => .long text
  | '-' :: c :: text => .short (c :: text)
  | _ => .plain

namespace Reading

/-- Reads the arguments behind a command's name; behind a divider all of them are taken by their
places. -/
def readCommand (r : Reading) (divided : Bool) : List String → Except NoWork Reading
  | [] => r.settle
  | arg :: args =>
    if divided then do
      let r ← r.takePlaced arg
      r.readCommand true args
    else
      match formOf arg with
      | .divider => r.readCommand true args
      | .long text => do
        let r ← r.takeLong text
        r.readCommand false args
      | .short text => do
        let r ← r.takeShort text
        r.readCommand false args
      | .plain =>
        if r.awaits then (r.takeAwaited arg).readCommand false args
        else do
          let r ← r.takePlaced arg
          r.readCommand false args

end Reading

/-- What help is asked for by the name of a command. -/
def helpOn : List String → NoWork
  | [] => .help (.level .root)
  | [name] =>
    match Level.ofName? name with
    | some level => .help (.level level)
    | none => if name = "help" then .help .help else .unknownCommand
  | _ => .unknownCommand

/-- Whether a text names a command. -/
def isCommandName (text : String) : Bool := (Level.ofName? text).isSome || text == "help"

/-- Where the arguments in front of a command's name lead: what was read, and behind the name its
level and the other arguments. -/
abbrev Opening := Reading × Option (Level × List String)

/-- Reads the arguments up to a command's name. -/
def Reading.readOpening (r : Reading) (divided : Bool) : List String → Except NoWork Opening
  | [] => .ok (r, none)
  | arg :: args =>
    if divided then
      .error (if isCommandName arg then .unknownArgument else .unknownCommand)
    else if !r.awaits && isCommandName arg then
      match Level.ofName? arg with
      | some level => .ok (r, some (level, args))
      | none => .error (helpOn args)
    else
      match formOf arg with
      | .divider => r.readOpening true args
      | .long text => do
        let r ← r.takeLong text
        r.readOpening false args
      | .short text => do
        let r ← r.takeShort text
        r.readOpening false args
      | .plain =>
        if r.awaits then (r.takeAwaited arg).readOpening false args else .error .unknownCommand

/-! ## Invocations -/

/-- The configuration file that is named at a level, or else in the environment; no such name may
be empty. -/
def configAt (r : Reading) (environment : Option String) : Except NoWork (Option String) :=
  match r.value? .config, environment with
  | some path, _ => .ok (some path)
  | none, some "" => .error .invalidValue
  | none, path => .ok path

/-- The command that has been read behind its name. -/
def Reading.command (r : Reading) : Except NoWork Command :=
  match r.value? .schema with
  | none => .error .missingArgument
  | some schema =>
    if r.documents.isEmpty then .error .missingArgument
    else if r.level = .report then .ok (.report ⟨schema, r.documents⟩)
    else
      .ok (.collect ⟨schema, r.documents, r.value? .out, r.value? .variableFile, r.processVariables⟩)

/-- **What the arguments ask for** (`Cli::parse`). The environment may name a configuration file. -/
def parse (environment : Option String) (args : List String) : Except NoWork Invocation := do
  let (opening, behind) ← Reading.readOpening { level := .root } false args
  match behind with
  | none =>
    let opening ← opening.settle
    let config ← configAt opening environment
    .error (if config.isSome then .missingCommand else .nothingGiven)
  | some (level, rest) =>
    let reading ← Reading.readCommand { level := level } false rest
    let _ ← configAt reading environment
    let command ← reading.command
    let opening ← opening.settle
    let config ← configAt opening environment
    pure ⟨(reading.value? .config).or config, command⟩

end SchemaUsage.CommandLine

import SchemaUsage.Json.Basic
import SchemaUsage.Log.Event
import SchemaUsage.Reporting.SampleRate
import SchemaUsage.Settings.Duration

/-!
# Settings

Model of `UsageCliConfig` with its parts (`LoggingConfig`, `CollectorConfig`,
`UsageReportingConfig`): how the program is set up, with the defaults of all settings, and the
written form of settings.
-/

namespace SchemaUsage

open Log Reporting

namespace Settings

/-! ## Logging -/

/-- How events are written (`LogFormat`). -/
inductive EventFormat where
  | prettyTree
  | compact
  | json
  deriving Repr, DecidableEq, Inhabited

/-- The name of a format. -/
def EventFormat.name : EventFormat → String
  | prettyTree => "pretty-tree"
  | compact => "compact"
  | json => "json"

/-- The formats. -/
def EventFormat.all : List EventFormat := [prettyTree, compact, json]

/-- Settings of the log (`LoggingConfig`). -/
structure LogSettings where
  level : Level := .info
  format : EventFormat := .prettyTree
  filter : Option String := none
  deriving Repr, DecidableEq

/-- The targets of the program's own events (`OWN_TARGETS`). -/
def ownTargets : List String := ["hive_usage_cli", "hive_usage_sdk"]

/-- The filter of a level (`LogLevel::filter_directive`): it holds for the program's own targets,
and warnings for all others. The two extremes hold for all. -/
def directiveOf (level : Level) : String :=
  match level with
  | .off => "off"
  | .trace => "trace"
  | _ => ",".intercalate ((ownTargets.map fun target => target ++ "=" ++ level.name) ++ ["warn"])

/-- The filter of events (`LoggingConfig::filter_directive`). -/
def LogSettings.directive (s : LogSettings) : String :=
  s.filter.getD (directiveOf s.level)

/-! ## Collection and reporting -/

/-- Settings of the collection of usage (`CollectorConfig`). -/
structure CollectorSettings where
  processVariables : Bool := false
  deriving Repr, DecidableEq

/-- Settings of reporting (`UsageReportingConfig`); times are in nanoseconds. -/
structure ReportingSettings where
  endpoint : String := "https://app.graphql-hive.com/usage"
  accessToken : Option String := none
  targetId : Option String := none
  sampleRate : SampleRate := .always
  bufferSize : Nat := 25
  flushInterval : Nat := 5 * perSecond
  connectTimeout : Nat := 5 * perSecond
  requestTimeout : Nat := 15 * perSecond
  acceptInvalidCerts : Bool := false
  clientName : String := "hive-usage-cli"
  clientVersion : Option String := none
  deriving Repr, DecidableEq

end Settings

open Settings in
/-- All settings (`UsageCliConfig`). -/
structure Settings where
  log : LogSettings := {}
  collector : CollectorSettings := {}
  reporting : ReportingSettings := {}
  deriving Repr, DecidableEq

namespace Settings

/-! ## Written form -/

/-- A text, or nothing. -/
def optionalJson : Option String → Json
  | some s => .str s
  | none => .null

/-- The written form of settings of the log. -/
def LogSettings.toJson (s : LogSettings) : Json :=
  .obj [("level", .str s.level.name), ("format", .str s.format.name),
    ("filter", optionalJson s.filter)]

/-- The written form of settings of the collection. -/
def CollectorSettings.toJson (s : CollectorSettings) : Json :=
  .obj [("process_variables", .bool s.processVariables)]

/-- The written form of settings of reporting. -/
def ReportingSettings.toJson (s : ReportingSettings) : Json :=
  .obj [("endpoint", .str s.endpoint), ("access_token", optionalJson s.accessToken),
    ("target_id", optionalJson s.targetId), ("sample_rate", .str s.sampleRate.text),
    ("buffer_size", .int s.bufferSize), ("flush_interval", .str (Duration.text s.flushInterval)),
    ("connect_timeout", .str (Duration.text s.connectTimeout)),
    ("request_timeout", .str (Duration.text s.requestTimeout)),
    ("accept_invalid_certs", .bool s.acceptInvalidCerts), ("client_name", .str s.clientName),
    ("client_version", optionalJson s.clientVersion)]

/-- The written form of all settings. -/
def toJson (s : Settings) : Json :=
  .obj [("log", s.log.toJson), ("collector", s.collector.toJson),
    ("usage_reporting", s.reporting.toJson)]

end Settings

end SchemaUsage

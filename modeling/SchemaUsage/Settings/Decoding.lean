import SchemaUsage.Settings.Basic
import SchemaUsage.Settings.Coercion

/-!
# Decoding of settings

Model of `try_deserialize` for `UsageCliConfig`: settings from a configured value, which is made of
tables of settings with the names of their written form. What is not given keeps its default; what
is given has to decode, and unknown names are refused.
-/

namespace SchemaUsage.Settings

open Coercion Log Reporting

/-- Settings of the log. -/
def LogSettings.ofJson? (j : Json) : Option LogSettings := do
  let fields ← record? ["level", "format", "filter"] j
  let level ← field? fields "level" .info (choice? Level.name Level.all)
  let format ← field? fields "format" .prettyTree (choice? EventFormat.name EventFormat.all)
  let filter ← field? fields "filter" none (optional? text?)
  pure { level, format, filter }

/-- Settings of the collection. -/
def CollectorSettings.ofJson? (j : Json) : Option CollectorSettings := do
  let fields ← record? ["process_variables"] j
  let processVariables ← field? fields "process_variables" false bool?
  pure { processVariables }

/-- A sample rate from its written form. -/
def rate? (j : Json) : Option SampleRate :=
  (text? j).bind fun s => (SampleRate.ofText s).toOption

/-- A duration from its written form. -/
def duration? (j : Json) : Option Nat :=
  (text? j).bind Duration.ofText?

/-- Settings of reporting. -/
def ReportingSettings.ofJson? (j : Json) : Option ReportingSettings := do
  let fields ← record? ["endpoint", "access_token", "target_id", "sample_rate", "buffer_size",
    "flush_interval", "connect_timeout", "request_timeout", "accept_invalid_certs", "client_name",
    "client_version"] j
  let standard : ReportingSettings := {}
  let endpoint ← field? fields "endpoint" standard.endpoint text?
  let accessToken ← field? fields "access_token" none (optional? text?)
  let targetId ← field? fields "target_id" none (optional? text?)
  let sampleRate ← field? fields "sample_rate" standard.sampleRate rate?
  let bufferSize ← field? fields "buffer_size" standard.bufferSize count?
  let flushInterval ← field? fields "flush_interval" standard.flushInterval duration?
  let connectTimeout ← field? fields "connect_timeout" standard.connectTimeout duration?
  let requestTimeout ← field? fields "request_timeout" standard.requestTimeout duration?
  let acceptInvalidCerts ← field? fields "accept_invalid_certs" false bool?
  let clientName ← field? fields "client_name" standard.clientName text?
  let clientVersion ← field? fields "client_version" none (optional? text?)
  pure { endpoint, accessToken, targetId, sampleRate, bufferSize, flushInterval, connectTimeout,
         requestTimeout, acceptInvalidCerts, clientName, clientVersion }

/-- **All settings from a configured value.** -/
def ofJson? (j : Json) : Option Settings := do
  let fields ← record? ["log", "collector", "usage_reporting"] j
  let log ← field? fields "log" {} LogSettings.ofJson?
  let collector ← field? fields "collector" {} CollectorSettings.ofJson?
  let reporting ← field? fields "usage_reporting" {} ReportingSettings.ofJson?
  pure { log, collector, reporting }

end SchemaUsage.Settings

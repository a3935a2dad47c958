import SchemaUsage.Settings.Coercion
import SchemaUsage.Settings.Layers

/-!
# Overrides of settings

Model of `EnvVarOverrides`. Variables of the environment override what is configured. Names of
levels and formats may be written in any case there.

Results:
- `ofEnvironment?_isSome`: the variables give overrides exactly if the one that has to be a truth
  value is one or is missing.
-/

namespace SchemaUsage.Settings

open Layers

/-- What overrides the configuration (`EnvVarOverrides`). -/
structure Overrides where
  level : Option String := none
  format : Option String := none
  filter : Option String := none
  processVariables : Option Bool := none
  accessToken : Option String := none
  target : Option String := none
  endpoint : Option String := none
  deriving Repr, DecidableEq

namespace Overrides

/-- A truth value, which has one written form only. -/
def truth? (text : String) : Option Bool :=
  if text = "true" then some true else if text = "false" then some false else none

/-- The variable of the truth value. -/
def truthVariable : String := "HIVE_USAGE_PROCESS_VARIABLES"

/-- **The overrides of an environment** (`init_from_env`). -/
def ofEnvironment? (env : List (String × String)) : Option Overrides :=
  let standard : Overrides :=
    { level := env.lookup "LOG_LEVEL", format := env.lookup "LOG_FORMAT",
      filter := env.lookup "LOG_FILTER", accessToken := env.lookup "HIVE_ACCESS_TOKEN",
      target := env.lookup "HIVE_TARGET", endpoint := env.lookup "HIVE_USAGE_ENDPOINT" }
  match env.lookup truthVariable with
  | none => some standard
  | some text => (truth? text).map fun b => { standard with processVariables := some b }

theorem ofEnvironment?_isSome (env : List (String × String)) :
    (ofEnvironment? env).isSome ↔
      ∀ text, env.lookup truthVariable = some text → text = "true" ∨ text = "false" := by
  unfold ofEnvironment?
  cases h : env.lookup truthVariable with
  | none => simp
  | some text =>
    simp only [Option.isSome_map, Option.some.injEq, truth?]
    constructor
    · intro hs t ht
      subst ht
      split at hs
      · exact Or.inl ‹_›
      · split at hs
        · exact Or.inr ‹_›
        · simp at hs
    · intro ht
      rcases ht text rfl with rfl | rfl <;> decide

/-- The setting at a name of a table. -/
def setting (table name : String) (j : Json) (under : Json) : Json :=
  putAt [.member table, .member name] j under

/-- **Puts the overrides over a configuration** (`apply_overrides`). -/
def put (o : Overrides) (under : Json) : Json :=
  let texts : List (String × String × Option String) :=
    [("log", "level", o.level.map Coercion.lowered),
      ("log", "format", o.format.map Coercion.lowered), ("log", "filter", o.filter),
      ("usage_reporting", "access_token", o.accessToken),
      ("usage_reporting", "target_id", o.target), ("usage_reporting", "endpoint", o.endpoint)]
  let under := texts.foldl (fun under t =>
    match t.2.2 with
    | none => under
    | some text => setting t.1 t.2.1 (.str text) under) under
  match o.processVariables with
  | none => under
  | some b => setting "collector" "process_variables" (.bool b) under

end Overrides

end SchemaUsage.Settings

import SchemaUsage.Settings.Sources

/-!
# What sources give

The sources of `load_config_with_overrides` without their tables: a layer of a configuration as a
row of settings with their values. Most layers are plain: they give known settings, in tables or by
paths, and no setting is a table itself.

Results:
- `lastOf_append`: of two rows of values the later one counts.
- `Overrides.put_eq`: overrides are put one after another.
-/

namespace SchemaUsage.Settings

open Files Layers

/-! ## Settings by name -/

/-- The names of the settings, by the tables in which they stand. -/
def tables : List (String × List String) :=
  [("log", ["level", "format", "filter"]),
    ("collector", ["process_variables"]),
    ("usage_reporting", ["endpoint", "access_token", "target_id", "sample_rate", "buffer_size",
      "flush_interval", "connect_timeout", "request_timeout", "accept_invalid_certs",
      "client_name", "client_version"])]

/-- The name of a setting: that of its table and its own. -/
abbrev Name := String × String

/-- Settings with the values that are given to them, in order. -/
abbrev Givens := List (Name × Json)

/-- The value that is given to a setting last. -/
def lastOf (givens : Givens) (name : Name) : Option Json := givens.reverse.lookup name

theorem lastOf_append (first later : Givens) (name : Name) :
    lastOf (first ++ later) name = (lastOf later name).or (lastOf first name) := by
  rw [lastOf, List.reverse_append, List.lookup_append]
  rfl

/-- The tables of settings with the given values. -/
def tableOf (value : Name → Option Json) : Json :=
  .obj (tables.map fun (table, names) =>
    (table, .obj (names.filterMap fun name => (value (table, name)).map fun j => (name, j))))

/-! ## Layers -/

/-- The members of a table, which a member of a layer gives by the table's name, or one by one by
their paths. -/
def section? (m : String × Json) : Option (String × List (String × Json)) :=
  match placesOf m.1, m.2 with
  | [.member table], .obj members => some (table, members)
  | [.member table, .member name], j => some (table, [(name, j)])
  | _, _ => none

/-- The members of a table as settings. -/
def inTable (table : String) (members : List (String × Json)) : Givens :=
  members.map fun m => ((table, m.1), m.2)

/-- Whether a member of a layer gives known settings, none of which is a table. -/
def isPlainMember (m : String × Json) : Bool :=
  match section? m with
  | some (table, members) =>
    (tables.lookup table).any fun names =>
      members.all fun x => names.contains x.1 && x.2.members?.isNone
  | none => false

/-- The settings that a member of a layer gives. -/
def memberGivens (m : String × Json) : Givens :=
  match section? m with
  | some (table, members) => inTable table members
  | none => []

/-- The settings that a layer gives. -/
def givens (layer : List (String × Json)) : Givens := layer.flatMap memberGivens

/-- **A plain layer.** -/
def isPlain (layer : List (String × Json)) : Bool := layer.all isPlainMember

/-! ## Overrides -/

/-- The settings that overrides give. -/
def Overrides.givens (o : Overrides) : Givens :=
  [(("log", "level"), o.level.map fun s => .str (Coercion.lowered s)),
    (("log", "format"), o.format.map fun s => .str (Coercion.lowered s)),
    (("log", "filter"), o.filter.map .str),
    (("usage_reporting", "access_token"), o.accessToken.map .str),
    (("usage_reporting", "target_id"), o.target.map .str),
    (("usage_reporting", "endpoint"), o.endpoint.map .str),
    (("collector", "process_variables"), o.processVariables.map .bool)].filterMap fun x =>
      x.2.map fun j => (x.1, j)

theorem Overrides.put_eq (o : Overrides) (under : Json) :
    o.put under = o.givens.foldl (fun under x => setting x.1.1 x.1.2 x.2 under) under := by
  obtain ⟨level, format, filter, processVariables, accessToken, target, endpoint⟩ := o
  simp only [givens, List.foldl_filterMap, put, List.foldl_cons, List.foldl_nil]
  cases level <;> cases format <;> cases filter <;> cases processVariables <;>
    cases accessToken <;> cases target <;> cases endpoint <;> rfl

/-! ## Files -/

/-- The default names at which there is a file, in order. -/
def present (root : Entry) : List String :=
  defaultNames.filter fun name => (locate? root name).isSome

/-- The layer of the file that a name leads to. -/
def layerAt? (root : Entry) (name : String) : Option (List (String × Json)) :=
  (locate? root name).bind fileLayer?

end SchemaUsage.Settings

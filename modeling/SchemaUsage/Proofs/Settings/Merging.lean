import SchemaUsage.Settings.Given

/-!
# Merged settings

About `load_config_with_overrides` on layers of known settings. What plain layers and overrides add
up to: tables of known settings, in which each setting has the value that was given last. Nothing
else of them is seen by the decoding.

* `Tabled` says that a value is a table of tables of known settings.
* `Holds` says that it is one and has the values of a row of settings. It is kept by every member of
  a plain layer and by every override, which add to the row.

Results:
- `valueAt_layTable`: what is laid over a table counts before what was there.
- `puts_eq`: layers that are put one after another are one layer.
- `Holds.put`, `Holds.overrides`: a layer and overrides add the settings that they give.
- `Tabled.ofJson?_eq`: decoding sees nothing but the values of the settings.
- `Holds.ofJson?_eq`: the settings that are decoded are those that were given last.
-/

namespace SchemaUsage.Settings

open Files Layers Coercion SchemaUsage.Text

/-! ## Values in tables -/

/-- The value at the name of a setting. -/
def valueAt (name : Name) (j : Json) : Option Json :=
  ((entries j).lookup name.1).bind fun table => (entries table).lookup name.2

/-- Lays members over a table of a configuration. -/
def layTable (table : String) (members : List (String × Json)) (under : Json) : Json :=
  .obj (Named.insert table
    (overlayMembers members (((entries under).lookup table).getD (.obj []))) (entries under))

theorem putAt_table (table : String) (members : List (String × Json)) (under : Json) :
    putAt [.member table] (.obj members) under = layTable table members under := rfl

theorem putAt_setting (table name : String) (j under : Json) :
    putAt [.member table, .member name] j under = layTable table [(name, j)] under := by
  simp only [putAt, layTable]
  cases (entries under).lookup table <;> rfl

theorem entries_obj (members : List (String × Json)) : entries (.obj members) = members := rfl

/-- Members that are no tables take their places one by one. -/
theorem lookup_overlayMembers {members : List (String × Json)}
    (scalar : ∀ m ∈ members, m.2.members? = none) (under : Json) (name : String) :
    (entries (overlayMembers members under)).lookup name =
      (members.reverse.lookup name).or ((entries under).lookup name) := by
  induction members generalizing under with
  | nil => rfl
  | cons m members ih =>
    obtain ⟨k, j⟩ := m
    have own : overlay j (((entries under).lookup k).getD (.obj [])) = j :=
      overlay_scalar (scalar (k, j) List.mem_cons_self) _
    rw [overlayMembers, ih fun m mem => scalar m (List.mem_cons_of_mem _ mem), own,
      List.reverse_cons, List.lookup_append, Option.or_assoc]
    congr 1
    show (Named.insert k j (entries under)).lookup name = _
    by_cases same : name = k
    · subst same
      simp [Named.lookup_insert]
    · simp [Named.lookup_insert_ne same, List.lookup_cons, beq_eq_false_iff_ne.mpr same]

theorem lastOf_inTable (table : String) (members : List (String × Json)) (name : Name) :
    lastOf (inTable table members) name =
      if name.1 = table then members.reverse.lookup name.2 else none := by
  obtain ⟨other, name⟩ := name
  unfold lastOf inTable
  rw [← List.map_reverse]
  induction members.reverse with
  | nil => simp
  | cons m rest ih =>
    have split : ((other, name) == (table, m.1)) = (other == table && name == m.1) := rfl
    rw [List.map_cons, List.lookup_cons, List.lookup_cons, ih, split]
    by_cases same : other = table
    · simp [same]
    · simp [same, beq_eq_false_iff_ne.mpr same]

theorem valueAt_layTable {members : List (String × Json)}
    (scalar : ∀ m ∈ members, m.2.members? = none) (table : String) (under : Json) (name : Name) :
    valueAt name (layTable table members under) =
      (lastOf (inTable table members) name).or (valueAt name under) := by
  obtain ⟨other, name⟩ := name
  rw [lastOf_inTable]
  show ((Named.insert table _ (entries under)).lookup other).bind _ = _
  by_cases same : other = table
  · subst same
    rw [Named.lookup_insert, Option.bind_some, lookup_overlayMembers scalar, if_pos rfl]
    congr 1
    unfold valueAt
    cases (entries under).lookup other <;> rfl
  · rw [Named.lookup_insert_ne same, if_neg same]
    rfl

/-! ## Tables of settings -/

/-- Members that have names of settings of a table. -/
def Known (names : List String) (members : List (String × Json)) : Prop :=
  ∀ m ∈ members, m.1 ∈ names

/-- **A value is a table of tables of known settings.** -/
def Tabled (j : Json) : Prop :=
  ∃ sections, j = .obj sections ∧ ∀ x ∈ sections, ∃ names members,
    tables.lookup x.1 = some names ∧ x.2 = .obj members ∧ Known names members

theorem known_overlayMembers {names : List String} {members under : List (String × Json)}
    (known : Known names members) (below : Known names under) :
    ∃ merged, overlayMembers members (.obj under) = .obj merged ∧ Known names merged := by
  induction members generalizing under with
  | nil => exact ⟨under, rfl, below⟩
  | cons m members ih =>
    obtain ⟨k, j⟩ := m
    rw [overlayMembers]
    refine ih (fun m mem => known m (List.mem_cons_of_mem _ mem)) fun m mem => ?_
    rcases Named.mem_of_mem_insert mem with rfl | mem
    · exact known (k, j) List.mem_cons_self
    · exact below m mem

theorem mem_of_lookup {α : Type} {k : String} {v : α} {xs : List (String × α)}
    (h : xs.lookup k = some v) : (k, v) ∈ xs := by
  obtain ⟨front, rest, rfl, -⟩ := List.lookup_eq_some_iff.mp h
  simp

theorem Tabled.layTable {under : Json} (tabled : Tabled under) {table : String}
    {names : List String} {members : List (String × Json)}
    (there : tables.lookup table = some names) (known : Known names members) :
    Tabled (layTable table members under) := by
  obtain ⟨sections, rfl, all⟩ := tabled
  refine ⟨_, rfl, fun x mem => ?_⟩
  rcases Named.mem_of_mem_insert mem with rfl | mem
  · have below : ∃ under, ((entries (.obj sections)).lookup table).getD (.obj []) = .obj under ∧
        Known names under := by
      cases found : sections.lookup table with
      | none => exact ⟨[], by simp [entries, Json.members?, found], fun _ h => nomatch h⟩
      | some j =>
        obtain ⟨names', members', there', rfl, known'⟩ := all _ (mem_of_lookup found)
        cases there.symm.trans there'
        exact ⟨members', by simp [entries, Json.members?, found], known'⟩
    obtain ⟨under, eq, below⟩ := below
    obtain ⟨merged, eq', known'⟩ := known_overlayMembers known below
    exact ⟨names, merged, there, by rw [eq, eq'], known'⟩
  · exact all x mem

/-! ## Rows of settings -/

/-- **A configuration holds a row of settings**: it is a table of tables of known settings, and each
setting has the value that is given last. -/
structure Holds (row : Givens) (j : Json) : Prop where
  tabled : Tabled j
  value : ∀ name, valueAt name j = lastOf row name

namespace Holds

variable {row : Givens} {j : Json}

theorem start : Holds [] (.obj []) :=
  ⟨⟨[], rfl, fun _ h => nomatch h⟩, fun _ => rfl⟩

theorem layTable (holds : Holds row j) {table : String} {names : List String}
    (members : List (String × Json)) (there : tables.lookup table = some names)
    (known : Known names members) (scalar : ∀ m ∈ members, m.2.members? = none) :
    Holds (row ++ inTable table members) (layTable table members j) :=
  ⟨holds.tabled.layTable there known, fun name => by
    rw [valueAt_layTable scalar, lastOf_append, holds.value]⟩

end Holds

/-- **What a plain member does**: it lays the settings that it gives over a table. -/
theorem exists_layTable {m : String × Json} (plain : isPlainMember m = true) :
    ∃ table names members, tables.lookup table = some names ∧ Known names members ∧
      (∀ x ∈ members, x.2.members? = none) ∧ memberGivens m = inTable table members ∧
      ∀ under, putAt (placesOf m.1) m.2 under = layTable table members under := by
  unfold isPlainMember at plain
  unfold memberGivens
  cases found : section? m with
  | none => simp [found] at plain
  | some part =>
    obtain ⟨table, members⟩ := part
    simp only [found] at plain
    cases there : tables.lookup table with
    | none => simp [there] at plain
    | some names =>
      simp only [there, Option.any_some, List.all_eq_true, Bool.and_eq_true, List.contains_iff_mem,
        Option.isNone_iff_eq_none] at plain
      refine ⟨table, names, members, there, fun x mem => (plain x mem).1,
        fun x mem => (plain x mem).2, rfl, fun under => ?_⟩
      unfold section? at found
      split at found
      · rename_i places value
        cases found
        rw [places, value, putAt_table]
      · rename_i places
        cases found
        rw [places, putAt_setting]
      · cases found

/-! ## Layers and overrides -/

/-- **Layers that are put one after another are one layer.** -/
theorem puts_eq (layers : List (List (String × Json))) (under : Json) :
    layers.foldl (fun under layer => put layer under) under = put layers.flatten under :=
  List.foldl_flatten.symm

theorem givens_flatten (layers : List (List (String × Json))) :
    givens layers.flatten = layers.flatMap givens := by
  rw [givens, List.flatten_eq_flatMap, List.flatMap_assoc]
  rfl

theorem isPlain_flatten {layers : List (List (String × Json))}
    (plain : ∀ layer ∈ layers, isPlain layer = true) : isPlain layers.flatten = true := by
  rw [isPlain, List.all_flatten]
  exact List.all_eq_true.mpr plain

namespace Holds

variable {row : Givens} {j : Json}

theorem member (holds : Holds row j) {m : String × Json} (plain : isPlainMember m = true) :
    Holds (row ++ memberGivens m) (putAt (placesOf m.1) m.2 j) := by
  obtain ⟨table, names, members, there, known, scalar, gives, puts⟩ := exists_layTable plain
  rw [gives, puts]
  exact holds.layTable members there known scalar

/-- **A plain layer adds the settings that it gives.** -/
theorem put {layer : List (String × Json)} (holds : Holds row j) (plain : isPlain layer = true) :
    Holds (row ++ givens layer) (put layer j) := by
  induction layer generalizing row j with
  | nil => simpa [givens, Layers.put] using holds
  | cons m layer ih =>
    rw [isPlain, List.all_cons, Bool.and_eq_true] at plain
    have rest := ih (holds.member plain.1) plain.2
    rwa [List.append_assoc] at rest

theorem setting (holds : Holds row j) {table name : String} {names : List String} {value : Json}
    (there : tables.lookup table = some names) (mem : name ∈ names)
    (scalar : value.members? = none) :
    Holds (row ++ [((table, name), value)]) (Overrides.setting table name value j) := by
  have laid := holds.layTable [(name, value)] there
    (fun m h => List.mem_singleton.mp h ▸ mem) fun m h => List.mem_singleton.mp h ▸ scalar
  rwa [← putAt_setting] at laid

/-- **Overrides add the settings that they give.** -/
theorem overrides (holds : Holds row j) (o : Overrides) :
    Holds (row ++ o.givens) (o.put j) := by
  have fits : ∀ x ∈ o.givens, ∃ names, tables.lookup x.1.1 = some names ∧ x.1.2 ∈ names ∧
      x.2.members? = none := by
    intro x mem
    obtain ⟨y, listed, given⟩ := List.mem_filterMap.mp mem
    obtain ⟨value, found, rfl⟩ := Option.map_eq_some_iff.mp given
    simp only [List.mem_cons, List.not_mem_nil, or_false] at listed
    rcases listed with rfl | rfl | rfl | rfl | rfl | rfl | rfl <;>
      obtain ⟨_, -, rfl⟩ := Option.map_eq_some_iff.mp found <;>
      exact ⟨_, rfl, by simp, rfl⟩
  rw [Overrides.put_eq]
  generalize o.givens = xs at fits
  induction xs generalizing row j with
  | nil => simpa using holds
  | cons x xs ih =>
    obtain ⟨names, there, mem, scalar⟩ := fits x List.mem_cons_self
    have rest := ih (holds.setting there mem scalar)
      fun y mem => fits y (List.mem_cons_of_mem _ mem)
    rwa [List.append_assoc] at rest

end Holds

/-! ## Decoding -/

/-- **Tables of a setting decode alike** if they have the same values. -/
def SeesNames {α : Type} (names : List String) (decode : Json → Option α) : Prop :=
  ∀ members others, Known names members → Known names others →
    (∀ name ∈ names, members.lookup name = others.lookup name) →
    decode (.obj members) = decode (.obj others)

theorem record?_known {names : List String} {members : List (String × Json)}
    (known : Known names members) : record? names (.obj members) = some members := by
  rw [record?_obj]
  exact known

theorem seesNames_log : SeesNames ["level", "format", "filter"] LogSettings.ofJson? := by
  intro members others known known' same
  simp only [LogSettings.ofJson?, record?_known known, record?_known known', field?]
  simp [same]

theorem seesNames_collector : SeesNames ["process_variables"] CollectorSettings.ofJson? := by
  intro members others known known' same
  simp only [CollectorSettings.ofJson?, record?_known known, record?_known known', field?]
  simp [same]

theorem seesNames_reporting :
    SeesNames ["endpoint", "access_token", "target_id", "sample_rate", "buffer_size",
      "flush_interval", "connect_timeout", "request_timeout", "accept_invalid_certs",
      "client_name", "client_version"] ReportingSettings.ofJson? := by
  intro members others known known' same
  simp only [ReportingSettings.ofJson?, record?_known known, record?_known known', field?]
  simp [same]

/-- The named values, each under its name. -/
def named (names : List String) (value : String → Option Json) : List (String × Json) :=
  names.filterMap fun name => (value name).map fun j => (name, j)

theorem known_named (names : List String) (value : String → Option Json) :
    Known names (named names value) := by
  intro m mem
  obtain ⟨name, listed, given⟩ := List.mem_filterMap.mp mem
  obtain ⟨j, -, rfl⟩ := Option.map_eq_some_iff.mp given
  exact listed

theorem lookup_named {names : List String} {name : String} (mem : name ∈ names)
    (value : String → Option Json) : (named names value).lookup name = value name := by
  induction names with
  | nil => cases mem
  | cons other names ih =>
    unfold named at ih ⊢
    by_cases same : name = other
    · subst same
      rw [List.filterMap_cons]
      cases found : value name with
      | some j => simp
      | none =>
        by_cases later : name ∈ names
        · simpa [found] using ih later
        · refine List.lookup_eq_none_iff.mpr fun m given => ?_
          have listed := known_named names value m given
          simp only [bne_iff_ne]
          exact fun same => later (same ▸ listed)
    · have later := ih ((List.mem_cons.mp mem).resolve_left same)
      rw [List.filterMap_cons]
      cases value other with
      | none => exact later
      | some j => simpa [List.lookup_cons, beq_eq_false_iff_ne.mpr same] using later

/-- What is decoded of a table of settings are the values of its names. -/
theorem field?_table {α : Type} {sections : List (String × Json)} (tabled : Tabled (.obj sections))
    (table : String) {names : List String} (there : tables.lookup table = some names)
    {decode : Json → Option α} {default : α} (sees : SeesNames names decode)
    (standard : decode (.obj []) = some default) :
    field? sections table default decode =
      decode (.obj (named names fun name => valueAt (table, name) (.obj sections))) := by
  obtain ⟨_, same, all⟩ := tabled
  cases same
  unfold field?
  cases found : sections.lookup table with
  | none =>
    have nothing : (named names fun name => valueAt (table, name) (.obj sections)) = [] := by
      simp [named, valueAt, entries_obj, found]
    rw [nothing, standard]
  | some j =>
    obtain ⟨names', members, there', rfl, known⟩ := all _ (mem_of_lookup found)
    cases there.symm.trans there'
    refine sees members _ known (known_named names _) fun name mem => ?_
    rw [lookup_named mem]
    simp [valueAt, entries_obj, found]

/-- **Decoding sees nothing but the values of the settings.** -/
theorem Tabled.ofJson?_eq {j : Json} (tabled : Tabled j) :
    ofJson? j = ofJson? (tableOf fun name => valueAt name j) := by
  have whole := tabled
  obtain ⟨sections, rfl, all⟩ := tabled
  have known : Known ["log", "collector", "usage_reporting"] sections := by
    intro x mem
    obtain ⟨names, _, there, -⟩ := all x mem
    obtain ⟨y, listed, same⟩ := List.lookup_isSome_iff.mp (Option.isSome_of_eq_some there)
    rw [beq_iff_eq.mp same]
    exact List.mem_map_of_mem (f := Prod.fst) listed
  have log := field?_table whole "log" rfl seesNames_log rfl
  have collector := field?_table whole "collector" rfl seesNames_collector rfl
  have reporting := field?_table whole "usage_reporting" rfl seesNames_reporting rfl
  unfold ofJson?
  simp only [record?_known known, Option.bind_eq_bind, Option.bind_some, log, collector, reporting]
  rfl

/-- **What is decoded are the values that were given last.** -/
theorem Holds.ofJson?_eq {row : Givens} {j : Json} (holds : Holds row j) :
    ofJson? j = ofJson? (tableOf (lastOf row)) := by
  rw [holds.tabled.ofJson?_eq, funext holds.value]

end SchemaUsage.Settings

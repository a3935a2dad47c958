import SchemaUsage.Proofs.Settings.Merging

/-!
# Settings without a named file

About `load_config_with_overrides` without a path. All files of the default names that are there
count, and not the first one alone. Their layers are laid one over another in the order of the
names: a setting has the value of the overrides, or else that of the last file that gives it. A
single file that cannot be read, or that has a table which no setting has, leaves nothing at all.

Results:
- `layers?_none`: the layers without a named file are those of all default files that are there.
- `ofJson?_foreign`: a table that no setting has cannot be decoded, whatever is laid over it.
- `load_defaults`: the settings without a named file, and when they are those of the first one.
-/

namespace SchemaUsage.Settings

open Files Layers Coercion SchemaUsage.Text

/-! ## Foreign tables -/

/-- Whether a configuration has a member of a name. -/
def hasEntry (table : String) (j : Json) : Bool := ((entries j).lookup table).isSome

theorem hasEntry_insert {table other : String} {value under : Json}
    (h : table = other ∨ hasEntry table under = true) :
    hasEntry table (.obj (Named.insert other value (entries under))) = true := by
  unfold hasEntry
  rw [entries_obj]
  by_cases same : table = other
  · rw [same, Named.lookup_insert]
    rfl
  · rw [Named.lookup_insert_ne same]
    exact h.resolve_left same

/-- What is put somewhere takes no member away. -/
theorem hasEntry_putAt {table other : String} {places : List Place} {j under : Json}
    (h : table = other ∨ hasEntry table under = true) :
    hasEntry table (putAt (.member other :: places) j under) = true := by
  cases places with
  | nil => exact hasEntry_insert h
  | cons place places => exact hasEntry_insert h

/-- Every key of a layer leads into a member of the configuration first. -/
theorem exists_placesOf (key : String) :
    ∃ table places, placesOf key = .member table :: places := by
  unfold placesOf
  cases found : Scan.whole path key.toList with
  | none => exact ⟨key, [], rfl⟩
  | some places =>
    unfold Scan.whole at found
    split at found
    · rename_i read
      cases found
      obtain ⟨⟨first, rest⟩, -, read⟩ := Option.bind_eq_some_iff.mp read
      obtain ⟨⟨others, rest⟩, -, read⟩ := Option.bind_eq_some_iff.mp read
      cases read
      exact ⟨first, others, rfl⟩
    · cases found

/-- Some member of a layer leads into a table, or to the place of one. -/
def LeadsInto (table : String) (layer : List (String × Json)) : Prop :=
  ∃ m ∈ layer, ∃ places, placesOf m.1 = .member table :: places

theorem hasEntry_put {table : String} {layer : List (String × Json)} {under : Json}
    (h : LeadsInto table layer ∨ hasEntry table under = true) :
    hasEntry table (put layer under) = true := by
  induction layer generalizing under with
  | nil =>
    rcases h with ⟨m, mem, -⟩ | h
    · cases mem
    · exact h
  | cons m layer ih =>
    obtain ⟨other, places, eq⟩ := exists_placesOf m.1
    refine ih ?_
    -- either a later member leads into the table, or it is there now and stays there
    show LeadsInto table layer ∨ hasEntry table (putAt (placesOf m.1) m.2 under) = true
    rw [eq]
    rcases h with ⟨k, mem, own, placed⟩ | h
    · rcases List.mem_cons.mp mem with rfl | mem
      · cases eq.symm.trans placed
        exact Or.inr (hasEntry_putAt (Or.inl rfl))
      · exact Or.inl ⟨k, mem, own, placed⟩
    · exact Or.inr (hasEntry_putAt (Or.inr h))

theorem LeadsInto.flatten {table : String} {layer : List (String × Json)}
    {layers : List (List (String × Json))} (leads : LeadsInto table layer)
    (mem : layer ∈ layers) : LeadsInto table layers.flatten := by
  obtain ⟨m, own, places, placed⟩ := leads
  exact ⟨m, List.mem_flatten.mpr ⟨layer, mem, own⟩, places, placed⟩

theorem hasEntry_overrides {table : String} {under : Json} (h : hasEntry table under = true)
    (o : Overrides) : hasEntry table (o.put under) = true := by
  rw [Overrides.put_eq]
  induction o.givens generalizing under with
  | nil => exact h
  | cons x xs ih => exact ih (hasEntry_putAt (Or.inr h))

/-- **What has a foreign table is not decoded.** -/
theorem ofJson?_foreign {table : String} {j : Json} (h : hasEntry table j = true)
    (foreign : tables.lookup table = none) : ofJson? j = none := by
  obtain ⟨x, mem, same⟩ := List.lookup_isSome_iff.mp h
  cases j with
  | obj members =>
    have refused : record? ["log", "collector", "usage_reporting"] (.obj members) = none := by
      refine if_neg fun known => ?_
      have listed : x.1 ∈ tables.map Prod.fst :=
        List.contains_iff_mem.mp (List.all_eq_true.mp known x mem)
      obtain ⟨y, there, named⟩ := List.mem_map.mp listed
      have absent := List.lookup_eq_none_iff.mp foreign y there
      simp [named, beq_iff_eq.mp same] at absent
    unfold ofJson?
    rw [refused]
    rfl
  | _ => cases mem

/-! ## Layers of files -/

/-- **All default files that are there give a layer**, in the order of their names. -/
theorem layers?_none (root : Entry) :
    layers? root none = (present root).mapM (layerAt? root) := by
  unfold layers? present
  induction defaultNames with
  | nil => rfl
  | cons name names ih =>
    cases found : locate? root name with
    | none => simpa [found] using ih
    | some place =>
      simp only [List.filterMap_cons, List.filter_cons, found, Option.isSome_some, if_true,
        List.mapM_cons, ih, layerAt?, Option.bind_some]

theorem layers?_some (root : Entry) (name : String) :
    layers? root (some name) = (layerAt? root name).map ([·]) := by
  unfold layerAt?
  rw [Option.map_bind]
  rfl

theorem load?_of_layers {root : Entry} {path : Option String}
    {layers : List (List (String × Json))} (read : layers? root path = some layers)
    (o : Overrides) :
    load? root path o = ofJson? (o.put (put layers.flatten (.obj []))) := by
  rw [← puts_eq]
  unfold load?
  rw [read]
  rfl

theorem load?_none_of_layers {root : Entry} {path : Option String}
    (unread : layers? root path = none) (o : Overrides) : load? root path o = none := by
  unfold load?
  rw [unread]
  rfl

/-- Plain layers give the settings that were given last. -/
theorem load?_of_plain {root : Entry} {path : Option String}
    {layers : List (List (String × Json))} (read : layers? root path = some layers)
    (plain : ∀ layer ∈ layers, isPlain layer = true) (o : Overrides) :
    load? root path o = ofJson? (tableOf (lastOf (layers.flatMap givens ++ o.givens))) := by
  have held := (Holds.start.put (isPlain_flatten plain)).overrides o
  rw [load?_of_layers read, held.ofJson?_eq, List.nil_append, givens_flatten]

/-- What one item refuses, the list refuses. -/
theorem mapM_eq_none_of_mem {α β : Type} {read : α → Option β} {items : List α} {item : α}
    (mem : item ∈ items) (refused : read item = none) : items.mapM read = none := by
  induction items with
  | nil => cases mem
  | cons first items ih =>
    rw [List.mapM_cons]
    rcases List.mem_cons.mp mem with rfl | mem
    · rw [refused]
      rfl
    · rw [ih mem]
      cases read first <;> rfl

/-- Each item that is read is in the list that is read. -/
theorem mem_of_mapM {α β : Type} {read : α → Option β} {items : List α} {values : List β}
    (all : items.mapM read = some values) {item : α} {value : β} (mem : item ∈ items)
    (one : read item = some value) : value ∈ values := by
  induction items generalizing values with
  | nil => cases mem
  | cons first items ih =>
    rw [List.mapM_cons] at all
    obtain ⟨front, here, all⟩ := Option.bind_eq_some_iff.mp all
    obtain ⟨rest, there, all⟩ := Option.bind_eq_some_iff.mp all
    cases all
    rcases List.mem_cons.mp mem with rfl | mem
    · cases here.symm.trans one
      exact List.mem_cons_self
    · exact List.mem_cons_of_mem _ (ih there mem)

/-! ## Loading without a named file -/

theorem load?_absent {root : Entry} (absent : present root = []) (o : Overrides) :
    load? root none o = load? .empty none o := by
  have read : layers? root none = some [] := by
    rw [layers?_none, absent]
    rfl
  rw [load?_of_layers read, load_nothing]
  rfl

theorem load?_unreadable {root : Entry} {name : String} (mem : name ∈ present root)
    (unreadable : layerAt? root name = none) (o : Overrides) : load? root none o = none := by
  refine load?_none_of_layers ?_ o
  rw [layers?_none]
  exact mapM_eq_none_of_mem mem unreadable

theorem load?_foreign {root : Entry} {name table : String} {layer : List (String × Json)}
    (mem : name ∈ present root) (read : layerAt? root name = some layer)
    (leads : LeadsInto table layer) (foreign : tables.lookup table = none) (o : Overrides) :
    load? root none o = none := by
  cases all : layers? root none with
  | none => exact load?_none_of_layers all o
  | some layers =>
    have there : layer ∈ layers := mem_of_mapM ((layers?_none root).symm.trans all) mem read
    rw [load?_of_layers all]
    exact ofJson?_foreign (hasEntry_overrides (hasEntry_put (Or.inl (leads.flatten there))) o)
      foreign

theorem mapM_eq_replicate {α β : Type} {read : α → Option β} {items : List α} {value : β}
    (same : ∀ item ∈ items, read item = some value) :
    items.mapM read = some (List.replicate items.length value) := by
  induction items with
  | nil => rfl
  | cons item items ih =>
    rw [List.mapM_cons, same item List.mem_cons_self,
      ih fun other mem => same other (List.mem_cons_of_mem _ mem)]
    rfl

theorem load?_first {root : Entry} {name : String} {later : List String}
    (there : present root = name :: later)
    (empty : ∀ other ∈ later, layerAt? root other = some []) (o : Overrides) :
    load? root none o = load? root (some name) o := by
  cases read : layerAt? root name with
  | none =>
    have unread : layers? root (some name) = none := by rw [layers?_some, read, Option.map_none]
    rw [load?_none_of_layers unread, load?_unreadable (there ▸ List.mem_cons_self) read]
  | some layer =>
    have alone : layers? root (some name) = some [layer] := by
      rw [layers?_some, read, Option.map_some]
    have all : layers? root none = some (layer :: List.replicate later.length []) := by
      rw [layers?_none, there, List.mapM_cons, read, mapM_eq_replicate empty]
      rfl
    rw [load?_of_layers alone, load?_of_layers all, List.flatten_cons, List.flatten_cons,
      List.flatten_replicate_nil, List.flatten_nil]

/-- **Settings without a named file** are those of all default files that are there, merged:

1. Without any default file they are those of the overrides.
2. If one of the files, the first or a later one, cannot be read, there are none.
3. If one of the files leads into a table that no setting has, there are none.
4. They are those of the first file alone if the later ones are empty.
5. Of plain files, each setting has the value that is given last: by the overrides, or else by the
   last file that gives it.
6. A plain file that is named gives its own settings and those of the overrides, whatever else is
   there. -/
theorem load_defaults (root : Entry) (o : Overrides) :
    (present root = [] → load? root none o = load? .empty none o) ∧
    (∀ name ∈ present root, layerAt? root name = none → load? root none o = none) ∧
    (∀ name ∈ present root, ∀ layer table, layerAt? root name = some layer →
      LeadsInto table layer → tables.lookup table = none → load? root none o = none) ∧
    (∀ name later, present root = name :: later →
      (∀ other ∈ later, layerAt? root other = some []) →
      load? root none o = load? root (some name) o) ∧
    (∀ layers, (present root).mapM (layerAt? root) = some layers →
      (∀ layer ∈ layers, isPlain layer = true) →
      load? root none o = ofJson? (tableOf (lastOf (layers.flatMap givens ++ o.givens)))) ∧
    (∀ name layer, layerAt? root name = some layer → isPlain layer = true →
      load? root (some name) o = ofJson? (tableOf (lastOf (givens layer ++ o.givens)))) := by
  refine ⟨?absent, ?unreadable, ?foreign, ?empty, ?merged, ?named⟩
  case absent => exact fun absent => load?_absent absent o
  case unreadable => exact fun name mem unread => load?_unreadable mem unread o
  case foreign =>
    exact fun name mem layer table read leads foreign => load?_foreign mem read leads foreign o
  case empty => exact fun name later there empty => load?_first there empty o
  case merged =>
    intro layers read plain
    exact load?_of_plain ((layers?_none root).trans read) plain o
  case named =>
    intro name layer read plain
    have alone : layers? root (some name) = some [layer] := by
      rw [layers?_some, read, Option.map_some]
    have gives := load?_of_plain alone (fun _ mem => List.mem_singleton.mp mem ▸ plain) o
    rwa [List.flatMap_singleton] at gives

/-- A directory with two default files. -/
def twoFiles (first later : String) : Entry :=
  .directory [("usage.config.json", .file (.text first)),
    ("usage.config.json5", .file (.text later))]

/-- A text that gives the level `debug`. -/
def debugText : String := "\x7b\"log\": \x7b\"level\": \"debug\"\x7d\x7d"

/-- A text that gives the level `error`. -/
def errorText : String := "\x7blog: \x7blevel: 'error'\x7d\x7d"

/-- A text with a table that no setting has. -/
def foreignText : String := "\x7blogs: \x7blevel: 'error'\x7d\x7d"

theorem present_twoFiles (first later : String) :
    present (twoFiles first later) = ["usage.config.json", "usage.config.json5"] := by
  rfl

theorem load_defaults_twoFiles :
    (present (.directory []) = [] ∧ load? (.directory []) none {} = load? .empty none {}) ∧
    (layerAt? (twoFiles debugText "") "usage.config.json5" = none ∧
      load? (twoFiles debugText "") none {} = none) ∧
    (∃ layer, layerAt? (twoFiles debugText foreignText) "usage.config.json5" = some layer ∧
      LeadsInto "logs" layer ∧ load? (twoFiles debugText foreignText) none {} = none) ∧
    (layerAt? (twoFiles debugText "\x7b\x7d") "usage.config.json5" = some [] ∧
      load? (twoFiles debugText "\x7b\x7d") none {} =
        load? (twoFiles debugText "\x7b\x7d") (some "usage.config.json") {}) ∧
    (∃ layers, (present (twoFiles debugText errorText)).mapM
        (layerAt? (twoFiles debugText errorText)) = some layers ∧
      (∀ layer ∈ layers, isPlain layer = true) ∧
      load? (twoFiles debugText errorText) none {} =
        ofJson? (tableOf (lastOf (layers.flatMap givens ++ Overrides.givens {})))) ∧
    ∃ layer, layerAt? (twoFiles debugText errorText) "usage.config.json" = some layer ∧
      isPlain layer = true ∧
      load? (twoFiles debugText errorText) (some "usage.config.json") {} =
        ofJson? (tableOf (lastOf (givens layer ++ Overrides.givens {}))) := by
  have later {first later : String} : "usage.config.json5" ∈ present (twoFiles first later) := by
    simp [present_twoFiles]
  refine ⟨?absent, ?unreadable, ?foreign, ?empty, ?merged, ?named⟩
  case absent =>
    have absent : present (.directory []) = [] := by decide +kernel
    exact ⟨absent, (load_defaults _ {}).1 absent⟩
  case unreadable =>
    have unread : layerAt? (twoFiles debugText "") "usage.config.json5" = none := by
      decide +kernel
    exact ⟨unread, (load_defaults _ {}).2.1 _ later unread⟩
  case foreign =>
    obtain ⟨layer, read, leads⟩ := (Option.any_eq_true
      (List.any · fun m => placesOf m.1 == [.member "logs"])
      (layerAt? (twoFiles debugText foreignText) "usage.config.json5")).mp (by decide +kernel)
    obtain ⟨m, mem, placed⟩ := List.any_eq_true.mp leads
    have leads : LeadsInto "logs" layer := ⟨m, mem, [], beq_iff_eq.mp placed⟩
    exact ⟨layer, read, leads, (load_defaults _ {}).2.2.1 _ later layer _ read leads rfl⟩
  case empty =>
    obtain ⟨layer, read, empty⟩ := (Option.any_eq_true List.isEmpty
      (layerAt? (twoFiles debugText "\x7b\x7d") "usage.config.json5")).mp (by decide +kernel)
    obtain rfl := List.isEmpty_iff.mp empty
    exact ⟨read, (load_defaults _ {}).2.2.2.1 _ _ (present_twoFiles _ _)
      fun other mem => List.mem_singleton.mp mem ▸ read⟩
  case merged =>
    obtain ⟨layers, read, plain⟩ := (Option.any_eq_true (List.all · isPlain)
      ((present (twoFiles debugText errorText)).mapM
        (layerAt? (twoFiles debugText errorText)))).mp (by decide +kernel)
    have plain := List.all_eq_true.mp plain
    exact ⟨layers, read, plain, (load_defaults _ {}).2.2.2.2.1 layers read plain⟩
  case named =>
    obtain ⟨layer, read, plain⟩ := (Option.any_eq_true isPlain
      (layerAt? (twoFiles debugText errorText) "usage.config.json")).mp (by decide +kernel)
    exact ⟨layer, read, plain, (load_defaults _ {}).2.2.2.2.2 _ layer read plain⟩

theorem later_file_counts :
    present (twoFiles debugText errorText) = ["usage.config.json", "usage.config.json5"] ∧
    load? (twoFiles debugText errorText) none {} = some { log := { level := .error } } ∧
    load? (twoFiles debugText errorText) (some "usage.config.json") {} =
      some { log := { level := .debug } } ∧
    load? (twoFiles debugText errorText) none {} ≠
      load? (twoFiles debugText errorText) (some "usage.config.json") {} := by
  have merged : load? (twoFiles debugText errorText) none {} =
      some { log := { level := .error } } := by decide +kernel
  have alone : load? (twoFiles debugText errorText) (some "usage.config.json") {} =
      some { log := { level := .debug } } := by decide +kernel
  refine ⟨present_twoFiles debugText errorText, merged, alone, ?_⟩
  rw [merged, alone]
  decide

end SchemaUsage.Settings

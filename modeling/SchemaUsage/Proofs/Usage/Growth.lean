import SchemaUsage.Proofs.Graphql.Growth
import SchemaUsage.Proofs.Usage.Pruning

/-!
# The usage of a document in a schema that grows

About `collect_schema_usage` before and behind `prepare_schema` of a longer document. In a schema
that has grown, everything that a document looks up is found as before, so its selections stand
where they stood and its values have the positions that they had. Of what is written, no position is
new, since all keys and arguments have been declared before; supplied data may have new positions,
where a key that counted for nothing becomes known. A document hence uses what it has used, and
perhaps more. More types may be used as a whole, and these hide recorded fields, which they
contribute themselves.

* `FieldTypesDefined` says that all fields of all types have defined types.

Results:
- `Stands.grown`, `Stands.origin`: selections stand where they stood, and nowhere else.
- `Resolves.grown`: what resolves still does.
- `Uses.grown`: what is used is still used.
- `usage_extended`: the usage in a schema that has further extensions.
-/

namespace SchemaUsage.Usage

open SchemaUsage.Graphql

/-! ## Types -/

section Types

variable {t u : TypeDefinition} (h : t.Grows u)

include h

theorem Declares.grown {field type : String} (declared : Declares t field type) :
    Declares u field type := by
  obtain ⟨-, body⟩ := h
  cases declared with
  | inputObject before mem =>
    rw [before] at body
    generalize behind : u.body = b at body
    cases body with
    | inputObject => exact .inputObject behind (List.mem_append_left _ mem)
  | object before mem =>
    rw [before] at body
    generalize behind : u.body = b at body
    cases body with
    | object => exact .object behind (List.mem_append_left _ mem)
  | interface before mem =>
    rw [before] at body
    generalize behind : u.body = b at body
    cases body with
    | interface => exact .interface behind (List.mem_append_left _ mem)

theorem enum_grown {values : List EnumValue} (before : t.body = .enum values) :
    ∃ added, u.body = .enum (values ++ added) := by
  have body := h.body
  rw [before] at body
  generalize u.body = b at body
  cases body with
  | enum _ added => exact ⟨added, rfl⟩

theorem Contributes.grown {id : String} (given : Contributes t id) : Contributes u id := by
  cases given with
  | scalar before =>
    have body := h.body
    rw [before] at body
    generalize behind : u.body = b at body
    cases body with
    | scalar => exact h.name ▸ .scalar behind
  | value before mem =>
    obtain ⟨added, behind⟩ := enum_grown h before
    exact h.name ▸ .value behind (List.mem_append_left _ mem)
  | field declared => exact h.name ▸ .field (declared.grown h)

theorem Gives.grown {sel : Selection} {id : String} (gives : Gives t sel id) : Gives u sel id := by
  cases gives with
  | field ordinary => exact h.name ▸ .field ordinary
  | argument ordinary given => exact h.name ▸ .argument ordinary given
  | typename => exact h.name ▸ .typename

theorem ValueGives.grown {strategy : Strategy} {held : Held} {part : Value} {m : Mark}
    (gives : ValueGives strategy t held part m) : ValueGives strategy u held part m := by
  have kind : u.kind = t.kind := h.kind
  cases gives with
  | enum => exact h.name ▸ .enum
  | literal literal => exact h.name ▸ .literal literal
  | var unsupplied => exact h.name ▸ .var unsupplied
  | item leaf => exact h.name ▸ .item leaf
  | foreign other => exact h.name ▸ .foreign (kind ▸ other)
  | key same mem => exact h.name ▸ .key (kind.trans same) mem

theorem DataGives.grown {data : Json} {m : Mark} (gives : DataGives t data m) :
    DataGives u data m := by
  have kind : u.kind = t.kind := h.kind
  cases gives with
  | key same mem declared => exact h.name ▸ .key (kind.trans same) mem (h.inputField? declared)
  | missing same => exact h.name ▸ .missing (kind.trans same)
  | whole other => exact h.name ▸ .whole (kind ▸ other)

end Types

/-! ## Positions -/

variable {s s' : Schema} {strategy : Strategy} {doc : Document}

section Positions

variable (growth : s.Grows s')

include growth

theorem Reaches.grown {name other : String} (reaches : Reaches s name other) :
    Reaches s' name other := by
  induction reaches with
  | refl => exact .refl _
  | field _ type declared ih =>
    obtain ⟨u, type', h⟩ := growth.firstType?_grown type
    exact .field ih type' (declared.grown h)

theorem DataAt.grown {t t' u : TypeDefinition} {data part : Json} (start : t.Grows t')
    (position : DataAt s t data u part) : ∃ u', DataAt s' t' data u' part ∧ u.Grows u' := by
  induction position with
  | whole => exact ⟨t', .whole, start⟩
  | item _ mem ih =>
    obtain ⟨u', outer, h⟩ := ih
    exact ⟨u', .item outer mem, h⟩
  | member _ kind mem declared named ih =>
    obtain ⟨u', outer, h⟩ := ih
    obtain ⟨v', named', h'⟩ := growth.firstType?_grown named
    exact ⟨v', .member outer (h.kind.trans kind) mem (h.inputField? declared) named', h'⟩

theorem ValueAt.grown {t t' u : TypeDefinition} {value part : Value} {held : Held}
    (start : t.Grows t') (position : ValueAt s t value u held part) :
    ∃ u', ValueAt s' t' value u' held part ∧ u.Grows u' := by
  induction position with
  | whole => exact ⟨t', .whole, start⟩
  | item _ mem ih =>
    obtain ⟨u', outer, h⟩ := ih
    exact ⟨u', .item outer mem, h⟩
  | member _ kind mem declared named ih =>
    obtain ⟨u', outer, h⟩ := ih
    obtain ⟨v', named', h'⟩ := growth.lastType?_grown named
    exact ⟨v', .member outer (h.kind.trans kind) mem (h.inputField? declared) named', h'⟩

/-- A value that fits has no further positions where its type has grown. -/
theorem ValueAt.origin {t t' u' : TypeDefinition} {value part : Value} {held : Held}
    (start : t.Grows t')
    (fits : ∀ u held part, ValueAt s t value u held part → ValueFits s u part)
    (position : ValueAt s' t' value u' held part) :
    ∃ u, ValueAt s t value u held part ∧ u.Grows u' := by
  induction position with
  | whole => exact ⟨t, .whole, start⟩
  | item _ mem ih =>
    obtain ⟨u, outer, h⟩ := ih
    exact ⟨u, .item outer mem, h⟩
  | member _ kind mem declared' named' ih =>
    obtain ⟨u, outer, h⟩ := ih
    rw [h.kind] at kind
    -- the key is declared before, so it is this declaration that is found behind
    obtain ⟨field, v, declared, named⟩ := fits _ _ _ outer _ _ _ rfl kind mem
    rw [h.inputField? declared] at declared'
    cases declared'
    obtain ⟨v', named'', h'⟩ := growth.lastType?_grown named
    rw [named'] at named''
    cases named''
    exact ⟨v, .member outer kind mem declared named, h'⟩

/-- **Selections stand where they stood**, in types that have grown. -/
theorem Stands.grown {t : TypeDefinition} {sel : Selection} (stands : Stands s doc t sel) :
    ∃ t', Stands s' doc t' sel ∧ t.Grows t' := by
  induction stands with
  | operation definition named type selected =>
    obtain ⟨t', type', h⟩ := growth.lastType?_grown type
    exact ⟨t', .operation definition ((growth.rootName? _).trans named) type' selected, h⟩
  | fragment definition type selected =>
    obtain ⟨t', type', h⟩ := growth.lastType?_grown type
    exact ⟨t', .fragment definition type' selected, h⟩
  | nested _ ordinary declared type selected ih =>
    obtain ⟨t', outer, h⟩ := ih
    obtain ⟨u', type', h'⟩ := growth.lastType?_grown type
    exact ⟨u', .nested outer ordinary (h.field? declared) type' selected, h'⟩
  | conditional _ type selected ih =>
    obtain ⟨_, outer, -⟩ := ih
    obtain ⟨u', type', h'⟩ := growth.lastType?_grown type
    exact ⟨u', .conditional outer type' selected, h'⟩
  | unconditional _ selected ih =>
    obtain ⟨t', outer, h⟩ := ih
    exact ⟨t', .unconditional outer selected, h⟩

/-- In a document that resolves, selections stand nowhere else. -/
theorem Stands.origin (resolves : Resolves s strategy doc) {t' : TypeDefinition} {sel : Selection}
    (stands : Stands s' doc t' sel) : ∃ t, Stands s doc t sel ∧ t.Grows t' := by
  induction stands with
  | operation definition named' type' selected =>
    obtain ⟨t, type, h⟩ := growth.lastType?_origin type'
    exact ⟨t, .operation definition ((growth.rootName? _).symm.trans named') type selected, h⟩
  | fragment definition type' selected =>
    obtain ⟨t, type, h⟩ := growth.lastType?_origin type'
    exact ⟨t, .fragment definition type selected, h⟩
  | nested _ ordinary declared' type' selected ih =>
    obtain ⟨t, outer, h⟩ := ih
    -- a field that only the grown type declares would not have resolved before
    obtain ⟨field, declared, -⟩ := resolves.selections _ _ outer ordinary
    rw [h.field? declared] at declared'
    cases declared'
    obtain ⟨u, type, h'⟩ := growth.lastType?_origin type'
    exact ⟨u, .nested outer ordinary declared type selected, h'⟩
  | conditional _ type' selected ih =>
    obtain ⟨_, outer, -⟩ := ih
    obtain ⟨u, type, h'⟩ := growth.lastType?_origin type'
    exact ⟨u, .conditional outer type selected, h'⟩
  | unconditional _ selected ih =>
    obtain ⟨t, outer, h⟩ := ih
    exact ⟨t, .unconditional outer selected, h⟩

theorem WrittenAt.origin (resolves : Resolves s strategy doc) {u' : TypeDefinition} {held : Held}
    {part : Value} :
    WrittenAt s' doc u' held part → ∃ u, WrittenAt s doc u held part ∧ u.Grows u'
  | .argument stands' ordinary declared' given argument_declared' named' position' => by
    obtain ⟨t, stands, h⟩ := stands'.origin growth resolves
    obtain ⟨field, declared, arguments, -⟩ := resolves.selections _ _ stands ordinary
    rw [h.field? declared] at declared'
    cases declared'
    obtain ⟨argument, type, argument_declared, named, fits⟩ := arguments _ given
    rw [argument_declared] at argument_declared'
    cases argument_declared'
    obtain ⟨type', named'', h'⟩ := growth.lastType?_grown named
    rw [named'] at named''
    cases named''
    obtain ⟨u, position, h''⟩ := position'.origin growth h' fits
    exact ⟨u, .argument stands ordinary declared given argument_declared named position, h''⟩

/-- Enum literals stand at enums that declare them, also where these have grown. -/
theorem EnumsDeclared.grown (resolves : Resolves s strategy doc) (enums : EnumsDeclared s doc) :
    EnumsDeclared s' doc := by
  intro u' held name written'
  obtain ⟨u, written, h⟩ := written'.origin growth resolves
  obtain ⟨values, body, value, mem, named⟩ := enums u held name written
  obtain ⟨added, body'⟩ := enum_grown h body
  exact ⟨_, body', value, List.mem_append_left _ mem, named⟩

/-! ## Uses -/

theorem SelectionGives.grown {t t' : TypeDefinition} (h : t.Grows t') {sel : Selection} {m : Mark}
    (gives : SelectionGives s strategy t sel m) : SelectionGives s' strategy t' sel m := by
  cases gives with
  | names gives => exact .names (gives.grown h)
  | value ordinary declared given gives =>
    obtain ⟨argument, type, u, held, part, argument_declared, named, position, gives⟩ := gives
    obtain ⟨type', named', h'⟩ := growth.lastType?_grown named
    obtain ⟨u', position', h''⟩ := position.grown growth h'
    exact .value ordinary (h.field? declared) given
      ⟨argument, type', u', held, part, argument_declared, named', position', gives.grown h''⟩

theorem VariableGives.grown {v : VariableDefinition} {m : Mark}
    (gives : VariableGives s strategy v m) : VariableGives s' strategy v m := by
  cases strategy with
  | wholeTypes => exact gives
  | fromValues values =>
    obtain ⟨t, u, part, type, position, gives⟩ := gives
    obtain ⟨t', type', h⟩ := growth.firstType?_grown type
    obtain ⟨u', position', h'⟩ := position.grown growth h
    exact ⟨t', u', part, type', position', gives.grown h'⟩

/-- **What is used is still used** in a schema that has grown. -/
theorem Uses.grown {m : Mark} (used : Uses s strategy doc m) : Uses s' strategy doc m := by
  cases used with
  | selection stands gives =>
    obtain ⟨t', stands', h⟩ := stands.grown growth
    exact .selection stands' (gives.grown growth h)
  | var definition declared gives => exact .var definition declared (gives.grown growth)

end Positions

/-! ## Definitions that are looked up -/

/-- All fields have types that are defined. -/
def FieldTypesDefined (s : Schema) : Prop :=
  ∀ t ∈ s.types, ∀ name ∈ fieldTypes t, (s.firstType? name).isSome = true

instance (s : Schema) : Decidable (FieldTypesDefined s) :=
  inferInstanceAs (Decidable
    (∀ t ∈ s.types, ∀ name ∈ fieldTypes t, (s.firstType? name).isSome = true))

theorem FieldTypesDefined.exists_firstType? (defined : FieldTypesDefined s) {t : TypeDefinition}
    (mem : t ∈ s.types) {field type : String} (declared : Declares t field type) :
    ∃ u, s.firstType? type = some u :=
  Option.isSome_iff_exists.mp (defined t mem type (mem_fieldTypes.mpr ⟨field, declared⟩))

section Definitions

variable (growth : s.Grows s')

include growth

theorem ValueFits.grown {u u' : TypeDefinition} (h : u.Grows u') {part : Value}
    (fits : ValueFits s u part) : ValueFits s' u' part := by
  intro members name value same kind mem
  obtain ⟨field, v, declared, named⟩ := fits members name value same (h.kind ▸ kind) mem
  obtain ⟨v', named', -⟩ := growth.lastType?_grown named
  exact ⟨field, v', h.inputField? declared, named'⟩

theorem ArgumentFits.grown {field : FieldDefinition} {arg : String × Value}
    (fits : ArgumentFits s field arg) : ArgumentFits s' field arg := by
  obtain ⟨argument, t, declared, named, fits⟩ := fits
  obtain ⟨t', named', h⟩ := growth.lastType?_grown named
  refine ⟨argument, t', declared, named', fun u' held part position' => ?_⟩
  obtain ⟨u, position, h'⟩ := position'.origin growth h fits
  exact (fits u held part position).grown growth h'

theorem SelectionFits.grown {t t' : TypeDefinition} (h : t.Grows t') :
    ∀ {sel : Selection}, SelectionFits s t sel → SelectionFits s' t' sel
  | .field _ name args _ selections, fits => fun ordinary => by
    obtain ⟨field, declared, arguments, nested⟩ := fits ordinary
    refine ⟨field, h.field? declared, fun arg given => (arguments arg given).grown growth,
      fun some => ?_⟩
    obtain ⟨u, type⟩ := nested some
    obtain ⟨u', type', -⟩ := growth.lastType?_grown type
    exact ⟨u', type'⟩
  | .spread _ _, _ => trivial
  | .inline (some condition) _ _, ⟨_, type⟩ =>
    let ⟨u', type', _⟩ := growth.lastType?_grown type
    ⟨u', type'⟩
  | .inline none _ _, _ => trivial

theorem VariableFits.grown (defined : FieldTypesDefined s') {v : VariableDefinition}
    (fits : VariableFits s strategy v) : VariableFits s' strategy v := by
  cases strategy with
  | wholeTypes => trivial
  | fromValues values =>
    obtain ⟨t, type, -⟩ := fits
    obtain ⟨t', type', -⟩ := growth.firstType?_grown type
    refine ⟨t', type', fun u part position members name value field _ _ _ key => ?_⟩
    have named : s'.firstType? u.name = some u := (reaches_of_dataAt type' position).2
    exact defined.exists_firstType? (Schema.firstType?_mem named).1 (declares_of_inputField? key)

/-- **What resolves still does** in a schema that has grown. -/
theorem Resolves.grown (defined : FieldTypesDefined s') (resolves : Resolves s strategy doc) :
    Resolves s' strategy doc where
  roots op definition := by
    obtain ⟨root, t, named, type⟩ := resolves.roots op definition
    obtain ⟨t', type', -⟩ := growth.lastType?_grown type
    exact ⟨root, t', (growth.rootName? _).trans named, type'⟩
  conditions frag definition := by
    obtain ⟨t, type⟩ := resolves.conditions frag definition
    obtain ⟨t', type', -⟩ := growth.lastType?_grown type
    exact ⟨t', type'⟩
  selections t' sel stands' := by
    obtain ⟨t, stands, h⟩ := stands'.origin growth resolves
    exact (resolves.selections t sel stands).grown growth h
  vars op definition v declared := (resolves.vars op definition v declared).grown growth defined

end Definitions

/-! ## Types in reach -/

theorem exists_firstType?_of_mem {t : TypeDefinition} (mem : t ∈ s.types) :
    ∃ u, s.firstType? t.name = some u := by
  cases found : s.firstType? t.name with
  | none => exact absurd rfl (Schema.firstType?_eq_none_iff.mp found t mem)
  | some u => exact ⟨u, rfl⟩

/-- Types that are used as a whole by what is written, or by what is supplied, are defined. -/
theorem exists_of_uses_whole {start : String} (vars : ∀ op, .operation op ∈ doc →
      ∀ v ∈ op.variableList, ∃ t, s.firstType? v.type.innerName = some t)
    (whole : Uses s strategy doc (.whole start)) : ∃ t, s.firstType? start = some t := by
  cases whole with
  | selection stands gives =>
    obtain ⟨_, same, -⟩ | ⟨u, held, part, written, gives⟩ := gives.cases_written stands
    · cases same
    · have named : ∃ t, s.firstType? u.name = some t := exists_firstType?_of_mem written.mem_types
      cases gives <;> exact named
  | var definition declared gives =>
    obtain ⟨t, type⟩ := vars _ definition _ declared
    cases strategy with
    | wholeTypes =>
      cases gives
      exact ⟨t, type⟩
    | fromValues values =>
      obtain ⟨t, u, part, type, position, gives⟩ := gives
      cases gives
      exact ⟨u, (reaches_of_dataAt type position).2⟩

/-- Where all fields have defined types, what is in reach of defined types is defined. -/
theorem reachDefined_of_starts {marked : Mark → Prop} (defined : FieldTypesDefined s)
    (starts : ∀ start, marked (.whole start) → ∃ t, s.firstType? start = some t) :
    ReachDefined s marked := by
  rintro name ⟨start, whole, reaches⟩
  cases reaches with
  | refl => exact starts name whole
  | field _ type declared => exact defined.exists_firstType? (Schema.firstType?_mem type).1 declared

/-- Variables have defined types in a document that has a usage. -/
theorem exists_variable_type (resolves : Resolves s strategy doc)
    (reached : ReachDefined s (Uses s strategy doc)) {op : Operation}
    (definition : .operation op ∈ doc) {v : VariableDefinition} (declared : v ∈ op.variableList) :
    ∃ t, s.firstType? v.type.innerName = some t := by
  cases strategy with
  | wholeTypes => exact reached _ ⟨_, .var definition declared rfl, .refl _⟩
  | fromValues values =>
    obtain ⟨t, type, -⟩ := resolves.vars op definition v declared
    exact ⟨t, type⟩

/-! ## Usages -/

/-- More marks denote more in a schema that has grown. The types that are marked as a whole hide
only what they contribute. -/
theorem Denotes.grown (growth : s.Grows s') {marked marked' : Mark → Prop}
    (within : ∀ m, marked m → marked' m) (contributed : FieldsContributed s' marked') {id : String}
    (denotes : Denotes s marked id) : Denotes s' marked' id := by
  rw [denotes_iff contributed]
  rcases denotes with used | ⟨type, field, used, -, rfl⟩ | ⟨name, t, reach, named, given⟩
  · exact .inl (within _ used)
  · exact .inr (.inl ⟨type, field, within _ used, rfl⟩)
  · obtain ⟨start, whole, reaches⟩ := reach
    obtain ⟨t', named', h⟩ := growth.firstType?_grown named
    exact .inr (.inr ⟨name, t', ⟨start, within _ whole, reaches.grown growth⟩, named',
      given.grown h⟩)

/-- A document that has a usage has one in a schema that has grown, and this holds no less. -/
theorem usage_grown (growth : s.Grows s') (distinct : (s'.types.map TypeDefinition.name).Nodup)
    (defined : FieldTypesDefined s') (enums : EnumsDeclared s doc ∨ EnumsDeclared s' doc)
    {ids : List String} (found : usage s strategy doc = .ok ids) :
    ∃ ids', usage s' strategy doc = .ok ids' ∧ ids ⊆ ids' := by
  have before : Exact (usage s strategy doc) _ _ := usage_exact doc
  have behind : Exact (usage s' strategy doc) _ _ := usage_exact doc
  obtain ⟨resolves, reached⟩ := before.ok_iff.mp ⟨ids, found⟩
  have resolves' : Resolves s' strategy doc := resolves.grown growth defined
  have reached' : ReachDefined s' (Uses s' strategy doc) :=
    reachDefined_of_starts defined fun start whole =>
      exists_of_uses_whole (fun op definition v declared => by
        obtain ⟨t, type⟩ := exists_variable_type resolves reached definition declared
        obtain ⟨t', type', -⟩ := growth.firstType?_grown type
        exact ⟨t', type'⟩) whole
  have enums' : EnumsDeclared s' doc := enums.elim (·.grown growth resolves) id
  obtain ⟨ids', found'⟩ := behind.ok_iff.mpr ⟨resolves', reached'⟩
  refine ⟨ids', found', fun id mem => (behind.mem_iff found' id).mpr ?_⟩
  exact ((before.mem_iff found id).mp mem).grown growth (fun _ used => used.grown growth)
    (fieldsContributed_uses distinct enums' resolves')

/-- **A schema may be extended**: a document that has a usage keeps it when further extensions of
types of the schema are added, if all fields of the extended schema have defined types. Extensions
of another kind than their type need not be excluded, since they are ignored. -/
theorem usage_extended (distinct : (s.types.map TypeDefinition.name).Nodup)
    {added : List TypeExtension}
    (known : ∀ e ∈ added, ∃ t ∈ s.types, t.name = e.name)
    (defined : FieldTypesDefined (Schema.prepare (s ++ added.map .extension)))
    (enums : EnumsDeclared s.prepare doc ∨
      EnumsDeclared (Schema.prepare (s ++ added.map .extension)) doc)
    {ids : List String} (found : usage s.prepare strategy doc = .ok ids) :
    ∃ ids', usage (Schema.prepare (s ++ added.map .extension)) strategy doc = .ok ids' ∧
      ids ⊆ ids' := by
  have growth : s.prepare.Grows (Schema.prepare (s ++ added.map .extension)) :=
    Schema.grows_prepare distinct known
  refine usage_grown growth ?_ defined enums found
  rw [growth.typeNames]
  exact Schema.nodup_prepare distinct

/-! ## A schema with two usages -/

/-- Extensions of `sideSchema`: more keys, one of which takes sides, and another side. -/
def sideExtensions : List TypeExtension :=
  [⟨"Filter", [], .inputObject [⟨none, "name", .named "String", none, []⟩,
      ⟨none, "sides", .list (.named "Side"), none, []⟩]⟩,
    ⟨"Side", [], .enum [⟨none, "GREY", []⟩]⟩]

/-- Values for `sideDocument` with the keys of `sideExtensions`. -/
def sideValues : VariableValues :=
  [("f", .obj [("id", .str "1"), ("name", .str "Leia"), ("sides", .arr [.str "LIGHT"])])]

/-- The marks of `sideDocument` with `sideValues`, by `sideSchema`. -/
def sideValueMarks : List Mark :=
  [.field "Filter" "id", .whole "ID", .identifier "Query.hero", .identifier "Query.hero.filter",
    .identifier "Query.hero.side", .field "Side" "DARK"]

/-- Two keys become known, and by one of them a whole type hides the enum literal. -/
theorem usage_extended_sides :
    usage sideSchema.prepare (.fromValues sideValues) sideDocument = .ok sideUsage ∧
      ∃ ids', usage (Schema.prepare (sideSchema ++ sideExtensions.map .extension))
        (.fromValues sideValues) sideDocument = .ok ids' ∧ sideUsage ⊆ ids' := by
  have found : usage sideSchema.prepare (.fromValues sideValues) sideDocument = .ok sideUsage :=
    usage_eq_ok.mpr ⟨sideValueMarks, _, rfl, by cbv,
      (ascending_eq (by decide) (by decide) (by decide)).symm⟩
  have enums : EnumsDeclared sideSchema.prepare sideDocument :=
    enumsDeclared_of_side rfl ⟨_, rfl, rfl⟩ rfl
  exact ⟨found, @usage_extended sideSchema (.fromValues sideValues) sideDocument (by decide)
    sideExtensions (by decide) (by decide) (.inl enums) _ found⟩

end SchemaUsage.Usage

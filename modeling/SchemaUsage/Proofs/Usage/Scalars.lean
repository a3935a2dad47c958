import SchemaUsage.Proofs.Usage.Agreement
import SchemaUsage.Proofs.Usage.Precision
import SchemaUsage.Usage.Sole

/-!
# Custom scalars are used as a whole, or by an enum literal

About `walk_argument` at custom scalars. A literal without variables that is supplied for a scalar
marks the scalar as a whole, whatever it is, with two exceptions: an enum literal by itself marks
that value of the scalar, as it would of an enum, and lists count by what is in them, so a list that
holds nothing marks nothing.

* `Frames` says that a larger part of a document gives what a smaller one gives, and besides that
  nothing but names and keys of types that are no scalars.

Results:
- `valueGivesSome_scalar`: what a literal gives to a scalar.
- `Sole.frames`: a document that consists of a use gives what the literal gives.
- `usage_sole_scalar`: the identifiers of the scalar in the usage of such a document.
- `scalar_without_bare_name`: an empty list and an enum literal that do not report the scalar.
-/

namespace SchemaUsage.Usage

open Relation
open SchemaUsage.Graphql

variable {s : Schema} {strategy : Strategy} {t : TypeDefinition}

/-! ## Literals for scalars -/

/-- Nothing that stands at a type without keys can miss a key. -/
theorem valueFitsAll_keyless (kind : t.kind ≠ .inputObject) (held : Held) (value : Value) :
    ValueFitsAll s ⟨t, held, value⟩ := by
  intro place path
  have same : place.type = t := by
    induction path with
    | refl => rfl
    | tail _ part ih =>
      cases part with
      | item => exact ih
      | member kind' => exact absurd (ih ▸ kind') kind
  intro _ _ _ _ kind'
  exact absurd (same ▸ kind') kind

/-- **An item gives the whole type**, unless there is nothing in it. -/
theorem valueGivesSome_item (kind : t.kind ≠ .inputObject) (m : Mark) :
    ∀ value : Value, ValueGivesSome s strategy m ⟨t, .item, value⟩ ↔
      m = .whole t.name ∧ isHollow value = false
  | .list items => by
    -- Items of items stand at the same type, so the recursion is on the value alone.
    have each : ∀ item ∈ items, (ValueGivesSome s strategy m ⟨t, .item, item⟩ ↔
        m = .whole t.name ∧ isHollow item = false) :=
      fun item _ => valueGivesSome_item kind m item
    rw [valueGivesSome_list, isHollow, eachHollow_eq, List.all_eq_false]
    constructor
    · rintro ⟨item, mem, gives⟩
      obtain ⟨whole, solid⟩ := (each item mem).mp gives
      exact ⟨whole, item, mem, by simp [solid]⟩
    · rintro ⟨whole, item, mem, solid⟩
      exact ⟨item, mem, (each item mem).mpr ⟨whole, by simpa using solid⟩⟩
  | .object members => by
    rw [valueGivesSome_foreign kind]
    simp [isHollow]
  | .var _ | .int _ | .float _ | .string _ | .boolean _ | .null | .enum _ => by
    rw [valueGivesSome_leaf rfl, valueGives_item rfl]
    simp [isHollow]
termination_by value => sizeOf value

/-- **What a literal gives to a scalar**: the whole type, unless there is nothing in it, or the
value of an enum literal. -/
theorem valueGivesSome_scalar (kind : t.kind ≠ .inputObject) {literal : Value}
    (ground : ∀ name, literal ≠ .var name) (m : Mark) :
    ValueGivesSome s strategy m ⟨t, .alone, literal⟩ ↔
      (m = .whole t.name ∧ isHollow literal = false ∧ ∀ name, literal ≠ .enum name) ∨
        ∃ name, literal = .enum name ∧ m = .field t.name name := by
  cases literal with
  | var name => exact absurd rfl (ground name)
  | enum name =>
    rw [valueGivesSome_leaf rfl, ← mem_directMarks rfl, directMarks, List.mem_singleton]
    simp
  | list items =>
    have same : ValueGivesSome s strategy m ⟨t, .alone, .list items⟩ ↔
        ValueGivesSome s strategy m ⟨t, .item, .list items⟩ := by
      rw [valueGivesSome_list, valueGivesSome_list]
    rw [same, valueGivesSome_item kind]
    simp
  | object members =>
    rw [valueGivesSome_foreign kind]
    simp [isHollow]
  | _ =>
    rw [valueGivesSome_leaf rfl, valueGives_literal rfl]
    simp [isHollow]

/-! ## Frames -/

/-- **What stands around the use of a scalar**: names and keys of types that are no scalars. -/
inductive Around (s : Schema) : Mark → Prop where
  | named {u : TypeDefinition} (mem : u ∈ s.types) (kind : u.kind ≠ .scalar) (name : String) :
      Around s (.identifier (fieldId u.name name))
  | key {u : TypeDefinition} (mem : u ∈ s.types) (kind : u.kind ≠ .scalar) (name : String) :
      Around s (.field u.name name)

/-- **A larger part frames a smaller one**: it gives what the smaller one gives, and besides that
nothing but what stands around it. -/
structure Frames (s : Schema) (inner outer : Mark → Prop) : Prop where
  gives : ∀ m, inner m → outer m
  only : ∀ m, outer m → inner m ∨ Around s m

namespace Frames

variable {inner outer other : Mark → Prop}

theorem refl (inner : Mark → Prop) : Frames s inner inner := ⟨fun _ => id, fun _ => .inl⟩

theorem congr (h : Frames s inner outer) (same : ∀ m, other m ↔ outer m) :
    Frames s inner other where
  gives m given := (same m).mpr (h.gives m given)
  only m given := h.only m ((same m).mp given)

/-- One layer more. -/
theorem layer (h : Frames s inner outer) (extra : Mark → Prop)
    (same : ∀ m, other m ↔ extra m ∨ outer m) (around : ∀ m, extra m → Around s m) :
    Frames s inner other where
  gives m given := (same m).mpr (.inr (h.gives m given))
  only m given := ((same m).mp given).elim (fun more => .inr (around m more)) (h.only m)

end Frames

/-! ## The way to the literal -/

variable {literal : Value}

/-- What a literal gives by itself. -/
abbrev LiteralGives (s : Schema) (strategy : Strategy) (t : TypeDefinition) (literal : Value)
    (m : Mark) : Prop :=
  ValueGivesSome s strategy m ⟨t, .alone, literal⟩

theorem Holds.fits (kind : t.kind = .scalar) {u : TypeDefinition} {value : Value}
    (holds : Holds s t literal u value) (held : Held) : ValueFitsAll s ⟨u, held, value⟩ := by
  induction holds generalizing held with
  | here => exact valueFitsAll_keyless (by simp [kind]) held literal
  | key kind' declared named _ ih =>
    rw [valueFitsAll_object kind', List.forall_mem_singleton]
    exact ⟨_, _, declared, named, ih .alone⟩
  | item _ _ ih =>
    rw [valueFitsAll_list, List.forall_mem_singleton]
    exact ih .item

/-- A literal is held by itself, as no list of the way is one of scalars. -/
theorem Holds.frames (kind : t.kind = .scalar) {u : TypeDefinition} {value : Value}
    (holds : Holds s t literal u value) (mem : u ∈ s.types) (held : Held)
    (alone : u.kind ≠ .inputObject → held = .alone) :
    Frames s (LiteralGives s strategy t literal)
      fun m => ValueGivesSome s strategy m ⟨u, held, value⟩ := by
  induction holds generalizing held with
  | here =>
    rw [alone (by simp [kind])]
    exact .refl _
  | @key u w name value field kind' declared named _ ih =>
    refine (ih (Schema.lastType?_mem named).1 .alone fun _ => rfl).layer
      (fun m => m = .field u.name name) (fun m => ?_) ?_
    · rw [valueGivesSome_object kind']
      simp [KeyGives, declared, named]
    · rintro _ rfl
      exact .key mem (by simp [kind']) name
  | item kind' _ ih =>
    refine (ih mem .item fun other => absurd kind' other).congr fun m => ?_
    rw [valueGivesSome_list]
    simp

/-- What has fields is no scalar. -/
theorem not_scalar_of_field? {u : TypeDefinition} {name : String} {field : FieldDefinition}
    (declared : u.field? name = some field) : u.kind ≠ .scalar := by
  rcases TypeDefinition.kind_of_field? declared with kind | kind <;> simp [kind]

theorem typename_mem : "__typename" ∈ metaFields := by simp [metaFields]

theorem Bare.fits {field : FieldDefinition} {selections : List Selection}
    (bare : Bare s field selections) : NestedFits s field selections := by
  cases bare with
  | nothing => simp [NestedFits]
  | typename named _ =>
    rw [nestedFits_iff named, List.forall_mem_singleton]
    exact selectionFitsAll_meta typename_mem

theorem Bare.around {field : FieldDefinition} {selections : List Selection}
    (bare : Bare s field selections) {m : Mark}
    (gives : NestedGives s strategy field selections m) : Around s m := by
  obtain ⟨u, named, sel, selected, gives⟩ := gives
  cases bare with
  | nothing => cases selected
  | typename named' kind =>
    cases named.symm.trans named'
    cases List.mem_singleton.mp selected
    obtain ⟨-, rfl⟩ := (selectionGivesSome_meta typename_mem m).mp gives
    exact .named (Schema.lastType?_mem named).1 kind _

theorem Selects.fits (kind : t.kind = .scalar) {u : TypeDefinition} {sel : Selection}
    (selects : Selects s t literal u sel) : SelectionFitsAll s (u, sel) := by
  induction selects with
  | argument ordinary declared takes named holds bare =>
    rw [selectionFitsAll_field ordinary]
    refine ⟨_, declared, List.forall_mem_singleton.mpr ?_, bare.fits⟩
    exact (argumentFits_iff takes named _).mpr (holds.fits kind .alone)
  | nested ordinary declared named _ ih =>
    rw [selectionFitsAll_field ordinary]
    refine ⟨_, declared, by simp, ?_⟩
    rw [nestedFits_iff named, List.forall_mem_singleton]
    exact ih
  | conditional named _ ih =>
    rw [selectionFitsAll_conditional]
    exact ⟨_, named, List.forall_mem_singleton.mpr ih⟩
  | unconditional _ ih =>
    rw [selectionFitsAll_unconditional]
    exact List.forall_mem_singleton.mpr ih

theorem Selects.frames (kind : t.kind = .scalar) {u : TypeDefinition} {sel : Selection}
    (selects : Selects s t literal u sel) (mem : u ∈ s.types) :
    Frames s (LiteralGives s strategy t literal)
      fun m => SelectionGivesSome s strategy m (u, sel) := by
  induction selects with
  | @argument u w _ name key value _ selections field _ ordinary declared takes named holds bare =>
    have value : Frames s (LiteralGives s strategy t literal) _ :=
      holds.frames kind (Schema.lastType?_mem named).1 .alone fun _ => rfl
    refine value.layer (fun m => m = .identifier (fieldId u.name name) ∨
      m = .identifier (argumentId u.name field.name key) ∨
      NestedGives s strategy field selections m) (fun m => ?_) ?_
    · rw [selectionGivesSome_field ordinary declared]
      simp only [List.mem_singleton, exists_eq_left, argumentGives_iff takes named]
      tauto
    · have around := not_scalar_of_field? declared
      rintro _ (rfl | rfl | gives)
      · exact .named mem around name
      · rw [argumentId_eq]
        exact .named mem around _
      · exact bare.around gives
  | @nested u w _ name _ sel field ordinary declared named _ ih =>
    refine (ih (Schema.lastType?_mem named).1).layer
      (fun m => m = .identifier (fieldId u.name name)) (fun m => ?_) ?_
    · rw [selectionGivesSome_field ordinary declared]
      simp [NestedGives, named]
    · rintro _ rfl
      exact .named mem (not_scalar_of_field? declared) name
  | conditional named _ ih =>
    refine (ih (Schema.lastType?_mem named).1).congr fun m => ?_
    rw [selectionGivesSome_conditional]
    simp [named]
  | unconditional _ ih =>
    refine (ih mem).congr fun m => ?_
    rw [selectionGivesSome_unconditional]
    simp

/-! ## Documents -/

variable {doc : Document}

theorem Sole.resolves (kind : t.kind = .scalar) (sole : Sole s t literal doc) :
    Resolves s strategy doc := by
  rw [resolves_iff]
  cases sole with
  | operation vars rooted named selections selects =>
    rw [List.forall_mem_singleton, DefinitionFits, vars, selections]
    exact ⟨by simp, _, ⟨_, rooted, named⟩, List.forall_mem_singleton.mpr (selects.fits kind)⟩
  | fragment named selections selects =>
    rw [List.forall_mem_singleton, DefinitionFits, selections]
    exact ⟨_, named, List.forall_mem_singleton.mpr (selects.fits kind)⟩

/-- **A document that consists of a use gives what the literal gives.** -/
theorem Sole.frames (kind : t.kind = .scalar) (sole : Sole s t literal doc) :
    Frames s (LiteralGives s strategy t literal) (Uses s strategy doc) := by
  cases sole with
  | operation vars rooted named selections selects =>
    refine (selects.frames kind (Schema.lastType?_mem named).1).congr fun m => ?_
    simp [uses_iff, DefinitionGives, vars, selections, rooted, named]
  | fragment named selections selects =>
    refine (selects.frames kind (Schema.lastType?_mem named).1).congr fun m => ?_
    simp [uses_iff, DefinitionGives, selections, named]

/-! ## The type of the literal -/

theorem Holds.mem_types {u : TypeDefinition} {value : Value} (holds : Holds s t literal u value)
    (mem : u ∈ s.types) : t ∈ s.types := by
  induction holds with
  | here => exact mem
  | key _ _ named _ ih => exact ih (Schema.lastType?_mem named).1
  | item _ _ ih => exact ih mem

theorem Selects.mem_types {u : TypeDefinition} {sel : Selection}
    (selects : Selects s t literal u sel) : t ∈ s.types := by
  induction selects with
  | argument _ _ _ named holds _ => exact holds.mem_types (Schema.lastType?_mem named).1
  | nested _ _ _ _ ih => exact ih
  | conditional _ _ ih => exact ih
  | unconditional _ ih => exact ih

theorem Sole.mem_types (sole : Sole s t literal doc) : t ∈ s.types := by
  cases sole with
  | operation _ _ _ _ selects => exact selects.mem_types
  | fragment _ _ selects => exact selects.mem_types

section Scalar

variable (kind : t.kind = .scalar)

include kind

theorem body_scalar : t.body = .scalar := by
  unfold TypeDefinition.kind at kind
  cases body : t.body <;> rw [body] at kind <;> first | rfl | cases kind

/-- A scalar gives its name and nothing else. -/
theorem contributes_scalar {id : String} : Contributes t id ↔ id = t.name := by
  constructor
  · rintro (_ | ⟨body, _⟩ | ⟨body, _⟩ | ⟨body, _⟩ | ⟨body, _⟩)
    · rfl
    all_goals cases (body_scalar kind).symm.trans body
  · rintro rfl
    exact .scalar (body_scalar kind)

/-- A scalar reaches nothing but itself. -/
theorem eq_of_reaches_scalar (type : s.firstType? t.name = some t) {name : String}
    (reaches : Reaches s t.name name) : name = t.name := by
  induction reaches with
  | refl => rfl
  | field _ type' declared ih =>
    subst ih
    cases type.symm.trans type'
    rcases declared with ⟨body, _⟩ | ⟨body, _⟩ | ⟨body, _⟩ <;>
      cases (body_scalar kind).symm.trans body

/-- What a document that consists of a use marks as a whole. -/
theorem Sole.whole_iff (ground : ∀ name, literal ≠ .var name) (sole : Sole s t literal doc)
    (type : String) : Uses s strategy doc (.whole type) ↔
      type = t.name ∧ isHollow literal = false ∧ ∀ name, literal ≠ .enum name := by
  have keyless : t.kind ≠ .inputObject := by simp [kind]
  constructor
  · intro used
    rcases (sole.frames kind).only _ used with gives | around
    · rcases (valueGivesSome_scalar keyless ground _).mp gives with ⟨same, solid⟩ | ⟨_, _, same⟩
      · cases same
        exact ⟨rfl, solid⟩
      · cases same
    · cases around
  · rintro ⟨rfl, solid⟩
    exact (sole.frames kind).gives _
      ((valueGivesSome_scalar keyless ground _).mpr (.inl ⟨rfl, solid⟩))

/-- The identifiers in a document that consists of a use belong to types that are no scalars. -/
theorem Sole.identifier (ground : ∀ name, literal ≠ .var name) (sole : Sole s t literal doc)
    {id : String} (used : Uses s strategy doc (.identifier id)) :
    ∃ u ∈ s.types, u.kind ≠ .scalar ∧ ∃ name, id = fieldId u.name name := by
  have keyless : t.kind ≠ .inputObject := by simp [kind]
  rcases (sole.frames kind).only _ used with gives | around
  · rcases (valueGivesSome_scalar keyless ground _).mp gives with ⟨same, _⟩ | ⟨_, _, same⟩ <;>
      cases same
  · cases around with
    | named mem other name => exact ⟨_, mem, other, name, rfl⟩

/-- The fields that are marked are keys of types that are no scalars, or the value of an enum
literal. -/
theorem Sole.field (ground : ∀ name, literal ≠ .var name) (sole : Sole s t literal doc)
    {type field : String} (used : Uses s strategy doc (.field type field)) :
    (type = t.name ∧ literal = .enum field) ∨ ∃ u ∈ s.types, u.kind ≠ .scalar ∧ type = u.name := by
  have keyless : t.kind ≠ .inputObject := by simp [kind]
  rcases (sole.frames kind).only _ used with gives | around
  · rcases (valueGivesSome_scalar keyless ground _).mp gives with ⟨same, _⟩ | ⟨_, rfl, same⟩
    · cases same
    · cases same
      exact .inl ⟨rfl, rfl⟩
  · cases around with
    | key mem other _ => exact .inr ⟨_, mem, other, rfl⟩

/-- Nothing but the scalar is in reach of what a document that consists of a use marks as a
whole. -/
theorem Sole.inReach (ground : ∀ name, literal ≠ .var name) (sole : Sole s t literal doc)
    (type : s.firstType? t.name = some t) {name : String}
    (reached : InReach s (Uses s strategy doc) name) :
    name = t.name ∧ isHollow literal = false ∧ ∀ name, literal ≠ .enum name := by
  obtain ⟨start, used, reaches⟩ := reached
  obtain ⟨rfl, solid⟩ := (sole.whole_iff kind ground start).mp used
  exact ⟨eq_of_reaches_scalar kind type reaches, solid⟩

/-- The bare name of the scalar stands for its use as a whole. -/
theorem Sole.denotes_name_iff (ground : ∀ name, literal ≠ .var name)
    (sole : Sole s t literal doc) (type : s.firstType? t.name = some t)
    (undotted : Undotted t.name) : Denotes s (Uses s strategy doc) t.name ↔
      isHollow literal = false ∧ ∀ name, literal ≠ .enum name := by
  constructor
  · rintro (used | ⟨_, _, _, _, same⟩ | ⟨_, _, reached, _, _⟩)
    · obtain ⟨u, _, _, name, same⟩ := sole.identifier kind ground used
      exact absurd (same ▸ undotted) (not_undotted_fieldId _ _)
    · exact absurd (same ▸ undotted) (not_undotted_fieldId _ _)
    · exact (sole.inReach kind ground type reached).2
  · intro solid
    have whole : Uses s strategy doc (.whole t.name) :=
      (sole.whole_iff kind ground _).mpr ⟨rfl, solid⟩
    exact .inr (.inr ⟨t.name, t, ⟨t.name, whole, .refl _⟩, type, (contributes_scalar kind).mpr rfl⟩)

/-- An identifier of a value of the scalar stands for an enum literal. -/
theorem Sole.denotes_value_iff (ground : ∀ name, literal ≠ .var name)
    (sole : Sole s t literal doc) (distinct : (s.types.map TypeDefinition.name).Nodup)
    (undotted : ∀ u ∈ s.types, Undotted u.name) (name : String) :
    Denotes s (Uses s strategy doc) (fieldId t.name name) ↔ literal = .enum name := by
  have mem := sole.mem_types
  have type : s.firstType? t.name = some t := firstType?_of_mem distinct mem
  -- Names hold no dots, so an identifier of another type is none of the scalar.
  have apart {u : TypeDefinition} {field : String} (mem' : u ∈ s.types)
      (other : u.kind ≠ .scalar) : fieldId t.name name ≠ fieldId u.name field := by
    intro same
    obtain ⟨rfl, -⟩ := eq_of_fieldId distinct undotted mem mem' same
    exact other kind
  constructor
  · rintro (used | ⟨_, _, used, _, same⟩ | ⟨_, u, reached, type', given⟩)
    · obtain ⟨u, mem', other, _, same⟩ := sole.identifier kind ground used
      exact absurd same (apart mem' other)
    · rcases sole.field kind ground used with ⟨rfl, enum⟩ | ⟨u, mem', other, rfl⟩
      · rw [identifier_injective_right same]
        exact enum
      · exact absurd same (apart mem' other)
    · rw [(sole.inReach kind ground type reached).1, type] at type'
      cases type'
      have same := (contributes_scalar kind).mp given
      exact absurd (same ▸ undotted t mem) (not_undotted_fieldId _ _)
  · rintro rfl
    have value : Uses s strategy doc (.field t.name name) := (sole.frames kind).gives _
      ((valueGivesSome_scalar (by simp [kind]) ground _).mpr (.inr ⟨name, rfl, rfl⟩))
    refine .inr (.inl ⟨t.name, name, value, fun whole => ?_, rfl⟩)
    exact ((sole.whole_iff kind ground _).mp whole).2.2 name rfl

end Scalar

/-- **A custom scalar is used as a whole, or by an enum literal.** A document that consists of the
use of a literal at a scalar, with no variable by itself, has a usage. It holds the bare name of the
scalar unless the literal is an enum literal or a list with nothing in it, and it holds an
identifier of a value of the scalar if and only if the literal is this enum value. -/
theorem usage_sole_scalar (distinct : (s.types.map TypeDefinition.name).Nodup)
    (undotted : ∀ u ∈ s.types, Undotted u.name) (kind : t.kind = .scalar)
    (ground : ∀ name, literal ≠ .var name) (sole : Sole s t literal doc) (strategy : Strategy) :
    ∃ ids, usage s strategy doc = .ok ids ∧
      (t.name ∈ ids ↔ isHollow literal = false ∧ ∀ name, literal ≠ .enum name) ∧
      ∀ name, fieldId t.name name ∈ ids ↔ literal = .enum name := by
  have type : s.firstType? t.name = some t := firstType?_of_mem distinct sole.mem_types
  have defined : ReachDefined s (Uses s strategy doc) := fun name reached =>
    ⟨t, (sole.inReach kind ground type reached).1 ▸ type⟩
  have meaning : Exact (usage s strategy doc) _ _ := usage_exact doc
  obtain ⟨ids, found⟩ := meaning.ok_iff.mpr ⟨sole.resolves kind, defined⟩
  refine ⟨ids, found, ?_, fun name => ?_⟩
  · rw [meaning.mem_iff found,
      sole.denotes_name_iff kind ground type (undotted t sole.mem_types)]
  · rw [meaning.mem_iff found, sole.denotes_value_iff kind ground distinct undotted]

/-- A scalar for any data. -/
def jsonScalar : TypeDefinition := ⟨none, "JSON", [], .scalar⟩

/-- An input object with data in it. -/
def dataInput : TypeDefinition :=
  ⟨none, "Filter", [], .inputObject [⟨none, "data", .named "JSON", none, []⟩,
    ⟨none, "not", .named "Filter", none, []⟩]⟩

/-- A field that takes data, by itself or in an input object. -/
def findField : FieldDefinition :=
  ⟨none, "find", [⟨none, "by", .list (.named "Filter"), none, []⟩,
    ⟨none, "data", .named "JSON", none, []⟩], .named "Query", []⟩

/-- The root type with a field that takes data. -/
def findRoot : TypeDefinition := ⟨none, "Query", [], .object [] [findField]⟩

/-- A schema with a field that takes data. -/
def findSchema : Schema :=
  Schema.prepare [.type findRoot, .type dataInput, .type jsonScalar]

/-- Data in a list beside an empty list. -/
def listedData : Value := .list [.list [], .object [("a", .enum "RED")]]

/-- A document that supplies `listedData` in nested input objects. -/
def findByDocument : Document :=
  [.operation (.shorthand [.inline (some "Query") [] [.field none "find"
    [("by", .list [.object [("not", .object [("data", listedData)])]])] []
    [.field none "__typename" [] [] []]]])]

/-- A document that supplies data by itself. -/
def findDocument (literal : Value) : Document :=
  [.operation (.shorthand [.field none "find" [("data", literal)] [] []])]

theorem rootName?_findSchema : findSchema.rootName? .query = some "Query" := rfl

theorem sole_findByDocument : Sole findSchema jsonScalar listedData findByDocument := by
  have named : findSchema.lastType? "Query" = some findRoot := rfl
  have input : findSchema.lastType? "Filter" = some dataInput := rfl
  have holds : Holds findSchema jsonScalar listedData dataInput
      (.list [.object [("not", .object [("data", listedData)])]]) :=
    .item rfl (.key rfl rfl input (.key rfl rfl rfl .here))
  exact .operation rfl rootName?_findSchema named rfl (.conditional named
    (.argument (by decide) rfl rfl input holds (.typename named (by decide))))

theorem sole_findDocument (literal : Value) :
    Sole findSchema jsonScalar literal (findDocument literal) :=
  .operation rfl rootName?_findSchema rfl rfl
    (.argument (by decide) rfl rfl rfl .here .nothing)

theorem undotted_findSchema : ∀ u ∈ findSchema.types, Undotted u.name := by decide

theorem usage_sole_scalar_findByDocument :
    (findSchema.types.map TypeDefinition.name).Nodup ∧
      Sole findSchema jsonScalar listedData findByDocument ∧
      ∃ ids, usage findSchema (.fromValues []) findByDocument = .ok ids ∧ "JSON" ∈ ids ∧
        ∀ name, fieldId "JSON" name ∉ ids := by
  have distinct : (findSchema.types.map TypeDefinition.name).Nodup := by decide
  obtain ⟨ids, found, bare, values⟩ := usage_sole_scalar distinct undotted_findSchema rfl
    (by simp [listedData]) sole_findByDocument (.fromValues [])
  refine ⟨distinct, sole_findByDocument, ids, found, bare.mpr ⟨rfl, by simp [listedData]⟩, ?_⟩
  exact fun name reported => by cases (values name).mp reported

/-- **Two uses of a scalar that do not report its bare name**: an empty list reports nothing of it,
an enum literal reports a value of it. -/
theorem scalar_without_bare_name :
    jsonScalar.kind = .scalar ∧ (findSchema.types.map TypeDefinition.name).Nodup ∧
      Sole findSchema jsonScalar (.list []) (findDocument (.list [])) ∧
      usage findSchema .wholeTypes (findDocument (.list [])) =
        .ok ["Query.find", "Query.find.data"] ∧
      Sole findSchema jsonScalar (.enum "RED") (findDocument (.enum "RED")) ∧
      usage findSchema .wholeTypes (findDocument (.enum "RED")) =
        .ok ["JSON.RED", "Query.find", "Query.find.data"] := by
  have empty : usage findSchema .wholeTypes (findDocument (.list [])) =
      .ok ["Query.find", "Query.find.data"] :=
    usage_eq_ok.mpr ⟨[.identifier "Query.find", .identifier "Query.find.data"], _, rfl, by cbv,
      (ascending_eq (by decide) (by decide) (by decide)).symm⟩
  have value : usage findSchema .wholeTypes (findDocument (.enum "RED")) =
      .ok ["JSON.RED", "Query.find", "Query.find.data"] :=
    usage_eq_ok.mpr ⟨[.identifier "Query.find", .identifier "Query.find.data",
      .field "JSON" "RED"], _, rfl, by cbv,
      (ascending_eq (by decide) (by decide) (by decide)).symm⟩
  exact ⟨rfl, by decide, sole_findDocument _, empty, sole_findDocument _, value⟩

end SchemaUsage.Usage

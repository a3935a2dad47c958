import SchemaUsage.Proofs.Usage.Growth

/-!
# What a supplied value marks

About `collect_value`. A value that is supplied for a type, or the lack of one, marks three things
and nothing else: the declared keys of the objects at input objects, the bare name of an input
object for which there is nothing or `null`, and each other type as a whole. Where all fields have
defined types, no value fails, so this holds of every type of a schema and of every value, however
its lists and objects nest and whichever types refer to each other.

* `SuppliedAt` are the positions of `DataAt`, and the one of a value that is missing.
* `SuppliedMark` tells what is marked there.

Results:
- `suppliedMark_iff`: a missing value marks what `null` does.
- `suppliedMarks_exact`: a supplied value marks what `SuppliedMark` tells, and nothing else.
-/

namespace SchemaUsage.Usage

open SchemaUsage.Graphql

variable {s : Schema}

/-! ## Positions -/

/-- **A part of what is supplied stands at a type**: a part of the value, or nothing where no value
is supplied. -/
inductive SuppliedAt (s : Schema) (type : TypeDefinition) :
    Option Json → TypeDefinition → Option Json → Prop where
  | nothing : SuppliedAt s type none type none
  | part {data part : Json} {u : TypeDefinition} (position : DataAt s type data u part) :
      SuppliedAt s type (some data) u (some part)

/-- **What is marked at the positions** of a value that is supplied for a type. -/
inductive SuppliedMark (s : Schema) (type : TypeDefinition) (value : Option Json) :
    Mark → Prop where
  | key {u : TypeDefinition} {members : List (String × Json)} {name : String} {data : Json}
      (position : SuppliedAt s type value u (some (.obj members))) (kind : u.kind = .inputObject)
      (mem : (name, data) ∈ members) (declared : (u.inputField? name).isSome) :
      SuppliedMark s type value (.field u.name name)
  | missing {u : TypeDefinition} {part : Option Json} (position : SuppliedAt s type value u part)
      (kind : u.kind = .inputObject) (absent : part = none ∨ part = some .null) :
      SuppliedMark s type value (.identifier u.name)
  | whole {u : TypeDefinition} {part : Option Json} (position : SuppliedAt s type value u part)
      (kind : u.kind ≠ .inputObject) : SuppliedMark s type value (.whole u.name)

theorem DataAt.mem_types {t u : TypeDefinition} {data part : Json} (mem : t ∈ s.types)
    (position : DataAt s t data u part) : u ∈ s.types := by
  induction position with
  | whole => exact mem
  | item _ _ ih => exact ih
  | member _ _ _ _ named _ => exact (Schema.firstType?_mem named).1

/-- Nothing stands inside of `null`. -/
theorem dataAt_null {t u : TypeDefinition} {part : Json} (position : DataAt s t .null u part) :
    u = t ∧ part = .null := by
  induction position with
  | whole => exact ⟨rfl, rfl⟩
  | item _ _ ih => cases ih.2
  | member _ _ _ _ _ ih => cases ih.2

/-! ## Marks -/

theorem suppliedMark_some_iff {t : TypeDefinition} {data : Json} {m : Mark} :
    SuppliedMark s t (some data) m ↔ ∃ u part, DataAt s t data u part ∧ DataGives u part m := by
  constructor
  · intro marked
    cases marked with
    | key position kind mem declared =>
      obtain ⟨field, declared⟩ := Option.isSome_iff_exists.mp declared
      cases position with
      | part position => exact ⟨_, _, position, .key kind mem declared⟩
    | missing position kind absent =>
      cases position with
      | part position =>
        rcases absent with absent | absent
        · cases absent
        · cases absent
          exact ⟨_, _, position, .missing kind⟩
    | whole position kind =>
      cases position with
      | part position => exact ⟨_, _, position, .whole kind⟩
  · rintro ⟨u, part, position, gives⟩
    cases gives with
    | key kind mem declared =>
      exact .key (.part position) kind mem (Option.isSome_iff_exists.mpr ⟨_, declared⟩)
    | missing kind => exact .missing (.part position) kind (.inr rfl)
    | whole kind => exact .whole (.part position) kind

/-- **A missing value marks what `null` does.** -/
theorem suppliedMark_none_iff {t : TypeDefinition} {m : Mark} :
    SuppliedMark s t none m ↔ SuppliedMark s t (some .null) m := by
  constructor
  · intro marked
    cases marked with
    | key position _ _ _ => cases position
    | missing position kind _ =>
      cases position
      exact .missing (.part .whole) kind (.inr rfl)
    | whole position kind =>
      cases position
      exact .whole (.part .whole) kind
  · rw [suppliedMark_some_iff]
    rintro ⟨u, part, position, gives⟩
    obtain ⟨rfl, rfl⟩ := dataAt_null position
    cases gives with
    | missing kind => exact .missing .nothing kind (.inl rfl)
    | whole kind => exact .whole .nothing kind

theorem suppliedMark_iff {t : TypeDefinition} {value : Option Json} {m : Mark} :
    SuppliedMark s t value m ↔
      ∃ u part, DataAt s t (value.getD .null) u part ∧ DataGives u part m := by
  rw [← suppliedMark_some_iff]
  cases value with
  | none => exact suppliedMark_none_iff
  | some data => exact .rfl

/-- **A supplied value marks what stands at its positions**, whatever the value and its type, as
long as all fields have defined types. -/
theorem suppliedMarks_exact (defined : FieldTypesDefined s) {t : TypeDefinition}
    (mem : t ∈ s.types) (value : Option Json) :
    ∃ marks, suppliedMarks s t value = .ok marks ∧
      ∀ m, m ∈ marks ↔ SuppliedMark s t value m := by
  have exact : Exact (suppliedMarks s t value) _ _ := valueMarks_exact (value.getD .null) t
  have fits : DataFitsAll s (t, value.getD .null) := by
    rw [dataFitsAll_iff]
    intro u part position members name data field _ _ _ declared
    exact defined.exists_firstType? (position.mem_types mem) (declares_of_inputField? declared)
  obtain ⟨marks, found⟩ := exact.ok_iff.mpr fits
  refine ⟨marks, found, fun m => ?_⟩
  rw [exact.mem_iff found, dataGivesSome_iff, suppliedMark_iff]

/-- An input object that refers to itself and to others within lists. -/
def groupedType : TypeDefinition :=
  ⟨none, "Search", [], .inputObject [⟨none, "groups", .list (.list (.named "Group")), none, []⟩,
    ⟨none, "limit", .named "Int", none, []⟩, ⟨none, "but", .named "Search", none, []⟩]⟩

/-- The schema of `groupedType`. -/
def groupedSchema : Schema :=
  [.type groupedType,
    .type ⟨none, "Group", [], .inputObject [⟨none, "name", .named "String", none, []⟩]⟩]

/-- A value for `groupedType`, with nested lists, nothing in two places and keys that count for
nothing. -/
def groupedValue : Json :=
  .obj [("but", .null), ("groups", .arr [.arr [.obj [("name", .str "a"), ("size", .int 1)]],
    .arr [.null, .bool true]]), ("limit", .arr []), ("other", .null)]

/-- The marks of `groupedValue`. -/
def groupedMarks : List Mark :=
  [.field "Search" "but", .identifier "Search", .field "Search" "groups", .field "Group" "name",
    .whole "String", .identifier "Group", .field "Search" "limit", .whole "Int"]

theorem suppliedMarks_exact_grouped :
    FieldTypesDefined groupedSchema.prepare ∧ groupedType ∈ groupedSchema.prepare.types ∧
      ∀ m, m ∈ groupedMarks ↔
        SuppliedMark groupedSchema.prepare groupedType (some groupedValue) m := by
  have mem : groupedType ∈ groupedSchema.prepare.types :=
    (Schema.firstType?_mem (rfl : groupedSchema.prepare.firstType? "Search" = some groupedType)).1
  have defined : FieldTypesDefined groupedSchema.prepare := by decide
  obtain ⟨marks, found, exact⟩ := suppliedMarks_exact defined mem (some groupedValue)
  cases found.symm.trans
    (rfl : suppliedMarks groupedSchema.prepare groupedType (some groupedValue) = .ok groupedMarks)
  exact ⟨defined, mem, exact⟩

end SchemaUsage.Usage

import SchemaUsage.Proofs.Graphql.Declaration
import SchemaUsage.Proofs.Usage.Agreement

/-!
# What a prepared schema offers

About `prepare_schema`, and the look-ups `type_by_name` and `type_map`. Types are looked up in two
ways: the walk takes the last type of a name, variables and expansions take the first one. Where a
name is defined twice, the two disagree. Preparing adds types at two places, for names that are
extended without being defined and for missing scalars, and it never adds a type of a name that is
there. So a document without double names gives a schema without them, on which the two look-ups
cannot be told apart.

* `Ready` schemas are those that have nothing left to prepare.

Results:
- `typeNames_prepare`: the names of a prepared schema.
- `prepare_eq_self_iff`: the ready schemas are those that preparing leaves as they are.
- `prepare_settles`: preparing makes a schema ready, and its look-ups agree.
-/

namespace SchemaUsage.Usage

open SchemaUsage.Graphql SchemaUsage.Graphql.Schema

variable {s : Schema}

/-! ## Names -/

theorem typeNames_map_scalarItem (names : List String) :
    typeNames (names.map scalarItem) = names := by
  induction names with
  | nil => rfl
  | cons name names ih => exact congrArg (name :: ·) ih

/-- **The names of a prepared schema**: those that are defined, those that are only extended, and
those of the missing scalars. -/
theorem typeNames_prepare (s : Schema) :
    s.prepare.typeNames = s.typeNames ++ s.onlyExtended ++ s.missingScalars := by
  rw [prepare_eq_declared, declared, ← completed, typeNames_append, typeNames_completed,
    typeNames_map_scalarItem]

/-- A prepared schema has double names if and only if its document has. -/
theorem nodup_prepare_iff : s.prepare.typeNames.Nodup ↔ s.typeNames.Nodup := by
  constructor
  · intro distinct
    rw [typeNames_prepare, List.append_assoc] at distinct
    exact distinct.of_append_left
  · exact fun distinct => nodup_prepare distinct

/-! ## Ready schemas -/

/-- **A schema that has nothing left to prepare**: it has no extensions, and the built-in scalars
are defined. -/
structure Ready (s : Schema) : Prop where
  plain : s.extensions = []
  scalars : ∀ name ∈ builtinScalars, name ∈ s.typeNames

theorem ready_prepare (s : Schema) : Ready s.prepare where
  plain := s.extensions_prepare
  scalars name builtin := by
    rw [typeNames_prepare, List.mem_append, List.mem_append]
    by_cases known : name ∈ s.typeNames ∨ name ∈ s.onlyExtended
    · exact .inl known
    · refine .inr (List.mem_filter.mpr ⟨builtin, ?_⟩)
      simpa only [decide_eq_true_eq, not_or] using known

theorem filter_of_plain (plain : s.extensions = []) :
    (s.filter fun item => !isExtension item) = s := by
  refine List.filter_eq_self.mpr fun item mem => ?_
  cases item with
  | extension e =>
    have listed : e ∈ s.extensions := List.mem_filterMap.mpr ⟨_, mem, rfl⟩
    rw [plain] at listed
    cases listed
  | _ => rfl

theorem Ready.prepare_eq (ready : Ready s) : s.prepare = s := by
  have unmerged : s.merged = s := by
    rw [merged, ready.plain]
    exact filter_of_plain ready.plain
  have complete : (builtinScalars.filter fun name => name ∉ s.typeNames) = [] :=
    List.filter_eq_nil_iff.mpr fun name builtin => by simpa using ready.scalars name builtin
  rw [prepare, unmerged, foldl_declareScalar s (by decide), complete]
  exact List.append_nil s

/-- **The schemas that preparing leaves as they are.** -/
theorem prepare_eq_self_iff : s.prepare = s ↔ Ready s :=
  ⟨fun same => same ▸ ready_prepare s, Ready.prepare_eq⟩

/-! ## Look-ups -/

/-- What the walk finds is the last type of a name, or the error that there is none. -/
theorem run_lookUp_eq (s : Schema) (name : String) (trail : Trail) :
    (lookUp s name).run.run trail = (lastType s name, trail) := by
  unfold lookUp lastType
  cases s.lastType? name <;> rfl

/-- **Both look-ups find the same**, where no name is defined twice. -/
theorem run_lookUp_eq_firstType (distinct : s.typeNames.Nodup) (name : String) (trail : Trail) :
    (lookUp s name).run.run trail = (firstType s name, trail) := by
  have same : lastType s name = firstType s name := by
    cases found : s.firstType? name <;>
      simp [lastType, firstType, lastType?_eq_firstType? distinct, found]
  rw [run_lookUp_eq, same]

/-- **Preparing settles a schema.** Preparing again changes nothing, no extension is left, and the
built-in scalars are defined. If no name is defined twice in the document, none is in the prepared
schema, and then the look-up of the walk and that of variables and expansions find the same type
for each name, or both find none. -/
theorem prepare_settles (s : Schema) :
    s.prepare.prepare = s.prepare ∧
      s.prepare.extensions = [] ∧
      (∀ name ∈ ["String", "Int", "Float", "Boolean", "ID"],
        ∃ t ∈ s.prepare.types, t.name = name) ∧
      (s.typeNames.Nodup →
        s.prepare.typeNames.Nodup ∧
        (∀ name, s.prepare.lastType? name = s.prepare.firstType? name) ∧
        ∀ name trail,
          (lookUp s.prepare name).run.run trail = (firstType s.prepare name, trail)) := by
  have ready := ready_prepare s
  refine ⟨ready.prepare_eq, ready.plain, fun name builtin => ?_, fun distinct => ?_⟩
  · exact List.mem_map.mp (ready.scalars name builtin)
  · have distinct' : s.prepare.typeNames.Nodup := nodup_prepare_iff.mpr distinct
    exact ⟨distinct', lastType?_eq_firstType? distinct', run_lookUp_eq_firstType distinct'⟩

/-! ## A kennel -/

/-- A schema that declares a scalar itself, extends another one, and extends a type without
defining it, once as an object and once as an enum. -/
def kennel : Schema :=
  [.extension ⟨"Dog", [], .object [] [plainField "age" "Int"]⟩,
    .type ⟨none, "Query", [], .object [] [plainField "dog" "Dog"]⟩,
    .extension ⟨"Int", [⟨"small", []⟩], .scalar⟩,
    .extension ⟨"Dog", [], .enum [⟨none, "TERRIER", []⟩]⟩,
    .type ⟨none, "ID", [], .scalar⟩]

theorem prepare_settles_kennel :
    kennel.typeNames.Nodup ∧
      kennel.prepare.typeNames = ["Query", "ID", "Dog", "Int", "String", "Float", "Boolean"] ∧
      kennel.prepare.prepare = kennel.prepare ∧
      (lookUp kennel.prepare "Dog").run.run {} = (.ok ⟨none, "Dog", [],
        .object [] [plainField "age" "Int"]⟩, {}) ∧
      (lookUp kennel.prepare "Cat").run.run {} = (.error (.unknownType "Cat"), {}) := by
  have distinct : kennel.typeNames.Nodup := by decide
  obtain ⟨again, -, -, settled⟩ := prepare_settles kennel
  obtain ⟨-, -, found⟩ := settled distinct
  refine ⟨distinct, by rw [typeNames_prepare]; decide, again, ?_, ?_⟩
  · rw [found, prepare_eq_declared]
    rfl
  · rw [found, prepare_eq_declared]
    rfl

end SchemaUsage.Usage

import Mathlib.Data.List.Nodup
import SchemaUsage.Proofs.Usage.Meaning

/-!
# Supplied values only remove

About the two cases of `VariableStrategy`. A document has two usages: the declared types of its
variables count as a whole, or the values that are supplied for them do. The second is looked for
inside of types that the first has expanded, so it exists when the first does, and it lies within
the first. What it may have in addition are bare names of input objects for which nothing is
supplied.

A type that is marked as a whole hides what is recorded of its fields, and more types are marked as
a whole in the first usage than in the second. What is hidden there must hence be contributed by the
type itself: this holds of keys, which have been looked up, and of enum literals that are declared.

* `WrittenAt` are the positions in the arguments of a document.

Results:
- `inReach_fromValues`: what is in reach with supplied values is in reach without.
- `denotes_iff`: fields that their types contribute are not lost when a type is used as a whole.
- `denotes_fromValues`: what is denoted with supplied values is denoted without, or is a bare name.
- `usage_fromValues`: the same for the two usages.
-/

namespace SchemaUsage.Usage

open SchemaUsage.Graphql

variable {s : Schema} {doc : Document} {values : VariableValues}

/-! ## Types and their fields -/

theorem firstType?_of_mem (distinct : (s.types.map TypeDefinition.name).Nodup)
    {t : TypeDefinition} (mem : t ∈ s.types) : s.firstType? t.name = some t := by
  cases found : s.firstType? t.name with
  | none => exact absurd rfl (Schema.firstType?_eq_none_iff.mp found t mem)
  | some u =>
    obtain ⟨mem', same⟩ := Schema.firstType?_mem found
    rw [List.inj_on_of_nodup_map distinct mem' mem same]

theorem declares_of_inputField? {t : TypeDefinition} {name : String} {field : InputValue}
    (declared : t.inputField? name = some field) : Declares t name field.type.innerName := by
  unfold TypeDefinition.inputField? TypeDefinition.inputFields at declared
  have same : field.name = name := by simpa using List.find?_some declared
  have mem := List.mem_of_find?_eq_some declared
  split at mem
  · rename_i fields body
    rw [← same]
    exact .inputObject body mem
  · cases mem

/-! ## Positions in supplied values -/

/-- The types at the positions of supplied data are within reach of the type of the whole. -/
theorem reaches_of_dataAt {name : String} {t u : TypeDefinition} {data part : Json}
    (type : s.firstType? name = some t) (position : DataAt s t data u part) :
    Reaches s name u.name ∧ s.firstType? u.name = some u := by
  induction position with
  | whole =>
    rw [(Schema.firstType?_mem type).2]
    exact ⟨.refl name, type⟩
  | item _ _ ih => exact ih
  | member _ _ _ declared named ih =>
    rw [(Schema.firstType?_mem named).2]
    exact ⟨.field ih.1 ih.2 (declares_of_inputField? declared), named⟩

/-! ## Positions in arguments -/

/-- **A part of an argument in a document stands at a type.** -/
inductive WrittenAt (s : Schema) (doc : Document) (u : TypeDefinition) (held : Held)
    (part : Value) : Prop where
  | argument {t type : TypeDefinition} {aliasName : Option String} {name : String}
      {args : Arguments} {directives : List Directive} {selections : List Selection}
      {field : FieldDefinition} {arg : String × Value} {argument : InputValue}
      (stands : Stands s doc t (.field aliasName name args directives selections))
      (ordinary : name ∉ metaFields) (declared : t.field? name = some field) (given : arg ∈ args)
      (argument_declared : field.argument? arg.1 = some argument)
      (named : s.lastType? argument.type.innerName = some type)
      (position : ValueAt s type arg.2 u held part)

/-- Enum literals stand at enums that declare them. -/
def EnumsDeclared (s : Schema) (doc : Document) : Prop :=
  ∀ u held name, WrittenAt s doc u held (.enum name) →
    ∃ values, u.body = .enum values ∧ ∃ value ∈ values, value.name = name

theorem mem_types_of_valueAt {t u : TypeDefinition} {value part : Value} {held : Held}
    (mem : t ∈ s.types) (position : ValueAt s t value u held part) : u ∈ s.types := by
  induction position with
  | whole => exact mem
  | item _ _ ih => exact ih
  | member _ _ _ _ named _ => exact (Schema.lastType?_mem named).1

theorem WrittenAt.mem_types {u : TypeDefinition} {held : Held} {part : Value} :
    WrittenAt s doc u held part → u ∈ s.types
  | .argument _ _ _ _ _ named position =>
    mem_types_of_valueAt (Schema.lastType?_mem named).1 position

/-- The keys of objects are declared, for a document that resolves. -/
theorem WrittenAt.fits {strategy : Strategy} (resolves : Resolves s strategy doc)
    {u : TypeDefinition} {held : Held} {part : Value} :
    WrittenAt s doc u held part → ValueFits s u part
  | .argument stands ordinary declared given argument_declared named position => by
    obtain ⟨field, declared', arguments, -⟩ := resolves.selections _ _ stands ordinary
    rw [declared] at declared'
    cases declared'
    obtain ⟨argument, type, argument_declared', named', fits⟩ := arguments _ given
    rw [argument_declared] at argument_declared'
    cases argument_declared'
    rw [named] at named'
    cases named'
    exact fits _ _ _ position

/-- What a selection gives is an identifier that it names, or comes from an argument. -/
theorem SelectionGives.cases_written {strategy : Strategy} {t : TypeDefinition} {sel : Selection}
    {m : Mark} (stands : Stands s doc t sel) (gives : SelectionGives s strategy t sel m) :
    (∃ id, m = .identifier id ∧ Gives t sel id) ∨
      ∃ u held part, WrittenAt s doc u held part ∧ ValueGives strategy u held part m := by
  cases gives with
  | names gives => exact .inl ⟨_, rfl, gives⟩
  | value ordinary declared given gives =>
    obtain ⟨argument, type, u, held, part, argument_declared, named, position, gives⟩ := gives
    exact .inr ⟨u, held, part,
      .argument stands ordinary declared given argument_declared named position, gives⟩

/-! ## Selections under both strategies -/

theorem ValueGives.wholeTypes {t : TypeDefinition} {held : Held} {part : Value} {m : Mark}
    (gives : ValueGives (.fromValues values) t held part m) :
    ValueGives .wholeTypes t held part m := by
  cases gives with
  | enum => exact .enum
  | literal literal => exact .literal literal
  | var unsupplied => cases unsupplied
  | item leaf => exact .item leaf
  | foreign kind => exact .foreign kind
  | key kind mem => exact .key kind mem

theorem SelectionGives.wholeTypes {t : TypeDefinition} {sel : Selection} {m : Mark}
    (gives : SelectionGives s (.fromValues values) t sel m) :
    SelectionGives s .wholeTypes t sel m := by
  cases gives with
  | names gives => exact .names gives
  | value ordinary declared given gives =>
    obtain ⟨argument, type, u, held, part, argument_declared, named, position, gives⟩ := gives
    exact .value ordinary declared given
      ⟨argument, type, u, held, part, argument_declared, named, position, gives.wholeTypes⟩

/-! ## Reach under both strategies -/

section Reach

variable {op : Operation} {v : VariableDefinition} {t u : TypeDefinition} {part : Json}

/-- The positions of a supplied value are within reach of the declared type, which is used as a
whole where values do not count. -/
theorem inReach_of_dataAt (definition : .operation op ∈ doc) (declared : v ∈ op.variableList)
    (type : s.firstType? v.type.innerName = some t) {data : Json}
    (position : DataAt s t data u part) :
    InReach s (Uses s .wholeTypes doc) u.name ∧ s.firstType? u.name = some u := by
  obtain ⟨reaches, named⟩ := reaches_of_dataAt type position
  exact ⟨⟨_, .var definition declared rfl, reaches⟩, named⟩

theorem variableFits_fromValues (defined : ReachDefined s (Uses s .wholeTypes doc))
    (definition : .operation op ∈ doc) (declared : v ∈ op.variableList) :
    VariableFits s (.fromValues values) v := by
  obtain ⟨t, type⟩ := defined v.type.innerName ⟨_, .var definition declared rfl, .refl _⟩
  refine ⟨t, type, fun u part position members name value field _ _ _ key => ?_⟩
  obtain ⟨⟨start, whole, reaches⟩, named⟩ := inReach_of_dataAt definition declared type position
  exact defined _ ⟨start, whole, .field reaches named (declares_of_inputField? key)⟩

end Reach

theorem resolves_fromValues (resolves : Resolves s .wholeTypes doc)
    (defined : ReachDefined s (Uses s .wholeTypes doc)) : Resolves s (.fromValues values) doc where
  roots := resolves.roots
  conditions := resolves.conditions
  selections := resolves.selections
  vars _ definition _ declared := variableFits_fromValues defined definition declared

theorem inReach_of_uses_whole {start : String}
    (whole : Uses s (.fromValues values) doc (.whole start)) :
    InReach s (Uses s .wholeTypes doc) start := by
  cases whole with
  | selection stands gives => exact ⟨start, .selection stands gives.wholeTypes, .refl start⟩
  | var definition declared gives =>
    obtain ⟨t, u, part, type, position, gives⟩ := gives
    cases gives with
    | whole _ => exact (inReach_of_dataAt definition declared type position).1

/-- **What is in reach with supplied values is in reach without.** -/
theorem inReach_fromValues {name : String}
    (within : InReach s (Uses s (.fromValues values) doc) name) :
    InReach s (Uses s .wholeTypes doc) name := by
  obtain ⟨start, whole, reaches⟩ := within
  obtain ⟨first, whole', reaches'⟩ := inReach_of_uses_whole whole
  exact ⟨first, whole', reaches'.trans reaches⟩

/-! ## What is denoted under both strategies -/

/-- A key or an enum literal in an argument is contributed by the type at which it stands. -/
theorem contributes_of_written {strategy : Strategy} (resolves : Resolves s strategy doc)
    (enums : EnumsDeclared s doc) {u : TypeDefinition} {held : Held} {part : Value}
    {type field : String} (written : WrittenAt s doc u held part)
    (gives : ValueGives strategy u held part (.field type field)) :
    type = u.name ∧ Contributes u (fieldId u.name field) := by
  cases gives with
  | enum =>
    obtain ⟨values, body, value, mem, rfl⟩ := enums _ _ _ written
    exact ⟨rfl, .value body mem⟩
  | key kind mem =>
    obtain ⟨_, _, declared, -⟩ := written.fits resolves _ _ _ rfl kind mem
    exact ⟨rfl, .field (declares_of_inputField? declared)⟩

/-- The marked fields are contributed by their types. -/
def FieldsContributed (s : Schema) (marked : Mark → Prop) : Prop :=
  ∀ type field, marked (.field type field) →
    ∃ t, s.firstType? type = some t ∧ Contributes t (fieldId type field)

/-- **A whole type hides nothing** of what it contributes itself: all marked fields count. -/
theorem denotes_iff {marked : Mark → Prop} (contributed : FieldsContributed s marked)
    {id : String} :
    Denotes s marked id ↔ marked (.identifier id) ∨
      (∃ type field, marked (.field type field) ∧ id = fieldId type field) ∨
      GivenInReach s marked id := by
  refine or_congr_right ⟨?_, ?_⟩
  · rintro (⟨type, field, used, -, rfl⟩ | given)
    · exact .inl ⟨type, field, used, rfl⟩
    · exact .inr given
  · rintro (⟨type, field, used, rfl⟩ | given)
    · by_cases whole : marked (.whole type)
      · obtain ⟨t, named, given⟩ := contributed type field used
        exact .inr ⟨type, t, ⟨type, whole, .refl type⟩, named, given⟩
      · exact .inl ⟨type, field, used, whole, rfl⟩
    · exact .inr given

/-- The fields that a document uses are contributed by their types. -/
theorem fieldsContributed_uses {strategy : Strategy}
    (distinct : (s.types.map TypeDefinition.name).Nodup) (enums : EnumsDeclared s doc)
    (resolves : Resolves s strategy doc) : FieldsContributed s (Uses s strategy doc) := by
  rintro type field (⟨stands, gives⟩ | ⟨-, -, gives⟩)
  · obtain ⟨_, same, -⟩ | ⟨u, held, part, written, gives⟩ := gives.cases_written stands
    · cases same
    · obtain ⟨rfl, given⟩ := contributes_of_written resolves enums written gives
      exact ⟨u, firstType?_of_mem distinct written.mem_types, given⟩
  · cases strategy with
    | wholeTypes => cases gives
    | fromValues values =>
      obtain ⟨t, u, part, type, position, gives⟩ := gives
      cases gives with
      | key _ _ key =>
        exact ⟨u, (reaches_of_dataAt type position).2, .field (declares_of_inputField? key)⟩

/-- **What is denoted with supplied values is denoted without**, or it is a bare name. -/
theorem denotes_fromValues (distinct : (s.types.map TypeDefinition.name).Nodup)
    (enums : EnumsDeclared s doc) (resolves : Resolves s .wholeTypes doc) {id : String}
    (denotes : Denotes s (Uses s (.fromValues values) doc) id) :
    Denotes s (Uses s .wholeTypes doc) id ∨
      ∃ t ∈ s.types, t.kind = .inputObject ∧ id = t.name := by
  rcases denotes with used | ⟨type, field, used, -, rfl⟩ | ⟨name, t, within, type, given⟩
  · cases used with
    | selection stands gives => exact .inl (.inl (.selection stands gives.wholeTypes))
    | var definition declared gives =>
      obtain ⟨t, u, part, type, position, gives⟩ := gives
      cases gives with
      | missing kind =>
        have named := (inReach_of_dataAt definition declared type position).2
        exact .inr ⟨u, (Schema.firstType?_mem named).1, kind, rfl⟩
  · refine .inl ((denotes_iff (fieldsContributed_uses distinct enums resolves)).mpr (.inr ?_))
    cases used with
    | selection stands gives =>
      exact .inl ⟨type, field, .selection stands gives.wholeTypes, rfl⟩
    | var definition declared gives =>
      obtain ⟨t, u, part, type, position, gives⟩ := gives
      obtain ⟨within, named⟩ := inReach_of_dataAt definition declared type position
      cases gives with
      | key _ _ key =>
        exact .inr ⟨u.name, u, within, named, .field (declares_of_inputField? key)⟩
  · exact .inl (.inr (.inr ⟨name, t, inReach_fromValues within, type, given⟩))

/-- **Supplied values only remove.** When a document has a usage in which its variables count with
their whole types, it has one for any supplied values, and this holds nothing more than bare names
of input objects. -/
theorem usage_fromValues (distinct : (s.types.map TypeDefinition.name).Nodup)
    (enums : EnumsDeclared s doc) {ids : List String}
    (found : usage s .wholeTypes doc = .ok ids) (values : VariableValues) :
    ∃ pruned, usage s (.fromValues values) doc = .ok pruned ∧
      ∀ id ∈ pruned, id ∈ ids ∨ ∃ t ∈ s.types, t.kind = .inputObject ∧ id = t.name := by
  have all : Exact (usage s .wholeTypes doc) _ _ := usage_exact doc
  have pruning : Exact (usage s (.fromValues values) doc) _ _ := usage_exact doc
  obtain ⟨resolves, defined⟩ := all.ok_iff.mp ⟨ids, found⟩
  have defined' : ReachDefined s (Uses s (.fromValues values) doc) :=
    fun name within => defined name (inReach_fromValues within)
  obtain ⟨pruned, found'⟩ := pruning.ok_iff.mpr ⟨resolves_fromValues resolves defined, defined'⟩
  refine ⟨pruned, found', fun id mem => ?_⟩
  rw [all.mem_iff found]
  exact denotes_fromValues distinct enums resolves ((pruning.mem_iff found' id).mp mem)

/-! ## A document with two usages -/

/-- The filter and the side that a field takes. -/
def sideField : FieldDefinition :=
  ⟨none, "hero", [⟨none, "filter", .named "Filter", none, []⟩,
    ⟨none, "side", .named "Side", none, []⟩], .named "ID", []⟩

/-- The type of the enum literal in `sideDocument`. -/
def sideEnum : TypeDefinition := ⟨none, "Side", [], .enum [⟨none, "LIGHT", []⟩, ⟨none, "DARK", []⟩]⟩

/-- A query whose field takes an input object and an enum. -/
def sideSchema : Schema :=
  [.type ⟨none, "Query", [], .object [] [sideField]⟩,
    .type ⟨none, "Filter", [], .inputObject [⟨none, "id", .named "ID", none, []⟩]⟩,
    .type sideEnum, .type ⟨none, "ID", [], .scalar⟩]

/-- A query with a variable and an enum literal. -/
def sideDocument : Document :=
  [.operation (.full .query none [⟨"f", .named "Filter", none⟩] []
    [.field none "hero" [("filter", .var "f"), ("side", .enum "DARK")] [] []])]

/-- The marks of `sideDocument` with the whole type of its variable. -/
def sideMarks : List Mark :=
  [.whole "Filter", .identifier "Query.hero", .identifier "Query.hero.filter", .whole "Filter",
    .identifier "Query.hero.side", .field "Side" "DARK"]

/-- The usage of `sideDocument` with the whole type of its variable. -/
def sideUsage : List String :=
  ["Filter.id", "ID", "Query.hero", "Query.hero.filter", "Query.hero.side", "Side.DARK"]

section Side

variable (root : s.rootName? .query = some "Query")
  (query : ∃ t, s.lastType? "Query" = some t ∧ t.field? "hero" = some sideField)

include root query

theorem stands_sideDocument {t : TypeDefinition} {sel : Selection}
    (stands : Stands s sideDocument t sel) :
    t.field? "hero" = some sideField ∧
      sel = .field none "hero" [("filter", .var "f"), ("side", .enum "DARK")] [] [] := by
  induction stands with
  | operation definition named type selected =>
    cases List.mem_singleton.mp definition
    cases root.symm.trans named
    obtain ⟨t', type', field⟩ := query
    cases type'.symm.trans type
    exact ⟨field, List.mem_singleton.mp selected⟩
  | fragment definition _ _ => cases List.mem_singleton.mp definition
  | nested _ _ _ _ selected ih =>
    cases ih.2
    cases selected
  | conditional _ _ _ ih => cases ih.2
  | unconditional _ _ ih => cases ih.2

theorem enumsDeclared_of_side (side : s.lastType? "Side" = some sideEnum) :
    EnumsDeclared s sideDocument := by
  rintro u held name ⟨stands, _, declared, given, argument, named, position⟩
  obtain ⟨field, same⟩ := stands_sideDocument root query stands
  cases same
  cases field.symm.trans declared
  rcases List.mem_pair.mp given with rfl | rfl
  · obtain ⟨-, same⟩ := valueAt_leaf rfl position
    cases same
  · obtain ⟨rfl, same⟩ := valueAt_leaf rfl position
    cases same
    cases argument
    cases side.symm.trans named
    exact ⟨_, rfl, _, List.mem_cons_of_mem _ List.mem_cons_self, rfl⟩

end Side

theorem enumsDeclared_sideDocument : EnumsDeclared sideSchema sideDocument :=
  enumsDeclared_of_side rfl ⟨_, rfl, rfl⟩ rfl

/-- Without values, nothing is supplied for the variable. -/
theorem usage_fromValues_sideDocument :
    usage sideSchema .wholeTypes sideDocument = .ok sideUsage ∧
    ∃ pruned, usage sideSchema (.fromValues []) sideDocument = .ok pruned ∧
      ∀ id ∈ pruned, id ∈ sideUsage ∨
        ∃ t ∈ sideSchema.types, t.kind = .inputObject ∧ id = t.name :=
  have found : usage sideSchema .wholeTypes sideDocument = .ok sideUsage :=
    usage_eq_ok.mpr ⟨sideMarks, _, rfl, by cbv,
      (ascending_eq (by decide) (by decide) (by decide)).symm⟩
  ⟨found, usage_fromValues (by decide) enumsDeclared_sideDocument found []⟩

end SchemaUsage.Usage

import SchemaUsage.Proofs.Usage.Growth

/-!
# What a literal marks

About `collect_input_value` and `walk_value`. A literal that is given to an argument marks what its
positions give, and nothing else besides the argument itself. Two functions share this work: one
looks at a value by itself, the other at what is inside of lists and objects. Items of lists are
passed to the second one only, so it is there that their leaves are marked. What `ValueGives` tells
of a part is the sum of both.

* Where all types that a schema mentions are defined and the keys of the literal are declared, no
  step fails. How deeply a literal nests lists means nothing to the types of its positions: an item
  stands where its list stands.

Results:
- `keysDeclared_iff`: declared keys are all that a literal needs.
- `valueGives_of_leaf`: each leaf gives a mark, unless it counts by its supplied value.
- `literalMarks_exact`: a literal marks what its positions give, and nothing else.
-/

namespace SchemaUsage.Usage

open SchemaUsage.Graphql

variable {s : Schema} {strategy : Strategy}

/-! ## What a literal needs -/

/-- All arguments have types that are defined. -/
def ArgumentTypesDefined (s : Schema) : Prop :=
  ∀ t ∈ s.types, ∀ field ∈ t.outputFields, ∀ argument ∈ field.arguments,
    (s.firstType? argument.type.innerName).isSome = true

instance (s : Schema) : Decidable (ArgumentTypesDefined s) :=
  inferInstanceAs (Decidable (∀ t ∈ s.types, ∀ field ∈ t.outputFields,
    ∀ argument ∈ field.arguments, (s.firstType? argument.type.innerName).isSome = true))

/-- The keys of all objects of a value that stand at input objects are declared there. -/
def KeysDeclared (s : Schema) (type : TypeDefinition) (value : Value) : Prop :=
  ∀ u held members, ValueAt s type value u held (.object members) → u.kind = .inputObject →
    ∀ member ∈ members, (u.inputField? member.1).isSome = true

theorem exists_lastType? {name : String} (defined : (s.firstType? name).isSome = true) :
    ∃ t, s.lastType? name = some t := by
  refine Option.ne_none_iff_exists'.mp fun missing => ?_
  have none_first := Schema.firstType?_eq_none_iff.mpr (Schema.lastType?_eq_none_iff.mp missing)
  rw [none_first] at defined
  cases defined

/-- **Declared keys are all that a literal needs**, as their fields have defined types. -/
theorem keysDeclared_iff (defined : FieldTypesDefined s) {t : TypeDefinition} (mem : t ∈ s.types)
    {value : Value} : KeysDeclared s t value ↔ ValueFitsAll s ⟨t, .alone, value⟩ := by
  rw [valueFitsAll_iff]
  constructor
  · rintro keys u held part position members name data rfl kind mem'
    obtain ⟨field, declared⟩ := Option.isSome_iff_exists.mp
      (keys u held members position kind (name, data) mem')
    obtain ⟨v, named⟩ := defined.exists_firstType? (mem_types_of_valueAt mem position)
      (declares_of_inputField? declared)
    obtain ⟨w, named'⟩ := exists_lastType? (Option.isSome_iff_exists.mpr ⟨v, named⟩)
    exact ⟨field, w, declared, named'⟩
  · rintro fits u held members position kind ⟨name, data⟩ mem'
    obtain ⟨field, _, declared, _⟩ := fits u held _ position members name data rfl kind mem'
    exact Option.isSome_iff_exists.mpr ⟨field, declared⟩

/-! ## Leaves -/

/-- **Each leaf gives a mark**, unless it is a variable by itself that counts by its supplied
value. -/
theorem valueGives_of_leaf {t : TypeDefinition} {held : Held} {part : Value}
    (leaf : isComposite part = false) :
    (∃ m, ValueGives strategy t held part m) ∨
      held = .alone ∧ (∃ name, part = .var name) ∧ strategy.prunes = true := by
  cases held with
  | item => exact .inl ⟨_, .item leaf⟩
  | alone =>
    cases part with
    | list items => cases leaf
    | object members => cases leaf
    | enum name => exact .inl ⟨_, .enum⟩
    | var name =>
      cases supplied : strategy.prunes with
      | false => exact .inl ⟨_, .var supplied⟩
      | true => exact .inr ⟨rfl, ⟨name, rfl⟩, rfl⟩
    | _ => exact .inl ⟨_, .literal rfl⟩

/-! ## Arguments -/

/-- **A literal marks what its positions give, and nothing else** besides its argument. The type at
which it stands is the named one of the argument, and the stacks are left as they were. -/
theorem literalMarks_exact (fieldTypes : FieldTypesDefined s)
    (argumentTypes : ArgumentTypesDefined s) {trail : Trail} {t : TypeDefinition}
    {parents : List TypeDefinition} {field : FieldDefinition} {fields : List FieldDefinition}
    (inside : trail.parents = t :: parents) (top : trail.fields = field :: fields)
    (mem : t ∈ s.types) (declared : field ∈ t.outputFields) {name : String}
    {argument : InputValue} (takes : field.argument? name = some argument) (value : Value) :
    ∃ type, s.lastType? argument.type.innerName = some type ∧ (KeysDeclared s type value →
      ∃ marks, (walkArgument s strategy name value).run.run trail = (.ok (), trail.after marks) ∧
        (∀ m, m ∈ marks ↔ m = .identifier (argumentId t.name field.name name) ∨
          ∃ u held part, ValueAt s type value u held part ∧ ValueGives strategy u held part m) ∧
        ∀ u held part, ValueAt s type value u held part → isComposite part = false →
          (∃ m ∈ marks, ValueGives strategy u held part m) ∨
            held = .alone ∧ (∃ x, part = .var x) ∧ strategy.prunes = true) := by
  obtain ⟨type, named⟩ := exists_lastType?
    (argumentTypes t mem field declared argument (List.mem_of_find?_eq_some takes))
  refine ⟨type, named, fun keys => ?_⟩
  have fits := (keysDeclared_iff fieldTypes (Schema.lastType?_mem named).1).mp keys
  have exact : Exact (givenMarks s strategy argument.type value) _ _ := givenMarks_exact _ _
  obtain ⟨given, found⟩ := exact.ok_iff.mpr ⟨type, named, fits⟩
  have gives (m : Mark) : m ∈ given ↔
      ∃ u held part, ValueAt s type value u held part ∧ ValueGives strategy u held part m := by
    rw [exact.mem_iff found, ← valueGivesSome_iff]
    simp [named]
  obtain ⟨marks, run, own⟩ : Yields (walkArgument s strategy name value) trail _ :=
    walkArgument_yields inside top (name, value)
  have all : argumentMarks s strategy t field (name, value) =
      .ok (.identifier (argumentId t.name field.name name) :: given) := by
    simp only [argumentMarks, takes, found]
    rfl
  obtain rfl := own _ all
  rw [all] at run
  refine ⟨_, run, fun m => ?_, fun u held part position leaf => ?_⟩
  · rw [List.mem_cons, gives]
  · refine (valueGives_of_leaf leaf).imp_left fun ⟨m, given⟩ => ⟨m, ?_, given⟩
    exact List.mem_cons_of_mem _ ((gives m).mpr ⟨u, held, part, position, given⟩)

/-! ## A search -/

/-- The input object of a search. -/
def filterType : TypeDefinition :=
  ⟨none, "Filter", [], .inputObject [⟨none, "color", .named "Color", none, []⟩,
    ⟨none, "ids", .list (.named "ID"), none, []⟩, ⟨none, "meta", .named "JSON", none, []⟩,
    ⟨none, "not", .named "Filter", none, []⟩]⟩

/-- A field that takes a list of filters. -/
def filtersField : FieldDefinition :=
  ⟨none, "search", [⟨none, "filters", .list (.named "Filter"), none, []⟩], .named "ID", []⟩

/-- The root type of a search. -/
def filtersRoot : TypeDefinition :=
  ⟨none, "Query", [], .object [] [filtersField]⟩

/-- A schema with a search. -/
def filtersSchema : Schema :=
  Schema.prepare [.type filtersRoot, .type filterType, .type ⟨none, "JSON", [], .scalar⟩,
    .type ⟨none, "Color", [], .enum [⟨none, "RED", []⟩]⟩]

/-- The trail at the arguments of a search. -/
def filtersTrail : Trail :=
  { parents := [filtersRoot], fields := [filtersField] }

/-- A literal for the filters of a search, with lists that are nested more deeply than declared, an
object for a scalar, and leaves by themselves and in lists. -/
def filtersLiteral : Value :=
  .list [.list [.object [("not", .object [("color", .enum "RED")]),
      ("meta", .object [("a", .null)]), ("ids", .list [.list [.var "x", .enum "RED"]])], .null],
    .object [("color", .var "x")]]

/-- The marks of `filtersLiteral`, when its variable counts by its supplied value. -/
def filtersMarks : List Mark :=
  [.identifier "Query.search.filters", .whole "Filter", .field "Color" "RED",
    .field "Filter" "color", .field "Filter" "not", .whole "JSON", .field "Filter" "meta",
    .whole "ID", .field "Filter" "ids", .field "Filter" "color"]

theorem literalMarks_exact_filters :
    FieldTypesDefined filtersSchema ∧ ArgumentTypesDefined filtersSchema ∧
      KeysDeclared filtersSchema filterType filtersLiteral ∧
      (walkArgument filtersSchema (.fromValues []) "filters" filtersLiteral).run.run filtersTrail =
        (.ok (), filtersTrail.after filtersMarks) ∧
      ∀ m, m ∈ filtersMarks ↔ m = .identifier "Query.search.filters" ∨
        ∃ u held part, ValueAt filtersSchema filterType filtersLiteral u held part ∧
          ValueGives (.fromValues []) u held part m := by
  have fieldTypes : FieldTypesDefined filtersSchema := by decide
  have argumentTypes : ArgumentTypesDefined filtersSchema := by decide
  have mem : filtersRoot ∈ filtersSchema.types :=
    (Schema.firstType?_mem (rfl : filtersSchema.firstType? "Query" = some filtersRoot)).1
  have named : filtersSchema.lastType? "Filter" = some filterType := rfl
  have given : givenMarks filtersSchema (.fromValues []) (.list (.named "Filter")) filtersLiteral =
      .ok filtersMarks.tail := rfl
  have run : (walkArgument filtersSchema (.fromValues []) "filters" filtersLiteral).run.run
      filtersTrail = (.ok (), filtersTrail.after filtersMarks) := rfl
  have keys : KeysDeclared filtersSchema filterType filtersLiteral := by
    obtain ⟨type, found, fits⟩ := (givenMarks_exact _ _).ok_iff.mp ⟨_, given⟩
    cases named.symm.trans found
    exact (keysDeclared_iff fieldTypes (Schema.lastType?_mem named).1).mpr fits
  obtain ⟨type, found, exact⟩ := @literalMarks_exact filtersSchema (.fromValues []) fieldTypes
    argumentTypes filtersTrail filtersRoot [] filtersField [] rfl rfl mem List.mem_cons_self
    "filters" _ rfl filtersLiteral
  cases named.symm.trans found
  obtain ⟨marks, run', marked, -⟩ := exact keys
  have same : marks = filtersMarks := by
    have reached := congrArg (fun reached => reached.2.marks.reverse) (run'.symm.trans run)
    simpa [Trail.after, filtersTrail] using reached
  exact ⟨fieldTypes, argumentTypes, keys, run, same ▸ marked⟩

end SchemaUsage.Usage

import SchemaUsage.Proofs.Usage.Pruning
import SchemaUsage.Usage.Passing

/-!
# A literal and a variable with its value agree

About `walk_argument` on the one side and `collect_variable` on the other. Data can be written as a
literal or supplied for a variable. The two are looked into by different means, but data that
conforms to a type gives the same to it on both ways. As a variable by itself gives nothing where
supplied values count, the usage of a document stays what it is when a literal is exchanged for a
variable that is supplied with the same data.

* Each layer has a lemma that exchanges: what a whole with `a` in it gives is what the whole with
  `b` in it gives, and what `a` gives besides `b`.

Results:
- `Conforms.fits_iff`, `Conforms.gives_iff`: a literal fits and gives what its data does.
- `Exchanged.fits_iff`, `Exchanged.gives_iff`: an exchange in one argument of a selection.
- `literal_agrees_with_variable`: the usages of the two documents.
-/

namespace SchemaUsage.Usage

open SchemaUsage.Graphql

variable {s : Schema} {strategy : Strategy} {values : VariableValues}

/-! ## Literals of data -/

theorem dataGivesSome_foreign {t : TypeDefinition} (kind : t.kind ≠ .inputObject) (data : Json)
    (m : Mark) : DataGivesSome s m (t, data) ↔ m = .whole t.name := by
  rw [← (valueMarks_foreign_exact kind data).mem_iff (valueMarks_foreign kind data)]
  exact List.mem_singleton

theorem dataFitsAll_foreign {t : TypeDefinition} (kind : t.kind ≠ .inputObject) (data : Json) :
    DataFitsAll s (t, data) :=
  (valueMarks_foreign_exact kind data).ok_iff.mp ⟨_, valueMarks_foreign kind data⟩

/-- Both look-ups find the only type of a name. -/
theorem lastType?_eq_firstType? (distinct : (s.types.map TypeDefinition.name).Nodup)
    (name : String) : s.lastType? name = s.firstType? name := by
  cases found : s.lastType? name with
  | none => exact (Schema.firstType?_eq_none_iff.mpr (Schema.lastType?_eq_none_iff.mp found)).symm
  | some t =>
    obtain ⟨mem, rfl⟩ := Schema.lastType?_mem found
    exact (firstType?_of_mem distinct mem).symm

/-- The literal of data that is no list is a literal by itself or an object. -/
theorem literalOf_single {data : Json} (single : ∀ items, data ≠ .arr items) :
    isLiteral (literalOf data) = true ∨ ∃ members, literalOf data = .object members := by
  cases data with
  | arr items => exact absurd rfl (single items)
  | obj members => exact .inr ⟨literalMembers members, rfl⟩
  | _ => exact .inl rfl

/-- **A literal fits where its data does.** -/
theorem Conforms.fits_iff (distinct : (s.types.map TypeDefinition.name).Nodup)
    {t : TypeDefinition} {data : Json} (conforms : Conforms s t data) (held : Held) :
    ValueFitsAll s ⟨t, held, literalOf data⟩ ↔ DataFitsAll s (t, data) := by
  induction conforms generalizing held with
  | @scalar t data kind single =>
    have foreign : t.kind ≠ .inputObject := by rw [kind]; exact nofun
    refine iff_of_true ?_ (dataFitsAll_foreign foreign data)
    rcases literalOf_single single with literal | ⟨members, same⟩
    · exact valueFitsAll_leaf (isComposite_of_isLiteral literal)
    · rw [same]
      exact valueFitsAll_foreign foreign members
  | list nonempty each ih =>
    rw [literalOf, literalItems_eq, valueFitsAll_list, dataFitsAll_arr, List.forall_mem_map]
    exact forall₂_congr fun item mem => ih item mem .item
  | @object t members kind declared each ih =>
    rw [literalOf, literalMembers_eq, valueFitsAll_object kind, dataFitsAll_obj kind,
      List.forall_mem_map]
    refine forall₂_congr fun member mem => ?_
    obtain ⟨field, found⟩ := declared member mem
    cases named : s.firstType? field.type.innerName with
    | none => simp [KeyFits, MemberFits, lastType?_eq_firstType? distinct, found, named]
    | some u =>
      simpa [KeyFits, MemberFits, lastType?_eq_firstType? distinct, found, named] using
        ih member mem field u found named .alone

/-- **A literal gives what its data gives.** -/
theorem Conforms.gives_iff (distinct : (s.types.map TypeDefinition.name).Nodup)
    {t : TypeDefinition} {data : Json} (conforms : Conforms s t data) (held : Held) (m : Mark) :
    ValueGivesSome s strategy m ⟨t, held, literalOf data⟩ ↔ DataGivesSome s m (t, data) := by
  induction conforms generalizing held with
  | @scalar t data kind single =>
    have foreign : t.kind ≠ .inputObject := by rw [kind]; exact nofun
    rw [dataGivesSome_foreign foreign]
    rcases literalOf_single single with literal | ⟨members, same⟩
    · rw [valueGivesSome_leaf (isComposite_of_isLiteral literal), valueGives_literal literal]
    · rw [same, valueGivesSome_foreign foreign]
  | @list t items nonempty each ih =>
    have items_iff : (∃ item ∈ items, ValueGivesSome s strategy m ⟨t, .item, literalOf item⟩) ↔
        ∃ item ∈ items, DataGivesSome s m (t, item) :=
      exists_congr fun item => and_congr_right fun mem => ih item mem .item
    rw [literalOf, literalItems_eq, valueGivesSome_list]
    simp only [List.mem_map, exists_exists_and_eq_and, items_iff]
    by_cases kind : t.kind = .inputObject
    · rw [dataGivesSome_arr kind]
    · -- a list is not looked into here, but it has items, and each of them gives the type
      obtain ⟨item, mem⟩ := List.exists_mem_of_ne_nil items nonempty
      simp only [dataGivesSome_foreign kind]
      exact ⟨fun ⟨_, _, whole⟩ => whole, fun whole => ⟨item, mem, whole⟩⟩
  | @object t members kind declared each ih =>
    rw [literalOf, literalMembers_eq, valueGivesSome_object kind, dataGivesSome_obj kind]
    simp only [List.mem_map, exists_exists_and_eq_and]
    refine exists_congr fun member => and_congr_right fun mem => ?_
    obtain ⟨field, found⟩ := declared member mem
    cases named : s.firstType? field.type.innerName with
    | none => simp [KeyGives, MemberGives, lastType?_eq_firstType? distinct, found, named]
    | some u =>
      simp [KeyGives, MemberGives, lastType?_eq_firstType? distinct, found, named,
        ih member mem field u found named .alone]

/-! ## Exchanges in lists -/

section Lists

variable {α : Type} {p : α → Prop} {q : Prop} {before after : List α} {x y : α}

theorem forall_mem_middle :
    (∀ z ∈ before ++ x :: after, p z) ↔ p x ∧ ∀ z ∈ before ++ after, p z := by
  simp only [List.perm_middle.mem_iff, List.forall_mem_cons]

theorem exists_mem_middle :
    (∃ z ∈ before ++ x :: after, p z) ↔ p x ∨ ∃ z ∈ before ++ after, p z := by
  simp only [List.perm_middle.mem_iff, List.exists_mem_cons_iff]

theorem forall_mem_exchange (h : p x ↔ p y ∧ q) :
    (∀ z ∈ before ++ x :: after, p z) ↔ (∀ z ∈ before ++ y :: after, p z) ∧ q := by
  rw [forall_mem_middle, forall_mem_middle, h, and_right_comm]

theorem exists_mem_exchange (h : p x ↔ p y ∨ q) :
    (∃ z ∈ before ++ x :: after, p z) ↔ (∃ z ∈ before ++ y :: after, p z) ∨ q := by
  rw [exists_mem_middle, exists_mem_middle, h, or_right_comm]

end Lists

/-! ## Exchanges in documents -/

section Exchanges

variable {type : TypeDefinition} {a b : Value} {q : Prop} {m : Mark}

theorem selectionsFit_exchange {t : TypeDefinition} {before after : List Selection}
    {sel sel' : Selection} (h : SelectionFitsAll s (t, sel) ↔ SelectionFitsAll s (t, sel') ∧ q) :
    (∀ z ∈ before ++ sel :: after, SelectionFitsAll s (t, z)) ↔
      (∀ z ∈ before ++ sel' :: after, SelectionFitsAll s (t, z)) ∧ q :=
  forall_mem_exchange (p := fun z => SelectionFitsAll s (t, z)) h

theorem selectionsGive_exchange {t : TypeDefinition} {before after : List Selection}
    {sel sel' : Selection}
    (h : SelectionGivesSome s strategy m (t, sel) ↔ SelectionGivesSome s strategy m (t, sel') ∨ q) :
    (∃ z ∈ before ++ sel :: after, SelectionGivesSome s strategy m (t, z)) ↔
      (∃ z ∈ before ++ sel' :: after, SelectionGivesSome s strategy m (t, z)) ∨ q :=
  exists_mem_exchange (p := fun z => SelectionGivesSome s strategy m (t, z)) h

theorem argumentFits_iff {field : FieldDefinition} {key : String} {argument : InputValue}
    (takes : field.argument? key = some argument)
    (named : s.lastType? argument.type.innerName = some type) (value : Value) :
    ArgumentFits s field (key, value) ↔ ValueFitsAll s ⟨type, .alone, value⟩ := by
  simp [ArgumentFits, takes, named, valueFitsAll_iff]

theorem argumentGives_iff {field : FieldDefinition} {key : String} {argument : InputValue}
    (takes : field.argument? key = some argument)
    (named : s.lastType? argument.type.innerName = some type) (value : Value) :
    ArgumentGives s strategy field (key, value) m ↔
      ValueGivesSome s strategy m ⟨type, .alone, value⟩ := by
  simp [ArgumentGives, takes, named, valueGivesSome_iff]

theorem nestedFits_iff {field : FieldDefinition} {u : TypeDefinition}
    (named : s.lastType? field.type.innerName = some u) (selections : List Selection) :
    NestedFits s field selections ↔ ∀ sel ∈ selections, SelectionFitsAll s (u, sel) := by
  simp [NestedFits, named]

/-- **An exchange in a selection**: what fits before fits behind it, and so does what the first
value needs besides. -/
theorem Exchanged.fits_iff {t : TypeDefinition} {sel sel' : Selection}
    (fits : ValueFitsAll s ⟨type, .alone, a⟩ ↔ ValueFitsAll s ⟨type, .alone, b⟩ ∧ q)
    (exchanged : Exchanged s type a b t sel sel') :
    SelectionFitsAll s (t, sel) ↔ SelectionFitsAll s (t, sel') ∧ q := by
  induction exchanged with
  | @argument t _ name key before after _ selections field _ ordinary declared takes named =>
    have value : ArgumentFits s field (key, a) ↔ ArgumentFits s field (key, b) ∧ q := by
      rw [argumentFits_iff takes named, argumentFits_iff takes named, fits]
    rw [selectionFitsAll_field ordinary, selectionFitsAll_field ordinary]
    simp only [declared, Option.some.injEq, exists_eq_left', forall_mem_exchange value]
    exact and_right_comm
  | @nested t u _ name args _ before after sel sel' field ordinary declared named inside ih =>
    have nested : NestedFits s field (before ++ sel :: after) ↔
        NestedFits s field (before ++ sel' :: after) ∧ q := by
      rw [nestedFits_iff named, nestedFits_iff named, selectionsFit_exchange ih]
    rw [selectionFitsAll_field ordinary, selectionFitsAll_field ordinary]
    simp only [declared, Option.some.injEq, exists_eq_left', nested, and_assoc]
  | conditional named inside ih =>
    rw [selectionFitsAll_conditional, selectionFitsAll_conditional]
    simp only [named, Option.some.injEq, exists_eq_left', selectionsFit_exchange ih]
  | unconditional inside ih =>
    rw [selectionFitsAll_unconditional, selectionFitsAll_unconditional, selectionsFit_exchange ih]

/-- An exchange in the arguments of a field, whose identifiers stay. -/
theorem argumentsGive_exchange {t : TypeDefinition} {field : FieldDefinition} {key : String}
    {before after : Arguments} (h : ArgumentGives s strategy field (key, a) m ↔
      ArgumentGives s strategy field (key, b) m ∨ q) :
    (∃ arg ∈ before ++ (key, a) :: after, m = .identifier (argumentId t.name field.name arg.1) ∨
      ArgumentGives s strategy field arg m) ↔
    (∃ arg ∈ before ++ (key, b) :: after, m = .identifier (argumentId t.name field.name arg.1) ∨
      ArgumentGives s strategy field arg m) ∨ q := by
  refine exists_mem_exchange (p := fun arg => m = .identifier (argumentId t.name field.name arg.1) ∨
    ArgumentGives s strategy field arg m) ?_
  rw [h, or_assoc]

/-- **An exchange in a selection**: what is given before is given behind it, or is what the first
value gives besides. -/
theorem Exchanged.gives_iff {t : TypeDefinition} {sel sel' : Selection}
    (gives : ValueGivesSome s strategy m ⟨type, .alone, a⟩ ↔
      ValueGivesSome s strategy m ⟨type, .alone, b⟩ ∨ q)
    (exchanged : Exchanged s type a b t sel sel') :
    SelectionGivesSome s strategy m (t, sel) ↔ SelectionGivesSome s strategy m (t, sel') ∨ q := by
  induction exchanged with
  | @argument t _ name key before after _ selections field _ ordinary declared takes named =>
    have value : ArgumentGives s strategy field (key, a) m ↔
        ArgumentGives s strategy field (key, b) m ∨ q := by
      rw [argumentGives_iff takes named, argumentGives_iff takes named, gives]
    rw [selectionGivesSome_field ordinary declared, selectionGivesSome_field ordinary declared,
      argumentsGive_exchange value]
    simp only [or_assoc, or_comm (a := q)]
  | @nested t u _ name args _ before after sel sel' field ordinary declared named inside ih =>
    have nested : NestedGives s strategy field (before ++ sel :: after) m ↔
        NestedGives s strategy field (before ++ sel' :: after) m ∨ q := by
      simp only [NestedGives, named, Option.some.injEq, exists_eq_left', selectionsGive_exchange ih]
    rw [selectionGivesSome_field ordinary declared, selectionGivesSome_field ordinary declared,
      nested]
    simp only [or_assoc]
  | conditional named inside ih =>
    rw [selectionGivesSome_conditional, selectionGivesSome_conditional]
    simp only [named, Option.some.injEq, exists_eq_left', selectionsGive_exchange ih]
  | unconditional inside ih =>
    rw [selectionGivesSome_unconditional, selectionGivesSome_unconditional,
      selectionsGive_exchange ih]

theorem ExchangedIn.fits_iff {definition definition' : Definition}
    (fits : ValueFitsAll s ⟨type, .alone, a⟩ ↔ ValueFitsAll s ⟨type, .alone, b⟩ ∧ q)
    (exchanged : ExchangedIn s type a b definition definition') :
    DefinitionFits s strategy definition ↔ DefinitionFits s strategy definition' ∧ q := by
  cases exchanged with
  | operation kind vars rooted named inside selections selections' =>
    simp only [DefinitionFits, kind, vars, selections, selections', rooted, named,
      Option.some.injEq, exists_eq_left', selectionsFit_exchange (inside.fits_iff fits), and_assoc]
  | fragment condition named inside selections selections' =>
    simp only [DefinitionFits, condition, selections, selections', named, Option.some.injEq,
      exists_eq_left', selectionsFit_exchange (inside.fits_iff fits)]

theorem ExchangedIn.gives_iff {definition definition' : Definition}
    (gives : ValueGivesSome s strategy m ⟨type, .alone, a⟩ ↔
      ValueGivesSome s strategy m ⟨type, .alone, b⟩ ∨ q)
    (exchanged : ExchangedIn s type a b definition definition') :
    DefinitionGives s strategy m definition ↔ DefinitionGives s strategy m definition' ∨ q := by
  cases exchanged with
  | operation kind vars rooted named inside selections selections' =>
    simp only [DefinitionGives, kind, vars, selections, selections', rooted, named,
      Option.some.injEq, exists_eq_left', selectionsGive_exchange (inside.gives_iff gives),
      or_assoc]
  | fragment condition named inside selections selections' =>
    simp only [DefinitionGives, condition, selections, selections', named, Option.some.injEq,
      exists_eq_left', selectionsGive_exchange (inside.gives_iff gives)]

end Exchanges

/-! ## The variable -/

section Variable

variable {x : VariableDefinition} {type : TypeDefinition} {data : Json} {m : Mark}

/-- Nothing but the variable must fit besides where one more is declared. -/
theorem Declared.fits_iff {op op' : Operation} (declared : Declared x op op') :
    DefinitionFits s strategy (.operation op') ↔
      DefinitionFits s strategy (.operation op) ∧ VariableFits s strategy x := by
  obtain ⟨before, after, vars, vars'⟩ := declared.vars
  simp only [DefinitionFits, declared.kind, declared.selections, vars, vars',
    forall_mem_middle, and_assoc, and_comm (a := VariableFits s strategy x)]

theorem Declared.gives_iff {op op' : Operation} (declared : Declared x op op') :
    DefinitionGives s strategy m (.operation op') ↔
      DefinitionGives s strategy m (.operation op) ∨ VariableGives s strategy x m := by
  obtain ⟨before, after, vars, vars'⟩ := declared.vars
  simp only [DefinitionGives, declared.kind, declared.selections, vars, vars',
    exists_mem_middle, or_assoc, or_comm (a := VariableGives s strategy x m)]

/-- A variable by itself gives nothing where supplied values count. -/
theorem not_valueGivesSome_var (name : String) :
    ¬ ValueGivesSome s (.fromValues values) m ⟨type, .alone, .var name⟩ := by
  rw [valueGivesSome_leaf rfl]
  rintro (_ | literal | unsupplied)
  · cases literal
  · cases unsupplied

variable (named : s.firstType? x.type.innerName = some type)
  (supplied : values.lookup x.name = some data)

include named supplied

/-- A variable fits where the data fits that is supplied for it. -/
theorem variableFits_supplied :
    VariableFits s (.fromValues values) x ↔ DataFitsAll s (type, data) := by
  simp [VariableFits, named, supplied, dataFitsAll_iff]

theorem variableGives_supplied :
    VariableGives s (.fromValues values) x m ↔ DataGivesSome s m (type, data) := by
  simp [VariableGives, named, supplied, dataGivesSome_iff]

end Variable

theorem Exchanged.mem_types {type t : TypeDefinition} {a b : Value} {sel sel' : Selection}
    (exchanged : Exchanged s type a b t sel sel') : type ∈ s.types := by
  induction exchanged with
  | argument _ _ _ named => exact (Schema.lastType?_mem named).1
  | nested _ _ _ _ ih => exact ih
  | conditional _ _ ih => exact ih
  | unconditional _ ih => exact ih

theorem ExchangedIn.mem_types {type : TypeDefinition} {a b : Value}
    {definition definition' : Definition} :
    ExchangedIn s type a b definition definition' → type ∈ s.types
  | .operation _ _ _ _ inside _ _ => inside.mem_types
  | .fragment _ _ inside _ _ => inside.mem_types

/-! ## Other variables -/

section Others

variable {doc : Document} {strategy' : Strategy} {others : VariableValues}

/-- **Two strategies treat a document alike**: its declared variables count in the same way, and so
do the variables in its arguments. -/
structure TreatAlike (s : Schema) (doc : Document) (strategy strategy' : Strategy) : Prop where
  fits : ∀ op v, .operation op ∈ doc → v ∈ op.variableList →
    (VariableFits s strategy v ↔ VariableFits s strategy' v)
  gives : ∀ op v, .operation op ∈ doc → v ∈ op.variableList → ∀ m,
    (VariableGives s strategy v m ↔ VariableGives s strategy' v m)
  written : ∀ u held name, WrittenAt s doc u held (.var name) →
    strategy.prunes = strategy'.prunes

theorem TreatAlike.symm (alike : TreatAlike s doc strategy strategy') :
    TreatAlike s doc strategy' strategy where
  fits op v definition declared := (alike.fits op v definition declared).symm
  gives op v definition declared m := (alike.gives op v definition declared m).symm
  written u held name written := (alike.written u held name written).symm

theorem Resolves.of_alike (alike : TreatAlike s doc strategy strategy')
    (resolves : Resolves s strategy doc) : Resolves s strategy' doc where
  roots := resolves.roots
  conditions := resolves.conditions
  selections := resolves.selections
  vars op definition v declared :=
    (alike.fits op v definition declared).mp (resolves.vars op definition v declared)

theorem ValueGives.of_alike (alike : TreatAlike s doc strategy strategy') {u : TypeDefinition}
    {held : Held} {part : Value} {m : Mark} (written : WrittenAt s doc u held part)
    (gives : ValueGives strategy u held part m) : ValueGives strategy' u held part m := by
  cases gives with
  | enum => exact .enum
  | literal literal => exact .literal literal
  | var unsupplied => exact .var (alike.written _ _ _ written ▸ unsupplied)
  | item leaf => exact .item leaf
  | foreign kind => exact .foreign kind
  | key kind mem => exact .key kind mem

theorem Uses.of_alike (alike : TreatAlike s doc strategy strategy') {m : Mark}
    (used : Uses s strategy doc m) : Uses s strategy' doc m := by
  cases used with
  | selection stands gives =>
    refine .selection stands ?_
    cases gives with
    | names gives => exact .names gives
    | value ordinary declared given gives =>
      obtain ⟨argument, type, u, held, part, takes, named, position, gives⟩ := gives
      have written : WrittenAt s doc u held part :=
        .argument stands ordinary declared given takes named position
      exact .value ordinary declared given
        ⟨argument, type, u, held, part, takes, named, position, gives.of_alike alike written⟩
  | var definition declared gives =>
    exact .var definition declared ((alike.gives _ _ definition declared m).mp gives)

/-- A document has the same usage with strategies that treat it alike. -/
theorem usage_treatAlike (alike : TreatAlike s doc strategy strategy') (ids : List String) :
    usage s strategy doc = .ok ids ↔ usage s strategy' doc = .ok ids :=
  usage_congr ⟨.of_alike alike, .of_alike alike.symm⟩
    (fun _ => ⟨.of_alike alike, .of_alike alike.symm⟩) ids

/-- Values agree on the variables that a document declares. -/
def AgreeOn (doc : Document) (values others : VariableValues) : Prop :=
  ∀ op v, .operation op ∈ doc → v ∈ op.variableList →
    values.lookup v.name = others.lookup v.name

theorem AgreeOn.alike (agree : AgreeOn doc values others) :
    TreatAlike s doc (.fromValues values) (.fromValues others) where
  fits op v definition declared := by
    rw [VariableFits, VariableFits, agree op v definition declared]
  gives op v definition declared m := by
    rw [VariableGives, VariableGives, agree op v definition declared]
  written _ _ _ _ := rfl

/-- **No variable occurs in a document**: none is declared, and none is given to an argument. -/
structure VariableFree (s : Schema) (doc : Document) : Prop where
  undeclared : ∀ op, .operation op ∈ doc → op.variableList = []
  unwritten : ∀ u held name, ¬ WrittenAt s doc u held (.var name)

theorem VariableFree.alike (free : VariableFree s doc) : TreatAlike s doc strategy strategy' where
  fits op _ definition declared :=
    absurd (free.undeclared op definition ▸ declared) List.not_mem_nil
  gives op _ definition declared _ :=
    absurd (free.undeclared op definition ▸ declared) List.not_mem_nil
  written u held name written := absurd written (free.unwritten u held name)

end Others

/-! ## The usages -/

section Agreement

variable {type : TypeDefinition} {data : Json} {x : VariableDefinition} {doc other : Document}

/-- The usage with a variable is the one with the literal where values are supplied for both. -/
theorem usage_passed (distinct : (s.types.map TypeDefinition.name).Nodup)
    (conforms : Conforms s type data) (passed : PassedByVariable s type data x doc other)
    (typed : x.type.innerName = type.name) (supplied : values.lookup x.name = some data)
    (ids : List String) :
    usage s (.fromValues values) doc = .ok ids ↔ usage s (.fromValues values) other = .ok ids := by
  obtain ⟨exchanged, declares, declared⟩ := passed
  have named : s.firstType? x.type.innerName = some type :=
    typed ▸ firstType?_of_mem distinct exchanged.mem_types
  have fits : ValueFitsAll s ⟨type, .alone, literalOf data⟩ ↔
      ValueFitsAll s ⟨type, .alone, .var x.name⟩ ∧ DataFitsAll s (type, data) :=
    (conforms.fits_iff distinct .alone).trans (and_iff_right (valueFitsAll_leaf rfl)).symm
  have gives (m : Mark) : ValueGivesSome s (.fromValues values) m ⟨type, .alone, literalOf data⟩ ↔
      ValueGivesSome s (.fromValues values) m ⟨type, .alone, .var x.name⟩ ∨
        DataGivesSome s m (type, data) :=
    (conforms.gives_iff distinct .alone m).trans (or_iff_right (not_valueGivesSome_var _)).symm
  refine usage_congr ?_ (fun m => ?_) ids
  · rw [resolves_iff, resolves_iff, forall_mem_exchange (exchanged.fits_iff fits), declares,
      ← variableFits_supplied named supplied, ← forall_mem_exchange declared.fits_iff]
  · rw [uses_iff, uses_iff, exists_mem_exchange (exchanged.gives_iff (gives m)), declares,
      ← variableGives_supplied named supplied, ← exists_mem_exchange declared.gives_iff]

/-- **A literal and a variable with its value agree.** For data that conforms to the type of an
argument, the document that has the literal in the argument and the document that has a variable
there which is supplied with the data have the same usage. The other variables of the first
document may have any values on which the second agrees, or there are none at all and their whole
types would count. -/
theorem literal_agrees_with_variable (distinct : (s.types.map TypeDefinition.name).Nodup)
    (conforms : Conforms s type data) (passed : PassedByVariable s type data x doc other)
    (typed : x.type.innerName = type.name) (supplied : values.lookup x.name = some data) :
    (∀ others, AgreeOn doc others values → ∀ ids,
      usage s (.fromValues others) doc = .ok ids ↔ usage s (.fromValues values) other = .ok ids) ∧
    (VariableFree s doc → ∀ ids,
      usage s .wholeTypes doc = .ok ids ↔ usage s (.fromValues values) other = .ok ids) := by
  have passed (ids : List String) := usage_passed distinct conforms passed typed supplied ids
  exact ⟨fun others agree ids => (usage_treatAlike agree.alike ids).trans (passed ids),
    fun free ids => (usage_treatAlike free.alike ids).trans (passed ids)⟩

end Agreement

/-! ## Objects in nested lists -/

theorem literalOf_ne_var (data : Json) (name : String) : literalOf data ≠ .var name := by
  cases data <;> exact nofun

/-- The parts of a literal of data are literals of data. -/
theorem exists_literalOf_of_valueAt {t u : TypeDefinition} {data : Json} {held : Held}
    {part : Value} (position : ValueAt s t (literalOf data) u held part) :
    ∃ inner, part = literalOf inner := by
  induction position with
  | whole => exact ⟨data, rfl⟩
  | item _ mem ih =>
    obtain ⟨inner, same⟩ := ih
    cases inner with
    | arr items =>
      rw [literalOf, literalItems_eq, Value.list.injEq] at same
      obtain ⟨item, -, rfl⟩ := List.mem_map.mp (same ▸ mem)
      exact ⟨item, rfl⟩
    | _ => cases same
  | member _ _ mem _ _ ih =>
    obtain ⟨inner, same⟩ := ih
    cases inner with
    | obj members =>
      rw [literalOf, literalMembers_eq, Value.object.injEq] at same
      obtain ⟨member, -, same⟩ := List.mem_map.mp (same ▸ mem)
      cases same
      exact ⟨member.2, rfl⟩
    | _ => cases same

/-- A filter with a scalar and with lists of filters. -/
def nestedFilter : TypeDefinition :=
  ⟨none, "Filter", [], .inputObject [⟨none, "limit", .named "Int", none, []⟩,
    ⟨none, "rows", .list (.list (.named "Filter")), none, []⟩]⟩

/-- A field that takes a filter. -/
def searchField : FieldDefinition :=
  ⟨none, "search", [⟨none, "by", .named "Filter", none, []⟩], .named "Int", []⟩

/-- The schema of `searchDocument`. -/
def searchSchema : Schema :=
  [.type ⟨none, "Query", [], .object [] [searchField]⟩, .type nestedFilter,
    .type ⟨none, "Int", [], .scalar⟩]

/-- A filter whose two rows have one filter each. -/
def searchData : Json := .obj [("rows", .arr [.arr [.obj [("limit", .int 1)]], .arr [.obj []]])]

/-- The selection `search(by: value)`. -/
def searchBy (value : Value) : Selection := .field none "search" [("by", value)] [] []

/-- The query `{ search(by: value) }`. -/
def searchDocument (value : Value) : Document := [.operation (.shorthand [searchBy value])]

/-- The query `query ($f: Filter) { search(by: $f) }`. -/
def searchByVariable : Document :=
  [.operation (.full .query none [⟨"f", .named "Filter", none⟩] [] [searchBy (.var "f")])]

/-- The marks of the search. -/
def searchMarks : List Mark :=
  [.identifier "Query.search", .identifier "Query.search.by", .whole "Int",
    .field "Filter" "limit", .field "Filter" "rows"]

/-- The usage of the search, with both keys of the filter. -/
def searchUsage : List String :=
  ["Filter.limit", "Filter.rows", "Int", "Query.search", "Query.search.by"]

theorem conforms_searchData : Conforms searchSchema nestedFilter searchData := by
  have row : Conforms searchSchema nestedFilter (.obj [("limit", .int 1)]) := by
    refine .object rfl (fun member mem => ?_) fun member mem field u declared named => ?_
    · cases List.mem_singleton.mp mem
      exact ⟨_, rfl⟩
    · cases List.mem_singleton.mp mem
      cases declared
      cases named
      exact .scalar rfl nofun
  have empty : Conforms searchSchema nestedFilter (.obj []) := .object rfl nofun nofun
  refine .object rfl (fun member mem => ?_) fun member mem field u declared named => ?_
  · cases List.mem_singleton.mp mem
    exact ⟨_, rfl⟩
  · cases List.mem_singleton.mp mem
    cases declared
    cases named
    refine .list nofun fun items mem => ?_
    rcases List.mem_pair.mp mem with rfl | rfl
    · exact .list nofun fun item mem => List.mem_singleton.mp mem ▸ row
    · exact .list nofun fun item mem => List.mem_singleton.mp mem ▸ empty

theorem variableFree_searchDocument :
    VariableFree searchSchema (searchDocument (literalOf searchData)) where
  undeclared op definition := by
    cases List.mem_singleton.mp definition
    rfl
  unwritten := by
    rintro u held name ⟨stands, -, -, given, -, -, position⟩
    cases stands.eq_of_single rfl
    cases List.mem_singleton.mp given
    obtain ⟨inner, same⟩ := exists_literalOf_of_valueAt position
    exact literalOf_ne_var inner name same.symm

theorem passedByVariable_search :
    PassedByVariable searchSchema nestedFilter searchData ⟨"f", .named "Filter", none⟩
      (searchDocument (literalOf searchData)) searchByVariable := by
  have argument : Exchanged searchSchema nestedFilter (literalOf searchData) (.var "f")
      ⟨none, "Query", [], .object [] [searchField]⟩
      (.field none "search" ([] ++ ("by", literalOf searchData) :: []) [] [])
      (.field none "search" ([] ++ ("by", .var "f") :: []) [] []) :=
    .argument (by decide) rfl rfl rfl
  have operation : ExchangedIn searchSchema nestedFilter (literalOf searchData) (.var "f")
      (.operation (.shorthand ([] ++ searchBy (literalOf searchData) :: [])))
      (.operation (.shorthand ([] ++ searchBy (.var "f") :: []))) :=
    .operation rfl rfl rfl rfl argument rfl rfl
  exact @PassedByVariable.mk _ _ _ _ [] [] [] [] _ _ _ _ operation rfl ⟨rfl, rfl, [], [], rfl, rfl⟩

theorem literal_agrees_with_variable_search :
    usage searchSchema .wholeTypes (searchDocument (literalOf searchData)) = .ok searchUsage ∧
      usage searchSchema (.fromValues [("f", searchData)]) searchByVariable = .ok searchUsage := by
  have found : usage searchSchema .wholeTypes (searchDocument (literalOf searchData)) =
      .ok searchUsage :=
    usage_eq_ok.mpr ⟨searchMarks, _, rfl, by cbv,
      (ascending_eq (by decide) (by decide) (by decide)).symm⟩
  have supplied : ([("f", searchData)] : VariableValues).lookup "f" = some searchData := rfl
  have agrees := literal_agrees_with_variable (by decide) conforms_searchData
    passedByVariable_search rfl supplied
  exact ⟨found, (agrees.2 variableFree_searchDocument _).mp found⟩

end SchemaUsage.Usage

import SchemaUsage.Proofs.Usage.Supplied
import SchemaUsage.Proofs.Usage.Written
import SchemaUsage.Usage.Standing

/-!
# What a document uses

About `UsageWalker`. The marks of a document, told without the walk: a document uses what its
selections give in the types where they stand, and what the variables of its operations give. It has
marks if and only if every name that it refers to on the way is defined.

* `Encloses` leads from a selection to the ones right inside of it. Where `Stands` puts a selection
  is what can be reached by such steps from the selections of the definitions.
* `SelectionFits` and `VariableFits` say what must be defined for a selection and a variable,
  `SelectionGives` and `VariableGives` what they give.

Results:
- `selectionMarks_exact`: a selection has the marks that the selections in it give.
- `documentMarks_exact`: a document has the marks of what it uses.
-/

namespace SchemaUsage.Usage

open Relation
open SchemaUsage.Graphql

variable {s : Schema} {strategy : Strategy}

/-! ## Selections -/

/-- A selection right inside of another, each with the type in which it stands. -/
inductive Encloses (s : Schema) : TypeDefinition × Selection → TypeDefinition × Selection → Prop
    where
  | nested {t u : TypeDefinition} {aliasName : Option String} {name : String} {args : Arguments}
      {directives : List Directive} {selections : List Selection} {field : FieldDefinition}
      {sel : Selection} (ordinary : name ∉ metaFields) (declared : t.field? name = some field)
      (type : s.lastType? field.type.innerName = some u) (selected : sel ∈ selections) :
      Encloses s (t, .field aliasName name args directives selections) (u, sel)
  | conditional {t u : TypeDefinition} {condition : String} {directives : List Directive}
      {selections : List Selection} {sel : Selection} (type : s.lastType? condition = some u)
      (selected : sel ∈ selections) :
      Encloses s (t, .inline (some condition) directives selections) (u, sel)
  | unconditional {t : TypeDefinition} {directives : List Directive}
      {selections : List Selection} {sel : Selection} (selected : sel ∈ selections) :
      Encloses s (t, .inline none directives selections) (t, sel)

/-- A selection of a definition itself, with the type in which it stands. -/
inductive Starts (s : Schema) (doc : Document) : TypeDefinition × Selection → Prop where
  | operation {op : Operation} {root : String} {t : TypeDefinition} {sel : Selection}
      (definition : .operation op ∈ doc) (named : s.rootName? op.kind = some root)
      (type : s.lastType? root = some t) (selected : sel ∈ op.selections) : Starts s doc (t, sel)
  | fragment {frag : Fragment} {t : TypeDefinition} {sel : Selection}
      (definition : .fragment frag ∈ doc) (type : s.lastType? frag.condition = some t)
      (selected : sel ∈ frag.selections) : Starts s doc (t, sel)

theorem stands_iff {doc : Document} {t : TypeDefinition} {sel : Selection} :
    Stands s doc t sel ↔ ∃ a, Starts s doc a ∧ ReflTransGen (Encloses s) a (t, sel) := by
  constructor
  · intro h
    induction h with
    | operation definition named type selected =>
      exact ⟨_, .operation definition named type selected, .refl⟩
    | fragment definition type selected => exact ⟨_, .fragment definition type selected, .refl⟩
    | nested _ ordinary declared type selected ih =>
      obtain ⟨a, start, path⟩ := ih
      exact ⟨a, start, path.tail (.nested ordinary declared type selected)⟩
    | conditional _ type selected ih =>
      obtain ⟨a, start, path⟩ := ih
      exact ⟨a, start, path.tail (.conditional type selected)⟩
    | unconditional _ selected ih =>
      obtain ⟨a, start, path⟩ := ih
      exact ⟨a, start, path.tail (.unconditional selected)⟩
  · rintro ⟨a, start, path⟩
    suffices ∀ {b}, ReflTransGen (Encloses s) a b → Stands s doc b.1 b.2 from this path
    intro b path
    induction path with
    | refl =>
      cases start with
      | operation definition named type selected => exact .operation definition named type selected
      | fragment definition type selected => exact .fragment definition type selected
    | tail _ inside ih =>
      cases inside with
      | nested ordinary declared type selected => exact .nested ih ordinary declared type selected
      | conditional type selected => exact .conditional ih type selected
      | unconditional selected => exact .unconditional ih selected

/-- An argument is declared with a defined type at which its value fits. -/
def ArgumentFits (s : Schema) (field : FieldDefinition) (arg : String × Value) : Prop :=
  ∃ argument t, field.argument? arg.1 = some argument ∧
    s.lastType? argument.type.innerName = some t ∧
    ∀ u held part, ValueAt s t arg.2 u held part → ValueFits s u part

/-- The value of an argument gives what its positions give. -/
def ArgumentGives (s : Schema) (strategy : Strategy) (field : FieldDefinition)
    (arg : String × Value) (m : Mark) : Prop :=
  ∃ argument t u held part, field.argument? arg.1 = some argument ∧
    s.lastType? argument.type.innerName = some t ∧ ValueAt s t arg.2 u held part ∧
    ValueGives strategy u held part m

/-- **What must be defined for a selection** in the type where it stands: a field, its arguments
and, if it has selections, its type; the condition of an inline fragment. -/
def SelectionFits (s : Schema) (t : TypeDefinition) : Selection → Prop
  | .field _ name args _ selections => name ∉ metaFields → ∃ field, t.field? name = some field ∧
      (∀ arg ∈ args, ArgumentFits s field arg) ∧
      (selections ≠ [] → ∃ u, s.lastType? field.type.innerName = some u)
  | .spread _ _ => True
  | .inline (some condition) _ _ => ∃ u, s.lastType? condition = some u
  | .inline none _ _ => True

/-- **What a selection gives** in the type where it stands: the identifiers of a field and of its
arguments, and what the values of the arguments give. -/
inductive SelectionGives (s : Schema) (strategy : Strategy) (t : TypeDefinition) :
    Selection → Mark → Prop where
  | names {sel : Selection} {id : String} (gives : Gives t sel id) :
      SelectionGives s strategy t sel (.identifier id)
  | value {aliasName : Option String} {name : String} {args : Arguments}
      {directives : List Directive} {selections : List Selection} {field : FieldDefinition}
      {arg : String × Value} {m : Mark} (ordinary : name ∉ metaFields)
      (declared : t.field? name = some field) (given : arg ∈ args)
      (gives : ArgumentGives s strategy field arg m) :
      SelectionGives s strategy t (.field aliasName name args directives selections) m

theorem argumentMarks_exact (t : TypeDefinition) (field : FieldDefinition)
    (arg : String × Value) :
    Exact (argumentMarks s strategy t field arg) (ArgumentFits s field arg)
      fun m => m = .identifier (argumentId t.name field.name arg.1) ∨
        ArgumentGives s strategy field arg m := by
  unfold argumentMarks
  cases declared : field.argument? arg.1 with
  | none =>
    refine .error _ ?_
    rintro ⟨argument, _, declared', _⟩
    rw [declared] at declared'
    cases declared'
  | some argument =>
    have name : Exact (.ok [Mark.identifier (argumentId t.name field.name arg.1)] :
        Except UsageError (List Mark)) True _ := .single _
    refine (name.joined (givenMarks_exact argument.type arg.2)).congr ?_ fun _ m => ?_
    · simp [ArgumentFits, declared, valueFitsAll_iff]
    · simp [ArgumentGives, declared, valueGivesSome_iff]

/-- All selections in a selection fit. -/
abbrev SelectionFitsAll (s : Schema) (place : TypeDefinition × Selection) : Prop :=
  Everywhere (Encloses s) (fun p => SelectionFits s p.1 p.2) place

/-- Some selection in a selection gives a mark. -/
abbrev SelectionGivesSome (s : Schema) (strategy : Strategy) (m : Mark)
    (place : TypeDefinition × Selection) : Prop :=
  Somewhere (Encloses s) (fun p => SelectionGives s strategy p.1 p.2 m) place

section Field

variable {t : TypeDefinition} {aliasName : Option String} {name : String} {args : Arguments}
  {directives : List Directive} {selections : List Selection} {field : FieldDefinition}

theorem field?_name (declared : t.field? name = some field) : field.name = name := by
  simpa using List.find?_some declared

theorem gives_meta (special : name ∈ metaFields) {id : String} :
    Gives t (.field aliasName name args directives selections) id ↔
      name = "__typename" ∧ id = fieldId t.name name := by
  constructor
  · rintro (ordinary | ordinary | _)
    · exact absurd special ordinary
    · exact absurd special ordinary
    · exact ⟨rfl, rfl⟩
  · rintro ⟨rfl, rfl⟩
    exact .typename

theorem gives_ordinary (ordinary : name ∉ metaFields) {id : String} :
    Gives t (.field aliasName name args directives selections) id ↔
      id = fieldId t.name name ∨ ∃ arg ∈ args, id = argumentId t.name name arg.1 := by
  constructor
  · intro gives
    cases gives with
    | field _ => exact .inl rfl
    | argument _ given => exact .inr ⟨_, given, rfl⟩
    | typename => exact absurd (by simp [metaFields]) ordinary
  · rintro (rfl | ⟨⟨argument, value⟩, given, rfl⟩)
    · exact .field ordinary
    · exact .argument ordinary given

theorem selectionFitsAll_meta (special : name ∈ metaFields) :
    SelectionFitsAll s (t, .field aliasName name args directives selections) := by
  rw [SelectionFitsAll, everywhere_iff]
  constructor
  · exact fun ordinary => absurd special ordinary
  · rintro p (ordinary | _)
    exact absurd special ordinary

theorem selectionGivesSome_meta (special : name ∈ metaFields) (m : Mark) :
    SelectionGivesSome s strategy m (t, .field aliasName name args directives selections) ↔
      name = "__typename" ∧ m = .identifier (fieldId t.name name) := by
  rw [SelectionGivesSome, somewhere_iff]
  constructor
  · rintro (gives | ⟨p, inside, _⟩)
    · cases gives with
      | names gives =>
        obtain ⟨typename, rfl⟩ := (gives_meta special).mp gives
        exact ⟨typename, rfl⟩
      | value ordinary _ _ _ => exact absurd special ordinary
    · cases inside with
      | nested ordinary _ _ _ => exact absurd special ordinary
  · rintro ⟨typename, rfl⟩
    exact .inl (.names ((gives_meta special).mpr ⟨typename, rfl⟩))

/-- The type of a field that has selections is defined, and the selections fit in it. -/
def NestedFits (s : Schema) (field : FieldDefinition) (selections : List Selection) : Prop :=
  (selections ≠ [] → ∃ u, s.lastType? field.type.innerName = some u) ∧
    ∀ u, s.lastType? field.type.innerName = some u →
      ∀ sel ∈ selections, SelectionFitsAll s (u, sel)

/-- Some selection of a field gives a mark. -/
def NestedGives (s : Schema) (strategy : Strategy) (field : FieldDefinition)
    (selections : List Selection) (m : Mark) : Prop :=
  ∃ u, s.lastType? field.type.innerName = some u ∧
    ∃ sel ∈ selections, SelectionGivesSome s strategy m (u, sel)

theorem selectionFitsAll_field (ordinary : name ∉ metaFields) :
    SelectionFitsAll s (t, .field aliasName name args directives selections) ↔
      ∃ field, t.field? name = some field ∧ (∀ arg ∈ args, ArgumentFits s field arg) ∧
        NestedFits s field selections := by
  rw [SelectionFitsAll, everywhere_iff]
  constructor
  · rintro ⟨here, inside⟩
    obtain ⟨field, declared, arguments, type⟩ := here ordinary
    exact ⟨field, declared, arguments, type, fun u named sel selected =>
      inside _ (.nested ordinary declared named selected)⟩
  · rintro ⟨field, declared, arguments, type, nested⟩
    refine ⟨fun _ => ⟨field, declared, arguments, type⟩, ?_⟩
    rintro p (⟨_, declared', named, selected⟩ | _)
    rw [declared] at declared'
    cases declared'
    exact nested _ named _ selected

theorem selectionGivesSome_field (ordinary : name ∉ metaFields)
    (declared : t.field? name = some field) (m : Mark) :
    SelectionGivesSome s strategy m (t, .field aliasName name args directives selections) ↔
      m = .identifier (fieldId t.name name) ∨
        (∃ arg ∈ args, m = .identifier (argumentId t.name field.name arg.1) ∨
          ArgumentGives s strategy field arg m) ∨
        NestedGives s strategy field selections m := by
  rw [SelectionGivesSome, somewhere_iff, field?_name declared]
  constructor
  · rintro (gives | ⟨p, inside, gives⟩)
    · cases gives with
      | names gives =>
        rcases (gives_ordinary ordinary).mp gives with rfl | ⟨arg, given, rfl⟩
        · exact .inl rfl
        · exact .inr (.inl ⟨arg, given, .inl rfl⟩)
      | value _ declared' given gives =>
        rw [declared] at declared'
        cases declared'
        exact .inr (.inl ⟨_, given, .inr gives⟩)
    · cases inside with
      | nested _ declared' named selected =>
        rw [declared] at declared'
        cases declared'
        exact .inr (.inr ⟨_, named, _, selected, gives⟩)
  · rintro (rfl | ⟨arg, given, rfl | gives⟩ | ⟨u, named, sel, selected, gives⟩)
    · exact .inl (.names ((gives_ordinary ordinary).mpr (.inl rfl)))
    · exact .inl (.names ((gives_ordinary ordinary).mpr (.inr ⟨arg, given, rfl⟩)))
    · exact .inl (.value ordinary declared given gives)
    · exact .inr ⟨_, .nested ordinary declared named selected, gives⟩

end Field

section Fragment

variable {t : TypeDefinition} {directives : List Directive} {selections : List Selection}

theorem not_gives_of_not_field {sel : Selection}
    (other : ∀ a name args ds sels, sel ≠ .field a name args ds sels) (m : Mark) :
    ¬ SelectionGives s strategy t sel m := by
  intro gives
  cases gives with
  | names gives => cases gives <;> exact other _ _ _ _ _ rfl
  | value _ _ _ _ => exact other _ _ _ _ _ rfl

theorem selectionFitsAll_spread (fragment : String) :
    SelectionFitsAll s (t, .spread fragment directives) := by
  rw [SelectionFitsAll, everywhere_iff]
  exact ⟨trivial, nofun⟩

theorem not_selectionGivesSome_spread (fragment : String) (m : Mark) :
    ¬ SelectionGivesSome s strategy m (t, .spread fragment directives) := by
  rw [SelectionGivesSome, somewhere_iff]
  rintro (gives | ⟨p, inside, _⟩)
  · exact not_gives_of_not_field (by simp) m gives
  · cases inside

theorem selectionFitsAll_conditional (condition : String) :
    SelectionFitsAll s (t, .inline (some condition) directives selections) ↔
      ∃ u, s.lastType? condition = some u ∧ ∀ sel ∈ selections, SelectionFitsAll s (u, sel) := by
  rw [SelectionFitsAll, everywhere_iff]
  constructor
  · rintro ⟨⟨u, named⟩, inside⟩
    exact ⟨u, named, fun sel selected => inside _ (.conditional named selected)⟩
  · rintro ⟨u, named, fits⟩
    refine ⟨⟨u, named⟩, ?_⟩
    rintro p (_ | ⟨named', selected⟩)
    rw [named] at named'
    cases named'
    exact fits _ selected

theorem selectionGivesSome_conditional (condition : String) (m : Mark) :
    SelectionGivesSome s strategy m (t, .inline (some condition) directives selections) ↔
      ∃ u, s.lastType? condition = some u ∧
        ∃ sel ∈ selections, SelectionGivesSome s strategy m (u, sel) := by
  rw [SelectionGivesSome, somewhere_iff]
  constructor
  · rintro (gives | ⟨p, inside, gives⟩)
    · exact absurd gives (not_gives_of_not_field (by simp) m)
    · cases inside with
      | conditional named selected => exact ⟨_, named, _, selected, gives⟩
  · rintro ⟨u, named, sel, selected, gives⟩
    exact .inr ⟨_, .conditional named selected, gives⟩

theorem selectionFitsAll_unconditional :
    SelectionFitsAll s (t, .inline none directives selections) ↔
      ∀ sel ∈ selections, SelectionFitsAll s (t, sel) := by
  rw [SelectionFitsAll, everywhere_iff]
  constructor
  · rintro ⟨-, inside⟩ sel selected
    exact inside _ (.unconditional selected)
  · intro fits
    refine ⟨trivial, ?_⟩
    rintro p (_ | _ | selected)
    exact fits _ selected

theorem selectionGivesSome_unconditional (m : Mark) :
    SelectionGivesSome s strategy m (t, .inline none directives selections) ↔
      ∃ sel ∈ selections, SelectionGivesSome s strategy m (t, sel) := by
  rw [SelectionGivesSome, somewhere_iff]
  constructor
  · rintro (gives | ⟨p, inside, gives⟩)
    · exact absurd gives (not_gives_of_not_field (by simp) m)
    · cases inside with
      | unconditional selected => exact ⟨_, selected, gives⟩
  · rintro ⟨sel, selected, gives⟩
    exact .inr ⟨_, .unconditional selected, gives⟩

end Fragment

theorem not_mem_metaFields {name : String} :
    name ∉ metaFields ↔ name ≠ "__typename" ∧ ¬ (name = "__schema" ∨ name = "__type") := by
  simp [metaFields]

mutual
/-- **A selection has the marks that the selections in it give.** -/
theorem selectionMarks_exact : ∀ (sel : Selection) (t : TypeDefinition),
    Exact (selectionMarks s strategy t sel) (SelectionFitsAll s (t, sel))
      fun m => SelectionGivesSome s strategy m (t, sel)
  | .field aliasName name args directives selections, t => by
    rw [selectionMarks]
    split
    · rename_i typename
      have special : name ∈ metaFields := by simp [typename, metaFields]
      refine (Exact.single _).congr ?_ fun _ m => ?_
      · exact iff_of_true trivial (selectionFitsAll_meta special)
      · rw [selectionGivesSome_meta special, and_iff_right typename]
    split
    · rename_i typename other
      have special : name ∈ metaFields := by rcases other with rfl | rfl <;> simp [metaFields]
      refine Exact.nil.congr ?_ fun _ m => ?_
      · exact iff_of_true trivial (selectionFitsAll_meta special)
      · rw [selectionGivesSome_meta special]
        exact iff_of_false id fun h => typename h.1
    · rename_i typename other
      have ordinary : name ∉ metaFields := not_mem_metaFields.mpr ⟨typename, other⟩
      cases declared : t.field? name with
      | none =>
        refine .error _ fun fits => ?_
        obtain ⟨field, declared', -⟩ := (selectionFitsAll_field ordinary).mp fits
        rw [declared] at declared'
        cases declared'
      | some field =>
        have id : Exact (.ok [Mark.identifier (fieldId t.name name)] :
            Except UsageError (List Mark)) True _ := .single _
        have given : Exact (gather (argumentMarks s strategy t field) args) _ _ :=
          .gather fun arg _ => argumentMarks_exact t field arg
        refine (id.joined (given.joined (nestedMarks_exact selections field))).congr ?_
          fun _ m => ?_
        · simp [selectionFitsAll_field ordinary, declared]
        · rw [selectionGivesSome_field ordinary declared]
  | .spread fragment _, t => by
    rw [selectionMarks]
    refine Exact.nil.congr ?_ fun _ m => ?_
    · exact iff_of_true trivial (selectionFitsAll_spread fragment)
    · exact iff_of_false id (not_selectionGivesSome_spread fragment m)
  | .inline (some condition) _ selections, t => by
    rw [selectionMarks]
    refine (lastType_bind_exact condition fun u => selectionsMarks_exact selections u).congr ?_
      fun _ m => ?_
    · rw [selectionFitsAll_conditional]
    · rw [selectionGivesSome_conditional]
  | .inline none _ selections, t => by
    rw [selectionMarks]
    refine (selectionsMarks_exact selections t).congr ?_ fun _ m => ?_
    · rw [selectionFitsAll_unconditional]
    · rw [selectionGivesSome_unconditional]
theorem nestedMarks_exact : ∀ (selections : List Selection) (field : FieldDefinition),
    Exact (nestedMarks s strategy field selections) (NestedFits s field selections)
      fun m => NestedGives s strategy field selections m
  | [], field => Exact.nil.congr (by simp [NestedFits])
      (by simp [NestedGives])
  | first :: others, field => by
    rw [nestedMarks]
    refine (lastType_bind_exact _ fun u =>
      (selectionMarks_exact first u).joined (selectionsMarks_exact others u)).congr ?_
      fun _ m => ?_
    · constructor
      · rintro ⟨u, named, here, there⟩
        refine ⟨fun _ => ⟨u, named⟩, fun v named' => ?_⟩
        rw [named] at named'
        cases named'
        exact List.forall_mem_cons.mpr ⟨here, there⟩
      · rintro ⟨defined, fits⟩
        obtain ⟨u, named⟩ := defined (List.cons_ne_nil _ _)
        exact ⟨u, named, List.forall_mem_cons.mp (fits u named)⟩
    · simp [NestedGives]
theorem selectionsMarks_exact : ∀ (selections : List Selection) (t : TypeDefinition),
    Exact (selectionsMarks s strategy t selections)
      (∀ sel ∈ selections, SelectionFitsAll s (t, sel))
      fun m => ∃ sel ∈ selections, SelectionGivesSome s strategy m (t, sel)
  | [], _ => Exact.nil.congr (by simp) (by simp)
  | first :: others, t => by
    rw [selectionsMarks]
    refine ((selectionMarks_exact first t).joined (selectionsMarks_exact others t)).congr ?_
      fun _ m => ?_
    · rw [List.forall_mem_cons]
    · simp
end

/-! ## Documents -/

/-- **What must be defined for a variable**: where supplied values count, its type and the types of
the declared keys in its value. -/
def VariableFits (s : Schema) : Strategy → VariableDefinition → Prop
  | .wholeTypes, _ => True
  | .fromValues values, v => ∃ t, s.firstType? v.type.innerName = some t ∧
      ∀ u part, DataAt s t ((values.lookup v.name).getD .null) u part → DataFits s u part

/-- **What a variable gives**: its type as a whole, or what its supplied value gives. -/
def VariableGives (s : Schema) : Strategy → VariableDefinition → Mark → Prop
  | .wholeTypes, v, m => m = .whole v.type.innerName
  | .fromValues values, v, m => ∃ t u part, s.firstType? v.type.innerName = some t ∧
      DataAt s t ((values.lookup v.name).getD .null) u part ∧ DataGives u part m

/-- **Every name that the usage of a document refers to is defined.** -/
structure Resolves (s : Schema) (strategy : Strategy) (doc : Document) : Prop where
  roots : ∀ op, .operation op ∈ doc →
    ∃ root t, s.rootName? op.kind = some root ∧ s.lastType? root = some t
  conditions : ∀ frag, .fragment frag ∈ doc → ∃ t, s.lastType? frag.condition = some t
  selections : ∀ t sel, Stands s doc t sel → SelectionFits s t sel
  vars : ∀ op, .operation op ∈ doc → ∀ v ∈ op.variableList, VariableFits s strategy v

/-- **A document uses something**: a selection gives it where it stands, or a variable does. -/
inductive Uses (s : Schema) (strategy : Strategy) (doc : Document) (m : Mark) : Prop where
  | selection {t : TypeDefinition} {sel : Selection} (stands : Stands s doc t sel)
      (gives : SelectionGives s strategy t sel m)
  | var {op : Operation} {v : VariableDefinition} (definition : .operation op ∈ doc)
      (declared : v ∈ op.variableList) (gives : VariableGives s strategy v m)

theorem variableMarks_exact (v : VariableDefinition) :
    Exact (variableMarks s strategy v) (VariableFits s strategy v)
      (VariableGives s strategy v) := by
  cases strategy with
  | wholeTypes => exact .single _
  | fromValues values =>
    have supplied : Exact (variableMarks s (.fromValues values) v) _ _ :=
      .bind (fun _ => firstType_eq_ok) fun u =>
        valueMarks_exact ((values.lookup v.name).getD .null) u
    refine supplied.congr ?_ fun _ m => ?_
    · simp only [VariableFits, dataFitsAll_iff]
    · simp only [VariableGives, dataGivesSome_iff, exists_and_left]

theorem rootOf_eq_ok {kind : OperationKind} {t : TypeDefinition} :
    rootOf s kind = .ok t ↔
      ∃ root, s.rootName? kind = some root ∧ s.lastType? root = some t := by
  unfold rootOf
  rw [← Option.bind_eq_some_iff]
  cases (s.rootName? kind).bind s.lastType? <;> simp

/-- What must be defined for a definition. -/
def DefinitionFits (s : Schema) (strategy : Strategy) : Definition → Prop
  | .operation op => (∀ v ∈ op.variableList, VariableFits s strategy v) ∧
      ∃ t, (∃ root, s.rootName? op.kind = some root ∧ s.lastType? root = some t) ∧
        ∀ sel ∈ op.selections, SelectionFitsAll s (t, sel)
  | .fragment frag => ∃ t, s.lastType? frag.condition = some t ∧
      ∀ sel ∈ frag.selections, SelectionFitsAll s (t, sel)

/-- What a definition gives. -/
def DefinitionGives (s : Schema) (strategy : Strategy) (m : Mark) : Definition → Prop
  | .operation op => (∃ v ∈ op.variableList, VariableGives s strategy v m) ∨
      ∃ t, (∃ root, s.rootName? op.kind = some root ∧ s.lastType? root = some t) ∧
        ∃ sel ∈ op.selections, SelectionGivesSome s strategy m (t, sel)
  | .fragment frag => ∃ t, s.lastType? frag.condition = some t ∧
      ∃ sel ∈ frag.selections, SelectionGivesSome s strategy m (t, sel)

theorem definitionMarks_exact : ∀ definition : Definition,
    Exact (definitionMarks s strategy definition) (DefinitionFits s strategy definition)
      fun m => DefinitionGives s strategy m definition
  | .operation op =>
    (Exact.gather fun v _ => variableMarks_exact v).joined
      (.bind (fun _ => rootOf_eq_ok) fun t => selectionsMarks_exact op.selections t)
  | .fragment frag => lastType_bind_exact frag.condition fun t =>
      selectionsMarks_exact frag.selections t

theorem resolves_iff {doc : Document} :
    Resolves s strategy doc ↔ ∀ definition ∈ doc, DefinitionFits s strategy definition := by
  constructor
  · rintro ⟨roots, conditions, selections, vars⟩ definition mem
    have fits {a : TypeDefinition × Selection} (start : Starts s doc a) :
        SelectionFitsAll s a := fun b path =>
      selections b.1 b.2 (stands_iff.mpr ⟨a, start, path⟩)
    cases definition with
    | operation op =>
      obtain ⟨root, t, named, type⟩ := roots op mem
      exact ⟨vars op mem, t, ⟨root, named, type⟩, fun sel selected =>
        fits (.operation mem named type selected)⟩
    | fragment frag =>
      obtain ⟨t, type⟩ := conditions frag mem
      exact ⟨t, type, fun sel selected => fits (.fragment mem type selected)⟩
  · intro h
    refine ⟨fun op mem => ?_, fun frag mem => ?_, fun t sel stands => ?_, fun op mem => (h _ mem).1⟩
    · obtain ⟨-, t, ⟨root, named, type⟩, -⟩ := h _ mem
      exact ⟨root, t, named, type⟩
    · obtain ⟨t, type, -⟩ := h _ mem
      exact ⟨t, type⟩
    · obtain ⟨a, start, path⟩ := stands_iff.mp stands
      cases start with
      | operation mem named type selected =>
        obtain ⟨-, t, ⟨root, named', type'⟩, fits⟩ := h _ mem
        rw [named] at named'
        cases named'
        rw [type] at type'
        cases type'
        exact fits _ selected _ path
      | fragment mem type selected =>
        obtain ⟨t, type', fits⟩ := h _ mem
        rw [type] at type'
        cases type'
        exact fits _ selected _ path

theorem uses_iff {doc : Document} {m : Mark} :
    Uses s strategy doc m ↔ ∃ definition ∈ doc, DefinitionGives s strategy m definition := by
  constructor
  · rintro (⟨stands, gives⟩ | ⟨mem, declared, gives⟩)
    · obtain ⟨a, start, path⟩ := stands_iff.mp stands
      cases start with
      | operation mem named type selected =>
        exact ⟨_, mem, .inr ⟨_, ⟨_, named, type⟩, _, selected, _, path, gives⟩⟩
      | fragment mem type selected => exact ⟨_, mem, _, type, _, selected, _, path, gives⟩
    · exact ⟨_, mem, .inl ⟨_, declared, gives⟩⟩
  · rintro ⟨op | frag, mem, gives⟩
    · rcases gives with ⟨v, declared, gives⟩ |
        ⟨t, ⟨root, named, type⟩, sel, selected, b, path, gives⟩
      · exact .var mem declared gives
      · exact .selection (stands_iff.mpr ⟨_, .operation mem named type selected, path⟩) gives
    · obtain ⟨t, type, sel, selected, b, path, gives⟩ := gives
      exact .selection (stands_iff.mpr ⟨_, .fragment mem type selected, path⟩) gives

/-- **A document has the marks of what it uses**, and has any if and only if every name that it
refers to is defined. -/
theorem documentMarks_exact (doc : Document) :
    Exact (documentMarks s strategy doc) (Resolves s strategy doc) (Uses s strategy doc) := by
  rw [documentMarks_eq]
  exact (Exact.gather fun definition _ => definitionMarks_exact definition).congr
    resolves_iff.symm fun _ _ => uses_iff.symm

end SchemaUsage.Usage

import SchemaUsage.Proofs.Usage.Exact
import SchemaUsage.Usage.Walk

/-!
# The walk without its stacks

About `UsageWalker`. The marks of a value depend on the type to which it is given, those of a
selection on the type in which it stands. Told in this way they need no stacks: what the walk reads
from the top of a stack is handed down instead.

* `Yields` ties a step of the walk to such marks: the step has the same result, adds the marks, and
  leaves all three stacks as they were, also when it fails.

Results:
- `walkSelection_yields`, `value_yields`: visiting a selection or an argument's value yields
  its marks wherever the type in question is on top of its stack.
- `documentMarks_eq`: the marks of a document are those of its definitions, one after another.
-/

namespace SchemaUsage.Usage

open SchemaUsage.Graphql

/-! ## Marks of values -/

/-- The last type of a name, or the error that there is none. -/
def lastType (s : Schema) (name : String) : Except UsageError TypeDefinition :=
  match s.lastType? name with
  | some t => .ok t
  | none => .error (.unknownType name)

/-- The marks of a value as such, without what is inside of it. -/
def directMarks (strategy : Strategy) (t : TypeDefinition) : Value → List Mark
  | .enum name => [.field t.name name]
  | .object _ => []
  | .list _ => []
  | .var _ => if strategy.prunes then [] else [.whole t.name]
  | _ => [.whole t.name]

mutual
/-- The marks of what is inside of a value. -/
def innerMarks (s : Schema) (strategy : Strategy) (t : TypeDefinition) :
    Value → Except UsageError (List Mark)
  | .list items =>
    joined (.ok (if items.any fun item => !isComposite item then [.whole t.name] else []))
      (innerItemMarks s strategy t items)
  | .object members =>
    if t.kind = .inputObject then innerMemberMarks s strategy t members
    else .ok [.whole t.name]
  | _ => .ok []
/-- The marks of what is inside of a list's items. -/
def innerItemMarks (s : Schema) (strategy : Strategy) (t : TypeDefinition) :
    List Value → Except UsageError (List Mark)
  | [] => .ok []
  | item :: items =>
    joined (innerMarks s strategy t item) (innerItemMarks s strategy t items)
/-- The marks of the members of an object that is given to an input object. -/
def innerMemberMarks (s : Schema) (strategy : Strategy) (t : TypeDefinition) :
    Arguments → Except UsageError (List Mark)
  | [] => .ok []
  | (name, value) :: members =>
    match t.inputField? name with
    | none => .error (.unknownInputField t.name name)
    | some field =>
      joined
        (do
          let type ← lastType s field.type.innerName
          joined (.ok (directMarks strategy type value)) (innerMarks s strategy type value))
        (joined (.ok [.field t.name name]) (innerMemberMarks s strategy t members))
end

/-- The marks of a value that is given to a type. -/
def givenMarks (s : Schema) (strategy : Strategy) (type : TypeRef) (value : Value) :
    Except UsageError (List Mark) := do
  let type ← lastType s type.innerName
  joined (.ok (directMarks strategy type value)) (innerMarks s strategy type value)

/-! ## Marks of selections -/

/-- The marks of an argument of a field. -/
def argumentMarks (s : Schema) (strategy : Strategy) (t : TypeDefinition)
    (field : FieldDefinition) (arg : String × Value) : Except UsageError (List Mark) :=
  match field.argument? arg.1 with
  | none => .error (.unknownArgument t.name field.name arg.1)
  | some argument =>
    joined (.ok [.identifier (argumentId t.name field.name arg.1)])
      (givenMarks s strategy argument.type arg.2)

mutual
/-- The marks of a selection that stands in a type. -/
def selectionMarks (s : Schema) (strategy : Strategy) (t : TypeDefinition) :
    Selection → Except UsageError (List Mark)
  | .field _ name args _ selections =>
    if name = "__typename" then .ok [.identifier (fieldId t.name name)]
    else if name = "__schema" ∨ name = "__type" then .ok []
    else
      match t.field? name with
      | none => .error (.unknownField t.name name)
      | some field =>
        joined (.ok [.identifier (fieldId t.name name)])
          (joined (gather (argumentMarks s strategy t field) args)
            (nestedMarks s strategy field selections))
  | .spread _ _ => .ok []
  | .inline (some name) _ selections => do
    let type ← lastType s name
    selectionsMarks s strategy type selections
  | .inline none _ selections => selectionsMarks s strategy t selections
/-- The marks of a field's selections, which stand in the type of the field. -/
def nestedMarks (s : Schema) (strategy : Strategy) (field : FieldDefinition) :
    List Selection → Except UsageError (List Mark)
  | [] => .ok []
  | first :: others => do
    let type ← lastType s field.type.innerName
    joined (selectionMarks s strategy type first) (selectionsMarks s strategy type others)
/-- The marks of selections that stand in one type. -/
def selectionsMarks (s : Schema) (strategy : Strategy) (t : TypeDefinition) :
    List Selection → Except UsageError (List Mark)
  | [] => .ok []
  | first :: others =>
    joined (selectionMarks s strategy t first) (selectionsMarks s strategy t others)
end

/-! ## Marks of definitions -/

/-- The root type of an operation kind, or the error that there is none. -/
def rootOf (s : Schema) (kind : OperationKind) : Except UsageError TypeDefinition :=
  match (s.rootName? kind).bind s.lastType? with
  | some t => .ok t
  | none => .error (.missingRootType kind)

/-- The marks of a definition: of an operation those of its variables and of its selections, of a
fragment those of its selections. -/
def definitionMarks (s : Schema) (strategy : Strategy) : Definition → Except UsageError (List Mark)
  | .operation op =>
    joined (gather (variableMarks s strategy) op.variableList)
      (do
        let type ← rootOf s op.kind
        selectionsMarks s strategy type op.selections)
  | .fragment frag => do
    let type ← lastType s frag.condition
    selectionsMarks s strategy type frag.selections

/-! ## Steps that keep the stacks -/

/-- The trail with more marks on it. -/
def Trail.after (trail : Trail) (marks : List Mark) : Trail :=
  { trail with marks := marks.reverse ++ trail.marks }

theorem Trail.after_after (trail : Trail) (marks later : List Mark) :
    (trail.after marks).after later = trail.after (marks ++ later) := by
  simp [Trail.after]

/-- **A step yields a result**: it ends as the result does, and changes nothing but the marks. They
are the ones of the result unless it fails. -/
def Yields (step : Walk Unit) (trail : Trail) (r : Except UsageError (List Mark)) : Prop :=
  ∃ marks, step.run.run trail = (r.map fun _ => (), trail.after marks) ∧
    ∀ own, r = .ok own → marks = own

theorem run_bind {α β : Type} (step : Walk α) (next : α → Walk β) (trail : Trail) :
    (step >>= next).run.run trail =
      match step.run.run trail with
      | (.ok a, reached) => (next a).run.run reached
      | (.error e, reached) => (.error e, reached) := by
  simp only [ExceptT.run_bind, StateT.run_bind]
  rcases step.run.run trail with ⟨_ | a, reached⟩ <;> rfl

theorem run_parent {trail : Trail} {t : TypeDefinition} {others : List TypeDefinition}
    (top : trail.parents = t :: others) (node : String) :
    (parent node).run.run trail = (.ok t, trail) := by
  cases trail; cases top; rfl

theorem run_currentField {trail : Trail} {f : FieldDefinition} {others : List FieldDefinition}
    (top : trail.fields = f :: others) (node : String) :
    (currentField node).run.run trail = (.ok f, trail) := by
  cases trail; cases top; rfl

theorem run_inputType {trail : Trail} {type : TypeRef} {others : List TypeRef}
    (top : trail.inputs = type :: others) : inputType.run.run trail = (.ok type, trail) := by
  cases trail; cases top; rfl

theorem run_lookUp {s : Schema} {name : String} {t : TypeDefinition}
    (named : s.lastType? name = some t) (trail : Trail) :
    (lookUp s name).run.run trail = (.ok t, trail) := by
  simp only [lookUp, named]
  rfl

theorem run_namedInputType {s : Schema} {trail : Trail} {type : TypeRef} {others : List TypeRef}
    {t : TypeDefinition} (top : trail.inputs = type :: others)
    (named : s.lastType? type.innerName = some t) :
    (namedInputType s).run.run trail = (.ok t, trail) := by
  rw [namedInputType, run_bind, run_inputType top]
  exact run_lookUp named trail

namespace Yields

variable {s : Schema} {strategy : Strategy} {trail : Trail} {step : Walk Unit}
  {r q : Except UsageError (List Mark)}

theorem ok {marks : List Mark} (h : step.run.run trail = (.ok (), trail.after marks)) :
    Yields step trail (.ok marks) :=
  ⟨marks, h, fun _ h => by cases h; rfl⟩

theorem error {e : UsageError} (h : step.run.run trail = (.error e, trail)) :
    Yields step trail (.error e) :=
  ⟨[], h, fun _ h => nomatch h⟩

theorem of_run_eq {other : Walk Unit} (h : other.run.run trail = step.run.run trail)
    (yields : Yields step trail r) : Yields other trail r := by
  unfold Yields
  rwa [h]

theorem bind {next : Walk Unit} (first : Yields step trail r)
    (second : ∀ marks, r = .ok marks → Yields next (trail.after marks) q) :
    Yields (step >>= fun _ => next) trail (joined r q) := by
  obtain ⟨marks, run, own⟩ := first
  cases r with
  | error e => exact ⟨marks, by rw [run_bind, run]; rfl, fun _ h => nomatch h⟩
  | ok xs =>
    obtain rfl := own xs rfl
    obtain ⟨late, run', own'⟩ := second marks rfl
    refine ⟨marks ++ late, ?_, fun all h => ?_⟩
    · rw [run_bind, run]
      simp only [Except.map, run', Trail.after_after]
      cases q <;> rfl
    · obtain ⟨xs, ys, hx, hy, rfl⟩ := joined_eq_ok.mp h
      cases hx
      rw [own' ys hy]

/-- Inside of a frame a step sees one entry more on the stack. -/
theorem within {α : Type} {stack : Stack α} {entry : α}
    (inside : Yields step (stack.push entry trail) r)
    (restores : ∀ marks, stack.pop ((stack.push entry trail).after marks) = trail.after marks) :
    Yields (within stack entry step) trail r := by
  obtain ⟨marks, run, own⟩ := inside
  exact ⟨marks, by rw [run_within, run, restores], own⟩

theorem lookUp {name : String} {next : TypeDefinition → Walk Unit}
    {f : TypeDefinition → Except UsageError (List Mark)}
    (h : ∀ t, s.lastType? name = some t → Yields (next t) trail (f t)) :
    Yields (lookUp s name >>= next) trail (lastType s name >>= f) := by
  unfold Usage.lookUp lastType
  cases ht : s.lastType? name with
  | none => exact error rfl
  | some t => exact of_run_eq rfl (h t ht)

theorem rootType {kind : OperationKind} {next : TypeDefinition → Walk Unit}
    {f : TypeDefinition → Except UsageError (List Mark)} (h : ∀ t, Yields (next t) trail (f t)) :
    Yields (rootType s kind >>= next) trail (rootOf s kind >>= f) := by
  unfold Usage.rootType rootOf
  cases (s.rootName? kind).bind s.lastType? with
  | none => exact error rfl
  | some t => exact of_run_eq rfl (h t)

theorem read {α : Type} {read : Walk α} {a : α} {next : α → Walk Unit}
    (run : read.run.run trail = (.ok a, trail)) (h : Yields (next a) trail r) :
    Yields (read >>= next) trail r :=
  of_run_eq (by rw [run_bind, run]) h

end Yields

/-! ## Values -/

section Walk

variable {s : Schema} {strategy : Strategy} {trail : Trail}

theorem note_yields (mark : Mark) : Yields (note mark) trail (.ok [mark]) :=
  .ok rfl

theorem noteAll_yields (marks : List Mark) : Yields (noteAll marks) trail (.ok marks) :=
  .ok rfl

theorem noteValue_yields {type : TypeRef} {others : List TypeRef} {t : TypeDefinition}
    (top : trail.inputs = type :: others) (named : s.lastType? type.innerName = some t)
    (value : Value) :
    Yields (noteValue s strategy value) trail (.ok (directMarks strategy t value)) := by
  refine .read (run_namedInputType top named) ?_
  cases value with
  | var name =>
    simp only [directMarks]
    split
    · exact .ok rfl
    · exact note_yields _
  | object members => exact .ok rfl
  | list items => exact .ok rfl
  | _ => exact note_yields _

/-- A value that is given to a type is noted first, then visited. -/
theorem value_yields {type : TypeRef} {others : List TypeRef} {value : Value}
    (top : trail.inputs = type :: others)
    (inside : ∀ {reached : Trail} {t : TypeDefinition}, reached.inputs = type :: others →
      s.lastType? type.innerName = some t →
      Yields (walkValue s strategy value) reached (innerMarks s strategy t value)) :
    Yields (do noteValue s strategy value; walkValue s strategy value) trail
      (givenMarks s strategy type value) := by
  unfold givenMarks lastType
  cases named : s.lastType? type.innerName with
  | none =>
    refine .error ?_
    rw [run_bind, noteValue, run_bind, namedInputType, run_bind, run_inputType top]
    simp only [lookUp, named]
    rfl
  | some t =>
    exact (noteValue_yields top named value).bind fun _ _ => inside top named

mutual
theorem walkValue_yields : ∀ (value : Value) {trail : Trail} {type : TypeRef}
    {others : List TypeRef} {t : TypeDefinition}, trail.inputs = type :: others →
    s.lastType? type.innerName = some t →
    Yields (walkValue s strategy value) trail (innerMarks s strategy t value)
  | .list items, trail, type, others, t, top, named => by
    have inside (marks : List Mark) :
        Yields (walkItems s strategy type.itemType items) (trail.after marks)
          (innerItemMarks s strategy t items) :=
      walkItems_yields items (by rw [TypeRef.innerName_itemType, named])
    rw [walkValue, innerMarks]
    refine .read (run_inputType top) ?_
    split
    · exact .read (run_lookUp named trail) ((note_yields _).bind fun _ _ => inside _)
    · rw [nil_joined]
      exact inside []
  | .object members, trail, type, others, t, top, named => by
    rw [walkValue, innerMarks]
    refine .read (run_namedInputType top named) ?_
    split
    · exact walkMembers_yields members
    · exact note_yields _
  | .var _, _, _, _, _, _, _ => .ok rfl
  | .int _, _, _, _, _, _, _ => .ok rfl
  | .float _, _, _, _, _, _, _ => .ok rfl
  | .string _, _, _, _, _, _, _ => .ok rfl
  | .boolean _, _, _, _, _, _, _ => .ok rfl
  | .null, _, _, _, _, _, _ => .ok rfl
  | .enum _, _, _, _, _, _, _ => .ok rfl
theorem walkItems_yields : ∀ (items : List Value) {trail : Trail} {type : TypeRef}
    {t : TypeDefinition}, s.lastType? type.innerName = some t →
    Yields (walkItems s strategy type items) trail (innerItemMarks s strategy t items)
  | [], _, _, _, _ => .ok rfl
  | item :: items, trail, type, t, named => by
    rw [walkItems, innerItemMarks]
    refine .bind ?_ fun _ _ => walkItems_yields items named
    exact .within (walkValue_yields item rfl named) fun _ => rfl
theorem walkMembers_yields : ∀ (members : Arguments) {trail : Trail} {t : TypeDefinition},
    Yields (walkMembers s strategy t members) trail (innerMemberMarks s strategy t members)
  | [], _, _ => .ok rfl
  | (name, value) :: members, trail, t => by
    rw [walkMembers, innerMemberMarks]
    cases t.inputField? name with
    | none => exact .error rfl
    | some field =>
      refine .bind (.within ?_ fun _ => rfl) fun _ _ =>
        (note_yields _).bind fun _ _ => walkMembers_yields members
      exact value_yields rfl (walkValue_yields value)
end

/-- **An argument yields its marks** where its field and the type of the field are on top. -/
theorem walkArgument_yields {t : TypeDefinition} {parents : List TypeDefinition}
    {field : FieldDefinition} {fields : List FieldDefinition} (type : trail.parents = t :: parents)
    (top : trail.fields = field :: fields) (arg : String × Value) :
    Yields (walkArgument s strategy arg.1 arg.2) trail (argumentMarks s strategy t field arg) := by
  unfold walkArgument argumentMarks
  refine .read (run_parent type _) (.read (run_currentField top _) ?_)
  cases field.argument? arg.1 with
  | none => exact .error rfl
  | some argument =>
    refine (note_yields _).bind fun _ _ => .within ?_ fun _ => rfl
    exact value_yields rfl (walkValue_yields arg.2)

/-! ## Selections -/

theorem forM_yields {α : Type} {step : α → Walk Unit} {f : α → Except UsageError (List Mark)} :
    ∀ (xs : List α) {trail : Trail},
    (∀ x ∈ xs, ∀ marks, Yields (step x) (trail.after marks) (f x)) →
    Yields (xs.forM step) trail (gather f xs)
  | [], _, _ => .ok rfl
  | x :: xs, trail, h => by
    refine .bind (h x List.mem_cons_self []) fun marks _ => forM_yields xs fun y hy later => ?_
    rw [Trail.after_after]
    exact h y (List.mem_cons_of_mem x hy) _

mutual
/-- **A selection yields its marks** where the type in which it stands is on top. -/
theorem walkSelection_yields : ∀ (sel : Selection) {trail : Trail} {t : TypeDefinition}
    {others : List TypeDefinition}, trail.parents = t :: others →
    Yields (walkSelection s strategy sel) trail (selectionMarks s strategy t sel)
  | .field _ name args _ selections, trail, t, others, top => by
    rw [walkSelection, selectionMarks]
    refine .read (run_parent top _) ?_
    split
    · exact note_yields _
    · split
      · exact .ok rfl
      · cases t.field? name with
        | none => exact .error rfl
        | some field =>
          refine (note_yields _).bind fun _ _ => .within (.bind ?_ fun _ _ => ?_) fun _ => rfl
          · exact forM_yields args fun ⟨name, value⟩ _ _ =>
              walkArgument_yields (by exact top) rfl (name, value)
          · exact walkNested_yields selections rfl
  | .spread _ _, _, _, _, _ => .ok rfl
  | .inline (some name) _ selections, trail, t, others, top => by
    rw [walkSelection, selectionMarks]
    exact .lookUp fun u _ => .within (walkSelections_yields selections rfl) fun _ => rfl
  | .inline none _ selections, trail, t, others, top => by
    rw [walkSelection, selectionMarks]
    exact .read (run_parent top _) (.within (walkSelections_yields selections rfl) fun _ => rfl)
theorem walkNested_yields : ∀ (selections : List Selection) {name : String} {trail : Trail}
    {field : FieldDefinition} {others : List FieldDefinition}, trail.fields = field :: others →
    Yields (walkNested s strategy name selections) trail (nestedMarks s strategy field selections)
  | [], _, _, _, _, _ => .ok rfl
  | first :: others, name, trail, field, fields, top => by
    rw [walkNested, nestedMarks]
    refine .read (run_currentField top _) (.lookUp fun u _ => .within ?_ fun _ => rfl)
    exact (walkSelection_yields first rfl).bind fun _ _ => walkSelections_yields others rfl
theorem walkSelections_yields : ∀ (selections : List Selection) {trail : Trail}
    {t : TypeDefinition} {others : List TypeDefinition}, trail.parents = t :: others →
    Yields (walkSelections s strategy selections) trail (selectionsMarks s strategy t selections)
  | [], _, _, _, _ => .ok rfl
  | first :: others, trail, t, parents, top => by
    rw [walkSelections, selectionsMarks]
    exact (walkSelection_yields first top).bind fun _ _ => walkSelections_yields others top
end

/-! ## Documents -/

theorem variable_yields (v : VariableDefinition) :
    Yields (do
      let marks ← (variableMarks s strategy v : Except UsageError (List Mark))
      noteAll marks) trail (variableMarks s strategy v) := by
  cases variableMarks s strategy v with
  | error e => exact .error rfl
  | ok marks => exact noteAll_yields marks

theorem walkDefinition_yields : ∀ definition : Definition,
    Yields (match definition with
      | .operation op => walkOperation s strategy op
      | .fragment frag => walkFragment s strategy frag) trail
      (definitionMarks s strategy definition)
  | .operation op =>
    .bind (forM_yields op.variableList fun v _ _ => variable_yields v) fun _ _ =>
      .rootType fun _ => .within (walkSelections_yields op.selections rfl) fun _ => rfl
  | .fragment frag =>
    .lookUp fun _ _ => .within (walkSelections_yields frag.selections rfl) fun _ => rfl

/-- **The marks of a document are those of its definitions**, one after another. -/
theorem documentMarks_eq (doc : Document) :
    documentMarks s strategy doc = gather (definitionMarks s strategy) doc := by
  obtain ⟨marks, run, own⟩ : Yields (walkDocument s strategy doc) {} _ :=
    forM_yields doc fun definition _ _ => walkDefinition_yields definition
  unfold documentMarks
  rw [run]
  cases h : gather (definitionMarks s strategy) doc with
  | error e => rfl
  | ok all => simp [Except.map, Trail.after, own all h]

end Walk

end SchemaUsage.Usage

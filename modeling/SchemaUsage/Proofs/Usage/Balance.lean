import SchemaUsage.Proofs.Usage.FirstFailure
import SchemaUsage.Proofs.Usage.Stackless
import SchemaUsage.Usage.Collection
import SchemaUsage.Usage.Visits

/-!
# The stacks of the walk are balanced

About the calls of `UsageWalker` and the stacks of its `TraversalContext`. Whatever the walk visits,
it leaves its three stacks as it found them, also when it fails. Hence every visit finds on top of a
stack what it reads there, and no walk ends because a stack is empty.

* `Keeps` says that a step keeps the stacks, from any state and with any result.
* `Follows` ties a recorded step to the plain one at a state: it does the same, and its visits are
  `Sound`.

Results:
- `walkSelection_keeps`, `walkArgument_keeps`, `walkValue_keeps`: what the steps of the walk keep.
- `recordedSelection_follows`: the record of a selection, where the stack of types has a top.
- `visits_balanced`: every visit of a document's walk is sound, and no usage fails with the error of
  an empty stack.
-/

namespace SchemaUsage.Usage

open SchemaUsage.Graphql

/-! ## Steps that keep the stacks -/

/-- The three stacks. -/
def Trail.stacks (trail : Trail) :
    List TypeDefinition × List FieldDefinition × List TypeRef :=
  (trail.parents, trail.fields, trail.inputs)

/-- **A step keeps the stacks**, from any state and also when it fails. -/
def Keeps {α : Type} (step : Walk α) : Prop :=
  ∀ trail : Trail, (step.run.run trail).2.stacks = trail.stacks

/-- Behind a step that has kept the stacks, the frame around it is gone. -/
def Stack.Restores {α : Type} (stack : Stack α) : Prop :=
  ∀ (entry : α) (trail reached : Trail), reached.stacks = (stack.push entry trail).stacks →
    (stack.pop reached).stacks = trail.stacks

theorem parents_restores : parents.Restores := by
  intro entry trail reached h
  simp only [Trail.stacks, parents, Prod.mk.injEq] at h ⊢
  simp [h]

theorem fields_restores : fields.Restores := by
  intro entry trail reached h
  simp only [Trail.stacks, fields, Prod.mk.injEq] at h ⊢
  simp [h]

theorem inputs_restores : inputs.Restores := by
  intro entry trail reached h
  simp only [Trail.stacks, inputs, Prod.mk.injEq] at h ⊢
  simp [h]

namespace Keeps

variable {α β : Type} {step : Walk α} {next : α → Walk β}

theorem pure (a : α) : Keeps (pure a : Walk α) := fun _ => rfl

theorem throw (e : UsageError) : Keeps (throw e : Walk α) := fun _ => rfl

theorem bind (first : Keeps step) (second : ∀ a, Keeps (next a)) : Keeps (step >>= next) := by
  intro trail
  rw [run_bind]
  have kept := first trail
  generalize step.run.run trail = run at kept ⊢
  rcases run with ⟨_ | a, reached⟩
  · exact kept
  · exact (second a reached).trans kept

theorem within {γ : Type} {stack : Stack γ} (restores : stack.Restores) (entry : γ)
    (inside : Keeps step) : Keeps (within stack entry step) :=
  fun trail => restores entry trail _ (inside (stack.push entry trail))

theorem forM {γ : Type} {each : γ → Walk Unit} {xs : List γ} (h : ∀ x, Keeps (each x)) :
    Keeps (xs.forM each) := by
  induction xs with
  | nil => exact pure ()
  | cons x xs ih => exact bind (h x) fun _ => ih

end Keeps

/-! ### What is read and noted -/

theorem note_keeps (mark : Mark) : Keeps (note mark) := fun _ => rfl

theorem noteAll_keeps (marks : List Mark) : Keeps (noteAll marks) := fun _ => rfl

theorem parent_keeps (node : String) : Keeps (parent node) := by
  rintro ⟨_ | ⟨t, others⟩, _, _, _⟩ <;> rfl

theorem currentField_keeps (node : String) : Keeps (currentField node) := by
  rintro ⟨_, _ | ⟨f, others⟩, _, _⟩ <;> rfl

theorem inputType_keeps : Keeps inputType := by
  rintro ⟨_, _, _ | ⟨type, others⟩, _⟩ <;> rfl

section Walk

variable (s : Schema) (strategy : Strategy)

theorem lookUp_keeps (name : String) : Keeps (lookUp s name) := by
  unfold lookUp
  cases s.lastType? name with
  | none => exact .throw _
  | some t => exact .pure t

theorem namedInputType_keeps : Keeps (namedInputType s) :=
  .bind inputType_keeps fun _ => lookUp_keeps s _

theorem rootType_keeps (kind : OperationKind) : Keeps (rootType s kind) := by
  unfold rootType
  cases (s.rootName? kind).bind s.lastType? with
  | none => exact .throw _
  | some t => exact .pure t

/-! ### Values -/

theorem noteValue_keeps (value : Value) : Keeps (noteValue s strategy value) := by
  refine .bind (namedInputType_keeps s) fun t => ?_
  cases value with
  | object members => exact .pure ()
  | list items => exact .pure ()
  | var name =>
    dsimp only
    split
    · exact .pure ()
    · exact note_keeps _
  | _ => exact note_keeps _

mutual
/-- **Visiting a value keeps the stacks.** -/
theorem walkValue_keeps : ∀ value : Value, Keeps (walkValue s strategy value)
  | .list items => by
    rw [walkValue]
    refine .bind inputType_keeps fun listType => ?_
    split
    · exact .bind (lookUp_keeps s _) fun t => .bind (note_keeps _) fun _ => walkItems_keeps items _
    · exact walkItems_keeps items _
  | .object members => by
    rw [walkValue]
    refine .bind (namedInputType_keeps s) fun t => ?_
    split
    · exact walkMembers_keeps members t
    · exact note_keeps _
  | .var _ => .pure ()
  | .int _ => .pure ()
  | .float _ => .pure ()
  | .string _ => .pure ()
  | .boolean _ => .pure ()
  | .null => .pure ()
  | .enum _ => .pure ()
theorem walkItems_keeps : ∀ (items : List Value) (itemType : TypeRef),
    Keeps (walkItems s strategy itemType items)
  | [], _ => .pure ()
  | item :: items, itemType => by
    rw [walkItems]
    exact .bind (.within inputs_restores _ (walkValue_keeps item)) fun _ =>
      walkItems_keeps items itemType
theorem walkMembers_keeps : ∀ (members : Arguments) (t : TypeDefinition),
    Keeps (walkMembers s strategy t members)
  | [], _ => .pure ()
  | (name, value) :: members, t => by
    rw [walkMembers]
    cases t.inputField? name with
    | none => exact .throw _
    | some field =>
      have given : Keeps (do noteValue s strategy value; walkValue s strategy value) :=
        .bind (noteValue_keeps s strategy value) fun _ => walkValue_keeps value
      exact .bind (.within inputs_restores _ given) fun _ =>
        .bind (note_keeps _) fun _ => walkMembers_keeps members t
end

theorem walkArgument_keeps (name : String) (value : Value) :
    Keeps (walkArgument s strategy name value) := by
  refine .bind (parent_keeps name) fun t => .bind (currentField_keeps name) fun field => ?_
  cases field.argument? name with
  | none => exact .throw _
  | some argument =>
    refine .bind (note_keeps _) fun _ => .within inputs_restores _ ?_
    exact .bind (noteValue_keeps s strategy value) fun _ => walkValue_keeps s strategy value

/-! ### Selections -/

mutual
/-- **Visiting a selection keeps the stacks.** -/
theorem walkSelection_keeps : ∀ sel : Selection, Keeps (walkSelection s strategy sel)
  | .field _ name args _ selections => by
    rw [walkSelection]
    refine .bind (parent_keeps name) fun t => ?_
    split
    · exact note_keeps _
    · split
      · exact .pure ()
      · cases t.field? name with
        | none => exact .throw _
        | some field =>
          refine .bind (note_keeps _) fun _ => .within fields_restores _ ?_
          refine .bind (.forM fun arg => walkArgument_keeps s strategy arg.1 arg.2) fun _ => ?_
          exact walkNested_keeps selections name
  | .spread _ _ => .pure ()
  | .inline (some name) _ selections => by
    rw [walkSelection]
    exact .bind (lookUp_keeps s name) fun t =>
      .within parents_restores _ (walkSelections_keeps selections)
  | .inline none _ selections => by
    rw [walkSelection]
    exact .bind (parent_keeps "...") fun t =>
      .within parents_restores _ (walkSelections_keeps selections)
theorem walkNested_keeps : ∀ (selections : List Selection) (name : String),
    Keeps (walkNested s strategy name selections)
  | [], _ => .pure ()
  | first :: others, name => by
    rw [walkNested]
    refine .bind (currentField_keeps name) fun field => .bind (lookUp_keeps s _) fun t => ?_
    exact .within parents_restores _
      (.bind (walkSelection_keeps first) fun _ => walkSelections_keeps others)
theorem walkSelections_keeps : ∀ selections : List Selection,
    Keeps (walkSelections s strategy selections)
  | [] => .pure ()
  | first :: others => by
    rw [walkSelections]
    exact .bind (walkSelection_keeps first) fun _ => walkSelections_keeps others
end

end Walk

/-! ## Steps that find what they read -/

/-- Whether an error tells of an empty stack. -/
def UsageError.tellsEmpty : UsageError → Bool
  | missingParentType _ => true
  | missingInputType => true
  | _ => false

/-- A result that is no failure for an empty stack. -/
def Grounded {α : Type} (r : Except UsageError α) : Prop :=
  ∀ e, r = .error e → e.tellsEmpty = false

theorem Grounded.ok {α : Type} (a : α) : Grounded (.ok a : Except UsageError α) := nofun

theorem Grounded.error {α : Type} {e : UsageError} (other : e.tellsEmpty = false) :
    Grounded (.error e : Except UsageError α) := by
  intro _ h
  cases h
  exact other

theorem Grounded.bind {α β : Type} {r : Except UsageError α} {f : α → Except UsageError β}
    (first : Grounded r) (second : ∀ a, Grounded (f a)) : Grounded (r >>= f) := by
  cases r with
  | error e => exact .error (first e rfl)
  | ok a => exact second a

/-- **A step finds what it reads** at a state: it does not fail for an empty stack there. -/
def Reads {α : Type} (step : Walk α) (trail : Trail) : Prop :=
  Grounded (step.run.run trail).1

section Reads

variable {α β : Type} {step : Walk α} {next : α → Walk β} {trail : Trail}

theorem Reads.of_run {a : α} {reached : Trail} (run : step.run.run trail = (.ok a, reached)) :
    Reads step trail := by
  unfold Reads
  rw [run]
  exact .ok a

theorem Reads.throw {e : UsageError} (other : e.tellsEmpty = false) :
    Reads (throw e : Walk α) trail :=
  Grounded.error other

/-- What comes second sees the stacks that the first step has kept. -/
theorem Reads.bind (first : Reads step trail) (keeps : Keeps step)
    (second : ∀ a reached, reached.stacks = trail.stacks → Reads (next a) reached) :
    Reads (step >>= next) trail := by
  have kept := keeps trail
  unfold Reads at first ⊢
  rw [run_bind]
  generalize step.run.run trail = run at kept first ⊢
  obtain ⟨e | a, reached⟩ := run
  · exact .error (first e rfl)
  · exact second a reached kept

theorem parent_reads (placed : trail.parents ≠ []) (node : String) :
    Reads (parent node) trail := by
  obtain ⟨t, others, top⟩ := List.exists_cons_of_ne_nil placed
  exact .of_run (run_parent top node)

theorem currentField_reads (placed : trail.fields ≠ []) (node : String) :
    Reads (currentField node) trail := by
  obtain ⟨f, others, top⟩ := List.exists_cons_of_ne_nil placed
  exact .of_run (run_currentField top node)

theorem inputType_reads (placed : trail.inputs ≠ []) : Reads inputType trail := by
  obtain ⟨type, others, top⟩ := List.exists_cons_of_ne_nil placed
  exact .of_run (run_inputType top)

theorem lookUp_reads (s : Schema) (name : String) : Reads (lookUp s name) trail := by
  unfold lookUp
  cases s.lastType? name with
  | none => exact .throw rfl
  | some t => exact .of_run rfl

theorem rootType_reads (s : Schema) (kind : OperationKind) : Reads (rootType s kind) trail := by
  unfold rootType
  cases (s.rootName? kind).bind s.lastType? with
  | none => exact .throw rfl
  | some t => exact .of_run rfl

theorem namedInputType_reads (s : Schema) (placed : trail.inputs ≠ []) :
    Reads (namedInputType s) trail :=
  .bind (inputType_reads placed) inputType_keeps fun _ _ _ => lookUp_reads s _

theorem noteValue_reads (s : Schema) (strategy : Strategy) (placed : trail.inputs ≠ [])
    (value : Value) : Reads (noteValue s strategy value) trail := by
  refine .bind (namedInputType_reads s placed) (namedInputType_keeps s) fun t reached _ => ?_
  cases value with
  | object members => exact .of_run rfl
  | list items => exact .of_run rfl
  | var name =>
    dsimp only
    split <;> exact .of_run rfl
  | _ => exact .of_run rfl

end Reads

/-! ## Visits -/

/-- **What a visit reads is there**: a type for selections, a field in a type for an argument, and a
type for a value. -/
def Subject.Placed : Subject → Trail → Prop
  | selectionsIn _ _, _ => True
  | selections _, trail => trail.parents ≠ []
  | field _, trail => trail.parents ≠ []
  | argument _ _, trail => trail.parents ≠ [] ∧ trail.fields ≠ []
  | kind _, trail => trail.inputs ≠ []
  | inside _, trail => trail.inputs ≠ []

/-- **A sound visit**: it is the step of the walk at its state, finds there what it reads, leaves the
stacks as they were, and does not fail for an empty one. -/
structure Visit.Sound (s : Schema) (strategy : Strategy) (v : Visit) : Prop where
  genuine : (v.subject.step s strategy).run.run v.before = (v.result, v.after)
  placed : v.subject.Placed v.before
  balanced : v.after.stacks = v.before.stacks
  grounded : Grounded v.result

/-- **A recorded step follows a plain one** at a state: it has the same result and reaches the same
state, its visits are sound, and it finds what it reads. -/
structure Follows (s : Schema) (strategy : Strategy) {α : Type} (step : Recorded α) (plain : Walk α)
    (trail : Trail) : Prop where
  run : ∀ visits, ∃ made, step.run.run (trail, visits) =
      ((plain.run.run trail).1, ((plain.run.run trail).2, made ++ visits)) ∧
    ∀ v ∈ made, v.Sound s strategy
  reads : Reads plain trail

theorem run_bind_recorded {α β : Type} (step : Recorded α) (next : α → Recorded β)
    (state : Trail × List Visit) :
    (step >>= next).run.run state =
      match step.run.run state with
      | (.ok a, reached) => (next a).run.run reached
      | (.error e, reached) => (.error e, reached) := by
  simp only [ExceptT.run_bind, StateT.run_bind]
  rcases step.run.run state with ⟨_ | a, reached⟩ <;> rfl

namespace Follows

variable {s : Schema} {strategy : Strategy} {α β : Type} {step : Recorded α} {plain : Walk α}
  {trail : Trail}

/-- What is not recorded makes no visits. -/
theorem lift (reads : Reads plain trail) : Follows s strategy (unrecorded plain) plain trail :=
  ⟨fun _ => ⟨[], rfl, nofun⟩, reads⟩

theorem pure (a : α) : Follows s strategy (pure a : Recorded α) (pure a : Walk α) trail :=
  ⟨fun _ => ⟨[], rfl, nofun⟩, .of_run rfl⟩

theorem throw {e : UsageError} (other : e.tellsEmpty = false) :
    Follows s strategy (throw e : Recorded α) (throw e : Walk α) trail :=
  ⟨fun _ => ⟨[], rfl, nofun⟩, .throw other⟩

/-- Steps follow one after the other if the first one keeps the stacks. -/
theorem bind {next : α → Recorded β} {next' : α → Walk β}
    (first : Follows s strategy step plain trail) (keeps : Keeps plain)
    (second : ∀ a reached, reached.stacks = trail.stacks →
      Follows s strategy (next a) (next' a) reached) :
    Follows s strategy (step >>= next) (plain >>= next') trail where
  run visits := by
    obtain ⟨made, eq, sound⟩ := first.run visits
    have kept := keeps trail
    rw [run_bind_recorded, eq, run_bind]
    generalize plain.run.run trail = run at kept ⊢
    obtain ⟨_ | a, reached⟩ := run
    · exact ⟨made, rfl, sound⟩
    · obtain ⟨later, eq', sound'⟩ := (second a reached kept).run (made ++ visits)
      refine ⟨later ++ made, ?_, fun v mem => ?_⟩
      · simp only [eq', List.append_assoc]
      · rcases List.mem_append.mp mem with mem | mem
        · exact sound' v mem
        · exact sound v mem
  reads := first.reads.bind keeps fun a reached same => (second a reached same).reads

theorem within {γ : Type} {stack : Stack γ} {entry : γ}
    (inside : Follows s strategy step plain (stack.push entry trail)) :
    Follows s strategy (recordedWithin stack entry step) (within stack entry plain) trail := by
  refine ⟨fun visits => ?_, inside.reads⟩
  obtain ⟨made, eq, sound⟩ := inside.run visits
  exact ⟨made, by rw [run_recordedWithin, eq, run_within], sound⟩

/-- A visit that follows its step is sound. -/
theorem recorded (subject : Subject) {step : Recorded Unit}
    (follows : Follows s strategy step (subject.step s strategy) trail)
    (keeps : Keeps (subject.step s strategy)) (placed : subject.Placed trail) :
    Follows s strategy (recorded subject step) (subject.step s strategy) trail := by
  refine ⟨fun visits => ?_, follows.reads⟩
  obtain ⟨made, eq, sound⟩ := follows.run visits
  have own : Visit.Sound s strategy ⟨subject, trail, _, _⟩ :=
    ⟨rfl, placed, keeps trail, follows.reads⟩
  refine ⟨_ :: made, by rw [run_recorded, eq]; rfl, fun v mem => ?_⟩
  rcases List.mem_cons.mp mem with rfl | mem
  · exact own
  · exact sound v mem

theorem forM {γ : Type} {each : γ → Recorded Unit} {each' : γ → Walk Unit} {xs : List γ}
    (keeps : ∀ x, Keeps (each' x))
    (h : ∀ x ∈ xs, ∀ reached, reached.stacks = trail.stacks →
      Follows s strategy (each x) (each' x) reached) :
    Follows s strategy (xs.forM each) (xs.forM each') trail := by
  induction xs generalizing trail with
  | nil => exact pure ()
  | cons x xs ih =>
    refine bind (h x List.mem_cons_self trail rfl) (keeps x) fun _ reached same => ?_
    exact ih fun y mem later same' => h y (List.mem_cons_of_mem x mem) later (same'.trans same)

end Follows

/-! ### Values -/

section Recorded

variable {s : Schema} {strategy : Strategy}

theorem inputs_of_stacks {trail reached : Trail} (same : reached.stacks = trail.stacks)
    (placed : trail.inputs ≠ []) : reached.inputs ≠ [] := by
  have h : reached.inputs = trail.inputs := congrArg (fun three => three.2.2) same
  rwa [h]

theorem fields_of_stacks {trail reached : Trail} (same : reached.stacks = trail.stacks)
    (placed : trail.fields ≠ []) : reached.fields ≠ [] := by
  have h : reached.fields = trail.fields := congrArg (fun three => three.2.1) same
  rwa [h]

theorem parents_of_stacks {trail reached : Trail} (same : reached.stacks = trail.stacks)
    (placed : trail.parents ≠ []) : reached.parents ≠ [] := by
  have h : reached.parents = trail.parents := congrArg (fun three => three.1) same
  rwa [h]

theorem recordedKind_follows {trail : Trail} (placed : trail.inputs ≠ []) (value : Value) :
    Follows s strategy (recordedKind s strategy value) (noteValue s strategy value) trail :=
  .recorded (.kind value) (.lift (noteValue_reads s strategy placed value))
    (noteValue_keeps s strategy value) placed

/-- A value that is given to a type is marked first, then visited inside. -/
theorem given_follows {trail : Trail} (placed : trail.inputs ≠ []) (value : Value)
    (inside : ∀ {reached : Trail}, reached.inputs ≠ [] →
      Follows s strategy (recordedInside s strategy value) (walkValue s strategy value) reached) :
    Follows s strategy
      (do recordedKind s strategy value; recordedInside s strategy value)
      (do noteValue s strategy value; walkValue s strategy value) trail :=
  .bind (recordedKind_follows placed value) (noteValue_keeps s strategy value) fun _ _ same =>
    inside (inputs_of_stacks same placed)

theorem leaf_follows {trail : Trail} {value : Value} (leaf : walkValue s strategy value = pure ())
    (placed : trail.inputs ≠ []) :
    Follows s strategy (recorded (.inside value) (pure ())) (walkValue s strategy value) trail := by
  refine .recorded (.inside value) ?_ (walkValue_keeps s strategy value) placed
  rw [Subject.step, leaf]
  exact .pure ()

mutual
theorem recordedInside_follows : ∀ (value : Value) {trail : Trail}, trail.inputs ≠ [] →
    Follows s strategy (recordedInside s strategy value) (walkValue s strategy value) trail
  | .list items, trail, placed => by
    rw [recordedInside]
    refine .recorded (.inside (.list items)) ?_ (walkValue_keeps s strategy _) placed
    rw [Subject.step, walkValue]
    refine .bind (.lift (inputType_reads placed)) inputType_keeps fun listType reached _ => ?_
    split
    · refine .bind (.lift (lookUp_reads s _)) (lookUp_keeps s _) fun t _ _ => ?_
      refine .bind (.lift (.of_run rfl)) (note_keeps _) fun _ _ _ => ?_
      exact recordedItems_follows items
    · exact recordedItems_follows items
  | .object members, trail, placed => by
    rw [recordedInside]
    refine .recorded (.inside (.object members)) ?_ (walkValue_keeps s strategy _) placed
    rw [Subject.step, walkValue]
    refine .bind (.lift (namedInputType_reads s placed)) (namedInputType_keeps s) fun t _ _ => ?_
    split
    · exact recordedMembers_follows members
    · exact .lift (.of_run rfl)
  | .var _, _, placed => leaf_follows rfl placed
  | .int _, _, placed => leaf_follows rfl placed
  | .float _, _, placed => leaf_follows rfl placed
  | .string _, _, placed => leaf_follows rfl placed
  | .boolean _, _, placed => leaf_follows rfl placed
  | .null, _, placed => leaf_follows rfl placed
  | .enum _, _, placed => leaf_follows rfl placed
theorem recordedItems_follows : ∀ (items : List Value) {itemType : TypeRef} {trail : Trail},
    Follows s strategy (recordedItems s strategy itemType items)
      (walkItems s strategy itemType items) trail
  | [], _, _ => .pure ()
  | item :: items, itemType, trail => by
    rw [recordedItems, walkItems]
    refine .bind (.within (recordedInside_follows item (List.cons_ne_nil _ _))) ?_ fun _ _ _ => ?_
    · exact .within inputs_restores _ (walkValue_keeps s strategy item)
    · exact recordedItems_follows items
theorem recordedMembers_follows : ∀ (members : Arguments) {t : TypeDefinition} {trail : Trail},
    Follows s strategy (recordedMembers s strategy t members)
      (walkMembers s strategy t members) trail
  | [], _, _ => .pure ()
  | (name, value) :: members, t, trail => by
    rw [recordedMembers, walkMembers]
    cases t.inputField? name with
    | none => exact .throw rfl
    | some field =>
      refine .bind (.within ?_) ?_ fun _ _ _ => ?_
      · exact given_follows (List.cons_ne_nil _ _) value (recordedInside_follows value)
      · exact .within inputs_restores _
          (.bind (noteValue_keeps s strategy value) fun _ => walkValue_keeps s strategy value)
      · exact .bind (.lift (.of_run rfl)) (note_keeps _) fun _ _ _ =>
          recordedMembers_follows members
end

theorem recordedArgument_follows {trail : Trail} (type : trail.parents ≠ [])
    (field : trail.fields ≠ []) (name : String) (value : Value) :
    Follows s strategy (recordedArgument s strategy name value)
      (walkArgument s strategy name value) trail := by
  refine .recorded (.argument name value) ?_ (walkArgument_keeps s strategy name value)
    ⟨type, field⟩
  refine .bind (.lift (parent_reads type name)) (parent_keeps name) fun t reached same => ?_
  refine .bind (.lift (currentField_reads (fields_of_stacks same field) name))
    (currentField_keeps name) fun f _ _ => ?_
  cases f.argument? name with
  | none => exact .throw rfl
  | some argument =>
    refine .bind (.lift (.of_run rfl)) (note_keeps _) fun _ _ _ => .within ?_
    exact given_follows (List.cons_ne_nil _ _) value (recordedInside_follows value)

/-! ### Selections -/

theorem recordedIn_follows {trail : Trail} {t : TypeDefinition} {selections : List Selection}
    {each : Recorded Unit}
    (follows : ∀ {reached : Trail}, reached.parents ≠ [] →
      Follows s strategy each (walkSelections s strategy selections) reached) :
    Follows s strategy (recordedIn t selections each)
      (within parents t (walkSelections s strategy selections)) trail := by
  have keeps := walkSelections_keeps s strategy selections
  refine .recorded (.selectionsIn t selections) ?_ (.within parents_restores t keeps)
    trivial
  have placed : (parents.push t trail).parents ≠ [] := List.cons_ne_nil _ _
  exact .within (.recorded (.selections selections) (follows placed) keeps placed)

mutual
theorem recordedSelection_follows : ∀ (sel : Selection) {trail : Trail}, trail.parents ≠ [] →
    Follows s strategy (recordedSelection s strategy sel) (walkSelection s strategy sel) trail
  | .field aliasName name args directives selections, trail, placed => by
    rw [recordedSelection]
    refine .recorded (.field (.field aliasName name args directives selections)) ?_
      (walkSelection_keeps s strategy _) placed
    rw [Subject.step, walkSelection]
    refine .bind (.lift (parent_reads placed name)) (parent_keeps name) fun t reached same => ?_
    split
    · exact .lift (.of_run rfl)
    · split
      · exact .pure ()
      · cases t.field? name with
        | none => exact .throw rfl
        | some field =>
          refine .bind (.lift (.of_run rfl)) (note_keeps _) fun _ _ same' => .within ?_
          have type := parents_of_stacks (same'.trans same) placed
          have top := List.cons_ne_nil field
          refine .bind (.forM ?_ fun arg _ late same'' => ?_) (.forM ?_) fun _ _ same'' => ?_
          · exact fun arg => walkArgument_keeps s strategy arg.1 arg.2
          · exact recordedArgument_follows (parents_of_stacks same'' type)
              (fields_of_stacks same'' (top _)) arg.1 arg.2
          · exact fun arg => walkArgument_keeps s strategy arg.1 arg.2
          · exact recordedNested_follows selections (fields_of_stacks same'' (top _))
  | .spread _ _, _, _ => .pure ()
  | .inline (some name) _ selections, trail, placed => by
    rw [recordedSelection, walkSelection]
    exact .bind (.lift (lookUp_reads s name)) (lookUp_keeps s name) fun t _ _ =>
      recordedIn_follows (recordedEach_follows selections)
  | .inline none _ selections, trail, placed => by
    rw [recordedSelection, walkSelection]
    exact .bind (.lift (parent_reads placed _)) (parent_keeps _) fun t _ _ =>
      recordedIn_follows (recordedEach_follows selections)
theorem recordedNested_follows : ∀ (selections : List Selection) {name : String} {trail : Trail},
    trail.fields ≠ [] →
    Follows s strategy (recordedNested s strategy name selections)
      (walkNested s strategy name selections) trail
  | [], _, _, _ => .pure ()
  | first :: others, name, trail, placed => by
    rw [recordedNested, walkNested]
    refine .bind (.lift (currentField_reads placed name)) (currentField_keeps name) fun f _ _ => ?_
    refine .bind (.lift (lookUp_reads s _)) (lookUp_keeps s _) fun t _ _ => ?_
    rw [← walkSelections]
    refine recordedIn_follows fun top => ?_
    rw [walkSelections]
    exact .bind (recordedSelection_follows first top) (walkSelection_keeps s strategy first)
      fun _ _ same => recordedEach_follows others (parents_of_stacks same top)
theorem recordedEach_follows : ∀ (selections : List Selection) {trail : Trail},
    trail.parents ≠ [] →
    Follows s strategy (recordedEach s strategy selections)
      (walkSelections s strategy selections) trail
  | [], _, _ => .pure ()
  | first :: others, trail, placed => by
    rw [recordedEach, walkSelections]
    exact .bind (recordedSelection_follows first placed) (walkSelection_keeps s strategy first)
      fun _ _ same => recordedEach_follows others (parents_of_stacks same placed)
end

/-! ### Definitions -/

theorem firstType_grounded (name : String) : Grounded (firstType s name) := by
  unfold firstType
  split
  · exact .ok _
  · exact .error rfl

mutual
theorem valueMarks_grounded : ∀ (data : Json) (t : TypeDefinition), Grounded (valueMarks s t data)
  | .arr items, t => by
    rw [valueMarks]
    split
    · exact itemMarks_grounded items t
    · exact .ok _
  | .obj members, t => by
    rw [valueMarks]
    split
    · exact memberMarks_grounded members t
    · exact .ok _
  | .null, _ => .ok _
  | .bool _, _ => .ok _
  | .int _, _ => .ok _
  | .float _, _ => .ok _
  | .str _, _ => .ok _
theorem itemMarks_grounded : ∀ (items : List Json) (t : TypeDefinition),
    Grounded (itemMarks s t items)
  | [], _ => .ok _
  | item :: items, t =>
    .bind (valueMarks_grounded item t) fun _ => .bind (itemMarks_grounded items t) fun _ => .ok _
theorem memberMarks_grounded : ∀ (members : List (String × Json)) (t : TypeDefinition),
    Grounded (memberMarks s t members)
  | [], _ => .ok _
  | (name, value) :: members, t => by
    have later (first : List Mark) : Grounded (do
        let others ← memberMarks s t members
        pure (first ++ others)) :=
      .bind (memberMarks_grounded members t) fun _ => .ok _
    rw [memberMarks]
    split
    · exact later []
    · exact .bind (firstType_grounded _) fun u =>
        .bind (valueMarks_grounded value u) fun _ => later _
end

theorem variableMarks_grounded (v : VariableDefinition) :
    Grounded (variableMarks s strategy v) := by
  cases strategy with
  | wholeTypes => exact .ok _
  | fromValues values => exact .bind (firstType_grounded _) fun t => valueMarks_grounded _ t

theorem resolve_grounded (marks : List Mark) : Grounded (resolve s marks) := by
  refine .bind (fun e failed => ?_) fun _ => .ok _
  obtain ⟨_, _, name, _, rfl, _⟩ := wholeIdentifiers_eq_error failed
  rfl

theorem variable_keeps (v : VariableDefinition) :
    Keeps (do
      let marks ← (variableMarks s strategy v : Except UsageError (List Mark))
      noteAll marks) := by
  cases variableMarks s strategy v with
  | error e => exact .throw e
  | ok marks => exact noteAll_keeps marks

theorem variable_follows (v : VariableDefinition) {trail : Trail} :
    Follows s strategy
      (do
        let marks ← (variableMarks s strategy v : Except UsageError (List Mark))
        noteAll marks)
      (do
        let marks ← (variableMarks s strategy v : Except UsageError (List Mark))
        noteAll marks) trail := by
  have grounded : Grounded (variableMarks s strategy v) := variableMarks_grounded v
  cases found : variableMarks s strategy v with
  | error e => exact .throw (grounded e found)
  | ok marks =>
    have noted : Reads (noteAll marks) trail := .of_run rfl
    exact (Follows.lift noted : Follows s strategy (unrecorded (noteAll marks)) _ trail)

theorem walkOperation_keeps (op : Operation) : Keeps (walkOperation s strategy op) :=
  .bind (.forM fun v => variable_keeps v) fun _ => .bind (rootType_keeps s op.kind) fun t =>
    .within parents_restores t (walkSelections_keeps s strategy op.selections)

theorem walkFragment_keeps (frag : Fragment) : Keeps (walkFragment s strategy frag) :=
  .bind (lookUp_keeps s frag.condition) fun t =>
    .within parents_restores t (walkSelections_keeps s strategy frag.selections)

theorem recordedOperation_follows (op : Operation) {trail : Trail} :
    Follows s strategy (recordedOperation s strategy op) (walkOperation s strategy op) trail := by
  refine .bind (.forM variable_keeps fun v _ _ _ => variable_follows v)
    (.forM variable_keeps) fun _ _ _ => ?_
  exact .bind (.lift (rootType_reads s op.kind)) (rootType_keeps s op.kind) fun _ _ _ =>
    recordedIn_follows (recordedEach_follows op.selections)

theorem recordedFragment_follows (frag : Fragment) {trail : Trail} :
    Follows s strategy (recordedFragment s strategy frag) (walkFragment s strategy frag) trail :=
  .bind (.lift (lookUp_reads s frag.condition)) (lookUp_keeps s frag.condition) fun _ _ _ =>
    recordedIn_follows (recordedEach_follows frag.selections)

theorem recordedDocument_follows (doc : Document) {trail : Trail} :
    Follows s strategy (recordedDocument s strategy doc) (walkDocument s strategy doc) trail := by
  refine .forM (fun definition => ?_) fun definition _ _ _ => ?_
  · cases definition with
    | operation op => exact walkOperation_keeps op
    | fragment frag => exact walkFragment_keeps frag
  · cases definition with
    | operation op => exact recordedOperation_follows op
    | fragment frag => exact recordedFragment_follows frag

theorem usage_grounded (doc : Document) : Grounded (usage s strategy doc) := by
  refine .bind ?_ fun marks => .bind (resolve_grounded marks) fun _ => .ok _
  unfold documentMarks
  have reads : Reads (walkDocument s strategy doc) {} := (recordedDocument_follows doc).reads
  unfold Reads at reads
  generalize (walkDocument s strategy doc).run.run {} = run at reads ⊢
  obtain ⟨e | _, trail⟩ := run
  · exact .error (reads e rfl)
  · exact .ok _

theorem step_keeps (s : Schema) (strategy : Strategy) : ∀ subject : Subject,
    Keeps (subject.step s strategy)
  | .selectionsIn t sels => .within parents_restores t (walkSelections_keeps s strategy sels)
  | .selections sels => walkSelections_keeps s strategy sels
  | .field sel => walkSelection_keeps s strategy sel
  | .argument name value => walkArgument_keeps s strategy name value
  | .kind value => noteValue_keeps s strategy value
  | .inside value => walkValue_keeps s strategy value

/-- **The stacks of a walk are balanced.** Whatever is visited, from any state and with any result,
the stacks are left as they were found. The recorded walk is the walk, and each of its visits finds
what it reads. So neither the walk nor the usage of a document ever fails for an empty stack. -/
theorem visits_balanced (s : Schema) (strategy : Strategy) (doc : Document) :
    (∀ (subject : Subject) (trail : Trail),
      ((subject.step s strategy).run.run trail).2.stacks = trail.stacks) ∧
    (∃ made, (recordedDocument s strategy doc).run.run ({}, []) =
        (((walkDocument s strategy doc).run.run {}).1,
          (((walkDocument s strategy doc).run.run {}).2, made)) ∧
      visits s strategy doc = made.reverse) ∧
    (∀ v ∈ visits s strategy doc, v.Sound s strategy) ∧
    (∀ node, usage s strategy doc ≠ .error (.missingParentType node)) ∧
    usage s strategy doc ≠ .error .missingInputType := by
  have follows : Follows s strategy (recordedDocument s strategy doc)
      (walkDocument s strategy doc) {} := recordedDocument_follows doc
  obtain ⟨made, run, sound⟩ := follows.run []
  rw [List.append_nil] at run
  have all : visits s strategy doc = made.reverse := by rw [visits, run]
  refine ⟨step_keeps s strategy, ⟨made, run, all⟩, fun v mem => ?_, fun node failed => ?_,
    fun failed => ?_⟩
  · rw [all, List.mem_reverse] at mem
    exact sound v mem
  · cases usage_grounded doc _ failed
  · cases usage_grounded doc _ failed

end Recorded

/-- A schema with a field that takes a list. -/
def idsSchema : Schema :=
  [.type ⟨none, "Query", [], .object []
      [⟨none, "pets", [⟨none, "ids", .list (.named "Int"), none, []⟩], .named "Pet", []⟩]⟩,
    .type ⟨none, "Pet", [], .object [] [⟨none, "name", [], .named "String", []⟩]⟩,
    .type ⟨none, "Int", [], .scalar⟩]

/-- The document `{ pets(ids: [1]) { name } }`. -/
def idsDocument : Document :=
  [.operation (.full .query none [] []
    [.field none "pets" [("ids", .list [.int 1])] [] [.field none "name" [] [] []]])]

/-- The names on the stacks before a visit. -/
def Visit.names (v : Visit) : List String × List String × List String :=
  (v.before.parents.map (·.name), v.before.fields.map (·.name), v.before.inputs.map (·.innerName))

/-- As visits end: the kind of the list, its item, its inside, the argument, the field `name` and the
selections around it, the field `pets` and the selections of the operation. -/
theorem names_visits_ids : (visits idsSchema .wholeTypes idsDocument).map Visit.names =
    [(["Query"], ["pets"], ["Int"]), (["Query"], ["pets"], ["Int", "Int"]),
      (["Query"], ["pets"], ["Int"]), (["Query"], ["pets"], []), (["Pet", "Query"], ["pets"], []),
      (["Pet", "Query"], ["pets"], []), (["Query"], ["pets"], []), (["Query"], [], []),
      (["Query"], [], []), ([], [], [])] := by
  rfl

theorem visits_balanced_ids :
    ∃ v ∈ visits idsSchema .wholeTypes idsDocument,
      v.names = (["Query"], ["pets"], ["Int", "Int"]) ∧ v.Sound idsSchema .wholeTypes := by
  have made : (["Query"], ["pets"], ["Int", "Int"]) ∈
      (visits idsSchema .wholeTypes idsDocument).map Visit.names := by
    simp [names_visits_ids]
  obtain ⟨v, mem, item⟩ := List.mem_map.mp made
  exact ⟨v, mem, item, (visits_balanced idsSchema .wholeTypes idsDocument).2.2.1 v mem⟩

end SchemaUsage.Usage

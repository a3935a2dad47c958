import SchemaUsage.Proofs.Graphql.NormalMembers
import SchemaUsage.Proofs.Graphql.SortedCopies
import SchemaUsage.Proofs.Graphql.StableSort

/-!
# Normalization is an idempotent stable reordering

About `normalize_operation` and its comparisons. The normal form of a document is the one document
in which every list that may be reordered is the stably sorted copy of the list at the same node,
with its members in their normal forms. So nothing is lost, doubled or moved to another parent.

* Normal forms keep names and ranks. Sorting hence commutes with normalizing what is sorted, and a
  second normalization finds every list in its order.
* Operations compare equal and come before fragments, so a normal form is the operations in their
  order, then the fragments by name.

Results:
- `Value.normal_iff`, `Selection.normal_iff`: the relations determine the normal forms.
- `Document.normalize_eq_append`: operations first, then fragments by name.
- `Document.normalize_stable`: what normalization does to a document.
-/

namespace SchemaUsage.Graphql

variable {o : NormalOptions}

/-! ## One normal form -/

/-- A list whose members are related to those of another by a function is its image. -/
theorem forall₂_iff_eq_map {α β : Type} {R : α → β → Prop} {f : α → β}
    (image : ∀ a b, R a b ↔ b = f a) {xs : List α} {ys : List β} :
    List.Forall₂ R xs ys ↔ ys = xs.map f := by
  constructor
  · intro h
    induction h with
    | nil => rfl
    | cons first _ ih => rw [List.map_cons, ← (image _ _).mp first, ← ih]
  · rintro rfl
    induction xs with
    | nil => exact .nil
    | cons x xs ih => exact .cons ((image _ _).mpr rfl) ih

mutual
theorem Value.Normal.eq : ∀ {v w : Value}, v.Normal o w → w = v.normalize o
  | _, _, .int i => by rw [Value.normalize, apply_ite Value.int]
  | _, _, .float x => by rw [Value.normalize, apply_ite Value.float]
  | _, _, .string s => by rw [Value.normalize, apply_ite Value.string]
  | _, _, .var name => rfl
  | _, _, .boolean b => rfl
  | _, _, .null => rfl
  | _, _, .enum name => rfl
  | _, _, .list each => by rw [Value.normalize, each.eq]
  | _, _, .object each sorted => by
    rw [Value.normalize, sortedByName_iff.mp sorted, each.eq]
theorem ItemsNormal.eq : ∀ {items others : List Value}, ItemsNormal o items others →
    others = normalizeItems o items
  | _, _, .nil => rfl
  | _, _, .cons first rest => by rw [normalizeItems, first.eq, rest.eq]
theorem FieldsNormal.eq : ∀ {fields others : Arguments}, FieldsNormal o fields others →
    others = normalizeFields o fields
  | _, _, .nil => rfl
  | _, _, .cons name first rest => by rw [normalizeFields, first.eq, rest.eq]
end

mutual
theorem Value.normal_normalize : ∀ v : Value, v.Normal o (v.normalize o)
  | .int i => by
    rw [Value.normalize, ← apply_ite Value.int]
    exact .int i
  | .float x => by
    rw [Value.normalize, ← apply_ite Value.float]
    exact .float x
  | .string s => by
    rw [Value.normalize, ← apply_ite Value.string]
    exact .string s
  | .var name => .var name
  | .boolean b => .boolean b
  | .null => .null
  | .enum name => .enum name
  | .list items => .list (normalizeItems_normal items)
  | .object fields => .object (normalizeFields_normal fields) (sortedByName_iff.mpr rfl)
theorem normalizeItems_normal : ∀ items : List Value,
    ItemsNormal o items (normalizeItems o items)
  | [] => .nil
  | v :: items => .cons v.normal_normalize (normalizeItems_normal items)
theorem normalizeFields_normal : ∀ fields : Arguments,
    FieldsNormal o fields (normalizeFields o fields)
  | [] => .nil
  | (name, v) :: fields => .cons name v.normal_normalize (normalizeFields_normal fields)
end

/-- **A value has one normal form.** -/
theorem Value.normal_iff {v w : Value} : v.Normal o w ↔ w = v.normalize o :=
  ⟨fun h => h.eq, fun same => same ▸ v.normal_normalize⟩

theorem argumentsNormal_iff {args others : Arguments} :
    ArgumentsNormal o args others ↔ others = normalizeArguments o args := by
  constructor
  · rintro ⟨normal, each, sorted⟩
    rw [normalizeArguments, ← each.eq, sortedByName_iff.mp sorted]
  · intro same
    exact ⟨_, normalizeFields_normal args, sortedByName_iff.mpr same⟩

theorem Directive.normal_iff (d e : Directive) :
    d.Normal o e ↔ e = { d with arguments := normalizeArguments o d.arguments } := by
  constructor
  · rintro ⟨name, arguments⟩
    cases e
    cases name
    cases argumentsNormal_iff.mp arguments
    rfl
  · rintro rfl
    exact ⟨rfl, argumentsNormal_iff.mpr rfl⟩

theorem directivesNormal_iff {directives others : List Directive} :
    DirectivesNormal o directives others ↔ others = normalizeDirectives o directives := by
  simp only [DirectivesNormal, forall₂_iff_eq_map Directive.normal_iff, exists_eq_left,
    sortedByName_iff, normalizeDirectives]

theorem VariableDefinition.normal_iff (v w : VariableDefinition) :
    v.Normal o w ↔ w = { v with default := v.default.map (Value.normalize o) } := by
  constructor
  · rintro ⟨name, type, default⟩
    have same : w.default = v.default.map (Value.normalize o) :=
      match v.default, w.default, default with
      | _, _, .none => rfl
      | _, _, .some value => congrArg some value.eq
    cases w
    cases name
    cases type
    cases same
    rfl
  · rintro rfl
    refine ⟨rfl, rfl, ?_⟩
    cases v.default with
    | none => exact .none
    | some value => exact .some value.normal_normalize

theorem variablesNormal_iff {variableList others : List VariableDefinition} :
    VariablesNormal o variableList others ↔ others = normalizeVariables o variableList := by
  simp only [VariablesNormal, forall₂_iff_eq_map VariableDefinition.normal_iff,
    exists_eq_left, sortedByName_iff, normalizeVariables]

mutual
theorem Selection.Normal.eq : ∀ {sel other : Selection}, sel.Normal o other →
    other = sel.normalize o
  | _, _, .field aliasName name given marked nested sorted => by
    rw [Selection.normalize, argumentsNormal_iff.mp given, directivesNormal_iff.mp marked,
      ← nested.eq, stablySorted_selections_iff.mp sorted]
  | _, _, .spread fragment marked => by
    rw [Selection.normalize, directivesNormal_iff.mp marked]
  | _, _, .inline condition marked nested sorted => by
    rw [Selection.normalize, directivesNormal_iff.mp marked, ← nested.eq,
      stablySorted_selections_iff.mp sorted]
theorem EachNormal.eq : ∀ {selections others : List Selection}, EachNormal o selections others →
    others = normalizeEach o selections
  | _, _, .nil => rfl
  | _, _, .cons first rest => by rw [normalizeEach, first.eq, rest.eq]
end

mutual
theorem Selection.normal_normalize : ∀ sel : Selection, sel.Normal o (sel.normalize o)
  | .field aliasName name args directives selections => by
    rw [Selection.normalize]
    exact .field aliasName name (argumentsNormal_iff.mpr rfl) (directivesNormal_iff.mpr rfl)
      (normalizeEach_normal selections) (stablySorted_selections_iff.mpr rfl)
  | .spread fragment directives => .spread fragment (directivesNormal_iff.mpr rfl)
  | .inline condition directives selections => by
    rw [Selection.normalize]
    exact .inline condition (directivesNormal_iff.mpr rfl) (normalizeEach_normal selections)
      (stablySorted_selections_iff.mpr rfl)
theorem normalizeEach_normal : ∀ selections : List Selection,
    EachNormal o selections (normalizeEach o selections)
  | [] => .nil
  | sel :: selections => .cons sel.normal_normalize (normalizeEach_normal selections)
end

/-- **A selection has one normal form.** -/
theorem Selection.normal_iff {sel other : Selection} :
    sel.Normal o other ↔ other = sel.normalize o :=
  ⟨fun h => h.eq, fun same => same ▸ sel.normal_normalize⟩

theorem selectionsNormal_iff {selections others : List Selection} :
    SelectionsNormal o selections others ↔ others = normalizeSelections o selections := by
  constructor
  · rintro ⟨normal, each, sorted⟩
    rw [normalizeSelections, ← each.eq, stablySorted_selections_iff.mp sorted]
  · intro same
    exact ⟨_, normalizeEach_normal selections, stablySorted_selections_iff.mpr same⟩

theorem Operation.normal_iff {op other : Operation} :
    op.Normal o other ↔ other = op.normalize o := by
  constructor
  · rintro (selected | ⟨kind, name, declared, marked, selected⟩)
    · rw [Operation.normalize, selectionsNormal_iff.mp selected]
    · rw [Operation.normalize, variablesNormal_iff.mp declared, directivesNormal_iff.mp marked,
        selectionsNormal_iff.mp selected]
  · rintro rfl
    cases op with
    | shorthand selections => exact .shorthand (selectionsNormal_iff.mpr rfl)
    | full kind name _ _ _ =>
      exact .full kind name (variablesNormal_iff.mpr rfl) (directivesNormal_iff.mpr rfl)
        (selectionsNormal_iff.mpr rfl)

theorem Fragment.normal_iff {frag other : Fragment} :
    frag.Normal o other ↔ other = frag.normalize o := by
  constructor
  · rintro ⟨name, condition, marked, selected⟩
    cases other
    cases name
    cases condition
    cases directivesNormal_iff.mp marked
    cases selectionsNormal_iff.mp selected
    rfl
  · rintro rfl
    exact ⟨rfl, rfl, directivesNormal_iff.mpr rfl, selectionsNormal_iff.mpr rfl⟩

theorem Definition.normal_iff (definition other : Definition) :
    definition.Normal o other ↔ other = definition.normalize o := by
  constructor
  · rintro (normal | normal)
    · rw [Definition.normalize, Operation.normal_iff.mp normal]
    · rw [Definition.normalize, Fragment.normal_iff.mp normal]
  · rintro rfl
    cases definition with
    | operation op => exact .operation (Operation.normal_iff.mpr rfl)
    | fragment frag => exact .fragment (Fragment.normal_iff.mpr rfl)

/-- **A document has one normal form.** -/
theorem Document.normal_iff {doc other : Document} :
    doc.Normal o other ↔ other = doc.normalize o := by
  simp only [Document.Normal, forall₂_iff_eq_map Definition.normal_iff, exists_eq_left,
    stablySorted_definitions_iff, Document.normalize]

/-! ## Normalizing twice -/

/-- Sorting normal items a second time changes nothing, if normalizing keeps their order. -/
theorem mergeSort_map_idem {α : Type} {le : α → α → Bool}
    (trans : ∀ a b c, le a b = true → le b c = true → le a c = true)
    (total : ∀ a b, (le a b || le b a) = true) {f : α → α}
    (keeps : ∀ a b, le a b = le (f a) (f b)) {items : List α}
    (fixed : ∀ a ∈ items, f (f a) = f a) :
    (((items.map f).mergeSort le).map f).mergeSort le = (items.map f).mergeSort le := by
  have unmoved : ((items.map f).mergeSort le).map f = (items.map f).mergeSort le := by
    rw [List.map_mergeSort fun a _ b _ => keeps a b, List.map_map]
    exact congrArg (List.mergeSort · le) (List.map_congr_left fixed)
  rw [unmoved, List.mergeSort_of_pairwise (List.pairwise_mergeSort trans total _)]

theorem sortByName_map_idem {α : Type} {name : α → String} {f : α → α}
    (keeps : ∀ a, name (f a) = name a) {items : List α} (fixed : ∀ a ∈ items, f (f a) = f a) :
    sortByName name ((sortByName name (items.map f)).map f) = sortByName name (items.map f) :=
  mergeSort_map_idem (name_le_trans name) (name_le_total name)
    (fun a b => by rw [keeps a, keeps b]) fixed

theorem normalizeArguments_idem {args : Arguments}
    (fixed : ∀ arg ∈ args, (arg.2.normalize o).normalize o = arg.2.normalize o) :
    normalizeArguments o (normalizeArguments o args) = normalizeArguments o args := by
  simp only [normalizeArguments, normalizeFields_eq_map]
  refine sortByName_map_idem ?_ fun arg mem => ?_
  · exact fun _ => rfl
  · rw [fixed arg mem]

mutual
/-- **Normalizing a value twice** is normalizing it once. -/
theorem Value.normalize_normalize : ∀ v : Value, (v.normalize o).normalize o = v.normalize o
  | .int i => by
    rw [Value.normalize, ← apply_ite Value.int, Value.normalize]
    split <;> rfl
  | .float x => by
    rw [Value.normalize, ← apply_ite Value.float, Value.normalize]
    split <;> rfl
  | .string s => by
    rw [Value.normalize, ← apply_ite Value.string, Value.normalize]
    split <;> rfl
  | .var name => rfl
  | .boolean b => rfl
  | .null => rfl
  | .enum name => rfl
  | .list items => by
    rw [Value.normalize_list, Value.normalize_list, List.map_map]
    exact congrArg Value.list (List.map_congr_left (items_normalize_normalize items))
  | .object fields => by
    rw [Value.normalize_object, Value.normalize_object,
      normalizeArguments_idem (fields_normalize_normalize fields)]
theorem items_normalize_normalize : ∀ items : List Value,
    ∀ v ∈ items, (v.normalize o).normalize o = v.normalize o
  | [] => nofun
  | v :: items => List.forall_mem_cons.mpr ⟨v.normalize_normalize, items_normalize_normalize items⟩
theorem fields_normalize_normalize : ∀ fields : Arguments,
    ∀ field ∈ fields, (field.2.normalize o).normalize o = field.2.normalize o
  | [] => nofun
  | (_, v) :: fields =>
    List.forall_mem_cons.mpr ⟨v.normalize_normalize, fields_normalize_normalize fields⟩
end

theorem normalizeDirectives_idem (directives : List Directive) :
    normalizeDirectives o (normalizeDirectives o directives) =
      normalizeDirectives o directives := by
  refine sortByName_map_idem ?_ fun d _ => ?_
  · exact fun _ => rfl
  · rw [normalizeArguments_idem (fields_normalize_normalize d.arguments)]

theorem normalizeVariables_idem (variableList : List VariableDefinition) :
    normalizeVariables o (normalizeVariables o variableList) =
      normalizeVariables o variableList := by
  refine sortByName_map_idem ?_ fun v _ => ?_
  · exact fun _ => rfl
  · cases v.default with
    | none => rfl
    | some value => simp only [Option.map_some, value.normalize_normalize]

/-- Normal forms of selections are ordered as the selections are. -/
theorem Selection.le_normalize (a b : Selection) :
    a.le b = (a.normalize o).le (b.normalize o) := by
  cases a <;> cases b <;> rfl

theorem Selection.le_trans (a b c : Selection) (ab : a.le b = true) (bc : b.le c = true) :
    a.le c = true := by
  rw [Selection.le_eq] at ab bc ⊢
  exact isLE_trans a b c ab bc

theorem Selection.le_total (a b : Selection) : (a.le b || b.le a) = true := by
  rw [Selection.le_eq, Selection.le_eq]
  exact isLE_total a b

theorem normalizeSelections_idem {selections : List Selection}
    (fixed : ∀ sel ∈ selections, (sel.normalize o).normalize o = sel.normalize o) :
    normalizeSelections o (normalizeSelections o selections) =
      normalizeSelections o selections := by
  simp only [normalizeSelections, normalizeEach_eq_map]
  exact mergeSort_map_idem Selection.le_trans Selection.le_total Selection.le_normalize fixed

mutual
/-- **Normalizing a selection twice** is normalizing it once. -/
theorem Selection.normalize_normalize : ∀ sel : Selection,
    (sel.normalize o).normalize o = sel.normalize o
  | .field aliasName name args directives selections => by
    rw [Selection.normalize_field, Selection.normalize_field,
      normalizeArguments_idem (fields_normalize_normalize args), normalizeDirectives_idem,
      normalizeSelections_idem (each_normalize_normalize selections)]
    split <;> rfl
  | .spread fragment directives => by
    rw [Selection.normalize, Selection.normalize, normalizeDirectives_idem]
  | .inline condition directives selections => by
    rw [Selection.normalize_inline, Selection.normalize_inline, normalizeDirectives_idem,
      normalizeSelections_idem (each_normalize_normalize selections)]
theorem each_normalize_normalize : ∀ selections : List Selection,
    ∀ sel ∈ selections, (sel.normalize o).normalize o = sel.normalize o
  | [] => nofun
  | sel :: selections =>
    List.forall_mem_cons.mpr ⟨sel.normalize_normalize, each_normalize_normalize selections⟩
end

theorem Operation.normalize_normalize (op : Operation) :
    (op.normalize o).normalize o = op.normalize o := by
  cases op with
  | shorthand selections =>
    rw [Operation.normalize, Operation.normalize,
      normalizeSelections_idem (each_normalize_normalize selections)]
  | full kind name variableList directives selections =>
    rw [Operation.normalize, Operation.normalize, normalizeVariables_idem,
      normalizeDirectives_idem, normalizeSelections_idem (each_normalize_normalize selections)]

theorem Fragment.normalize_normalize (frag : Fragment) :
    (frag.normalize o).normalize o = frag.normalize o := by
  rw [Fragment.normalize, Fragment.normalize, normalizeDirectives_idem,
    normalizeSelections_idem (each_normalize_normalize frag.selections)]

theorem Definition.normalize_normalize (definition : Definition) :
    (definition.normalize o).normalize o = definition.normalize o := by
  cases definition with
  | operation op => rw [Definition.normalize, Definition.normalize, op.normalize_normalize]
  | fragment frag => rw [Definition.normalize, Definition.normalize, frag.normalize_normalize]

/-- Normal forms of definitions are ordered as the definitions are. -/
theorem Definition.le_normalize (a b : Definition) :
    a.le b = (a.normalize o).le (b.normalize o) := by
  cases a <;> cases b <;> rfl

/-- **Normalizing a document twice** is normalizing it once. -/
theorem Document.normalize_normalize (doc : Document) :
    (doc.normalize o).normalize o = doc.normalize o :=
  mergeSort_map_idem Definition.le_trans Definition.le_total Definition.le_normalize
    fun definition _ => definition.normalize_normalize

/-! ## Operations and fragments -/

/-- An item goes behind the front of a list, if it is below nothing there. -/
theorem orderedInsert_behind {α : Type} {r : α → α → Prop} [DecidableRel r] {a : α}
    {front : List α} (behind : ∀ b ∈ front, ¬ r a b) (back : List α) :
    (front ++ back).orderedInsert r a = front ++ back.orderedInsert r a := by
  induction front with
  | nil => rfl
  | cons b front ih =>
    rw [List.cons_append, List.orderedInsert_of_not_le r _ (behind b List.mem_cons_self),
      ih fun c mem => behind c (List.mem_cons_of_mem b mem), List.cons_append]

theorem sortByName_cons {α : Type} (name : α → String) (a : α) (items : List α) :
    sortByName name (a :: items) =
      (sortByName name items).orderedInsert (fun x y => decide (name x ≤ name y) = true) a :=
  mergeSort_cons_eq (name_le_trans name) (name_le_total name) a items

/-- **A normal form is the operations in their order, then the fragments by name.** -/
theorem Document.normalize_eq_append (doc : Document) :
    doc.normalize o = (doc.operations.map fun op => .operation (op.normalize o)) ++
      (sortByName Fragment.name (doc.fragments.map (Fragment.normalize o))).map .fragment := by
  induction doc with
  | nil => simp [normalize, operations, fragments, sortByName]
  | cons definition doc ih =>
    unfold Document.normalize at ih ⊢
    rw [List.map_cons, mergeSort_cons_eq Definition.le_trans Definition.le_total, ih]
    cases definition with
    | operation op =>
      -- an operation is below everything
      exact @orderedInsert_append _ _ _ _ [] _ (fun _ mem => absurd mem List.not_mem_nil)
        fun _ _ => rfl
    | fragment frag =>
      -- a fragment is below no operation
      have front : ∀ d ∈ (operations doc).map fun op => Definition.operation (op.normalize o),
          ¬ ((Definition.fragment frag).normalize o).le d = true := by
        intro d mem
        obtain ⟨op, -, rfl⟩ := List.mem_map.mp mem
        exact Bool.false_ne_true
      rw [orderedInsert_behind front]
      change _ ++ _ = _ ++ List.map _ (sortByName _ (frag.normalize o :: List.map _ (fragments doc)))
      rw [sortByName_cons, List.map_orderedInsert _ (fun a b => Definition.le a b = true)]
      · rfl
      all_goals exact fun _ _ => Iff.rfl

/-- **Normalization is an idempotent stable reordering.** Twice is once. The normal form is the one
document in which every list that may be reordered is the stably sorted copy of the list at the same
node, in normal form. Operations keep their order and come first, fragments follow by name. And the
orders are total preorders. -/
theorem Document.normalize_stable (o : NormalOptions) (doc : Document) :
    (doc.normalize o).normalize o = doc.normalize o ∧
      (∀ other, doc.Normal o other ↔ other = doc.normalize o) ∧
      (∃ frags, SortedByName Fragment.name (doc.fragments.map (Fragment.normalize o)) frags ∧
        doc.normalize o =
          (doc.operations.map fun op => .operation (op.normalize o)) ++ frags.map .fragment) ∧
      Std.TransCmp Definition.compare ∧ Std.TransCmp Selection.compare :=
  ⟨doc.normalize_normalize, fun _ => Document.normal_iff,
    ⟨_, sortedByName_iff.mpr rfl, doc.normalize_eq_append⟩, inferInstance, inferInstance⟩

end SchemaUsage.Graphql

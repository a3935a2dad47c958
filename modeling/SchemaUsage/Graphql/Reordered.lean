import Mathlib.Data.List.Forall2
import SchemaUsage.Graphql.Document

/-!
# Documents whose selections are reordered

Two documents that differ in the order of selections only: in any selection set, at any depth, the
selections of one are those of the other in some order, and everything else is the same on both
sides.

* A selection is told by its label: the name of a field, the fragment of a spread, the type
  condition of an inline fragment. A document is separate when no selection set has a label twice.
* `InlineKept` says that inline fragments keep their order among each other, in a selection set and
  in those within selections of one label.

Results:
- `Selection.Reordered.label_eq`: reordered selections have one label.
- `eachInlineKept_iff`: inline fragments are kept in order within selections of one label.
-/

namespace SchemaUsage.Graphql

/-! ## Labels -/

/-- What a selection is told by among its siblings. -/
inductive SelectionLabel where
  | field (name : String)
  | spread (fragment : String)
  | inline (condition : Option String)
  deriving Repr, DecidableEq

/-- The label of a selection; an alias is not part of it. -/
def Selection.label : Selection → SelectionLabel
  | .field _ name .. => .field name
  | .spread fragment _ => .spread fragment
  | .inline condition .. => .inline condition

/-- Whether a selection is an inline fragment. -/
def Selection.isInline : Selection → Bool
  | .inline .. => true
  | _ => false

/-- The labels of the inline fragments of a selection set, in order. -/
def inlineLabels (selections : List Selection) : List SelectionLabel :=
  (selections.filter Selection.isInline).map Selection.label

mutual
/-- No selection set within a selection has a label twice. -/
def Selection.Separate : Selection → Prop
  | .field _ _ _ _ selections =>
    (selections.map Selection.label).Nodup ∧ EachSeparate selections
  | .spread .. => True
  | .inline _ _ selections =>
    (selections.map Selection.label).Nodup ∧ EachSeparate selections
/-- No selection set within any of the selections has a label twice. -/
def EachSeparate : List Selection → Prop
  | [] => True
  | sel :: selections => sel.Separate ∧ EachSeparate selections
end

/-- No selection set has a label twice: neither this one nor one within it. -/
def SelectionsSeparate (selections : List Selection) : Prop :=
  (selections.map Selection.label).Nodup ∧ EachSeparate selections

/-- The root selections of a definition. -/
def Definition.selections : Definition → List Selection
  | .operation op => op.selections
  | .fragment frag => frag.selections

/-- **A document whose selections are told apart by their labels**, in each selection set. -/
def Document.Separate (doc : Document) : Prop :=
  ∀ definition ∈ doc, SelectionsSeparate definition.selections

mutual
/-- Whether a selection is separate. -/
def Selection.decidableSeparate : (sel : Selection) → Decidable sel.Separate
  | .field _ _ _ _ selections =>
    @instDecidableAnd _ _ inferInstance (decidableEachSeparate selections)
  | .spread .. => .isTrue trivial
  | .inline _ _ selections =>
    @instDecidableAnd _ _ inferInstance (decidableEachSeparate selections)
/-- Whether each selection is separate. -/
def decidableEachSeparate : (selections : List Selection) → Decidable (EachSeparate selections)
  | [] => .isTrue trivial
  | sel :: selections =>
    @instDecidableAnd _ _ sel.decidableSeparate (decidableEachSeparate selections)
end

instance (selections : List Selection) : Decidable (SelectionsSeparate selections) :=
  @instDecidableAnd _ _ inferInstance (decidableEachSeparate selections)

instance (doc : Document) : Decidable doc.Separate :=
  inferInstanceAs (Decidable (∀ definition ∈ doc, SelectionsSeparate definition.selections))

/-! ## Orders -/

mutual
/-- Selections that differ in the order of the selections within them. -/
inductive Selection.Reordered : Selection → Selection → Prop where
  | field (aliasName : Option String) (name : String) (args : Arguments)
      (directives : List Directive) {selections moved others : List Selection}
      (order : selections.Perm moved) (each : EachReordered moved others) :
      Selection.Reordered (.field aliasName name args directives selections)
        (.field aliasName name args directives others)
  | spread (fragment : String) (directives : List Directive) :
      Selection.Reordered (.spread fragment directives) (.spread fragment directives)
  | inline (condition : Option String) (directives : List Directive)
      {selections moved others : List Selection} (order : selections.Perm moved)
      (each : EachReordered moved others) :
      Selection.Reordered (.inline condition directives selections)
        (.inline condition directives others)
/-- Selections that are reordered within, one by one. -/
inductive EachReordered : List Selection → List Selection → Prop where
  | nil : EachReordered [] []
  | cons {sel other : Selection} {selections others : List Selection}
      (first : Selection.Reordered sel other) (rest : EachReordered selections others) :
      EachReordered (sel :: selections) (other :: others)
end

/-- **A selection set in another order**: its selections have been moved, and each of them may be
reordered within. -/
def SelectionsReordered (selections others : List Selection) : Prop :=
  ∃ moved, selections.Perm moved ∧ EachReordered moved others

/-- Definitions that differ in the order of selections. -/
inductive Definition.Reordered : Definition → Definition → Prop where
  | shorthand {selections others : List Selection}
      (selected : SelectionsReordered selections others) :
      Definition.Reordered (.operation (.shorthand selections)) (.operation (.shorthand others))
  | full (kind : OperationKind) (name : Option String) (variableList : List VariableDefinition)
      (directives : List Directive) {selections others : List Selection}
      (selected : SelectionsReordered selections others) :
      Definition.Reordered (.operation (.full kind name variableList directives selections))
        (.operation (.full kind name variableList directives others))
  | fragment (name condition : String) (directives : List Directive)
      {selections others : List Selection} (selected : SelectionsReordered selections others) :
      Definition.Reordered (.fragment ⟨name, condition, directives, selections⟩)
        (.fragment ⟨name, condition, directives, others⟩)

/-- **Documents that differ in the order of selections only.** -/
abbrev Document.Reordered : Document → Document → Prop :=
  List.Forall₂ Definition.Reordered

/-! ## The order of inline fragments -/

mutual
/-- Inline fragments have one order in the selection sets within two selections. -/
def Selection.InlineKept : Selection → Selection → Prop
  | .field _ _ _ _ selections, .field _ _ _ _ others =>
    inlineLabels selections = inlineLabels others ∧ EachInlineKept selections others
  | .inline _ _ selections, .inline _ _ others =>
    inlineLabels selections = inlineLabels others ∧ EachInlineKept selections others
  | _, _ => True
/-- Inline fragments have one order in the selection sets within selections of one label. -/
def EachInlineKept : List Selection → List Selection → Prop
  | [], _ => True
  | sel :: selections, others =>
    (∀ other ∈ others, sel.label = other.label → sel.InlineKept other) ∧
      EachInlineKept selections others
end

/-- Inline fragments have one order in two selection sets, at any depth. -/
def SelectionsInlineKept (selections others : List Selection) : Prop :=
  inlineLabels selections = inlineLabels others ∧ EachInlineKept selections others

/-- **Documents whose inline fragments have one order** in each selection set. -/
abbrev Document.InlineKept : Document → Document → Prop :=
  List.Forall₂ fun definition other =>
    SelectionsInlineKept definition.selections other.selections

mutual
/-- Whether two selections have their inline fragments in one order. -/
def Selection.decidableInlineKept : (sel other : Selection) → Decidable (sel.InlineKept other)
  | .field _ _ _ _ selections, .field _ _ _ _ others =>
    @instDecidableAnd _ _ inferInstance (decidableEachInlineKept selections others)
  | .inline _ _ selections, .inline _ _ others =>
    @instDecidableAnd _ _ inferInstance (decidableEachInlineKept selections others)
  | .field .., .spread .. => .isTrue trivial
  | .field .., .inline .. => .isTrue trivial
  | .spread .., _ => .isTrue trivial
  | .inline .., .field .. => .isTrue trivial
  | .inline .., .spread .. => .isTrue trivial
/-- Whether selections of one label have their inline fragments in one order. -/
def decidableEachInlineKept : (selections others : List Selection) →
    Decidable (EachInlineKept selections others)
  | [], _ => .isTrue trivial
  | sel :: selections, others =>
    have (other : Selection) : Decidable (sel.InlineKept other) := sel.decidableInlineKept other
    @instDecidableAnd _ _ inferInstance (decidableEachInlineKept selections others)
end

instance (selections others : List Selection) :
    Decidable (SelectionsInlineKept selections others) :=
  @instDecidableAnd _ _ inferInstance (decidableEachInlineKept selections others)

instance (doc other : Document) : Decidable (doc.InlineKept other) :=
  inferInstanceAs (Decidable (List.Forall₂ _ doc other))

/-! ## What an order keeps -/

theorem Selection.Reordered.label_eq {sel other : Selection} (h : sel.Reordered other) :
    sel.label = other.label := by
  cases h <;> rfl

mutual
/-- Every selection is in some order of itself. -/
theorem Selection.Reordered.refl : ∀ sel : Selection, sel.Reordered sel
  | .field aliasName name args directives selections =>
    .field aliasName name args directives (.refl selections) (EachReordered.refl selections)
  | .spread fragment directives => .spread fragment directives
  | .inline condition directives selections =>
    .inline condition directives (.refl selections) (EachReordered.refl selections)
theorem EachReordered.refl (selections : List Selection) : EachReordered selections selections := by
  cases selections with
  | nil => exact .nil
  | cons sel selections =>
    exact .cons (Selection.Reordered.refl sel) (EachReordered.refl selections)
end

theorem eachInlineKept_iff {selections others : List Selection} :
    EachInlineKept selections others ↔ ∀ sel ∈ selections, ∀ other ∈ others,
      sel.label = other.label → sel.InlineKept other := by
  induction selections with
  | nil => simp [EachInlineKept]
  | cons sel selections ih => rw [EachInlineKept, List.forall_mem_cons, ih]

end SchemaUsage.Graphql

import SchemaUsage.Proofs.Graphql.StableSort

/-!
# The normal form is canonical

About `normalize_operation`. Documents that are written in another way have one normal form. Aliases
and literals are dropped where they stand, and whatever may change places is sorted by its name:
sorting commutes with whatever happens inside of the sorted items, as normal forms keep names.

* The proof follows the relation. Where members stand at one place their normal forms are equal;
  where neighbours change places they are put back in one order; and steps may be combined.

Results:
- `Value.Variant.normalize_eq`, `Selection.Variant.normalize_eq`: the same within documents.
- `Document.Variant.normalize_eq`: variants have the same normal form.
-/

namespace SchemaUsage.Graphql

variable {o : NormalOptions}

/-! ## Values -/

mutual
/-- **Values written in another way** have the same normal form. -/
theorem Value.Variant.normalize_eq (hides : o.hideLiterals = true) :
    ∀ {v w : Value}, v.Variant w → v.normalize o = w.normalize o
  | _, _, .int i j => by rw [Value.normalize, Value.normalize, if_pos hides, if_pos hides]
  | _, _, .float x y => by rw [Value.normalize, Value.normalize, if_pos hides, if_pos hides]
  | _, _, .string s t => by rw [Value.normalize, Value.normalize, if_pos hides, if_pos hides]
  | _, _, .var name => rfl
  | _, _, .boolean b => rfl
  | _, _, .null => rfl
  | _, _, .enum name => rfl
  | _, _, .list each => by
    rw [Value.normalize, Value.normalize, ItemsVariant.normalize_eq hides each]
  | _, _, .object each => by
    rw [Value.normalize, Value.normalize, ← normalizeArguments, ← normalizeArguments,
      ArgumentsVariant.normalize_eq hides each]
theorem ItemsVariant.normalize_eq (hides : o.hideLiterals = true) :
    ∀ {items others : List Value}, ItemsVariant items others →
      normalizeItems o items = normalizeItems o others
  | _, _, .nil => rfl
  | _, _, .cons first rest => by
    rw [normalizeItems, normalizeItems, first.normalize_eq hides, rest.normalize_eq hides]
theorem ArgumentsVariant.normalize_eq (hides : o.hideLiterals = true) :
    ∀ {args others : Arguments}, ArgumentsVariant args others →
      normalizeArguments o args = normalizeArguments o others
  | _, _, .nil => rfl
  | _, _, .cons name first rest => by
    rw [normalizeArguments, normalizeArguments, normalizeFields, normalizeFields,
      first.normalize_eq hides]
    exact sortByName_cons_congr _ (rest.normalize_eq hides)
  | _, _, .swap v w apart args => by
    rw [normalizeArguments, normalizeArguments, normalizeFields, normalizeFields, normalizeFields,
      normalizeFields]
    exact sortByName_swap apart _
  | _, _, .trans first second =>
    (first.normalize_eq hides).trans (second.normalize_eq hides)
end

/-! ## Directives and variables -/

theorem DirectivesVariant.normalize_eq (hides : o.hideLiterals = true)
    {directives others : List Directive} (h : DirectivesVariant directives others) :
    normalizeDirectives o directives = normalizeDirectives o others := by
  unfold normalizeDirectives
  refine h.sortByName_map (fun d => ?_) fun d e variant => ?_
  · rfl
  · rw [variant.name, variant.arguments.normalize_eq hides]

theorem VariablesVariant.normalize_eq (hides : o.hideLiterals = true)
    {variableList others : List VariableDefinition} (h : VariablesVariant variableList others) :
    normalizeVariables o variableList = normalizeVariables o others := by
  unfold normalizeVariables
  refine h.sortByName_map (fun v => ?_) fun v w variant => ?_
  · rfl
  · have default : v.default.map (Value.normalize o) = w.default.map (Value.normalize o) :=
      match v.default, w.default, variant.default with
      | _, _, .none => rfl
      | _, _, .some value => congrArg some (value.normalize_eq hides)
    rw [variant.name, variant.type, default]

/-! ## Selections -/

mutual
/-- **Selections written in another way** have the same normal form. -/
theorem Selection.Variant.normalize_eq (hides : o.hideLiterals = true)
    (removes : o.removeAliases = true) :
    ∀ {sel other : Selection}, sel.Variant other → sel.normalize o = other.normalize o
  | _, _, .field aliasName aliasName' name given marked nested => by
    rw [Selection.normalize, Selection.normalize, if_pos removes, if_pos removes,
      given.normalize_eq hides, DirectivesVariant.normalize_eq hides marked,
      nested.normalizeEach_eq hides removes]
  | _, _, .spread fragment marked => by
    rw [Selection.normalize, Selection.normalize, DirectivesVariant.normalize_eq hides marked]
  | _, _, .inline condition marked nested => by
    rw [Selection.normalize, Selection.normalize, DirectivesVariant.normalize_eq hides marked,
      nested.normalizeEach_eq hides removes]
theorem SelectionsVariant.normalizeEach_eq (hides : o.hideLiterals = true)
    (removes : o.removeAliases = true) :
    ∀ {selections others : List Selection}, SelectionsVariant selections others →
      normalizeEach o selections = normalizeEach o others
  | _, _, .nil => rfl
  | _, _, .cons first rest => by
    rw [normalizeEach, normalizeEach, first.normalize_eq hides removes,
      rest.normalizeEach_eq hides removes]
end

theorem SelectionsVariant.normalize_eq (hides : o.hideLiterals = true)
    (removes : o.removeAliases = true) {selections others : List Selection}
    (h : SelectionsVariant selections others) :
    normalizeSelections o selections = normalizeSelections o others := by
  rw [normalizeSelections, normalizeSelections, h.normalizeEach_eq hides removes]

/-! ## Documents -/

theorem Operation.Variant.normalize_eq (hides : o.hideLiterals = true)
    (removes : o.removeAliases = true) {op other : Operation} (h : op.Variant other) :
    op.normalize o = other.normalize o := by
  cases h with
  | shorthand selected =>
    rw [Operation.normalize, Operation.normalize, selected.normalize_eq hides removes]
  | full kind name declared marked selected =>
    rw [Operation.normalize, Operation.normalize, VariablesVariant.normalize_eq hides declared,
      DirectivesVariant.normalize_eq hides marked, selected.normalize_eq hides removes]

theorem Fragment.Variant.normalize_eq (hides : o.hideLiterals = true)
    (removes : o.removeAliases = true) {frag other : Fragment} (h : frag.Variant other) :
    frag.normalize o = other.normalize o := by
  rw [Fragment.normalize, Fragment.normalize, h.name, h.condition,
    DirectivesVariant.normalize_eq hides h.marked, h.selected.normalize_eq hides removes]

theorem Definition.Variant.normalize_eq (hides : o.hideLiterals = true)
    (removes : o.removeAliases = true) {definition other : Definition}
    (h : definition.Variant other) : definition.normalize o = other.normalize o := by
  cases h with
  | operation variant =>
    rw [Definition.normalize, Definition.normalize, variant.normalize_eq hides removes]
  | fragment variant =>
    rw [Definition.normalize, Definition.normalize, variant.normalize_eq hides removes]

/-- Definitions that may change places are strictly ordered in a normal form. -/
theorem Definition.Free.strict {a b : Definition} (free : a.Free b) :
    ¬ ((a.normalize o).le (b.normalize o) = true ∧ (b.normalize o).le (a.normalize o) = true) := by
  cases a with
  | operation op =>
    cases b with
    | operation other => exact absurd free id
    | fragment frag => exact fun both => Bool.false_ne_true both.2
  | fragment frag =>
    cases b with
    | operation op => exact fun both => Bool.false_ne_true both.1
    | fragment other => exact not_name_le_both free

/-- **Documents written in another way have the same normal form.** -/
theorem Document.Variant.normalize_eq (hides : o.hideLiterals = true)
    (removes : o.removeAliases = true) {doc other : Document} (h : doc.Variant other) :
    doc.normalize o = Document.normalize o other :=
  h.mergeSort_map Definition.le_trans Definition.le_total
    (fun _ _ variant => variant.normalize_eq hides removes) fun _ _ free => free.strict

end SchemaUsage.Graphql

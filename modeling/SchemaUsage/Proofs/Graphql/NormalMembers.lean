import SchemaUsage.Graphql.Normal

/-!
# What is in a normal form

About `normalize_operation`, part by part. Normal forms are sorted copies: what is in the normal
form of a list is the normal form of what is in the list. A normal form is also of the same kind as
the value or the selection that it comes from, so its parts can be told from the parts of the
original and the other way round.

Results:
- `Value.normalize_eq_list`, `Value.normalize_eq_object`: composite values come from composite ones.
- `Selection.normalize_eq_field`, `Selection.normalize_eq_inline`: the same for selections.
- `Document.mem_normalize`: the definitions of a normal form are those of the document, normalized.
-/

namespace SchemaUsage.Graphql

variable {o : NormalOptions}

theorem mem_sortByName {α : Type} {name : α → String} {items : List α} {x : α} :
    x ∈ sortByName name items ↔ x ∈ items :=
  List.mem_mergeSort

/-! ## Values -/

theorem normalizeItems_eq_map : ∀ items : List Value,
    normalizeItems o items = items.map (Value.normalize o)
  | [] => by rw [normalizeItems, List.map_nil]
  | item :: items => by rw [normalizeItems, List.map_cons, normalizeItems_eq_map items]

theorem normalizeFields_eq_map : ∀ args : Arguments,
    normalizeFields o args = args.map fun arg => (arg.1, arg.2.normalize o)
  | [] => by rw [normalizeFields, List.map_nil]
  | (name, value) :: args => by rw [normalizeFields, List.map_cons, normalizeFields_eq_map args]

theorem mem_normalizeArguments {args : Arguments} {arg : String × Value} :
    arg ∈ normalizeArguments o args ↔
      ∃ given ∈ args, arg = (given.1, given.2.normalize o) := by
  rw [normalizeArguments, mem_sortByName, normalizeFields_eq_map, List.mem_map]
  simp only [eq_comm]

namespace Value

theorem normalize_list (items : List Value) :
    (list items).normalize o = .list (items.map (normalize o)) := by
  rw [normalize, normalizeItems_eq_map]

theorem normalize_object (fields : Arguments) :
    (object fields).normalize o = .object (normalizeArguments o fields) := by
  rw [normalize, normalizeArguments]

theorem normalize_eq_list {value : Value} {items : List Value}
    (same : value.normalize o = .list items) :
    ∃ written, value = .list written ∧ items = written.map (normalize o) := by
  cases value with
  | list written =>
    rw [normalize_list] at same
    cases same
    exact ⟨written, rfl, rfl⟩
  | int _ | float _ | string _ =>
    rw [normalize] at same
    split at same <;> cases same
  | _ => rw [normalize] at same; cases same

theorem normalize_eq_object {value : Value} {fields : Arguments}
    (same : value.normalize o = .object fields) :
    ∃ written, value = .object written ∧ fields = normalizeArguments o written := by
  cases value with
  | object written =>
    rw [normalize_object] at same
    cases same
    exact ⟨written, rfl, rfl⟩
  | int _ | float _ | string _ =>
    rw [normalize] at same
    split at same <;> cases same
  | _ => rw [normalize] at same; cases same

end Value

/-! ## Selections -/

theorem normalizeEach_eq_map : ∀ selections : List Selection,
    normalizeEach o selections = selections.map (Selection.normalize o)
  | [] => by rw [normalizeEach, List.map_nil]
  | sel :: selections => by rw [normalizeEach, List.map_cons, normalizeEach_eq_map selections]

theorem mem_normalizeSelections {selections : List Selection} {sel : Selection} :
    sel ∈ normalizeSelections o selections ↔
      ∃ written ∈ selections, sel = written.normalize o := by
  rw [normalizeSelections, List.mem_mergeSort, normalizeEach_eq_map, List.mem_map]
  simp only [eq_comm]

theorem normalizeSelections_eq_nil {selections : List Selection} :
    normalizeSelections o selections = [] ↔ selections = [] := by
  rw [← List.length_eq_zero_iff, ← List.length_eq_zero_iff, normalizeSelections,
    List.length_mergeSort, normalizeEach_eq_map, List.length_map]

namespace Selection

theorem normalize_field (aliasName : Option String) (name : String) (args : Arguments)
    (directives : List Directive) (selections : List Selection) :
    (field aliasName name args directives selections).normalize o =
      .field (if o.removeAliases then none else aliasName) name (normalizeArguments o args)
        (normalizeDirectives o directives) (normalizeSelections o selections) := by
  rw [normalize, normalizeSelections]

theorem normalize_inline (condition : Option String) (directives : List Directive)
    (selections : List Selection) :
    (inline condition directives selections).normalize o =
      .inline condition (normalizeDirectives o directives)
        (normalizeSelections o selections) := by
  rw [normalize, normalizeSelections]

theorem normalize_eq_field {sel : Selection} {aliasName : Option String} {name : String}
    {args : Arguments} {directives : List Directive} {selections : List Selection}
    (same : sel.normalize o = .field aliasName name args directives selections) :
    ∃ aliasName' args' directives' selections',
      sel = .field aliasName' name args' directives' selections' ∧
      args = normalizeArguments o args' ∧ selections = normalizeSelections o selections' := by
  cases sel with
  | field aliasName' name' args' directives' selections' =>
    rw [normalize_field] at same
    cases same
    exact ⟨aliasName', args', directives', selections', rfl, rfl, rfl⟩
  | spread _ _ => rw [normalize] at same; cases same
  | inline _ _ _ => rw [normalize] at same; cases same

theorem normalize_eq_inline {sel : Selection} {condition : Option String}
    {directives : List Directive} {selections : List Selection}
    (same : sel.normalize o = .inline condition directives selections) :
    ∃ directives' selections', sel = .inline condition directives' selections' ∧
      selections = normalizeSelections o selections' := by
  cases sel with
  | field _ _ _ _ _ => rw [normalize] at same; cases same
  | spread _ _ => rw [normalize] at same; cases same
  | inline condition' directives' selections' =>
    rw [normalize_inline] at same
    cases same
    exact ⟨directives', selections', rfl, rfl⟩

end Selection

/-! ## Definitions -/

theorem mem_normalizeVariables {variableList : List VariableDefinition} {v : VariableDefinition} :
    v ∈ normalizeVariables o variableList ↔
      ∃ declared ∈ variableList,
        v = { declared with default := declared.default.map (Value.normalize o) } := by
  rw [normalizeVariables, mem_sortByName, List.mem_map]
  simp only [eq_comm]

namespace Operation

theorem kind_normalize (op : Operation) : (op.normalize o).kind = op.kind := by
  cases op <;> rfl

theorem selections_normalize (op : Operation) :
    (op.normalize o).selections = normalizeSelections o op.selections := by
  cases op <;> rfl

theorem mem_variableList_normalize {op : Operation} {v : VariableDefinition} :
    v ∈ (op.normalize o).variableList ↔ ∃ declared ∈ op.variableList,
      v = { declared with default := declared.default.map (Value.normalize o) } := by
  cases op with
  | shorthand selections => simp [normalize, variableList]
  | full _ _ _ _ _ => exact mem_normalizeVariables

end Operation

namespace Document

theorem mem_normalize {doc : Document} {definition : Definition} :
    definition ∈ doc.normalize o ↔ ∃ written ∈ doc, definition = written.normalize o := by
  rw [(normalize_perm o doc).mem_iff, List.mem_map]
  simp only [eq_comm]

theorem operation_mem_normalize {doc : Document} {op : Operation} :
    .operation op ∈ doc.normalize o ↔ ∃ written, .operation written ∈ doc ∧
      op = written.normalize o := by
  rw [mem_normalize]
  constructor
  · rintro ⟨written | frag, mem, same⟩ <;> cases same
    exact ⟨written, mem, rfl⟩
  · rintro ⟨written, mem, rfl⟩
    exact ⟨_, mem, rfl⟩

theorem fragment_mem_normalize {doc : Document} {frag : Fragment} :
    .fragment frag ∈ doc.normalize o ↔ ∃ written, .fragment written ∈ doc ∧
      frag = written.normalize o := by
  rw [mem_normalize]
  constructor
  · rintro ⟨op | written, mem, same⟩ <;> cases same
    exact ⟨written, mem, rfl⟩
  · rintro ⟨written, mem, rfl⟩
    exact ⟨_, mem, rfl⟩

end Document

end SchemaUsage.Graphql

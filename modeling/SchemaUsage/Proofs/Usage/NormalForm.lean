import SchemaUsage.Proofs.Graphql.NormalMembers
import SchemaUsage.Proofs.Usage.Meaning

/-!
# The usage of a normal form

About `collect_schema_usage` of what `normalize_operation` gives. What a document uses is told
position by position, and a normal form has the normal forms of the positions of its document.
Neither the order at any level nor what is hidden of literals counts for what a position gives or
needs, so a normal form resolves with its document and uses the same.

Results:
- `valueAt_normalize`, `stands_normalize`: the positions in normal forms are normalized positions.
- `resolves_normalize`, `uses_normalize`: a normal form resolves and uses as its document does.
- `usage_normalize`: a normal form has the usage of its document.
-/

namespace SchemaUsage.Usage

open SchemaUsage.Graphql

variable {s : Schema} {strategy : Strategy} {o : NormalOptions}

/-! ## Positions in values -/

/-- **Positions in the normal form of a value** are positions in the value, normalized. -/
theorem valueAt_normalize {t u : TypeDefinition} {value part : Value} {held : Held} :
    ValueAt s t (value.normalize o) u held part ↔
      ∃ written, ValueAt s t value u held written ∧ part = written.normalize o := by
  constructor
  · intro position
    induction position with
    | whole => exact ⟨value, .whole, rfl⟩
    | item _ mem ih =>
      obtain ⟨written, outer, same⟩ := ih
      obtain ⟨items, rfl, rfl⟩ := Value.normalize_eq_list same.symm
      obtain ⟨item, mem', rfl⟩ := List.mem_map.mp mem
      exact ⟨item, .item outer mem', rfl⟩
    | member _ kind mem declared named ih =>
      obtain ⟨written, outer, same⟩ := ih
      obtain ⟨fields, rfl, rfl⟩ := Value.normalize_eq_object same.symm
      obtain ⟨⟨name, part⟩, mem', same⟩ := mem_normalizeArguments.mp mem
      cases same
      exact ⟨part, .member outer kind mem' declared named, rfl⟩
  · rintro ⟨written, position, rfl⟩
    induction position with
    | whole => exact .whole
    | item _ mem ih =>
      rw [Value.normalize_list] at ih
      exact .item ih (List.mem_map_of_mem mem)
    | member _ kind mem declared named ih =>
      rw [Value.normalize_object] at ih
      exact .member ih kind (mem_normalizeArguments.mpr ⟨_, mem, rfl⟩) declared named

/-- Literals give the same whatever they are. -/
theorem valueGives_normalize {t : TypeDefinition} {held : Held} {value : Value} {m : Mark} :
    ValueGives strategy t held (value.normalize o) m ↔ ValueGives strategy t held value m := by
  cases value with
  | int _ | float _ | string _ =>
    rw [Value.normalize]
    split <;> exact (valueGives_literal rfl).trans (valueGives_literal rfl).symm
  | list items =>
    rw [Value.normalize_list]
    constructor <;> intro gives <;> cases gives with
      | literal literal => cases literal
      | item leaf => cases leaf
  | object fields =>
    rw [Value.normalize_object]
    constructor <;> intro gives <;> cases gives with
      | literal literal => cases literal
      | item leaf => cases leaf
      | foreign kind => exact .foreign kind
      | key kind mem => ?_
    · obtain ⟨⟨name, part⟩, mem', same⟩ := mem_normalizeArguments.mp mem
      cases same
      exact .key kind mem'
    · exact .key kind (mem_normalizeArguments.mpr ⟨_, mem, rfl⟩)
  | _ => rw [Value.normalize]

theorem valueFits_normalize {t : TypeDefinition} {value : Value} :
    ValueFits s t (value.normalize o) ↔ ValueFits s t value := by
  constructor
  · rintro fits members name part rfl kind mem
    rw [Value.normalize_object] at fits
    exact fits _ name _ rfl kind (mem_normalizeArguments.mpr ⟨_, mem, rfl⟩)
  · rintro fits members name part same kind mem
    obtain ⟨fields, rfl, rfl⟩ := Value.normalize_eq_object same
    obtain ⟨⟨name, part⟩, mem', same⟩ := mem_normalizeArguments.mp mem
    cases same
    exact fits _ name part rfl kind mem'

/-! ## Arguments -/

theorem argumentFits_normalize {field : FieldDefinition} {arg : String × Value} :
    ArgumentFits s field (arg.1, arg.2.normalize o) ↔ ArgumentFits s field arg := by
  unfold ArgumentFits
  refine exists_congr fun argument => exists_congr fun t => and_congr_right fun _ =>
    and_congr_right fun _ => ?_
  constructor
  · intro fits u held part position
    exact valueFits_normalize.mp (fits u held _ (valueAt_normalize.mpr ⟨part, position, rfl⟩))
  · intro fits u held part position
    obtain ⟨written, position', rfl⟩ := valueAt_normalize.mp position
    exact valueFits_normalize.mpr (fits u held written position')

theorem argumentGives_normalize {field : FieldDefinition} {arg : String × Value} {m : Mark} :
    ArgumentGives s strategy field (arg.1, arg.2.normalize o) m ↔
      ArgumentGives s strategy field arg m := by
  constructor
  · rintro ⟨argument, t, u, held, part, declared, named, position, gives⟩
    obtain ⟨written, position', rfl⟩ := valueAt_normalize.mp position
    exact ⟨argument, t, u, held, written, declared, named, position',
      valueGives_normalize.mp gives⟩
  · rintro ⟨argument, t, u, held, part, declared, named, position, gives⟩
    exact ⟨argument, t, u, held, _, declared, named,
      valueAt_normalize.mpr ⟨part, position, rfl⟩, valueGives_normalize.mpr gives⟩

/-! ## Selections -/

/-- **Selections stand in a normal form** where they stand in its document. -/
theorem stands_normalize {doc : Document} {t : TypeDefinition} {sel : Selection} :
    Stands s (doc.normalize o) t sel ↔
      ∃ written, Stands s doc t written ∧ sel = written.normalize o := by
  constructor
  · intro stands
    induction stands with
    | operation definition named type selected =>
      obtain ⟨op, definition', rfl⟩ := Document.operation_mem_normalize.mp definition
      rw [Operation.kind_normalize] at named
      rw [Operation.selections_normalize] at selected
      obtain ⟨written, selected', rfl⟩ := mem_normalizeSelections.mp selected
      exact ⟨written, .operation definition' named type selected', rfl⟩
    | fragment definition type selected =>
      obtain ⟨frag, definition', rfl⟩ := Document.fragment_mem_normalize.mp definition
      obtain ⟨written, selected', rfl⟩ := mem_normalizeSelections.mp selected
      exact ⟨written, .fragment definition' type selected', rfl⟩
    | nested _ ordinary declared type selected ih =>
      obtain ⟨outer, stands, same⟩ := ih
      obtain ⟨_, _, _, selections, rfl, -, rfl⟩ := Selection.normalize_eq_field same.symm
      obtain ⟨written, selected', rfl⟩ := mem_normalizeSelections.mp selected
      exact ⟨written, .nested stands ordinary declared type selected', rfl⟩
    | conditional _ type selected ih =>
      obtain ⟨outer, stands, same⟩ := ih
      obtain ⟨_, selections, rfl, rfl⟩ := Selection.normalize_eq_inline same.symm
      obtain ⟨written, selected', rfl⟩ := mem_normalizeSelections.mp selected
      exact ⟨written, .conditional stands type selected', rfl⟩
    | unconditional _ selected ih =>
      obtain ⟨outer, stands, same⟩ := ih
      obtain ⟨_, selections, rfl, rfl⟩ := Selection.normalize_eq_inline same.symm
      obtain ⟨written, selected', rfl⟩ := mem_normalizeSelections.mp selected
      exact ⟨written, .unconditional stands selected', rfl⟩
  · rintro ⟨written, stands, rfl⟩
    induction stands with
    | operation definition named type selected =>
      refine .operation (Document.operation_mem_normalize.mpr ⟨_, definition, rfl⟩)
        (by rwa [Operation.kind_normalize]) type ?_
      rw [Operation.selections_normalize]
      exact mem_normalizeSelections.mpr ⟨_, selected, rfl⟩
    | fragment definition type selected =>
      exact .fragment (Document.fragment_mem_normalize.mpr ⟨_, definition, rfl⟩) type
        (mem_normalizeSelections.mpr ⟨_, selected, rfl⟩)
    | nested _ ordinary declared type selected ih =>
      rw [Selection.normalize_field] at ih
      exact .nested ih ordinary declared type (mem_normalizeSelections.mpr ⟨_, selected, rfl⟩)
    | conditional _ type selected ih =>
      rw [Selection.normalize_inline] at ih
      exact .conditional ih type (mem_normalizeSelections.mpr ⟨_, selected, rfl⟩)
    | unconditional _ selected ih =>
      rw [Selection.normalize_inline] at ih
      exact .unconditional ih (mem_normalizeSelections.mpr ⟨_, selected, rfl⟩)

theorem selectionFits_normalize {t : TypeDefinition} {sel : Selection} :
    SelectionFits s t (sel.normalize o) ↔ SelectionFits s t sel := by
  cases sel with
  | field aliasName name args directives selections =>
    rw [Selection.normalize_field, SelectionFits, SelectionFits]
    refine imp_congr .rfl (exists_congr fun field => and_congr_right fun _ => and_congr ?_ ?_)
    · constructor
      · intro fits arg given
        exact argumentFits_normalize.mp (fits _ (mem_normalizeArguments.mpr ⟨arg, given, rfl⟩))
      · intro fits arg given
        obtain ⟨written, given', rfl⟩ := mem_normalizeArguments.mp given
        exact argumentFits_normalize.mpr (fits written given')
    · rw [ne_eq, normalizeSelections_eq_nil]
  | spread fragment directives => rw [Selection.normalize, SelectionFits, SelectionFits]
  | inline condition directives selections =>
    rw [Selection.normalize_inline]
    cases condition <;> rw [SelectionFits, SelectionFits]

theorem gives_normalize {t : TypeDefinition} {sel : Selection} {id : String} :
    Gives t (sel.normalize o) id ↔ Gives t sel id := by
  cases sel with
  | field aliasName name args directives selections =>
    rw [Selection.normalize_field]
    by_cases special : name ∈ metaFields
    · rw [gives_meta special, gives_meta special]
    · rw [gives_ordinary special, gives_ordinary special]
      refine or_congr_right ⟨?_, ?_⟩
      · rintro ⟨arg, given, rfl⟩
        obtain ⟨written, given', rfl⟩ := mem_normalizeArguments.mp given
        exact ⟨written, given', rfl⟩
      · rintro ⟨arg, given, rfl⟩
        exact ⟨_, mem_normalizeArguments.mpr ⟨arg, given, rfl⟩, rfl⟩
  | spread fragment directives =>
    rw [Selection.normalize]
    constructor <;> intro gives <;> cases gives
  | inline condition directives selections =>
    rw [Selection.normalize_inline]
    constructor <;> intro gives <;> cases gives

theorem selectionGives_normalize {t : TypeDefinition} {sel : Selection} {m : Mark} :
    SelectionGives s strategy t (sel.normalize o) m ↔ SelectionGives s strategy t sel m := by
  constructor
  · intro gives
    generalize same : sel.normalize o = normal at gives
    cases gives with
    | names gives =>
      rw [← same, gives_normalize] at gives
      exact .names gives
    | value ordinary declared given gives =>
      obtain ⟨_, _, _, _, rfl, rfl, rfl⟩ := Selection.normalize_eq_field same
      obtain ⟨arg, given', rfl⟩ := mem_normalizeArguments.mp given
      exact .value ordinary declared given' (argumentGives_normalize.mp gives)
  · intro gives
    cases gives with
    | names gives => exact .names (gives_normalize.mpr gives)
    | value ordinary declared given gives =>
      rw [Selection.normalize_field]
      exact .value ordinary declared (mem_normalizeArguments.mpr ⟨_, given, rfl⟩)
        (argumentGives_normalize.mpr gives)

/-! ## Variables -/

/-- The default value of a variable counts for nothing. -/
theorem variableFits_default {v : VariableDefinition} {default : Option Value} :
    VariableFits s strategy { v with default } ↔ VariableFits s strategy v := by
  cases strategy <;> rfl

theorem variableGives_default {v : VariableDefinition} {default : Option Value} {m : Mark} :
    VariableGives s strategy { v with default } m ↔ VariableGives s strategy v m := by
  cases strategy <;> rfl

/-! ## Documents -/

theorem resolves_normalize {doc : Document} :
    Resolves s strategy (doc.normalize o) ↔ Resolves s strategy doc := by
  constructor
  · rintro ⟨roots, conditions, selections, vars⟩
    refine ⟨fun op mem => ?_, fun frag mem => ?_, fun t sel stands => ?_,
      fun op mem v declared => ?_⟩
    · have root := roots _ (Document.operation_mem_normalize.mpr ⟨op, mem, rfl⟩)
      rwa [Operation.kind_normalize] at root
    · exact conditions (frag.normalize o)
        (Document.fragment_mem_normalize.mpr ⟨frag, mem, rfl⟩)
    · exact selectionFits_normalize.mp
        (selections t _ (stands_normalize.mpr ⟨sel, stands, rfl⟩))
    · exact variableFits_default.mp (vars _ (Document.operation_mem_normalize.mpr ⟨op, mem, rfl⟩) _
        (Operation.mem_variableList_normalize.mpr ⟨v, declared, rfl⟩))
  · rintro ⟨roots, conditions, selections, vars⟩
    refine ⟨fun op mem => ?_, fun frag mem => ?_, fun t sel stands => ?_,
      fun op mem v declared => ?_⟩
    · obtain ⟨written, mem', rfl⟩ := Document.operation_mem_normalize.mp mem
      rw [Operation.kind_normalize]
      exact roots written mem'
    · obtain ⟨written, mem', rfl⟩ := Document.fragment_mem_normalize.mp mem
      exact conditions written mem'
    · obtain ⟨written, stands', rfl⟩ := stands_normalize.mp stands
      exact selectionFits_normalize.mpr (selections t written stands')
    · obtain ⟨written, mem', rfl⟩ := Document.operation_mem_normalize.mp mem
      obtain ⟨v', declared', rfl⟩ := Operation.mem_variableList_normalize.mp declared
      exact variableFits_default.mpr (vars written mem' v' declared')

theorem uses_normalize {doc : Document} {m : Mark} :
    Uses s strategy (doc.normalize o) m ↔ Uses s strategy doc m := by
  constructor
  · intro used
    cases used with
    | selection stands gives =>
      obtain ⟨sel, stands', rfl⟩ := stands_normalize.mp stands
      exact .selection stands' (selectionGives_normalize.mp gives)
    | var definition declared gives =>
      obtain ⟨op, definition', rfl⟩ := Document.operation_mem_normalize.mp definition
      obtain ⟨v, declared', rfl⟩ := Operation.mem_variableList_normalize.mp declared
      exact .var definition' declared' (variableGives_default.mp gives)
  · intro used
    cases used with
    | selection stands gives =>
      exact .selection (stands_normalize.mpr ⟨_, stands, rfl⟩)
        (selectionGives_normalize.mpr gives)
    | var definition declared gives =>
      exact .var (Document.operation_mem_normalize.mpr ⟨_, definition, rfl⟩)
        (Operation.mem_variableList_normalize.mpr ⟨_, declared, rfl⟩)
        (variableGives_default.mpr gives)

/-- **A normal form has the usage of its document.** -/
theorem usage_normalize (doc : Document) (o : NormalOptions) (ids : List String) :
    usage s strategy (doc.normalize o) = .ok ids ↔ usage s strategy doc = .ok ids :=
  usage_congr resolves_normalize (fun _ => uses_normalize) ids

end SchemaUsage.Usage

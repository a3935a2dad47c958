import SchemaUsage.Graphql.Document

/-!
# Stripped documents

A document without what only decides how it is carried out: the directives and aliases, the spreads
of fragments, the default values of variables, and the names of operations and fragments.

A field whose selection set held nothing but spreads is left with an empty one. This cannot be
written, and is the same as none at all, or it can be told from that by a nameless spread in it.

Results:
- `mem_strippedSelections`: what is left of a selection set is what is left of its members.
- `strippedSelections_eq_nil`: nothing is left of spreads alone.
- `Selection.stripped?_eq_field`, `Selection.stripped?_eq_inline`: what is left comes from the like.
- `Document.operation_mem_stripped`, `Document.fragment_mem_stripped`: what is left of definitions.
-/

namespace SchemaUsage.Graphql

/-! ## Selections -/

/-- What is left of the selections of a field, of which `left` has been kept. Where `braces` are
kept, an empty selection set differs from none. -/
def strippedSet (braces : Bool) (written left : List Selection) : List Selection :=
  if braces && !written.isEmpty && left.isEmpty then [.spread "" []] else left

mutual
/-- **What is left of a selection**: a field or an inline fragment without alias and directives. -/
def Selection.stripped? (braces : Bool) : Selection → Option Selection
  | .field _ name args _ selections =>
    some (.field none name args []
      (strippedSet braces selections (strippedSelections braces selections)))
  | .spread _ _ => none
  | .inline condition _ selections =>
    some (.inline condition [] (strippedSelections braces selections))
/-- What is left of selections, in order. -/
def strippedSelections (braces : Bool) : List Selection → List Selection
  | [] => []
  | sel :: selections => (sel.stripped? braces).toList ++ strippedSelections braces selections
end

theorem strippedSelections_eq_filterMap (braces : Bool) : ∀ selections : List Selection,
    strippedSelections braces selections = selections.filterMap (Selection.stripped? braces)
  | [] => by rw [strippedSelections, List.filterMap_nil]
  | sel :: selections => by
    rw [strippedSelections, strippedSelections_eq_filterMap braces selections]
    cases left : sel.stripped? braces with
    | none => rw [List.filterMap_cons_none left, Option.toList_none, List.nil_append]
    | some kept => rw [List.filterMap_cons_some left, Option.toList_some, List.singleton_append]

theorem mem_strippedSelections {braces : Bool} {selections : List Selection} {sel : Selection} :
    sel ∈ strippedSelections braces selections ↔
      ∃ written ∈ selections, written.stripped? braces = some sel := by
  rw [strippedSelections_eq_filterMap, List.mem_filterMap]

namespace Selection

/-- Whether a selection spreads a fragment. -/
def IsSpread (sel : Selection) : Prop := ∃ fragment directives, sel = .spread fragment directives

theorem stripped?_eq_none {braces : Bool} {sel : Selection} :
    sel.stripped? braces = none ↔ sel.IsSpread := by
  cases sel <;> simp [stripped?, IsSpread]

theorem stripped?_eq_field {written : Selection} {aliasName : Option String} {name : String}
    {args : Arguments} {directives : List Directive} {selections : List Selection}
    (left : written.stripped? false = some (.field aliasName name args directives selections)) :
    ∃ aliasName' directives' selections',
      written = .field aliasName' name args directives' selections' ∧
      selections = strippedSelections false selections' := by
  cases written with
  | field aliasName' name' args' directives' selections' =>
    cases left
    exact ⟨aliasName', directives', selections', rfl, rfl⟩
  | spread _ _ => cases left
  | inline _ _ _ => cases left

theorem stripped?_eq_inline {written : Selection} {condition : Option String}
    {directives : List Directive} {selections : List Selection}
    (left : written.stripped? false = some (.inline condition directives selections)) :
    ∃ directives' selections', written = .inline condition directives' selections' ∧
      selections = strippedSelections false selections' := by
  cases written with
  | field _ _ _ _ _ => cases left
  | spread _ _ => cases left
  | inline condition' directives' selections' =>
    cases left
    exact ⟨directives', selections', rfl, rfl⟩

end Selection

theorem strippedSelections_eq_nil {braces : Bool} {selections : List Selection} :
    strippedSelections braces selections = [] ↔ ∀ sel ∈ selections, sel.IsSpread := by
  rw [strippedSelections_eq_filterMap, List.filterMap_eq_nil_iff]
  simp only [Selection.stripped?_eq_none]

/-! ## Definitions -/

/-- What is left of a variable: no default value. -/
def VariableDefinition.stripped (v : VariableDefinition) : VariableDefinition :=
  { v with default := none }

/-- What is left of an operation: no name, no directives. -/
def Operation.stripped (braces : Bool) : Operation → Operation
  | .shorthand selections => .shorthand (strippedSelections braces selections)
  | .full kind _ variableList _ selections =>
    .full kind none (variableList.map VariableDefinition.stripped) []
      (strippedSelections braces selections)

/-- What is left of a fragment: its type condition, and what is left of its selections. -/
def Fragment.stripped (braces : Bool) (frag : Fragment) : Fragment :=
  ⟨"", frag.condition, [], strippedSelections braces frag.selections⟩

/-- What is left of a definition. -/
def Definition.stripped (braces : Bool) : Definition → Definition
  | .operation op => .operation (op.stripped braces)
  | .fragment frag => .fragment (frag.stripped braces)

/-- **What is left of a document** without directives, aliases, spreads, default values and names,
at any depth. -/
def Document.stripped (braces : Bool) (doc : Document) : Document :=
  doc.map (Definition.stripped braces)

namespace Operation

variable {braces : Bool}

theorem kind_stripped (op : Operation) : (op.stripped braces).kind = op.kind := by
  cases op <;> rfl

theorem selections_stripped (op : Operation) :
    (op.stripped braces).selections = strippedSelections braces op.selections := by
  cases op <;> rfl

theorem variableList_stripped (op : Operation) :
    (op.stripped braces).variableList = op.variableList.map VariableDefinition.stripped := by
  cases op <;> rfl

end Operation

namespace Document

variable {braces : Bool} {doc : Document}

theorem operation_mem_stripped {op : Operation} :
    .operation op ∈ doc.stripped braces ↔ ∃ written, .operation written ∈ doc ∧
      op = written.stripped braces := by
  unfold stripped
  rw [List.mem_map]
  constructor
  · rintro ⟨written | frag, mem, same⟩ <;> cases same
    exact ⟨written, mem, rfl⟩
  · rintro ⟨written, mem, rfl⟩
    exact ⟨_, mem, rfl⟩

theorem fragment_mem_stripped {frag : Fragment} :
    .fragment frag ∈ doc.stripped braces ↔ ∃ written, .fragment written ∈ doc ∧
      frag = written.stripped braces := by
  unfold stripped
  rw [List.mem_map]
  constructor
  · rintro ⟨op | written, mem, same⟩ <;> cases same
    exact ⟨written, mem, rfl⟩
  · rintro ⟨written, mem, rfl⟩
    exact ⟨_, mem, rfl⟩

end Document

end SchemaUsage.Graphql

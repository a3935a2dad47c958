import SchemaUsage.Graphql.Alike
import SchemaUsage.Proofs.Graphql.NormalMembers

/-!
# What a normal form hides

About `normalize_operation` with `hide_literals`. With its literals hidden, a normal form tells
nothing of them: documents that differ in numbers and strings only have one normal form, and no
number or string is left in it but the zero of its kind.

* Sorting looks at names only, and names are the same in alike documents. So it is enough that the
  lists to be sorted are equal.

Results:
- `Document.Alike.normalize_eq`: alike documents have the same normal form.
- `Document.zeroed_normalize`: every number and string in a normal form is zero or empty.
-/

namespace SchemaUsage.Graphql

variable {o : NormalOptions}

/-! ## One normal form -/

/-- Lists that are related one by one have the same image under a function that cannot tell related
members apart. -/
theorem map_eq_of_forall₂ {α β : Type} {R : α → α → Prop} {f : α → β}
    (same : ∀ ⦃a b : α⦄, R a b → f a = f b) {xs ys : List α} (h : List.Forall₂ R xs ys) :
    xs.map f = ys.map f := by
  have mapped : List.Forall₂ Eq (xs.map f) (ys.map f) := List.rel_map same h
  rwa [List.forall₂_eq_eq_eq] at mapped

mutual
/-- **Alike values have the same normal form.** -/
theorem Value.Alike.normalize_eq (hides : o.hideLiterals = true) :
    ∀ {v w : Value}, v.Alike w → v.normalize o = w.normalize o
  | _, _, .int i j => by rw [Value.normalize, Value.normalize, if_pos hides, if_pos hides]
  | _, _, .float x y => by rw [Value.normalize, Value.normalize, if_pos hides, if_pos hides]
  | _, _, .string s t => by rw [Value.normalize, Value.normalize, if_pos hides, if_pos hides]
  | _, _, .var name => rfl
  | _, _, .boolean b => rfl
  | _, _, .null => rfl
  | _, _, .enum name => rfl
  | _, _, .list each => by
    rw [Value.normalize, Value.normalize, ItemsAlike.normalize_eq hides each]
  | _, _, .object each => by
    rw [Value.normalize, Value.normalize, ArgumentsAlike.normalizeFields_eq hides each]
theorem ItemsAlike.normalize_eq (hides : o.hideLiterals = true) :
    ∀ {items others : List Value}, ItemsAlike items others →
      normalizeItems o items = normalizeItems o others
  | _, _, .nil => rfl
  | _, _, .cons first rest => by
    rw [normalizeItems, normalizeItems, first.normalize_eq hides, rest.normalize_eq hides]
theorem ArgumentsAlike.normalizeFields_eq (hides : o.hideLiterals = true) :
    ∀ {args others : Arguments}, ArgumentsAlike args others →
      normalizeFields o args = normalizeFields o others
  | _, _, .nil => rfl
  | _, _, .cons name first rest => by
    rw [normalizeFields, normalizeFields, first.normalize_eq hides,
      rest.normalizeFields_eq hides]
end

theorem ArgumentsAlike.normalize_eq (hides : o.hideLiterals = true) {args others : Arguments}
    (h : ArgumentsAlike args others) :
    normalizeArguments o args = normalizeArguments o others := by
  rw [normalizeArguments, normalizeArguments, h.normalizeFields_eq hides]

theorem normalizeDirectives_alike (hides : o.hideLiterals = true)
    {directives others : List Directive} (h : DirectivesAlike directives others) :
    normalizeDirectives o directives = normalizeDirectives o others := by
  unfold normalizeDirectives
  rw [map_eq_of_forall₂ (fun d e alike => ?_) h]
  rw [alike.name, alike.arguments.normalize_eq hides]

theorem normalizeVariables_alike (hides : o.hideLiterals = true)
    {variableList others : List VariableDefinition}
    (h : List.Forall₂ VariableDefinition.Alike variableList others) :
    normalizeVariables o variableList = normalizeVariables o others := by
  unfold normalizeVariables
  rw [map_eq_of_forall₂ (fun v w alike => ?_) h]
  have default : v.default.map (Value.normalize o) = w.default.map (Value.normalize o) :=
    match v.default, w.default, alike.default with
    | _, _, .none => rfl
    | _, _, .some value => congrArg some (value.normalize_eq hides)
  rw [alike.name, alike.type, default]

mutual
theorem Selection.Alike.normalize_eq (hides : o.hideLiterals = true) :
    ∀ {sel other : Selection}, sel.Alike other → sel.normalize o = other.normalize o
  | _, _, .field aliasName name given marked nested => by
    rw [Selection.normalize, Selection.normalize, given.normalize_eq hides,
      normalizeDirectives_alike hides marked, nested.normalizeEach_eq hides]
  | _, _, .spread fragment marked => by
    rw [Selection.normalize, Selection.normalize, normalizeDirectives_alike hides marked]
  | _, _, .inline condition marked nested => by
    rw [Selection.normalize, Selection.normalize, normalizeDirectives_alike hides marked,
      nested.normalizeEach_eq hides]
theorem SelectionsAlike.normalizeEach_eq (hides : o.hideLiterals = true) :
    ∀ {selections others : List Selection}, SelectionsAlike selections others →
      normalizeEach o selections = normalizeEach o others
  | _, _, .nil => rfl
  | _, _, .cons first rest => by
    rw [normalizeEach, normalizeEach, first.normalize_eq hides, rest.normalizeEach_eq hides]
end

theorem SelectionsAlike.normalize_eq (hides : o.hideLiterals = true)
    {selections others : List Selection} (h : SelectionsAlike selections others) :
    normalizeSelections o selections = normalizeSelections o others := by
  rw [normalizeSelections, normalizeSelections, h.normalizeEach_eq hides]

theorem Definition.Alike.normalize_eq (hides : o.hideLiterals = true)
    {definition other : Definition} (h : definition.Alike other) :
    definition.normalize o = other.normalize o := by
  cases h with
  | operation alike =>
    cases alike with
    | shorthand selected =>
      rw [Definition.normalize, Definition.normalize, Operation.normalize, Operation.normalize,
        selected.normalize_eq hides]
    | full kind name declared marked selected =>
      rw [Definition.normalize, Definition.normalize, Operation.normalize, Operation.normalize,
        normalizeVariables_alike hides declared, normalizeDirectives_alike hides marked,
        selected.normalize_eq hides]
  | fragment alike =>
    rw [Definition.normalize, Definition.normalize, Fragment.normalize, Fragment.normalize,
      alike.name, alike.condition, normalizeDirectives_alike hides alike.marked,
      alike.selected.normalize_eq hides]

/-- **Alike documents have the same normal form.** -/
theorem Document.Alike.normalize_eq (hides : o.hideLiterals = true) {doc other : Document}
    (h : doc.Alike other) : doc.normalize o = Document.normalize o other := by
  unfold Document.normalize
  rw [map_eq_of_forall₂ (fun _ _ alike => alike.normalize_eq hides) h]

/-! ## Nothing but zeros -/

/-- A number or a string is the zero of its kind; of other values nothing is asked. -/
def Value.Zeroed : Value → Prop
  | .int i => i = 0
  | .float x => x = .finite false 0 0
  | .string s => s = ""
  | _ => True

theorem mem_argumentParts {args : Arguments} {part : Value} :
    part ∈ argumentParts args ↔ ∃ arg ∈ args, part ∈ arg.2.parts := by
  induction args with
  | nil => simp [argumentParts]
  | cons arg args ih => simp [argumentParts, ih]

theorem mem_selectionParts {selections : List Selection} {part : Value} :
    part ∈ selectionParts selections ↔ ∃ sel ∈ selections, part ∈ sel.parts := by
  induction selections with
  | nil => simp [selectionParts]
  | cons sel selections ih => simp [selectionParts, ih]

mutual
/-- **The parts of a normal form are zeros**, as far as they are numbers or strings. -/
theorem Value.zeroed_normalize (hides : o.hideLiterals = true) :
    ∀ v : Value, ∀ part ∈ (v.normalize o).parts, part.Zeroed
  | .int i => by
    rw [Value.normalize, if_pos hides]
    exact List.forall_mem_singleton.mpr rfl
  | .float x => by
    rw [Value.normalize, if_pos hides]
    exact List.forall_mem_singleton.mpr rfl
  | .string s => by
    rw [Value.normalize, if_pos hides]
    exact List.forall_mem_singleton.mpr rfl
  | .var name => List.forall_mem_singleton.mpr trivial
  | .boolean b => List.forall_mem_singleton.mpr trivial
  | .null => List.forall_mem_singleton.mpr trivial
  | .enum name => List.forall_mem_singleton.mpr trivial
  | .list items => by
    rw [Value.normalize, Value.parts, List.forall_mem_cons]
    exact ⟨trivial, zeroed_normalizeItems hides items⟩
  | .object fields => by
    rw [Value.normalize, Value.parts, List.forall_mem_cons]
    refine ⟨trivial, fun part inside => ?_⟩
    -- sorting does not change what is inside
    obtain ⟨arg, given, inside⟩ := mem_argumentParts.mp inside
    rw [mem_sortByName] at given
    exact zeroed_normalizeFields hides fields part (mem_argumentParts.mpr ⟨arg, given, inside⟩)
theorem zeroed_normalizeItems (hides : o.hideLiterals = true) :
    ∀ items : List Value, ∀ part ∈ itemParts (normalizeItems o items), part.Zeroed
  | [] => nofun
  | v :: items => by
    rw [normalizeItems, itemParts, List.forall_mem_append]
    exact ⟨v.zeroed_normalize hides, zeroed_normalizeItems hides items⟩
theorem zeroed_normalizeFields (hides : o.hideLiterals = true) :
    ∀ args : Arguments, ∀ part ∈ argumentParts (normalizeFields o args), part.Zeroed
  | [] => nofun
  | (_, v) :: args => by
    rw [normalizeFields, argumentParts, List.forall_mem_append]
    exact ⟨v.zeroed_normalize hides, zeroed_normalizeFields hides args⟩
end

theorem zeroed_normalizeArguments (hides : o.hideLiterals = true) (args : Arguments) :
    ∀ part ∈ argumentParts (normalizeArguments o args), part.Zeroed := by
  intro part inside
  obtain ⟨arg, given, inside⟩ := mem_argumentParts.mp inside
  obtain ⟨written, -, rfl⟩ := mem_normalizeArguments.mp given
  exact written.2.zeroed_normalize hides part inside

theorem zeroed_normalizeDirectives (hides : o.hideLiterals = true) (directives : List Directive) :
    ∀ part ∈ directiveParts (normalizeDirectives o directives), part.Zeroed := by
  intro part inside
  obtain ⟨d, mem, inside⟩ := List.mem_flatMap.mp inside
  rw [normalizeDirectives, mem_sortByName, List.mem_map] at mem
  obtain ⟨written, -, rfl⟩ := mem
  exact zeroed_normalizeArguments hides written.arguments part inside

theorem zeroed_normalizeVariables (hides : o.hideLiterals = true)
    (variableList : List VariableDefinition) :
    ∀ part ∈ variableParts (normalizeVariables o variableList), part.Zeroed := by
  intro part inside
  obtain ⟨v, mem, inside⟩ := List.mem_flatMap.mp inside
  obtain ⟨written, -, rfl⟩ := mem_normalizeVariables.mp mem
  cases found : written.default with
  | none => simp [found] at inside
  | some value =>
    rw [found] at inside
    exact value.zeroed_normalize hides part inside

mutual
theorem Selection.zeroed_normalize (hides : o.hideLiterals = true) :
    ∀ sel : Selection, ∀ part ∈ (sel.normalize o).parts, part.Zeroed
  | .field aliasName name args directives selections => by
    rw [Selection.normalize_field, Selection.parts, List.forall_mem_append, List.forall_mem_append]
    exact ⟨⟨zeroed_normalizeArguments hides args, zeroed_normalizeDirectives hides directives⟩,
      zeroed_normalizeSelections hides selections⟩
  | .spread fragment directives => by
    rw [Selection.normalize, Selection.parts]
    exact zeroed_normalizeDirectives hides directives
  | .inline condition directives selections => by
    rw [Selection.normalize_inline, Selection.parts, List.forall_mem_append]
    exact ⟨zeroed_normalizeDirectives hides directives, zeroed_normalizeSelections hides selections⟩
theorem zeroed_normalizeSelections (hides : o.hideLiterals = true) (selections : List Selection) :
    ∀ part ∈ selectionParts (normalizeSelections o selections), part.Zeroed := by
  intro part inside
  obtain ⟨sel, mem, inside⟩ := mem_selectionParts.mp inside
  obtain ⟨written, mem', rfl⟩ := mem_normalizeSelections.mp mem
  exact written.zeroed_normalize hides part inside
end

theorem Definition.zeroed_normalize (hides : o.hideLiterals = true) (definition : Definition) :
    ∀ part ∈ (definition.normalize o).parts, part.Zeroed := by
  cases definition with
  | operation op =>
    cases op with
    | shorthand selections => exact zeroed_normalizeSelections hides selections
    | full kind name variableList directives selections =>
      rw [normalize, Operation.normalize, parts, Operation.parts, List.forall_mem_append,
        List.forall_mem_append]
      exact ⟨⟨zeroed_normalizeVariables hides variableList,
        zeroed_normalizeDirectives hides directives⟩, zeroed_normalizeSelections hides selections⟩
  | fragment frag =>
    rw [normalize, Fragment.normalize, parts, List.forall_mem_append]
    exact ⟨zeroed_normalizeDirectives hides frag.directives,
      zeroed_normalizeSelections hides frag.selections⟩

/-- **The numbers and strings in the normal form of a document are zeros.** -/
theorem Document.zeroed_normalize (hides : o.hideLiterals = true) (doc : Document) :
    ∀ part ∈ (doc.normalize o).parts, part.Zeroed := by
  intro part inside
  obtain ⟨definition, mem, inside⟩ := List.mem_flatMap.mp inside
  obtain ⟨written, -, rfl⟩ := mem_normalize.mp mem
  exact written.zeroed_normalize hides part inside

end SchemaUsage.Graphql

import SchemaUsage.Graphql.Stripped
import SchemaUsage.Proofs.Usage.Identifiers
import SchemaUsage.Proofs.Usage.LiteralMarks
import SchemaUsage.Proofs.Usage.NormalForm
import SchemaUsage.Proofs.Usage.Secrecy

/-!
# The usage of a stripped document

About `walk_selection_set` and `walk_field_contents`. Directives, aliases, spreads, default values
and names do not count: two documents of which the same is left without them have the same usage.
There is one exception. The walk enters the type of a field as soon as the field has a selection
set, also if there are only spreads in it, so this type has to be defined. Without the spreads the
field has no selections, and its type is not looked up.

* `SpreadSetsTyped` says that the types which are only entered for spreads are defined.

Results:
- `walkDocument_stripped`: where empty selection sets are kept, what is left is visited by the same
  walk.
- `stands_stripped`, `uses_stripped`: what is left stands where it stood, and is used.
- `resolves_stripped`: what else a document needs to resolve.
- `usage_stripped`: documents of which the same is left.
-/

namespace SchemaUsage.Usage

open SchemaUsage.Graphql

variable {s : Schema} {strategy : Strategy}

/-! ## The walk, where empty selection sets are kept -/

theorem walkNested_eq {selections : List Selection} (filled : selections ≠ []) (name : String) :
    walkNested s strategy name selections = (do
      let field ← currentField name
      let type ← lookUp s field.type.innerName
      within parents type (walkSelections s strategy selections)) := by
  cases selections with
  | nil => exact absurd rfl filled
  | cons first others => rw [walkNested, walkSelections]

/-- A selection set of which only its braces are left is still entered. -/
theorem walkNested_strippedSet {written : List Selection}
    (same : walkSelections s strategy (strippedSelections true written) =
      walkSelections s strategy written) (name : String) :
    walkNested s strategy name (strippedSet true written (strippedSelections true written)) =
      walkNested s strategy name written := by
  by_cases filled : written = []
  · rw [filled]
    rfl
  · by_cases left : strippedSelections true written = []
    · have braces : strippedSet true written [] = [.spread "" []] := by
        simp [strippedSet, filled]
      rw [left] at same ⊢
      rw [braces, walkNested_eq filled, ← same, walkNested_eq (List.cons_ne_nil _ _)]
      rfl
    · have kept : strippedSet true written (strippedSelections true written) =
          strippedSelections true written := by
        simp [strippedSet, left]
      rw [kept, walkNested_eq left, same, walkNested_eq filled]

mutual
/-- What is left of a selection is visited by the same walk, and spreads are not visited. -/
theorem walkSelection_stripped : ∀ sel : Selection,
    (sel.stripped? true).elim (pure ()) (walkSelection s strategy) = walkSelection s strategy sel
  | .field aliasName name args directives selections => by
    rw [Selection.stripped?, Option.elim_some, walkSelection, walkSelection,
      walkNested_strippedSet (walkSelections_stripped selections)]
  | .spread fragment directives => rfl
  | .inline condition directives selections => by
    cases condition <;> rw [Selection.stripped?, Option.elim_some, walkSelection, walkSelection,
      walkSelections_stripped selections]
/-- **What is left of selections is visited by the same walk.** -/
theorem walkSelections_stripped : ∀ selections : List Selection,
    walkSelections s strategy (strippedSelections true selections) =
      walkSelections s strategy selections
  | [] => rfl
  | sel :: selections => by
    rw [strippedSelections, walkSelections, ← walkSelection_stripped sel,
      ← walkSelections_stripped selections]
    cases sel.stripped? true with
    | none => rfl
    | some left => rw [Option.toList_some, List.singleton_append, walkSelections, Option.elim_some]
end

/-- Steps that cannot tell what is left of a member take the same way through what is left. -/
theorem forM_map_eq {α : Type} {step : α → Walk Unit} {left : α → α}
    (same : ∀ x, step (left x) = step x) (xs : List α) : (xs.map left).forM step = xs.forM step :=
  forM_eq_of_forall₂ (R := fun x y => x = left y) (fun _ y kept => kept ▸ same y)
    (List.forall₂_map_left_iff.mpr (List.forall₂_same.mpr fun _ _ => rfl))

theorem walkOperation_stripped (op : Operation) :
    walkOperation s strategy (op.stripped true) = walkOperation s strategy op := by
  unfold walkOperation
  rw [op.kind_stripped, op.selections_stripped, op.variableList_stripped, walkSelections_stripped,
    forM_map_eq fun v => ?_]
  have marks : variableMarks s strategy v.stripped = variableMarks s strategy v := by
    cases strategy <;> rfl
  rw [marks]

theorem walkFragment_stripped (frag : Fragment) :
    walkFragment s strategy (frag.stripped true) = walkFragment s strategy frag := by
  unfold walkFragment Fragment.stripped
  rw [walkSelections_stripped]

/-- **What is left of a document is visited by the same walk.** -/
theorem walkDocument_stripped (doc : Document) :
    walkDocument s strategy (doc.stripped true) = walkDocument s strategy doc := by
  unfold walkDocument Document.stripped
  refine forM_map_eq (fun definition => ?_) doc
  cases definition with
  | operation op => exact walkOperation_stripped op
  | fragment frag => exact walkFragment_stripped frag

/-! ## Positions, where empty selection sets are gone -/

/-- **Selections are left where they stood.** -/
theorem stands_stripped {doc : Document} {t : TypeDefinition} {sel : Selection} :
    Stands s (doc.stripped false) t sel ↔
      ∃ written, Stands s doc t written ∧ written.stripped? false = some sel := by
  constructor
  · intro stands
    induction stands with
    | operation definition named type selected =>
      obtain ⟨op, definition', rfl⟩ := Document.operation_mem_stripped.mp definition
      rw [Operation.kind_stripped] at named
      rw [Operation.selections_stripped] at selected
      obtain ⟨written, selected', left⟩ := mem_strippedSelections.mp selected
      exact ⟨written, .operation definition' named type selected', left⟩
    | fragment definition type selected =>
      obtain ⟨frag, definition', rfl⟩ := Document.fragment_mem_stripped.mp definition
      obtain ⟨written, selected', left⟩ := mem_strippedSelections.mp selected
      exact ⟨written, .fragment definition' type selected', left⟩
    | nested _ ordinary declared type selected ih =>
      obtain ⟨outer, stands, left⟩ := ih
      obtain ⟨_, _, _, rfl, rfl⟩ := Selection.stripped?_eq_field left
      obtain ⟨written, selected', left'⟩ := mem_strippedSelections.mp selected
      exact ⟨written, .nested stands ordinary declared type selected', left'⟩
    | conditional _ type selected ih =>
      obtain ⟨outer, stands, left⟩ := ih
      obtain ⟨_, _, rfl, rfl⟩ := Selection.stripped?_eq_inline left
      obtain ⟨written, selected', left'⟩ := mem_strippedSelections.mp selected
      exact ⟨written, .conditional stands type selected', left'⟩
    | unconditional _ selected ih =>
      obtain ⟨outer, stands, left⟩ := ih
      obtain ⟨_, _, rfl, rfl⟩ := Selection.stripped?_eq_inline left
      obtain ⟨written, selected', left'⟩ := mem_strippedSelections.mp selected
      exact ⟨written, .unconditional stands selected', left'⟩
  · rintro ⟨written, stands, left⟩
    induction stands generalizing sel with
    | operation definition named type selected =>
      refine .operation (Document.operation_mem_stripped.mpr ⟨_, definition, rfl⟩)
        (by rwa [Operation.kind_stripped]) type ?_
      rw [Operation.selections_stripped]
      exact mem_strippedSelections.mpr ⟨_, selected, left⟩
    | fragment definition type selected =>
      exact .fragment (Document.fragment_mem_stripped.mpr ⟨_, definition, rfl⟩) type
        (mem_strippedSelections.mpr ⟨_, selected, left⟩)
    | nested _ ordinary declared type selected ih =>
      exact .nested (ih rfl) ordinary declared type (mem_strippedSelections.mpr ⟨_, selected, left⟩)
    | conditional _ type selected ih =>
      exact .conditional (ih rfl) type (mem_strippedSelections.mpr ⟨_, selected, left⟩)
    | unconditional _ selected ih =>
      exact .unconditional (ih rfl) (mem_strippedSelections.mpr ⟨_, selected, left⟩)

/-- If the selections of a field are nothing but spreads, its type is defined all the same. -/
def SpreadSetTyped (s : Schema) (t : TypeDefinition) : Selection → Prop
  | .field _ name _ _ selections => name ∉ metaFields → selections ≠ [] →
      (∀ sel ∈ selections, sel.IsSpread) → ∀ field, t.field? name = some field →
      ∃ u, s.lastType? field.type.innerName = some u
  | _ => True

/-- **All types that a document enters for spreads alone are defined.** -/
def SpreadSetsTyped (s : Schema) (doc : Document) : Prop :=
  ∀ t sel, Stands s doc t sel → SpreadSetTyped s t sel

section Selections

variable {t : TypeDefinition} {written sel : Selection}

theorem selectionFits_spread (spread : written.IsSpread) : SelectionFits s t written := by
  obtain ⟨fragment, directives, rfl⟩ := spread
  trivial

theorem selectionFits_stripped (left : written.stripped? false = some sel) :
    SelectionFits s t written ↔ SelectionFits s t sel ∧ SpreadSetTyped s t written := by
  cases written with
  | field aliasName name args directives selections =>
    cases left
    constructor
    · intro fits
      refine ⟨fun ordinary => ?_, fun ordinary filled _ field declared => ?_⟩
      · obtain ⟨field, declared, given, entered⟩ := fits ordinary
        refine ⟨field, declared, given, fun filled => entered fun none => filled ?_⟩
        rw [none]
        rfl
      · obtain ⟨field', declared', -, entered⟩ := fits ordinary
        cases declared.symm.trans declared'
        exact entered filled
    · rintro ⟨fits, typed⟩ ordinary
      obtain ⟨field, declared, given, entered⟩ := fits ordinary
      refine ⟨field, declared, given, fun filled => ?_⟩
      by_cases kept : strippedSelections false selections = []
      · exact typed ordinary filled (strippedSelections_eq_nil.mp kept) field declared
      · exact entered kept
  | spread _ _ => cases left
  | inline condition directives selections =>
    cases left
    cases condition <;> simp [SelectionFits, SpreadSetTyped]

theorem gives_stripped (left : written.stripped? false = some sel) {id : String} :
    Gives t sel id ↔ Gives t written id := by
  cases written with
  | field aliasName name args directives selections =>
    cases left
    by_cases special : name ∈ metaFields
    · rw [gives_meta special, gives_meta special]
    · rw [gives_ordinary special, gives_ordinary special]
  | spread _ _ => cases left
  | inline condition directives selections =>
    cases left
    constructor <;> intro gives <;> cases gives

theorem selectionGives_stripped (left : written.stripped? false = some sel) {m : Mark} :
    SelectionGives s strategy t sel m ↔ SelectionGives s strategy t written m := by
  constructor
  · intro gives
    cases gives with
    | names gives => exact .names ((gives_stripped left).mp gives)
    | value ordinary declared given gives =>
      obtain ⟨_, _, _, rfl, -⟩ := Selection.stripped?_eq_field left
      exact .value ordinary declared given gives
  · intro gives
    cases gives with
    | names gives => exact .names ((gives_stripped left).mpr gives)
    | value ordinary declared given gives =>
      cases left
      exact .value ordinary declared given gives

/-- A spread gives nothing. -/
theorem exists_stripped_of_gives {m : Mark} (gives : SelectionGives s strategy t written m) :
    ∃ sel, written.stripped? false = some sel := by
  cases left : written.stripped? false with
  | some sel => exact ⟨sel, rfl⟩
  | none =>
    obtain ⟨fragment, directives, rfl⟩ := Selection.stripped?_eq_none.mp left
    cases gives with
    | names gives => cases gives

end Selections

/-! ## Documents -/

/-- **A document resolves** if what is left of it does, and the types entered for spreads alone are
defined. -/
theorem resolves_stripped {doc : Document} :
    Resolves s strategy doc ↔
      Resolves s strategy (doc.stripped false) ∧ SpreadSetsTyped s doc := by
  constructor
  · rintro ⟨roots, conditions, selections, vars⟩
    refine ⟨⟨fun op mem => ?_, fun frag mem => ?_, fun t sel stands => ?_,
      fun op mem v declared => ?_⟩, fun t sel stands => ?_⟩
    · obtain ⟨written, mem', rfl⟩ := Document.operation_mem_stripped.mp mem
      rw [Operation.kind_stripped]
      exact roots written mem'
    · obtain ⟨written, mem', rfl⟩ := Document.fragment_mem_stripped.mp mem
      exact conditions written mem'
    · obtain ⟨written, stands', left⟩ := stands_stripped.mp stands
      exact ((selectionFits_stripped left).mp (selections t written stands')).1
    · obtain ⟨written, mem', rfl⟩ := Document.operation_mem_stripped.mp mem
      rw [Operation.variableList_stripped] at declared
      obtain ⟨v', declared', rfl⟩ := List.mem_map.mp declared
      exact variableFits_default.mpr (vars written mem' v' declared')
    · cases left : sel.stripped? false with
      | none =>
        obtain ⟨fragment, directives, rfl⟩ := Selection.stripped?_eq_none.mp left
        trivial
      | some kept => exact ((selectionFits_stripped left).mp (selections t sel stands)).2
  · rintro ⟨⟨roots, conditions, selections, vars⟩, typed⟩
    refine ⟨fun op mem => ?_, fun frag mem => ?_, fun t sel stands => ?_,
      fun op mem v declared => ?_⟩
    · have root := roots _ (Document.operation_mem_stripped.mpr ⟨op, mem, rfl⟩)
      rwa [Operation.kind_stripped] at root
    · exact conditions (frag.stripped false)
        (Document.fragment_mem_stripped.mpr ⟨frag, mem, rfl⟩)
    · cases left : sel.stripped? false with
      | none => exact selectionFits_spread (Selection.stripped?_eq_none.mp left)
      | some kept =>
        refine (selectionFits_stripped left).mpr ⟨?_, typed t sel stands⟩
        exact selections t kept (stands_stripped.mpr ⟨sel, stands, left⟩)
    · refine variableFits_default.mp (vars _
        (Document.operation_mem_stripped.mpr ⟨op, mem, rfl⟩) v.stripped ?_)
      rw [Operation.variableList_stripped]
      exact List.mem_map_of_mem declared

/-- **A document uses what is left of it uses.** -/
theorem uses_stripped {doc : Document} {m : Mark} :
    Uses s strategy (doc.stripped false) m ↔ Uses s strategy doc m := by
  constructor
  · intro used
    cases used with
    | selection stands gives =>
      obtain ⟨written, stands', left⟩ := stands_stripped.mp stands
      exact .selection stands' ((selectionGives_stripped left).mp gives)
    | var definition declared gives =>
      obtain ⟨op, definition', rfl⟩ := Document.operation_mem_stripped.mp definition
      rw [Operation.variableList_stripped] at declared
      obtain ⟨v, declared', rfl⟩ := List.mem_map.mp declared
      exact .var definition' declared' (variableGives_default.mp gives)
  · intro used
    cases used with
    | selection stands gives =>
      obtain ⟨sel, left⟩ := exists_stripped_of_gives gives
      exact .selection (stands_stripped.mpr ⟨_, stands, left⟩)
        ((selectionGives_stripped left).mpr gives)
    | @var op v definition declared gives =>
      refine .var (Document.operation_mem_stripped.mpr ⟨_, definition, rfl⟩) (v := v.stripped) ?_
        (variableGives_default.mpr gives)
      rw [Operation.variableList_stripped]
      exact List.mem_map_of_mem declared

/-! ## Documents of which the same is left -/

theorem spreadSetsTyped_of_fieldTypes (defined : FieldTypesDefined s) (doc : Document) :
    SpreadSetsTyped s doc := by
  intro t sel stands
  cases sel with
  | field aliasName name args directives selections =>
    intro _ _ _ field declared
    obtain ⟨u, named⟩ := defined.exists_firstType? stands.mem_types (declares_of_field? declared)
    exact exists_lastType? (Option.isSome_iff_exists.mpr ⟨u, named⟩)
  | spread _ _ => trivial
  | inline _ _ _ => trivial

theorem usage_of_stripped {doc other : Document}
    (same : doc.stripped false = other.stripped false) (typed : SpreadSetsTyped s other)
    {ids : List String} (found : usage s strategy doc = .ok ids) :
    usage s strategy other = .ok ids := by
  refine usage_of_uses (fun resolves => ?_) (funext fun m => propext ?_) found
  · exact resolves_stripped.mpr ⟨same ▸ (resolves_stripped.mp resolves).1, typed⟩
  · rw [← uses_stripped, same, uses_stripped]

/-- **What does not count.** Let the same be left of two documents without their directives,
aliases, spreads, default values and names.

If selection sets of spreads alone are told from none, both documents have the same usage, or fail
with the same error. If they are not told from none, the same holds of the usage in a schema that
defines the types of all its fields. In any schema, where one document has a usage, the other one
has the same, unless it enters a type for spreads alone that is not defined: then it fails. -/
theorem usage_stripped (s : Schema) (strategy : Strategy) (doc other : Document) :
    (doc.stripped true = other.stripped true →
      usage s strategy doc = usage s strategy other) ∧
    (doc.stripped false = other.stripped false →
      (FieldTypesDefined s →
        ∀ ids, usage s strategy doc = .ok ids ↔ usage s strategy other = .ok ids) ∧
      ∀ ids, usage s strategy doc = .ok ids →
        (SpreadSetsTyped s other → usage s strategy other = .ok ids) ∧
        (¬ SpreadSetsTyped s other → ∃ e, usage s strategy other = .error e)) := by
  refine ⟨fun same => ?_, fun same => ⟨fun defined ids => ?_, fun ids found => ?_⟩⟩
  · unfold usage documentMarks
    rw [← walkDocument_stripped doc, same, walkDocument_stripped]
  · exact ⟨usage_of_stripped same (spreadSetsTyped_of_fieldTypes defined other),
      usage_of_stripped same.symm (spreadSetsTyped_of_fieldTypes defined doc)⟩
  · refine ⟨fun typed => usage_of_stripped same typed found, fun untyped => ?_⟩
    cases found' : usage s strategy other with
    | error e => exact ⟨e, rfl⟩
    | ok ids' =>
      have resolves := ((usage_exact other).ok_iff.mp ⟨ids', found'⟩).1
      exact absurd (resolves_stripped.mp resolves).2 untyped

/-- What is left of a listing, with another name and another default value. -/
def plainListing : Document :=
  [.operation (.full .query (some "Plain") [⟨"size", .named "Int", some (.int 7)⟩] []
      [.field (some "all") "items"
        [("filter", .object [("ids", .list [.int 3, .null]), ("x", .float (.finite false 3 (-1)))]),
          ("first", .var "size")] []
        [.inline none [] [.field none "name" [] [] []]]]),
    .fragment ⟨"Names", "Item", [], [.field none "name" [] [] []]⟩]

/-- All items, of which the names are selected by a fragment, or nothing is. -/
def spreadListing (selections : List Selection) : Document :=
  [.operation (.shorthand [.field none "items" [] [] selections]),
    .fragment ⟨"Names", "Item", [], [.field none "name" [] [] []]⟩]

theorem usage_stripped_listing :
    usage listingCollector.schema .wholeTypes plainListing = .ok listingFields ∧
    usage listingCollector.schema .wholeTypes (spreadListing [.spread "Names" []]) =
      .ok ["Item.name", "Query.items"] := by
  have same : (listing 3 (.finite false 3 (-1)) "Ada").stripped true =
      plainListing.stripped true := rfl
  have same' : (spreadListing []).stripped false =
      (spreadListing [.spread "Names" []]).stripped false := rfl
  have found : usage listingCollector.schema .wholeTypes (spreadListing []) =
      .ok ["Item.name", "Query.items"] :=
    usage_eq_ok.mpr ⟨[.identifier "Query.items", .identifier "Item.name"], _, rfl, by cbv,
      (ascending_eq (by decide) (by decide) (by decide)).symm⟩
  refine ⟨?_, ?_⟩
  · rw [← (usage_stripped _ _ _ _).1 same]
    exact usage_listing
  · exact (((usage_stripped _ _ _ _).2 same').1 (by decide) _).mp found

/-- A schema with a field whose type is not defined. -/
def ghostSchema : Schema :=
  [.type ⟨none, "Query", [], .object [] [⟨none, "a", [], .named "Missing", []⟩,
      ⟨none, "b", [], .named "Int", []⟩]⟩]

/-- The field `a` of `ghostSchema`, and a fragment with the field `b`. -/
def ghostDocument (selections : List Selection) : Document :=
  [.operation (.shorthand [.field none "a" [] [] selections]),
    .fragment ⟨"F", "Query", [], [.field none "b" [] [] []]⟩]

/-- **A spread can count**, for the type of the selection set in which it stands. -/
theorem spread_enters_type :
    (ghostDocument []).stripped false = (ghostDocument [.spread "F" []]).stripped false ∧
    usage ghostSchema .wholeTypes (ghostDocument []) = .ok ["Query.a", "Query.b"] ∧
    usage ghostSchema .wholeTypes (ghostDocument [.spread "F" []]) =
      .error (.unknownType "Missing") := by
  refine ⟨rfl, ?_, rfl⟩
  exact usage_eq_ok.mpr ⟨[.identifier "Query.a", .identifier "Query.b"], _, rfl, by cbv,
    (ascending_eq (by decide) (by decide) (by decide)).symm⟩

end SchemaUsage.Usage

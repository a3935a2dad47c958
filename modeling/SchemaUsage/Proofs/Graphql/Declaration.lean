import Mathlib.Data.List.Induction
import SchemaUsage.Graphql.Declaration
import SchemaUsage.Proofs.Graphql.Growth

/-!
# Merging extensions is what a document declares

About `prepare_schema` and `merge_extension`. A schema is prepared by a fold: each extension changes
the first type of its name where it stands, or puts a new type at the end, which later extensions
then meet. What comes out is what the document declares type by type, without any merging.

* The induction is on the extensions, from the last one. A document with one more extension declares
  the same types, but for the one that this extension is merged into.
* There are three cases: the name of the extension is defined, or it is extended only and has been
  extended before, or it is new.

Results:
- `complete_extend`: one more extension of its name and kind completes a type.
- `merged_eq_completed`: merging makes the completed types.
- `prepare_eq_declared`: the prepared schema is the declared one.
- `prepare_declarative`: it has no extensions, and where they stand means nothing.
-/

namespace SchemaUsage.Graphql

/-! ## Completed types -/

/-- Further parts of the kind go behind those that are there. -/
theorem TypeBody.append?_ofParts (kind : TypeKind) (bodies : List TypeBody) {b : TypeBody}
    (same : b.kind = kind) :
    (ofParts kind bodies).append? b = some (ofParts kind (bodies ++ [b])) := by
  subst same
  cases b <;> simp [ofParts, TypeBody.kind, append?, interfaces, outputFields, members, values,
    inputFields, List.flatMap_append]

@[simp] theorem TypeBody.kind_ofParts (kind : TypeKind) (bodies : List TypeBody) :
    (ofParts kind bodies).kind = kind := by
  cases kind <;> rfl

/-- Extensions of another kind are ignored. -/
theorem TypeDefinition.extend_eq_self {t : TypeDefinition} {e : TypeExtension}
    (other : e.body.kind ≠ t.kind) : t.extend e = t := by
  have none_appended : t.body.append? e.body = none := by
    rw [← Option.not_isSome_iff_eq_none, TypeBody.append?_isSome_iff]
    exact fun same => other same.symm
  unfold extend
  rw [none_appended]

namespace Schema

variable {s s' : Schema} {e : TypeExtension}

@[simp] theorem name_complete (s : Schema) (t : TypeDefinition) : (s.complete t).name = t.name :=
  rfl

@[simp] theorem kind_complete (s : Schema) (t : TypeDefinition) : (s.complete t).kind = t.kind :=
  TypeBody.kind_ofParts _ _

theorem complete_of_none {t : TypeDefinition} (none_added : s.extensionsOf t.name t.kind = []) :
    s.complete t = t := by
  unfold complete
  rw [none_added]
  simp [TypeDefinition.kind, TypeBody.ofParts_singleton]

section Further

variable (further : s'.extensions = s.extensions ++ [e])

include further

/-- **One more extension** of its name completes a type, unless it is of another kind. -/
theorem complete_extend {t : TypeDefinition} (named : t.name = e.name) :
    s'.complete t = (s.complete t).extend e := by
  by_cases kind : e.body.kind = t.kind
  · have added : s'.extensionsOf t.name t.kind = s.extensionsOf t.name t.kind ++ [e] := by
      simp [extensionsOf, further, named, kind]
    have body : (s.complete t).body.append? e.body = _ := TypeBody.append?_ofParts _ _ kind
    unfold TypeDefinition.extend
    rw [body]
    simp [complete, added]
  · have added : s'.extensionsOf t.name t.kind = s.extensionsOf t.name t.kind := by
      simp [extensionsOf, further, kind]
    rw [TypeDefinition.extend_eq_self (by rwa [kind_complete])]
    simp [complete, added]

theorem complete_unchanged {t : TypeDefinition} (other : t.name ≠ e.name) :
    s'.complete t = s.complete t := by
  have added : s'.extensionsOf t.name t.kind = s.extensionsOf t.name t.kind := by
    simp [extensionsOf, further, Ne.symm other]
  simp [complete, added]

end Further

/-! ## The first type of a name -/

theorem updateFirst_append_left {name : String} {f : TypeDefinition → TypeDefinition}
    {front updated : Schema} (there : front.updateFirst name f = some updated) (back : Schema) :
    updateFirst name f (front ++ back) = some (updated ++ back) := by
  fun_induction updateFirst name f front generalizing updated with
  | case1 => cases there
  | case2 t rest same =>
    cases there
    simp [updateFirst, same]
  | case3 t rest other ih =>
    obtain ⟨rest', there', rfl⟩ := Option.map_eq_some_iff.mp there
    simp [updateFirst, other, ih there']
  | case4 item rest noType ih =>
    obtain ⟨rest', there', rfl⟩ := Option.map_eq_some_iff.mp there
    cases item with
    | type t => exact absurd rfl (noType t)
    | _ => simp [updateFirst, ih there']

theorem updateFirst_append_right {name : String} {f : TypeDefinition → TypeDefinition}
    {front : Schema} (absent : name ∉ front.typeNames) (back : Schema) :
    updateFirst name f (front ++ back) = (back.updateFirst name f).map (front ++ ·) := by
  induction front with
  | nil => simp
  | cons item front ih =>
    cases item with
    | type t =>
      have other : t.name ≠ name := fun same => absent (same ▸ List.mem_cons_self)
      have absent : name ∉ typeNames front := fun mem => absent (List.mem_cons_of_mem _ mem)
      simp [updateFirst, other, ih absent, Function.comp_def]
    | _ => simp [updateFirst, ih absent, Function.comp_def]

theorem typeNames_completeFirst (seen : List String) (items : Schema) :
    (s.completeFirst seen items).typeNames = items.typeNames := by
  induction items generalizing seen with
  | nil => rfl
  | cons item items ih =>
    cases item with
    | type t =>
      refine congrArg₂ List.cons ?_ (ih _)
      dsimp only
      split <;> rfl
    | _ => exact ih seen

/-- Extensions among the definitions mean nothing. -/
theorem completeFirst_filter (s : Schema) (seen : List String) (items : Schema) :
    s.completeFirst seen (items.filter fun item => !isExtension item) =
      s.completeFirst seen items := by
  induction items generalizing seen with
  | nil => rfl
  | cons item items ih =>
    cases item with
    | extension e => exact ih seen
    | _ => exact congrArg (List.cons _) (ih _)

theorem completeFirst_of_none (none_added : s.extensions = []) (seen : List String)
    (items : Schema) : s.completeFirst seen items = items.filter fun item => !isExtension item := by
  have own (t : TypeDefinition) : s.complete t = t :=
    complete_of_none (by simp [extensionsOf, none_added])
  induction items generalizing seen with
  | nil => rfl
  | cons item items ih =>
    cases item with
    | type t =>
      rw [completeFirst, ih, own, ite_self]
      rfl
    | extension e => exact ih seen
    | _ => exact congrArg (List.cons _) (ih seen)

section Further

variable (further : s'.extensions = s.extensions ++ [e])

include further

/-- Definitions without a type of its name are completed as before by one more extension. -/
theorem completeFirst_unchanged {seen : List String} {items : Schema}
    (absent : e.name ∈ seen ∨ e.name ∉ items.typeNames) :
    s'.completeFirst seen items = s.completeFirst seen items := by
  induction items generalizing seen with
  | nil => rfl
  | cons item items ih =>
    cases item with
    | type t =>
      have first : t.name ∉ seen → s'.complete t = s.complete t := by
        intro fresh
        refine complete_unchanged further fun same => ?_
        rcases absent with mem | out
        · exact fresh (same ▸ mem)
        · exact out (same ▸ List.mem_cons_self)
      rw [completeFirst, completeFirst, ite_congr rfl (fun _ => rfl) first, ih]
      exact absent.imp (List.mem_cons_of_mem _) fun out mem => out (List.mem_cons_of_mem _ mem)
    | extension _ => exact ih absent
    | _ => exact congrArg (List.cons _) (ih absent)

/-- **One more extension changes the first type of its name.** -/
theorem updateFirst_completeFirst {seen : List String} {items : Schema} (fresh : e.name ∉ seen)
    (mem : e.name ∈ items.typeNames) :
    (s.completeFirst seen items).updateFirst e.name (·.extend e) =
      some (s'.completeFirst seen items) := by
  induction items generalizing seen with
  | nil => cases mem
  | cons item items ih =>
    cases item with
    | type t =>
      by_cases same : t.name = e.name
      · -- the first type of the name is met; those behind it stay as they are
        rw [completeFirst, completeFirst,
          completeFirst_unchanged further (.inl (same ▸ List.mem_cons_self)),
          if_neg (same ▸ fresh), if_neg (same ▸ fresh), updateFirst, name_complete, if_pos same,
          complete_extend further same]
      · have fresh' : e.name ∉ t.name :: seen :=
          List.not_mem_cons_of_ne_of_not_mem (Ne.symm same) fresh
        have other : (if t.name ∈ seen then t else s.complete t).name ≠ e.name := by
          split <;> exact same
        rw [completeFirst, completeFirst, updateFirst, if_neg other,
          ih fresh' (List.mem_of_ne_of_mem (Ne.symm same) mem), complete_unchanged further same]
        rfl
    | extension _ => exact ih fresh mem
    | _ =>
      rw [completeFirst, updateFirst, ih fresh mem]
      · rfl
      all_goals nofun

end Further

/-! ## Names that are only extended -/

/-- A further name is listed unless it has been. -/
theorem eraseDups_concat (names : List String) (name : String) :
    (names ++ [name]).eraseDups =
      if name ∈ names then names.eraseDups else names.eraseDups ++ [name] := by
  rw [List.eraseDups_append]
  split
  · rename_i mem
    simp [List.removeAll, mem]
  · rename_i fresh
    simp [List.removeAll, fresh, List.eraseDups_cons]

theorem nodup_eraseDups (names : List String) : names.eraseDups.Nodup := by
  induction names using List.reverseRecOn with
  | nil => exact List.nodup_nil
  | append_singleton names name ih =>
    rw [eraseDups_concat]
    split
    · exact ih
    · rename_i fresh
      have apart : names.eraseDups.Disjoint [name] :=
        List.disjoint_singleton.mpr fun mem => fresh (List.mem_eraseDups.mp mem)
      exact List.Nodup.append ih (List.nodup_singleton _) apart

theorem mem_onlyExtended {name : String} :
    name ∈ s.onlyExtended ↔ name ∈ s.extensions.map (·.name) ∧ name ∉ s.typeNames := by
  simp [onlyExtended, List.mem_eraseDups]

theorem nodup_onlyExtended (s : Schema) : s.onlyExtended.Nodup := nodup_eraseDups _

theorem name_ofExtensions? {name : String} {t : TypeDefinition}
    (made : s.ofExtensions? name = some t) : t.name = name := by
  obtain ⟨e, found, rfl⟩ := Option.map_eq_some_iff.mp made
  have named := List.find?_some found
  exact beq_iff_eq.mp named

theorem isSome_ofExtensions? {name : String} (extended : name ∈ s.extensions.map (·.name)) :
    (s.ofExtensions? name).isSome = true := by
  obtain ⟨e, mem, named⟩ := List.mem_map.mp extended
  rw [ofExtensions?, Option.isSome_map, List.find?_isSome]
  exact ⟨e, mem, beq_iff_eq.mpr named⟩

/-- The types that are made for names have these names. -/
theorem typeNames_filterMap {names : List String} {f : String → Option TypeDefinition}
    (named : ∀ name ∈ names, ∃ t, f name = some t ∧ t.name = name) :
    typeNames ((names.filterMap f).map .type) = names := by
  induction names with
  | nil => rfl
  | cons name names ih =>
    obtain ⟨⟨t, made, same⟩, others⟩ := List.forall_mem_cons.mp named
    rw [List.filterMap_cons_some made, List.map_cons]
    exact congrArg₂ List.cons same (ih others)

/-- A type that is made for one of several names is changed where it stands. -/
theorem updateFirst_filterMap {names : List String} {f f' : String → Option TypeDefinition}
    (named : ∀ name ∈ names, ∃ t, f name = some t ∧ t.name = name) (distinct : names.Nodup)
    {name : String} (mem : name ∈ names) {g : TypeDefinition → TypeDefinition}
    (changed : f' name = (f name).map g) (others : ∀ other, other ≠ name → f' other = f other) :
    updateFirst name g ((names.filterMap f).map .type) = some ((names.filterMap f').map .type) := by
  induction names with
  | nil => cases mem
  | cons first names ih =>
    obtain ⟨⟨t, made, same⟩, named⟩ := List.forall_mem_cons.mp named
    obtain ⟨fresh, distinct⟩ := List.nodup_cons.mp distinct
    rw [List.filterMap_cons_some made, List.map_cons, updateFirst, same]
    by_cases here : first = name
    · subst here
      have unchanged : names.filterMap f' = names.filterMap f :=
        List.filterMap_congr fun other mem => others other fun same => fresh (same ▸ mem)
      rw [if_pos rfl, List.filterMap_cons_some (changed.trans (congrArg _ made)), unchanged]
      rfl
    · rw [if_neg here, List.filterMap_cons_some ((others first here).trans made),
        ih named distinct (List.mem_of_ne_of_mem (Ne.symm here) mem)]
      rfl

section Further

variable (further : s'.extensions = s.extensions ++ [e])

include further

theorem ofExtensions?_unchanged {name : String} (other : name ≠ e.name) :
    s'.ofExtensions? name = s.ofExtensions? name := by
  have found : s'.extensions.find? (fun e' => e'.name == name) =
      s.extensions.find? fun e' => e'.name == name := by
    simp [further, List.find?_append, Ne.symm other]
  unfold ofExtensions?
  rw [found]
  refine Option.map_congr fun e' mem => complete_unchanged further fun same => other ?_
  have named := List.find?_some mem
  exact (beq_iff_eq.mp named).symm.trans same

theorem ofExtensions?_extend (known : e.name ∈ s.extensions.map (·.name)) :
    s'.ofExtensions? e.name = (s.ofExtensions? e.name).map (·.extend e) := by
  obtain ⟨e', mem, named⟩ := List.mem_map.mp known
  obtain ⟨first, found⟩ : ∃ first, s.extensions.find? (fun e' => e'.name == e.name) = some first :=
    Option.isSome_iff_exists.mp (List.find?_isSome.mpr ⟨e', mem, beq_iff_eq.mpr named⟩)
  have same := List.find?_some found
  simp only [ofExtensions?, further, List.find?_append, found, Option.some_or, Option.map_some]
  exact congrArg some (complete_extend further (beq_iff_eq.mp same))

theorem ofExtensions?_new (fresh : e.name ∉ s.extensions.map (·.name)) :
    s'.ofExtensions? e.name = some (e.blank.extend e) := by
  have unnamed : ∀ e' ∈ s.extensions, e'.name ≠ e.name := fun e' mem same =>
    fresh (List.mem_map.mpr ⟨e', mem, same⟩)
  have none_found : s.extensions.find? (fun e' => e'.name == e.name) = none :=
    List.find?_eq_none.mpr fun e' mem => by simpa using unnamed e' mem
  have plain : s.complete e.blank = e.blank := by
    refine complete_of_none (List.filter_eq_nil_iff.mpr fun e' mem => ?_)
    simp [TypeExtension.blank, unnamed e' mem]
  unfold ofExtensions?
  rw [further, List.find?_append, none_found, Option.none_or, List.find?_singleton,
    if_pos (beq_self_eq_true _), Option.map_some, complete_extend further rfl, plain]

theorem onlyExtended_unchanged (same : s'.typeNames = s.typeNames)
    (known : e.name ∈ s.typeNames ∨ e.name ∈ s.extensions.map (·.name)) :
    s'.onlyExtended = s.onlyExtended := by
  unfold onlyExtended
  rw [further, same, List.map_append, List.filter_append]
  by_cases defined : e.name ∈ s.typeNames
  · simp [defined]
  · have listed := known.resolve_left defined
    have again : e.name ∈ (s.extensions.map (·.name)).filter fun name => name ∉ s.typeNames :=
      List.mem_filter.mpr ⟨listed, decide_eq_true defined⟩
    rw [List.map_singleton, List.filter_singleton, decide_eq_true defined, cond_true,
      eraseDups_concat, if_pos again]

theorem onlyExtended_new (same : s'.typeNames = s.typeNames) (undefined : e.name ∉ s.typeNames)
    (fresh : e.name ∉ s.extensions.map (·.name)) :
    s'.onlyExtended = s.onlyExtended ++ [e.name] := by
  have first : e.name ∉ (s.extensions.map (·.name)).filter fun name => name ∉ s.typeNames :=
    fun mem => fresh (List.mem_of_mem_filter mem)
  unfold onlyExtended
  rw [further, same, List.map_append, List.filter_append, List.map_singleton,
    List.filter_singleton, decide_eq_true undefined, cond_true, eraseDups_concat, if_neg first]

end Further

/-! ## Merging -/

/-- The definitions of a document with its extensions, before scalars are declared. -/
def completed (s : Schema) : Schema :=
  s.completeFirst [] s ++ (s.onlyExtended.filterMap s.ofExtensions?).map .type

theorem ofExtensions?_onlyExtended :
    ∀ name ∈ s.onlyExtended, ∃ t, s.ofExtensions? name = some t ∧ t.name = name := by
  intro name mem
  obtain ⟨t, made⟩ := Option.isSome_iff_exists.mp (isSome_ofExtensions? (mem_onlyExtended.mp mem).1)
  exact ⟨t, made, name_ofExtensions? made⟩

theorem typeNames_append (s t : Schema) : typeNames (s ++ t) = s.typeNames ++ t.typeNames := by
  simp [typeNames, types]

theorem typeNames_completed (s : Schema) :
    s.completed.typeNames = s.typeNames ++ s.onlyExtended := by
  rw [completed, typeNames_append, typeNames_completeFirst,
    typeNames_filterMap ofExtensions?_onlyExtended]

/-- **One more extension is merged**: it changes the first type of its name, or the type that
extensions have declared, or it declares one. -/
theorem completed_further (further : s'.extensions = s.extensions ++ [e])
    (same : (s'.filter fun item => !isExtension item) = s.filter fun item => !isExtension item) :
    s'.completed = s.completed.mergeExtension e := by
  have names : s'.typeNames = s.typeNames := by
    rw [typeNames, ← types_filter, same, types_filter, ← typeNames]
  have items : s'.completeFirst [] s' = s'.completeFirst [] s := by
    rw [← completeFirst_filter, same, completeFirst_filter]
  unfold completed mergeExtension
  rw [items]
  by_cases defined : e.name ∈ s.typeNames
  · -- the name is defined
    have there := updateFirst_completeFirst further List.not_mem_nil defined
    have others : s.onlyExtended.filterMap s'.ofExtensions? =
        s.onlyExtended.filterMap s.ofExtensions? :=
      List.filterMap_congr fun name mem => ofExtensions?_unchanged further fun same =>
        (mem_onlyExtended.mp mem).2 (same ▸ defined)
    rw [updateFirst_append_left there, onlyExtended_unchanged further names (.inl defined), others]
  · have front : s'.completeFirst [] s = s.completeFirst [] s :=
      completeFirst_unchanged further (.inr defined)
    have absent : e.name ∉ (s.completeFirst [] s).typeNames := by
      rwa [typeNames_completeFirst]
    rw [front, updateFirst_append_right absent]
    by_cases known : e.name ∈ s.extensions.map (·.name)
    · -- it has been extended before
      rw [onlyExtended_unchanged further names (.inr known),
        updateFirst_filterMap ofExtensions?_onlyExtended (nodup_onlyExtended s)
          (mem_onlyExtended.mpr ⟨known, defined⟩) (ofExtensions?_extend further known)
          fun name other => ofExtensions?_unchanged further other]
      rfl
    · -- it is new
      have outside : e.name ∉ s.onlyExtended := fun mem => known (mem_onlyExtended.mp mem).1
      have none_there : updateFirst e.name (·.extend e)
          ((s.onlyExtended.filterMap s.ofExtensions?).map .type) = none := by
        rw [updateFirst_eq_none, ← typeNames, typeNames_filterMap ofExtensions?_onlyExtended]
        exact outside
      have others : s.onlyExtended.filterMap s'.ofExtensions? =
          s.onlyExtended.filterMap s.ofExtensions? :=
        List.filterMap_congr fun name mem => ofExtensions?_unchanged further fun same =>
          outside (same ▸ mem)
      rw [none_there, onlyExtended_new further names defined known, List.filterMap_append, others]
      simp [ofExtensions?_new further known]

/-- **Merging makes the completed types.** -/
theorem merged_eq_completed (s : Schema) : s.merged = s.completed := by
  generalize written : s.extensions = es
  induction es using List.reverseRecOn generalizing s with
  | nil =>
    simp [merged, completed, written, completeFirst_of_none, onlyExtended]
  | append_singleton es e ih =>
    -- the same document without its last extension
    let before : Schema := (s.filter fun item => !isExtension item) ++ es.map .extension
    have extensions : before.extensions = es := by
      rw [extensions_append, extensions_filter, extensions_map_extension, List.nil_append]
    have same : (before.filter fun item => !isExtension item) =
        s.filter fun item => !isExtension item := by
      rw [filter_append_extensions, List.filter_filter]
      simp
    have step : s.completed = before.completed.mergeExtension e :=
      completed_further (extensions ▸ written) same.symm
    rw [step, ← ih before extensions, merged, merged, written, extensions, same, List.foldl_append]
    rfl

/-! ## Scalars -/

theorem declareScalar_eq (s : Schema) (name : String) :
    s.declareScalar name = if name ∈ s.typeNames then s else s ++ [scalarItem name] := by
  have found : (s.firstType? name).isSome = true ↔ name ∈ s.typeNames := by
    simp [firstType?, typeNames]
  simp only [declareScalar, found]

/-- **Scalars are declared** for the names that are missing, in order. -/
theorem foldl_declareScalar (s : Schema) {names : List String} (distinct : names.Nodup) :
    names.foldl declareScalar s =
      s ++ (names.filter fun name => name ∉ s.typeNames).map scalarItem := by
  induction names generalizing s with
  | nil => simp
  | cons name names ih =>
    obtain ⟨fresh, distinct⟩ := List.nodup_cons.mp distinct
    rw [List.foldl_cons, ih _ distinct, declareScalar_eq]
    split
    · rename_i defined
      simp [defined]
    · rename_i missing
      have declared : typeNames (s ++ [scalarItem name]) = s.typeNames ++ [name] :=
        typeNames_append s [scalarItem name]
      have others : (names.filter fun other => other ∉ s.typeNames ++ [name]) =
          names.filter fun other => other ∉ s.typeNames :=
        List.filter_congr fun other mem => by
          have apart : other ≠ name := fun same => fresh (same ▸ mem)
          simp [apart]
      rw [declared, others]
      simp [missing]

/-! ## Preparing -/

/-- **The prepared schema is the declared one.** -/
theorem prepare_eq_declared (s : Schema) : s.prepare = s.declared := by
  have missing : (builtinScalars.filter fun name => name ∉ s.completed.typeNames) =
      s.missingScalars := by
    unfold missingScalars
    exact List.filter_congr fun name _ => by simp only [typeNames_completed, List.mem_append, not_or]
  rw [prepare, merged_eq_completed, foldl_declareScalar _ (by decide), missing, completed, declared]

/-- **Merging extensions is what a document declares.** The prepared schema has the definitions in
their order, the first type of each name with the parts of all extensions of its name and kind
behind its own, then a type for each name that is only extended, then the missing scalars. No
extension is left, and where extensions stand among the definitions means nothing. -/
theorem prepare_declarative (s : Schema) :
    s.prepare = s.declared ∧ s.prepare.extensions = [] ∧
      ∀ t : Schema, t.extensions = s.extensions →
        (t.filter fun item => !isExtension item) = (s.filter fun item => !isExtension item) →
          t.prepare = s.prepare := by
  refine ⟨s.prepare_eq_declared, s.extensions_prepare, fun t extended defined => ?_⟩
  rw [prepare, prepare, merged, merged, extended, defined]

/-! ## A palette -/

/-- A field without arguments. -/
def plainField (name type : String) : FieldDefinition :=
  ⟨none, name, [], .named type, []⟩

/-- The definitions of a palette; the root type is defined twice. -/
def paletteDefinitions : Schema :=
  [.type ⟨some "Roots", "Query", [], .object [] [plainField "color" "Color"]⟩,
    .roots ⟨[], some "Query", none, none⟩,
    .type ⟨none, "Query", [], .object [] [plainField "other" "Int"]⟩,
    .type ⟨none, "ID", [], .scalar⟩]

/-- Two extensions of the root type, two of a color that nothing defines, where the first one is an
enum, and one of a built-in scalar. -/
def paletteExtensions : List TypeExtension :=
  [⟨"Query", [], .object ["Node"] [plainField "id" "ID"]⟩,
    ⟨"Color", [], .enum [⟨none, "RED", []⟩]⟩,
    ⟨"Color", [], .inputObject []⟩,
    ⟨"Int", [⟨"small", []⟩], .scalar⟩,
    ⟨"Color", [⟨"open", []⟩], .enum [⟨none, "BLUE", []⟩]⟩,
    ⟨"Query", [], .object [] [plainField "size" "Int"]⟩]

/-- The palette with its extensions in front. -/
def palette : Schema :=
  paletteExtensions.map .extension ++ paletteDefinitions

theorem prepare_declarative_palette :
    prepare (paletteDefinitions ++ paletteExtensions.map .extension) = palette.prepare ∧
      palette.prepare =
        [.type ⟨some "Roots", "Query", [], .object ["Node"]
            [plainField "color" "Color", plainField "id" "ID", plainField "size" "Int"]⟩,
          .roots ⟨[], some "Query", none, none⟩,
          .type ⟨none, "Query", [], .object [] [plainField "other" "Int"]⟩,
          .type ⟨none, "ID", [], .scalar⟩,
          .type ⟨none, "Color", [⟨"open", []⟩], .enum [⟨none, "RED", []⟩, ⟨none, "BLUE", []⟩]⟩,
          .type ⟨none, "Int", [⟨"small", []⟩], .scalar⟩,
          .type ⟨none, "String", [], .scalar⟩, .type ⟨none, "Float", [], .scalar⟩,
          .type ⟨none, "Boolean", [], .scalar⟩] := by
  obtain ⟨declared, -, anywhere⟩ := prepare_declarative palette
  refine ⟨anywhere _ rfl rfl, ?_⟩
  rw [declared]
  cbv

end Schema

end SchemaUsage.Graphql

import Mathlib.Data.List.Nodup
import SchemaUsage.Graphql.Growth

/-!
# Extensions make a prepared schema grow

About `prepare_schema` on documents with further extensions. Extensions are merged in the order of
the document, so those at its end are merged into what all others have made. Each of them puts its
parts behind those of its type, and the built-in scalars are declared for the same missing names. A
document with further extensions of its types is hence prepared to a schema that has grown from the
one without them.

Results:
- `Schema.grows_mergeExtension`: an extension of a known type makes a schema grow.
- `Schema.grows_prepare`: so do further extensions at the end of a document that is prepared.
- `Schema.nodup_prepare`: names stay distinct when a schema is prepared.
-/

namespace SchemaUsage.Graphql

namespace Schema

/-! ## One extension -/

theorem grows_updateFirst {name : String} {f : TypeDefinition → TypeDefinition}
    (grows : ∀ t : TypeDefinition, t.Grows (f t)) {s s' : Schema}
    (updated : s.updateFirst name f = some s') : s.Grows s' := by
  fun_induction updateFirst name f s generalizing s' with
  | case1 => cases updated
  | case2 t rest same =>
    cases updated
    exact .cons (.type (grows t)) (Grows.refl rest)
  | case3 t rest other ih =>
    obtain ⟨rest', updated', rfl⟩ := Option.map_eq_some_iff.mp updated
    exact .cons (.same _) (ih updated')
  | case4 item rest _ ih =>
    obtain ⟨rest', updated', rfl⟩ := Option.map_eq_some_iff.mp updated
    exact .cons (.same _) (ih updated')

theorem updateFirst_eq_none {name : String} {f : TypeDefinition → TypeDefinition} {s : Schema} :
    s.updateFirst name f = none ↔ name ∉ s.types.map TypeDefinition.name := by
  fun_induction updateFirst name f s with
  | case1 => simp [types]
  | case2 t rest same => simp [types, SchemaItem.type?, same]
  | case3 t rest other ih =>
    rw [Option.map_eq_none_iff, ih]
    simp [types, SchemaItem.type?, Ne.symm other]
  | case4 item rest noType ih =>
    rw [Option.map_eq_none_iff, ih]
    cases item with
    | type t => exact absurd rfl (noType t)
    | _ => rfl

/-- **An extension of a known type makes a schema grow.** -/
theorem grows_mergeExtension {s : Schema} {e : TypeExtension}
    (known : e.name ∈ s.types.map TypeDefinition.name) : s.Grows (s.mergeExtension e) := by
  unfold mergeExtension
  cases updated : s.updateFirst e.name (·.extend e) with
  | none => exact absurd known (updateFirst_eq_none.mp updated)
  | some merged => exact grows_updateFirst (fun t => t.grows_extend e) updated

theorem grows_foldl_merge {s : Schema} {added : List TypeExtension}
    (known : ∀ e ∈ added, e.name ∈ s.types.map TypeDefinition.name) :
    s.Grows (added.foldl mergeExtension s) := by
  induction added generalizing s with
  | nil => exact Grows.refl s
  | cons e added ih =>
    have first : s.Grows (s.mergeExtension e) := grows_mergeExtension (known e List.mem_cons_self)
    refine first.trans (ih fun e' mem => ?_)
    rw [first.typeNames]
    exact known e' (List.mem_cons_of_mem e mem)

/-! ## Names -/

/-- The names of the types after merging an extension: those before, and that of the extension if
it is new. -/
theorem typeNames_mergeExtension (s : Schema) (e : TypeExtension) :
    (s.mergeExtension e).types.map TypeDefinition.name =
      if e.name ∈ s.types.map TypeDefinition.name then s.types.map TypeDefinition.name
      else s.types.map TypeDefinition.name ++ [e.name] := by
  split
  · rename_i known
    exact (grows_mergeExtension known).typeNames
  · rename_i unknown
    unfold mergeExtension
    rw [updateFirst_eq_none.mpr unknown]
    have named : (e.blank.extend e).name = e.name := (e.blank.grows_extend e).name
    simp [types, SchemaItem.type?, named]

theorem typeNames_declareScalar (s : Schema) (name : String) :
    (s.declareScalar name).types.map TypeDefinition.name =
      if name ∈ s.types.map TypeDefinition.name then s.types.map TypeDefinition.name
      else s.types.map TypeDefinition.name ++ [name] := by
  have found : (s.firstType? name).isSome = true ↔ name ∈ s.types.map TypeDefinition.name := by
    simp [firstType?]
  unfold declareScalar
  simp only [found]
  split
  · rfl
  · simp [types, scalarItem, SchemaItem.type?]

/-- Names to which a new one is added stay distinct and are all kept. -/
theorem nodup_foldl {α : Type} {step : Schema → α → Schema} (name : α → String)
    (names : ∀ s a, (step s a).types.map TypeDefinition.name =
      if name a ∈ s.types.map TypeDefinition.name then s.types.map TypeDefinition.name
      else s.types.map TypeDefinition.name ++ [name a])
    {s : Schema} (distinct : (s.types.map TypeDefinition.name).Nodup) (items : List α) :
    ((items.foldl step s).types.map TypeDefinition.name).Nodup ∧
      s.types.map TypeDefinition.name ⊆ (items.foldl step s).types.map TypeDefinition.name := by
  induction items generalizing s with
  | nil => exact ⟨distinct, List.Subset.refl _⟩
  | cons a items ih =>
    have kept : ((step s a).types.map TypeDefinition.name).Nodup ∧
        s.types.map TypeDefinition.name ⊆ (step s a).types.map TypeDefinition.name := by
      rw [names]
      split
      · exact ⟨distinct, List.Subset.refl _⟩
      · rename_i fresh
        have apart : (s.types.map TypeDefinition.name).Disjoint [name a] :=
          List.disjoint_singleton.mpr fresh
        exact ⟨List.Nodup.append distinct (List.nodup_singleton _) apart,
          List.subset_append_left _ _⟩
    obtain ⟨distinct', within⟩ := ih kept.1
    exact ⟨distinct', List.Subset.trans kept.2 within⟩

theorem types_filter (s : Schema) : types (s.filter fun item => !isExtension item) = s.types := by
  induction s with
  | nil => rfl
  | cons item s ih =>
    cases item with
    | type t => exact congrArg (t :: ·) ih
    | _ => exact ih

theorem nodup_merged {s : Schema} (distinct : (s.types.map TypeDefinition.name).Nodup) :
    (s.merged.types.map TypeDefinition.name).Nodup ∧
      s.types.map TypeDefinition.name ⊆ s.merged.types.map TypeDefinition.name := by
  have plain : types (s.filter fun item => !isExtension item) = s.types := types_filter s
  rw [← plain] at distinct ⊢
  exact nodup_foldl TypeExtension.name typeNames_mergeExtension distinct s.extensions

/-- **Names stay distinct** when a schema is prepared. -/
theorem nodup_prepare {s : Schema} (distinct : (s.types.map TypeDefinition.name).Nodup) :
    (s.prepare.types.map TypeDefinition.name).Nodup :=
  (nodup_foldl id typeNames_declareScalar (nodup_merged distinct).1 builtinScalars).1

/-! ## Further extensions -/

theorem grows_declareScalar {s t : Schema} (h : s.Grows t) (name : String) :
    (s.declareScalar name).Grows (t.declareScalar name) := by
  unfold declareScalar
  have both := h.firstType? name
  generalize s.firstType? name = found at both ⊢
  generalize t.firstType? name = found' at both ⊢
  cases both with
  | none => exact List.rel_append h (.cons (.same _) .nil)
  | some _ => exact h

theorem extensions_map_extension (es : List TypeExtension) : extensions (es.map .extension) = es := by
  simp [extensions, SchemaItem.extension?, Function.comp_def]

theorem filter_append_extensions (s : Schema) (es : List TypeExtension) :
    (s ++ es.map SchemaItem.extension).filter (fun item => !isExtension item) =
      s.filter fun item => !isExtension item := by
  simp [isExtension, List.filter_append]

theorem merged_append (s : Schema) (added : List TypeExtension) :
    merged (s ++ added.map .extension) = added.foldl mergeExtension s.merged := by
  unfold merged
  rw [extensions_append, extensions_map_extension, filter_append_extensions, List.foldl_append]

/-- **Further extensions of known types make the prepared schema grow.** -/
theorem grows_prepare {s : Schema} (distinct : (s.types.map TypeDefinition.name).Nodup)
    {added : List TypeExtension} (known : ∀ e ∈ added, ∃ t ∈ s.types, t.name = e.name) :
    s.prepare.Grows (prepare (s ++ added.map .extension)) := by
  have merged_grows : s.merged.Grows (merged (s ++ added.map .extension)) := by
    rw [merged_append]
    refine grows_foldl_merge fun e mem => (nodup_merged distinct).2 ?_
    obtain ⟨t, mem', same⟩ := known e mem
    exact same ▸ List.mem_map_of_mem mem'
  unfold prepare
  generalize merged (s ++ added.map .extension) = grown at merged_grows ⊢
  generalize s.merged = plain at merged_grows ⊢
  induction builtinScalars generalizing plain grown with
  | nil => exact merged_grows
  | cons name names ih => exact ih _ _ (grows_declareScalar merged_grows name)

end Schema

end SchemaUsage.Graphql

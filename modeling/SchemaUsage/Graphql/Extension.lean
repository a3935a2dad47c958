import SchemaUsage.Graphql.Schema

/-!
# Merging of type extensions

Model of `prepare_schema` and `merge_extension`. A prepared schema holds no extensions: each has
been added to the type of its name, or has declared that type where it is missing, and the built-in
scalars are declared. Extensions of another kind than their type are ignored.

Results:
- `extensions_prepare`: a prepared schema has no extensions.
-/

namespace SchemaUsage.Graphql

/-- A body with the parts of another body of the same kind behind its own; none for bodies of
different kinds (`merge_extension`, the match on both kinds). -/
def TypeBody.append? : TypeBody → TypeBody → Option TypeBody
  | scalar, scalar => some scalar
  | object is fs, object js gs => some (object (is ++ js) (fs ++ gs))
  | interface is fs, interface js gs => some (interface (is ++ js) (fs ++ gs))
  | union ms, union ns => some (union (ms ++ ns))
  | enum vs, enum ws => some (enum (vs ++ ws))
  | inputObject fs, inputObject gs => some (inputObject (fs ++ gs))
  | _, _ => none

/-- The body of a kind that has no parts. -/
def TypeBody.empty : TypeKind → TypeBody
  | .scalar => scalar
  | .object => object [] []
  | .interface => interface [] []
  | .union => union []
  | .enum => enum []
  | .inputObject => inputObject []

theorem TypeBody.append?_isSome_iff (b c : TypeBody) :
    (b.append? c).isSome = true ↔ b.kind = c.kind := by
  cases b <;> cases c <;> simp [append?, kind]

/-- A type with an extension added, unless the kinds differ (the end of `merge_extension`). -/
def TypeDefinition.extend (t : TypeDefinition) (e : TypeExtension) : TypeDefinition :=
  match t.body.append? e.body with
  | some body => { t with directives := t.directives ++ e.directives, body := body }
  | none => t

/-- The type that an extension declares if it has nothing to extend (`empty_definition`). -/
def TypeExtension.blank (e : TypeExtension) : TypeDefinition where
  description := none
  name := e.name
  directives := []
  body := .empty e.body.kind

namespace Schema

/-- Changes the first type that has a name; tells whether there is one. -/
def updateFirst (name : String) (f : TypeDefinition → TypeDefinition) :
    Schema → Option Schema
  | [] => none
  | .type t :: rest =>
    if t.name = name then some (.type (f t) :: rest)
    else (updateFirst name f rest).map (.type t :: ·)
  | item :: rest => (updateFirst name f rest).map (item :: ·)

/-- Adds an extension to the first type of its name, or to a new type at the end
(`merge_extension`). -/
def mergeExtension (s : Schema) (e : TypeExtension) : Schema :=
  match s.updateFirst e.name (·.extend e) with
  | some merged => merged
  | none => s ++ [.type (e.blank.extend e)]

/-- Whether a definition is an extension. -/
def isExtension : SchemaItem → Bool
  | .extension _ => true
  | _ => false

/-- The definitions with all extensions merged into them. -/
def merged (s : Schema) : Schema :=
  s.extensions.foldl mergeExtension (s.filter fun item => !isExtension item)

/-- The scalars that need no declaration (`BUILTIN_SCALARS`). -/
def builtinScalars : List String := ["String", "Int", "Float", "Boolean", "ID"]

/-- The declaration of a scalar. -/
def scalarItem (name : String) : SchemaItem :=
  .type { description := none, name := name, directives := [], body := .scalar }

/-- Declares a scalar at the end, unless the schema has a type of the name (the last loop of
`prepare_schema`). -/
def declareScalar (s : Schema) (name : String) : Schema :=
  if (s.firstType? name).isSome then s else s ++ [scalarItem name]

/-- **The schema without extensions and with the built-in scalars** (`prepare_schema`). -/
def prepare (s : Schema) : Schema :=
  builtinScalars.foldl declareScalar s.merged

/-- The kind of the type that extensions of a name extend: that of the first type of the name,
else that of the first extension. -/
def extendedKind? (s : Schema) (name : String) : Option TypeKind :=
  match s.firstType? name with
  | some t => some t.kind
  | none => (s.extensions.find? fun e => e.name == name).map fun e => e.body.kind

/-- The extensions that are ignored, since the type that they extend is of another kind. -/
def ignoredExtensions (s : Schema) : List TypeExtension :=
  s.extensions.filter fun e => s.extendedKind? e.name != some e.body.kind

/-! ## No extension is left -/

theorem extensions_append (s t : Schema) :
    extensions (s ++ t) = extensions s ++ extensions t :=
  List.filterMap_append

theorem extensions_cons (item : SchemaItem) (s : Schema) :
    extensions (item :: s) = item.extension?.toList ++ extensions s := by
  unfold extensions
  rw [List.filterMap_cons]
  cases item.extension? <;> rfl

theorem extensions_updateFirst {name : String} {f : TypeDefinition → TypeDefinition}
    {s t : Schema} (h : updateFirst name f s = some t) : extensions t = extensions s := by
  fun_induction updateFirst name f s generalizing t with
  | case1 => simp at h
  | case2 d rest hname => cases h; simp [extensions_cons, SchemaItem.extension?]
  | case3 d rest hname ih =>
    obtain ⟨u, hu, rfl⟩ := Option.map_eq_some_iff.mp h
    rw [extensions_cons, extensions_cons, ih hu]
  | case4 item rest hitem ih =>
    obtain ⟨u, hu, rfl⟩ := Option.map_eq_some_iff.mp h
    rw [extensions_cons, extensions_cons, ih hu]

theorem extensions_mergeExtension (s : Schema) (e : TypeExtension) :
    extensions (mergeExtension s e) = extensions s := by
  unfold mergeExtension
  split
  · rename_i h; exact extensions_updateFirst h
  · simp [extensions, SchemaItem.extension?]

theorem extensions_foldl_merge (s : Schema) (es : List TypeExtension) :
    extensions (es.foldl mergeExtension s) = extensions s := by
  induction es generalizing s with
  | nil => rfl
  | cons e es ih => rw [List.foldl_cons, ih, extensions_mergeExtension]

theorem extensions_filter (s : Schema) :
    extensions (s.filter fun item => !isExtension item) = [] := by
  induction s with
  | nil => rfl
  | cons item rest ih =>
    cases item <;> simp_all [extensions, isExtension, SchemaItem.extension?]

theorem extensions_declareScalars (s : Schema) (names : List String) :
    extensions (names.foldl declareScalar s) = extensions s := by
  induction names generalizing s with
  | nil => rfl
  | cons name names ih =>
    rw [List.foldl_cons, ih]
    unfold declareScalar
    split
    · rfl
    · simp [extensions, scalarItem, SchemaItem.extension?]

/-- **A prepared schema has no extensions.** -/
theorem extensions_prepare (s : Schema) : extensions (prepare s) = [] := by
  unfold prepare merged
  rw [extensions_declareScalars, extensions_foldl_merge, extensions_filter]

end Schema

end SchemaUsage.Graphql

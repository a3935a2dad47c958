import Mathlib.Data.List.Forall2
import SchemaUsage.Graphql.Extension

/-!
# Schemas that grow

A schema grows when parts are put behind the parts of its types. No type changes its kind or its
name, no part is taken away and none is put in front of others, so a look-up that finds something
finds the same in the grown schema, or a type that has grown itself.

Results:
- `TypeDefinition.grows_extend`: an extension makes a type grow, or does nothing.
- `TypeDefinition.Grows.field?`, `TypeDefinition.Grows.inputField?`: fields are found as before.
- `Schema.Grows.firstType?`, `Schema.Grows.lastType?`: so are types, up to their growth.
- `Schema.Grows.rootName?`: the names of the root types stay what they are.
-/

namespace SchemaUsage.Graphql

/-! ## Bodies -/

/-- **A body grows** when parts of its kind are put behind its own. -/
inductive TypeBody.Grows : TypeBody → TypeBody → Prop where
  | scalar : Grows .scalar .scalar
  | object (is js : List String) (fs gs : List FieldDefinition) :
      Grows (.object is fs) (.object (is ++ js) (fs ++ gs))
  | interface (is js : List String) (fs gs : List FieldDefinition) :
      Grows (.interface is fs) (.interface (is ++ js) (fs ++ gs))
  | union (ms ns : List String) : Grows (.union ms) (.union (ms ++ ns))
  | enum (vs ws : List EnumValue) : Grows (.enum vs) (.enum (vs ++ ws))
  | inputObject (fs gs : List InputValue) : Grows (.inputObject fs) (.inputObject (fs ++ gs))

namespace TypeBody

theorem grows_append? {b c d : TypeBody} (appended : b.append? c = some d) : b.Grows d := by
  cases b <;> cases c <;> cases appended <;> constructor

theorem append?_empty (b : TypeBody) : b.append? (.empty b.kind) = some b := by
  cases b <;> simp [append?, empty, kind]

theorem Grows.refl (b : TypeBody) : b.Grows b := grows_append? b.append?_empty

theorem Grows.trans : ∀ {b c d : TypeBody}, b.Grows c → c.Grows d → b.Grows d
  | _, _, _, .scalar, .scalar => .scalar
  | _, _, _, .object is js fs gs, .object _ _ _ _ => by
    rw [List.append_assoc, List.append_assoc]
    exact .object is _ fs _
  | _, _, _, .interface is js fs gs, .interface _ _ _ _ => by
    rw [List.append_assoc, List.append_assoc]
    exact .interface is _ fs _
  | _, _, _, .union ms ns, .union _ _ => by
    rw [List.append_assoc]
    exact .union ms _
  | _, _, _, .enum vs ws, .enum _ _ => by
    rw [List.append_assoc]
    exact .enum vs _
  | _, _, _, .inputObject fs gs, .inputObject _ _ => by
    rw [List.append_assoc]
    exact .inputObject fs _

theorem Grows.kind {b c : TypeBody} (h : b.Grows c) : c.kind = b.kind := by
  cases h <;> rfl

end TypeBody

/-! ## Types -/

/-- **A type grows** when its body does. Its name stays; its description and its directives mean
nothing here. -/
structure TypeDefinition.Grows (t u : TypeDefinition) : Prop where
  name : u.name = t.name
  body : t.body.Grows u.body

namespace TypeDefinition

theorem Grows.refl (t : TypeDefinition) : t.Grows t := ⟨rfl, .refl t.body⟩

theorem Grows.trans {t u v : TypeDefinition} (h : t.Grows u) (h' : u.Grows v) : t.Grows v :=
  ⟨h'.name.trans h.name, h.body.trans h'.body⟩

/-- **An extension makes a type grow**, or does nothing where the kinds differ. -/
theorem grows_extend (t : TypeDefinition) (e : TypeExtension) : t.Grows (t.extend e) := by
  unfold extend
  split
  · rename_i body appended
    exact ⟨rfl, TypeBody.grows_append? appended⟩
  · exact .refl t

namespace Grows

variable {t u : TypeDefinition} (h : t.Grows u)

include h

theorem kind : u.kind = t.kind := h.body.kind

theorem outputFields : ∃ added, u.outputFields = t.outputFields ++ added := by
  obtain ⟨-, grown⟩ := h
  unfold TypeDefinition.outputFields
  generalize t.body = b at grown
  generalize u.body = c at grown
  cases grown with
  | object _ _ fs gs | interface _ _ fs gs => exact ⟨gs, rfl⟩
  | _ => exact ⟨[], rfl⟩

theorem inputFields : ∃ added, u.inputFields = t.inputFields ++ added := by
  obtain ⟨-, grown⟩ := h
  unfold TypeDefinition.inputFields
  generalize t.body = b at grown
  generalize u.body = c at grown
  cases grown with
  | inputObject fs gs => exact ⟨gs, rfl⟩
  | _ => exact ⟨[], rfl⟩

/-- An output field that is found before is found behind. -/
theorem field? {name : String} {field : FieldDefinition} (found : t.field? name = some field) :
    u.field? name = some field := by
  obtain ⟨added, same⟩ := h.outputFields
  unfold TypeDefinition.field? at found ⊢
  rw [same, List.find?_append, found, Option.some_or]

/-- An input field that is found before is found behind. -/
theorem inputField? {name : String} {field : InputValue}
    (found : t.inputField? name = some field) : u.inputField? name = some field := by
  obtain ⟨added, same⟩ := h.inputFields
  unfold TypeDefinition.inputField? at found ⊢
  rw [same, List.find?_append, found, Option.some_or]

end Grows

end TypeDefinition

/-! ## Schemas -/

/-- A definition that is a grown type, or the same definition. -/
inductive SchemaItem.Grows : SchemaItem → SchemaItem → Prop where
  | same (item : SchemaItem) : Grows item item
  | type {t u : TypeDefinition} (grown : t.Grows u) : Grows (.type t) (.type u)

/-- **A schema grows** when its definitions grow, each where it stands. -/
abbrev Schema.Grows : Schema → Schema → Prop := List.Forall₂ SchemaItem.Grows

namespace Schema

/-- What is found among related items is related. -/
theorem rel_find? {α : Type} {R : α → α → Prop} {p : α → Bool} {xs ys : List α}
    (h : List.Forall₂ R xs ys) (agree : ∀ a b, R a b → p b = p a) :
    Option.Rel R (xs.find? p) (ys.find? p) := by
  induction h with
  | nil => exact .none
  | @cons a b xs ys first _ ih =>
    rw [List.find?_cons, List.find?_cons, agree a b first]
    cases p a with
    | true => exact .some first
    | false => exact ih

theorem exists_of_rel_left {α : Type} {R : α → α → Prop} {o o' : Option α} {a : α}
    (h : Option.Rel R o o') (found : o = some a) : ∃ b, o' = some b ∧ R a b := by
  cases h with
  | none => cases found
  | some rel =>
    cases found
    exact ⟨_, rfl, rel⟩

theorem exists_of_rel_right {α : Type} {R : α → α → Prop} {o o' : Option α} {b : α}
    (h : Option.Rel R o o') (found : o' = some b) : ∃ a, o = some a ∧ R a b := by
  cases h with
  | none => cases found
  | some rel =>
    cases found
    exact ⟨_, rfl, rel⟩

namespace Grows

theorem refl (s : Schema) : s.Grows s := List.forall₂_same.mpr fun item _ => .same item

theorem trans {s t u : Schema} (h : s.Grows t) (h' : t.Grows u) : s.Grows u := by
  induction h generalizing u with
  | nil => exact h'
  | cons first _ ih =>
    cases h' with
    | cons first' rest' =>
      refine .cons ?_ (ih rest')
      cases first with
      | same _ => exact first'
      | type grown =>
        cases first' with
        | same _ => exact .type grown
        | type grown' => exact .type (grown.trans grown')

variable {s t : Schema} (h : s.Grows t)

include h

theorem types : List.Forall₂ TypeDefinition.Grows s.types t.types := by
  unfold Schema.types
  induction h with
  | nil => exact .nil
  | @cons item _ _ _ first _ ih =>
    cases first with
    | same _ =>
      cases item with
      | type u => exact .cons (.refl u) ih
      | _ => exact ih
    | type grown => exact .cons grown ih

theorem rootDefinitions : t.rootDefinitions = s.rootDefinitions := by
  unfold Schema.rootDefinitions
  induction h with
  | nil => rfl
  | cons first _ ih =>
    cases first with
    | same _ => rw [List.filterMap_cons, List.filterMap_cons, ih]
    | type _ => exact ih

/-- The first types of a name are both missing, or one has grown from the other. -/
theorem firstType? (name : String) :
    Option.Rel TypeDefinition.Grows (s.firstType? name) (t.firstType? name) :=
  rel_find? h.types fun a b grown => by rw [grown.name]

theorem lastType? (name : String) :
    Option.Rel TypeDefinition.Grows (s.lastType? name) (t.lastType? name) :=
  rel_find? (List.rel_reverse h.types) fun a b grown => by rw [grown.name]

/-- A type that is found before is found behind, grown. -/
theorem firstType?_grown {name : String} {u : TypeDefinition} (found : s.firstType? name = some u) :
    ∃ v, t.firstType? name = some v ∧ u.Grows v :=
  exists_of_rel_left (h.firstType? name) found

theorem lastType?_grown {name : String} {u : TypeDefinition} (found : s.lastType? name = some u) :
    ∃ v, t.lastType? name = some v ∧ u.Grows v :=
  exists_of_rel_left (h.lastType? name) found

/-- A type that is found behind has grown from one that is found before. -/
theorem lastType?_origin {name : String} {v : TypeDefinition} (found : t.lastType? name = some v) :
    ∃ u, s.lastType? name = some u ∧ u.Grows v :=
  exists_of_rel_right (h.lastType? name) found

/-- **The names of the root types** stay what they are. -/
theorem rootName? (kind : OperationKind) : t.rootName? kind = s.rootName? kind := by
  have objects : (t.types.any fun u => u.kind == .object && u.name == kind.defaultRoot) =
      s.types.any fun u => u.kind == .object && u.name == kind.defaultRoot := by
    have types := h.types
    generalize s.types = before at types ⊢
    generalize t.types = behind at types ⊢
    induction types with
    | nil => rfl
    | cons first _ ih => rw [List.any_cons, List.any_cons, first.kind, first.name, ih]
  unfold Schema.rootName?
  rw [h.rootDefinitions, objects]

theorem typeNames : t.types.map TypeDefinition.name = s.types.map TypeDefinition.name := by
  have types := h.types
  generalize s.types = before at types ⊢
  generalize t.types = behind at types ⊢
  induction types with
  | nil => rfl
  | cons first _ ih => rw [List.map_cons, List.map_cons, first.name, ih]

end Grows

end Schema

end SchemaUsage.Graphql

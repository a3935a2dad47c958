import SchemaUsage.Usage.Mark

/-!
# From marks to identifiers

Model of `mark_entire_type` and of `CollectedUsage::finish`. A type that is used as a whole stands
for its own identifiers and for those of every type that its fields reach. All other marks stand for
one identifier each. Types may refer to each other in circles: each is expanded once.

* `expanded`, the set of types that are done, is kept here as its complement: the types that are
  left. It shrinks with every expansion, and so the loop over `pending` ends.
* `resolve` reads what is noted of types in the order of the marks. For the orders of the hash table
  see `Usage.Table`.

Results:
- `mem_ascending`: sorting and dropping repetitions keeps the members of a list.
-/

namespace SchemaUsage.Usage

open SchemaUsage.Graphql

/-! ## One type -/

/-- The identifiers that `mark_entire_type` notes of a type itself: a scalar's name, an enum's
values, the fields of the others; a union has none. -/
def ownIdentifiers (t : TypeDefinition) : List String :=
  match t.body with
  | .scalar => [t.name]
  | .enum values => values.map fun v => fieldId t.name v.name
  | .union _ => []
  | .inputObject fields => fields.map fun f => fieldId t.name f.name
  | .object _ fields => fields.map fun f => fieldId t.name f.name
  | .interface _ fields => fields.map fun f => fieldId t.name f.name

/-- The names of the types of a type's fields, in order (`output_field_types`, and the same for
input objects). -/
def fieldTypes (t : TypeDefinition) : List String :=
  match t.body with
  | .inputObject fields => fields.map fun f => f.type.innerName
  | .object _ fields => fields.map fun f => f.type.innerName
  | .interface _ fields => fields.map fun f => f.type.innerName
  | _ => []

/-! ## Everything in reach -/

/-- The types of an expansion that are still to be expanded, and the identifiers so far. -/
structure Expansion where
  left : List TypeDefinition
  ids : List String

/-- The types of a type's fields must be defined: each is looked up when it is put on the stack. -/
def requireFieldTypes (s : Schema) (t : TypeDefinition) : Except UsageError Unit :=
  (fieldTypes t).forM fun name => (firstType s name).map fun _ => ()

/-- Expands the types on a stack, each unless it has been expanded before (the loop of
`mark_entire_type`). The names on the stack are those of defined types; the types of fields must be
defined when their type is expanded, and the last of them is expanded first. -/
def expandPending (s : Schema) (left : List TypeDefinition) (ids : List String) :
    List String → Except UsageError Expansion
  | [] => .ok ⟨left, ids⟩
  | name :: pending =>
    match h : left.find? (fun t => t.name == name) with
    | none => expandPending s left ids pending
    | some t =>
      have : (left.filter fun u => u.name != name).length < left.length :=
        List.length_filter_lt_length_iff_exists.mpr
          ⟨t, List.mem_of_find?_eq_some h, by simpa using List.find?_some h⟩
      match requireFieldTypes s t with
      | .error e => .error e
      | .ok () =>
        expandPending s (left.filter fun u => u.name != name) (ids ++ ownIdentifiers t)
          ((fieldTypes t).reverse ++ pending)
termination_by pending => (left.length, pending.length)

/-- Adds the expansion of one type, which must be defined (`mark_entire_type`). -/
def Expansion.add (s : Schema) (e : Expansion) (name : String) :
    Except UsageError Expansion := do
  let _ ← firstType s name
  expandPending s e.left e.ids [name]

/-- The identifiers of several types and of all that they reach. -/
def wholeIdentifiers (s : Schema) (names : List String) : Except UsageError (List String) :=
  (names.foldlM (Expansion.add s) ⟨s.types, []⟩).map Expansion.ids

/-! ## Marks -/

/-- The types that are marked as a whole, in order. -/
def wholeTypes (marks : List Mark) : List String :=
  marks.filterMap fun
    | .whole type => some type
    | _ => none

/-- The identifiers that marks stand for by themselves. The marked fields of a type that is used as
a whole add nothing to it, as in `CollectedInputTypes::resolve`. -/
def plainIdentifiers (marks : List Mark) : List String :=
  marks.filterMap fun
    | .identifier id => some id
    | .field type field =>
      if (wholeTypes marks).contains type then none else some (fieldId type field)
    | .whole _ => none

/-- **The identifiers that marks stand for** (`CollectedInputTypes::resolve`, in the order of the
marks). -/
def resolve (s : Schema) (marks : List Mark) : Except UsageError (List String) := do
  let ids ← wholeIdentifiers s (wholeTypes marks)
  pure (plainIdentifiers marks ++ ids)

/-- Drops repetitions from a sorted list. -/
def dropRepeats [DecidableEq α] : List α → List α
  | [] => []
  | [a] => [a]
  | a :: b :: rest => if a = b then dropRepeats (b :: rest) else a :: dropRepeats (b :: rest)

/-- A list in ascending order, without repetitions: what `finish` makes of a set. -/
def ascending (ids : List String) : List String :=
  dropRepeats (ids.mergeSort fun a b => decide (a ≤ b))

theorem mem_dropRepeats [DecidableEq α] {x : α} {xs : List α} :
    x ∈ dropRepeats xs ↔ x ∈ xs := by
  fun_induction dropRepeats xs with
  | case1 => rfl
  | case2 => rfl
  | case3 a rest ih => simp_all
  | case4 a b rest h ih => simp_all

theorem mem_ascending {x : String} {ids : List String} : x ∈ ascending ids ↔ x ∈ ids := by
  rw [ascending, mem_dropRepeats, List.mem_mergeSort]

end SchemaUsage.Usage

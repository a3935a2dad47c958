import Mathlib.Data.List.Forall2
import SchemaUsage.Usage.Collection

/-!
# The table of used types

Model of `CollectedInputTypes`. What is marked of types is noted in a hash table (`records`) with
one `InputTypeRecord` for each type. Such a table hands out its records, and each record its fields,
in an order that nothing promises and that may change from call to call. `resolve` in
`Usage.Expansion` takes one such order, that of the marks; here the order is a parameter.

* `collected` notes marks in a table, `resolveTable` tells what the records of a table stand for.
* `Rearranges` says that a table is read completely, in whatever order.
* `usageInOrder` is the usage of a document when its table is read in an order.
* `Telling.Occurs` lists the ways in which usages may be told.

Results:
- `Rearranged.of_perm`: a table may be read in any order of its records.

Out of scope: how likely an order is, and how hashes give rise to it. Every order counts.
-/

namespace SchemaUsage.Usage

open SchemaUsage.Graphql

/-! ## Records -/

/-- What is noted of a type (`InputTypeRecord` with its key): whether it is used as a whole, and
some of its fields, none of them twice. -/
structure TypeRecord where
  type : String
  whole : Bool := false
  fields : List String := []
  deriving Repr, DecidableEq

/-- Changes the record of a type. If there is none yet, an empty one is put in first
(`CollectedInputTypes::record`). -/
def changeRecord (type : String) (change : TypeRecord → TypeRecord) :
    List TypeRecord → List TypeRecord
  | [] => [change { type := type }]
  | record :: table =>
    if record.type = type then change record :: table
    else record :: changeRecord type change table

/-- Notes that a type is used as a whole (`mark_all`). -/
def TypeRecord.markWhole (record : TypeRecord) : TypeRecord := { record with whole := true }

/-- Notes a field of a type (`mark_field`). -/
def TypeRecord.markField (field : String) (record : TypeRecord) : TypeRecord :=
  { record with fields := record.fields.insert field }

theorem TypeRecord.markWhole_type (record : TypeRecord) :
    record.markWhole.type = record.type := rfl

theorem TypeRecord.markField_type (field : String) (record : TypeRecord) :
    (record.markField field).type = record.type := rfl

/-- Notes a mark in a table. Identifiers are noted elsewhere. -/
def noteMark (table : List TypeRecord) : Mark → List TypeRecord
  | .identifier _ => table
  | .whole type => changeRecord type TypeRecord.markWhole table
  | .field type field => changeRecord type (TypeRecord.markField field) table

/-- **The table of what is marked of types.** -/
def collected (marks : List Mark) : List TypeRecord := marks.foldl noteMark []

/-- The identifiers that are marked as such. -/
def markedIdentifiers (marks : List Mark) : List String :=
  marks.filterMap fun
    | .identifier id => some id
    | _ => none

/-! ## What a table stands for -/

/-- Adds what a record stands for: the expansion of its type if that is used as a whole, and the
identifiers of the fields otherwise (the body of the loop in `CollectedInputTypes::resolve`). -/
def Expansion.addRecord (s : Schema) (e : Expansion) (record : TypeRecord) :
    Except UsageError Expansion :=
  if record.whole then e.add s record.type
  else .ok { e with ids := e.ids ++ record.fields.map (fieldId record.type) }

/-- What the records of a table stand for, from the first to the last one
(`CollectedInputTypes::resolve`). No type is expanded twice. -/
def resolveTable (s : Schema) (ids : List String) (table : List TypeRecord) :
    Except UsageError (List String) :=
  (table.foldlM (Expansion.addRecord s) ⟨s.types, ids⟩).map Expansion.ids

/-! ## Orders -/

/-- **A record whose fields are in another order.** -/
structure TypeRecord.Rearranged (record other : TypeRecord) : Prop where
  type_eq : other.type = record.type
  whole_eq : other.whole = record.whole
  fields_perm : other.fields.Perm record.fields

/-- **A table in another order**, both as a whole and in each record. -/
def Rearranged (table other : List TypeRecord) : Prop :=
  ∃ between, table.Perm between ∧ List.Forall₂ TypeRecord.Rearranged between other

/-- **A way to read tables**: in some order, completely. -/
def Rearranges (order : List TypeRecord → List TypeRecord) : Prop :=
  ∀ table, Rearranged table (order table)

/-- **The identifiers that a document uses** if its table is read in an order. -/
def usageInOrder (s : Schema) (order : List TypeRecord → List TypeRecord) (strategy : Strategy)
    (doc : Document) : Except UsageError (List String) := do
  let marks ← documentMarks s strategy doc
  let ids ← resolveTable s (markedIdentifiers marks) (order (collected marks))
  pure (ascending ids)

/-- The telling that reads tables in an order. -/
def Telling.inOrder (order : List TypeRecord → List TypeRecord) : Telling :=
  fun s => usageInOrder s order

/-- **A telling that may occur**: in the order of the marks, or in any order of the tables. -/
inductive Telling.Occurs : Telling → Prop where
  | marks : Occurs usage
  | table {order : List TypeRecord → List TypeRecord} (reads : Rearranges order) :
      Occurs (inOrder order)

theorem TypeRecord.Rearranged.refl (record : TypeRecord) : record.Rearranged record :=
  ⟨rfl, rfl, .refl _⟩

/-- Records may change their places. -/
theorem Rearranged.of_perm {table other : List TypeRecord} (perm : table.Perm other) :
    Rearranged table other :=
  ⟨other, perm, List.forall₂_same.mpr fun record _ => .refl record⟩

end SchemaUsage.Usage

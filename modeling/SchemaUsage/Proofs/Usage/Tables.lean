import SchemaUsage.Proofs.Usage.FirstFailure
import SchemaUsage.Usage.Table

/-!
# What a table of types stands for

About `CollectedInputTypes`. The table of marks tells of each type what has been marked of it, and
it tells so in any order. What its records stand for is therefore what the marks denote, and it
fails where one of the whole types fails by itself: with the failure of the first of them.

* `Collects` says what a table tells of marks.
* `Beside` puts the expansion of a table beside that of its whole types alone.
* `FailsFirst` says which record of a table makes its expansion fail.

Results:
- `collects_collected`, `Rearranged.collects`: the table of marks tells what has been marked, in any
  order.
- `resolveTable_exact`: a table stands for what its marks denote.
- `resolveTable_eq_error`: the first whole type that fails by itself is the one that is blamed.
-/

namespace SchemaUsage.Usage

open SchemaUsage.Graphql

variable {s : Schema}

/-! ## What a table tells -/

/-- **A table tells what is marked of types**: for each of them what marks say, and it misses no
type. -/
structure Collects (marks : List Mark) (table : List TypeRecord) : Prop where
  distinct : (table.map TypeRecord.type).Nodup
  whole_iff : ∀ record ∈ table, record.whole = true ↔ .whole record.type ∈ marks
  mem_fields : ∀ record ∈ table, ∀ field,
    field ∈ record.fields ↔ .field record.type field ∈ marks
  listed : ∀ type, (.whole type ∈ marks ∨ ∃ field, .field type field ∈ marks) →
    type ∈ table.map TypeRecord.type

section Changes

variable {type : String} {change : TypeRecord → TypeRecord}

theorem mem_types_changeRecord (keeps : ∀ record, (change record).type = record.type)
    {table : List TypeRecord} {name : String} :
    name ∈ (changeRecord type change table).map TypeRecord.type ↔
      name = type ∨ name ∈ table.map TypeRecord.type := by
  induction table with
  | nil => simp [changeRecord, keeps]
  | cons record table ih =>
    unfold changeRecord
    split
    · rename_i same
      simp [keeps, same]
    · rw [List.map_cons, List.mem_cons, ih, List.map_cons, List.mem_cons, or_left_comm]

theorem nodup_changeRecord (keeps : ∀ record, (change record).type = record.type)
    {table : List TypeRecord} (distinct : (table.map TypeRecord.type).Nodup) :
    ((changeRecord type change table).map TypeRecord.type).Nodup := by
  induction table with
  | nil => simp [changeRecord]
  | cons record table ih =>
    obtain ⟨fresh, distinct⟩ := List.nodup_cons.mp distinct
    unfold changeRecord
    split
    · rw [List.map_cons, keeps]
      exact List.nodup_cons.mpr ⟨fresh, distinct⟩
    · rename_i differs
      refine List.nodup_cons.mpr ⟨fun mem => ?_, ih distinct⟩
      rcases (mem_types_changeRecord keeps).mp mem with same | mem
      · exact differs same
      · exact fresh mem

/-- What is in a table after a change: the records of the other types, and the changed one. -/
theorem mem_changeRecord {table : List TypeRecord}
    (distinct : (table.map TypeRecord.type).Nodup) {record : TypeRecord}
    (mem : record ∈ changeRecord type change table) :
    (record ∈ table ∧ record.type ≠ type) ∨
      (∃ before ∈ table, before.type = type ∧ record = change before) ∨
      (type ∉ table.map TypeRecord.type ∧ record = change { type := type }) := by
  induction table with
  | nil => exact .inr (.inr ⟨List.not_mem_nil, List.mem_singleton.mp mem⟩)
  | cons first table ih =>
    obtain ⟨fresh, distinct⟩ := List.nodup_cons.mp distinct
    unfold changeRecord at mem
    split at mem
    · rename_i same
      rcases List.mem_cons.mp mem with rfl | mem
      · exact .inr (.inl ⟨first, List.mem_cons_self, same, rfl⟩)
      · refine .inl ⟨List.mem_cons_of_mem first mem, fun same' => fresh ?_⟩
        exact List.mem_map.mpr ⟨record, mem, same'.trans same.symm⟩
    · rename_i differs
      rcases List.mem_cons.mp mem with rfl | mem
      · exact .inl ⟨List.mem_cons_self, differs⟩
      · rcases ih distinct mem with ⟨mem, other⟩ | ⟨before, mem, same, changed⟩ | ⟨new, changed⟩
        · exact .inl ⟨List.mem_cons_of_mem first mem, other⟩
        · exact .inr (.inl ⟨before, List.mem_cons_of_mem first mem, same, changed⟩)
        · refine .inr (.inr ⟨fun mem => ?_, changed⟩)
          rcases List.mem_cons.mp mem with same | mem
          · exact differs same.symm
          · exact new mem

end Changes

namespace Collects

variable {marks : List Mark} {table : List TypeRecord}

theorem nil : Collects [] [] := ⟨.nil, by simp, by simp, by simp⟩

/-- Nothing is marked of a type that has no record. -/
theorem unmarked (h : Collects marks table) {type : String}
    (new : type ∉ table.map TypeRecord.type) :
    .whole type ∉ marks ∧ ∀ field, .field type field ∉ marks :=
  ⟨fun mem => new (h.listed type (.inl mem)),
    fun field mem => new (h.listed type (.inr ⟨field, mem⟩))⟩

theorem identifier (h : Collects marks table) (id : String) :
    Collects (marks ++ [.identifier id]) table where
  distinct := h.distinct
  whole_iff record mem := by simp [h.whole_iff record mem]
  mem_fields record mem field := by simp [h.mem_fields record mem field]
  listed type marked := h.listed type (by simpa using marked)

theorem whole (h : Collects marks table) (type : String) :
    Collects (marks ++ [.whole type]) (changeRecord type TypeRecord.markWhole table) where
  distinct := nodup_changeRecord TypeRecord.markWhole_type h.distinct
  whole_iff record mem := by
    rcases mem_changeRecord h.distinct mem with ⟨mem, other⟩ | ⟨_, _, rfl, rfl⟩ | ⟨_, rfl⟩
    · simp [h.whole_iff record mem, other]
    · simp [TypeRecord.markWhole]
    · simp [TypeRecord.markWhole]
  mem_fields record mem field := by
    rcases mem_changeRecord h.distinct mem with ⟨mem, _⟩ | ⟨before, here, rfl, rfl⟩ | ⟨new, rfl⟩
    · simp [h.mem_fields record mem field]
    · simp [TypeRecord.markWhole, h.mem_fields before here field]
    · simp [TypeRecord.markWhole, (h.unmarked new).2 field]
  listed other marked := by
    rw [mem_types_changeRecord TypeRecord.markWhole_type]
    by_cases same : other = type
    · exact .inl same
    · exact .inr (h.listed other (by simpa [same] using marked))

theorem field (h : Collects marks table) (type field : String) :
    Collects (marks ++ [.field type field])
      (changeRecord type (TypeRecord.markField field) table) where
  distinct := nodup_changeRecord (TypeRecord.markField_type field) h.distinct
  whole_iff record mem := by
    rcases mem_changeRecord h.distinct mem with ⟨mem, _⟩ | ⟨before, here, rfl, rfl⟩ | ⟨new, rfl⟩
    · simp [h.whole_iff record mem]
    · simp [TypeRecord.markField, h.whole_iff before here]
    · simp [TypeRecord.markField, (h.unmarked new).1]
  mem_fields record mem name := by
    rcases mem_changeRecord h.distinct mem with ⟨mem, other⟩ | ⟨before, here, rfl, rfl⟩ | ⟨new, rfl⟩
    · simp [h.mem_fields record mem name, other]
    · simp [TypeRecord.markField, h.mem_fields before here name, or_comm]
    · simp [TypeRecord.markField, (h.unmarked new).2 name]
  listed other marked := by
    rw [mem_types_changeRecord (TypeRecord.markField_type field)]
    by_cases same : other = type
    · exact .inl same
    · exact .inr (h.listed other (by simpa [same] using marked))

/-- One more mark is noted. -/
theorem note (h : Collects marks table) (m : Mark) :
    Collects (marks ++ [m]) (noteMark table m) := by
  cases m with
  | identifier id => exact h.identifier id
  | whole type => exact h.whole type
  | field type field => exact h.field type field

theorem foldl (h : Collects marks table) (more : List Mark) :
    Collects (marks ++ more) (more.foldl noteMark table) := by
  induction more generalizing marks table with
  | nil => simpa using h
  | cons m more ih => simpa using ih (h.note m)

end Collects

/-- **The table of marks tells what is marked of types.** -/
theorem collects_collected (marks : List Mark) : Collects marks (collected marks) :=
  Collects.nil.foldl marks

theorem exists_of_mem_right {α β : Type} {R : α → β → Prop} {xs : List α} {ys : List β}
    (related : List.Forall₂ R xs ys) {y : β} (mem : y ∈ ys) : ∃ x ∈ xs, R x y := by
  induction related with
  | nil => cases mem
  | @cons x _ _ _ first _ ih =>
    rcases List.mem_cons.mp mem with rfl | mem
    · exact ⟨x, List.mem_cons_self, first⟩
    · obtain ⟨x', mem, here⟩ := ih mem
      exact ⟨x', List.mem_cons_of_mem x mem, here⟩

/-- What a table tells does not depend on its order. -/
theorem Rearranged.collects {marks : List Mark} {table other : List TypeRecord}
    (rearranged : Rearranged table other) (h : Collects marks table) : Collects marks other := by
  obtain ⟨between, perm, records⟩ := rearranged
  have types : other.map TypeRecord.type = between.map TypeRecord.type := by
    have same : List.Forall₂ Eq (between.map TypeRecord.type) (other.map TypeRecord.type) :=
      List.rel_map (fun _ _ rearranged => rearranged.type_eq.symm) records
    rw [List.forall₂_eq_eq_eq] at same
    exact same.symm
  have came (record : TypeRecord) (mem : record ∈ other) :
      ∃ before ∈ table, before.Rearranged record := by
    obtain ⟨before, mem, same⟩ := exists_of_mem_right records mem
    exact ⟨before, perm.mem_iff.mpr mem, same⟩
  refine ⟨?_, fun record mem => ?_, fun record mem field => ?_, fun type marked => ?_⟩
  · rw [types]
    exact (perm.map _).nodup_iff.mp h.distinct
  · obtain ⟨before, mem, same⟩ := came record mem
    rw [same.type_eq, same.whole_eq, h.whole_iff before mem]
  · obtain ⟨before, mem, same⟩ := came record mem
    rw [same.type_eq, same.fields_perm.mem_iff, h.mem_fields before mem]
  · rw [types]
    exact (perm.map _).mem_iff.mp (h.listed type marked)

/-! ## What a table stands for -/

/-- The types of a table that are used as a whole, in order. -/
def wholeRecords (table : List TypeRecord) : List String :=
  (table.filter TypeRecord.whole).map TypeRecord.type

/-- The identifiers of the fields in the other records, in order. -/
def plainRecords (table : List TypeRecord) : List String :=
  (table.filter fun record => !record.whole).flatMap fun record =>
    record.fields.map (fieldId record.type)

theorem Collects.mem_wholeRecords {marks : List Mark} {table : List TypeRecord}
    (h : Collects marks table) {type : String} :
    type ∈ wholeRecords table ↔ .whole type ∈ marks := by
  unfold wholeRecords
  simp only [List.mem_map, List.mem_filter]
  constructor
  · rintro ⟨record, ⟨mem, whole⟩, rfl⟩
    exact (h.whole_iff record mem).mp whole
  · intro marked
    obtain ⟨record, mem, rfl⟩ := List.mem_map.mp (h.listed type (.inl marked))
    exact ⟨record, ⟨mem, (h.whole_iff record mem).mpr marked⟩, rfl⟩

theorem Collects.mem_plainRecords {marks : List Mark} {table : List TypeRecord}
    (h : Collects marks table) {id : String} :
    id ∈ plainRecords table ↔ ∃ type field, .field type field ∈ marks ∧ .whole type ∉ marks ∧
      id = fieldId type field := by
  unfold plainRecords
  simp only [List.mem_flatMap, List.mem_filter, List.mem_map, Bool.not_eq_true']
  constructor
  · rintro ⟨record, ⟨mem, plain⟩, field, given, rfl⟩
    refine ⟨record.type, field, (h.mem_fields record mem field).mp given, fun marked => ?_, rfl⟩
    rw [(h.whole_iff record mem).mpr marked] at plain
    cases plain
  · rintro ⟨type, field, marked, plain, rfl⟩
    obtain ⟨record, mem, rfl⟩ := List.mem_map.mp (h.listed type (.inr ⟨field, marked⟩))
    rw [← h.whole_iff record mem, Bool.not_eq_true] at plain
    exact ⟨record, ⟨mem, plain⟩, field, (h.mem_fields record mem field).mpr marked, rfl⟩

theorem mem_markedIdentifiers {marks : List Mark} {id : String} :
    id ∈ markedIdentifiers marks ↔ .identifier id ∈ marks := by
  unfold markedIdentifiers
  rw [List.mem_filterMap]
  constructor
  · rintro ⟨m, mem, same⟩
    cases m <;> cases same
    exact mem
  · exact fun mem => ⟨_, mem, rfl⟩

/-- **Two expansions go side by side** if one of them holds some more identifiers. -/
inductive Beside (extra : String → Prop) :
    Except UsageError Expansion → Except UsageError Expansion → Prop where
  | ok {e e' : Expansion} (left : e.left = e'.left)
      (ids : ∀ id, id ∈ e.ids ↔ extra id ∨ id ∈ e'.ids) : Beside extra (.ok e) (.ok e')
  | error (error : UsageError) : Beside extra (.error error) (.error error)

namespace Beside

variable {extra : String → Prop} {e e' : Expansion}

theorem expand {left : List TypeDefinition} {ids ids' pending : List String}
    (same : ∀ id, id ∈ ids ↔ extra id ∨ id ∈ ids') :
    Beside extra (expandPending s left ids pending) (expandPending s left ids' pending) := by
  fun_induction expandPending s left ids pending generalizing ids' with
  | case1 left ids =>
    rw [expandPending]
    exact .ok rfl same
  | case2 left ids name pending gone ih =>
    rw [expandPending_gone gone]
    exact ih same
  | case3 left ids name pending t there _ error fails =>
    rw [expandPending_there there, fails]
    exact .error error
  | case4 left ids name pending t there _ fields ih =>
    simp only [List.unattach_filter, List.unattach_attach] at ih
    rw [expandPending_there there, fields]
    exact ih fun id => by rw [List.mem_append, List.mem_append, same, or_assoc]

theorem add (h : Beside extra (.ok e) (.ok e')) (name : String) :
    Beside extra (e.add s name) (e'.add s name) := by
  obtain ⟨left, ids⟩ := h
  unfold Expansion.add
  cases firstType s name with
  | error error => exact .error error
  | ok t =>
    rw [left]
    exact expand ids

/-- Records of types that are not used as a whole only add identifiers. -/
theorem foldlM (table : List TypeRecord) (h : Beside extra (.ok e) (.ok e')) :
    Beside (fun id => extra id ∨ id ∈ plainRecords table)
      (table.foldlM (Expansion.addRecord s) e)
      ((wholeRecords table).foldlM (Expansion.add s) e') := by
  -- A whole type is expanded on both sides, any other record adds to the first side only. What is
  -- left to expand stays the same on both, so the expansions fail together.
  induction table generalizing extra e e' with
  | nil =>
    cases h with
    | ok left ids => exact .ok left fun id => by simp [ids, plainRecords]
  | cons record table ih =>
    cases whole : record.whole with
    | true =>
      have split : wholeRecords (record :: table) = record.type :: wholeRecords table := by
        simp [wholeRecords, whole]
      have plain : plainRecords (record :: table) = plainRecords table := by
        simp [plainRecords, whole]
      have added : e.addRecord s record = e.add s record.type := by
        simp [Expansion.addRecord, whole]
      rw [split, plain, List.foldlM_cons, List.foldlM_cons, added]
      have step := h.add (s := s) record.type
      generalize e.add s record.type = r, e'.add s record.type = r' at step
      cases step with
      | ok left ids => exact ih (.ok left ids)
      | error error => exact .error error
    | false =>
      have split : wholeRecords (record :: table) = wholeRecords table := by
        simp [wholeRecords, whole]
      have plain : plainRecords (record :: table) =
          record.fields.map (fieldId record.type) ++ plainRecords table := by
        simp [plainRecords, whole]
      have added : e.addRecord s record =
          .ok { e with ids := e.ids ++ record.fields.map (fieldId record.type) } := by
        simp [Expansion.addRecord, whole]
      rw [split, plain, List.foldlM_cons, added]
      cases h with
      | ok left ids =>
        have more : Beside (fun id => extra id ∨ id ∈ record.fields.map (fieldId record.type))
            (.ok { e with ids := e.ids ++ record.fields.map (fieldId record.type) }) (.ok e') :=
          .ok left fun id => by rw [List.mem_append, ids, or_right_comm]
        have steps := ih more
        simp only [or_assoc, ← List.mem_append] at steps
        exact steps

end Beside

/-- A table stands for its fields and for what its whole types give. -/
theorem beside_resolveTable (ids : List String) (table : List TypeRecord) :
    (∃ e e', resolveTable s ids table = .ok e ∧ wholeIdentifiers s (wholeRecords table) = .ok e' ∧
        ∀ id, id ∈ e ↔ (id ∈ ids ∨ id ∈ plainRecords table) ∨ id ∈ e') ∨
      ∃ error, resolveTable s ids table = .error error ∧
        wholeIdentifiers s (wholeRecords table) = .error error := by
  have start : Beside (· ∈ ids) (.ok ⟨s.types, ids⟩) (.ok ⟨s.types, []⟩) :=
    .ok rfl fun id => by simp
  unfold resolveTable wholeIdentifiers
  have run := start.foldlM (s := s) table
  generalize table.foldlM (Expansion.addRecord s) ⟨s.types, ids⟩ = r,
    (wholeRecords table).foldlM (Expansion.add s) ⟨s.types, []⟩ = r' at run
  cases run with
  | ok left ids => exact .inl ⟨_, _, rfl, rfl, ids⟩
  | error error => exact .inr ⟨error, rfl, rfl⟩

/-- **A table stands for what its marks denote.** -/
theorem resolveTable_exact {marks : List Mark} {table : List TypeRecord}
    (collects : Collects marks table) :
    Exact (resolveTable s (markedIdentifiers marks) table) (ReachDefined s (· ∈ marks))
      (Denotes s (· ∈ marks)) := by
  have whole : Exact (wholeIdentifiers s (wholeRecords table)) (ReachDefined s (· ∈ marks))
      (GivenInReach s (· ∈ marks)) :=
    (wholeIdentifiers_exact (wholeRecords table)).congr
      (by simp [ReachDefined, InReach, collects.mem_wholeRecords])
      (fun _ id => by simp [GivenInReach, InReach, collects.mem_wholeRecords])
  rcases beside_resolveTable (s := s) (markedIdentifiers marks) table with
    ⟨ids, given, found, found', mem⟩ | ⟨error, failed, failed'⟩
  · have all : ReachDefined s (· ∈ marks) := whole.ok_iff.mp ⟨given, found'⟩
    rw [found]
    refine (Exact.ok fun id => ?_).congr (iff_of_true trivial all) fun _ _ => .rfl
    rw [mem, whole.mem_iff found', collects.mem_plainRecords, mem_markedIdentifiers, or_assoc]
    rfl
  · rw [failed]
    refine Exact.error error fun all => ?_
    obtain ⟨given, found⟩ := whole.ok_iff.mpr all
    cases found.symm.trans failed'

/-! ## Which type makes a table fail -/

/-- **The first record of a table that makes its expansion fail**: the type of the record is used as
a whole and fails by itself, and none of the whole types in front of it does. -/
def FailsFirst (s : Schema) (table : List TypeRecord) (e : UsageError) : Prop :=
  ∃ before record after, table = before ++ record :: after ∧
    (record.whole = true ∧ wholeIdentifiers s [record.type] = .error e) ∧
    ∀ other ∈ before, other.whole = true → ∃ ids, wholeIdentifiers s [other.type] = .ok ids

theorem findSome?_wholeRecords (f : String → Option UsageError) (table : List TypeRecord) :
    (wholeRecords table).findSome? f =
      table.findSome? fun record => if record.whole then f record.type else none := by
  induction table with
  | nil => rfl
  | cons record table ih =>
    rw [List.findSome?_cons, ← ih]
    cases whole : record.whole <;> simp [wholeRecords, whole, List.findSome?_cons]

theorem failure?_resolveTable (ids : List String) (table : List TypeRecord) :
    failure? (resolveTable s ids table) = (wholeRecords table).findSome? (ownFailure? s) := by
  rw [← failure?_wholeIdentifiers]
  rcases beside_resolveTable (s := s) ids table with
    ⟨e, e', found, found', -⟩ | ⟨error, failed, failed'⟩
  · rw [found, found']
    rfl
  · rw [failed, failed']

theorem resolveTable_eq_error {ids : List String} {table : List TypeRecord} {e : UsageError} :
    resolveTable s ids table = .error e ↔ FailsFirst s table e := by
  rw [← failure?_eq_some, failure?_resolveTable, findSome?_wholeRecords,
    List.findSome?_eq_some_iff]
  refine exists_congr fun before => exists_congr fun record => exists_congr fun after =>
    and_congr_right fun _ => and_congr ?_ (forall₂_congr fun other _ => ?_)
  · cases record.whole <;> simp [ownFailure?, failure?_eq_some]
  · cases other.whole <;> simp [ownFailure?, failure?_eq_none]

end SchemaUsage.Usage

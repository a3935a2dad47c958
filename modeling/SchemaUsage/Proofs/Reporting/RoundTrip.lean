import SchemaUsage.Reporting.Wire

/-!
# What is written is read again

About the encoding and decoding of `Report`, `ExecutionOutcome` and `OperationDefinition`. The JSON
forms of reports, outcomes and operations keep everything: what is read from the written form of a
value is the value. Numbers have to be words of 64 bits for that, as all numbers are that have been
read. A form that is read in another spelling (further members, `null` for what is absent, an array
of the fields) is settled when it has been written once.

* `RoundTrip` joins a writer and a reader, of whole JSON values and of fields that may be missing.
  The round trip of a record is put together from those of its fields.
* `InWords` says of a value that its numbers are words.

Results:
- `RoundTrip.optional`, `RoundTrip.nullable`: an absent value may be left out, or written as `null`.
- `RoundTrip.settled`: what has been read and written once stays as it is.
- `wire_round_trips`: both for reports, outcomes and operations.

Out of scope: texts that are no JSON, which `Json.Text` refuses, and the wording of errors.
-/

namespace SchemaUsage.Reporting

open SchemaUsage.Usage

/-! ## Writers and readers -/

/-- **A reader undoes a writer**: what fits is read from its written form, and all that is read
fits. -/
structure RoundTrip {α ω : Type} (write : α → ω) (read : ω → Option α) (Fits : α → Prop) :
    Prop where
  back : ∀ a, Fits a → read (write a) = some a
  inside : ∀ w a, read w = some a → Fits a

/-- Reads a JSON value and writes what has been read. -/
def reencode {α : Type} (write : α → Json) (read : Json → Option α) (j : Json) : Option Json :=
  (read j).map write

/-- **Reading settles what is written**: the JSON value that is written of what was read is read as
the same, and is written as it is. -/
def Settles {α : Type} (write : α → Json) (read : Json → Option α) : Prop :=
  ∀ j a, read j = some a → ∃ j', reencode write read j = some j' ∧ read j' = some a ∧
    reencode write read j' = some j'

theorem mapM_map_back {α ω : Type} {write : α → ω} {read : ω → Option α} {xs : List α}
    (back : ∀ x ∈ xs, read (write x) = some x) : (xs.map write).mapM read = some xs := by
  induction xs with
  | nil => rfl
  | cons x xs ih =>
    obtain ⟨first, others⟩ := List.forall_mem_cons.mp back
    rw [List.map_cons, List.mapM_cons, first, ih others]
    rfl

theorem exists_of_mem_mapM {α ω : Type} {read : ω → Option α} {items : List ω} {xs : List α}
    (found : items.mapM read = some xs) {x : α} (mem : x ∈ xs) :
    ∃ item ∈ items, read item = some x := by
  induction items generalizing xs with
  | nil =>
    cases found
    cases mem
  | cons item items ih =>
    rw [List.mapM_cons] at found
    obtain ⟨first, here, found⟩ := Option.bind_eq_some_iff.mp found
    obtain ⟨others, there, found⟩ := Option.bind_eq_some_iff.mp found
    cases found
    rcases List.mem_cons.mp mem with rfl | mem
    · exact ⟨item, List.mem_cons_self, here⟩
    · obtain ⟨item', mem', same⟩ := ih there mem
      exact ⟨item', List.mem_cons_of_mem item mem', same⟩

namespace RoundTrip

variable {α : Type} {write : α → Json} {read : Json → Option α} {Fits : α → Prop}

theorem settled (h : RoundTrip write read Fits) : Settles write read := by
  intro j a found
  have again : read (write a) = some a := h.back a (h.inside j a found)
  refine ⟨write a, ?_, again, ?_⟩
  · rw [reencode, found, Option.map_some]
  · rw [reencode, again, Option.map_some]

/-! ### Values -/

theorem text : RoundTrip .str Json.str? fun _ => True :=
  ⟨fun _ _ => rfl, fun _ _ _ => trivial⟩

theorem truth : RoundTrip .bool Json.bool? fun _ => True :=
  ⟨fun _ _ => rfl, fun _ _ _ => trivial⟩

theorem word : RoundTrip natJson Json.nat64? (· < Number.wordCount) where
  back n fits := by
    have range : (0 : Int) ≤ n ∧ (n : Int) < Number.wordCount := by omega
    rw [natJson, Json.nat64?, Json.natBelow?, if_pos range, Int.toNat_natCast]
  inside j n found := by
    unfold Json.nat64? Json.natBelow? at found
    split at found
    · obtain ⟨range, same⟩ := Option.ite_none_right_eq_some.mp found
      cases same
      omega
    · cases found

theorem list (h : RoundTrip write read Fits) :
    RoundTrip (listJson write) (listOf? read) fun xs => ∀ x ∈ xs, Fits x where
  back xs fits := mapM_map_back fun x mem => h.back x (fits x mem)
  inside j xs found x mem := by
    obtain ⟨items, -, found⟩ := Option.bind_eq_some_iff.mp found
    obtain ⟨item, -, same⟩ := exists_of_mem_mapM found mem
    exact h.inside item x same

/-! ### Fields -/

theorem required (h : RoundTrip write read Fits) :
    RoundTrip (fun a => some (write a)) (required read) Fits where
  back a fits := h.back a fits
  inside field a found := by
    obtain ⟨j, -, found⟩ := Option.bind_eq_some_iff.mp found
    exact h.inside j a found

theorem optional_of_ne_null {j : Json} (given : j ≠ .null) :
    Reporting.optional read (some j) = (read j).map some := by
  cases j with
  | null => exact absurd rfl given
  | _ => rfl

theorem inside_optional (h : RoundTrip write read Fits) (field : Option Json) (a : Option α)
    (found : Reporting.optional read field = some a) : ∀ x ∈ a, Fits x := by
  rintro x rfl
  unfold Reporting.optional at found
  split at found
  · cases found
  · cases found
  · obtain ⟨y, found, same⟩ := Option.map_eq_some_iff.mp found
    cases same
    exact h.inside _ x found

/-- An absent value is left out. A present one must not be written as `null`, or else it would be
taken for absent. -/
theorem optional (h : RoundTrip write read Fits) (given : ∀ a, write a ≠ .null) :
    RoundTrip (Option.map write) (Reporting.optional read) fun a => ∀ x ∈ a, Fits x where
  back
    | none, _ => rfl
    | some x, fits => by
      rw [Option.map_some, optional_of_ne_null (given x), h.back x (fits x rfl)]
      rfl
  inside := h.inside_optional

/-- An absent value is written as `null`. -/
theorem nullable (h : RoundTrip write read Fits) (given : ∀ a, write a ≠ .null) :
    RoundTrip (fun a : Option α => some (a.elim .null write)) (Reporting.optional read)
      fun a => ∀ x ∈ a, Fits x where
  back
    | none, _ => rfl
    | some x, fits => by
      rw [Option.elim_some, optional_of_ne_null (given x), h.back x (fits x rfl)]
      rfl
  inside := h.inside_optional

theorem orEmpty (h : RoundTrip write read Fits) :
    RoundTrip (fun xs => some (listJson write xs)) (orEmpty (listOf? read))
      fun xs => ∀ x ∈ xs, Fits x where
  back xs fits := h.list.back xs fits
  inside
    | none, xs, found => by
      cases found
      exact nofun
    | some j, xs, found => h.list.inside j xs found

end RoundTrip

/-! ## Written members -/

@[simp]
theorem lookup_optionalMember {α : Type} (name : String) (write : α → Json) (a : Option α)
    (key : String) :
    (optionalMember name write a).lookup key = if key = name then a.map write else none := by
  by_cases same : key = name
  · cases a <;> simp [optionalMember, same]
  · cases a <;> simp [optionalMember, List.lookup_cons, beq_eq_false_iff_ne.mpr same, same]

theorem ClientInfo.fieldsOf?_toJson (c : ClientInfo) :
    fieldsOf? ["name", "version"] c.toJson = some [c.name.map .str, c.version.map .str] := by
  simp [toJson, fieldsOf?, List.lookup_append]

theorem Metadata.fieldsOf?_toJson (m : Metadata) :
    fieldsOf? ["client"] m.toJson = some [m.client.map ClientInfo.toJson] := by
  simp [toJson, fieldsOf?]

theorem ExecutionError.fieldsOf?_toJson (e : ExecutionError) :
    fieldsOf? ["message", "path"] e.toJson = some [some (.str e.message), e.path.map .str] := by
  simp [toJson, fieldsOf?, List.lookup_cons]

theorem Execution.fieldsOf?_toJson (e : Execution) :
    fieldsOf? ["ok", "duration", "errorsTotal", "errors"] e.toJson =
      some [some (.bool e.ok), some (natJson e.duration), some (natJson e.errorsTotal),
        some (listJson ExecutionError.toJson e.errors)] := by
  simp [toJson, fieldsOf?, List.lookup_cons]

theorem ReportedOperation.fieldsOf?_toJson (r : ReportedOperation) :
    fieldsOf? ["operationMapKey", "timestamp", "execution", "metadata"] r.toJson =
      some [some (.str r.operationKey), some (natJson r.timestamp), some r.execution.toJson,
        r.metadata.map Metadata.toJson] := by
  simp [toJson, fieldsOf?, List.lookup_cons]

theorem MappedOperation.fieldsOf?_toJson (m : MappedOperation) :
    fieldsOf? ["operation", "operationName", "fields"] m.toJson =
      some [some (.str m.operation), m.operationName.map .str, some (listJson .str m.fields)] := by
  simp [toJson, fieldsOf?, List.lookup_cons, List.lookup_append]

theorem OutcomeError.fieldsOf?_toJson (e : OutcomeError) :
    fieldsOf? ["message", "path"] e.toJson =
      some [some (.str e.message), some (e.path.elim .null (listJson PathSegment.toJson))] := by
  cases path : e.path <;> simp [toJson, fieldsOf?, List.lookup_cons, path]

theorem Outcome.fieldsOf?_toJson (o : Outcome) :
    fieldsOf? ["ok", "errors"] o.toJson =
      some [some (.bool o.ok), some (listJson OutcomeError.toJson o.errors)] := by
  simp [toJson, fieldsOf?, List.lookup_cons]

theorem fieldsOf?_recordJson (r : UsageRecord) :
    fieldsOf? ["key", "operation", "operationName", "fields"] (recordJson r) =
      some [some (.str r.key), some (.str r.operation), r.operationName.map .str,
        some (listJson .str r.fields)] := by
  simp [recordJson, fieldsOf?, List.lookup_cons, List.lookup_append]

/-! ## Texts and operations -/

@[simp]
theorem optional_text (text : Option String) :
    optional Json.str? (text.map .str) = some text :=
  (RoundTrip.text.optional nofun).back text fun _ _ => trivial

@[simp]
theorem required_texts (texts : List String) :
    required (listOf? Json.str?) (some (listJson .str texts)) = some texts :=
  RoundTrip.text.list.back texts fun _ _ => trivial

@[simp]
theorem required_text (text : String) : required Json.str? (some (.str text)) = some text := rfl

theorem ClientInfo.roundTrip : RoundTrip toJson ofJson? fun _ => True where
  back c _ := by simp [ofJson?, fieldsOf?_toJson]
  inside _ _ _ := trivial

theorem Metadata.roundTrip : RoundTrip toJson ofJson? fun _ => True where
  back m _ := by
    have client := (ClientInfo.roundTrip.optional nofun).back m.client fun _ _ => trivial
    simp [ofJson?, fieldsOf?_toJson, client]
  inside _ _ _ := trivial

theorem MappedOperation.roundTrip : RoundTrip toJson ofJson? fun _ => True where
  back m _ := by simp [ofJson?, fieldsOf?_toJson]
  inside _ _ _ := trivial

theorem record_roundTrip : RoundTrip recordJson recordOfJson? fun _ => True where
  back r _ := by simp [recordOfJson?, fieldsOf?_recordJson]
  inside _ _ _ := trivial

/-! ## Executions and reports -/

theorem ExecutionError.roundTrip : RoundTrip toJson ofJson? fun _ => True where
  back e _ := by simp [ofJson?, fieldsOf?_toJson]
  inside _ _ _ := trivial

namespace Execution

/-- The numbers of an execution are words. -/
structure InWords (e : Execution) : Prop where
  duration : e.duration < Number.wordCount
  errorsTotal : e.errorsTotal < Number.wordCount

theorem ofJson?_eq_some {j : Json} {e : Execution} :
    ofJson? j = some e ↔ ∃ ok duration total errors,
      fieldsOf? ["ok", "duration", "errorsTotal", "errors"] j =
        some [ok, duration, total, errors] ∧
      required Json.bool? ok = some e.ok ∧
      required Json.nat64? duration = some e.duration ∧
      required Json.nat64? total = some e.errorsTotal ∧
      orEmpty (listOf? ExecutionError.ofJson?) errors = some e.errors := by
  constructor
  · intro found
    simp only [ofJson?, bind, Option.bind_eq_some_iff] at found
    obtain ⟨fields, given, found⟩ := found
    split at found
    · simp only [Option.bind_eq_some_iff, pure, Option.some.injEq] at found
      obtain ⟨_, ok, _, duration, _, total, _, errors, rfl⟩ := found
      exact ⟨_, _, _, _, given, ok, duration, total, errors⟩
    · cases found
  · rintro ⟨_, _, _, _, given, ok, duration, total, errors⟩
    simp [ofJson?, given, ok, duration, total, errors]

theorem roundTrip : RoundTrip toJson ofJson? InWords where
  back e fits := ofJson?_eq_some.mpr ⟨_, _, _, _, e.fieldsOf?_toJson,
    RoundTrip.truth.required.back e.ok trivial,
    RoundTrip.word.required.back e.duration fits.duration,
    RoundTrip.word.required.back e.errorsTotal fits.errorsTotal,
    ExecutionError.roundTrip.orEmpty.back e.errors fun _ _ => trivial⟩
  inside j e found := by
    obtain ⟨_, _, _, _, -, -, duration, total, -⟩ := ofJson?_eq_some.mp found
    exact ⟨RoundTrip.word.required.inside _ _ duration, RoundTrip.word.required.inside _ _ total⟩

end Execution

namespace ReportedOperation

/-- The numbers of a reported execution are words. -/
structure InWords (r : ReportedOperation) : Prop where
  timestamp : r.timestamp < Number.wordCount
  execution : r.execution.InWords

theorem ofJson?_eq_some {j : Json} {r : ReportedOperation} :
    ofJson? j = some r ↔ ∃ key timestamp execution metadata,
      fieldsOf? ["operationMapKey", "timestamp", "execution", "metadata"] j =
        some [key, timestamp, execution, metadata] ∧
      required Json.str? key = some r.operationKey ∧
      required Json.nat64? timestamp = some r.timestamp ∧
      required Execution.ofJson? execution = some r.execution ∧
      optional Metadata.ofJson? metadata = some r.metadata := by
  constructor
  · intro found
    simp only [ofJson?, bind, Option.bind_eq_some_iff] at found
    obtain ⟨fields, given, found⟩ := found
    split at found
    · simp only [Option.bind_eq_some_iff, pure, Option.some.injEq] at found
      obtain ⟨_, key, _, timestamp, _, execution, _, metadata, rfl⟩ := found
      exact ⟨_, _, _, _, given, key, timestamp, execution, metadata⟩
    · cases found
  · rintro ⟨_, _, _, _, given, key, timestamp, execution, metadata⟩
    simp [ofJson?, given, key, timestamp, execution, metadata]

theorem roundTrip : RoundTrip toJson ofJson? InWords where
  back r fits := ofJson?_eq_some.mpr ⟨_, _, _, _, r.fieldsOf?_toJson,
    RoundTrip.text.required.back r.operationKey trivial,
    RoundTrip.word.required.back r.timestamp fits.timestamp,
    Execution.roundTrip.required.back r.execution fits.execution,
    (Metadata.roundTrip.optional nofun).back r.metadata fun _ _ => trivial⟩
  inside j r found := by
    obtain ⟨_, _, _, _, -, -, timestamp, execution, -⟩ := ofJson?_eq_some.mp found
    exact ⟨RoundTrip.word.required.inside _ _ timestamp,
      Execution.roundTrip.required.inside _ _ execution⟩

end ReportedOperation

/-- The map of a report as JSON. -/
def mapJson (map : List (String × MappedOperation)) : Json :=
  .obj (map.map fun entry => (entry.1, entry.2.toJson))

theorem map_roundTrip : RoundTrip mapJson Report.mapOfJson? fun _ => True where
  back map _ := mapM_map_back fun entry _ => by
    rw [MappedOperation.roundTrip.back entry.2 trivial]
    rfl
  inside _ _ _ := trivial

namespace Report

/-- The numbers of a report are words. -/
structure InWords (r : Report) : Prop where
  size : r.size < Number.wordCount
  operations : ∀ operation ∈ r.operations, operation.InWords

theorem fieldsOf?_toJson (r : Report) :
    fieldsOf? ["size", "map", "operations"] r.toJson =
      some [some (natJson r.size), some (mapJson r.map),
        some (listJson ReportedOperation.toJson r.operations)] := by
  simp [toJson, fieldsOf?, List.lookup_cons, mapJson]

theorem ofJson?_eq_some {j : Json} {r : Report} :
    ofJson? j = some r ↔ ∃ size map operations,
      fieldsOf? ["size", "map", "operations"] j = some [size, map, operations] ∧
      required Json.nat64? size = some r.size ∧
      required mapOfJson? map = some r.map ∧
      required (listOf? ReportedOperation.ofJson?) operations = some r.operations := by
  constructor
  · intro found
    simp only [ofJson?, bind, Option.bind_eq_some_iff] at found
    obtain ⟨fields, given, found⟩ := found
    split at found
    · simp only [Option.bind_eq_some_iff, pure, Option.some.injEq] at found
      obtain ⟨_, size, _, map, _, operations, rfl⟩ := found
      exact ⟨_, _, _, given, size, map, operations⟩
    · cases found
  · rintro ⟨_, _, _, given, size, map, operations⟩
    simp [ofJson?, given, size, map, operations]

theorem roundTrip : RoundTrip toJson ofJson? InWords where
  back r fits := ofJson?_eq_some.mpr ⟨_, _, _, r.fieldsOf?_toJson,
    RoundTrip.word.required.back r.size fits.size, map_roundTrip.required.back r.map trivial,
    ReportedOperation.roundTrip.list.required.back r.operations fits.operations⟩
  inside j r found := by
    obtain ⟨_, _, _, -, size, -, operations⟩ := ofJson?_eq_some.mp found
    exact ⟨RoundTrip.word.required.inside _ _ size,
      ReportedOperation.roundTrip.list.required.inside _ _ operations⟩

end Report

/-! ## Outcomes -/

/-- The position of a path segment is a word. -/
def PathSegment.InWords : PathSegment → Prop
  | key _ => True
  | index position => position < Number.wordCount

theorem PathSegment.roundTrip : RoundTrip toJson ofJson? InWords where
  back
    | key name, _ => rfl
    | index position, fits => by
      have found : (natJson position).nat64? = some position := RoundTrip.word.back position fits
      show (natJson position).nat64?.map index = some (index position)
      rw [found, Option.map_some]
  inside j segment found := by
    unfold ofJson? at found
    split at found
    · cases found
      trivial
    · obtain ⟨position, number, rfl⟩ := Option.map_eq_some_iff.mp found
      exact RoundTrip.word.inside _ position number

namespace OutcomeError

/-- The positions in the path of an error are words. -/
def InWords (e : OutcomeError) : Prop :=
  ∀ segments ∈ e.path, ∀ segment ∈ segments, segment.InWords

theorem ofJson?_eq_some {j : Json} {e : OutcomeError} :
    ofJson? j = some e ↔ ∃ message path,
      fieldsOf? ["message", "path"] j = some [message, path] ∧
      required Json.str? message = some e.message ∧
      optional (listOf? PathSegment.ofJson?) path = some e.path := by
  constructor
  · intro found
    simp only [ofJson?, bind, Option.bind_eq_some_iff] at found
    obtain ⟨fields, given, found⟩ := found
    split at found
    · simp only [Option.bind_eq_some_iff, pure, Option.some.injEq] at found
      obtain ⟨_, message, _, path, rfl⟩ := found
      exact ⟨_, _, given, message, path⟩
    · cases found
  · rintro ⟨_, _, given, message, path⟩
    simp [ofJson?, given, message, path]

theorem roundTrip : RoundTrip toJson ofJson? InWords where
  back e fits := ofJson?_eq_some.mpr ⟨_, _, e.fieldsOf?_toJson,
    RoundTrip.text.required.back e.message trivial,
    (PathSegment.roundTrip.list.nullable nofun).back e.path fits⟩
  inside j e found := by
    obtain ⟨_, _, -, -, path⟩ := ofJson?_eq_some.mp found
    exact PathSegment.roundTrip.list.inside_optional _ _ path

end OutcomeError

namespace Outcome

/-- The positions in the paths of an outcome's errors are words. -/
def InWords (o : Outcome) : Prop := ∀ error ∈ o.errors, error.InWords

theorem ofJson?_eq_some {j : Json} {o : Outcome} :
    ofJson? j = some o ↔ ∃ ok errors, fieldsOf? ["ok", "errors"] j = some [ok, errors] ∧
      required Json.bool? ok = some o.ok ∧
      orEmpty (listOf? OutcomeError.ofJson?) errors = some o.errors := by
  constructor
  · intro found
    simp only [ofJson?, bind, Option.bind_eq_some_iff] at found
    obtain ⟨fields, given, found⟩ := found
    split at found
    · simp only [Option.bind_eq_some_iff, pure, Option.some.injEq] at found
      obtain ⟨_, ok, _, errors, rfl⟩ := found
      exact ⟨_, _, given, ok, errors⟩
    · cases found
  · rintro ⟨_, _, given, ok, errors⟩
    simp [ofJson?, given, ok, errors]

theorem roundTrip : RoundTrip toJson ofJson? InWords where
  back o fits := ofJson?_eq_some.mpr ⟨_, _, o.fieldsOf?_toJson,
    RoundTrip.truth.required.back o.ok trivial,
    OutcomeError.roundTrip.orEmpty.back o.errors fits⟩
  inside j o found := by
    obtain ⟨_, _, -, -, errors⟩ := ofJson?_eq_some.mp found
    exact OutcomeError.roundTrip.orEmpty.inside _ _ errors

end Outcome

/-! ## The wire forms -/

/-- **The wire forms keep everything.** A report, an outcome and the record of an operation are read
from their written forms, as long as their numbers are words. Hence any JSON value that is read as
one of them, however it spells it, is settled once it has been written again. -/
theorem wire_round_trips :
    (∀ r : Report, r.InWords → Report.ofJson? r.toJson = some r) ∧
    (∀ o : Outcome, o.InWords → Outcome.ofJson? o.toJson = some o) ∧
    (∀ r : UsageRecord, recordOfJson? (recordJson r) = some r) ∧
    Settles Report.toJson Report.ofJson? ∧ Settles Outcome.toJson Outcome.ofJson? ∧
    Settles recordJson recordOfJson? := by
  refine ⟨Report.roundTrip.back, Outcome.roundTrip.back, fun r => record_roundTrip.back r trivial,
    ?_, ?_, ?_⟩
  · exact Report.roundTrip.settled
  · exact Outcome.roundTrip.settled
  · exact record_roundTrip.settled

/-- A report on two executions: one without an operation name whose metadata names no client, and
one with errors whose client is empty. -/
def oddReport : Report where
  size := 2
  map := [("b", ⟨"\x7bb\x7d", none, []⟩), ("a", ⟨"query A\x7ba\x7d", some "A", ["Query.a"]⟩)]
  operations :=
    [⟨"b", 0, ⟨true, Number.wordCount - 1, 0, []⟩, some ⟨none⟩⟩,
      ⟨"a", 7, ⟨false, 3, 2, [⟨"late", none⟩, ⟨"odd", some "a.0"⟩]⟩, some ⟨some ⟨none, none⟩⟩⟩]

/-- An outcome as an array of its fields, with an error that has a further member. -/
def spelledOutcome : Json :=
  .arr [.bool false, .arr [.obj [("line", .int 1), ("message", .str "odd"),
    ("path", .arr [.str "a", .int 0])], .arr [.str "late", .null]]]

/-- The value of `spelledOutcome`. -/
def oddOutcome : Outcome := ⟨false, [⟨"odd", some [.key "a", .index 0]⟩, ⟨"late", none⟩]⟩

theorem wire_round_trips_odd :
    oddReport.InWords ∧ Report.ofJson? oddReport.toJson = some oddReport ∧
      Outcome.ofJson? spelledOutcome = some oddOutcome ∧
      ∃ j, reencode Outcome.toJson Outcome.ofJson? spelledOutcome = some j ∧
        Outcome.ofJson? j = some oddOutcome ∧
        reencode Outcome.toJson Outcome.ofJson? j = some j := by
  obtain ⟨report, -, -, -, outcome, -⟩ := wire_round_trips
  have words : oddReport.InWords := by
    refine ⟨by decide, List.forall_mem_cons.mpr ⟨?_, List.forall_mem_cons.mpr ⟨?_, nofun⟩⟩⟩
    · exact ⟨by decide, by decide, by decide⟩
    · exact ⟨by decide, by decide, by decide⟩
  have read : Outcome.ofJson? spelledOutcome = some oddOutcome := rfl
  exact ⟨words, report oddReport words, read, outcome spelledOutcome oddOutcome read⟩

end SchemaUsage.Reporting

import SchemaUsage.Proofs.Usage.Identifiers

/-!
# Which keys are reported

About `VariableStrategy::FromValues`. Where supplied values count, a key of an input object should
be in a usage only when an object that is written in the document has it, or an object that is
supplied for a variable. A variable that stands by itself keeps to this, as it uses nothing but what
its value gives. A variable that is an item of a list does not: the list uses the type of its items
as a whole, so every key within reach of this type is reported.

* `WrittenKey` and `SuppliedKey` are the two ways in which a key is asked for.
* `Structured` documents have objects, lists and variables at input objects, and nothing else.

Results:
- `whole_of_structured`: an input object is used as a whole only through a variable in a list.
- `reported_key`: a reported key is written, or supplied, or in reach of such an input object.
- `listed_variable_reports_all`: a key that is reported though it is neither written nor supplied.
-/

namespace SchemaUsage.Usage

open SchemaUsage.Graphql

variable {s : Schema} {doc : Document} {values : VariableValues}

/-! ## Keys -/

/-- **A key is written**: an object of the document has it where the input object stands. -/
def WrittenKey (s : Schema) (doc : Document) (u : TypeDefinition) (key : String) : Prop :=
  ∃ held members part, WrittenAt s doc u held (.object members) ∧ (key, part) ∈ members

/-- **A key is supplied**: an object in the value of a declared variable has it where the input
object stands. -/
def SuppliedKey (s : Schema) (values : VariableValues) (doc : Document) (u : TypeDefinition)
    (key : String) : Prop :=
  ∃ op v t members part, .operation op ∈ doc ∧ v ∈ op.variableList ∧
    s.firstType? v.type.innerName = some t ∧
    DataAt s t ((values.lookup v.name).getD .null) u (.obj members) ∧ (key, part) ∈ members

/-! ## Documents and schemas -/

/-- Objects, lists and variables. -/
def isStructure : Value → Bool
  | .object _ => true
  | .list _ => true
  | .var _ => true
  | _ => false

theorem isLiteral_eq_false {value : Value} (structured : isStructure value = true) :
    isLiteral value = false := by
  cases value <;> first | rfl | cases structured

/-- A variable is the only structure without parts. -/
theorem eq_var_of_leaf {value : Value} (structured : isStructure value = true)
    (leaf : isComposite value = false) : ∃ name, value = .var name := by
  cases value with
  | var name => exact ⟨name, rfl⟩
  | list => cases leaf
  | object => cases leaf
  | _ => cases structured

/-- What stands at an input object is an object, a variable, or a list. As the items of a list
stand at the same type, lists of such values may nest. -/
def Structured (s : Schema) (doc : Document) : Prop :=
  ∀ u held part, WrittenAt s doc u held part → u.kind = .inputObject → isStructure part = true

/-- No field of another type has an input object as its type. -/
def OutputsApart (s : Schema) : Prop :=
  ∀ t ∈ s.types, t.kind ≠ .inputObject → ∀ field name u, Declares t field name →
    s.firstType? name = some u → u.kind ≠ .inputObject

/-- Input objects are in reach of input objects only. -/
theorem reaches_apart (apart : OutputsApart s) {first last : String} {t u : TypeDefinition}
    (reaches : Reaches s first last) (type : s.firstType? first = some t)
    (kind : t.kind ≠ .inputObject) (type' : s.firstType? last = some u) :
    u.kind ≠ .inputObject := by
  induction reaches generalizing u with
  | refl =>
    rw [type] at type'
    cases type'
    exact kind
  | field _ between declared ih =>
    exact apart _ (Schema.firstType?_mem between).1 (ih between) _ _ _ declared type'

/-- An input object has no output fields. -/
theorem field?_inputObject {t : TypeDefinition} (kind : t.kind = .inputObject) (name : String) :
    t.field? name = none := by
  cases declared : t.field? name with
  | none => rfl
  | some field =>
    rcases TypeDefinition.kind_of_field? declared with other | other <;>
      cases kind.symm.trans other

/-! ## Types that are used as a whole -/

/-- **An input object is used as a whole** by a structured document only where an item of a list is
a variable. -/
theorem whole_of_structured (structured : Structured s doc) {start : String}
    (whole : Uses s (.fromValues values) doc (.whole start)) :
    ∃ t ∈ s.types, t.name = start ∧
      (t.kind = .inputObject → ∃ name, WrittenAt s doc t .item (.var name)) := by
  cases whole with
  | selection stands gives =>
    obtain ⟨_, same, -⟩ | ⟨t, held, part, written, gives⟩ := gives.cases_written stands
    · cases same
    cases gives with
    | literal literal =>
      refine ⟨t, written.mem_types, rfl, fun kind => ?_⟩
      rw [isLiteral_eq_false (structured _ _ _ written kind)] at literal
      cases literal
    | var unsupplied => cases unsupplied
    | item leaf =>
      refine ⟨t, written.mem_types, rfl, fun kind => ?_⟩
      obtain ⟨name, rfl⟩ := eq_var_of_leaf (structured _ _ _ written kind) leaf
      exact ⟨name, written⟩
    | foreign kind => exact ⟨t, written.mem_types, rfl, fun kind' => absurd kind' kind⟩
  | var definition declared gives =>
    obtain ⟨t, u, part, type, position, gives⟩ := gives
    cases gives with
    | whole kind =>
      have named := (reaches_of_dataAt type position).2
      exact ⟨u, (Schema.firstType?_mem named).1, rfl, fun kind' => absurd kind' kind⟩

/-- An input object in reach of what a structured document uses as a whole is in reach of one that
stands at a variable in a list. -/
theorem inReach_of_structured (distinct : (s.types.map TypeDefinition.name).Nodup)
    (apart : OutputsApart s) (structured : Structured s doc) {u : TypeDefinition}
    (mem : u ∈ s.types) (kind : u.kind = .inputObject)
    (within : InReach s (Uses s (.fromValues values) doc) u.name) :
    ∃ v name, WrittenAt s doc v .item (.var name) ∧ v.kind = .inputObject ∧
      Reaches s v.name u.name := by
  obtain ⟨start, whole, reaches⟩ := within
  obtain ⟨v, mem', rfl, listed⟩ := whole_of_structured structured whole
  have kind' : v.kind = .inputObject := by
    by_contra other
    exact reaches_apart apart reaches (firstType?_of_mem distinct mem') other
      (firstType?_of_mem distinct mem) kind
  obtain ⟨name, written⟩ := listed kind'
  exact ⟨v, name, written, kind', reaches⟩

/-! ## Reported keys -/

section Reported

variable (distinct : (s.types.map TypeDefinition.name).Nodup)
  (undotted : ∀ t ∈ s.types, Undotted t.name) {u : TypeDefinition} (mem : u ∈ s.types)
  (kind : u.kind = .inputObject) {key : String}

include distinct undotted mem

/-- An identifier of a field tells the type of the schema and the field. -/
theorem eq_of_fieldId {t : TypeDefinition} {field : String} (mem' : t ∈ s.types)
    (same : fieldId u.name key = fieldId t.name field) : t = u ∧ field = key := by
  obtain ⟨types, fields⟩ := fieldId_inj (undotted u mem) (undotted t mem') same
  exact ⟨eq_of_name distinct mem' mem types.symm, fields.symm⟩

/-- A key that a type gives by itself is one of the input object. -/
theorem eq_of_contributes {t : TypeDefinition} (mem' : t ∈ s.types)
    (given : Contributes t (fieldId u.name key)) : t = u := by
  generalize same : fieldId u.name key = id at given
  cases given with
  | scalar => exact absurd (same ▸ undotted t mem') (not_undotted_fieldId _ _)
  | value => exact (eq_of_fieldId distinct undotted mem mem' same).1
  | field => exact (eq_of_fieldId distinct undotted mem mem' same).1

include kind

/-- Selections do not name keys of input objects. -/
theorem not_gives_key {strategy : Strategy} (resolves : Resolves s strategy doc)
    (ordinary : key ≠ "__typename") {t : TypeDefinition} {sel : Selection}
    (stands : Stands s doc t sel) : ¬ Gives t sel (fieldId u.name key) := by
  intro gives
  have fits := resolves.selections t sel stands
  generalize same : fieldId u.name key = id at gives
  cases gives with
  | field ordinary' =>
    obtain ⟨rfl, -⟩ := eq_of_fieldId distinct undotted mem stands.mem_types same
    obtain ⟨field, declared, -⟩ := fits ordinary'
    rw [field?_inputObject kind] at declared
    cases declared
  | argument ordinary' _ =>
    rw [argumentId_eq] at same
    obtain ⟨rfl, -⟩ := eq_of_fieldId distinct undotted mem stands.mem_types same
    obtain ⟨field, declared, -⟩ := fits ordinary'
    rw [field?_inputObject kind] at declared
    cases declared
  | typename =>
    obtain ⟨-, rfl⟩ := eq_of_fieldId distinct undotted mem stands.mem_types same
    exact ordinary rfl

/-- A key that is used by itself is written or supplied. -/
theorem key_of_uses (structured : Structured s doc) {type field : String}
    (used : Uses s (.fromValues values) doc (.field type field))
    (same : fieldId u.name key = fieldId type field) :
    WrittenKey s doc u key ∨ SuppliedKey s values doc u key := by
  cases used with
  | selection stands gives =>
    obtain ⟨_, other, -⟩ | ⟨t, held, part, written, gives⟩ := gives.cases_written stands
    · cases other
    cases gives with
    | enum =>
      obtain ⟨rfl, -⟩ := eq_of_fieldId distinct undotted mem written.mem_types same
      cases structured _ _ _ written kind
    | key _ given =>
      obtain ⟨rfl, rfl⟩ := eq_of_fieldId distinct undotted mem written.mem_types same
      exact .inl ⟨held, _, _, written, given⟩
  | var definition declared gives =>
    obtain ⟨t, t', part, type, position, gives⟩ := gives
    have mem' : t' ∈ s.types := (Schema.firstType?_mem (reaches_of_dataAt type position).2).1
    cases gives with
    | key _ given _ =>
      obtain ⟨rfl, rfl⟩ := eq_of_fieldId distinct undotted mem mem' same
      exact .inr ⟨_, _, t, _, _, definition, declared, type, position, given⟩

/-- **Which keys are reported.** Where supplied values count, a key of an input object is in the
usage of a structured document only when it is written, or supplied, or when the input object is in
reach of one at which a list has a variable for an item. -/
theorem reported_key (apart : OutputsApart s) (structured : Structured s doc) {ids : List String}
    (found : usage s (.fromValues values) doc = .ok ids) (ordinary : key ≠ "__typename")
    (reported : fieldId u.name key ∈ ids) :
    WrittenKey s doc u key ∨ SuppliedKey s values doc u key ∨
      ∃ v name, WrittenAt s doc v .item (.var name) ∧ v.kind = .inputObject ∧
        Reaches s v.name u.name := by
  have meaning : Exact (usage s (.fromValues values) doc) _ _ := usage_exact doc
  obtain ⟨resolves, -⟩ := meaning.ok_iff.mp ⟨ids, found⟩
  rcases (meaning.mem_iff found _).mp reported with
    used | ⟨type, field, used, -, same⟩ | ⟨name, t, within, type, given⟩
  · cases used with
    | selection stands gives =>
      obtain ⟨id, same, named⟩ | ⟨_, _, _, _, gives⟩ := gives.cases_written stands
      · cases same
        exact absurd named (not_gives_key distinct undotted mem kind resolves ordinary stands)
      · cases gives
    | var definition declared gives =>
      obtain ⟨t, t', part, type, position, gives⟩ := gives
      have mem' : t' ∈ s.types := (Schema.firstType?_mem (reaches_of_dataAt type position).2).1
      generalize same : fieldId u.name key = id at gives
      cases gives with
      | missing => exact absurd (same ▸ undotted t' mem') (not_undotted_fieldId _ _)
  · rcases key_of_uses distinct undotted mem kind structured used same with written | supplied
    · exact .inl written
    · exact .inr (.inl supplied)
  · obtain ⟨mem', rfl⟩ := Schema.firstType?_mem type
    obtain rfl := eq_of_contributes distinct undotted mem mem' given
    exact .inr (.inr (inReach_of_structured distinct apart structured mem kind within))

end Reported

/-! ## A variable in a list -/

/-- An input object with two keys. -/
def pairInput : TypeDefinition :=
  ⟨none, "F", [], .inputObject [⟨none, "x", .named "Int", none, []⟩,
    ⟨none, "y", .named "Int", none, []⟩]⟩

/-- A field that takes a list of pairs. -/
def pairField : FieldDefinition :=
  ⟨none, "a", [⟨none, "fs", .list (.named "F"), none, []⟩], .named "Int", []⟩

/-- The schema of `listedDocument`. -/
def pairSchema : Schema :=
  [.type ⟨none, "Query", [], .object [] [pairField]⟩, .type pairInput,
    .type ⟨none, "Int", [], .scalar⟩]

/-- The query `query q($f: F) { a(fs: [$f]) }`. -/
def listedDocument : Document :=
  [.operation (.full .query (some "q") [⟨"f", .named "F", none⟩] []
    [.field none "a" [("fs", .list [.var "f"])] [] []])]

/-- The value of the variable has one of the two keys. -/
def listedValues : VariableValues := [("f", .obj [("x", .int 1)])]

/-- The marks of `listedDocument`: what its value gives, then what its selection gives. -/
def listedMarks : List Mark :=
  [.field "F" "x", .whole "Int", .identifier "Query.a", .identifier "Query.a.fs", .whole "F"]

/-- The usage of `listedDocument`, with both keys. -/
def listedUsage : List String := ["F.x", "F.y", "Int", "Query.a", "Query.a.fs"]

theorem usage_listedDocument :
    usage pairSchema (.fromValues listedValues) listedDocument = .ok listedUsage :=
  usage_eq_ok.mpr ⟨listedMarks, _, rfl, by cbv,
    (ascending_eq (by decide) (by decide) (by decide)).symm⟩

/-- What stands in the argument of `listedDocument`. -/
theorem writtenAt_listedDocument {u : TypeDefinition} {held : Held} {part : Value}
    (written : WrittenAt pairSchema listedDocument u held part) :
    part = .list [.var "f"] ∨ part = .var "f" := by
  obtain ⟨stands, _, _, given, _, _, position⟩ := written
  cases stands.eq_of_single rfl
  cases List.mem_singleton.mp given
  induction position with
  | whole => exact .inl rfl
  | item _ mem ih =>
    rcases ih with same | same
    · cases same
      exact .inr (List.mem_singleton.mp mem)
    · cases same
  | member _ _ _ _ _ ih => rcases ih with same | same <;> cases same

theorem structured_listedDocument : Structured pairSchema listedDocument := by
  intro u held part written _
  rcases writtenAt_listedDocument written with rfl | rfl <;> rfl

theorem outputsApart_pairSchema : OutputsApart pairSchema := by
  intro t mem kind field name u declared type
  change t ∈ [_, _, _] at mem
  rcases List.mem_cons.mp mem with rfl | mem
  · cases declared with
    | object body given =>
      cases body
      cases List.mem_singleton.mp given
      cases type
      nofun
    | inputObject body => cases body
    | interface body => cases body
  rcases List.mem_pair.mp mem with rfl | rfl
  · exact absurd rfl kind
  · rcases declared with ⟨body, _⟩ | ⟨body, _⟩ | ⟨body, _⟩ <;> cases body

theorem pairInput_mem : pairInput ∈ pairSchema.types :=
  List.mem_cons_of_mem _ List.mem_cons_self

/-- What stands in the value of the variable. -/
theorem dataAt_listedValues {t u : TypeDefinition} {part : Json}
    (position : DataAt pairSchema t (.obj [("x", .int 1)]) u part) :
    part = .obj [("x", .int 1)] ∨ part = .int 1 := by
  induction position with
  | whole => exact .inl rfl
  | item _ _ ih => rcases ih with same | same <;> cases same
  | member _ _ mem _ _ ih =>
    rcases ih with same | same
    · cases same
      cases List.mem_singleton.mp mem
      exact .inr rfl
    · cases same

theorem reported_key_listedDocument :
    WrittenKey pairSchema listedDocument pairInput "y" ∨
      SuppliedKey pairSchema listedValues listedDocument pairInput "y" ∨
      ∃ v name, WrittenAt pairSchema listedDocument v .item (.var name) ∧
        v.kind = .inputObject ∧ Reaches pairSchema v.name "F" :=
  reported_key (by decide) (by decide) pairInput_mem rfl outputsApart_pairSchema
    structured_listedDocument usage_listedDocument (by decide) (by decide)

/-- **A key that is neither written nor supplied** is reported, though nothing but a variable
stands at its input object. -/
theorem listed_variable_reports_all :
    usage pairSchema (.fromValues listedValues) listedDocument = .ok listedUsage ∧
      fieldId "F" "y" ∈ listedUsage ∧ Structured pairSchema listedDocument ∧
      ¬ WrittenKey pairSchema listedDocument pairInput "y" ∧
      ¬ SuppliedKey pairSchema listedValues listedDocument pairInput "y" := by
  refine ⟨usage_listedDocument, by decide, structured_listedDocument, ?_, ?_⟩
  · rintro ⟨held, members, part, written, -⟩
    rcases writtenAt_listedDocument written with same | same <;> cases same
  · rintro ⟨op, v, t, members, part, definition, declared, -, position, given⟩
    cases List.mem_singleton.mp definition
    cases List.mem_singleton.mp declared
    rcases dataAt_listedValues position with same | same
    · cases same
      simp at given
    · cases same

end SchemaUsage.Usage

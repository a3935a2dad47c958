import SchemaUsage.Proofs.Usage.Pruning

/-!
# What the identifiers of a usage are

About what `collect_schema_usage` returns. Identifiers get into a usage on several ways: the walk
names fields, arguments and type names, values and literals record fields of their types, and types
that are used as a whole are expanded. On each way what an identifier is made of has been looked up
in the schema, with one exception: an enum literal is taken as it is written.

* `Identifies` lists what an identifier of a usage can be.
* Names hold no dots, so the first dot of an identifier ends the name of its type.

Results:
- `fieldId_inj`: an identifier of a field tells the type and the field.
- `denotes_identifies`: whatever a document denotes is made of declared names and enum literals.
- `usage_identifies`: a usage is in strict order, holds nothing else, and no bare name of an enum.
-/

namespace SchemaUsage.Usage

open SchemaUsage.Graphql

variable {s : Schema} {strategy : Strategy} {doc : Document}

/-! ## Dots -/

/-- A name without dots, as all names in texts are. -/
def Undotted (name : String) : Prop := '.' ∉ name.toList

instance (name : String) : Decidable (Undotted name) := inferInstanceAs (Decidable (¬ _))

theorem toList_fieldId (type field : String) :
    (fieldId type field).toList = type.toList ++ '.' :: field.toList := by
  simp [fieldId, String.toList_append]

theorem argumentId_eq (type field argument : String) :
    argumentId type field argument = fieldId type (fieldId field argument) := by
  simp [argumentId, fieldId, String.append_assoc]

theorem not_undotted_fieldId (type field : String) : ¬ Undotted (fieldId type field) := by
  simp [Undotted, toList_fieldId]

theorem takeWhile_fieldId {type : String} (undotted : Undotted type) (field : String) :
    (fieldId type field).toList.takeWhile (· != '.') = type.toList := by
  have before : ∀ c ∈ type.toList, (c != '.') = true := fun c mem =>
    bne_iff_ne.mpr fun same => undotted (same ▸ mem)
  rw [toList_fieldId, List.takeWhile_append_of_pos before]
  simp

/-- Identifiers of fields tell the type and the field. -/
theorem fieldId_inj {type other field field' : String} (undotted : Undotted type)
    (undotted' : Undotted other) (same : fieldId type field = fieldId other field') :
    type = other ∧ field = field' := by
  have types : type = other := String.toList_injective <| by
    rw [← takeWhile_fieldId undotted field, same, takeWhile_fieldId undotted']
  subst types
  exact ⟨rfl, identifier_injective_right same⟩

/-! ## What identifiers can be -/

/-- **What an identifier of a usage can be**: the bare name of a scalar or, where supplied values
count, of an input object; the name of a type's name; a declared field, a declared argument or a
declared enum value; or an enum literal under the type at which it is written. -/
inductive Identifies (s : Schema) (strategy : Strategy) (doc : Document) : String → Prop where
  | scalar {t : TypeDefinition} (mem : t ∈ s.types) (kind : t.kind = .scalar) :
      Identifies s strategy doc t.name
  | inputObject {t : TypeDefinition} (prunes : strategy.prunes = true) (mem : t ∈ s.types)
      (kind : t.kind = .inputObject) : Identifies s strategy doc t.name
  | typename {t : TypeDefinition} (mem : t ∈ s.types) :
      Identifies s strategy doc (fieldId t.name "__typename")
  | field {t : TypeDefinition} {field type : String} (mem : t ∈ s.types)
      (declared : Declares t field type) : Identifies s strategy doc (fieldId t.name field)
  | argument {t : TypeDefinition} {field : FieldDefinition} {argument : InputValue}
      (mem : t ∈ s.types) (declared : field ∈ t.outputFields) (given : argument ∈ field.arguments) :
      Identifies s strategy doc (argumentId t.name field.name argument.name)
  | value {t : TypeDefinition} {values : List EnumValue} {v : EnumValue} (mem : t ∈ s.types)
      (body : t.body = .enum values) (declared : v ∈ values) :
      Identifies s strategy doc (fieldId t.name v.name)
  | literal {t : TypeDefinition} {held : Held} {name : String}
      (written : WrittenAt s doc t held (.enum name)) :
      Identifies s strategy doc (fieldId t.name name)

theorem declares_of_field? {t : TypeDefinition} {name : String} {field : FieldDefinition}
    (declared : t.field? name = some field) : Declares t name field.type.innerName := by
  rw [← field?_name declared]
  unfold TypeDefinition.field? TypeDefinition.outputFields at declared
  have mem := List.mem_of_find?_eq_some declared
  split at mem
  · rename_i body
    exact .object body mem
  · rename_i body
    exact .interface body mem
  · cases mem

theorem argument?_name {field : FieldDefinition} {name : String} {argument : InputValue}
    (declared : field.argument? name = some argument) : argument.name = name := by
  simpa using List.find?_some declared

/-- What a selection names is declared, for a document that resolves. -/
theorem gives_identifies (resolves : Resolves s strategy doc) {t : TypeDefinition}
    {sel : Selection} {id : String} (stands : Stands s doc t sel) (gives : Gives t sel id) :
    Identifies s strategy doc id := by
  have fits := resolves.selections t sel stands
  cases gives with
  | field ordinary =>
    obtain ⟨field, declared, -⟩ := fits ordinary
    exact .field stands.mem_types (declares_of_field? declared)
  | argument ordinary given =>
    obtain ⟨field, declared, arguments, -⟩ := fits ordinary
    obtain ⟨argument, _, given, -⟩ := arguments _ given
    dsimp only at given
    obtain rfl := field?_name declared
    obtain rfl := argument?_name given
    exact .argument stands.mem_types (List.mem_of_find?_eq_some declared)
      (List.mem_of_find?_eq_some given)
  | typename => exact .typename stands.mem_types

theorem contributes_identifies {t : TypeDefinition} (mem : t ∈ s.types) {id : String}
    (given : Contributes t id) : Identifies s strategy doc id := by
  cases given with
  | scalar body => exact .scalar mem (by rw [TypeDefinition.kind, body]; rfl)
  | value body declared => exact .value mem body declared
  | field declared => exact .field mem declared

/-- What a mark stands for by itself is made of declared names and enum literals. -/
def MarkIdentifies (s : Schema) (strategy : Strategy) (doc : Document) : Mark → Prop
  | .identifier id => Identifies s strategy doc id
  | .whole _ => True
  | .field type field => Identifies s strategy doc (fieldId type field)

theorem valueGives_identifies (resolves : Resolves s strategy doc) {u : TypeDefinition}
    {held : Held} {part : Value} {m : Mark} (written : WrittenAt s doc u held part)
    (gives : ValueGives strategy u held part m) : MarkIdentifies s strategy doc m := by
  cases gives with
  | enum => exact .literal written
  | literal => trivial
  | var => trivial
  | item => trivial
  | foreign => trivial
  | key kind mem =>
    obtain ⟨_, _, declared, -⟩ := written.fits resolves _ _ _ rfl kind mem
    exact .field written.mem_types (declares_of_inputField? declared)

theorem variableGives_identifies {v : VariableDefinition} {m : Mark}
    (gives : VariableGives s strategy v m) : MarkIdentifies s strategy doc m := by
  cases strategy with
  | wholeTypes =>
    cases gives
    trivial
  | fromValues values =>
    obtain ⟨t, u, part, type, position, gives⟩ := gives
    have mem : u ∈ s.types := (Schema.firstType?_mem (reaches_of_dataAt type position).2).1
    cases gives with
    | key kind _ declared => exact .field mem (declares_of_inputField? declared)
    | missing kind => exact .inputObject rfl mem kind
    | whole => trivial

theorem uses_identifies (resolves : Resolves s strategy doc) {m : Mark}
    (used : Uses s strategy doc m) : MarkIdentifies s strategy doc m := by
  cases used with
  | selection stands gives =>
    obtain ⟨id, rfl, named⟩ | ⟨u, held, part, written, gives⟩ := gives.cases_written stands
    · exact gives_identifies resolves stands named
    · exact valueGives_identifies resolves written gives
  | var definition declared gives => exact variableGives_identifies gives

/-- **What a document denotes** is made of declared names and enum literals. -/
theorem denotes_identifies (resolves : Resolves s strategy doc) {id : String}
    (denotes : Denotes s (Uses s strategy doc) id) : Identifies s strategy doc id := by
  rcases denotes with used | ⟨type, field, used, -, rfl⟩ | ⟨name, t, -, type, given⟩
  · exact uses_identifies resolves used
  · exact uses_identifies resolves used
  · exact contributes_identifies (Schema.firstType?_mem type).1 given

/-! ## Bare names -/

/-- An identifier without dots is the name of a scalar or of an input object. -/
theorem Identifies.bare {id : String} (identifies : Identifies s strategy doc id)
    (undotted : Undotted id) :
    ∃ t ∈ s.types, id = t.name ∧ (t.kind = .scalar ∨ t.kind = .inputObject) := by
  cases identifies with
  | scalar mem kind => exact ⟨_, mem, rfl, .inl kind⟩
  | inputObject _ mem kind => exact ⟨_, mem, rfl, .inr kind⟩
  | argument =>
    rw [argumentId_eq] at undotted
    exact absurd undotted (not_undotted_fieldId _ _)
  | _ => exact absurd undotted (not_undotted_fieldId _ _)

/-- The type of a name is the only one where names are distinct. -/
theorem eq_of_name (distinct : (s.types.map TypeDefinition.name).Nodup) {t u : TypeDefinition}
    (mem : t ∈ s.types) (mem' : u ∈ s.types) (same : t.name = u.name) : t = u :=
  List.inj_on_of_nodup_map distinct mem mem' same

/-- **The identifiers of a usage** are in strictly ascending order. Each is the bare name of a
scalar or, where supplied values count, of an input object, the name of a type's name, a declared
field, argument or enum value, or an enum literal under the type at which it is written. The bare
name of an enum is not among them. -/
theorem usage_identifies (distinct : (s.types.map TypeDefinition.name).Nodup) {ids : List String}
    (found : usage s strategy doc = .ok ids) :
    ids.Pairwise (· < ·) ∧ (∀ id ∈ ids, Identifies s strategy doc id) ∧
      ∀ t ∈ s.types, t.kind = .enum → Undotted t.name → t.name ∉ ids := by
  have meaning : Exact (usage s strategy doc) _ _ := usage_exact doc
  obtain ⟨resolves, -⟩ := meaning.ok_iff.mp ⟨ids, found⟩
  have identified (id : String) (mem : id ∈ ids) : Identifies s strategy doc id :=
    denotes_identifies resolves ((meaning.mem_iff found id).mp mem)
  refine ⟨pairwise_usage found, identified, fun t mem kind undotted reported => ?_⟩
  obtain ⟨u, mem', same, kind'⟩ := (identified _ reported).bare undotted
  obtain rfl := eq_of_name distinct mem mem' same
  rcases kind' with kind' | kind' <;> cases kind.symm.trans kind'

/-- The marks of `sideDocument` with no value for its variable. -/
def sidePrunedMarks : List Mark :=
  [.identifier "Filter", .identifier "Query.hero", .identifier "Query.hero.filter",
    .identifier "Query.hero.side", .field "Side" "DARK"]

/-- With no value for its variable, `sideDocument` uses the bare name of the variable's type. -/
def sidePruned : List String :=
  ["Filter", "Query.hero", "Query.hero.filter", "Query.hero.side", "Side.DARK"]

theorem usage_identifies_sideDocument :
    usage sideSchema (.fromValues []) sideDocument = .ok sidePruned ∧
      sidePruned.Pairwise (· < ·) ∧
      (∀ id ∈ sidePruned, Identifies sideSchema (.fromValues []) sideDocument id) ∧
      "Side" ∉ sidePruned := by
  have found : usage sideSchema (.fromValues []) sideDocument = .ok sidePruned :=
    usage_eq_ok.mpr ⟨sidePrunedMarks, _, rfl, by cbv,
      (ascending_eq (by decide) (by decide) (by decide)).symm⟩
  obtain ⟨order, identified, bare⟩ := usage_identifies (by decide) found
  have mem : sideEnum ∈ sideSchema.types := by simp [sideSchema, Schema.types, SchemaItem.type?]
  exact ⟨found, order, identified, bare sideEnum mem rfl (by decide)⟩

end SchemaUsage.Usage

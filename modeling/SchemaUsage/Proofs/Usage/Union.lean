import SchemaUsage.Proofs.Usage.Pruning

/-!
# The usage of a document by its definitions

About the loop of `collect_schema_usage` over definitions. A document uses what its definitions use,
so two documents together use what each of them uses. A type that one of them marks as a whole hides
the fields that the other one records of it. Nothing is lost by that, since recorded fields are
declared and a whole type contributes all of its declared fields; and what two sets of types reach
together is what each of them reaches.

Results:
- `resolves_append`, `uses_append`: documents put together resolve and use as their parts do.
- `denotes_or`: what marks of two sets denote together.
- `usage_append`: the usage of two documents put together.
-/

namespace SchemaUsage.Usage

open SchemaUsage.Graphql

variable {s : Schema} {strategy : Strategy} {doc other : Document}

/-! ## Definitions -/

theorem resolves_append :
    Resolves s strategy (doc ++ other) ↔ Resolves s strategy doc ∧ Resolves s strategy other := by
  rw [resolves_iff, resolves_iff, resolves_iff, List.forall_mem_append]

theorem uses_append :
    Uses s strategy (doc ++ other) =
      fun m => Uses s strategy doc m ∨ Uses s strategy other m := by
  funext m
  simp only [uses_iff, List.mem_append, or_and_right, exists_or]

/-! ## Marks of two sets -/

section Marks

variable {first second : Mark → Prop}

theorem inReach_or {name : String} :
    InReach s (fun m => first m ∨ second m) name ↔
      InReach s first name ∨ InReach s second name := by
  simp only [InReach, or_and_right, exists_or]

theorem reachDefined_or :
    ReachDefined s (fun m => first m ∨ second m) ↔
      ReachDefined s first ∧ ReachDefined s second := by
  simp only [ReachDefined, inReach_or, or_imp, forall_and]

theorem givenInReach_or {id : String} :
    GivenInReach s (fun m => first m ∨ second m) id ↔
      GivenInReach s first id ∨ GivenInReach s second id := by
  simp only [GivenInReach, inReach_or, or_and_right, exists_or]

/-- **Marks of two sets denote together what each set denotes**, if no whole type of one set can
hide a field of the other. -/
theorem denotes_or (contributed : FieldsContributed s first)
    (contributed' : FieldsContributed s second) {id : String} :
    Denotes s (fun m => first m ∨ second m) id ↔ Denotes s first id ∨ Denotes s second id := by
  have both : FieldsContributed s fun m => first m ∨ second m := fun type field marked =>
    marked.elim (contributed type field) (contributed' type field)
  rw [denotes_iff both, denotes_iff contributed, denotes_iff contributed', givenInReach_or]
  simp only [or_and_right, exists_or, or_assoc, or_left_comm]

end Marks

/-! ## Usages -/

/-- **The usage of two documents put together** is there when both have one, and it holds what one
of these holds, in ascending order without repetitions. -/
theorem usage_append (distinct : (s.types.map TypeDefinition.name).Nodup)
    (enums : EnumsDeclared s doc) (enums' : EnumsDeclared s other) :
    ((∃ all, usage s strategy (doc ++ other) = .ok all) ↔
      (∃ ids, usage s strategy doc = .ok ids) ∧ ∃ ids, usage s strategy other = .ok ids) ∧
    ∀ all ids ids', usage s strategy (doc ++ other) = .ok all → usage s strategy doc = .ok ids →
      usage s strategy other = .ok ids' →
      all.Pairwise (· < ·) ∧ ∀ id, id ∈ all ↔ id ∈ ids ∨ id ∈ ids' := by
  have together : Exact (usage s strategy (doc ++ other)) _ _ := usage_exact (doc ++ other)
  have left : Exact (usage s strategy doc) _ _ := usage_exact doc
  have right : Exact (usage s strategy other) _ _ := usage_exact other
  rw [resolves_append, uses_append, reachDefined_or] at together
  refine ⟨?_, fun all ids ids' found found' found'' => ⟨pairwise_usage found, fun id => ?_⟩⟩
  · rw [together.ok_iff, left.ok_iff, right.ok_iff, and_and_and_comm]
  · have contributed := fieldsContributed_uses distinct enums (left.ok_iff.mp ⟨ids, found'⟩).1
    have contributed' := fieldsContributed_uses distinct enums' (right.ok_iff.mp ⟨ids', found''⟩).1
    rw [together.mem_iff found, left.mem_iff found', right.mem_iff found'',
      denotes_or contributed contributed']

/-! ## Two documents -/

/-- A query with an object and an enum literal, where `sideDocument` has a variable for the
object. -/
def lightDocument : Document :=
  [.operation (.shorthand [.field none "hero"
    [("filter", .object [("id", .string "1")]), ("side", .enum "LIGHT")] [] []])]

/-- The marks of `lightDocument`. -/
def lightMarks : List Mark :=
  [.identifier "Query.hero", .identifier "Query.hero.filter", .whole "ID", .field "Filter" "id",
    .identifier "Query.hero.side", .field "Side" "LIGHT"]

/-- The usage of `lightDocument`. -/
def lightUsage : List String :=
  ["Filter.id", "ID", "Query.hero", "Query.hero.filter", "Query.hero.side", "Side.LIGHT"]

theorem eq_sideField {t : TypeDefinition} {field : FieldDefinition} (mem : t ∈ sideSchema.types)
    (declared : t.field? "hero" = some field) : field = sideField := by
  change t ∈ [_, _, _, _] at mem
  simp only [List.mem_cons, List.not_mem_nil, or_false] at mem
  rcases mem with rfl | rfl | rfl | rfl <;> cases declared
  rfl

theorem enumsDeclared_lightDocument : EnumsDeclared sideSchema lightDocument := by
  rintro u held name ⟨stands, _, declared, given, argument, named, position⟩
  cases stands.eq_of_single rfl
  cases eq_sideField stands.mem_types declared
  rcases List.mem_pair.mp given with rfl | rfl
  · generalize same : Value.enum name = part at position
    have object : part = .object [("id", .string "1")] ∨ part = .string "1" := by
      clear same
      induction position with
      | whole => exact .inl rfl
      | item _ _ ih => rcases ih with same | same <;> cases same
      | member _ _ mem _ _ ih =>
        rcases ih with same | same
        · cases same
          cases List.mem_singleton.mp mem
          exact .inr rfl
        · cases same
    rcases object with rfl | rfl <;> cases same
  · obtain ⟨rfl, same⟩ := valueAt_leaf rfl position
    cases same
    cases argument
    cases named
    exact ⟨_, rfl, _, List.mem_cons_self, rfl⟩

/-- The whole type of the variable in one document hides the key that is written in the other. -/
theorem usage_append_sides :
    usage sideSchema .wholeTypes sideDocument = .ok sideUsage ∧
      usage sideSchema .wholeTypes lightDocument = .ok lightUsage ∧
      ∃ all, usage sideSchema .wholeTypes (sideDocument ++ lightDocument) = .ok all ∧
        all.Pairwise (· < ·) ∧ ∀ id, id ∈ all ↔ id ∈ sideUsage ∨ id ∈ lightUsage := by
  have found : usage sideSchema .wholeTypes sideDocument = .ok sideUsage :=
    usage_eq_ok.mpr ⟨sideMarks, _, rfl, by cbv,
      (ascending_eq (by decide) (by decide) (by decide)).symm⟩
  have found' : usage sideSchema .wholeTypes lightDocument = .ok lightUsage :=
    usage_eq_ok.mpr ⟨lightMarks, _, rfl, by cbv,
      (ascending_eq (by decide) (by decide) (by decide)).symm⟩
  obtain ⟨succeeds, members⟩ := @usage_append sideSchema .wholeTypes sideDocument lightDocument
    (by decide) enumsDeclared_sideDocument enumsDeclared_lightDocument
  obtain ⟨all, together⟩ := succeeds.mpr ⟨⟨_, found⟩, ⟨_, found'⟩⟩
  exact ⟨found, found', all, together, members all _ _ together found found'⟩

end SchemaUsage.Usage

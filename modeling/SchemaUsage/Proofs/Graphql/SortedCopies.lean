import Mathlib.Data.List.Sort
import SchemaUsage.Graphql.Sorted

/-!
# There is one sorted copy

About `compare_selections` and `compare_definitions`. Under a total preorder a list has exactly one
stably sorted copy, and merge sort makes it. The first items of two copies are below each other, so
they compare equal; they are then the same, because both copies hold the items that compare equal to
them in the order of the list.

* A three-way comparison is a total preorder when it is an `Std.TransCmp`: it is reversed when its
  arguments change places, and "not greater" is transitive.

Results:
- `Selection.transCmp_compare`, `Definition.transCmp_compare`: the orders of a normal form are total
  preorders.
- `stablySorted_iff`: a stably sorted copy is what merge sort makes.
-/

namespace SchemaUsage.Graphql

variable {α : Type}

/-! ## Orders -/

/-- The name by which selections of one rank are compared; inline fragments have none. -/
def Selection.sortName : Selection → String
  | .field _ name .. => name
  | .spread fragment _ => fragment
  | .inline .. => ""

/-- The name by which definitions of one rank are compared; operations have none. -/
def Definition.sortName : Definition → String
  | .operation _ => ""
  | .fragment frag => frag.name

theorem Selection.compare_eq :
    Selection.compare = compareLex (compareOn Selection.rank) (compareOn Selection.sortName) := by
  funext a b
  cases a <;> cases b <;> rfl

theorem Definition.compare_eq :
    Definition.compare = compareLex (compareOn Definition.rank) (compareOn Definition.sortName) := by
  funext a b
  cases a <;> cases b <;> rfl

/-- **The order of selections is a total preorder.** -/
instance Selection.transCmp_compare : Std.TransCmp Selection.compare :=
  Selection.compare_eq ▸ inferInstance

/-- **The order of definitions is a total preorder.** -/
instance Definition.transCmp_compare : Std.TransCmp Definition.compare :=
  Definition.compare_eq ▸ inferInstance

/-! ## Sorted copies -/

theorem perm_of_mergeSort_eq {le : α → α → Bool} {xs ys : List α}
    (same : xs.mergeSort le = ys.mergeSort le) : xs.Perm ys :=
  (List.mergeSort_perm xs le).symm.trans
    ((List.Perm.of_eq same).trans (List.mergeSort_perm ys le))

section Copies

variable {cmp : α → α → Ordering} [Std.TransCmp cmp]

theorem isLE_trans (a b c : α) (ab : (cmp a b).isLE = true) (bc : (cmp b c).isLE = true) :
    (cmp a c).isLE = true :=
  Std.TransCmp.isLE_trans ab bc

theorem isLE_total (a b : α) : ((cmp a b).isLE || (cmp b a).isLE) = true := by
  have swapped : cmp b a = (cmp a b).swap := Std.OrientedCmp.eq_swap
  rw [swapped]
  cases cmp a b <;> rfl

/-- Merge sort makes a stably sorted copy. -/
theorem stablySorted_mergeSort (items : List α) :
    StablySorted cmp items (items.mergeSort fun a b => (cmp a b).isLE) where
  perm := List.mergeSort_perm _ _
  ascending := List.pairwise_mergeSort isLE_trans isLE_total items
  stable a := by
    -- items that compare equal are an ascending sublist, which merge sort keeps
    have equal : (items.filter (cmp a · == .eq)).Pairwise fun b c => (cmp b c).isLE = true := by
      refine List.pairwise_of_forall_mem_list fun b hb c hc => ?_
      have ab : cmp a b = .eq := by simpa using List.of_mem_filter hb
      have ac : cmp a c = .eq := by simpa using List.of_mem_filter hc
      rw [← Std.TransCmp.congr_left ab, ac]
      rfl
    have within : List.Sublist (items.filter (cmp a · == .eq))
        (items.mergeSort fun a b => (cmp a b).isLE) :=
      List.sublist_mergeSort isLE_trans isLE_total equal List.filter_sublist
    have kept := within.filter (cmp a · == .eq)
    rw [List.filter_filter] at kept
    simp only [Bool.and_self] at kept
    exact (kept.eq_of_length ((List.mergeSort_perm _ _).filter _).length_eq.symm).symm

/-- Lists that start with equal items and keep the order of equal items start with the same item,
and their tails keep that order too. -/
theorem cons_of_stable {x y : α} {xs ys : List α} (equal : cmp x y = .eq)
    (stable : ∀ a, (x :: xs).filter (cmp a · == .eq) = (y :: ys).filter (cmp a · == .eq)) :
    x = y ∧ ∀ a, xs.filter (cmp a · == .eq) = ys.filter (cmp a · == .eq) := by
  have self : cmp x x = .eq := Std.ReflCmp.compare_self
  have heads := stable x
  rw [List.filter_cons_of_pos (by simp [self]), List.filter_cons_of_pos (by simp [equal])] at heads
  obtain ⟨rfl, -⟩ := List.cons.inj heads
  refine ⟨rfl, fun a => ?_⟩
  have whole := stable a
  rw [List.filter_cons, List.filter_cons] at whole
  split at whole
  · exact (List.cons.inj whole).2
  · exact whole

theorem eq_of_ascending {xs ys : List α} (perm : xs.Perm ys)
    (ascending : xs.Pairwise fun a b => (cmp a b).isLE = true)
    (ascending' : ys.Pairwise fun a b => (cmp a b).isLE = true)
    (stable : ∀ a, xs.filter (cmp a · == .eq) = ys.filter (cmp a · == .eq)) : xs = ys := by
  induction xs generalizing ys with
  | nil => exact perm.nil_eq
  | cons x xs ih =>
    cases ys with
    | nil => exact absurd perm.symm.nil_eq (List.cons_ne_nil x xs).symm
    | cons y ys =>
      have head {a b : α} {rest : List α} (mem : b ∈ a :: rest)
          (sorted : (a :: rest).Pairwise fun a b => (cmp a b).isLE = true) :
          (cmp a b).isLE = true := by
        rcases List.mem_cons.mp mem with rfl | mem
        · have self : cmp b b = .eq := Std.ReflCmp.compare_self
          rw [self]
          rfl
        · exact List.rel_of_pairwise_cons sorted mem
      have equal : cmp x y = .eq :=
        Std.OrientedCmp.isLE_antisymm (head (perm.mem_iff.mpr List.mem_cons_self) ascending)
          (head (perm.mem_iff.mp List.mem_cons_self) ascending')
      obtain ⟨rfl, tails⟩ := cons_of_stable equal stable
      rw [ih perm.cons_inv ascending.of_cons ascending'.of_cons tails]

/-- Lists of equal items, one by one, are the same if they keep the order of equal items. -/
theorem eq_of_aligned {xs ys : List α} (aligned : List.Forall₂ (cmp · · = .eq) xs ys)
    (stable : ∀ a, xs.filter (cmp a · == .eq) = ys.filter (cmp a · == .eq)) : xs = ys := by
  induction aligned with
  | nil => rfl
  | cons equal _ ih =>
    obtain ⟨rfl, tails⟩ := cons_of_stable equal stable
    rw [ih tails]

/-- **There is one stably sorted copy**, the one that merge sort makes. -/
theorem stablySorted_iff {items sorted : List α} :
    StablySorted cmp items sorted ↔ sorted = items.mergeSort fun a b => (cmp a b).isLE := by
  constructor
  · intro h
    have made : StablySorted cmp items _ := stablySorted_mergeSort items
    exact eq_of_ascending (h.perm.trans made.perm.symm) h.ascending made.ascending fun a =>
      (h.stable a).trans (made.stable a).symm
  · rintro rfl
    exact stablySorted_mergeSort items

/-- **Lists of the same items have one sorted copy** when they keep the order of equal items. -/
theorem mergeSort_eq_iff {xs ys : List α} (perm : xs.Perm ys) :
    (xs.mergeSort fun a b => (cmp a b).isLE) = (ys.mergeSort fun a b => (cmp a b).isLE) ↔
      ∀ a, xs.filter (cmp a · == .eq) = ys.filter (cmp a · == .eq) := by
  have made : StablySorted cmp xs _ := stablySorted_mergeSort xs
  constructor
  · intro same a
    rw [← made.stable a, same, (stablySorted_mergeSort ys).stable a]
  · intro stable
    exact stablySorted_iff.mp
      ⟨made.perm.trans perm, made.ascending, fun a => (made.stable a).trans (stable a)⟩

end Copies

theorem sortedByName_iff {name : α → String} {items sorted : List α} :
    SortedByName name items sorted ↔ sorted = sortByName name items := by
  have order : (fun a b => decide (name a ≤ name b)) =
      fun a b => (compareOn name a b).isLE := funext₂ fun a b => name_le_eq (name a) (name b)
  rw [sortByName, order]
  exact stablySorted_iff

theorem stablySorted_selections_iff {items sorted : List Selection} :
    StablySorted Selection.compare items sorted ↔ sorted = items.mergeSort Selection.le := by
  rw [funext₂ Selection.le_eq]
  exact stablySorted_iff

theorem stablySorted_definitions_iff {items sorted : List Definition} :
    StablySorted Definition.compare items sorted ↔ sorted = items.mergeSort Definition.le := by
  rw [funext₂ Definition.le_eq]
  exact stablySorted_iff

end SchemaUsage.Graphql

import Mathlib.Data.List.Sort
import SchemaUsage.Graphql.Normal
import SchemaUsage.Graphql.Variant

/-!
# Stable sorting

Merge sort is stable, so it puts one item after another where insertion sort puts them. What is
sorted is hence told step by step from the back: a new first item goes in front of everything that
is not below it, and two neighbours that are strictly ordered may come in either order.

* Orders are total and transitive, but different items may be of the same rank. This is why what is
  sorted does not follow from sorted lists being unique.

Results:
- `mergeSort_cons_eq`: merge sort inserts a new first item.
- `Rearranged.mergeSort_map`: lists that differ in an order that means nothing are sorted alike.
-/

namespace SchemaUsage.Graphql

variable {α β : Type}

/-! ## Insertion -/

/-- An item goes behind what it is not below, and in front of what it is below. -/
theorem orderedInsert_append {r : α → α → Prop} [DecidableRel r] {a : α} {front back : List α}
    (behind : ∀ b ∈ front, ¬ r a b) (before : ∀ b ∈ back, r a b) :
    (front ++ back).orderedInsert r a = front ++ a :: back := by
  induction front with
  | nil =>
    cases back with
    | nil => rfl
    | cons b back => exact List.orderedInsert_cons_of_le r back (before b List.mem_cons_self)
  | cons b front ih =>
    rw [List.cons_append, List.orderedInsert_of_not_le r _ (behind b List.mem_cons_self),
      ih fun c mem => behind c (List.mem_cons_of_mem b mem), List.cons_append]

/-- Items that are strictly ordered are inserted in either order. -/
theorem orderedInsert_comm (r : α → α → Prop) [DecidableRel r] {a b : α} (below : r a b)
    (strict : ¬ r b a) (trans : ∀ c, r b c → r a c) (items : List α) :
    (items.orderedInsert r b).orderedInsert r a = (items.orderedInsert r a).orderedInsert r b := by
  induction items with
  | nil => simp [below, strict]
  | cons c items ih =>
    by_cases first : r b c
    · simp [first, trans c first, below, strict]
    · by_cases second : r a c
      · simp [first, second, strict]
      · simp [first, second, ih]

/-! ## Merge sort -/

section Merge

variable {le : α → α → Bool} (trans : ∀ a b c, le a b = true → le b c = true → le a c = true)
  (total : ∀ a b, (le a b || le b a) = true)

include trans total

/-- **Merge sort inserts a new first item** as insertion sort does, also among items of the same
rank. -/
theorem mergeSort_cons_eq (a : α) (items : List α) :
    (a :: items).mergeSort le =
      (items.mergeSort le).orderedInsert (fun x y => le x y = true) a := by
  obtain ⟨front, back, whole, others, behind⟩ := List.mergeSort_cons trans total a items
  have sorted : (front ++ a :: back).Pairwise fun x y => le x y = true :=
    whole ▸ List.pairwise_mergeSort trans total (a :: items)
  have before : ∀ b ∈ back, le a b = true :=
    fun b mem => List.rel_of_pairwise_cons (List.pairwise_append.mp sorted).2.1 mem
  rw [whole, others, orderedInsert_append (fun b mem => by simpa using behind b mem) before]

/-- Neighbours that are strictly ordered may come in either order. -/
theorem mergeSort_swap {a b : α} (apart : ¬ (le a b = true ∧ le b a = true)) (items : List α) :
    (a :: b :: items).mergeSort le = (b :: a :: items).mergeSort le := by
  rw [mergeSort_cons_eq trans total, mergeSort_cons_eq trans total,
    mergeSort_cons_eq trans total, mergeSort_cons_eq trans total]
  by_cases below : le a b = true
  · exact orderedInsert_comm (fun x y => le x y = true) below (fun above => apart ⟨below, above⟩)
      (fun c => trans a b c below) _
  · have above : le b a = true := by simpa [below] using total a b
    exact (orderedInsert_comm (fun x y => le x y = true) above below
      (fun c => trans b a c above) _).symm

/-- **Lists that differ in an order that means nothing** are sorted alike, if related members look
alike and free ones are strictly ordered. -/
theorem Rearranged.mergeSort_map {free same : β → β → Prop} {f : β → α}
    (image : ∀ a b, same a b → f a = f b)
    (strict : ∀ a b, free a b → ¬ (le (f a) (f b) = true ∧ le (f b) (f a) = true))
    {items others : List β} (h : Rearranged free same items others) :
    (items.map f).mergeSort le = (others.map f).mergeSort le := by
  induction h with
  | nil => rfl
  | cons first _ ih =>
    rw [List.map_cons, List.map_cons, mergeSort_cons_eq trans total, mergeSort_cons_eq trans total,
      image _ _ first, ih]
  | swap apart items => exact mergeSort_swap trans total (strict _ _ apart) (items.map f)
  | trans _ _ ih ih' => exact ih.trans ih'

end Merge

/-! ## The orders of a normal form -/

section ByName

variable (name : α → String)

theorem name_le_trans (a b c : α) (ab : decide (name a ≤ name b) = true)
    (bc : decide (name b ≤ name c) = true) : decide (name a ≤ name c) = true := by
  simpa using String.le_trans (by simpa using ab) (by simpa using bc)

theorem name_le_total (a b : α) :
    (decide (name a ≤ name b) || decide (name b ≤ name a)) = true := by
  simpa using String.le_total (name a) (name b)

/-- Different names are strictly ordered. -/
theorem not_name_le_both {name : α → String} {a b : α} (apart : name a ≠ name b) :
    ¬ (decide (name a ≤ name b) = true ∧ decide (name b ≤ name a) = true) := by
  rintro ⟨below, above⟩
  exact apart (String.le_antisymm (by simpa using below) (by simpa using above))

theorem sortByName_cons_congr {name : α → String} (a : α) {items others : List α}
    (same : sortByName name items = sortByName name others) :
    sortByName name (a :: items) = sortByName name (a :: others) := by
  unfold sortByName at same ⊢
  rw [mergeSort_cons_eq (name_le_trans name) (name_le_total name),
    mergeSort_cons_eq (name_le_trans name) (name_le_total name), same]

theorem sortByName_swap {name : α → String} {a b : α} (apart : name a ≠ name b) (items : List α) :
    sortByName name (a :: b :: items) = sortByName name (b :: a :: items) :=
  mergeSort_swap (name_le_trans name) (name_le_total name) (not_name_le_both apart) items

theorem Rearranged.sortByName_map {name : α → String} {key : β → String}
    {same : β → β → Prop} {f : β → α} (keeps : ∀ b, name (f b) = key b) (image : ∀ a b, same a b → f a = f b)
    {items others : List β} (h : Rearranged (fun a b => key a ≠ key b) same items others) :
    sortByName name (items.map f) = sortByName name (others.map f) :=
  h.mergeSort_map (name_le_trans name) (name_le_total name) image fun a b apart =>
    not_name_le_both (by rwa [keeps a, keeps b])

end ByName

namespace Definition

theorem le_trans : ∀ a b c : Definition, a.le b = true → b.le c = true → a.le c = true
  | .operation _, _, _, _, _ => rfl
  | .fragment _, .fragment _, .fragment _, ab, bc =>
    name_le_trans Fragment.name _ _ _ ab bc

theorem le_total : ∀ a b : Definition, (a.le b || b.le a) = true
  | .operation _, _ => rfl
  | .fragment _, .operation _ => rfl
  | .fragment f, .fragment g => name_le_total Fragment.name f g

end Definition

end SchemaUsage.Graphql

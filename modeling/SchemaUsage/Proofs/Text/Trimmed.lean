import Mathlib.Data.List.DropRight
import Mathlib.Data.List.TakeWhile
import SchemaUsage.Text.Blank

/-!
# Texts without their blank ends

About the trimming in `validate_target_id`. What trimming leaves is told by what it is, not by how
it is found: around it everything is blank, and it has no blank end itself. There is only one such
text.

Results:
- `trim_eq_iff`: trimming leaves the text between the blank ends.
-/

namespace SchemaUsage.Text

/-- **The text between the blank ends of another**: what stands around it is blank, and it neither
starts nor ends with a blank character. -/
structure Trims (cs core : List Char) : Prop where
  around : ∃ front back, cs = front ++ (core ++ back) ∧ (∀ c ∈ front, isBlank c = true) ∧
    ∀ c ∈ back, isBlank c = true
  first : ∀ c, core.head? = some c → isBlank c = false
  last : ∀ c, core.getLast? = some c → isBlank c = false

theorem of_head_dropWhile {p : Char → Bool} {cs : List Char} {c : Char}
    (head : (cs.dropWhile p).head? = some c) : p c = false := by
  have stops := List.head?_dropWhile_not p cs
  rwa [head] at stops

theorem trims_trim (cs : List Char) : Trims cs (trim cs) := by
  let back := (trimStart cs).rtakeWhile isBlank
  have split : trim cs ++ back = trimStart cs := List.rdropWhile_append_rtakeWhile
  refine ⟨⟨cs.takeWhile isBlank, back, ?_, fun c => List.mem_takeWhile_imp,
    fun c => List.mem_rtakeWhile_imp⟩, fun c head => ?_, fun c last => ?_⟩
  · rw [split]
    exact List.takeWhile_append_dropWhile.symm
  · have ahead : (trimStart cs).head? = some c := by
      rw [← split, List.head?_append, head]
      rfl
    exact of_head_dropWhile ahead
  · rw [trim, trimEnd, dropEndWhile, List.getLast?_reverse] at last
    exact of_head_dropWhile last

/-- What is dropped ends where a character does not satisfy the condition. -/
theorem dropWhile_append_eq {p : Char → Bool} {dropped rest : List Char}
    (inside : ∀ c ∈ dropped, p c = true) (border : ∀ c, rest.head? = some c → p c = false) :
    (dropped ++ rest).dropWhile p = rest := by
  rw [List.dropWhile_append_of_pos inside]
  cases rest with
  | nil => rfl
  | cons c rest => exact List.dropWhile_cons_of_neg (by simp [border c rfl])

/-- **Trimming leaves the text between the blank ends.** -/
theorem trim_eq_iff {cs core : List Char} : trim cs = core ↔ Trims cs core := by
  refine ⟨fun h => h ▸ trims_trim cs, ?_⟩
  rintro ⟨⟨front, back, rfl, blank, blank'⟩, first, last⟩
  have start : trimStart (front ++ (core ++ back)) = core ++ back ∨ core = [] := by
    cases core with
    | nil => exact .inr rfl
    | cons c core => exact .inl (dropWhile_append_eq blank fun d head => first d head)
  rcases start with start | rfl
  · have reversed : ∀ c ∈ back.reverse, isBlank c = true := fun c mem =>
      blank' c (List.mem_reverse.mp mem)
    rw [trim, start, trimEnd, dropEndWhile, List.reverse_append, dropWhile_append_eq reversed,
      List.reverse_reverse]
    exact fun c head => last c (by rwa [List.head?_reverse] at head)
  · have nothing : trimStart (front ++ ([] ++ back)) = [] := by
      rw [trimStart, List.dropWhile_append_of_pos blank, List.nil_append]
      exact List.dropWhile_eq_nil_iff.mpr blank'
    rw [trim, nothing]
    rfl

end SchemaUsage.Text

/-!
# Lines, pieces and joins

A text is cut into lines at LF; a CR before the LF belongs to the line end, and a last line end
opens no further line. Cutting at a separator is undone by joining.

Results:
- `join_split`: the pieces of a text, joined by the separator, are the text.
-/

namespace SchemaUsage.Text

/-- The pieces of a list between the occurrences of `sep`; always at least one. -/
def split [BEq α] (sep : α) : List α → List (List α)
  | [] => [[]]
  | c :: cs =>
    match split sep cs with
    | [] => [[c]]
    | piece :: pieces => if c == sep then [] :: piece :: pieces else (c :: piece) :: pieces

/-- The pieces in a row, with `sep` between neighbours. -/
def join (sep : List α) : List (List α) → List α
  | [] => []
  | [piece] => piece
  | piece :: pieces => piece ++ sep ++ join sep pieces

theorem split_ne_nil [BEq α] (sep : α) (cs : List α) : split sep cs ≠ [] := by
  cases cs with
  | nil => simp [split]
  | cons c cs =>
    unfold split
    split
    · simp
    · split <;> simp

theorem join_cons_head (sep : List α) (c : α) (piece : List α) (pieces : List (List α)) :
    join sep ((c :: piece) :: pieces) = c :: join sep (piece :: pieces) := by
  cases pieces <;> simp [join]

theorem join_split [BEq α] [LawfulBEq α] (sep : α) (cs : List α) :
    join [sep] (split sep cs) = cs := by
  induction cs with
  | nil => rfl
  | cons c cs ih =>
    unfold split
    split
    · rename_i h; exact absurd h (split_ne_nil sep cs)
    · rename_i piece pieces h
      rw [h] at ih
      split
      · rename_i hc
        simp [join, ih, eq_of_beq hc]
      · rw [join_cons_head, ih]

theorem split_of_not_mem [BEq α] [LawfulBEq α] {sep : α} {piece : List α} (free : sep ∉ piece) :
    split sep piece = [piece] := by
  induction piece with
  | nil => rfl
  | cons c cs ih =>
    obtain ⟨other, free⟩ := not_or.mp (mt List.mem_cons.mpr free)
    rw [split, ih free]
    exact if_neg fun same => other (eq_of_beq same).symm

theorem split_append [BEq α] [LawfulBEq α] {sep : α} {piece : List α} (free : sep ∉ piece)
    (cs : List α) : split sep (piece ++ sep :: cs) = piece :: split sep cs := by
  induction piece with
  | nil =>
    rw [List.nil_append, split]
    split
    · rename_i none
      exact absurd none (split_ne_nil sep cs)
    · rename_i pieces
      rw [if_pos (beq_self_eq_true sep), pieces]
  | cons c piece ih =>
    obtain ⟨other, free⟩ := not_or.mp (mt List.mem_cons.mpr free)
    rw [List.cons_append, split, ih free]
    exact if_neg fun same => other (eq_of_beq same).symm

/-- Drops one `c` at the end, if there is one. -/
def dropLastIf (c : Char) (cs : List Char) : List Char :=
  if cs.getLast? = some c then cs.dropLast else cs

/-- The lines of the pieces between LFs: the last piece is a line only if it holds something. -/
def linesOfPieces : List (List Char) → List (List Char)
  | [] => []
  | [last] => if last.isEmpty then [] else [last]
  | piece :: pieces => dropLastIf '\r' piece :: linesOfPieces pieces

/-- The lines of a text, without their ends. -/
def lines (cs : List Char) : List (List Char) :=
  linesOfPieces (split '\n' cs)

/-- Replaces every occurrence of `old`, from the left and without overlap. -/
def replace (old new : List Char) : List Char → List Char
  | [] => []
  | c :: cs =>
    if _nonempty : old ≠ [] ∧ old.isPrefixOf (c :: cs) then
      new ++ replace old new ((c :: cs).drop old.length)
    else
      c :: replace old new cs
termination_by cs => cs.length
decreasing_by
  · have : 0 < old.length := List.length_pos_iff.mpr _nonempty.1
    simp only [List.length_drop, List.length_cons]
    omega
  · simp

end SchemaUsage.Text

/-!
# Named values in order

Lists of named values in ascending order of the names, with one value for each name: the members of
JSON objects and of directories, and the tables of settings.

Results:
- `lookup_insert`: what has been put under a name is found there.
- `lookup_insert_ne`: an insertion keeps the values of other names.
-/

namespace SchemaUsage.Text.Named

variable {α : Type}

/-- Puts a value under a name, in place of the one that is there. -/
def insert (name : String) (value : α) : List (String × α) → List (String × α)
  | [] => [(name, value)]
  | (k, v) :: rest =>
    if name < k then (name, value) :: (k, v) :: rest
    else if name = k then (name, value) :: rest
    else (k, v) :: insert name value rest

theorem lookup_insert (name : String) (value : α) (xs : List (String × α)) :
    (insert name value xs).lookup name = some value := by
  induction xs with
  | nil => simp [insert]
  | cons x rest ih =>
    obtain ⟨k, v⟩ := x
    unfold insert
    split
    · simp
    · split
      · simp
      · rename_i h
        rw [List.lookup_cons, beq_eq_false_iff_ne.mpr h]
        exact ih

theorem lookup_insert_ne {name k : String} (hk : k ≠ name) (value : α)
    (xs : List (String × α)) : (insert name value xs).lookup k = xs.lookup k := by
  have other : (k == name) = false := beq_eq_false_iff_ne.mpr hk
  induction xs with
  | nil => simp [insert, List.lookup_cons, other]
  | cons x rest ih =>
    obtain ⟨k', v⟩ := x
    unfold insert
    split
    · rw [List.lookup_cons, other]
    · split
      · rename_i h
        subst h
        rw [List.lookup_cons, List.lookup_cons, other]
      · rw [List.lookup_cons, List.lookup_cons, ih]

theorem mem_of_mem_insert {name : String} {value : α} {x : String × α} {xs : List (String × α)}
    (h : x ∈ insert name value xs) : x = (name, value) ∨ x ∈ xs := by
  induction xs with
  | nil => exact Or.inl (List.mem_singleton.mp h)
  | cons y rest ih =>
    obtain ⟨k, v⟩ := y
    unfold insert at h
    split at h
    · exact List.mem_cons.mp h
    · split at h
      · rcases List.mem_cons.mp h with h | h
        · exact Or.inl h
        · exact Or.inr (List.mem_cons_of_mem _ h)
      · rcases List.mem_cons.mp h with h | h
        · exact Or.inr (h ▸ List.mem_cons_self)
        · exact (ih h).imp id (List.mem_cons_of_mem _)

/-- The ordered list of named values, the last of several with one name. -/
def ofList (xs : List (String × α)) : List (String × α) :=
  xs.foldl (fun acc x => insert x.1 x.2 acc) []

end SchemaUsage.Text.Named

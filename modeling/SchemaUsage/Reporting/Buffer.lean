/-!
# Buffers

Model of `Buffer` with its `AddStatus`: items that wait for the next flush. A buffer hands its items
out when it is full, when it is drained and when it is closed; a closed buffer takes no more.

Results:
- `add_cases`: an item is refused, or it stays, or it takes all others along.
- `of_add_refused`, `of_add_stays`, `of_add_fills`: what each answer to an addition tells.

Out of scope: the times at which items are added. They are part of the items here, which
`Reporting.Batcher` stamps.
-/

namespace SchemaUsage.Reporting

/-- A buffer that is full with `capacity` items (`Buffer`, whose `max_size` that is). -/
structure Buffer (α : Type) where
  capacity : Nat
  items : List α := []
  closed : Bool := false
  deriving Repr, DecidableEq

namespace Buffer

variable {α : Type}

/-- What becomes of an added item (`AddStatus`). -/
inductive Added (α : Type) where
  | stays
  | fills (drained : List α)
  | refused
  deriving Repr, DecidableEq

/-- Takes all items out (`Buffer::drain`). -/
def drain (b : Buffer α) : List α × Buffer α :=
  (b.items, { b with items := [] })

/-- Takes all items out and refuses all later ones (`Buffer::close`). -/
def close (b : Buffer α) : List α × Buffer α :=
  (b.items, { b with items := [], closed := true })

/-- **Adds an item** (`Buffer::add`). The item that fills the buffer takes all others along. -/
def add (b : Buffer α) (item : α) : Added α × Buffer α :=
  if b.closed then (.refused, b)
  else
    let items := b.items ++ [item]
    if b.capacity ≤ items.length then (.fills items, { b with items := [] })
    else (.stays, { b with items := items })

/-- **All that an addition can do**, with the condition for each. -/
theorem add_cases (b : Buffer α) (item : α) :
    b.closed = true ∧ b.add item = (.refused, b) ∨
    b.closed = false ∧ b.items.length + 1 < b.capacity ∧
      b.add item = (.stays, { b with items := b.items ++ [item] }) ∨
    b.closed = false ∧ b.capacity ≤ b.items.length + 1 ∧
      b.add item = (.fills (b.items ++ [item]), { b with items := [] }) := by
  unfold add
  have length : (b.items ++ [item]).length = b.items.length + 1 := List.length_append
  by_cases closed : b.closed = true
  · exact .inl ⟨closed, if_pos closed⟩
  · have opened : b.closed = false := by simpa using closed
    rw [if_neg closed]
    by_cases full : b.capacity ≤ b.items.length + 1
    · exact .inr (.inr ⟨opened, full, if_pos (by rwa [length])⟩)
    · exact .inr (.inl ⟨opened, Nat.lt_of_not_le full, if_neg (by rwa [length])⟩)

theorem of_add_refused {b b' : Buffer α} {item : α} (h : b.add item = (.refused, b')) :
    b.closed = true ∧ b' = b := by
  rcases b.add_cases item with ⟨closed, same⟩ | ⟨-, -, other⟩ | ⟨-, -, other⟩
  · cases same.symm.trans h
    exact ⟨closed, rfl⟩
  · cases other.symm.trans h
  · cases other.symm.trans h

theorem of_add_stays {b b' : Buffer α} {item : α} (h : b.add item = (.stays, b')) :
    b.closed = false ∧ b' = { b with items := b.items ++ [item] } := by
  rcases b.add_cases item with ⟨-, other⟩ | ⟨opened, -, same⟩ | ⟨-, -, other⟩
  · cases other.symm.trans h
  · cases same.symm.trans h
    exact ⟨opened, rfl⟩
  · cases other.symm.trans h

theorem of_add_fills {b b' : Buffer α} {item : α} {batch : List α}
    (h : b.add item = (.fills batch, b')) :
    b.closed = false ∧ batch = b.items ++ [item] ∧ b' = { b with items := [] } := by
  rcases b.add_cases item with ⟨-, other⟩ | ⟨-, -, other⟩ | ⟨opened, -, same⟩
  · cases other.symm.trans h
  · cases other.symm.trans h
  · cases same.symm.trans h
    exact ⟨opened, rfl, rfl⟩

/-- The items that an addition hands out. -/
def Added.drained : Added α → List α
  | fills items => items
  | _ => []

end Buffer

end SchemaUsage.Reporting

import SchemaUsage.Reporting.Batcher

/-!
# What a batcher keeps of its items

About `Batcher::add`, the ticks of its interval and `wait_for_all`. A batcher hands its items out
when it is full, at the end of a period and when it is shut down, in any order and any number of
times. Whatever its steps are, what it has flushed and what it still holds are the items that it
accepted, in the order of their acceptance.

* A step is judged by what it shows: the batches it flushes and, for an addition, whether the item
  was accepted. `taken` and `flushed` read a whole run in this way.
* Runs are lists of steps of any length, so what holds behind a run holds after each step of it.

Results:
- `act_conserves`, `run_conserves`: nothing is lost, doubled or moved ahead.
- `run_idle`: a batcher that has been shut down flushes and accepts nothing.
- `run_keeps_order`: what holds behind every run of a new batcher.
-/

namespace SchemaUsage.Reporting

variable {α : Type}

theorem flatten_batchesOf (items : List α) : (batchesOf items).flatten = items := by
  unfold batchesOf
  by_cases empty : items = []
  · simp [empty]
  · simp [empty]

theorem eq_of_mem_batchesOf {items batch : List α} (h : batch ∈ batchesOf items) :
    batch = items := by
  unfold batchesOf at h
  split at h
  · exact absurd h List.not_mem_nil
  · exact List.mem_singleton.mp h

namespace Batcher

/-! ## What a run shows -/

/-- The item that a step has taken in, if any. -/
def takenAt : Action α → Shown α → List α
  | .add item, shown => if shown.accepted = some .yes then [item] else []
  | _, _ => []

/-- **The items that a run has taken in**, in the order of its steps. -/
def taken (actions : List (Action α)) (shown : List (Shown α)) : List α :=
  (List.zipWith takenAt actions shown).flatten

/-- **The batches that a run has flushed**, in the order of its steps. -/
def flushed (shown : List (Shown α)) : List (List (Stamped α)) :=
  shown.flatMap Shown.flushed

theorem flushed_cons (first : Shown α) (later : List (Shown α)) :
    flushed (first :: later) = first.flushed ++ flushed later :=
  List.flatMap_cons

theorem taken_cons (action : Action α) (actions : List (Action α)) (first : Shown α)
    (later : List (Shown α)) :
    taken (action :: actions) (first :: later) = takenAt action first ++ taken actions later := by
  rw [taken, List.zipWith_cons_cons, List.flatten_cons]
  rfl

/-- The items that are held. -/
def held (b : Batcher α) : List α := b.buffer.items.map Stamped.item

/-! ## Steps -/

/-- **All that an addition can do** to a batcher. -/
theorem add_cases (b : Batcher α) (item : α) :
    b.closed = true ∧ b.add item = ({ accepted := some .no }, b) ∨
    b.closed = false ∧ b.buffer.items.length + 1 < b.buffer.capacity ∧
      b.add item = ({ accepted := some .yes },
        { b with buffer := { b.buffer with items := b.buffer.items ++ [⟨item, b.now⟩] } }) ∨
    b.closed = false ∧ b.buffer.capacity ≤ b.buffer.items.length + 1 ∧
      b.add item =
        ({ flushed := batchesOf (b.buffer.items ++ [⟨item, b.now⟩]), accepted := some .yes },
          { b with buffer := { b.buffer with items := [] } }) := by
  unfold add
  rcases b.buffer.add_cases ⟨item, b.now⟩ with ⟨closed, same⟩ | ⟨opened, room, same⟩ |
    ⟨opened, full, same⟩
  · exact .inl ⟨closed, by rw [same]⟩
  · exact .inr (.inl ⟨opened, room, by rw [same]⟩)
  · exact .inr (.inr ⟨opened, full, by rw [same]⟩)

/-- **All that time can do** to a batcher. -/
theorem advance_cases (b : Batcher α) (time : Nat) :
    b.advance time = ({}, { b with now := b.now + time }) ∨
    b.advance time = ({ flushed := batchesOf b.buffer.items },
      { b with now := b.now + time, buffer := { b.buffer with items := [] } }) := by
  unfold advance
  by_cases ticks : ticksBetween b.period b.now (b.now + time) = true
  · exact .inr (if_pos ticks)
  · exact .inl (if_neg ticks)

/-- An item is accepted unless the batcher is closed. -/
theorem add_accepted (b : Batcher α) (item : α) :
    (b.add item).1.accepted = some (if b.closed then .no else .yes) := by
  rcases b.add_cases item with ⟨closed, same⟩ | ⟨opened, -, same⟩ | ⟨opened, -, same⟩
  · rw [same, closed]
    rfl
  · rw [same, opened]
    rfl
  · rw [same, opened]
    rfl

theorem add_closed (b : Batcher α) (item : α) : (b.add item).2.closed = b.closed := by
  rcases b.add_cases item with ⟨-, same⟩ | ⟨-, -, same⟩ | ⟨-, -, same⟩ <;> rw [same] <;> rfl

theorem advance_closed (b : Batcher α) (time : Nat) : (b.advance time).2.closed = b.closed := by
  rcases b.advance_cases time with same | same <;> rw [same] <;> rfl

/-- **A step keeps the items**: what it flushes and what is held behind it is what was held before,
followed by what it has taken in. -/
theorem act_conserves (b : Batcher α) (action : Action α) :
    (b.act action).1.flushed.flatten.map Stamped.item ++ (b.act action).2.held =
      b.held ++ takenAt action (b.act action).1 := by
  cases action with
  | add item =>
    rw [act]
    rcases b.add_cases item with ⟨-, same⟩ | ⟨-, -, same⟩ | ⟨-, -, same⟩
    · rw [same]
      simp [held, takenAt]
    · rw [same]
      simp [held, takenAt]
    · rw [same]
      simp [held, takenAt, flatten_batchesOf]
  | advance time =>
    rw [act]
    rcases b.advance_cases time with same | same
    · rw [same]
      simp [held, takenAt]
    · rw [same]
      simp [held, takenAt, flatten_batchesOf]
  | shutDown => simp [act, shutDown, Buffer.close, held, takenAt, flatten_batchesOf]

theorem act_capacity (b : Batcher α) (action : Action α) :
    (b.act action).2.buffer.capacity = b.buffer.capacity := by
  cases action with
  | add item =>
    rw [act]
    rcases b.add_cases item with ⟨-, same⟩ | ⟨-, -, same⟩ | ⟨-, -, same⟩ <;> rw [same]
  | advance time =>
    rw [act]
    rcases b.advance_cases time with same | same <;> rw [same]
  | shutDown => rfl

/-- The buffer has room for one more item at least. -/
def Roomy (b : Batcher α) : Prop := b.buffer.items.length < b.buffer.capacity

theorem roomy_of_empty {b t : Batcher α} (roomy : b.Roomy)
    (capacity : t.buffer.capacity = b.buffer.capacity) (empty : t.buffer.items = []) : t.Roomy := by
  unfold Roomy at roomy ⊢
  rw [capacity, empty, List.length_nil]
  exact Nat.zero_lt_of_lt roomy

theorem act_roomy {b : Batcher α} (roomy : b.Roomy) (action : Action α) :
    (b.act action).2.Roomy := by
  have capacity := b.act_capacity action
  cases action with
  | add item =>
    rw [act] at capacity ⊢
    rcases b.add_cases item with ⟨-, same⟩ | ⟨-, room, same⟩ | ⟨-, -, same⟩
    · rw [same]
      exact roomy
    · rw [same]
      simpa [Roomy] using room
    · rw [same]
      exact roomy_of_empty roomy rfl rfl
  | advance time =>
    rw [act]
    rcases b.advance_cases time with same | same
    · rw [same]
      exact roomy
    · rw [same]
      exact roomy_of_empty roomy rfl rfl
  | shutDown => exact roomy_of_empty roomy capacity rfl

/-- A batch holds one item at least and no more than make the buffer full. -/
theorem act_batch_length {b : Batcher α} (roomy : b.Roomy) {action : Action α}
    {batch : List (Stamped α)} (mem : batch ∈ (b.act action).1.flushed) :
    batch ≠ [] ∧ batch.length ≤ b.buffer.capacity := by
  have within : ∀ {items : List (Stamped α)}, items.length ≤ b.buffer.capacity →
      batch ∈ batchesOf items → batch ≠ [] ∧ batch.length ≤ b.buffer.capacity := by
    intro items bound mem
    refine ⟨flush_nonempty mem, ?_⟩
    rwa [eq_of_mem_batchesOf mem]
  unfold Roomy at roomy
  cases action with
  | add item =>
    rw [act] at mem
    rcases b.add_cases item with ⟨-, same⟩ | ⟨-, -, same⟩ | ⟨-, -, same⟩
    · rw [same] at mem
      exact absurd mem List.not_mem_nil
    · rw [same] at mem
      exact absurd mem List.not_mem_nil
    · rw [same] at mem
      refine within ?_ mem
      rw [List.length_append, List.length_singleton]
      exact roomy
  | advance time =>
    rw [act] at mem
    rcases b.advance_cases time with same | same
    · rw [same] at mem
      exact absurd mem List.not_mem_nil
    · rw [same] at mem
      exact within (Nat.le_of_lt roomy) mem
  | shutDown => exact within (Nat.le_of_lt roomy) mem

/-! ## After shutting down -/

/-- A batcher that is closed and holds nothing. -/
structure Idle (b : Batcher α) : Prop where
  closed : b.closed = true
  empty : b.buffer.items = []

theorem shutDown_idle (b : Batcher α) : (b.act .shutDown).2.Idle := ⟨rfl, rfl⟩

/-- An addition to an idle batcher is refused and changes nothing. -/
theorem Idle.add {b : Batcher α} (idle : b.Idle) (item : α) :
    b.act (.add item) = ({ accepted := some .no }, b) := by
  rcases b.add_cases item with ⟨-, same⟩ | ⟨opened, -⟩ | ⟨opened, -⟩
  · exact same
  · exact absurd idle.closed (by rw [opened]; exact Bool.false_ne_true)
  · exact absurd idle.closed (by rw [opened]; exact Bool.false_ne_true)

theorem Idle.act {b : Batcher α} (idle : b.Idle) (action : Action α) :
    (b.act action).1.flushed = [] ∧ (b.act action).2.Idle := by
  have nothing : batchesOf b.buffer.items = [] := by
    rw [idle.empty]
    rfl
  cases action with
  | add item =>
    rw [idle.add item]
    exact ⟨rfl, idle⟩
  | advance time =>
    rw [Batcher.act]
    rcases b.advance_cases time with same | same
    · rw [same]
      exact ⟨rfl, idle.closed, idle.empty⟩
    · rw [same]
      exact ⟨nothing, idle.closed, rfl⟩
  | shutDown => exact ⟨nothing, b.shutDown_idle⟩

/-! ## Runs -/

theorem run_cons (b : Batcher α) (action : Action α) (actions : List (Action α)) :
    b.run (action :: actions) =
      ((b.act action).1 :: ((b.act action).2.run actions).1, ((b.act action).2.run actions).2) :=
  rfl

/-- **A run keeps the items**, in the order in which they were accepted. -/
theorem run_conserves (b : Batcher α) (actions : List (Action α)) :
    (flushed (b.run actions).1).flatten.map Stamped.item ++ (b.run actions).2.held =
      b.held ++ taken actions (b.run actions).1 := by
  induction actions generalizing b with
  | nil => simp [run, flushed, taken]
  | cons action actions ih =>
    have first := b.act_conserves action
    have others := ih (b.act action).2
    rw [run_cons, flushed_cons, taken_cons, List.flatten_append, List.map_append,
      List.append_assoc, others, ← List.append_assoc, first, List.append_assoc]

theorem run_roomy {b : Batcher α} (roomy : b.Roomy) (actions : List (Action α)) :
    (b.run actions).2.Roomy ∧ (b.run actions).2.buffer.capacity = b.buffer.capacity := by
  induction actions generalizing b with
  | nil => exact ⟨roomy, rfl⟩
  | cons action actions ih =>
    rw [run_cons, ← b.act_capacity action]
    exact ih (act_roomy roomy action)

theorem run_batch_length {b : Batcher α} (roomy : b.Roomy) {actions : List (Action α)}
    {batch : List (Stamped α)} (mem : batch ∈ flushed (b.run actions).1) :
    batch ≠ [] ∧ batch.length ≤ b.buffer.capacity := by
  induction actions generalizing b with
  | nil => exact absurd mem List.not_mem_nil
  | cons action actions ih =>
    rw [run_cons, flushed_cons, List.mem_append] at mem
    rcases mem with first | later
    · exact act_batch_length roomy first
    · rw [← b.act_capacity action]
      exact ih (act_roomy roomy action) later

/-- **A batcher that is idle stays idle** and flushes nothing. -/
theorem run_idle {b : Batcher α} (idle : b.Idle) (actions : List (Action α)) :
    flushed (b.run actions).1 = [] ∧ (b.run actions).2.Idle := by
  induction actions generalizing b with
  | nil => exact ⟨rfl, idle⟩
  | cons action actions ih =>
    obtain ⟨first, idle'⟩ := idle.act action
    obtain ⟨later, idle''⟩ := ih idle'
    refine ⟨?_, idle''⟩
    rw [run_cons, flushed_cons, first]
    exact later

theorem run_idle_of_shutDown {b : Batcher α} {actions : List (Action α)}
    (shut : .shutDown ∈ actions) : (b.run actions).2.Idle := by
  induction actions generalizing b with
  | nil => exact absurd shut List.not_mem_nil
  | cons action actions ih =>
    rw [run_cons]
    rcases List.mem_cons.mp shut with rfl | later
    · exact (run_idle b.shutDown_idle actions).2
    · exact ih later

/-- **A batcher loses, doubles and reorders nothing.** Behind any run of a new batcher, the flushed
batches followed by what is held are the accepted items in order; a batch has one item at least and
no more than make the buffer full; and fewer than that are held. Once it has been shut down a
batcher holds nothing, refuses each item without a change, and flushes nothing in whatever follows,
however long. -/
theorem run_keeps_order (capacity period : Nat) (room : 0 < capacity)
    (actions : List (Action α)) :
    ∃ shown b, (Batcher.start capacity period : Batcher α).run actions = (shown, b) ∧
      (flushed shown).flatten.map Stamped.item ++ b.buffer.items.map Stamped.item =
        taken actions shown ∧
      (∀ batch ∈ flushed shown, batch ≠ [] ∧ batch.length ≤ capacity) ∧
      b.buffer.items.length < capacity ∧
      (.shutDown ∈ actions → b.buffer.items = [] ∧ b.closed = true ∧
        (∀ item, b.act (.add item) = ({ accepted := some .no }, b)) ∧
        ∀ later, flushed (b.run later).1 = [] ∧ (b.run later).2.closed = true) := by
  have roomy : (Batcher.start capacity period : Batcher α).Roomy := room
  obtain ⟨kept, size⟩ := run_roomy roomy actions
  refine ⟨_, _, rfl, run_conserves _ actions, fun batch mem => run_batch_length roomy mem, ?_,
    fun shut => ?_⟩
  · unfold Roomy at kept
    rwa [size] at kept
  · have idle : ((Batcher.start capacity period).run actions).2.Idle := run_idle_of_shutDown shut
    refine ⟨idle.empty, idle.closed, idle.add, fun later => ?_⟩
    obtain ⟨nothing, still⟩ := run_idle idle later
    exact ⟨nothing, still.closed⟩

/-- A run in which a batcher flushes when it is full, at the end of a period and when it is shut
down, and in which items come too late. -/
def fullPeriodShut : List (Action Nat) :=
  [.add 1, .add 2, .add 3, .advance 12, .advance 30, .add 4, .shutDown, .add 5, .advance 10,
    .shutDown]

theorem run_keeps_order_fullPeriodShut :
    0 < 2 ∧ Action.shutDown ∈ fullPeriodShut ∧
      ∃ shown b, (Batcher.start 2 10).run fullPeriodShut = (shown, b) ∧
        taken fullPeriodShut shown = [1, 2, 3, 4] ∧
        (flushed shown).map (List.map Stamped.item) = [[1, 2], [3], [4]] ∧
        (flushed shown).flatten.map Stamped.item ++ b.buffer.items.map Stamped.item =
          [1, 2, 3, 4] ∧
        b.act (.add 6) = ({ accepted := some .no }, b) := by
  have shut : Action.shutDown ∈ fullPeriodShut := by decide
  obtain ⟨shown, b, behind, order, -, -, after⟩ :=
    run_keeps_order 2 10 (by decide) fullPeriodShut
  have shown_eq : shown = ((Batcher.start 2 10).run fullPeriodShut).1 := by rw [behind]
  have accepted : taken fullPeriodShut shown = [1, 2, 3, 4] := by
    rw [shown_eq]
    decide
  have batches : (flushed shown).map (List.map Stamped.item) = [[1, 2], [3], [4]] := by
    rw [shown_eq]
    decide
  exact ⟨by decide, shut, shown, b, behind, accepted, batches, order.trans accepted,
    (after shut).2.2.1 6⟩

end Batcher

end SchemaUsage.Reporting

import SchemaUsage.Reporting.Buffer

/-!
# Batching on a clock

Model of `Batcher`, used by one caller after another. A batcher buffers items and flushes them in
batches: when the buffer is full, at each multiple of a period, and when it is shut down. Its clock
moves only when it is told to; period and time are counted in one unit, which is the caller's
choice.

* Between two steps all tasks have come to rest: what `add` and the interval leave to a task has
  been flushed. Steps that overlap are the matter of `Reporting.Interleaving`.
* The handler (`FlushHandler`) takes no time.

Results:
- `flush_nonempty`: a batch is never empty.
- `advance_split`: time that passes in two steps flushes what it flushes in one.

Out of scope: a batcher that is dropped while items are buffered.
-/

namespace SchemaUsage.Reporting

/-- An item with the time at which it was added (`Buffered`). -/
structure Stamped (α : Type) where
  item : α
  addedAt : Nat
  deriving Repr, DecidableEq

/-- Buffered items and a clock with a period. -/
structure Batcher (α : Type) where
  period : Nat
  now : Nat := 0
  buffer : Buffer (Stamped α)
  deriving Repr, DecidableEq

/-- A list of items as batches to flush: one batch, unless there is nothing (`flush_items`). -/
def batchesOf (items : List α) : List (List α) :=
  if items.isEmpty then [] else [items]

theorem flush_nonempty {items batch : List α} (h : batch ∈ batchesOf items) : batch ≠ [] := by
  unfold batchesOf at h
  split at h <;> simp_all

namespace Batcher

variable {α : Type}

/-- A batcher that has just been started (`Batcher::start`). -/
def start (capacity period : Nat) : Batcher α :=
  { period := period, buffer := { capacity := capacity } }

/-- Whether the batcher refuses items (`is_closed`). -/
def closed (b : Batcher α) : Bool := b.buffer.closed

/-- Whether an addition is accepted. -/
inductive Accepted where
  | yes
  | no
  deriving Repr, DecidableEq

/-- The wording for a refused item (`BatcherError::Closed`). -/
def closedMessage : String := "batcher has been shut down"

/-- What a step of a batcher shows: the flushed batches, and for an addition whether it was
accepted. -/
structure Shown (α : Type) where
  flushed : List (List (Stamped α)) := []
  accepted : Option Accepted := none
  deriving Repr, DecidableEq

/-- **Adds an item** (`Batcher::add`). -/
def add (b : Batcher α) (item : α) : Shown α × Batcher α :=
  match b.buffer.add ⟨item, b.now⟩ with
  | (.refused, buffer) => ({ accepted := some .no }, { b with buffer := buffer })
  | (.stays, buffer) => ({ accepted := some .yes }, { b with buffer := buffer })
  | (.fills items, buffer) =>
    ({ flushed := batchesOf items, accepted := some .yes }, { b with buffer := buffer })

/-- Whether a multiple of the period comes after `now` and up to `later`. -/
def ticksBetween (period now later : Nat) : Bool := now / period < later / period

/-- **Lets time pass.** However many ticks pass, what is buffered is flushed once: the loop over
`interval.tick()` finds nothing at the later ones. -/
def advance (b : Batcher α) (time : Nat) : Shown α × Batcher α :=
  let later := b.now + time
  if ticksBetween b.period b.now later then
    let (items, buffer) := b.buffer.drain
    ({ flushed := batchesOf items }, { b with now := later, buffer := buffer })
  else ({}, { b with now := later })

/-- **Shuts the batcher down** and flushes the rest (`wait_for_all`). -/
def shutDown (b : Batcher α) : Shown α × Batcher α :=
  let (items, buffer) := b.buffer.close
  ({ flushed := batchesOf items }, { b with buffer := buffer })

/-! ## Runs -/

/-- A step of a batcher. -/
inductive Action (α : Type) where
  | add (item : α)
  | advance (time : Nat)
  | shutDown
  deriving Repr, DecidableEq

/-- One step. -/
def act (b : Batcher α) : Action α → Shown α × Batcher α
  | .add item => b.add item
  | .advance time => b.advance time
  | .shutDown => b.shutDown

/-- What the steps of a run show, and the batcher behind them. -/
def run (b : Batcher α) : List (Action α) → List (Shown α) × Batcher α
  | [] => ([], b)
  | action :: actions =>
    let (shown, b) := b.act action
    let (others, b) := b.run actions
    (shown :: others, b)

theorem advance_split (b : Batcher α) (x y : Nat) :
    (b.advance (x + y)).1.flushed =
        (b.advance x).1.flushed ++ ((b.advance x).2.advance y).1.flushed ∧
      (b.advance (x + y)).2 = ((b.advance x).2.advance y).2 := by
  have mono : b.now / b.period ≤ (b.now + x) / b.period :=
    Nat.div_le_div_right (Nat.le_add_right _ _)
  have mono' : (b.now + x) / b.period ≤ (b.now + x + y) / b.period :=
    Nat.div_le_div_right (Nat.le_add_right _ _)
  simp only [advance, ticksBetween, ← Nat.add_assoc]
  by_cases h : b.now / b.period < (b.now + x) / b.period <;>
    by_cases h' : (b.now + x) / b.period < (b.now + x + y) / b.period
  · have h'' : b.now / b.period < (b.now + x + y) / b.period := by omega
    simp [h, h', h'', Buffer.drain, batchesOf]
  · have h'' : b.now / b.period < (b.now + x + y) / b.period := by omega
    simp [h, h', h'', Buffer.drain, batchesOf]
  · have h'' : b.now / b.period < (b.now + x + y) / b.period := by omega
    simp [h, h', h'', Buffer.drain, batchesOf]
  · have h'' : ¬ b.now / b.period < (b.now + x + y) / b.period := by omega
    simp [h, h', h'']

end Batcher

end SchemaUsage.Reporting

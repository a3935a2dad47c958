import SchemaUsage.Reporting.Batcher

/-!
# Batchers in concurrent use

Model of `Batcher` under any interleaving of its tasks: any number of producers `add` items to one
batcher, and any number of callers are in `wait_for_all`. A step is what somebody does while holding
the lock of the buffer, or what becomes of a batch: its carrier begins to hand it to the handler
(`on_flush`), or the handler is done with it. The clock is left out: the task of the interval may
flush whenever it rests.

* A producer whose item fills the buffer leaves the batch to a **task** of its own
  (`tracker.spawn`), before it releases the lock.
* The **ticker** (the loop in `Batcher::start`) carries what it drains itself. It stops once the
  buffer is closed, behind which the token is cancelled (`token.cancel`).
* A **closing caller** closes the buffer and keeps the rest, waits until no task is left and the
  ticker has stopped (`tracker.wait`), and then carries the rest itself.

Results:
- `Step.closed`: a closed buffer stays closed.

Out of scope: a handler that panics, a caller that is dropped while it waits, and whether a step is
ever taken (fairness).
-/

namespace SchemaUsage.Reporting

/-! ## States -/

/-- A batch in somebody's hands, and whether the handler is at work on it. -/
structure Load (α : Type) where
  batch : List α
  begun : Bool := false
  deriving Repr, DecidableEq

/-- The task of the interval, spawned by `Batcher::start`. -/
inductive Ticker (α : Type) where
  | resting
  | carrying (load : Load α)
  | stopped
  deriving Repr, DecidableEq

/-- A caller that shuts the batcher down: where it is in `wait_for_all`. -/
inductive Closing (α : Type) where
  | arrived
  | waiting (rest : List α)
  | carrying (load : Load α)
  | returned
  deriving Repr, DecidableEq

/-- A batcher in use, with all items that were accepted and refused so far. -/
structure Shared (α : Type) where
  buffer : Buffer α
  tasks : List (Load α) := []
  ticker : Ticker α := .resting
  callers : List (Closing α) := []
  delivered : List (List α) := []
  accepted : List α := []
  refused : List α := []
  deriving Repr, DecidableEq

variable {α : Type}

/-- The items that the ticker carries. -/
def Ticker.items : Ticker α → List α
  | carrying load => load.batch
  | _ => []

/-- The items that a caller carries or keeps. -/
def Closing.items : Closing α → List α
  | waiting rest => rest
  | carrying load => load.batch
  | _ => []

/-- The items in all hands: tasks, ticker and callers. -/
def Shared.carried (s : Shared α) : List α :=
  s.tasks.flatMap Load.batch ++ s.ticker.items ++ s.callers.flatMap Closing.items

/-- The items in all places. -/
def Shared.everywhere (s : Shared α) : List α :=
  s.buffer.items ++ s.carried ++ s.delivered.flatten

/-! ## Steps -/

/-- The ticker with what it has drained. -/
def Ticker.ofDrained (items : List α) : Ticker α :=
  if items.isEmpty then resting else carrying { batch := items }

/-- A caller that is done with waiting. -/
def Closing.ofRest (rest : List α) : Closing α :=
  if rest.isEmpty then returned else carrying { batch := rest }

/-- **One step** of anybody who takes part. -/
inductive Step : Shared α → Shared α → Prop where
  | refuse {s : Shared α} {item : α} {buffer : Buffer α}
      (added : s.buffer.add item = (.refused, buffer)) :
      Step s { s with buffer := buffer, refused := s.refused ++ [item] }
  | keep {s : Shared α} {item : α} {buffer : Buffer α}
      (added : s.buffer.add item = (.stays, buffer)) :
      Step s { s with buffer := buffer, accepted := s.accepted ++ [item] }
  | fill {s : Shared α} {item : α} {batch : List α} {buffer : Buffer α}
      (added : s.buffer.add item = (.fills batch, buffer)) :
      Step s { s with
        buffer := buffer
        accepted := s.accepted ++ [item]
        tasks := s.tasks ++ [{ batch := batch }] }
  | beginTask {s : Shared α} {before after : List (Load α)} {batch : List α}
      (tasks : s.tasks = before ++ ⟨batch, false⟩ :: after) :
      Step s { s with tasks := before ++ ⟨batch, true⟩ :: after }
  | endTask {s : Shared α} {before after : List (Load α)} {batch : List α}
      (tasks : s.tasks = before ++ ⟨batch, true⟩ :: after) :
      Step s { s with tasks := before ++ after, delivered := s.delivered ++ [batch] }
  | tick {s : Shared α} (ticker : s.ticker = .resting) :
      Step s { s with buffer := s.buffer.drain.2, ticker := .ofDrained s.buffer.drain.1 }
  | beginTick {s : Shared α} {batch : List α} (ticker : s.ticker = .carrying ⟨batch, false⟩) :
      Step s { s with ticker := .carrying ⟨batch, true⟩ }
  | endTick {s : Shared α} {batch : List α} (ticker : s.ticker = .carrying ⟨batch, true⟩) :
      Step s { s with ticker := .resting, delivered := s.delivered ++ [batch] }
  | stop {s : Shared α} (ticker : s.ticker = .resting) (closed : s.buffer.closed = true) :
      Step s { s with ticker := .stopped }
  | arrive {s : Shared α} : Step s { s with callers := s.callers ++ [.arrived] }
  | close {s : Shared α} {before after : List (Closing α)}
      (callers : s.callers = before ++ .arrived :: after) :
      Step s { s with
        buffer := s.buffer.close.2
        callers := before ++ .waiting s.buffer.close.1 :: after }
  | observe {s : Shared α} {before after : List (Closing α)} {rest : List α}
      (callers : s.callers = before ++ .waiting rest :: after)
      (tasks : s.tasks = []) (ticker : s.ticker = .stopped) :
      Step s { s with callers := before ++ .ofRest rest :: after }
  | beginRest {s : Shared α} {before after : List (Closing α)} {batch : List α}
      (callers : s.callers = before ++ .carrying ⟨batch, false⟩ :: after) :
      Step s { s with callers := before ++ .carrying ⟨batch, true⟩ :: after }
  | endRest {s : Shared α} {before after : List (Closing α)} {batch : List α}
      (callers : s.callers = before ++ .carrying ⟨batch, true⟩ :: after) :
      Step s { s with callers := before ++ .returned :: after, delivered := s.delivered ++ [batch] }

/-- The batcher of a capacity before anybody uses it. -/
def Shared.start (capacity : Nat) : Shared α := { buffer := { capacity := capacity } }

/-- The states that a batcher of a capacity can be in. -/
inductive Reachable (capacity : Nat) : Shared α → Prop where
  | start : Reachable capacity (Shared.start capacity)
  | step {s t : Shared α} : Reachable capacity s → Step s t → Reachable capacity t

/-! ## First facts -/

theorem Step.closed {s t : Shared α} (h : Step s t) (closed : s.buffer.closed = true) :
    t.buffer.closed = true := by
  cases h with
  | refuse added =>
    obtain ⟨-, rfl⟩ := Buffer.of_add_refused added
    exact closed
  | keep added => cases (Buffer.of_add_stays added).1.symm.trans closed
  | fill added => cases (Buffer.of_add_fills added).1.symm.trans closed
  | close => rfl
  | _ => exact closed

end SchemaUsage.Reporting

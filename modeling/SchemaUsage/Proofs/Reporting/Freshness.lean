import SchemaUsage.Proofs.Reporting.Batching

/-!
# How long a batcher holds its items

About the interval of `Batcher`. The ticks of a batcher are the multiples of its period. As each
tick takes out whatever is buffered, what is still there has come in since the last tick, and no
item waits for a full period. How the clock is moved does not matter: time that passes in two steps
flushes what it flushes in one, and everything before and after is shown alike.

* `elapsed` adds up the time of a run, from its steps alone.
* `Fresh` is what each step keeps: all that is buffered has come in since the last tick.

Results:
- `run_now`: the clock shows the time that has elapsed.
- `act_fresh`, `run_fresh`: what is buffered has come in since the last tick.
- `run_origin`: an item in the buffer bears the time of the step that has added it.
- `run_timely`: no item waits for a period, and time can be split.

Out of scope: handlers that take time. Where the items are then is told by
`Proofs.Reporting.Conservation`.
-/

namespace SchemaUsage.Reporting.Batcher

variable {α : Type}

/-! ## The clock -/

/-- The time that a step lets pass. -/
def Action.time : Action α → Nat
  | .advance time => time
  | _ => 0

/-- **The time that elapses** in a run. -/
def elapsed : List (Action α) → Nat
  | [] => 0
  | action :: actions => action.time + elapsed actions

theorem act_now (b : Batcher α) (action : Action α) :
    (b.act action).2.now = b.now + action.time := by
  cases action with
  | add item =>
    rw [act]
    rcases b.add_cases item with ⟨-, same⟩ | ⟨-, -, same⟩ | ⟨-, -, same⟩ <;> rw [same] <;> rfl
  | advance time =>
    rw [act]
    rcases b.advance_cases time with same | same <;> rw [same] <;> rfl
  | shutDown => rfl

theorem act_period (b : Batcher α) (action : Action α) : (b.act action).2.period = b.period := by
  cases action with
  | add item =>
    rw [act]
    rcases b.add_cases item with ⟨-, same⟩ | ⟨-, -, same⟩ | ⟨-, -, same⟩ <;> rw [same]
  | advance time =>
    rw [act]
    rcases b.advance_cases time with same | same <;> rw [same]
  | shutDown => rfl

theorem run_now (b : Batcher α) (actions : List (Action α)) :
    (b.run actions).2.now = b.now + elapsed actions := by
  induction actions generalizing b with
  | nil => rfl
  | cons action actions ih => rw [run_cons, ih, act_now, elapsed, Nat.add_assoc]

theorem run_period (b : Batcher α) (actions : List (Action α)) :
    (b.run actions).2.period = b.period := by
  induction actions generalizing b with
  | nil => rfl
  | cons action actions ih => rw [run_cons, ih, act_period]

/-! ## Ticks -/

/-- The last tick: the greatest multiple of the period that is not later than now. -/
def lastTick (b : Batcher α) : Nat := b.period * (b.now / b.period)

theorem lastTick_le (b : Batcher α) : b.lastTick ≤ b.now := Nat.mul_div_le _ _

theorem lt_lastTick_add {b : Batcher α} (positive : 0 < b.period) :
    b.now < b.lastTick + b.period := by
  have next : b.now < b.period * (b.now / b.period + 1) := Nat.lt_mul_div_succ _ positive
  rwa [Nat.mul_add, Nat.mul_one] at next

/-- Time without a tick moves the clock and nothing else. -/
theorem advance_quiet {b : Batcher α} {time : Nat}
    (quiet : b.now / b.period = (b.now + time) / b.period) :
    b.advance time = ({}, { b with now := b.now + time }) := by
  have none : ticksBetween b.period b.now (b.now + time) = false := by
    simp [ticksBetween, quiet]
  unfold advance
  simp [none]

/-- Time with a tick empties the buffer. -/
theorem advance_tick {b : Batcher α} {time : Nat}
    (tick : b.now / b.period < (b.now + time) / b.period) :
    (b.advance time).2.buffer.items = [] := by
  have some : ticksBetween b.period b.now (b.now + time) = true := by
    simpa [ticksBetween] using tick
  unfold advance
  simp [some, Buffer.drain]

/-! ## What is buffered -/

/-- **All that is buffered has come in since the last tick.** -/
def Fresh (b : Batcher α) : Prop :=
  ∀ x ∈ b.buffer.items, b.lastTick ≤ x.addedAt ∧ x.addedAt ≤ b.now

theorem fresh_of_empty {b : Batcher α} (empty : b.buffer.items = []) : b.Fresh := by
  intro x mem
  rw [empty] at mem
  exact absurd mem List.not_mem_nil

theorem act_fresh {b : Batcher α} (fresh : b.Fresh) (action : Action α) :
    (b.act action).2.Fresh := by
  cases action with
  | add item =>
    rw [act]
    rcases b.add_cases item with ⟨-, same⟩ | ⟨-, -, same⟩ | ⟨-, -, same⟩
    · rw [same]
      exact fresh
    · rw [same]
      intro x mem
      rcases List.mem_append.mp mem with earlier | new
      · exact fresh x earlier
      · obtain rfl := List.mem_singleton.mp new
        exact ⟨b.lastTick_le, Nat.le_refl _⟩
    · rw [same]
      exact fresh_of_empty rfl
  | advance time =>
    rw [act]
    have later : b.now / b.period ≤ (b.now + time) / b.period :=
      Nat.div_le_div_right (Nat.le_add_right _ _)
    rcases Nat.lt_or_eq_of_le later with tick | quiet
    · exact fresh_of_empty (advance_tick tick)
    · rw [advance_quiet quiet]
      intro x mem
      obtain ⟨since, before⟩ := fresh x mem
      unfold lastTick at since ⊢
      rw [← quiet]
      exact ⟨since, Nat.le_add_right_of_le before⟩
  | shutDown => exact fresh_of_empty rfl

theorem run_fresh {b : Batcher α} (fresh : b.Fresh) (actions : List (Action α)) :
    (b.run actions).2.Fresh := by
  induction actions generalizing b with
  | nil => exact fresh
  | cons action actions ih =>
    rw [run_cons]
    exact ih (act_fresh fresh action)

/-- An item that is new in the buffer has been added just now. -/
theorem act_origin {b : Batcher α} {action : Action α} {x : Stamped α}
    (mem : x ∈ (b.act action).2.buffer.items) :
    x ∈ b.buffer.items ∨ action = .add x.item ∧ x.addedAt = b.now := by
  cases action with
  | add item =>
    rw [act] at mem
    rcases b.add_cases item with ⟨-, same⟩ | ⟨-, -, same⟩ | ⟨-, -, same⟩
    · rw [same] at mem
      exact .inl mem
    · rw [same] at mem
      rcases List.mem_append.mp mem with earlier | new
      · exact .inl earlier
      · obtain rfl := List.mem_singleton.mp new
        exact .inr ⟨rfl, rfl⟩
    · rw [same] at mem
      exact absurd mem List.not_mem_nil
  | advance time =>
    rw [act] at mem
    rcases b.advance_cases time with same | same
    · rw [same] at mem
      exact .inl mem
    · rw [same] at mem
      exact absurd mem List.not_mem_nil
  | shutDown => exact absurd mem List.not_mem_nil

/-- **Where a buffered item comes from**: it was there before the run, or a step of the run has
added it, at the time that had elapsed by then. -/
theorem run_origin {b : Batcher α} {actions : List (Action α)} {x : Stamped α}
    (mem : x ∈ (b.run actions).2.buffer.items) :
    x ∈ b.buffer.items ∨ ∃ before after, actions = before ++ .add x.item :: after ∧
      x.addedAt = b.now + elapsed before := by
  induction actions generalizing b with
  | nil => exact .inl mem
  | cons action actions ih =>
    rw [run_cons] at mem
    rcases ih mem with held | ⟨before, after, rfl, time⟩
    · rcases act_origin held with earlier | ⟨rfl, now⟩
      · exact .inl earlier
      · exact .inr ⟨[], actions, rfl, now⟩
    · refine .inr ⟨action :: before, after, rfl, ?_⟩
      rw [time, act_now, elapsed, Nat.add_assoc]

/-! ## Splitting time -/

theorem run_append (b : Batcher α) (before after : List (Action α)) :
    b.run (before ++ after) =
      ((b.run before).1 ++ ((b.run before).2.run after).1, ((b.run before).2.run after).2) := by
  induction before generalizing b with
  | nil => rfl
  | cons action before ih => rw [List.cons_append, run_cons, run_cons, ih, List.cons_append]

theorem length_run (b : Batcher α) (actions : List (Action α)) :
    (b.run actions).1.length = actions.length := by
  induction actions generalizing b with
  | nil => rfl
  | cons action actions ih => rw [run_cons, List.length_cons, List.length_cons, ih]

/-- **Time may pass in two steps as well as in one**, anywhere in a run: the two flush what the one
flushes, and everything else is shown alike. -/
theorem run_split (b : Batcher α) (before after : List (Action α)) (x y : Nat) :
    ∃ shown whole first second later behind,
      b.run (before ++ .advance (x + y) :: after) = (shown ++ whole :: later, behind) ∧
      b.run (before ++ .advance x :: .advance y :: after) =
        (shown ++ first :: second :: later, behind) ∧
      shown.length = before.length ∧ whole.flushed = first.flushed ++ second.flushed := by
  obtain ⟨batches, same⟩ := advance_split (b.run before).2 x y
  have one := run_append b before (.advance (x + y) :: after)
  have two := run_append b before (.advance x :: .advance y :: after)
  rw [run_cons, act, same] at one
  rw [run_cons, run_cons, act, act] at two
  exact ⟨_, _, _, _, _, _, one, two, length_run b before, batches⟩

/-- **A batcher is timely.** Behind any run of a new batcher its clock shows the time that has
elapsed, and whatever is buffered was added by a step of the run, not before the last multiple of
the period, and less than a period ago. A step in which time passes may be split in two wherever it
stands: the same batches are flushed, every other step shows the same, and the batcher behind the
run is the same. -/
theorem run_timely (capacity period : Nat) (positive : 0 < period) :
    (∀ actions : List (Action α), ∃ shown b, (start capacity period).run actions = (shown, b) ∧
      b.now = elapsed actions ∧
      ∀ x ∈ b.buffer.items,
        (∃ before after, actions = before ++ .add x.item :: after ∧ x.addedAt = elapsed before) ∧
        period * (b.now / period) ≤ x.addedAt ∧ x.addedAt ≤ b.now ∧
        b.now < x.addedAt + period) ∧
    ∀ (before after : List (Action α)) (x y : Nat), ∃ shown whole first second later b,
      (start capacity period).run (before ++ .advance (x + y) :: after) =
        (shown ++ whole :: later, b) ∧
      (start capacity period).run (before ++ .advance x :: .advance y :: after) =
        (shown ++ first :: second :: later, b) ∧
      shown.length = before.length ∧
      flushed (shown ++ whole :: later) = flushed (shown ++ first :: second :: later) := by
  constructor
  · intro actions
    have now := run_now (start capacity period : Batcher α) actions
    have fresh := run_fresh (fresh_of_empty (b := (start capacity period : Batcher α)) rfl) actions
    refine ⟨_, _, rfl, by rw [now]; exact Nat.zero_add _, fun x mem => ?_⟩
    obtain ⟨since, before⟩ := fresh x mem
    have recent := lt_lastTick_add
      (b := ((start capacity period : Batcher α).run actions).2) (by rwa [run_period])
    unfold lastTick at since recent
    rw [run_period] at since recent
    refine ⟨?_, since, before, Nat.lt_of_lt_of_le recent (Nat.add_le_add_right since _)⟩
    rcases run_origin mem with held | ⟨before, after, same, time⟩
    · exact absurd held List.not_mem_nil
    · exact ⟨before, after, same, time.trans (Nat.zero_add _)⟩
  · intro before after x y
    obtain ⟨shown, whole, first, second, later, b, one, two, length, batches⟩ :=
      run_split (start capacity period) before after x y
    refine ⟨shown, whole, first, second, later, b, one, two, length, ?_⟩
    simp only [flushed, List.flatMap_append, List.flatMap_cons, batches, List.append_assoc]

/-- A run in which one item is flushed by a tick and another one comes in behind it. -/
def twoPeriods : List (Action Nat) := [.add 1, .advance 12, .add 2, .advance 5]

/-- The item that came in at 12 waits at 17, and is gone at 20. -/
theorem run_timely_twoPeriods :
    0 < 10 ∧ ∃ shown b, (start 3 10).run twoPeriods = (shown, b) ∧ b.now = 17 ∧
      b.buffer.items = [⟨2, 12⟩] ∧
      (∀ x ∈ b.buffer.items, 10 * (17 / 10) ≤ x.addedAt ∧ 17 < x.addedAt + 10) ∧
      ∃ earlier whole first second later b',
        (start 3 10).run (twoPeriods ++ [.advance (2 + 4), .add 3]) =
          (earlier ++ whole :: later, b') ∧
        (start 3 10).run (twoPeriods ++ [.advance 2, .advance 4, .add 3]) =
          (earlier ++ first :: second :: later, b') ∧
        flushed (earlier ++ whole :: later) = flushed (earlier ++ first :: second :: later) ∧
        b'.buffer.items = [⟨3, 23⟩] := by
  obtain ⟨timely, split⟩ := run_timely (α := Nat) 3 10 (by decide)
  obtain ⟨shown, b, behind, now, waiting⟩ := timely twoPeriods
  obtain ⟨earlier, whole, first, second, later, b', one, two, -, batches⟩ :=
    split twoPeriods [.add 3] 2 4
  have now' : b.now = 17 := now
  have held : b.buffer.items = [⟨2, 12⟩] := by
    rw [show b = ((start 3 10).run twoPeriods).2 by rw [behind]]
    decide
  have held' : b'.buffer.items = [⟨3, 23⟩] := by
    rw [show b' = ((start 3 10).run (twoPeriods ++ [.advance (2 + 4), .add 3])).2 by rw [one]]
    decide
  rw [now'] at waiting
  exact ⟨by decide, shown, b, behind, now', held,
    fun x mem => ⟨(waiting x mem).2.1, (waiting x mem).2.2.2⟩,
    earlier, whole, first, second, later, b', one, two, batches, held'⟩

end SchemaUsage.Reporting.Batcher

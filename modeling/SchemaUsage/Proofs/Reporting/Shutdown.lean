import SchemaUsage.Proofs.Reporting.Conservation

/-!
# What it means that a call has returned

About `wait_for_all`. Any number of callers may shut one batcher down. The one that closes the
buffer keeps the rest and, after its wait, hands it to the handler itself. No task does that, so the
calls that come later, which keep nothing, do not wait for it.

* A call **turns** four times at most: it closes the buffer, it sees that nobody else is at work, it
  begins to hand its rest out, and it returns.
* Behind the wait of any call neither tasks nor the ticker hold a batch, nor will they again. What
  may still be held is the rest, by the one call that closed the buffer.

Results:
- `Step.orderly`: what each step keeps of the order of these turns.
- `Reachable.returned_behind_wait`: what holds once any call has returned.
- `returned_before_delivery`: that is not the delivery of all items.
- `Reachable.delivered_behind_first`: it is, if the call is the one that closed the buffer.
-/

namespace SchemaUsage.Reporting

variable {α : Type}

/-! ## Turns -/

/-- A caller that has closed the buffer, or found it closed. -/
def Closing.HasClosed : Closing α → Prop
  | arrived => False
  | _ => True

/-- A caller that has seen all tasks and the ticker end. -/
def Closing.HasWaited : Closing α → Prop
  | arrived | waiting _ => False
  | _ => True

/-- **What one step makes of the caller that takes it.** -/
inductive Turn (s t : Shared α) : Closing α → Closing α → Prop where
  | closes (closed : t.buffer.closed = true) : Turn s t .arrived (.waiting s.buffer.items)
  | observes (rest : List α) (tasks : s.tasks = []) (ticker : s.ticker = .stopped) :
      Turn s t (.waiting rest) (.ofRest rest)
  | begins (batch : List α) : Turn s t (.carrying ⟨batch, false⟩) (.carrying ⟨batch, true⟩)
  | returns (batch : List α) : Turn s t (.carrying ⟨batch, true⟩) .returned

/-- **All that a step can do to the callers**: nothing, or one arrives, or one takes its turn. -/
theorem Step.callers_cases {s t : Shared α} (step : Step s t) :
    t.callers = s.callers ∨ t.callers = s.callers ++ [.arrived] ∨
      ∃ before caller next after, Turn s t caller next ∧
        s.callers = before ++ caller :: after ∧ t.callers = before ++ next :: after := by
  cases step with
  | arrive => exact .inr (.inl rfl)
  | close callers => exact .inr (.inr ⟨_, _, _, _, .closes rfl, callers, rfl⟩)
  | observe callers tasks ticker =>
    exact .inr (.inr ⟨_, _, _, _, .observes _ tasks ticker, callers, rfl⟩)
  | beginRest callers => exact .inr (.inr ⟨_, _, _, _, .begins _, callers, rfl⟩)
  | endRest callers => exact .inr (.inr ⟨_, _, _, _, .returns _, callers, rfl⟩)
  | _ => exact .inl rfl

theorem Step.caller_at {s t : Shared α} (step : Step s t) {i : Nat} {caller : Closing α}
    (here : t.callers[i]? = some caller) :
    s.callers[i]? = some caller ∨ caller = .arrived ∨
      ∃ past, s.callers[i]? = some past ∧ Turn s t past caller := by
  rcases step.callers_cases with same | arrives | ⟨before, past, next, after, turn, callers, turned⟩
  · rw [same] at here
    exact .inl here
  · rw [arrives] at here
    by_cases old : i < s.callers.length
    · rw [List.getElem?_append_left old] at here
      exact .inl here
    · rw [List.getElem?_append_right (Nat.le_of_not_lt old)] at here
      exact .inr (.inl (List.mem_singleton.mp (List.mem_of_getElem? here)))
  · have replaced : t.callers = s.callers.set before.length next := by simp [callers, turned]
    rw [replaced] at here
    by_cases turns : before.length = i
    · subst turns
      have was : s.callers[before.length]? = some past := by simp [callers]
      have bound : before.length < s.callers.length := (List.getElem?_eq_some_iff.mp was).1
      rw [List.getElem?_set_self bound] at here
      cases here
      exact .inr (.inr ⟨past, was, turn⟩)
    · rw [List.getElem?_set_ne turns] at here
      exact .inl here

theorem Step.mem_callers {s t : Shared α} (step : Step s t) {caller : Closing α}
    (mem : caller ∈ t.callers) :
    caller ∈ s.callers ∨ caller = .arrived ∨ ∃ past ∈ s.callers, Turn s t past caller := by
  obtain ⟨i, here⟩ := List.getElem?_of_mem mem
  rcases step.caller_at here with old | new | ⟨past, was, turn⟩
  · exact .inl (List.mem_of_getElem? old)
  · exact .inr (.inl new)
  · exact .inr (.inr ⟨past, List.mem_of_getElem? was, turn⟩)

theorem Ticker.ofDrained_ne_stopped (items : List α) : Ticker.ofDrained items ≠ stopped := by
  unfold ofDrained
  by_cases empty : items.isEmpty = true
  · rw [if_pos empty]
    exact nofun
  · rw [if_neg empty]
    exact nofun

/-- The ticker stops only when the buffer is closed. -/
theorem Step.stopped {s t : Shared α} (step : Step s t) (stopped : t.ticker = .stopped) :
    s.ticker = .stopped ∨ s.buffer.closed = true := by
  cases step with
  | tick => exact absurd stopped (Ticker.ofDrained_ne_stopped _)
  | beginTick => cases stopped
  | endTick => cases stopped
  | stop _ closed => exact .inr closed
  | _ => exact .inl stopped

/-- Behind a closed buffer, a stopped ticker and the last task, no new task comes and the ticker
does not start again. -/
theorem Step.still {s t : Shared α} (step : Step s t) (closed : s.buffer.closed = true)
    (still : s.tasks = [] ∧ s.ticker = .stopped) : t.tasks = [] ∧ t.ticker = .stopped := by
  obtain ⟨tasks, ticker⟩ := still
  cases step with
  | fill added => cases (Buffer.of_add_fills added).1.symm.trans closed
  | beginTask some => exact absurd (tasks.symm.trans some) (by simp)
  | endTask some => exact absurd (tasks.symm.trans some) (by simp)
  | tick resting => cases ticker.symm.trans resting
  | beginTick carrying => cases ticker.symm.trans carrying
  | endTick carrying => cases ticker.symm.trans carrying
  | stop resting => cases ticker.symm.trans resting
  | _ => exact ⟨tasks, ticker⟩

/-! ## The order of turns -/

/-- **What holds of those who shut a batcher down**, whenever one looks. -/
structure Orderly (s : Shared α) : Prop where
  stopped : s.ticker = .stopped → s.buffer.closed = true
  closed : ∀ caller ∈ s.callers, caller.HasClosed → s.buffer.closed = true
  waited : ∀ caller ∈ s.callers, caller.HasWaited → s.tasks = [] ∧ s.ticker = .stopped
  single : (s.callers.flatMap Closing.batches).length ≤ 1

theorem Orderly.no_batches {s : Shared α} (orderly : Orderly s) (opened : s.buffer.closed = false) :
    ∀ caller ∈ s.callers, caller.batches = [] := by
  intro caller mem
  cases caller with
  | arrived => rfl
  | waiting | carrying | returned => cases opened.symm.trans (orderly.closed _ mem trivial)

theorem Turn.closed {s t : Shared α} {caller next : Closing α} (turn : Turn s t caller next)
    (before : caller.HasClosed → t.buffer.closed = true) : t.buffer.closed = true := by
  cases turn with
  | closes closed => exact closed
  | _ => exact before trivial

theorem Turn.waited {s t : Shared α} {caller next : Closing α} (turn : Turn s t caller next)
    (before : caller.HasWaited → s.tasks = [] ∧ s.ticker = .stopped) (waited : next.HasWaited) :
    s.tasks = [] ∧ s.ticker = .stopped := by
  cases turn with
  | closes => exact waited.elim
  | observes rest tasks ticker => exact ⟨tasks, ticker⟩
  | _ => exact before trivial

/-- A turn adds no batch to what its caller holds, unless that is what is left in the buffer. -/
theorem Turn.length_batches {s t : Shared α} {caller next : Closing α}
    (turn : Turn s t caller next) :
    next.batches.length ≤ caller.batches.length + (batchesOf s.buffer.items).length := by
  cases turn <;> simp

theorem Step.length_batches {s t : Shared α} (step : Step s t) :
    (t.callers.flatMap Closing.batches).length ≤
      (s.callers.flatMap Closing.batches).length + (batchesOf s.buffer.items).length := by
  rcases step.callers_cases with same | arrives | ⟨before, past, next, after, turn, callers, turned⟩
  · rw [same]
    exact Nat.le_add_right _ _
  · rw [arrives]
    simp
  · have one := turn.length_batches
    rw [callers, turned]
    simp only [List.flatMap_append, List.flatMap_cons, List.length_append]
    omega

theorem length_batchesOf_le (items : List α) : (batchesOf items).length ≤ 1 := by
  unfold batchesOf
  split <;> simp

theorem Step.orderly {s t : Shared α} (step : Step s t) (orderly : Orderly s)
    (empty : s.buffer.closed = true → s.buffer.items = []) : Orderly t where
  stopped := by
    intro stopped
    rcases step.stopped stopped with before | closed
    · exact step.closed (orderly.stopped before)
    · exact step.closed closed
  closed := by
    intro caller mem has
    rcases step.mem_callers mem with old | rfl | ⟨before, old, turn⟩
    · exact step.closed (orderly.closed caller old has)
    · exact has.elim
    · exact turn.closed fun has => step.closed (orderly.closed before old has)
  waited := by
    intro caller mem has
    have before : s.tasks = [] ∧ s.ticker = .stopped := by
      rcases step.mem_callers mem with old | rfl | ⟨before, old, turn⟩
      · exact orderly.waited caller old has
      · exact has.elim
      · exact turn.waited (orderly.waited before old) has
    exact step.still (orderly.stopped before.2) before
  single := by
    refine Nat.le_trans step.length_batches ?_
    by_cases closed : s.buffer.closed = true
    · rw [empty closed]
      exact orderly.single
    · have none : s.callers.flatMap Closing.batches = [] :=
        List.flatMap_eq_nil_iff.mpr (orderly.no_batches (by simpa using closed))
      rw [none, List.length_nil, Nat.zero_add]
      exact length_batchesOf_le _

theorem Reachable.orderly {capacity : Nat} {s : Shared α} (reachable : Reachable capacity s) :
    Orderly s := by
  induction reachable with
  | start => exact ⟨nofun, nofun, nofun, Nat.zero_le 1⟩
  | step before step ih => exact step.orderly ih fun closed => (before.shut closed).empty

/-! ## Behind a call -/

/-- **What holds once a call has returned.** The buffer is closed and empty, and neither tasks nor
the ticker hold a batch. Each item that was accepted has been delivered, or it is in the one batch
that a call may hold which has not returned; if no call holds any, all items have been delivered. -/
theorem Reachable.returned_behind_wait {capacity : Nat} {s : Shared α}
    (reachable : Reachable capacity s) (returned : .returned ∈ s.callers) :
    s.buffer.closed = true ∧ s.buffer.items = [] ∧ s.tasks = [] ∧ s.ticker = .stopped ∧
      s.accepted.Perm (s.callers.flatMap Closing.items ++ s.delivered.flatten) ∧
      (s.callers.flatMap Closing.batches).length ≤ 1 ∧
      ((∀ caller ∈ s.callers, caller.items = []) → s.accepted.Perm s.delivered.flatten) := by
  have orderly := reachable.orderly
  obtain ⟨tasks, ticker⟩ := orderly.waited _ returned trivial
  obtain ⟨closed, empty⟩ := reachable.shut (orderly.stopped ticker)
  have accepted : s.accepted.Perm (s.callers.flatMap Closing.items ++ s.delivered.flatten) := by
    have perm := reachable.accepted_perm
    rw [s.flatten_places] at perm
    simpa [Shared.everywhere, Shared.carried, empty, tasks, ticker, Ticker.items] using perm
  refine ⟨closed, empty, tasks, ticker, accepted, orderly.single, fun none => ?_⟩
  rwa [List.flatMap_eq_nil_iff.mpr none, List.nil_append] at accepted

/-- A batcher that was shut down once more while the handler was at work on the rest. -/
def overtaken : Shared Nat where
  buffer := { capacity := 2, closed := true }
  ticker := .stopped
  callers := [.carrying ⟨[7], true⟩, .returned]
  accepted := [7]

theorem reachable_overtaken : Reachable 2 overtaken := by
  have h := @Reachable.start Nat 2
  have h := h.step (@Step.keep Nat _ 7 _ rfl)
  have h := h.step .arrive
  have h := h.step (@Step.close Nat _ [] _ rfl)
  have h := h.step (.stop rfl rfl)
  have h := h.step (@Step.observe Nat _ [] _ _ rfl rfl rfl)
  have h := h.step (@Step.beginRest Nat _ [] _ _ rfl)
  have h := h.step .arrive
  have h := h.step (@Step.close Nat _ [_] _ rfl)
  have h := h.step (@Step.observe Nat _ [_] _ _ rfl rfl rfl)
  exact h

theorem returned_behind_wait_overtaken :
    Reachable 2 overtaken ∧ .returned ∈ overtaken.callers ∧
      overtaken.accepted.Perm ([7] ++ overtaken.delivered.flatten) := by
  have returned : .returned ∈ overtaken.callers := by decide
  obtain ⟨-, -, -, -, accepted, -⟩ := reachable_overtaken.returned_behind_wait returned
  exact ⟨reachable_overtaken, returned, accepted⟩

/-- **A call can return before all items are delivered** that were accepted before: the second call
finds no task and a stopped ticker while the handler is at work on the rest of the first. -/
theorem returned_before_delivery :
    ¬ ∀ (capacity : Nat) (s : Shared Nat), Reachable capacity s → .returned ∈ s.callers →
      ∀ item ∈ s.accepted, item ∈ s.delivered.flatten := by
  intro barrier
  have delivered := barrier 2 overtaken reachable_overtaken (by decide) 7 (by decide)
  exact absurd delivered (by decide)

/-! ## Behind the first call -/

/-- Of those who shut the batcher down, only the caller at a place holds items. -/
def Shared.OnlyHolder (s : Shared α) (i : Nat) : Prop :=
  ∀ j caller, s.callers[j]? = some caller → j ≠ i → caller.items = []

theorem Closing.items_of_batches {caller : Closing α} (none : caller.batches = []) :
    caller.items = [] := by
  rw [← caller.flatten_batches, none, List.flatten_nil]

theorem Turn.items {s t : Shared α} {caller next : Closing α} (turn : Turn s t caller next)
    (empty : s.buffer.items = []) (none : caller.items = []) : next.items = [] := by
  cases turn with
  | closes => exact empty
  | observes rest =>
    rw [← Closing.flatten_batches, Closing.batches_ofRest, flatten_batchesOf]
    exact none
  | begins => exact none
  | returns => rfl

theorem Step.onlyHolder {s t : Shared α} (step : Step s t) (shut : s.Shut) {i : Nat}
    (only : s.OnlyHolder i) : t.OnlyHolder i := by
  intro j caller here apart
  rcases step.caller_at here with old | rfl | ⟨past, was, turn⟩
  · exact only j caller old apart
  · rfl
  · exact turn.items shut.empty (only j past was apart)

theorem Shared.Shut.onlyHolder_later {s t : Shared α} (shut : s.Shut)
    (steps : Relation.ReflTransGen Step s t) {i : Nat} (only : s.OnlyHolder i) :
    t.OnlyHolder i := by
  induction steps with
  | refl => exact only
  | tail steps step ih => exact step.onlyHolder (shut.later steps).1 ih

theorem Reachable.later {capacity : Nat} {s t : Shared α} (reachable : Reachable capacity s)
    (steps : Relation.ReflTransGen Step s t) : Reachable capacity t := by
  induction steps with
  | refl => exact reachable
  | tail _ step ih => exact ih.step step

/-- As long as the buffer is open no caller holds anything, so the one that closes it is the only
one then. -/
theorem Orderly.onlyHolder_close {s t : Shared α} (orderly : Orderly s)
    (opened : s.buffer.closed = false) {before after : List (Closing α)} {rest : List α}
    (callers : s.callers = before ++ .arrived :: after)
    (turned : t.callers = before ++ .waiting rest :: after) : t.OnlyHolder before.length := by
  intro j caller here apart
  have replaced : t.callers = s.callers.set before.length (.waiting rest) := by simp [callers, turned]
  rw [replaced, List.getElem?_set_ne apart.symm] at here
  exact Closing.items_of_batches (orderly.no_batches opened caller (List.mem_of_getElem? here))

/-- **Behind the call that has closed the buffer all items are delivered**, whoever else shuts the
batcher down meanwhile. -/
theorem Reachable.delivered_behind_first {capacity : Nat} {s t : Shared α}
    {before after : List (Closing α)} (reachable : Reachable capacity s)
    (opened : s.buffer.closed = false) (callers : s.callers = before ++ .arrived :: after)
    (later : Relation.ReflTransGen Step
      { s with
        buffer := s.buffer.close.2
        callers := before ++ .waiting s.buffer.close.1 :: after } t)
    (returned : t.callers[before.length]? = some .returned) :
    t.accepted.Perm t.delivered.flatten := by
  have only : t.OnlyHolder before.length :=
    Shared.Shut.onlyHolder_later ⟨rfl, rfl⟩ later
      (reachable.orderly.onlyHolder_close opened callers rfl)
  have behind := ((reachable.step (.close callers)).later later).returned_behind_wait
    (List.mem_of_getElem? returned)
  refine behind.2.2.2.2.2.2 fun caller mem => ?_
  obtain ⟨j, here⟩ := List.getElem?_of_mem mem
  by_cases self : j = before.length
  · rw [self, returned] at here
    cases here
    rfl
  · exact only j caller here self

end SchemaUsage.Reporting

import Mathlib.Data.List.Nodup
import Mathlib.Logic.Relation
import SchemaUsage.Proofs.Reporting.Batching
import SchemaUsage.Reporting.Interleaving

/-!
# Where the items of a shared batcher are

About `Batcher` in concurrent use. Between the moment at which a batch leaves the buffer and the
moment at which the handler is done with it, the batch is in somebody's hands, and everybody else
goes on. Whatever the order of their steps, each accepted item is in one place, and no other item is
in any.

* The **places** of a state are its buffer and its **batches**: those that tasks, the ticker and
  closing callers hold, and those that were delivered.
* A step **moves** items. What it takes in joins the end of the buffer, and the batches that it
  forms are taken off the front; all other batches change hands or stay.

Results:
- `Step.moves`: what each step takes in and forms.
- `Reachable.accepted_perm`: what was accepted is what is in all places, as often.
- `Shared.Shut.later`: once the buffer is closed, nothing is taken in or formed.
- `Reachable.each_in_one_place`: what holds in each state that anybody's steps lead to.

Out of scope: whether a batch is ever delivered. No step has to be taken.
-/

namespace SchemaUsage.Reporting

variable {α : Type}

/-! ## Places -/

/-- The batch that the ticker holds, if any. -/
def Ticker.batches : Ticker α → List (List α)
  | carrying load => [load.batch]
  | _ => []

/-- The batch that a caller holds, if any. The rest that a waiting caller keeps is one, unless
there is nothing. -/
def Closing.batches : Closing α → List (List α)
  | waiting rest => batchesOf rest
  | carrying load => [load.batch]
  | _ => []

/-- **All batches** that were formed: those in somebody's hands, and the delivered ones. -/
def Shared.batches (s : Shared α) : List (List α) :=
  s.tasks.map Load.batch ++ s.ticker.batches ++ s.callers.flatMap Closing.batches ++ s.delivered

/-- **All places** that an item can be in: the buffer and each batch. -/
def Shared.places (s : Shared α) : List (List α) := s.buffer.items :: s.batches

@[simp] theorem Ticker.batches_resting : (resting : Ticker α).batches = [] := rfl

@[simp] theorem Ticker.batches_carrying (load : Load α) :
    (carrying load).batches = [load.batch] := rfl

@[simp] theorem Ticker.batches_stopped : (stopped : Ticker α).batches = [] := rfl

@[simp] theorem Closing.batches_arrived : (arrived : Closing α).batches = [] := rfl

@[simp] theorem Closing.batches_waiting (rest : List α) :
    (waiting rest).batches = batchesOf rest := rfl

@[simp] theorem Closing.batches_carrying (load : Load α) :
    (carrying load).batches = [load.batch] := rfl

@[simp] theorem Closing.batches_returned : (returned : Closing α).batches = [] := rfl

@[simp] theorem Ticker.batches_ofDrained (items : List α) :
    (Ticker.ofDrained items).batches = batchesOf items := by
  unfold ofDrained batchesOf
  by_cases empty : items.isEmpty = true
  · rw [if_pos empty, if_pos empty]
    rfl
  · rw [if_neg empty, if_neg empty]
    rfl

@[simp] theorem Closing.batches_ofRest (rest : List α) :
    (Closing.ofRest rest).batches = batchesOf rest := by
  unfold ofRest batchesOf
  by_cases empty : rest.isEmpty = true
  · rw [if_pos empty, if_pos empty]
    rfl
  · rw [if_neg empty, if_neg empty]
    rfl

theorem Ticker.flatten_batches (ticker : Ticker α) : ticker.batches.flatten = ticker.items := by
  cases ticker with
  | carrying load => exact List.append_nil _
  | resting | stopped => rfl

theorem Closing.flatten_batches (caller : Closing α) : caller.batches.flatten = caller.items := by
  cases caller with
  | waiting rest => exact flatten_batchesOf rest
  | carrying load => exact List.append_nil _
  | arrived | returned => rfl

theorem Closing.flatten_flatMap_batches (callers : List (Closing α)) :
    (callers.flatMap Closing.batches).flatten = callers.flatMap Closing.items := by
  induction callers with
  | nil => rfl
  | cons caller callers ih =>
    rw [List.flatMap_cons, List.flatten_append, caller.flatten_batches, ih, List.flatMap_cons]

theorem Shared.flatten_places (s : Shared α) : s.places.flatten = s.everywhere := by
  simp only [places, batches, everywhere, carried, List.flatten_cons, List.flatten_append,
    Ticker.flatten_batches, Closing.flatten_flatMap_batches, List.append_assoc]
  rfl

/-! ## Steps -/

/-- **What a step does to the items**: it takes `taken` in and forms the batches `formed`. -/
structure Moves (s t : Shared α) (taken : List α) (formed : List (List α)) : Prop where
  accepted : t.accepted = s.accepted ++ taken
  items : formed.flatten ++ t.buffer.items = s.buffer.items ++ taken
  batches : t.batches.Perm (s.batches ++ formed)
  filled : ∀ batch ∈ formed, batch ≠ []
  refuses : s.buffer.closed = true → taken = []
  empties : t.buffer.closed = true → s.buffer.closed = true ∨ t.buffer.items = []

/-- A step that does not touch the buffer. -/
theorem Moves.quiet {s t : Shared α} (accepted : t.accepted = s.accepted)
    (buffer : t.buffer = s.buffer) (batches : t.batches.Perm s.batches) : Moves s t [] [] where
  accepted := by rw [accepted, List.append_nil]
  items := by rw [buffer, List.append_nil, List.flatten_nil, List.nil_append]
  batches := by rwa [List.append_nil]
  filled := fun _ mem => absurd mem List.not_mem_nil
  refuses := fun _ => rfl
  empties := fun closed => .inl (by rwa [buffer] at closed)

/-- A step that drains the buffer into one hand. -/
theorem Moves.drain {s t : Shared α} (accepted : t.accepted = s.accepted)
    (items : t.buffer.items = []) (batches : t.batches.Perm (s.batches ++ batchesOf s.buffer.items)) :
    Moves s t [] (batchesOf s.buffer.items) where
  accepted := by rw [accepted, List.append_nil]
  items := by rw [items, flatten_batchesOf]
  batches := batches
  filled := fun _ mem => flush_nonempty mem
  refuses := fun _ => rfl
  empties := fun _ => .inr items

theorem count_batches [DecidableEq α] (s : Shared α) (batch : List α) :
    s.batches.count batch = (s.tasks.map Load.batch).count batch + s.ticker.batches.count batch +
      (s.callers.flatMap Closing.batches).count batch + s.delivered.count batch := by
  simp only [Shared.batches, List.count_append]

/-- **All that a step can do to the items**, whoever takes it. -/
theorem Step.moves {s t : Shared α} (step : Step s t) :
    ∃ taken formed, Moves s t taken formed := by
  classical
  cases step with
  | refuse added =>
    obtain ⟨-, rfl⟩ := Buffer.of_add_refused added
    exact ⟨[], [], .quiet rfl rfl (.refl _)⟩
  | @keep item _ added =>
    obtain ⟨opened, rfl⟩ := Buffer.of_add_stays added
    refine ⟨[item], [], rfl, rfl, ?_, fun _ mem => absurd mem List.not_mem_nil, ?_, .inl⟩
    · rw [List.append_nil]
      exact .refl _
    · intro closed
      cases opened.symm.trans closed
  | @fill item _ _ added =>
    obtain ⟨opened, rfl, rfl⟩ := Buffer.of_add_fills added
    refine ⟨[item], [s.buffer.items ++ [item]], rfl, ?_, ?_, ?_, ?_, .inl⟩
    · simp
    · refine List.perm_iff_count.mpr fun batch => ?_
      simp only [count_batches, List.count_append, List.map_append, List.map_cons, List.map_nil]
      omega
    · intro batch mem
      rw [List.mem_singleton.mp mem]
      exact List.append_ne_nil_of_right_ne_nil _ (List.cons_ne_nil _ _)
    · intro closed
      cases opened.symm.trans closed
  | @beginTask before after batch tasks =>
    refine ⟨[], [], .quiet rfl rfl ?_⟩
    simp [Shared.batches, tasks]
  | @endTask before after batch tasks =>
    refine ⟨[], [], .quiet rfl rfl (List.perm_iff_count.mpr fun other => ?_)⟩
    simp only [count_batches, tasks, List.map_append, List.map_cons, List.count_append,
      List.count_cons, List.count_nil]
    omega
  | tick ticker =>
    refine ⟨[], _, .drain rfl rfl (List.perm_iff_count.mpr fun other => ?_)⟩
    simp only [count_batches, ticker, Ticker.batches_resting, Ticker.batches_ofDrained,
      List.count_append, List.count_nil, Buffer.drain]
    omega
  | @beginTick batch ticker =>
    refine ⟨[], [], .quiet rfl rfl ?_⟩
    simp [Shared.batches, ticker]
  | @endTick batch ticker =>
    refine ⟨[], [], .quiet rfl rfl (List.perm_iff_count.mpr fun other => ?_)⟩
    simp only [count_batches, ticker, Ticker.batches_resting, Ticker.batches_carrying,
      List.count_append, List.count_nil]
    omega
  | stop ticker closed =>
    refine ⟨[], [], .quiet rfl rfl ?_⟩
    simp [Shared.batches, ticker]
  | arrive =>
    refine ⟨[], [], .quiet rfl rfl ?_⟩
    simp [Shared.batches]
  | @close before after callers =>
    refine ⟨[], _, .drain rfl rfl (List.perm_iff_count.mpr fun other => ?_)⟩
    simp only [count_batches, callers, Closing.batches_arrived, Closing.batches_waiting,
      List.flatMap_append, List.flatMap_cons, List.count_append, List.count_nil, Buffer.close]
    omega
  | @observe before after rest callers tasks ticker =>
    refine ⟨[], [], .quiet rfl rfl ?_⟩
    simp [Shared.batches, callers]
  | @beginRest before after batch callers =>
    refine ⟨[], [], .quiet rfl rfl ?_⟩
    simp [Shared.batches, callers]
  | @endRest before after batch callers =>
    refine ⟨[], [], .quiet rfl rfl (List.perm_iff_count.mpr fun other => ?_)⟩
    simp only [count_batches, callers, Closing.batches_carrying, Closing.batches_returned,
      List.flatMap_append, List.flatMap_cons, List.count_append, List.count_nil]
    omega

/-! ## Runs -/

theorem Moves.accepted_perm {s t : Shared α} {taken : List α} {formed : List (List α)}
    (moves : Moves s t taken formed) (h : s.accepted.Perm s.places.flatten) :
    t.accepted.Perm t.places.flatten := by
  classical
  refine List.perm_iff_count.mpr fun item => ?_
  have before := h.count_eq item
  have items := congrArg (List.count item) moves.items
  have batches := moves.batches.flatten.count_eq item
  rw [moves.accepted]
  simp only [Shared.places, List.flatten_cons, List.flatten_append, List.count_append]
    at before items batches ⊢
  omega

/-- **What was accepted is what is in all places**, as often. -/
theorem Reachable.accepted_perm {capacity : Nat} {s : Shared α} (reachable : Reachable capacity s) :
    s.accepted.Perm s.places.flatten := by
  induction reachable with
  | start => exact .refl _
  | step _ step ih =>
    obtain ⟨taken, formed, moves⟩ := step.moves
    exact moves.accepted_perm ih

/-- A state whose buffer is closed and empty. -/
structure Shared.Shut (s : Shared α) : Prop where
  closed : s.buffer.closed = true
  empty : s.buffer.items = []

theorem Step.shut {s t : Shared α} (step : Step s t) (shut : s.Shut) :
    t.Shut ∧ t.accepted = s.accepted ∧ t.batches.Perm s.batches := by
  obtain ⟨taken, formed, moves⟩ := step.moves
  have nothing : taken = [] := moves.refuses shut.closed
  have items : formed.flatten ++ t.buffer.items = [] := by
    rw [moves.items, shut.empty, nothing, List.append_nil]
  obtain ⟨flat, empty⟩ := List.append_eq_nil_iff.mp items
  have none : formed = [] := by
    refine List.eq_nil_iff_forall_not_mem.mpr fun batch mem => ?_
    exact moves.filled batch mem (List.flatten_eq_nil_iff.mp flat batch mem)
  refine ⟨⟨step.closed shut.closed, empty⟩, ?_, ?_⟩
  · rw [moves.accepted, nothing, List.append_nil]
  · have batches := moves.batches
    rwa [none, List.append_nil] at batches

theorem Reachable.shut {capacity : Nat} {s : Shared α} (reachable : Reachable capacity s)
    (closed : s.buffer.closed = true) : s.Shut := by
  induction reachable with
  | start => cases closed
  | @step s t _ step ih =>
    obtain ⟨taken, formed, moves⟩ := step.moves
    rcases moves.empties closed with before | empty
    · exact (step.shut (ih before)).1
    · exact ⟨closed, empty⟩

/-- **Once the buffer is closed, nothing is taken in and no batch is formed**, in however many
steps. -/
theorem Shared.Shut.later {s t : Shared α} (shut : s.Shut) (steps : Relation.ReflTransGen Step s t) :
    t.Shut ∧ t.accepted = s.accepted ∧ t.batches.Perm s.batches := by
  induction steps with
  | refl => exact ⟨shut, rfl, .refl _⟩
  | tail _ step ih =>
    obtain ⟨shut', accepted, batches⟩ := ih
    obtain ⟨shut'', accepted', batches'⟩ := step.shut shut'
    exact ⟨shut'', accepted'.trans accepted, batches'.trans batches⟩

/-- In lists that have no member in common or twice, a member has one list to be in. -/
theorem existsUnique_mem_getElem {places : List (List α)} (nodup : places.flatten.Nodup) {item : α}
    (mem : item ∈ places.flatten) : ∃! i : Fin places.length, item ∈ places[i] := by
  obtain ⟨place, place_mem, item_mem⟩ := List.mem_flatten.mp mem
  obtain ⟨i, bound, rfl⟩ := List.getElem_of_mem place_mem
  have apart := List.pairwise_iff_getElem.mp (List.nodup_flatten.mp nodup).2
  refine ⟨⟨i, bound⟩, item_mem, fun j other_mem => Fin.ext ?_⟩
  rcases Nat.lt_trichotomy j i with before | same | behind
  · exact absurd item_mem (apart j i j.isLt bound before other_mem)
  · exact same
  · exact absurd other_mem (apart i j bound j.isLt behind item_mem)

/-- **Each accepted item is in one place**, whoever adds items and shuts the batcher down, and in
whatever order they act. What was accepted is what is in the buffer, in all hands and delivered;
items that can be told apart are each in one place, and there once. A refused item is in none. Once
the buffer is closed it stays empty, and whatever happens then, the batches are those that there
were. -/
theorem Reachable.each_in_one_place {capacity : Nat} {s : Shared α}
    (reachable : Reachable capacity s) :
    s.accepted.Perm s.everywhere ∧
      (s.accepted.Nodup → s.everywhere.Nodup ∧
        ∀ item ∈ s.accepted, ∃! i : Fin s.places.length, item ∈ s.places[i]) ∧
      (∀ item ∈ s.refused, item ∉ s.accepted → ∀ place ∈ s.places, item ∉ place) ∧
      (s.buffer.closed = true → s.buffer.items = [] ∧
        ∀ t, Relation.ReflTransGen Step s t →
          t.buffer.closed = true ∧ t.buffer.items = [] ∧ t.batches.Perm s.batches) := by
  have perm : s.accepted.Perm s.places.flatten := reachable.accepted_perm
  refine ⟨?_, fun nodup => ?_, ?_, fun closed => ?_⟩
  · rwa [← s.flatten_places]
  · have apart : s.places.flatten.Nodup := perm.nodup_iff.mp nodup
    refine ⟨?_, fun item mem => existsUnique_mem_getElem apart (perm.mem_iff.mp mem)⟩
    rwa [← s.flatten_places]
  · intro item _ fresh place place_mem item_mem
    exact fresh (perm.mem_iff.mpr (List.mem_flatten.mpr ⟨place, place_mem, item_mem⟩))
  · have shut : s.Shut := reachable.shut closed
    refine ⟨shut.empty, fun t steps => ?_⟩
    obtain ⟨shut', -, batches⟩ := shut.later steps
    exact ⟨shut'.closed, shut'.empty, batches⟩

/-- A batcher that two callers shut down while a task, the ticker and the first of them hold a batch
each. One more batch is delivered, and one item came too late. -/
def allHands : Shared Nat where
  buffer := { capacity := 2, closed := true }
  tasks := [⟨[3, 4], true⟩]
  ticker := .carrying ⟨[5], false⟩
  callers := [.waiting [6], .waiting []]
  delivered := [[1, 2]]
  accepted := [1, 2, 3, 4, 5, 6]
  refused := [7]

theorem reachable_allHands : Reachable 2 allHands := by
  have h := @Reachable.start Nat 2
  have h := h.step (@Step.keep Nat _ 1 _ rfl)
  have h := h.step (@Step.fill Nat _ 2 _ _ rfl)
  have h := h.step (@Step.beginTask Nat _ [] _ _ rfl)
  have h := h.step (@Step.endTask Nat _ [] _ _ rfl)
  have h := h.step (@Step.keep Nat _ 3 _ rfl)
  have h := h.step (@Step.fill Nat _ 4 _ _ rfl)
  have h := h.step (@Step.beginTask Nat _ [] _ _ rfl)
  have h := h.step (@Step.keep Nat _ 5 _ rfl)
  have h := h.step (.tick rfl)
  have h := h.step (@Step.keep Nat _ 6 _ rfl)
  have h := h.step .arrive
  have h := h.step .arrive
  have h := h.step (@Step.close Nat _ [] _ rfl)
  have h := h.step (@Step.refuse Nat _ 7 _ rfl)
  have h := h.step (@Step.close Nat _ [_] _ rfl)
  exact h

theorem each_in_one_place_allHands :
    Reachable 2 allHands ∧ allHands.accepted.Perm allHands.everywhere ∧
      (∃! i : Fin allHands.places.length, 6 ∈ allHands.places[i]) ∧
      (∀ place ∈ allHands.places, 7 ∉ place) ∧
      allHands.buffer.items = [] ∧
      ∀ t, Relation.ReflTransGen Step allHands t → t.batches.Perm [[3, 4], [5], [6], [1, 2]] := by
  obtain ⟨perm, once, never, shut⟩ := reachable_allHands.each_in_one_place
  obtain ⟨empty, later⟩ := shut rfl
  exact ⟨reachable_allHands, perm, (once (by decide)).2 6 (by decide),
    never 7 (by decide) (by decide), empty, fun t steps => (later t steps).2.2⟩

end SchemaUsage.Reporting

import Mathlib
import SchemaUsage.Proofs.Usage.Tellings

/-!
# What a processor remembers shows in sharing only

About `OperationProcessor` and its cache. A processor that has been called before answers like a
fresh one. What it remembers of a text is what the text gives by itself, whichever call has put it
there; answers that depend on supplied variables are neither looked up nor remembered; and a failing
call changes nothing. What a caller can tell of the past is that two answers are one shared record:
this holds if and only if the text is the same and neither answer depends on variables.

Each call that computes an answer tells the usage in a way of its own. What has been remembered can
be told in any way; a text that fails is told anew each time, and may name another missed type.

* `Does` lists all that one call can do.
* `Sound` says what holds of a processor's memory, `Later` how a processor develops.

Results:
- `Does.shown_eq`: a processor with a sound memory answers what the text gives by itself.
- `Does.shares`: when two calls, one behind the other, are answered with one record.
- `run_transparent`: the same for all calls of a run of a fresh processor.
- `answers_named_apart`: a call whose error names another type than a fresh processor.

Out of scope: calls at the same time, and a memory that is full.
-/

namespace SchemaUsage.Usage

/-- Without supplied variables that are processed, a text gives what it gives without any. -/
theorem Collector.processText_free {c : Collector} {supplied : Option VariableValues}
    (free : (c.options.processVariables && supplied.isSome) = false) (text : String)
    (tell : Telling := usage) :
    c.processText text supplied tell = c.processText text none tell := by
  have same : Strategy.ofSupplied c.options.processVariables supplied =
      .ofSupplied c.options.processVariables none := by
    cases supplied with
    | none => rfl
    | some values =>
      have unprocessed : c.options.processVariables = false := by simpa using free
      rw [unprocessed]
      rfl
  unfold Collector.processText Collector.collect
  rw [same]

namespace Processor

/-! ## Calls -/

/-- What an answer shows, without the number of its record. -/
def shown (answer : Answer) : Except ProcessingError (Option UsageRecord) :=
  answer.map (Option.map SharedRecord.record)

/-- The shared record for a new record. -/
def numbered (p : Processor) (record : Option UsageRecord) : Option SharedRecord :=
  record.map fun record => ⟨p.made, record⟩

/-- The processor behind a new record. -/
def counted (p : Processor) (record : Option UsageRecord) : Processor :=
  { p with made := p.made + record.toList.length }

/-- **All that a call can do** to a processor: reuse an answer, fail, compute an answer that
depends on variables, or learn an answer. -/
inductive Does (p : Processor) (call : Call) (tell : Telling) : Answer → Processor → Prop where
  | reuse {answer : Option SharedRecord} (free : p.dependsOnVariables call.supplied = false)
      (known : p.remembered.lookup call.text = some answer) : Does p call tell (.ok answer) p
  | fail {e : ProcessingError}
      (fails : p.collector.processText call.text call.supplied tell = .error e) :
      Does p call tell (.error e) p
  | bypass {record : Option UsageRecord} (depends : p.dependsOnVariables call.supplied = true)
      (gives : p.collector.processText call.text call.supplied tell = .ok record) :
      Does p call tell (.ok (p.numbered record)) (p.counted record)
  | learn {record : Option UsageRecord} (free : p.dependsOnVariables call.supplied = false)
      (unknown : p.remembered.lookup call.text = none)
      (gives : p.collector.processText call.text call.supplied tell = .ok record) :
      Does p call tell (.ok (p.numbered record))
        { p.counted record with remembered := (call.text, p.numbered record) :: p.remembered }

theorem compute_eq_error {p : Processor} {text : String} {supplied : Option VariableValues}
    {tell : Telling} {e : ProcessingError}
    (fails : p.collector.processText text supplied tell = .error e) :
    p.compute text supplied tell = (.error e, p) := by
  rw [compute, fails]

theorem compute_eq_ok {p : Processor} {text : String} {supplied : Option VariableValues}
    {tell : Telling} {record : Option UsageRecord}
    (gives : p.collector.processText text supplied tell = .ok record) :
    p.compute text supplied tell = (.ok (p.numbered record), p.counted record) := by
  rw [compute, gives]
  cases record <;> rfl

theorem does_process (p : Processor) (call : Call) (tell : Telling) :
    Does p call tell (p.process call.text call.supplied tell).1
      (p.process call.text call.supplied tell).2 := by
  unfold process
  cases gives : p.collector.processText call.text call.supplied tell with
  | error e =>
    rw [compute_eq_error gives]
    split
    · exact .fail gives
    · rename_i free
      cases known : p.remembered.lookup call.text with
      | none => exact .fail gives
      | some answer => exact .reuse (Bool.eq_false_iff.mpr free) known
  | ok record =>
    rw [compute_eq_ok gives]
    split
    · rename_i depends
      exact .bypass depends gives
    · rename_i free
      cases known : p.remembered.lookup call.text with
      | none => exact .learn (Bool.eq_false_iff.mpr free) known gives
      | some answer => exact .reuse (Bool.eq_false_iff.mpr free) known

/-! ## What holds of a processor -/

/-- **A sound memory**: what is remembered of a text is what the text gives by itself, and the
records for different texts are different objects that have been made before. -/
structure Sound (c : Collector) (p : Processor) : Prop where
  collector : p.collector = c
  own : ∀ text answer, p.remembered.lookup text = some answer →
    c.processText text none = .ok (answer.map SharedRecord.record)
  made : ∀ text shared, p.remembered.lookup text = some (some shared) → shared.number < p.made
  apart : ∀ text other shared twin, p.remembered.lookup text = some (some shared) →
    p.remembered.lookup other = some (some twin) → shared.number = twin.number → text = other

/-- **How a processor develops**: it forgets nothing, and the records that it learns are new. -/
structure Later (p q : Processor) : Prop where
  made : p.made ≤ q.made
  keeps : ∀ text answer, p.remembered.lookup text = some answer →
    q.remembered.lookup text = some answer
  adds : ∀ text shared, q.remembered.lookup text = some (some shared) →
    p.remembered.lookup text = some (some shared) ∨ p.made ≤ shared.number

theorem sound_fresh (c : Collector) : Sound c (fresh c) where
  collector := rfl
  own _ _ known := by cases known
  made _ _ known := by cases known
  apart _ _ _ _ known := by cases known

theorem Later.refl (p : Processor) : Later p p := ⟨Nat.le_refl _, fun _ _ => id, fun _ _ => .inl⟩

theorem Later.trans {p q r : Processor} (first : Later p q) (second : Later q r) : Later p r where
  made := Nat.le_trans first.made second.made
  keeps text answer known := second.keeps text answer (first.keeps text answer known)
  adds text shared known := by
    rcases second.adds text shared known with before | new
    · exact first.adds text shared before
    · exact .inr (Nat.le_trans first.made new)

variable {c : Collector} {p q : Processor} {call : Call} {tell : Telling} {answer : Answer}

theorem numbered_eq_some {record : Option UsageRecord} {shared : SharedRecord}
    (h : p.numbered record = some shared) :
    shared.number = p.made ∧ shared.number < (p.counted record).made := by
  obtain ⟨own, rfl, rfl⟩ := Option.map_eq_some_iff.mp h
  exact ⟨rfl, Nat.lt_succ_self _⟩

theorem map_record_numbered (p : Processor) (record : Option UsageRecord) :
    (p.numbered record).map SharedRecord.record = record := by
  cases record <;> rfl

theorem shown_numbered (p : Processor) (record : Option UsageRecord) :
    shown (.ok (p.numbered record)) = .ok record :=
  congrArg Except.ok (map_record_numbered p record)

theorem lookup_cons_cases {text name : String} {new found : Option SharedRecord}
    {remembered : List (String × Option SharedRecord)}
    (known : ((name, new) :: remembered).lookup text = some found) :
    (text = name ∧ found = new) ∨ remembered.lookup text = some found := by
  rw [List.lookup_cons] at known
  split at known
  · rename_i same
    exact .inl ⟨eq_of_beq same, (Option.some.inj known).symm⟩
  · exact .inr known

theorem Does.later (does : Does p call tell answer q) : Later p q := by
  cases does with
  | reuse => exact .refl p
  | fail => exact .refl p
  | bypass => exact ⟨Nat.le_add_right _ _, fun _ _ => id, fun _ _ => .inl⟩
  | @learn record free unknown gives =>
    refine ⟨Nat.le_add_right _ _, fun text old known => ?_, fun text shared known => ?_⟩
    · rw [List.lookup_cons]
      split
      · rename_i same
        rw [eq_of_beq same, unknown] at known
        cases known
      · exact known
    · rcases lookup_cons_cases known with ⟨-, new⟩ | old
      · exact .inr (Nat.le_of_eq (numbered_eq_some new.symm).1.symm)
      · exact .inl old

theorem Does.sound (sound : Sound c p) (occurs : tell.Occurs) (does : Does p call tell answer q) :
    Sound c q := by
  cases does with
  | reuse => exact sound
  | fail => exact sound
  | bypass =>
    exact ⟨sound.collector, sound.own, fun text shared known =>
      Nat.lt_add_right _ (sound.made text shared known), sound.apart⟩
  | @learn record free unknown gives =>
    obtain rfl := sound.collector
    refine ⟨rfl, fun text found known => ?_, fun text shared known => ?_,
      fun text other shared twin known known' same => ?_⟩
    · rcases lookup_cons_cases known with ⟨rfl, rfl⟩ | old
      · -- the text gives the same in the order of the marks
        rw [Collector.processText_free free call.text tell] at gives
        rw [map_record_numbered]
        exact ((occurs.processText_agree _ none .marks call.text).ok_iff _).mp gives
      · exact sound.own text found old
    · rcases lookup_cons_cases known with ⟨-, new⟩ | old
      · exact (numbered_eq_some new.symm).2
      · exact Nat.lt_add_right _ (sound.made text shared old)
    · -- a new number is not below the count, as those of remembered records are
      rcases lookup_cons_cases known with ⟨rfl, new⟩ | old <;>
        rcases lookup_cons_cases known' with ⟨rfl, new'⟩ | old'
      · rfl
      · have before := sound.made other twin old'
        have here := (numbered_eq_some new.symm).1
        omega
      · have before := sound.made text shared old
        have here := (numbered_eq_some new'.symm).1
        omega
      · exact sound.apart text other shared twin old old' same

theorem Does.unchanged {e : ProcessingError} (does : Does p call tell (.error e) q) : q = p := by
  cases does with
  | fail fails => rfl

/-- **A sound memory does not show**: an answer shows what the text gives by itself. -/
theorem Does.shown_eq (sound : Sound c p) (occurs : tell.Occurs)
    (does : Does p call tell answer q) :
    shown answer = c.processText call.text call.supplied tell := by
  obtain rfl := sound.collector
  cases does with
  | reuse free known =>
    have agree := occurs.processText_agree p.collector none .marks call.text
    rw [Collector.processText_free free call.text tell]
    exact ((agree.ok_iff _).mpr (sound.own _ _ known)).symm
  | fail fails => exact fails.symm
  | bypass depends gives => rw [gives, shown_numbered]
  | learn free unknown gives => rw [gives, shown_numbered]

/-- What a processor with a sound memory does with a text that can be processed. -/
theorem Sound.process_eq_ok (sound : Sound c p) {text : String}
    {supplied : Option VariableValues} {record : Option UsageRecord}
    (gives : c.processText text supplied = .ok record) :
    ∃ answer q, p.process text supplied = (.ok answer, q) ∧
      answer.map SharedRecord.record = record ∧ Sound c q := by
  have does := p.does_process ⟨text, supplied⟩ usage
  have shows := (does.shown_eq sound .marks).trans gives
  cases given : (p.process text supplied).1 with
  | error e =>
    rw [given] at shows
    cases shows
  | ok answer =>
    rw [given] at shows
    exact ⟨answer, _, Prod.ext given rfl, Except.ok.inj shows, does.sound sound .marks⟩

/-- What a processor with a sound memory does with a text that cannot be processed. -/
theorem Sound.process_eq_error (sound : Sound c p) {text : String}
    {supplied : Option VariableValues} {e : ProcessingError}
    (fails : c.processText text supplied = .error e) :
    p.process text supplied = (.error e, p) := by
  have does := p.does_process ⟨text, supplied⟩ usage
  have shows := (does.shown_eq sound .marks).trans fails
  cases given : (p.process text supplied).1 with
  | ok answer =>
    rw [given] at shows
    cases shows
  | error other =>
    rw [given] at shows does
    cases shows
    exact Prod.ext given does.unchanged

/-! ## Shared records -/

variable {a b : SharedRecord}

/-- The records that have been handed out are numbered below the count. -/
theorem Does.number_lt (sound : Sound c p) (does : Does p call tell (.ok (some a)) q) :
    a.number < q.made := by
  generalize given : Except.ok (some a) = answer at does
  cases does with
  | reuse free known =>
    cases given
    exact sound.made _ _ known
  | fail => cases given
  | bypass => exact (numbered_eq_some (Except.ok.inj given).symm).2
  | learn => exact (numbered_eq_some (Except.ok.inj given).symm).2

/-- What does not depend on variables is remembered. -/
theorem Does.remembers {answer : Option SharedRecord} (does : Does p call tell (.ok answer) q)
    (free : p.dependsOnVariables call.supplied = false) :
    q.remembered.lookup call.text = some answer := by
  cases does with
  | reuse free known => exact known
  | bypass depends gives => rw [free] at depends; cases depends
  | learn free unknown gives => exact List.lookup_cons_self

/-- What depends on variables is not remembered. -/
theorem Does.forgets (sound : Sound c p) (does : Does p call tell (.ok (some a)) q)
    (depends : p.dependsOnVariables call.supplied = true) {text : String}
    (known : q.remembered.lookup text = some (some b)) : b.number < a.number := by
  generalize given : Except.ok (some a) = answer at does
  cases does with
  | reuse free _ => rw [free] at depends; cases depends
  | fail => cases given
  | bypass =>
    rw [(numbered_eq_some (Except.ok.inj given).symm).1]
    exact sound.made text b known
  | learn free _ _ => rw [free] at depends; cases depends

/-- **A call repeats another one**: it has the same text, and neither depends on variables. -/
def Repeats (c : Collector) (x y : Call) : Prop :=
  x.text = y.text ∧ (fresh c).dependsOnVariables x.supplied = false ∧
    (fresh c).dependsOnVariables y.supplied = false

section Shares

variable {x y : Call} {told told' : Telling} {p' q' : Processor}

theorem Does.repeats_of_number (sound : Sound c p) (first : Does p x told (.ok (some a)) p')
    (between : Later p' q) (sound' : Sound c q) (second : Does q y told' (.ok (some b)) q')
    (same : a.number = b.number) : Repeats c x y := by
  have made : a.number < p'.made := first.number_lt sound
  have made' : p'.made ≤ q.made := between.made
  generalize given : Except.ok (some b) = answer at second
  obtain rfl := sound.collector
  cases second with
  | fail => cases given
  | bypass =>
    have new := (numbered_eq_some (Except.ok.inj given).symm).1
    omega
  | learn =>
    have new := (numbered_eq_some (Except.ok.inj given).symm).1
    omega
  | reuse free known =>
    cases given
    cases depends : p.dependsOnVariables x.supplied with
    | true =>
      rcases between.adds _ _ known with before | new
      · have old : b.number < a.number := first.forgets sound depends before
        omega
      · omega
    | false =>
      have kept := between.keeps _ _ (first.remembers depends)
      unfold dependsOnVariables at free
      rw [sound'.collector] at free
      exact ⟨sound'.apart _ _ _ _ kept known same, depends, free⟩

theorem Does.eq_of_repeats (sound : Sound c p) (first : Does p x told (.ok (some a)) p')
    (between : Later p' q) (sound' : Sound c q) (second : Does q y told' (.ok (some b)) q')
    (repeats : Repeats c x y) : a = b := by
  obtain ⟨text, freeX, freeY⟩ := repeats
  obtain rfl := sound.collector
  have kept := between.keeps _ _ (first.remembers freeX)
  have free : q.dependsOnVariables y.supplied = false := by
    unfold dependsOnVariables
    rw [sound'.collector]
    exact freeY
  rw [text] at kept
  generalize given : Except.ok (some b) = answer at second
  cases second with
  | fail => cases given
  | bypass depends _ => rw [free] at depends; cases depends
  | learn _ unknown _ => rw [kept] at unknown; cases unknown
  | reuse _ known =>
    cases given
    rw [kept] at known
    exact Option.some.inj (Option.some.inj known)

/-- **Two answers are one record** if and only if the calls have the same text and neither depends
on variables. -/
theorem Does.shares (sound : Sound c p) (first : Does p x told (.ok (some a)) p')
    (between : Later p' q) (sound' : Sound c q) (second : Does q y told' (.ok (some b)) q') :
    (a.number = b.number ↔ Repeats c x y) ∧ (a.number = b.number → a = b) := by
  have repeats : a.number = b.number → Repeats c x y :=
    first.repeats_of_number sound between sound' second
  have same : Repeats c x y → a = b := first.eq_of_repeats sound between sound' second
  exact ⟨⟨repeats, fun h => congrArg SharedRecord.number (same h)⟩, fun h => same (repeats h)⟩

end Shares

/-! ## Runs -/

theorem runTold_cons (p : Processor) (told : Call × Telling) (calls : List (Call × Telling)) :
    p.runTold (told :: calls) =
      ((p.process told.1.text told.1.supplied told.2).1 ::
          ((p.process told.1.text told.1.supplied told.2).2.runTold calls).1,
        ((p.process told.1.text told.1.supplied told.2).2.runTold calls).2) := rfl

theorem runTold_append (p : Processor) (calls later : List (Call × Telling)) :
    (p.runTold (calls ++ later)).2 = ((p.runTold calls).2.runTold later).2 := by
  induction calls generalizing p with
  | nil => rfl
  | cons told calls ih => rw [List.cons_append, runTold_cons, ih, runTold_cons]

theorem runTold_sound (sound : Sound c p) {calls : List (Call × Telling)}
    (occur : ∀ told ∈ calls, told.2.Occurs) : Sound c (p.runTold calls).2 := by
  induction calls generalizing p with
  | nil => exact sound
  | cons told calls ih =>
    obtain ⟨first, others⟩ := List.forall_mem_cons.mp occur
    exact ih ((does_process p told.1 told.2).sound sound first) others

theorem run_sound (sound : Sound c p) (calls : List Call) : Sound c (p.run calls).2 := by
  refine runTold_sound sound fun told mem => ?_
  obtain ⟨call, -, rfl⟩ := List.mem_map.mp mem
  exact .marks

theorem runTold_later (p : Processor) (calls : List (Call × Telling)) :
    Later p (p.runTold calls).2 := by
  induction calls generalizing p with
  | nil => exact .refl p
  | cons told calls ih => exact (does_process p told.1 told.2).later.trans (ih _)

/-- **Each call of a run** meets the processor that the calls before it have left. -/
theorem runTold_getElem? (p : Processor) (calls : List (Call × Telling)) (i : Nat) :
    (p.runTold calls).1[i]? = calls[i]?.map fun told =>
      ((p.runTold (calls.take i)).2.process told.1.text told.1.supplied told.2).1 := by
  induction calls generalizing p i with
  | nil => rfl
  | cons told calls ih =>
    rw [runTold_cons]
    cases i with
    | zero => rfl
    | succ i =>
      rw [List.getElem?_cons_succ, List.getElem?_cons_succ, ih, List.take_succ_cons, runTold_cons]

theorem runTold_does (p : Processor) {calls : List (Call × Telling)} {i : Nat}
    {told : Call × Telling} {answer : Answer} (asked : calls[i]? = some told)
    (answered : (p.runTold calls).1[i]? = some answer) :
    Does (p.runTold (calls.take i)).2 told.1 told.2 answer
      (p.runTold (calls.take (i + 1))).2 := by
  rw [runTold_getElem?, asked, Option.map_some, Option.some.injEq] at answered
  rw [List.take_add_one, asked, runTold_append, ← answered]
  exact does_process _ told.1 told.2

/-- **The memory of a processor shows in sharing only.** In any run of a fresh processor each call
shows what a fresh processor shows for it if the usage is told in the same way. Told in another
way, a fresh processor shows the same as well, unless both fail and name a missed type. A failing
call leaves the processor as it was. Two records that are answered are one object if and only if the
later call repeats the earlier one. -/
theorem run_transparent (c : Collector) (calls : List (Call × Telling))
    (occur : ∀ told ∈ calls, told.2.Occurs) :
    ∃ answers q, (fresh c).runTold calls = (answers, q) ∧
      answers.map shown = (calls.map fun told =>
        shown ((fresh c).process told.1.text told.1.supplied told.2).1) ∧
      (∀ (i : Nat) call tell answer (other : Telling), calls[i]? = some (call, tell) →
        answers[i]? = some answer → other.Occurs →
        AgreeOrMiss (fun e => ProcessingError.collect (.usage e))
          (fun e => ∃ doc, Graphql.Document.parse? call.text = some doc ∧
            MissedBy c.schema (.ofSupplied c.options.processVariables call.supplied) doc e)
          (shown answer) (shown ((fresh c).process call.text call.supplied other).1)) ∧
      (∀ (i : Nat) e, answers[i]? = some (.error e) →
        ((fresh c).runTold (calls.take (i + 1))).2 = ((fresh c).runTold (calls.take i)).2) ∧
      ∀ (i j : Nat) x y a b, i < j → calls[i]? = some x → calls[j]? = some y →
        answers[i]? = some (.ok (some a)) → answers[j]? = some (.ok (some b)) →
        (a.number = b.number ↔ Repeats c x.1 y.1) ∧ (a.number = b.number → a = b) := by
  have sound (i : Nat) : Sound c ((fresh c).runTold (calls.take i)).2 :=
    runTold_sound (sound_fresh c) fun told mem => occur told (List.mem_of_mem_take mem)
  have shows {i : Nat} {told : Call × Telling} {answer : Answer} (asked : calls[i]? = some told)
      (answered : ((fresh c).runTold calls).1[i]? = some answer) :
      shown answer = c.processText told.1.text told.1.supplied told.2 :=
    (runTold_does _ asked answered).shown_eq (sound i)
      (occur told (List.mem_of_getElem? asked))
  have alone (call : Call) {tell : Telling} (occurs : tell.Occurs) :
      shown ((fresh c).process call.text call.supplied tell).1 =
        c.processText call.text call.supplied tell :=
    (does_process (fresh c) call tell).shown_eq (sound_fresh c) occurs
  refine ⟨_, _, rfl, ?same, ?agree, ?fails, ?shares⟩
  case same =>
    refine List.ext_getElem? fun i => ?_
    rw [List.getElem?_map, List.getElem?_map]
    cases asked : calls[i]? with
    | none => rw [runTold_getElem?, asked, Option.map_none, Option.map_none, Option.map_none]
    | some told =>
      have answered := runTold_getElem? (fresh c) calls i
      rw [asked, Option.map_some] at answered
      rw [answered, Option.map_some, Option.map_some, shows asked answered,
        alone told.1 (occur told (List.mem_of_getElem? asked))]
  case agree =>
    intro i call tell answer other asked answered occurs
    rw [shows asked answered, alone call occurs]
    exact (occur _ (List.mem_of_getElem? asked)).processText_agree c call.supplied occurs call.text
  case fails =>
    intro i e failed
    cases asked : calls[i]? with
    | none =>
      rw [runTold_getElem?, asked] at failed
      cases failed
    | some told => exact (runTold_does (fresh c) asked failed).unchanged
  case shares =>
    intro i j x y a b before asked asked' given given'
    obtain ⟨rest, split⟩ := List.take_prefix_take_left (l := calls) before
    have between : Later ((fresh c).runTold (calls.take (i + 1))).2
        ((fresh c).runTold (calls.take j)).2 := by
      rw [← split, runTold_append]
      exact runTold_later _ rest
    exact (runTold_does _ asked given).shares (sound i) between (sound j)
      (runTold_does _ asked' given')

/-! ## A run -/

/-- Records against a schema with two fields, whose keys are the texts themselves. Supplied
variables are processed. -/
def pairCollector : Collector where
  schema :=
    [.type ⟨none, "Query", [], .object []
        [⟨none, "a", [], .named "ID", []⟩, ⟨none, "b", [], .named "ID", []⟩]⟩,
      .type ⟨none, "ID", [], .scalar⟩]
  options := { processVariables := true, keyHash := fun text => text }

/-- Calls of which the second depends on variables, the third fails and the last repeats the
first. -/
def pairCalls : List Call :=
  [⟨"{a}", none⟩, ⟨"{a}", some []⟩, ⟨"\x7b", none⟩, ⟨"{b}", none⟩, ⟨"{a}", none⟩]

/-- The usage of each call of `pairCalls` is told backwards. -/
def pairTold : List (Call × Telling) := pairCalls.map fun call => (call, .inOrder List.reverse)

/-- What the calls are answered. -/
def pairAnswers : List Answer :=
  [.ok (some ⟨0, "\"{a}\"", "{a}", none, ["Query.a"]⟩),
    .ok (some ⟨1, "\"{a}\"", "{a}", none, ["Query.a"]⟩), .error .parse,
    .ok (some ⟨2, "\"{b}\"", "{b}", none, ["Query.b"]⟩),
    .ok (some ⟨0, "\"{a}\"", "{a}", none, ["Query.a"]⟩)]

theorem run_transparent_pairCalls :
    (∀ told ∈ pairTold, told.2.Occurs) ∧
      ((fresh pairCollector).runTold pairTold).1 = pairAnswers ∧
      shown ((fresh pairCollector).process "{a}" none (.inOrder List.reverse)).1 =
        .ok (some ⟨"\"{a}\"", "{a}", none, ["Query.a"]⟩) ∧
      shown ((fresh pairCollector).process "{a}" none).1 =
        .ok (some ⟨"\"{a}\"", "{a}", none, ["Query.a"]⟩) ∧
      ((fresh pairCollector).runTold (pairTold.take 3)).2 =
        ((fresh pairCollector).runTold (pairTold.take 2)).2 ∧
      Repeats pairCollector ⟨"{a}", none⟩ ⟨"{a}", none⟩ ∧
      ¬ Repeats pairCollector ⟨"{a}", none⟩ ⟨"{a}", some []⟩ := by
  have occur : ∀ told ∈ pairTold, told.2.Occurs := by
    intro told mem
    obtain ⟨call, -, rfl⟩ := List.mem_map.mp mem
    exact .table rearranges_reverse
  obtain ⟨answers, q, behind, shows, agree, fails, shares⟩ :=
    run_transparent pairCollector pairTold occur
  have given : ((fresh pairCollector).runTold pairTold).1 = pairAnswers := by cbv
  obtain rfl : answers = pairAnswers := by rw [← given, behind]
  refine ⟨occur, given, ?_, ?_, fails 2 .parse rfl, ?_, ?_⟩
  · exact (List.cons.inj shows).1.symm
  · exact ((agree 0 _ _ _ usage rfl rfl .marks).ok_iff _).mp rfl
  · exact (shares 0 4 _ _ _ _ (by decide) rfl rfl rfl rfl).1.mp rfl
  · intro repeats
    exact absurd ((shares 0 1 _ _ _ _ (by decide) rfl rfl rfl rfl).1.mpr repeats) (by decide)

/-- A text whose variables have two types that `pairCollector` does not know. -/
def strayText : String := "query($x:Up,$y:Down)\x7ba\x7d"

/-- **A call may fail with another error than a fresh processor**: told in two ways, the text misses
two types. -/
theorem answers_named_apart :
    ((fresh pairCollector).runTold [(⟨strayText, none⟩, .inOrder id)]).1 =
        [.error (.collect (.usage (.unknownType "Up")))] ∧
      ((fresh pairCollector).process strayText none (.inOrder List.reverse)).1 =
        .error (.collect (.usage (.unknownType "Down"))) ∧
      ¬ ∀ (calls : List (Call × Telling)) (other : Telling),
        (∀ told ∈ calls, told.2.Occurs) → other.Occurs →
        ((fresh pairCollector).runTold calls).1.map shown = calls.map fun told =>
          shown ((fresh pairCollector).process told.1.text told.1.supplied other).1 := by
  have up : ((fresh pairCollector).runTold [(⟨strayText, none⟩, .inOrder id)]).1 =
      [.error (.collect (.usage (.unknownType "Up")))] := by cbv
  have down : ((fresh pairCollector).process strayText none (.inOrder List.reverse)).1 =
      .error (.collect (.usage (.unknownType "Down"))) := by cbv
  refine ⟨up, down, fun same => ?_⟩
  have equal := same [(⟨strayText, none⟩, .inOrder id)] (.inOrder List.reverse)
    (List.forall_mem_singleton.mpr (.table rearranges_id)) (.table rearranges_reverse)
  rw [up] at equal
  simp [down, shown, Except.map] at equal

end Processor

end SchemaUsage.Usage

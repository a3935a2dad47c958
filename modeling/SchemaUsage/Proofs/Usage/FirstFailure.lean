import SchemaUsage.Proofs.Usage.Expansion

/-!
# The first failure counts

About the errors of `mark_entire_type`. Several types are expanded one after another, and what has
been expanded before is not expanded again. This has no influence on failures: what is left out is
closed under fields and defined, so an expansion behind others fails as it does by itself, with the
same error. The error of several expansions is therefore that of the first type in the row whose own
expansion fails, whatever stands between these types and whatever else they reach.

* `failure?` is what a result fails with.
* `Settled` says that names may be left out, `Thinned` that a stack is left without some of them.

Results:
- `failure?_expandPending`: leaving out what is settled changes no failure.
- `failure?_wholeIdentifiers`: several types fail with the first failure of one of them.
- `wholeIdentifiers_eq_error`: a failure names an undefined type in reach.
-/

namespace SchemaUsage.Usage

open SchemaUsage.Graphql

variable {s : Schema}

/-! ## Failures -/

section Failures

variable {ε α β : Type}

/-- What a result fails with, unless it is there. -/
def failure? : Except ε α → Option ε
  | .ok _ => none
  | .error e => some e

theorem failure?_map (f : α → β) (r : Except ε α) : failure? (r.map f) = failure? r := by
  cases r <;> rfl

theorem failure?_eq_some {r : Except ε α} {e : ε} : failure? r = some e ↔ r = .error e := by
  cases r <;> simp [failure?]

theorem failure?_eq_none {r : Except ε α} : failure? r = none ↔ ∃ a, r = .ok a := by
  cases r <;> simp [failure?]

end Failures

/-! ## The steps of an expansion -/

section Steps

variable {left : List TypeDefinition} {ids pending : List String} {name : String}
  {t : TypeDefinition}

/-- A type that has been expanded is skipped. -/
theorem expandPending_gone (gone : left.find? (fun t => t.name == name) = none) :
    expandPending s left ids (name :: pending) = expandPending s left ids pending := by
  rw [expandPending]
  split
  · rfl
  · rename_i found
    cases gone.symm.trans found

/-- A type that has not been expanded is expanded and lets its fields follow. -/
theorem expandPending_there (there : left.find? (fun t => t.name == name) = some t) :
    expandPending s left ids (name :: pending) =
      match requireFieldTypes s t with
      | .error e => .error e
      | .ok () =>
        expandPending s (left.filter fun u => u.name != name) (ids ++ ownIdentifiers t)
          ((fieldTypes t).reverse ++ pending) := by
  rw [expandPending]
  split
  · rename_i gone
    cases gone.symm.trans there
  · rename_i found
    cases found.symm.trans there
    rfl

end Steps

/-! ## What may be left out -/

/-- **Names that would do no harm**: what is left of their types has defined fields, and these lead
to such names again. -/
def Settled (s : Schema) (done : List String) (left : List TypeDefinition) : Prop :=
  ∀ name ∈ done, ∀ t, left.find? (fun t => t.name == name) = some t →
    requireFieldTypes s t = .ok () ∧ fieldTypes t ⊆ done

theorem Settled.filter {done : List String} {left : List TypeDefinition}
    (settled : Settled s done left) (other : String) :
    Settled s done (left.filter fun u => u.name != other) := by
  intro name mem t there
  rw [find?_filter_name (· != other)] at there
  split at there
  · exact settled name mem t there
  · cases there

/-- What is left without some names. -/
def without (done : List String) (left : List TypeDefinition) : List TypeDefinition :=
  left.filter fun t => t.name ∉ done

theorem find?_without {done : List String} {left : List TypeDefinition} {name : String} :
    (without done left).find? (fun t => t.name == name) =
      if name ∈ done then none else left.find? (fun t => t.name == name) := by
  unfold without
  rw [find?_filter_name fun name => decide (name ∉ done)]
  simp

theorem without_filter {done : List String} {left : List TypeDefinition} (name : String) :
    without done (left.filter fun u => u.name != name) =
      (without done left).filter fun u => u.name != name := by
  simp only [without, List.filter_filter, Bool.and_comm]

theorem without_filter_of_mem {done : List String} {left : List TypeDefinition} {name : String}
    (mem : name ∈ done) :
    without done (left.filter fun u => u.name != name) = without done left := by
  unfold without
  rw [List.filter_filter]
  refine List.filter_congr fun u _ => ?_
  by_cases same : u.name = name <;> simp [same, mem]

/-- **A stack without some of the names** that may be left out. -/
inductive Thinned (done : List String) : List String → List String → Prop where
  | nil : Thinned done [] []
  | keep (name : String) {pending thin : List String} (h : Thinned done pending thin) :
      Thinned done (name :: pending) (name :: thin)
  | drop {name : String} {pending thin : List String} (mem : name ∈ done)
      (h : Thinned done pending thin) : Thinned done (name :: pending) thin

namespace Thinned

variable {done pending thin : List String}

theorem append_left (h : Thinned done pending thin) (front : List String) :
    Thinned done (front ++ pending) (front ++ thin) := by
  induction front with
  | nil => exact h
  | cons name front ih => exact .keep name ih

theorem drop_left (h : Thinned done pending thin) {front : List String} (within : front ⊆ done) :
    Thinned done (front ++ pending) thin := by
  induction front with
  | nil => exact h
  | cons name front ih =>
    obtain ⟨mem, within⟩ := List.cons_subset.mp within
    exact .drop mem (ih within)

end Thinned

/-- **Leaving out what is settled changes no failure.** The two runs go side by side: where one of
them meets a settled name that the other leaves out, the fields of its type are settled again. -/
theorem failure?_expandPending {done : List String} {left : List TypeDefinition}
    {ids pending thin : List String} (settled : Settled s done left)
    (thinned : Thinned done pending thin) (ids' : List String) :
    failure? (expandPending s left ids pending) =
      failure? (expandPending s (without done left) ids' thin) := by
  -- The induction is on the run that leaves nothing out. The other one does not have the settled
  -- types, so it skips what this one expands of them.
  fun_induction expandPending s left ids pending generalizing thin ids' with
  | case1 left ids =>
    cases thinned
    simp [expandPending, failure?]
  | case2 left ids name pending gone ih =>
    cases thinned with
    | drop mem thinned => exact ih settled thinned ids'
    | keep _ thinned =>
      have gone' : (without done left).find? (fun t => t.name == name) = none := by
        rw [find?_without, gone, ite_self]
      rw [expandPending_gone gone']
      exact ih settled thinned ids'
  | case3 left ids name pending t there _ e fails =>
    have fresh : name ∉ done := by
      intro mem
      rw [(settled name mem t there).1] at fails
      cases fails
    cases thinned with
    | drop mem => exact absurd mem fresh
    | keep _ thinned =>
      rw [expandPending_there (find?_without.trans ((if_neg fresh).trans there)), fails]
  | case4 left ids name pending t there _ fields ih =>
    simp only [List.unattach_filter, List.unattach_attach] at ih
    have settled' := settled.filter name
    by_cases mem : name ∈ done
    · -- Only this run expands the type, and the other stack goes without its fields.
      have within : (fieldTypes t).reverse ⊆ done := fun other listed =>
        (settled name mem t there).2 (List.mem_reverse.mp listed)
      rw [without_filter_of_mem mem] at ih
      cases thinned with
      | drop _ thinned => exact ih settled' (thinned.drop_left within) ids'
      | keep _ thinned =>
        rw [expandPending_gone (find?_without.trans (if_pos mem))]
        exact ih settled' (thinned.drop_left within) ids'
    · -- Both runs expand the type, and both stacks get its fields.
      cases thinned with
      | drop mem' => exact absurd mem' mem
      | keep _ thinned =>
        rw [expandPending_there (find?_without.trans ((if_neg mem).trans there)), fields]
        rw [without_filter] at ih
        exact ih settled' (thinned.append_left _) _

/-! ## Several types -/

/-- What an expansion has done may be left out. -/
theorem Progress.settled {reach : String → Prop} {done : List String} {left : List TypeDefinition}
    {ids : List String} (h : Progress s reach done left ids []) : Settled s done s.types := by
  intro name mem t type
  have within : fieldTypes t ⊆ done := by
    intro other listed
    obtain ⟨field, declared⟩ := mem_fieldTypes.mp listed
    exact (h.closed name mem t field other type declared).resolve_right List.not_mem_nil
  exact ⟨requireFieldTypes_eq_ok.mpr fun other listed =>
    (h.done_reach other (within listed)).2, within⟩

/-- What the expansion of a type by itself fails with. -/
def ownFailure? (s : Schema) (name : String) : Option UsageError :=
  failure? (wholeIdentifiers s [name])

theorem ownFailure?_eq (name : String) :
    ownFailure? s name = failure? (Expansion.add s ⟨s.types, []⟩ name) := by
  unfold ownFailure? wholeIdentifiers
  rw [failure?_map, List.foldlM_cons]
  cases Expansion.add s ⟨s.types, []⟩ name <;> rfl

/-- A type fails behind others as it does by itself. -/
theorem failure?_add {reach : String → Prop} {done : List String} {e : Expansion}
    (h : Progress s reach done e.left e.ids []) (name : String) :
    failure? (e.add s name) = ownFailure? s name := by
  rw [ownFailure?_eq]
  unfold Expansion.add
  cases firstType s name with
  | error error => rfl
  | ok t =>
    have left : e.left = without done s.types := h.left_eq
    have same : failure? (expandPending s s.types [] [name]) =
        failure? (expandPending s (without done s.types) e.ids [name]) :=
      failure?_expandPending h.settled (.keep name .nil) e.ids
    rw [← left] at same
    exact same.symm

theorem failure?_foldlM_add (names : List String) {done : List String} {e : Expansion}
    (h : Progress s (fun _ => True) done e.left e.ids []) :
    failure? (names.foldlM (Expansion.add s) e) = names.findSome? (ownFailure? s) := by
  induction names generalizing done e with
  | nil => rfl
  | cons name names ih =>
    have own := failure?_add h name
    rw [List.foldlM_cons, List.findSome?_cons, ← own]
    cases added : e.add s name with
    | error error => rfl
    | ok e' =>
      obtain ⟨gets, -⟩ := add_progress (fun _ _ _ _ _ _ _ => trivial) trivial h
      obtain ⟨more, progress, -⟩ := gets e' added
      exact ih progress

/-- **Several types fail with the first failure of one of them.** -/
theorem failure?_wholeIdentifiers (names : List String) :
    failure? (wholeIdentifiers s names) = names.findSome? (ownFailure? s) := by
  unfold wholeIdentifiers
  rw [failure?_map]
  exact failure?_foldlM_add names .start

/-- A failure names an undefined type in reach. -/
theorem wholeIdentifiers_eq_error {names : List String} {e : UsageError}
    (failed : wholeIdentifiers s names = .error e) :
    ∃ start ∈ names, ∃ name, Reaches s start name ∧ e = .unknownType name ∧
      s.firstType? name = none := by
  have closed : ClosedUnderFields s fun name => ∃ start ∈ names, Reaches s start name := by
    rintro name t field other ⟨start, mem, first⟩ type declared
    exact ⟨start, mem, .field first type declared⟩
  obtain ⟨-, fails⟩ := foldlM_add_progress closed names ⟨s.types, []⟩
    (fun name mem => ⟨name, mem, .refl name⟩) .start
  rw [← failure?_eq_some, wholeIdentifiers, failure?_map, failure?_eq_some] at failed
  obtain ⟨name, ⟨start, mem, reaches⟩, named⟩ := fails e failed
  exact ⟨start, mem, name, reaches, named⟩

end SchemaUsage.Usage

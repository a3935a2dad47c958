import SchemaUsage.Proofs.Usage.Exact
import SchemaUsage.Usage.Expansion
import SchemaUsage.Usage.Reach

/-!
# Whole types are expanded exactly

About `mark_entire_type`. An expansion holds the types that it has not seen yet, a stack of names,
and the identifiers so far. `Progress` says what holds in between: which types are done, that the
fields of these lead to types that are done or on the stack, and that the identifiers are those of
the types that are done. When the stack is empty, the types that are done are closed under their
fields, so they are all that can be reached, however the types refer to each other.

Results:
- `expandPending_progress`: an expansion gets through its stack, or meets a type in reach that is
  not defined.
- `wholeIdentifiers_exact`: several types give what the types within their reach give.
- `resolve_whole_types`: which identifiers marks stand for, and when.
-/

namespace SchemaUsage.Usage

open SchemaUsage.Graphql

variable {s : Schema}

/-! ## One type -/

theorem mem_fieldTypes {t : TypeDefinition} {name : String} :
    name ∈ fieldTypes t ↔ ∃ field, Declares t field name := by
  unfold fieldTypes
  constructor
  · intro mem
    split at mem
    · rename_i body
      obtain ⟨f, given, rfl⟩ := List.mem_map.mp mem
      exact ⟨_, .inputObject body given⟩
    · rename_i body
      obtain ⟨f, given, rfl⟩ := List.mem_map.mp mem
      exact ⟨_, .object body given⟩
    · rename_i body
      obtain ⟨f, given, rfl⟩ := List.mem_map.mp mem
      exact ⟨_, .interface body given⟩
    · cases mem
  · rintro ⟨field, ⟨body, mem⟩ | ⟨body, mem⟩ | ⟨body, mem⟩⟩ <;> rw [body] <;>
      exact List.mem_map_of_mem mem

theorem mem_ownIdentifiers {t : TypeDefinition} {id : String} :
    id ∈ ownIdentifiers t ↔ Contributes t id := by
  unfold ownIdentifiers
  constructor
  · intro mem
    split at mem
    · rename_i body
      rw [List.mem_singleton.mp mem]
      exact .scalar body
    · rename_i body
      obtain ⟨v, given, rfl⟩ := List.mem_map.mp mem
      exact .value body given
    · cases mem
    · rename_i body
      obtain ⟨f, given, rfl⟩ := List.mem_map.mp mem
      exact .field (.inputObject body given)
    · rename_i body
      obtain ⟨f, given, rfl⟩ := List.mem_map.mp mem
      exact .field (.object body given)
    · rename_i body
      obtain ⟨f, given, rfl⟩ := List.mem_map.mp mem
      exact .field (.interface body given)
  · rintro (body | ⟨body, mem⟩ | ⟨⟨body, mem⟩ | ⟨body, mem⟩ | ⟨body, mem⟩⟩) <;> rw [body]
    · exact List.mem_singleton_self _
    · exact List.mem_map_of_mem mem
    · exact List.mem_map_of_mem mem
    · exact List.mem_map_of_mem mem
    · exact List.mem_map_of_mem mem

theorem requireFieldTypes_eq_ok {t : TypeDefinition} :
    requireFieldTypes s t = .ok () ↔
      ∀ name ∈ fieldTypes t, ∃ u, s.firstType? name = some u := by
  unfold requireFieldTypes
  induction fieldTypes t with
  | nil => simp [pure, Except.pure]
  | cons name names ih =>
    rw [List.forall_mem_cons, ← ih]
    cases found : s.firstType? name with
    | none => simp [List.forM, firstType, found, Except.map, bind, Except.bind]
    | some u => simp [List.forM, firstType, found, Except.map, bind, Except.bind]

theorem requireFieldTypes_eq_error {t : TypeDefinition} {e : UsageError}
    (fails : requireFieldTypes s t = .error e) :
    ∃ name ∈ fieldTypes t, e = .unknownType name ∧ s.firstType? name = none := by
  revert fails
  unfold requireFieldTypes
  induction fieldTypes t with
  | nil => exact fun fails => nomatch fails
  | cons name names ih =>
    cases found : s.firstType? name with
    | none =>
      simp only [List.forM, firstType, found, Except.map, bind, Except.bind]
      intro fails
      cases fails
      exact ⟨name, List.mem_cons_self, rfl, found⟩
    | some u =>
      simp only [List.forM, firstType, found, Except.map, bind, Except.bind] at ih ⊢
      intro fails
      obtain ⟨other, mem, undefined⟩ := ih fails
      exact ⟨other, List.mem_cons_of_mem name mem, undefined⟩

/-! ## What holds of an expansion -/

/-- **How far an expansion has come**: some names are done, and all names that it meets are within
`reach`. -/
structure Progress (s : Schema) (reach : String → Prop) (done : List String)
    (left : List TypeDefinition) (ids : List String) (pending : List String) : Prop where
  left_eq : left = s.types.filter fun t => t.name ∉ done
  done_reach : ∀ name ∈ done, reach name ∧ ∃ t, s.firstType? name = some t
  pending_reach : ∀ name ∈ pending, reach name ∧ ∃ t, s.firstType? name = some t
  closed : ∀ name ∈ done, ∀ t field other, s.firstType? name = some t → Declares t field other →
    other ∈ done ∨ other ∈ pending
  mem_ids : ∀ id, id ∈ ids ↔
    ∃ name ∈ done, ∃ t, s.firstType? name = some t ∧ Contributes t id

/-- Which types are dropped by their names decides whether a name is still found. -/
theorem find?_filter_name (keep : String → Bool) {left : List TypeDefinition} {name : String} :
    (left.filter fun t => keep t.name).find? (fun t => t.name == name) =
      if keep name then left.find? (fun t => t.name == name) else none := by
  rw [List.find?_filter]
  split
  · rename_i kept
    congr 1
    funext t
    by_cases same : t.name = name
    · simp [same, kept]
    · simp [same]
  · rename_i dropped
    refine List.find?_eq_none.mpr fun t _ => ?_
    simp only [decide_eq_true_eq, beq_iff_eq, not_and]
    rintro kept rfl
    exact dropped kept

/-- What leads from types within reach to types within reach. -/
def ClosedUnderFields (s : Schema) (reach : String → Prop) : Prop :=
  ∀ name t field other, reach name → s.firstType? name = some t → Declares t field other →
    reach other

namespace Progress

variable {reach : String → Prop} {done : List String} {left : List TypeDefinition}
  {ids pending : List String} {name : String}

theorem start : Progress s reach [] s.types [] [] :=
  ⟨(List.filter_eq_self.mpr (by simp)).symm, by simp, by simp, by simp, by simp⟩

/-- The types that are left are those that are not done. -/
theorem find?_left (h : Progress s reach done left ids pending) :
    left.find? (fun t => t.name == name) = if name ∈ done then none else s.firstType? name := by
  rw [h.left_eq, find?_filter_name fun name => decide (name ∉ done)]
  simp only [decide_not, Bool.not_eq_true', decide_eq_false_iff_not, ite_not]
  rfl

theorem firstType?_of_left (h : Progress s reach done left ids pending) {t : TypeDefinition}
    (there : left.find? (fun t => t.name == name) = some t) : s.firstType? name = some t := by
  rw [h.find?_left] at there
  split at there
  · cases there
  · exact there

theorem skip (h : Progress s reach done left ids (name :: pending)) (mem : name ∈ done) :
    Progress s reach done left ids pending where
  left_eq := h.left_eq
  done_reach := h.done_reach
  pending_reach other pend := h.pending_reach other (List.mem_cons_of_mem name pend)
  closed between mem' t field other type declared := by
    rcases h.closed between mem' t field other type declared with there | here
    · exact .inl there
    · rcases List.mem_cons.mp here with rfl | here
      · exact .inl mem
      · exact .inr here
  mem_ids := h.mem_ids

theorem push {t : TypeDefinition} (h : Progress s reach done left ids []) (here : reach name)
    (type : s.firstType? name = some t) : Progress s reach done left ids [name] where
  left_eq := h.left_eq
  done_reach := h.done_reach
  pending_reach other mem := by
    rw [List.mem_singleton.mp mem]
    exact ⟨here, t, type⟩
  closed between mem u field other type' declared :=
    .inl ((h.closed between mem u field other type' declared).resolve_right List.not_mem_nil)
  mem_ids := h.mem_ids

theorem expand {t : TypeDefinition} (h : Progress s reach done left ids (name :: pending))
    (closed : ClosedUnderFields s reach) (type : s.firstType? name = some t)
    (fields : requireFieldTypes s t = .ok ()) :
    Progress s reach (name :: done) (left.filter fun u => u.name != name)
      (ids ++ ownIdentifiers t) ((fieldTypes t).reverse ++ pending) where
  left_eq := by
    rw [h.left_eq, List.filter_filter]
    refine List.filter_congr fun u _ => ?_
    by_cases same : u.name = name <;> simp [same]
  done_reach other mem := by
    rcases List.mem_cons.mp mem with rfl | mem
    · exact h.pending_reach other List.mem_cons_self
    · exact h.done_reach other mem
  pending_reach other mem := by
    rcases List.mem_append.mp mem with mem | mem
    · rw [List.mem_reverse] at mem
      obtain ⟨field, declared⟩ := mem_fieldTypes.mp mem
      exact ⟨closed name t field other (h.pending_reach name List.mem_cons_self).1 type declared,
        requireFieldTypes_eq_ok.mp fields other mem⟩
    · exact h.pending_reach other (List.mem_cons_of_mem name mem)
  closed between mem u field other type' declared := by
    rcases List.mem_cons.mp mem with rfl | mem
    · rw [type] at type'
      cases type'
      refine .inr (List.mem_append_left _ ?_)
      exact List.mem_reverse.mpr (mem_fieldTypes.mpr ⟨field, declared⟩)
    · rcases h.closed between mem u field other type' declared with there | here
      · exact .inl (List.mem_cons_of_mem name there)
      · rcases List.mem_cons.mp here with rfl | here
        · exact .inl List.mem_cons_self
        · exact .inr (List.mem_append_right _ here)
  mem_ids id := by
    rw [List.mem_append, h.mem_ids, mem_ownIdentifiers]
    simp [type, or_comm]

/-- When nothing is left to do, the types that are done are closed under what they reach. -/
theorem mem_of_reaches (h : Progress s reach done left ids []) {start : String}
    (mem : start ∈ done) (reaches : Reaches s start name) : name ∈ done := by
  induction reaches with
  | refl => exact mem
  | field _ type declared ih =>
    exact (h.closed _ ih _ _ _ type declared).resolve_right List.not_mem_nil

end Progress

/-! ## The expansion of several types -/

/-- **An expansion gets through its stack**, or it fails on a type within reach that is not
defined. -/
theorem expandPending_progress {reach : String → Prop} (closed : ClosedUnderFields s reach)
    {done : List String} {left : List TypeDefinition} {ids pending : List String}
    (h : Progress s reach done left ids pending) :
    (∀ e, expandPending s left ids pending = .ok e →
      ∃ more, Progress s reach more e.left e.ids [] ∧ done ⊆ more ∧ pending ⊆ more) ∧
    (∀ e, expandPending s left ids pending = .error e →
      ∃ name, reach name ∧ e = .unknownType name ∧ s.firstType? name = none) := by
  fun_induction expandPending s left ids pending generalizing done with
  | case1 left ids =>
    refine ⟨fun e found => ?_, fun e failed => nomatch failed⟩
    cases found
    exact ⟨done, h, List.Subset.refl _, List.nil_subset _⟩
  | case2 left ids name pending gone ih =>
    have mem : name ∈ done := by
      rw [h.find?_left] at gone
      split at gone
      · assumption
      · obtain ⟨t, type⟩ := (h.pending_reach name List.mem_cons_self).2
        rw [gone] at type
        cases type
    obtain ⟨gets, fails⟩ := ih (h.skip mem)
    refine ⟨fun e found => ?_, fails⟩
    obtain ⟨more, progress, kept, got⟩ := gets e found
    exact ⟨more, progress, kept, List.cons_subset.mpr ⟨kept mem, got⟩⟩
  | case3 left ids name pending t there _ e fields =>
    refine ⟨fun _ found => (by cases found), fun _ failed => ?_⟩
    cases failed
    have type := h.firstType?_of_left there
    obtain ⟨other, mem, undefined⟩ := requireFieldTypes_eq_error fields
    obtain ⟨field, declared⟩ := mem_fieldTypes.mp mem
    have here := (h.pending_reach name List.mem_cons_self).1
    exact ⟨other, closed name t field other here type declared, undefined⟩
  | case4 left ids name pending t there _ fields ih =>
    simp only [List.unattach_filter, List.unattach_attach, List.append_subset] at ih
    have progress := h.expand closed (h.firstType?_of_left there) fields
    obtain ⟨gets, fails⟩ := ih progress
    refine ⟨fun e found => ?_, fails⟩
    obtain ⟨more, progress, kept, got⟩ := gets e found
    obtain ⟨this, kept⟩ := List.cons_subset.mp kept
    exact ⟨more, progress, kept, List.cons_subset.mpr ⟨this, got.2⟩⟩

theorem add_progress {reach : String → Prop} (closed : ClosedUnderFields s reach) {name : String}
    (here : reach name) {done : List String} {e : Expansion}
    (h : Progress s reach done e.left e.ids []) :
    (∀ e', e.add s name = .ok e' →
      ∃ more, Progress s reach more e'.left e'.ids [] ∧ done ⊆ more ∧ name ∈ more) ∧
    (∀ error, e.add s name = .error error →
      ∃ other, reach other ∧ error = .unknownType other ∧ s.firstType? other = none) := by
  unfold Expansion.add firstType
  cases type : s.firstType? name with
  | none =>
    refine ⟨fun _ found => (by cases found), fun _ failed => ?_⟩
    cases failed
    exact ⟨name, here, rfl, type⟩
  | some t =>
    obtain ⟨gets, fails⟩ := expandPending_progress closed (h.push here type)
    refine ⟨fun e' found => ?_, fails⟩
    obtain ⟨more, progress, kept, got⟩ := gets e' found
    exact ⟨more, progress, kept, got List.mem_cons_self⟩

theorem foldlM_add_progress {reach : String → Prop} (closed : ClosedUnderFields s reach) :
    ∀ (names : List String) (e : Expansion) {done : List String},
      (∀ name ∈ names, reach name) → Progress s reach done e.left e.ids [] →
      (∀ e', names.foldlM (Expansion.add s) e = .ok e' →
        ∃ more, Progress s reach more e'.left e'.ids [] ∧ done ⊆ more ∧ names ⊆ more) ∧
      (∀ error, names.foldlM (Expansion.add s) e = .error error →
        ∃ other, reach other ∧ error = .unknownType other ∧ s.firstType? other = none)
  | [], e, done, _, h => by
    refine ⟨fun e' found => ?_, fun _ failed => (by cases failed)⟩
    cases found
    exact ⟨done, h, List.Subset.refl _, List.nil_subset _⟩
  | name :: names, e, done, within, h => by
    obtain ⟨here, within⟩ := List.forall_mem_cons.mp within
    obtain ⟨gets, fails⟩ := add_progress closed here h
    rw [List.foldlM_cons]
    cases added : e.add s name with
    | error error =>
      refine ⟨fun _ found => (by cases found), fun _ failed => ?_⟩
      cases failed
      exact fails error added
    | ok e' =>
      obtain ⟨more, progress, kept, got⟩ := gets e' added
      obtain ⟨gets, fails⟩ := foldlM_add_progress closed names e' within progress
      refine ⟨fun e'' found => ?_, fails⟩
      obtain ⟨most, progress, kept', got'⟩ := gets e'' found
      exact ⟨most, progress, List.Subset.trans kept kept', List.cons_subset.mpr ⟨kept' got, got'⟩⟩

/-- Types are expanded when all that they reach is defined, and then they give what all this
contributes. -/
theorem wholeIdentifiers_exact (names : List String) :
    Exact (wholeIdentifiers s names)
      (∀ name, (∃ start ∈ names, Reaches s start name) → ∃ t, s.firstType? name = some t)
      (fun id => ∃ name t, (∃ start ∈ names, Reaches s start name) ∧
        s.firstType? name = some t ∧ Contributes t id) := by
  have closed : ClosedUnderFields s fun name => ∃ start ∈ names, Reaches s start name := by
    rintro name t field other ⟨start, mem, first⟩ type declared
    exact ⟨start, mem, .field first type declared⟩
  obtain ⟨gets, fails⟩ := foldlM_add_progress closed names ⟨s.types, []⟩
    (fun name mem => ⟨name, mem, .refl name⟩) .start
  unfold wholeIdentifiers
  cases found : names.foldlM (Expansion.add s) ⟨s.types, []⟩ with
  | error error =>
    obtain ⟨other, within, -, undefined⟩ := fails error found
    refine Exact.error error fun all => ?_
    obtain ⟨t, type⟩ := all other within
    rw [undefined] at type
    cases type
  | ok e =>
    obtain ⟨done, progress, -, got⟩ := gets e found
    have all : ∀ name, (∃ start ∈ names, Reaches s start name) → name ∈ done := by
      rintro name ⟨start, mem, reaches⟩
      exact progress.mem_of_reaches (got mem) reaches
    have given (id : String) : id ∈ e.ids ↔ ∃ name t,
        (∃ start ∈ names, Reaches s start name) ∧ s.firstType? name = some t ∧
          Contributes t id := by
      rw [progress.mem_ids]
      constructor
      · rintro ⟨name, mem, t, type, given⟩
        exact ⟨name, t, (progress.done_reach name mem).1, type, given⟩
      · rintro ⟨name, t, within, type, given⟩
        exact ⟨name, all name within, t, type, given⟩
    refine (Exact.ok given).congr ?_ fun _ _ => .rfl
    exact ⟨fun _ name within => (progress.done_reach name (all name within)).2, fun _ => trivial⟩

/-! ## Marks -/

theorem mem_wholeTypes {marks : List Mark} {type : String} :
    type ∈ wholeTypes marks ↔ Mark.whole type ∈ marks := by
  unfold wholeTypes
  rw [List.mem_filterMap]
  constructor
  · rintro ⟨m, mem, same⟩
    cases m <;> cases same
    exact mem
  · intro mem
    exact ⟨_, mem, rfl⟩

theorem mem_plainIdentifiers {marks : List Mark} {id : String} :
    id ∈ plainIdentifiers marks ↔ Mark.identifier id ∈ marks ∨
      ∃ type field, Mark.field type field ∈ marks ∧ Mark.whole type ∉ marks ∧
        id = fieldId type field := by
  unfold plainIdentifiers
  rw [List.mem_filterMap]
  constructor
  · rintro ⟨m, mem, same⟩
    cases m with
    | identifier _ =>
      cases same
      exact .inl mem
    | whole _ => cases same
    | field type field =>
      by_cases hidden : Mark.whole type ∈ marks
      · simp [mem_wholeTypes, hidden] at same
      · simp only [List.contains_eq_mem, mem_wholeTypes, hidden, decide_false] at same
        cases same
        exact .inr ⟨type, field, mem, hidden, rfl⟩
  · rintro (mem | ⟨type, field, mem, bare, rfl⟩)
    · exact ⟨_, mem, rfl⟩
    · exact ⟨_, mem, by simp [mem_wholeTypes, bare]⟩
/-- A recorded field of a type that is marked as a whole adds nothing, wherever it stands. -/
theorem resolve_hidden {before after : List Mark} {type field : String}
    (hidden : .whole type ∈ before ++ after) :
    resolve s (before ++ .field type field :: after) = resolve s (before ++ after) := by
  have whole : wholeTypes (before ++ .field type field :: after) =
      wholeTypes (before ++ after) := by
    simp [wholeTypes]
  have contained : (wholeTypes (before ++ after)).contains type = true :=
    List.contains_iff_mem.mpr (mem_wholeTypes.mpr hidden)
  have plain : plainIdentifiers (before ++ .field type field :: after) =
      plainIdentifiers (before ++ after) := by
    unfold plainIdentifiers
    rw [whole, List.filterMap_append, List.filterMap_append, List.filterMap_cons]
    simp only [contained, if_true]
  rw [resolve, resolve, whole, plain]

theorem resolve_exact (marks : List Mark) :
    Exact (resolve s marks) (ReachDefined s (· ∈ marks)) (Denotes s (· ∈ marks)) := by
  have whole : Exact (wholeIdentifiers s (wholeTypes marks)) (ReachDefined s (· ∈ marks))
      (GivenInReach s (· ∈ marks)) :=
    (wholeIdentifiers_exact (wholeTypes marks)).congr
      (by simp [ReachDefined, InReach, mem_wholeTypes])
      (fun _ id => by simp [GivenInReach, InReach, mem_wholeTypes])
  unfold resolve
  refine ⟨?_, fun {ids} found id => ?_⟩
  · rw [← whole.ok_iff]
    cases wholeIdentifiers s (wholeTypes marks) with
    | error e => simp [bind, Except.bind]
    | ok given => simp [bind, Except.bind, pure, Except.pure]
  · cases given : wholeIdentifiers s (wholeTypes marks) with
    | error e =>
      rw [given] at found
      cases found
    | ok given' =>
      rw [given] at found
      cases found
      rw [List.mem_append, whole.mem_iff given, mem_plainIdentifiers, or_assoc]
      rfl

/-- **Whole types are expanded exactly.** Marks stand for something if and only if every type within
reach of the types that are marked as a whole is defined. They then stand for what they denote, and
nothing changes when a field is recorded on a type that is marked as a whole. -/
theorem resolve_whole_types (s : Schema) (marks : List Mark) :
    ((∃ ids, resolve s marks = .ok ids) ↔ ReachDefined s (· ∈ marks)) ∧
    (∀ ids, resolve s marks = .ok ids → ∀ id, id ∈ ids ↔ Denotes s (· ∈ marks) id) ∧
    ∀ before after type field, marks = before ++ after → .whole type ∈ marks →
      resolve s (before ++ .field type field :: after) = resolve s marks := by
  refine ⟨(resolve_exact marks).ok_iff, fun ids found => (resolve_exact marks).mem_iff found, ?_⟩
  rintro before after type field rfl hidden
  exact resolve_hidden hidden

/-- Two input objects that refer to each other. -/
def mutualInputs : Schema :=
  [.type ⟨none, "Left", [], .inputObject [⟨none, "right", .named "Right", none, []⟩]⟩,
    .type ⟨none, "Right", [], .inputObject
      [⟨none, "left", .list (.named "Left"), none, []⟩, ⟨none, "id", .named "ID", none, []⟩]⟩,
    .type ⟨none, "ID", [], .scalar⟩]

theorem resolve_whole_types_mutualInputs :
    resolve mutualInputs [.whole "Left"] =
      .ok ["Left.right", "Right.left", "Right.id", "ID"] ∧
    (∀ id, id ∈ ["Left.right", "Right.left", "Right.id", "ID"] ↔
      Denotes mutualInputs (· ∈ [.whole "Left"]) id) ∧
    resolve mutualInputs [.field "Left" "right", .whole "Left"] =
      resolve mutualInputs [.whole "Left"] := by
  obtain ⟨-, denotes, hides⟩ := resolve_whole_types mutualInputs [.whole "Left"]
  have found : resolve mutualInputs [.whole "Left"] =
      .ok ["Left.right", "Right.left", "Right.id", "ID"] := by
    cbv
  exact ⟨found, denotes _ found, hides [] [.whole "Left"] "Left" "right" rfl List.mem_cons_self⟩

end SchemaUsage.Usage

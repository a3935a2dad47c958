import SchemaUsage.Proofs.Usage.Stackless
import SchemaUsage.Usage.Position

/-!
# Marks of written values

About `collect_input_value` and `walk_value`. Which marks a written value has is told position by
position: what a part gives depends on the part, on the type at which it stands and on how it is
held, and on nothing else. `ValueGives` says what a part gives, `ValueFits` what must be defined for
it.

* `ValuePart` leads from a part to the ones right inside of it. What `ValueAt` holds is what can be
  reached by such steps.

Results:
- `givenMarks_exact`: a written value has the marks that its positions give.
-/

namespace SchemaUsage.Usage

open Relation
open SchemaUsage.Graphql

variable {s : Schema} {strategy : Strategy}

theorem lastType_eq_ok {name : String} {t : TypeDefinition} :
    lastType s name = .ok t ↔ s.lastType? name = some t := by
  unfold lastType
  split <;> simp_all

/-! ## Positions -/

/-- A part of a written value: where it stands, how it is held, and what it is. -/
structure ValuePlace where
  type : TypeDefinition
  held : Held
  value : Value

/-- A part of a written value right inside of another. -/
inductive ValuePart (s : Schema) : ValuePlace → ValuePlace → Prop where
  | item {t : TypeDefinition} {held : Held} {items : List Value} {item : Value}
      (mem : item ∈ items) : ValuePart s ⟨t, held, .list items⟩ ⟨t, .item, item⟩
  | member {t u : TypeDefinition} {held : Held} {members : Arguments} {name : String}
      {part : Value} {field : InputValue} (kind : t.kind = .inputObject)
      (mem : (name, part) ∈ members) (declared : t.inputField? name = some field)
      (named : s.lastType? field.type.innerName = some u) :
      ValuePart s ⟨t, held, .object members⟩ ⟨u, .alone, part⟩

/-- Whether a value is a number, a string, a truth value or nothing. -/
def isLiteral : Value → Bool
  | .int _ => true
  | .float _ => true
  | .string _ => true
  | .boolean _ => true
  | .null => true
  | _ => false

/-- **What a part of a written value gives** at a type. An enum literal by itself gives that value
of the type, a literal by itself the whole type, and so does a variable whose values are not looked
at. Whatever is an item of a list and has no parts gives the whole type. An object gives its keys,
or the whole type where that is no input object. -/
inductive ValueGives (strategy : Strategy) (t : TypeDefinition) : Held → Value → Mark → Prop where
  | enum {name : String} : ValueGives strategy t .alone (.enum name) (.field t.name name)
  | literal {value : Value} (literal : isLiteral value = true) :
      ValueGives strategy t .alone value (.whole t.name)
  | var {name : String} (unsupplied : strategy.prunes = false) :
      ValueGives strategy t .alone (.var name) (.whole t.name)
  | item {value : Value} (leaf : isComposite value = false) :
      ValueGives strategy t .item value (.whole t.name)
  | foreign {held : Held} {members : Arguments} (kind : t.kind ≠ .inputObject) :
      ValueGives strategy t held (.object members) (.whole t.name)
  | key {held : Held} {members : Arguments} {name : String} {part : Value}
      (kind : t.kind = .inputObject) (mem : (name, part) ∈ members) :
      ValueGives strategy t held (.object members) (.field t.name name)

/-- The keys of an object that is given to an input object are declared with defined types. -/
def ValueFits (s : Schema) (t : TypeDefinition) (value : Value) : Prop :=
  ∀ members name part, value = .object members → t.kind = .inputObject → (name, part) ∈ members →
    ∃ field u, t.inputField? name = some field ∧ s.lastType? field.type.innerName = some u

theorem valueAt_iff {t u : TypeDefinition} {held : Held} {value part : Value} :
    ValueAt s t value u held part ↔
      ReflTransGen (ValuePart s) ⟨t, .alone, value⟩ ⟨u, held, part⟩ := by
  constructor
  · intro h
    induction h with
    | whole => exact .refl
    | item _ mem ih => exact .tail ih (.item mem)
    | member _ kind mem declared named ih => exact .tail ih (.member kind mem declared named)
  · intro h
    suffices ∀ {a b : ValuePlace}, ReflTransGen (ValuePart s) a b → a.held = .alone →
        ValueAt s a.type a.value b.type b.held b.value from this h rfl
    intro a b h alone
    induction h with
    | refl => rw [alone]; exact .whole
    | tail _ part ih =>
      cases part with
      | item mem => exact .item ih mem
      | member kind mem declared named => exact .member ih kind mem declared named

/-- All positions in a written value fit. -/
abbrev ValueFitsAll (s : Schema) (place : ValuePlace) : Prop :=
  Everywhere (ValuePart s) (fun p => ValueFits s p.type p.value) place

/-- Some position in a written value gives a mark. -/
abbrev ValueGivesSome (s : Schema) (strategy : Strategy) (m : Mark) (place : ValuePlace) : Prop :=
  Somewhere (ValuePart s) (fun p => ValueGives strategy p.type p.held p.value m) place

theorem valueFitsAll_iff {t : TypeDefinition} {value : Value} :
    ValueFitsAll s ⟨t, .alone, value⟩ ↔
      ∀ u held part, ValueAt s t value u held part → ValueFits s u part :=
  ⟨fun h _ _ _ position => h _ (valueAt_iff.mp position),
    fun h _ path => h _ _ _ (valueAt_iff.mpr path)⟩

theorem valueGivesSome_iff {t : TypeDefinition} {value : Value} {m : Mark} :
    ValueGivesSome s strategy m ⟨t, .alone, value⟩ ↔
      ∃ u held part, ValueAt s t value u held part ∧ ValueGives strategy u held part m :=
  ⟨fun ⟨_, path, gives⟩ => ⟨_, _, _, valueAt_iff.mpr path, gives⟩,
    fun ⟨_, _, _, position, gives⟩ => ⟨_, valueAt_iff.mp position, gives⟩⟩

/-! ## Parts of lists and objects -/

theorem valueFitsAll_list {t : TypeDefinition} {held : Held} (items : List Value) :
    ValueFitsAll s ⟨t, held, .list items⟩ ↔ ∀ item ∈ items, ValueFitsAll s ⟨t, .item, item⟩ := by
  rw [ValueFitsAll, everywhere_iff]
  constructor
  · exact fun h item mem => h.2 _ (.item mem)
  · intro h
    constructor
    · intro _ _ _ same
      cases same
    · rintro p (mem | _)
      exact h _ mem

theorem valueGivesSome_list {t : TypeDefinition} {held : Held} (items : List Value) (m : Mark) :
    ValueGivesSome s strategy m ⟨t, held, .list items⟩ ↔
      ∃ item ∈ items, ValueGivesSome s strategy m ⟨t, .item, item⟩ := by
  rw [ValueGivesSome, somewhere_iff]
  constructor
  · rintro (gives | ⟨p, part, gives⟩)
    · cases gives with
      | literal literal => cases literal
      | item leaf => cases leaf
    · cases part with
      | item mem => exact ⟨_, mem, gives⟩
  · rintro ⟨item, mem, gives⟩
    exact .inr ⟨_, .item mem, gives⟩

/-- A member's key is declared with a defined type at which the value fits. -/
def KeyFits (s : Schema) (t : TypeDefinition) (member : String × Value) : Prop :=
  ∃ field u, t.inputField? member.1 = some field ∧ s.lastType? field.type.innerName = some u ∧
    ValueFitsAll s ⟨u, .alone, member.2⟩

/-- A member gives its key and what its value gives. -/
def KeyGives (s : Schema) (strategy : Strategy) (t : TypeDefinition) (m : Mark)
    (member : String × Value) : Prop :=
  m = .field t.name member.1 ∨ ∃ field u, t.inputField? member.1 = some field ∧
    s.lastType? field.type.innerName = some u ∧
    ValueGivesSome s strategy m ⟨u, .alone, member.2⟩

theorem valueFitsAll_object {t : TypeDefinition} (kind : t.kind = .inputObject) {held : Held}
    (members : Arguments) :
    ValueFitsAll s ⟨t, held, .object members⟩ ↔ ∀ member ∈ members, KeyFits s t member := by
  rw [ValueFitsAll, everywhere_iff]
  constructor
  · rintro ⟨here, inside⟩ ⟨name, part⟩ mem
    obtain ⟨field, u, declared, named⟩ := here members name part rfl kind mem
    exact ⟨field, u, declared, named, inside _ (.member kind mem declared named)⟩
  · intro h
    constructor
    · intro members' name part same _ mem
      cases same
      obtain ⟨field, u, declared, named, -⟩ := h (name, part) mem
      exact ⟨field, u, declared, named⟩
    · rintro p (_ | ⟨_, mem, declared, named⟩)
      obtain ⟨field, u, declared', named', fits⟩ := h _ mem
      rw [declared] at declared'
      cases declared'
      rw [named] at named'
      cases named'
      exact fits

theorem valueGivesSome_object {t : TypeDefinition} (kind : t.kind = .inputObject) {held : Held}
    (members : Arguments) (m : Mark) :
    ValueGivesSome s strategy m ⟨t, held, .object members⟩ ↔
      ∃ member ∈ members, KeyGives s strategy t m member := by
  rw [ValueGivesSome, somewhere_iff]
  constructor
  · rintro (gives | ⟨p, part, gives⟩)
    · cases gives with
      | literal literal => cases literal
      | item leaf => cases leaf
      | foreign kind' => exact absurd kind kind'
      | key _ mem => exact ⟨_, mem, .inl rfl⟩
    · cases part with
      | member _ mem declared named => exact ⟨_, mem, .inr ⟨_, _, declared, named, gives⟩⟩
  · rintro ⟨⟨name, part⟩, mem, rfl | ⟨field, u, declared, named, gives⟩⟩
    · exact .inl (.key kind mem)
    · exact .inr ⟨_, .member kind mem declared named, gives⟩

/-- An object is not looked into at a type that is no input object. -/
theorem valueFitsAll_foreign {t : TypeDefinition} (kind : t.kind ≠ .inputObject) {held : Held}
    (members : Arguments) : ValueFitsAll s ⟨t, held, .object members⟩ := by
  rw [ValueFitsAll, everywhere_iff]
  constructor
  · intro _ _ _ _ kind'
    exact absurd kind' kind
  · rintro p (_ | ⟨kind', _, _, _⟩)
    exact absurd kind' kind

theorem valueGivesSome_foreign {t : TypeDefinition} (kind : t.kind ≠ .inputObject) {held : Held}
    (members : Arguments) (m : Mark) :
    ValueGivesSome s strategy m ⟨t, held, .object members⟩ ↔ m = .whole t.name := by
  rw [ValueGivesSome, somewhere_iff]
  constructor
  · rintro (gives | ⟨p, part, _⟩)
    · cases gives with
      | literal literal => cases literal
      | item leaf => cases leaf
      | foreign _ => rfl
      | key kind' _ => exact absurd kind' kind
    · cases part with
      | member kind' _ _ _ => exact absurd kind' kind
  · rintro rfl
    exact .inl (.foreign kind)

theorem valuePart_leaf {t : TypeDefinition} {held : Held} {value : Value}
    (leaf : isComposite value = false) (p : ValuePlace) : ¬ ValuePart s ⟨t, held, value⟩ p := by
  rintro (_ | _) <;> cases leaf

theorem valueAt_leaf {t u : TypeDefinition} {held : Held} {value part : Value}
    (leaf : isComposite value = false) (position : ValueAt s t value u held part) :
    u = t ∧ part = value := by
  rcases (valueAt_iff.mp position).cases_head with same | ⟨p, inside, _⟩
  · cases same
    exact ⟨rfl, rfl⟩
  · exact absurd inside (valuePart_leaf leaf p)

theorem valueFitsAll_leaf {t : TypeDefinition} {held : Held} {value : Value}
    (leaf : isComposite value = false) : ValueFitsAll s ⟨t, held, value⟩ := by
  rw [ValueFitsAll, everywhere_iff]
  refine ⟨fun members _ _ same => ?_, fun p part => absurd part (valuePart_leaf leaf p)⟩
  cases same
  cases leaf

theorem valueGivesSome_leaf {t : TypeDefinition} {held : Held} {value : Value}
    (leaf : isComposite value = false) (m : Mark) :
    ValueGivesSome s strategy m ⟨t, held, value⟩ ↔ ValueGives strategy t held value m := by
  rw [ValueGivesSome, somewhere_iff]
  exact ⟨fun h => h.resolve_right fun ⟨p, part, _⟩ => valuePart_leaf leaf p part, .inl⟩

/-! ## Marks -/

theorem valueGives_item {t : TypeDefinition} {value : Value} (leaf : isComposite value = false)
    (m : Mark) : ValueGives strategy t .item value m ↔ m = .whole t.name := by
  constructor
  · intro gives
    cases gives with
    | item _ => rfl
    | foreign _ => rfl
    | key _ _ => cases leaf
  · rintro rfl
    exact .item leaf

theorem isComposite_of_isLiteral {value : Value} (literal : isLiteral value = true) :
    isComposite value = false := by
  cases value <;> first | rfl | cases literal

/-- A literal gives the whole type, however it is held. -/
theorem valueGives_literal {t : TypeDefinition} {held : Held} {value : Value} {m : Mark}
    (literal : isLiteral value = true) :
    ValueGives strategy t held value m ↔ m = .whole t.name := by
  constructor
  · intro gives
    cases gives <;> first | rfl | cases literal
  · rintro rfl
    cases held with
    | alone => exact .literal literal
    | item => exact .item (isComposite_of_isLiteral literal)

theorem mem_directMarks {t : TypeDefinition} {value : Value} (leaf : isComposite value = false)
    (m : Mark) : m ∈ directMarks strategy t value ↔ ValueGives strategy t .alone value m := by
  cases value with
  | list items => cases leaf
  | object members => cases leaf
  | enum name =>
    rw [directMarks, List.mem_singleton]
    constructor
    · rintro rfl
      exact .enum
    · rintro (_ | literal | _)
      · rfl
      · cases literal
  | var name =>
    rw [directMarks]
    constructor
    · intro mem
      split at mem
      · cases mem
      · rename_i unsupplied
        rw [List.mem_singleton.mp mem]
        exact .var (Bool.eq_false_iff.mpr unsupplied)
    · rintro (_ | literal | unsupplied)
      · cases literal
      · simp [unsupplied]
  | _ =>
    change m ∈ [Mark.whole t.name] ↔ _
    rw [List.mem_singleton]
    constructor
    · rintro rfl
      exact .literal rfl
    · rintro (_ | _)
      rfl

theorem directMarks_composite {t : TypeDefinition} {value : Value}
    (composite : isComposite value = true) : directMarks strategy t value = [] := by
  cases value with
  | list items => rfl
  | object members => rfl
  | _ => cases composite

/-- A list gives the whole type where one of its items has no parts. -/
theorem mem_listMarks {t : TypeDefinition} (items : List Value) (m : Mark) :
    m ∈ (if items.any fun item => !isComposite item then [Mark.whole t.name] else []) ↔
      ∃ item ∈ items, isComposite item = false ∧ ValueGivesSome s strategy m ⟨t, .item, item⟩ := by
  constructor
  · intro mem
    split at mem
    · rename_i some
      obtain ⟨item, listed, leaf⟩ := List.any_eq_true.mp some
      rw [Bool.not_eq_true'] at leaf
      refine ⟨item, listed, leaf, ?_⟩
      rw [valueGivesSome_leaf leaf, valueGives_item leaf]
      exact List.mem_singleton.mp mem
    · cases mem
  · rintro ⟨item, listed, leaf, gives⟩
    rw [valueGivesSome_leaf leaf, valueGives_item leaf] at gives
    rw [if_pos (List.any_eq_true.mpr ⟨item, listed, by rw [leaf]; rfl⟩), gives]
    exact List.mem_singleton_self _

theorem lastType_bind_exact (name : String) {f : TypeDefinition → Except UsageError (List Mark)}
    {fits : TypeDefinition → Prop} {holds : TypeDefinition → Mark → Prop}
    (h : ∀ t, Exact (f t) (fits t) (holds t)) :
    Exact (lastType s name >>= f) (∃ t, s.lastType? name = some t ∧ fits t)
      fun m => ∃ t, s.lastType? name = some t ∧ holds t m :=
  .bind (fun _ => lastType_eq_ok) h

/-- A value as such and what is inside of it give together what its positions give. -/
theorem placedMarks_exact {t : TypeDefinition} {value : Value}
    (inside : Exact (innerMarks s strategy t value) (ValueFitsAll s ⟨t, .alone, value⟩)
      fun m => isComposite value = true ∧ ValueGivesSome s strategy m ⟨t, .alone, value⟩) :
    Exact (joined (.ok (directMarks strategy t value)) (innerMarks s strategy t value))
      (ValueFitsAll s ⟨t, .alone, value⟩)
      fun m => ValueGivesSome s strategy m ⟨t, .alone, value⟩ := by
  have direct : Exact (.ok (directMarks strategy t value) : Except UsageError (List Mark)) True
      (· ∈ directMarks strategy t value) := .ok fun _ => Iff.rfl
  refine (direct.joined inside).congr (by rw [true_and]) fun _ m => ?_
  cases composite : isComposite value with
  | true => simp [directMarks_composite composite]
  | false => simp [mem_directMarks composite, valueGivesSome_leaf composite]

theorem innerMarks_leaf {t : TypeDefinition} {held : Held} {value : Value}
    (leaf : isComposite value = false) :
    Exact (.ok [] : Except UsageError (List Mark)) (ValueFitsAll s ⟨t, held, value⟩)
      fun m => isComposite value = true ∧ ValueGivesSome s strategy m ⟨t, held, value⟩ := by
  refine Exact.nil.congr ?_ fun _ m => ?_
  · exact iff_of_true trivial (valueFitsAll_leaf leaf)
  · simp [leaf]

mutual
theorem innerMarks_exact : ∀ (value : Value) (t : TypeDefinition) (held : Held),
    Exact (innerMarks s strategy t value) (ValueFitsAll s ⟨t, held, value⟩)
      fun m => isComposite value = true ∧ ValueGivesSome s strategy m ⟨t, held, value⟩
  | .list items, t, held => by
    rw [innerMarks]
    have leaves : Exact (.ok _ : Except UsageError (List Mark)) True fun m => ∃ item ∈ items,
        isComposite item = false ∧ ValueGivesSome s strategy m ⟨t, .item, item⟩ :=
      .ok (mem_listMarks items)
    refine (leaves.joined (innerItemMarks_exact items t)).congr ?_ fun _ m => ?_
    · rw [valueFitsAll_list, true_and]
    · rw [valueGivesSome_list, ← exists_or]
      refine Iff.trans (exists_congr fun item => ?_) (and_iff_right rfl).symm
      cases isComposite item <;> simp
  | .object members, t, held => by
    rw [innerMarks]
    split
    · rename_i kind
      refine (innerMemberMarks_exact members t).congr (valueFitsAll_object kind members).symm
        fun _ m => ?_
      rw [valueGivesSome_object kind]
      simp [isComposite]
    · rename_i kind
      refine (Exact.single _).congr ?_ fun _ m => ?_
      · exact iff_of_true trivial (valueFitsAll_foreign kind members)
      · simp [isComposite, valueGivesSome_foreign kind]
  | .var _, _, _ => innerMarks_leaf rfl
  | .int _, _, _ => innerMarks_leaf rfl
  | .float _, _, _ => innerMarks_leaf rfl
  | .string _, _, _ => innerMarks_leaf rfl
  | .boolean _, _, _ => innerMarks_leaf rfl
  | .null, _, _ => innerMarks_leaf rfl
  | .enum _, _, _ => innerMarks_leaf rfl
theorem innerItemMarks_exact : ∀ (items : List Value) (t : TypeDefinition),
    Exact (innerItemMarks s strategy t items) (∀ item ∈ items, ValueFitsAll s ⟨t, .item, item⟩)
      fun m => ∃ item ∈ items,
        isComposite item = true ∧ ValueGivesSome s strategy m ⟨t, .item, item⟩
  | [], _ => Exact.nil.congr (by simp) (by simp)
  | item :: items, t => by
    rw [innerItemMarks]
    refine ((innerMarks_exact item t .item).joined (innerItemMarks_exact items t)).congr ?_
      fun _ m => ?_
    · rw [List.forall_mem_cons]
    · simp
theorem innerMemberMarks_exact : ∀ (members : Arguments) (t : TypeDefinition),
    Exact (innerMemberMarks s strategy t members) (∀ member ∈ members, KeyFits s t member)
      fun m => ∃ member ∈ members, KeyGives s strategy t m member
  | [], _ => Exact.nil.congr (by simp) (by simp)
  | (name, value) :: members, t => by
    have others := innerMemberMarks_exact members t
    rw [innerMemberMarks]
    cases declared : t.inputField? name with
    | none =>
      refine .error _ fun fits => ?_
      obtain ⟨field, _, declared', _⟩ := fits (name, value) List.mem_cons_self
      rw [declared] at declared'
      cases declared'
    | some field =>
      have placed : Exact (givenMarks s strategy field.type value) _ _ :=
        lastType_bind_exact _ fun u => placedMarks_exact (innerMarks_exact value u .alone)
      have key : Exact (.ok [Mark.field t.name name] : Except UsageError (List Mark)) True _ :=
        .single _
      refine (placed.joined (key.joined others)).congr ?_ fun _ m => ?_
      · simp [KeyFits, declared]
      · simp [KeyGives, declared, or_assoc, or_left_comm]
end

/-- **A written value has the marks that its positions give**, and is marked if and only if all of
them fit. -/
theorem givenMarks_exact (type : TypeRef) (value : Value) :
    Exact (givenMarks s strategy type value)
      (∃ t, s.lastType? type.innerName = some t ∧ ValueFitsAll s ⟨t, .alone, value⟩)
      fun m => ∃ t, s.lastType? type.innerName = some t ∧
        ValueGivesSome s strategy m ⟨t, .alone, value⟩ :=
  lastType_bind_exact _ fun t => placedMarks_exact (innerMarks_exact value t .alone)

end SchemaUsage.Usage

import SchemaUsage.Proofs.Usage.Exact
import SchemaUsage.Usage.Position

/-!
# Marks of supplied data

About `collect_value`. Which marks supplied data has is told position by position: what a part gives
depends on the part and on the type at which it stands, and on nothing else. `DataGives` says what a
part gives, `DataFits` what must be defined for it.

* `DataPart` leads from a part to the ones right inside of it. What `DataAt` holds is what can be
  reached by such steps.

Results:
- `valueMarks_exact`: supplied data has the marks that its positions give.
-/

namespace SchemaUsage.Usage

open Relation
open SchemaUsage.Graphql

variable {s : Schema}

theorem firstType_eq_ok {name : String} {t : TypeDefinition} :
    firstType s name = .ok t ↔ s.firstType? name = some t := by
  unfold firstType
  split <;> simp_all

/-! ## Positions -/

/-- A part of data right inside of another: an item of a list, or the value of a declared key. -/
inductive DataPart (s : Schema) : TypeDefinition × Json → TypeDefinition × Json → Prop where
  | item {t : TypeDefinition} {items : List Json} {item : Json} (mem : item ∈ items) :
      DataPart s (t, .arr items) (t, item)
  | member {t u : TypeDefinition} {members : List (String × Json)} {name : String} {value : Json}
      {field : InputValue} (kind : t.kind = .inputObject) (mem : (name, value) ∈ members)
      (declared : t.inputField? name = some field)
      (named : s.firstType? field.type.innerName = some u) :
      DataPart s (t, .obj members) (u, value)

/-- **What data gives at a type**: an object gives the keys that the input object declares, nothing
gives the bare name of the input object, and at any other type the type is used as a whole. -/
inductive DataGives (t : TypeDefinition) : Json → Mark → Prop where
  | key {members : List (String × Json)} {name : String} {value : Json} {field : InputValue}
      (kind : t.kind = .inputObject) (mem : (name, value) ∈ members)
      (declared : t.inputField? name = some field) :
      DataGives t (.obj members) (.field t.name name)
  | missing (kind : t.kind = .inputObject) : DataGives t .null (.identifier t.name)
  | whole {data : Json} (kind : t.kind ≠ .inputObject) : DataGives t data (.whole t.name)

/-- The declared keys of an object have defined types. -/
def DataFits (s : Schema) (t : TypeDefinition) (data : Json) : Prop :=
  ∀ members name value field, data = .obj members → t.kind = .inputObject →
    (name, value) ∈ members → t.inputField? name = some field →
    ∃ u, s.firstType? field.type.innerName = some u

theorem dataAt_iff {t u : TypeDefinition} {data part : Json} :
    DataAt s t data u part ↔ ReflTransGen (DataPart s) (t, data) (u, part) := by
  constructor
  · intro h
    induction h with
    | whole => exact .refl
    | item _ mem ih => exact .tail ih (.item mem)
    | member _ kind mem declared named ih => exact .tail ih (.member kind mem declared named)
  · intro h
    suffices ∀ {a b}, ReflTransGen (DataPart s) a b → DataAt s a.1 a.2 b.1 b.2 from this h
    intro a b h
    induction h with
    | refl => exact .whole
    | tail _ part ih =>
      cases part with
      | item mem => exact .item ih mem
      | member kind mem declared named => exact .member ih kind mem declared named

/-- All positions in data fit. -/
abbrev DataFitsAll (s : Schema) (place : TypeDefinition × Json) : Prop :=
  Everywhere (DataPart s) (fun p => DataFits s p.1 p.2) place

/-- Some position in data gives a mark. -/
abbrev DataGivesSome (s : Schema) (m : Mark) (place : TypeDefinition × Json) : Prop :=
  Somewhere (DataPart s) (fun p => DataGives p.1 p.2 m) place

theorem dataFitsAll_iff {t : TypeDefinition} {data : Json} :
    DataFitsAll s (t, data) ↔ ∀ u part, DataAt s t data u part → DataFits s u part :=
  ⟨fun h _ _ position => h _ (dataAt_iff.mp position),
    fun h _ path => h _ _ (dataAt_iff.mpr path)⟩

theorem dataGivesSome_iff {t : TypeDefinition} {data : Json} {m : Mark} :
    DataGivesSome s m (t, data) ↔ ∃ u part, DataAt s t data u part ∧ DataGives u part m :=
  ⟨fun ⟨_, path, gives⟩ => ⟨_, _, dataAt_iff.mpr path, gives⟩,
    fun ⟨_, _, position, gives⟩ => ⟨_, dataAt_iff.mp position, gives⟩⟩

/-- Data is not looked into at a type that is no input object. -/
theorem dataAt_foreign {t : TypeDefinition} (kind : t.kind ≠ .inputObject) {data : Json}
    {p : TypeDefinition × Json} (h : ReflTransGen (DataPart s) (t, data) p) : p.1 = t := by
  induction h with
  | refl => rfl
  | tail _ part ih =>
    cases part with
    | item _ => exact ih
    | member kind' _ _ _ => exact absurd (ih ▸ kind') kind

theorem valueMarks_foreign {t : TypeDefinition} (kind : t.kind ≠ .inputObject) (data : Json) :
    valueMarks s t data = .ok [.whole t.name] := by
  cases data <;> simp [valueMarks, kind]

theorem valueMarks_foreign_exact {t : TypeDefinition} (kind : t.kind ≠ .inputObject) (data : Json) :
    Exact (valueMarks s t data) (DataFitsAll s (t, data)) fun m => DataGivesSome s m (t, data) := by
  rw [valueMarks_foreign kind]
  refine (Exact.single _).congr ?_ fun _ m => ?_
  · refine ⟨fun _ p hp members name value field _ kind' _ _ => ?_, fun _ => trivial⟩
    exact absurd (dataAt_foreign kind hp ▸ kind') kind
  · constructor
    · rintro rfl
      exact ⟨(t, data), .refl, .whole kind⟩
    · rintro ⟨⟨u, part⟩, hp, gives⟩
      obtain rfl : u = t := dataAt_foreign kind hp
      cases gives with
      | key kind' _ _ => exact absurd kind' kind
      | missing kind' => exact absurd kind' kind
      | whole _ => rfl

/-! ## Parts of objects and lists -/

/-- A member's key is not declared, or has a defined type at which the value fits. -/
def MemberFits (s : Schema) (t : TypeDefinition) (member : String × Json) : Prop :=
  ∀ field, t.inputField? member.1 = some field →
    ∃ u, s.firstType? field.type.innerName = some u ∧ DataFitsAll s (u, member.2)

/-- A member gives its declared key and what its value gives. -/
def MemberGives (s : Schema) (t : TypeDefinition) (m : Mark) (member : String × Json) : Prop :=
  ∃ field, t.inputField? member.1 = some field ∧ (m = .field t.name member.1 ∨
    ∃ u, s.firstType? field.type.innerName = some u ∧ DataGivesSome s m (u, member.2))

theorem dataFitsAll_obj {t : TypeDefinition} (kind : t.kind = .inputObject)
    (members : List (String × Json)) :
    DataFitsAll s (t, .obj members) ↔ ∀ member ∈ members, MemberFits s t member := by
  rw [DataFitsAll, everywhere_iff]
  constructor
  · rintro ⟨here, inside⟩ ⟨name, value⟩ mem field declared
    obtain ⟨u, named⟩ := here members name value field rfl kind mem declared
    exact ⟨u, named, inside _ (.member kind mem declared named)⟩
  · intro h
    constructor
    · intro members' name value field same _ mem declared
      cases same
      obtain ⟨u, named, -⟩ := h (name, value) mem field declared
      exact ⟨u, named⟩
    · rintro p (_ | ⟨_, mem, declared, named⟩)
      obtain ⟨u, named', fits⟩ := h _ mem _ declared
      rw [named] at named'
      cases named'
      exact fits

theorem dataGivesSome_obj {t : TypeDefinition} (kind : t.kind = .inputObject)
    (members : List (String × Json)) (m : Mark) :
    DataGivesSome s m (t, .obj members) ↔ ∃ member ∈ members, MemberGives s t m member := by
  rw [DataGivesSome, somewhere_iff]
  constructor
  · rintro (gives | ⟨p, part, gives⟩)
    · cases gives with
      | @key _ name value field _ mem declared =>
        exact ⟨(name, value), mem, field, declared, .inl rfl⟩
      | whole kind' => exact absurd kind kind'
    · cases part with
      | member _ mem declared named => exact ⟨_, mem, _, declared, .inr ⟨_, named, gives⟩⟩
  · rintro ⟨⟨name, value⟩, mem, field, declared, rfl | ⟨u, named, gives⟩⟩
    · exact .inl (.key kind mem declared)
    · exact .inr ⟨_, .member kind mem declared named, gives⟩

theorem dataFitsAll_arr {t : TypeDefinition} (items : List Json) :
    DataFitsAll s (t, .arr items) ↔ ∀ item ∈ items, DataFitsAll s (t, item) := by
  rw [DataFitsAll, everywhere_iff]
  constructor
  · exact fun h item mem => h.2 _ (.item mem)
  · intro h
    constructor
    · intro _ _ _ _ same
      cases same
    · rintro p (mem | _)
      exact h _ mem

theorem dataGivesSome_arr {t : TypeDefinition} (kind : t.kind = .inputObject) (items : List Json)
    (m : Mark) :
    DataGivesSome s m (t, .arr items) ↔ ∃ item ∈ items, DataGivesSome s m (t, item) := by
  rw [DataGivesSome, somewhere_iff]
  constructor
  · rintro (gives | ⟨p, part, gives⟩)
    · cases gives with
      | whole kind' => exact absurd kind kind'
    · cases part with
      | item mem => exact ⟨_, mem, gives⟩
  · rintro ⟨item, mem, gives⟩
    exact .inr ⟨_, .item mem, gives⟩

/-! ## Marks -/

/-- Data without parts has the marks that it gives itself. -/
theorem leafMarks_exact {t : TypeDefinition} {data : Json} {marks : List Mark}
    (leaf : ∀ p, ¬ DataPart s (t, data) p) (obj : ∀ members, data ≠ .obj members)
    (gives : ∀ m, m ∈ marks ↔ DataGives t data m) :
    Exact (.ok marks : Except UsageError (List Mark)) (DataFitsAll s (t, data))
      fun m => DataGivesSome s m (t, data) := by
  refine (Exact.ok gives).congr ?_ fun _ m => ?_
  · rw [DataFitsAll, everywhere_iff]
    exact ⟨fun _ => ⟨fun members _ _ _ same => absurd same (obj members),
      fun p part => absurd part (leaf p)⟩, fun _ => trivial⟩
  · rw [DataGivesSome, somewhere_iff]
    exact ⟨.inl, fun h => h.resolve_right fun ⟨p, part, _⟩ => leaf p part⟩

/-- The marks of a member. -/
def memberMark (s : Schema) (t : TypeDefinition) (member : String × Json) :
    Except UsageError (List Mark) :=
  match t.inputField? member.1 with
  | none => .ok []
  | some field => do
    let type ← firstType s field.type.innerName
    joined (.ok [.field t.name member.1]) (valueMarks s type member.2)

theorem memberMarks_cons (t : TypeDefinition) (name : String) (value : Json)
    (members : List (String × Json)) :
    memberMarks s t ((name, value) :: members) =
      joined (memberMark s t (name, value)) (memberMarks s t members) := by
  rw [memberMarks, memberMark]
  cases t.inputField? name with
  | none => rfl
  | some field =>
    dsimp only
    cases firstType s field.type.innerName with
    | error e => rfl
    | ok type =>
      dsimp only [bind, Except.bind]
      cases valueMarks s type value <;> rfl

theorem memberMark_exact {t : TypeDefinition} {member : String × Json}
    (value : ∀ u, Exact (valueMarks s u member.2) (DataFitsAll s (u, member.2))
      fun m => DataGivesSome s m (u, member.2)) :
    Exact (memberMark s t member) (MemberFits s t member) fun m => MemberGives s t m member := by
  unfold memberMark MemberFits MemberGives
  cases t.inputField? member.1 with
  | none => exact Exact.nil.congr (by simp) (by simp)
  | some field =>
    have found : Exact (firstType s field.type.innerName >>= fun type =>
        joined (.ok [.field t.name member.1]) (valueMarks s type member.2)) _ _ :=
      .bind (fun _ => firstType_eq_ok) fun u =>
        (Exact.single _).joined (value u)
    refine found.congr (by simp) fun fits m => ?_
    obtain ⟨u, named, -⟩ := fits field rfl
    simp [named]

mutual
/-- **Supplied data has the marks that its positions give.** -/
theorem valueMarks_exact : ∀ (data : Json) (t : TypeDefinition),
    Exact (valueMarks s t data) (DataFitsAll s (t, data)) fun m => DataGivesSome s m (t, data)
  | data, t => by
    by_cases kind : t.kind = .inputObject
    · cases data with
      | arr items =>
        rw [valueMarks, if_pos kind]
        refine (itemMarks_exact items t).congr (dataFitsAll_arr items).symm fun _ m => ?_
        exact (dataGivesSome_arr kind items m).symm
      | obj members =>
        rw [valueMarks, if_pos kind]
        refine (memberMarks_exact members t).congr (dataFitsAll_obj kind members).symm
          fun _ m => ?_
        exact (dataGivesSome_obj kind members m).symm
      | null =>
        refine leafMarks_exact nofun nofun fun m => ?_
        rw [if_pos kind, List.mem_singleton]
        constructor
        · rintro rfl
          exact .missing kind
        · rintro (_ | _ | kind')
          · rfl
          · exact absurd kind kind'
      | _ =>
        refine leafMarks_exact nofun nofun fun m => ?_
        rw [if_pos kind]
        exact ⟨nofun, fun gives => by cases gives with | whole kind' => exact absurd kind kind'⟩
    · exact valueMarks_foreign_exact kind data
theorem itemMarks_exact : ∀ (items : List Json) (t : TypeDefinition),
    Exact (itemMarks s t items) (∀ item ∈ items, DataFitsAll s (t, item))
      fun m => ∃ item ∈ items, DataGivesSome s m (t, item)
  | [], t => Exact.nil.congr (by simp) (by simp)
  | item :: items, t => by
    refine ((valueMarks_exact item t).joined (itemMarks_exact items t)).congr ?_ fun _ m => ?_
    · rw [List.forall_mem_cons]
    · simp
theorem memberMarks_exact : ∀ (members : List (String × Json)) (t : TypeDefinition),
    Exact (memberMarks s t members) (∀ member ∈ members, MemberFits s t member)
      fun m => ∃ member ∈ members, MemberGives s t m member
  | [], t => Exact.nil.congr (by simp) (by simp)
  | (name, value) :: members, t => by
    rw [memberMarks_cons]
    have first : Exact (memberMark s t (name, value)) (MemberFits s t (name, value))
        fun m => MemberGives s t m (name, value) :=
      memberMark_exact fun u => valueMarks_exact value u
    refine (first.joined (memberMarks_exact members t)).congr ?_ fun _ m => ?_
    · rw [List.forall_mem_cons]
    · simp
end

end SchemaUsage.Usage

import Mathlib.Data.List.Forall2
import SchemaUsage.Graphql.Normal

/-!
# Normal forms as stably sorted copies

What a normal form is, said without a sorting algorithm. A sorted copy of a list has the same items
in ascending order, and items that compare equal have the order of the list; there is one such copy.
A document is in its normal form when every list of it that may be reordered is the sorted copy of
the list at the same node whose members are in their normal forms.

* Orders are three-way comparisons: `compareOn` a name, `Selection.compare`, `Definition.compare`.
* The relations follow the syntax. Literals and aliases are replaced where they stand; the items of
  lists keep their order.

Results:
- `Selection.le_eq`, `Definition.le_eq`: the orders of `Normal` are those of the comparisons.
-/

namespace SchemaUsage.Graphql

/-! ## Sorted copies -/

/-- **A stably sorted copy of a list**: the same items, ascending, where items that compare equal
have the order that they have in the list. -/
structure StablySorted (cmp : α → α → Ordering) (items sorted : List α) : Prop where
  perm : sorted.Perm items
  ascending : sorted.Pairwise fun a b => (cmp a b).isLE = true
  stable : ∀ a, sorted.filter (cmp a · == .eq) = items.filter (cmp a · == .eq)

/-- A copy that is sorted by a name. -/
abbrev SortedByName (name : α → String) : List α → List α → Prop :=
  StablySorted (compareOn name)

/-- The order of selections: fields and spreads among each other by name, all others by rank. -/
def Selection.compare : Selection → Selection → Ordering
  | .field _ a .., .field _ b .. => Ord.compare a b
  | .spread a _, .spread b _ => Ord.compare a b
  | a, b => Ord.compare a.rank b.rank

/-- Operations come first, then fragments. -/
def Definition.rank : Definition → Nat
  | .operation _ => 1
  | .fragment _ => 2

/-- The order of definitions: operations are equal, fragments go by name. -/
def Definition.compare : Definition → Definition → Ordering
  | .operation _, .operation _ => .eq
  | .fragment a, .fragment b => Ord.compare a.name b.name
  | a, b => Ord.compare a.rank b.rank

/-- The order of names is that of their comparison. -/
theorem name_le_eq (a b : String) : decide (a ≤ b) = (Ord.compare a b).isLE := by
  change decide (a ≤ b) = (compareOfLessAndEq a b).isLE
  unfold compareOfLessAndEq
  split
  · rename_i below
    exact decide_eq_true (String.not_lt.mp (String.lt_asymm below))
  · rename_i above
    split
    · rename_i same
      exact decide_eq_true (same ▸ String.not_lt.mp (String.lt_irrefl a))
    · rename_i apart
      exact decide_eq_false fun le => apart (String.le_antisymm le (String.not_lt.mp above))

theorem Selection.le_eq (a b : Selection) : a.le b = (a.compare b).isLE := by
  cases a <;> cases b <;> first | exact name_le_eq _ _ | rfl

theorem Definition.le_eq (a b : Definition) : a.le b = (a.compare b).isLE := by
  cases a <;> cases b <;> first | exact name_le_eq _ _ | rfl

/-! ## Values -/

section Normal

variable (o : NormalOptions)

mutual
/-- **A value in its normal form**: the second of the first. -/
inductive Value.Normal : Value → Value → Prop where
  | int (i : Int) : Value.Normal (.int i) (.int (if o.hideLiterals then 0 else i))
  | float (x : Number.Binary) :
      Value.Normal (.float x) (.float (if o.hideLiterals then .finite false 0 0 else x))
  | string (s : String) : Value.Normal (.string s) (.string (if o.hideLiterals then "" else s))
  | var (name : String) : Value.Normal (.var name) (.var name)
  | boolean (b : Bool) : Value.Normal (.boolean b) (.boolean b)
  | null : Value.Normal .null .null
  | enum (name : String) : Value.Normal (.enum name) (.enum name)
  | list {items others : List Value} (each : ItemsNormal items others) :
      Value.Normal (.list items) (.list others)
  | object {fields normal others : Arguments} (each : FieldsNormal fields normal)
      (sorted : SortedByName Prod.fst normal others) : Value.Normal (.object fields) (.object others)
/-- Items in their normal forms, one by one. -/
inductive ItemsNormal : List Value → List Value → Prop where
  | nil : ItemsNormal [] []
  | cons {v w : Value} {items others : List Value} (first : Value.Normal v w)
      (rest : ItemsNormal items others) : ItemsNormal (v :: items) (w :: others)
/-- Named values in their normal forms, one by one. -/
inductive FieldsNormal : Arguments → Arguments → Prop where
  | nil : FieldsNormal [] []
  | cons {v w : Value} {fields others : Arguments} (name : String) (first : Value.Normal v w)
      (rest : FieldsNormal fields others) : FieldsNormal ((name, v) :: fields) ((name, w) :: others)
end

/-- Arguments in their normal forms, sorted by name. -/
def ArgumentsNormal (args others : Arguments) : Prop :=
  ∃ normal, FieldsNormal o args normal ∧ SortedByName Prod.fst normal others

/-! ## Directives and variables -/

/-- A directive whose arguments are normal. -/
structure Directive.Normal (d e : Directive) : Prop where
  name : e.name = d.name
  arguments : ArgumentsNormal o d.arguments e.arguments

/-- Directives in their normal forms, sorted by name. -/
def DirectivesNormal (directives others : List Directive) : Prop :=
  ∃ normal, List.Forall₂ (Directive.Normal o) directives normal ∧
    SortedByName Directive.name normal others

/-- A variable whose default value is normal. -/
structure VariableDefinition.Normal (v w : VariableDefinition) : Prop where
  name : w.name = v.name
  type : w.type = v.type
  default : Option.Rel (Value.Normal o) v.default w.default

/-- Variables in their normal forms, sorted by name. -/
def VariablesNormal (variableList others : List VariableDefinition) : Prop :=
  ∃ normal, List.Forall₂ (VariableDefinition.Normal o) variableList normal ∧
    SortedByName VariableDefinition.name normal others

/-! ## Selections -/

mutual
/-- A selection in its normal form. -/
inductive Selection.Normal : Selection → Selection → Prop where
  | field (aliasName : Option String) (name : String) {args args' : Arguments}
      {directives directives' : List Directive} {selections normal selections' : List Selection}
      (given : ArgumentsNormal o args args') (marked : DirectivesNormal o directives directives')
      (nested : EachNormal selections normal)
      (sorted : StablySorted Selection.compare normal selections') :
      Selection.Normal (.field aliasName name args directives selections)
        (.field (if o.removeAliases then none else aliasName) name args' directives' selections')
  | spread (fragment : String) {directives directives' : List Directive}
      (marked : DirectivesNormal o directives directives') :
      Selection.Normal (.spread fragment directives) (.spread fragment directives')
  | inline (condition : Option String) {directives directives' : List Directive}
      {selections normal selections' : List Selection}
      (marked : DirectivesNormal o directives directives')
      (nested : EachNormal selections normal)
      (sorted : StablySorted Selection.compare normal selections') :
      Selection.Normal (.inline condition directives selections)
        (.inline condition directives' selections')
/-- Selections in their normal forms, one by one. -/
inductive EachNormal : List Selection → List Selection → Prop where
  | nil : EachNormal [] []
  | cons {sel other : Selection} {selections others : List Selection}
      (first : Selection.Normal sel other) (rest : EachNormal selections others) :
      EachNormal (sel :: selections) (other :: others)
end

/-- A selection set in its normal form. -/
def SelectionsNormal (selections others : List Selection) : Prop :=
  ∃ normal, EachNormal o selections normal ∧ StablySorted Selection.compare normal others

/-! ## Documents -/

/-- An operation in its normal form. -/
inductive Operation.Normal : Operation → Operation → Prop where
  | shorthand {selections others : List Selection}
      (selected : SelectionsNormal o selections others) :
      Operation.Normal (.shorthand selections) (.shorthand others)
  | full (kind : OperationKind) (name : Option String)
      {variableList variableList' : List VariableDefinition}
      {directives directives' : List Directive} {selections selections' : List Selection}
      (declared : VariablesNormal o variableList variableList')
      (marked : DirectivesNormal o directives directives')
      (selected : SelectionsNormal o selections selections') :
      Operation.Normal (.full kind name variableList directives selections)
        (.full kind name variableList' directives' selections')

/-- A fragment in its normal form. -/
structure Fragment.Normal (f g : Fragment) : Prop where
  name : g.name = f.name
  condition : g.condition = f.condition
  marked : DirectivesNormal o f.directives g.directives
  selected : SelectionsNormal o f.selections g.selections

/-- A definition in its normal form. -/
inductive Definition.Normal : Definition → Definition → Prop where
  | operation {op other : Operation} (normal : op.Normal o other) :
      Definition.Normal (.operation op) (.operation other)
  | fragment {frag other : Fragment} (normal : frag.Normal o other) :
      Definition.Normal (.fragment frag) (.fragment other)

/-- **A document in its normal form**: its definitions are, and they are sorted. -/
def Document.Normal (doc other : Document) : Prop :=
  ∃ normal, List.Forall₂ (Definition.Normal o) doc normal ∧
    StablySorted Definition.compare normal other

end Normal

end SchemaUsage.Graphql

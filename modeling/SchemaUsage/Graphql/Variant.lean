import SchemaUsage.Graphql.Document

/-!
# Documents written in another way

Two documents are variants of each other when they differ in what means nothing to an operation:
the aliases of fields, the values of numbers and strings, and the order of whatever is told by its
name. Such differences may be combined in any way and at any depth.

* `Rearranged` is the order that means nothing: neighbours that are free of each other change
  places, and what stands at one place is related on both sides.
* Arguments, object fields, directives and variables are free of each other when their names
  differ. Fragments are free of operations and of fragments with another name, operations are not
  free of each other. The selections of a set and the items of a list keep their order.

Results:
- `Document.Variant.operationNames_eq`: variants have operations of the same names, in order.
-/

namespace SchemaUsage.Graphql

/-! ## Orders that mean nothing -/

/-- **Lists that differ in an order that means nothing**, and otherwise are related one by one. -/
inductive Rearranged {α : Type} (free same : α → α → Prop) : List α → List α → Prop where
  | nil : Rearranged free same [] []
  | cons {a b : α} {items others : List α} (first : same a b)
      (rest : Rearranged free same items others) :
      Rearranged free same (a :: items) (b :: others)
  | swap {a b : α} (apart : free a b) (items : List α) :
      Rearranged free same (a :: b :: items) (b :: a :: items)
  | trans {items others further : List α} (first : Rearranged free same items others)
      (second : Rearranged free same others further) : Rearranged free same items further

/-! ## Values -/

mutual
/-- **Values written in another way**: other numbers and strings of the same kinds, and object
fields in another order. -/
inductive Value.Variant : Value → Value → Prop where
  | int (i j : Int) : Value.Variant (.int i) (.int j)
  | float (x y : Number.Binary) : Value.Variant (.float x) (.float y)
  | string (s t : String) : Value.Variant (.string s) (.string t)
  | var (name : String) : Value.Variant (.var name) (.var name)
  | boolean (b : Bool) : Value.Variant (.boolean b) (.boolean b)
  | null : Value.Variant .null .null
  | enum (name : String) : Value.Variant (.enum name) (.enum name)
  | list {items others : List Value} (each : ItemsVariant items others) :
      Value.Variant (.list items) (.list others)
  | object {fields others : Arguments} (each : ArgumentsVariant fields others) :
      Value.Variant (.object fields) (.object others)
/-- Items that are variants one by one. -/
inductive ItemsVariant : List Value → List Value → Prop where
  | nil : ItemsVariant [] []
  | cons {v w : Value} {items others : List Value} (first : Value.Variant v w)
      (rest : ItemsVariant items others) : ItemsVariant (v :: items) (w :: others)
/-- Arguments whose values are variants, where those of different names may change places. -/
inductive ArgumentsVariant : Arguments → Arguments → Prop where
  | nil : ArgumentsVariant [] []
  | cons {v w : Value} {args others : Arguments} (name : String) (first : Value.Variant v w)
      (rest : ArgumentsVariant args others) :
      ArgumentsVariant ((name, v) :: args) ((name, w) :: others)
  | swap {name other : String} (v w : Value) (apart : name ≠ other) (args : Arguments) :
      ArgumentsVariant ((name, v) :: (other, w) :: args) ((other, w) :: (name, v) :: args)
  | trans {args others further : Arguments} (first : ArgumentsVariant args others)
      (second : ArgumentsVariant others further) : ArgumentsVariant args further
end

/-! ## Directives and variables -/

/-- Directives of one name whose arguments are variants. -/
structure Directive.Variant (d e : Directive) : Prop where
  name : d.name = e.name
  arguments : ArgumentsVariant d.arguments e.arguments

/-- Directives that are variants, where those of different names may change places. -/
abbrev DirectivesVariant : List Directive → List Directive → Prop :=
  Rearranged (fun d e => d.name ≠ e.name) Directive.Variant

/-- Variables of one name and type whose default values are variants. -/
structure VariableDefinition.Variant (v w : VariableDefinition) : Prop where
  name : v.name = w.name
  type : v.type = w.type
  default : Option.Rel Value.Variant v.default w.default

/-- Variables that are variants, where those of different names may change places. -/
abbrev VariablesVariant : List VariableDefinition → List VariableDefinition → Prop :=
  Rearranged (fun v w => v.name ≠ w.name) VariableDefinition.Variant

/-! ## Selections -/

mutual
/-- Selections written in another way; a field may have another alias, or none. -/
inductive Selection.Variant : Selection → Selection → Prop where
  | field (aliasName aliasName' : Option String) (name : String) {args args' : Arguments}
      {directives directives' : List Directive} {selections selections' : List Selection}
      (given : ArgumentsVariant args args') (marked : DirectivesVariant directives directives')
      (nested : SelectionsVariant selections selections') :
      Selection.Variant (.field aliasName name args directives selections)
        (.field aliasName' name args' directives' selections')
  | spread (fragment : String) {directives directives' : List Directive}
      (marked : DirectivesVariant directives directives') :
      Selection.Variant (.spread fragment directives) (.spread fragment directives')
  | inline (condition : Option String) {directives directives' : List Directive}
      {selections selections' : List Selection} (marked : DirectivesVariant directives directives')
      (nested : SelectionsVariant selections selections') :
      Selection.Variant (.inline condition directives selections)
        (.inline condition directives' selections')
/-- Selections that are variants one by one. -/
inductive SelectionsVariant : List Selection → List Selection → Prop where
  | nil : SelectionsVariant [] []
  | cons {sel other : Selection} {selections others : List Selection}
      (first : Selection.Variant sel other) (rest : SelectionsVariant selections others) :
      SelectionsVariant (sel :: selections) (other :: others)
end

/-! ## Documents -/

/-- Operations of one kind and name that are variants in everything else. -/
inductive Operation.Variant : Operation → Operation → Prop where
  | shorthand {selections others : List Selection}
      (selected : SelectionsVariant selections others) :
      Operation.Variant (.shorthand selections) (.shorthand others)
  | full (kind : OperationKind) (name : Option String)
      {variableList variableList' : List VariableDefinition}
      {directives directives' : List Directive} {selections selections' : List Selection}
      (declared : VariablesVariant variableList variableList')
      (marked : DirectivesVariant directives directives')
      (selected : SelectionsVariant selections selections') :
      Operation.Variant (.full kind name variableList directives selections)
        (.full kind name variableList' directives' selections')

/-- Fragments of one name and condition that are variants in everything else. -/
structure Fragment.Variant (f g : Fragment) : Prop where
  name : f.name = g.name
  condition : f.condition = g.condition
  marked : DirectivesVariant f.directives g.directives
  selected : SelectionsVariant f.selections g.selections

/-- Definitions of one sort that are variants. -/
inductive Definition.Variant : Definition → Definition → Prop where
  | operation {op other : Operation} (variant : op.Variant other) :
      Definition.Variant (.operation op) (.operation other)
  | fragment {frag other : Fragment} (variant : frag.Variant other) :
      Definition.Variant (.fragment frag) (.fragment other)

/-- Definitions that may change places: a fragment with an operation, or with a fragment of
another name. -/
def Definition.Free : Definition → Definition → Prop
  | .operation _, .operation _ => False
  | .fragment f, .fragment g => f.name ≠ g.name
  | _, _ => True

/-- **Documents written in another way.** -/
abbrev Document.Variant : Document → Document → Prop :=
  Rearranged Definition.Free Definition.Variant

theorem Operation.Variant.name {op other : Operation} (h : op.Variant other) :
    op.name = other.name := by
  cases h <;> rfl

/-- The operations of variants have the same names, in the same order. -/
theorem Document.Variant.operationNames_eq {doc other : Document} (h : doc.Variant other) :
    doc.operations.map Operation.name = other.operations.map Operation.name := by
  unfold Document.operations
  induction h with
  | nil => rfl
  | cons first _ ih =>
    cases first with
    | operation variant => simp [variant.name, ih]
    | fragment _ => simpa using ih
  | @swap a b apart items =>
    cases a <;> cases b
    · exact absurd apart id
    all_goals rfl
  | trans _ _ ih ih' => exact ih.trans ih'

end SchemaUsage.Graphql

import Mathlib.Data.List.Forall2
import SchemaUsage.Graphql.Document

/-!
# Documents up to their literals

Two documents are alike when they differ in the values of numbers and strings only, each of which
stands against another one of its own kind. Such literals may be anywhere: in the arguments of
fields and of directives, in the default values of variables, and within lists and objects there.

* The relations follow the syntax: one constructor for each form, and everything that is not a
  number or a string the same on both sides.
* `Document.parts` lists what a document contains: every value in it with all that is inside.

Results:
- `ArgumentsAlike.forall₂`: alike arguments have the same names, one by one.
- `Document.Alike.operations`: alike documents have alike operations, in the same order.
-/

namespace SchemaUsage.Graphql

/-! ## Values -/

mutual
/-- **Values that differ in numbers and strings only**, each of the same kind on both sides. -/
inductive Value.Alike : Value → Value → Prop where
  | int (i j : Int) : Value.Alike (.int i) (.int j)
  | float (x y : Number.Binary) : Value.Alike (.float x) (.float y)
  | string (s t : String) : Value.Alike (.string s) (.string t)
  | var (name : String) : Value.Alike (.var name) (.var name)
  | boolean (b : Bool) : Value.Alike (.boolean b) (.boolean b)
  | null : Value.Alike .null .null
  | enum (name : String) : Value.Alike (.enum name) (.enum name)
  | list {items others : List Value} (each : ItemsAlike items others) :
      Value.Alike (.list items) (.list others)
  | object {fields others : Arguments} (each : ArgumentsAlike fields others) :
      Value.Alike (.object fields) (.object others)
/-- Items that are alike one by one. -/
inductive ItemsAlike : List Value → List Value → Prop where
  | nil : ItemsAlike [] []
  | cons {v w : Value} {items others : List Value} (first : Value.Alike v w)
      (rest : ItemsAlike items others) : ItemsAlike (v :: items) (w :: others)
/-- Arguments with the same names whose values are alike. -/
inductive ArgumentsAlike : Arguments → Arguments → Prop where
  | nil : ArgumentsAlike [] []
  | cons {v w : Value} {args others : Arguments} (name : String) (first : Value.Alike v w)
      (rest : ArgumentsAlike args others) :
      ArgumentsAlike ((name, v) :: args) ((name, w) :: others)
end

theorem ArgumentsAlike.forall₂ : ∀ {args others : Arguments}, ArgumentsAlike args others →
    List.Forall₂ (fun arg other => arg.1 = other.1 ∧ arg.2.Alike other.2) args others
  | _, _, .nil => .nil
  | _, _, .cons _ first rest => .cons ⟨rfl, first⟩ rest.forall₂

/-! ## Directives and variables -/

/-- Directives of one name with alike arguments. -/
structure Directive.Alike (d e : Directive) : Prop where
  name : d.name = e.name
  arguments : ArgumentsAlike d.arguments e.arguments

/-- Directives that are alike one by one. -/
abbrev DirectivesAlike : List Directive → List Directive → Prop :=
  List.Forall₂ Directive.Alike

/-- Variables of one name and type with alike default values. -/
structure VariableDefinition.Alike (v w : VariableDefinition) : Prop where
  name : v.name = w.name
  type : v.type = w.type
  default : Option.Rel Value.Alike v.default w.default

/-! ## Selections -/

mutual
/-- Selections that differ in the literals of their arguments and directives only. -/
inductive Selection.Alike : Selection → Selection → Prop where
  | field (aliasName : Option String) (name : String) {args args' : Arguments}
      {directives directives' : List Directive} {selections selections' : List Selection}
      (given : ArgumentsAlike args args') (marked : DirectivesAlike directives directives')
      (nested : SelectionsAlike selections selections') :
      Selection.Alike (.field aliasName name args directives selections)
        (.field aliasName name args' directives' selections')
  | spread (fragment : String) {directives directives' : List Directive}
      (marked : DirectivesAlike directives directives') :
      Selection.Alike (.spread fragment directives) (.spread fragment directives')
  | inline (condition : Option String) {directives directives' : List Directive}
      {selections selections' : List Selection} (marked : DirectivesAlike directives directives')
      (nested : SelectionsAlike selections selections') :
      Selection.Alike (.inline condition directives selections)
        (.inline condition directives' selections')
/-- Selections that are alike one by one. -/
inductive SelectionsAlike : List Selection → List Selection → Prop where
  | nil : SelectionsAlike [] []
  | cons {sel other : Selection} {selections others : List Selection}
      (first : Selection.Alike sel other) (rest : SelectionsAlike selections others) :
      SelectionsAlike (sel :: selections) (other :: others)
end

/-! ## Documents -/

/-- Operations of one kind and name that are alike in everything else. -/
inductive Operation.Alike : Operation → Operation → Prop where
  | shorthand {selections others : List Selection} (selected : SelectionsAlike selections others) :
      Operation.Alike (.shorthand selections) (.shorthand others)
  | full (kind : OperationKind) (name : Option String)
      {variableList variableList' : List VariableDefinition}
      {directives directives' : List Directive} {selections selections' : List Selection}
      (declared : List.Forall₂ VariableDefinition.Alike variableList variableList')
      (marked : DirectivesAlike directives directives')
      (selected : SelectionsAlike selections selections') :
      Operation.Alike (.full kind name variableList directives selections)
        (.full kind name variableList' directives' selections')

/-- Fragments of one name and condition that are alike in everything else. -/
structure Fragment.Alike (f g : Fragment) : Prop where
  name : f.name = g.name
  condition : f.condition = g.condition
  marked : DirectivesAlike f.directives g.directives
  selected : SelectionsAlike f.selections g.selections

/-- Definitions of one sort that are alike. -/
inductive Definition.Alike : Definition → Definition → Prop where
  | operation {op other : Operation} (alike : op.Alike other) :
      Definition.Alike (.operation op) (.operation other)
  | fragment {frag other : Fragment} (alike : frag.Alike other) :
      Definition.Alike (.fragment frag) (.fragment other)

/-- **Documents that differ in the values of numbers and strings only.** -/
abbrev Document.Alike : Document → Document → Prop :=
  List.Forall₂ Definition.Alike

theorem Operation.Alike.name {op other : Operation} (h : op.Alike other) :
    op.name = other.name := by
  cases h <;> rfl

theorem Document.Alike.operations {doc other : Document} (h : doc.Alike other) :
    List.Forall₂ Operation.Alike doc.operations other.operations := by
  unfold Document.operations
  induction h with
  | nil => exact .nil
  | cons first _ ih =>
    cases first with
    | operation alike => exact .cons alike ih
    | fragment _ => exact ih

/-! ## What a document contains -/

mutual
/-- A value and everything inside of it. -/
def Value.parts : Value → List Value
  | .list items => .list items :: itemParts items
  | .object fields => .object fields :: argumentParts fields
  | v => [v]
/-- Items and everything inside of them. -/
def itemParts : List Value → List Value
  | [] => []
  | v :: items => v.parts ++ itemParts items
/-- The values of arguments and everything inside of them. -/
def argumentParts : Arguments → List Value
  | [] => []
  | (_, v) :: args => v.parts ++ argumentParts args
end

/-- The values in the arguments of directives. -/
def directiveParts (directives : List Directive) : List Value :=
  directives.flatMap fun d => argumentParts d.arguments

mutual
/-- The values in a selection, at any depth. -/
def Selection.parts : Selection → List Value
  | .field _ _ args directives selections =>
    argumentParts args ++ directiveParts directives ++ selectionParts selections
  | .spread _ directives => directiveParts directives
  | .inline _ directives selections => directiveParts directives ++ selectionParts selections
/-- The values in selections, at any depth. -/
def selectionParts : List Selection → List Value
  | [] => []
  | sel :: selections => sel.parts ++ selectionParts selections
end

/-- The values in the defaults of variables. -/
def variableParts (variableList : List VariableDefinition) : List Value :=
  variableList.flatMap fun v => v.default.elim [] Value.parts

/-- The values in an operation. -/
def Operation.parts : Operation → List Value
  | .shorthand selections => selectionParts selections
  | .full _ _ variableList directives selections =>
    variableParts variableList ++ directiveParts directives ++ selectionParts selections

/-- The values in a definition. -/
def Definition.parts : Definition → List Value
  | .operation op => op.parts
  | .fragment frag => directiveParts frag.directives ++ selectionParts frag.selections

/-- **The values in a document**, each with everything inside of it. -/
def Document.parts (doc : Document) : List Value :=
  doc.flatMap Definition.parts

end SchemaUsage.Graphql

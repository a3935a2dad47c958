import SchemaUsage.Usage.Mark

/-!
# Where selections stand

What `current_parent_type` is at a selection, without the stacks: the type in which a selection of a
document stands, by the text around it alone. It is the root type of the operation, the condition of
the fragment, the type of the field or the condition of the inline fragment that encloses it.
Nothing stands below a meta field, and a spread leads nowhere: what it names stands in its own
fragment.

Results:
- `Stands.mem_types`: selections stand in types of the schema.
- `Stands.eq_of_single`: what stands in a document with a single field.
-/

namespace SchemaUsage.Usage

open SchemaUsage.Graphql

/-- The fields that every type has without declaring them (`walk_field`, its early returns). -/
def metaFields : List String := ["__typename", "__schema", "__type"]

/-- **A selection stands in a type.** -/
inductive Stands (s : Schema) (doc : Document) : TypeDefinition → Selection → Prop where
  | operation {op : Operation} {root : String} {t : TypeDefinition} {sel : Selection}
      (definition : .operation op ∈ doc) (named : s.rootName? op.kind = some root)
      (type : s.lastType? root = some t) (selected : sel ∈ op.selections) : Stands s doc t sel
  | fragment {frag : Fragment} {t : TypeDefinition} {sel : Selection}
      (definition : .fragment frag ∈ doc) (type : s.lastType? frag.condition = some t)
      (selected : sel ∈ frag.selections) : Stands s doc t sel
  | nested {t u : TypeDefinition} {aliasName : Option String} {name : String} {args : Arguments}
      {directives : List Directive} {selections : List Selection} {field : FieldDefinition}
      {sel : Selection} (outer : Stands s doc t (.field aliasName name args directives selections))
      (ordinary : name ∉ metaFields) (declared : t.field? name = some field)
      (type : s.lastType? field.type.innerName = some u) (selected : sel ∈ selections) :
      Stands s doc u sel
  | conditional {t u : TypeDefinition} {condition : String} {directives : List Directive}
      {selections : List Selection} {sel : Selection}
      (outer : Stands s doc t (.inline (some condition) directives selections))
      (type : s.lastType? condition = some u) (selected : sel ∈ selections) : Stands s doc u sel
  | unconditional {t : TypeDefinition} {directives : List Directive}
      {selections : List Selection} {sel : Selection}
      (outer : Stands s doc t (.inline none directives selections))
      (selected : sel ∈ selections) : Stands s doc t sel

theorem Stands.mem_types {s : Schema} {doc : Document} {t : TypeDefinition} {sel : Selection}
    (h : Stands s doc t sel) : t ∈ s.types := by
  induction h with
  | operation _ _ type _ => exact (Schema.lastType?_mem type).1
  | fragment _ type _ => exact (Schema.lastType?_mem type).1
  | nested _ _ _ type _ _ => exact (Schema.lastType?_mem type).1
  | conditional _ type _ _ => exact (Schema.lastType?_mem type).1
  | unconditional _ _ ih => exact ih

/-- A field without selections that is all of a document is all that stands in it. -/
theorem Stands.eq_of_single {s : Schema} {op : Operation} {t : TypeDefinition} {sel : Selection}
    {aliasName : Option String} {name : String} {args : Arguments} {directives : List Directive}
    (single : op.selections = [.field aliasName name args directives []])
    (h : Stands s [.operation op] t sel) : sel = .field aliasName name args directives [] := by
  induction h with
  | operation definition _ _ selected =>
    cases List.mem_singleton.mp definition
    exact List.mem_singleton.mp (single ▸ selected)
  | fragment definition _ _ => cases List.mem_singleton.mp definition
  | nested _ _ _ _ selected ih =>
    cases ih
    cases selected
  | conditional _ _ _ ih => cases ih
  | unconditional _ _ ih => cases ih

/-- The identifiers that a selection gives in the type where it stands: those of a field and of
its arguments. -/
inductive Gives (t : TypeDefinition) : Selection → String → Prop where
  | field {aliasName : Option String} {name : String} {args : Arguments}
      {directives : List Directive} {selections : List Selection} (ordinary : name ∉ metaFields) :
      Gives t (.field aliasName name args directives selections) (fieldId t.name name)
  | argument {aliasName : Option String} {name : String} {args : Arguments}
      {directives : List Directive} {selections : List Selection} {argument : String}
      {value : Value} (ordinary : name ∉ metaFields) (given : (argument, value) ∈ args) :
      Gives t (.field aliasName name args directives selections)
        (argumentId t.name name argument)
  | typename {aliasName : Option String} {args : Arguments} {directives : List Directive}
      {selections : List Selection} :
      Gives t (.field aliasName "__typename" args directives selections)
        (fieldId t.name "__typename")

/-- **An identifier that the text of a document names**: what one of its selections gives. -/
def Names (s : Schema) (doc : Document) (id : String) : Prop :=
  ∃ t sel, Stands s doc t sel ∧ Gives t sel id

end SchemaUsage.Usage

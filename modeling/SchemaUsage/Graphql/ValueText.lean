import SchemaUsage.Graphql.StringLiteral
import SchemaUsage.Graphql.Value
import SchemaUsage.Number.Shortest

/-!
# Texts of values and directives

Values and directives as they display on their own: items separated by a comma and a blank. Error
messages that quote a value are made of these.
-/

namespace SchemaUsage.Graphql

mutual
/-- The text of a value. -/
def Value.text : Value → String
  | .var name => "$" ++ name
  | .int i => toString i
  | .float x => Number.Format.double.text x
  | .string s => StringLiteral.written 0 s
  | .boolean b => if b then "true" else "false"
  | .null => "null"
  | .enum name => name
  | .list [] => "[]"
  | .list (v :: vs) => "[" ++ v.text ++ itemsText vs ++ "]"
  | .object [] => "\x7b\x7d"
  | .object ((name, v) :: rest) => "\x7b" ++ name ++ ": " ++ v.text ++ fieldsText rest ++ "\x7d"
/-- Further items of a list. -/
def itemsText : List Value → String
  | [] => ""
  | v :: vs => ", " ++ v.text ++ itemsText vs
/-- Further named values. -/
def fieldsText : Arguments → String
  | [] => ""
  | (name, v) :: rest => ", " ++ name ++ ": " ++ v.text ++ fieldsText rest
end

/-- The text of a directive. -/
def Directive.text (d : Directive) : String :=
  "@" ++ d.name ++
  match d.arguments with
  | [] => ""
  | (name, v) :: rest => "(" ++ name ++ ": " ++ v.text ++ fieldsText rest ++ ")"

end SchemaUsage.Graphql

import SchemaUsage.Json.Basic
import SchemaUsage.Number.Literal
import SchemaUsage.Number.Power
import SchemaUsage.Yaml.Property

/-!
# YAML nodes

A node is what a part of a document stands for. A plain scalar without a tag is resolved by its
text: to nothing, a truth value, a number, or the text itself. A tag of the core schema asks for one
of these, and a text that it does not fit is unreadable. Numbers keep 64 bits.
-/

namespace SchemaUsage.Yaml

open SchemaUsage.Text SchemaUsage.Number

/-- A node. A real number keeps its text. -/
inductive Node where
  | unreadable
  | null
  | bool (value : Bool)
  | int (value : Int)
  | real (text : String)
  | text (value : String)
  | sequence (items : List Node)
  | mapping (entries : List (Node × Node))
  deriving Repr, Inhabited, BEq

namespace Node

/-! ## Plain scalars -/

/-- A signed integer of 64 bits whose digits have a value. -/
def signed? (value? : List Char → Option Nat) (cs : List Char) : Option Int :=
  let (negative, digits) := takeSign cs
  if digits.isEmpty then none
  else
    (value? digits).bind fun magnitude =>
      let i : Int := if negative then -(magnitude : Int) else magnitude
      if isSigned64 i then some i else none

/-- The number that decimal digits write. -/
def decimalDigits? (cs : List Char) : Option Nat :=
  if cs.all isDigit then some (decimalValue cs) else none

/-- The number that octal digits write. -/
def octalDigits? (cs : List Char) : Option Nat :=
  if cs.all fun c => '0' ≤ c && c ≤ '7' then
    some (cs.foldl (fun n c => 8 * n + (c.toNat - '0'.toNat)) 0)
  else none

/-- A decimal integer with an optional sign. -/
def decimal? (cs : List Char) : Option Int := signed? decimalDigits? cs

/-- A whole number in decimal, octal or hexadecimal form. Behind the mark of its form it has an
optional sign; a plus is such a mark. -/
def whole? (text : String) : Option Int :=
  match text.toList with
  | '0' :: 'x' :: digits => signed? hexValue? digits
  | '0' :: 'o' :: digits => signed? octalDigits? digits
  | '+' :: digits => decimal? digits
  | cs => decimal? cs

/-- The words for infinity and for "not a number". -/
def isRealWord (text : String) : Bool :=
  [".inf", ".Inf", ".INF", "+.inf", "+.Inf", "+.INF", "-.inf", "-.Inf", "-.INF", ".nan", ".NaN",
    ".NAN"].contains text

/-- The number that a text with a digit at least writes. -/
def real? (text : String) : Option Binary :=
  if text.toList.any isDigit then (Format.double.read text).toOption else none

/-- Whether a text writes a real number. -/
def isReal (text : String) : Bool := isRealWord text || (real? text).isSome

/-- What a plain scalar without a tag stands for. -/
def plain (text : String) : Node :=
  match whole? text with
  | some i => .int i
  | none =>
    if ["", "~", "null"].contains text then .null
    else if ["true", "True", "TRUE"].contains text then .bool true
    else if ["false", "False", "FALSE"].contains text then .bool false
    else if isReal text then .real text
    else .text text

/-- The handle of the core schema. -/
def coreHandle : String := "tag:yaml.org,2002:"

/-- What a plain scalar stands for under a tag. -/
def tagged (t : Tag) (text : String) : Node :=
  if t.handle != coreHandle then .text text
  else
    match t.suffix with
    | "bool" =>
      if text == "true" then .bool true else if text == "false" then .bool false else .unreadable
    | "int" => (decimal? text.toList).elim .unreadable .int
    | "float" => if isReal text then .real text else .unreadable
    | "null" => if text == "~" || text == "null" then .null else .unreadable
    | _ => .text text

/-- What a scalar stands for. Only plain ones are more than their text. -/
def scalar (t : Option Tag) (isPlain : Bool) (text : String) : Node :=
  if isPlain then t.elim (plain text) fun t => tagged t text else .text text

/-! ## Mappings -/

/-- Keys and values from nodes in a row. An unreadable key gives its place to the node behind it, and
a key without a value is dropped. -/
def paired : List Node → List (Node × Node)
  | [] => []
  | .unreadable :: nodes => paired nodes
  | [_] => []
  | key :: value :: nodes => (key, value) :: paired nodes

/-- Whether the keys of entries differ from each other. -/
def distinctKeys : List (Node × Node) → Bool
  | [] => true
  | (key, _) :: entries => !entries.any (fun e => key == e.1) && distinctKeys entries

/-- The mapping of keys and values in a row. Its keys are different. -/
def mapping? (nodes : List Node) : Option Node :=
  if distinctKeys (paired nodes) then some (.mapping (paired nodes)) else none

/-! ## Values -/

/-- The name that a key stands for. Nothing and collections are no names. -/
def keyName? : Node → Option String
  | .text s => some s
  | .int i => some (toString i)
  | .bool b => some (toString b)
  | .real written => some written
  | _ => none

mutual
/-- **The value that a node stands for.** The words for numbers that are not finite have none. -/
def value? : Node → Option Json
  | .unreadable => some .null
  | .null => some .null
  | .bool b => some (.bool b)
  | .int i => some (.int i)
  | .real written => (real? written).map .float
  | .text s => some (.str s)
  | .sequence items => (itemValues? items).map .arr
  | .mapping entries => (entryValues? entries).map Json.ofMembers
/-- The values of items. -/
def itemValues? : List Node → Option (List Json)
  | [] => some []
  | item :: items => do
    let first ← value? item
    let others ← itemValues? items
    pure (first :: others)
/-- The members of entries. -/
def entryValues? : List (Node × Node) → Option (List (String × Json))
  | [] => some []
  | (key, item) :: entries => do
    let name ← keyName? key
    let first ← value? item
    let others ← entryValues? entries
    pure ((name, first) :: others)
end

end Node

end SchemaUsage.Yaml

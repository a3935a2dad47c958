import SchemaUsage.Number.Binary
import SchemaUsage.Number.Power
import SchemaUsage.Text.Named

/-!
# JSON values

Objects hold their members as a list. `Json.ofMembers` builds the object that a text with these
members denotes: members in ascending order of their names, the last of several with one name.
-/

namespace SchemaUsage

/-- A JSON value. Integers are those of 64 bits, signed or unsigned; all other numbers are
floating-point numbers. -/
inductive Json where
  | null
  | bool (value : Bool)
  | int (value : Int)
  | float (value : Number.Binary)
  | str (value : String)
  | arr (items : List Json)
  | obj (members : List (String × Json))
  deriving Repr, Inhabited

namespace Json

/-- The object with the given members. -/
def ofMembers (members : List (String × Json)) : Json :=
  .obj (Text.Named.ofList members)

/-- The value of the first member with the given name. -/
def member? (name : String) : Json → Option Json
  | .obj members => members.lookup name
  | _ => none

/-- The members of an object. -/
def members? : Json → Option (List (String × Json))
  | .obj members => some members
  | _ => none

/-- The items of an array. -/
def items? : Json → Option (List Json)
  | .arr items => some items
  | _ => none

/-- The text of a string value. -/
def str? : Json → Option String
  | .str s => some s
  | _ => none

/-- A truth value. -/
def bool? : Json → Option Bool
  | .bool b => some b
  | _ => none

/-- A natural number below a bound. -/
def natBelow? (bound : Nat) : Json → Option Nat
  | .int i => if 0 ≤ i ∧ i < bound then some i.toNat else none
  | _ => none

/-- An unsigned integer of 64 bits. -/
def nat64? : Json → Option Nat := natBelow? Number.wordCount

/-- The member of the name, where `null` counts as missing. -/
def given? (name : String) (j : Json) : Option Json :=
  match j.member? name with
  | some .null => none
  | other => other

end Json

end SchemaUsage

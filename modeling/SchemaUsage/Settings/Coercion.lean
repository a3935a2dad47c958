import SchemaUsage.Json.Basic
import SchemaUsage.Number.Power
import SchemaUsage.Number.Shortest
import SchemaUsage.Text.Digits

/-!
# Coercions of configured values

How `try_deserialize` takes the values of a configuration for those of settings. A configuration may
write a value in several ways: a truth value as a number or a word, a number as a text, a text as a
number, a record as a table or as a list of its fields.

Results:
- `record?_obj`: a table stands for a record if it holds no other keys than the names of its fields.

Out of scope: the wording of errors.
-/

namespace SchemaUsage.Settings.Coercion

open SchemaUsage.Number SchemaUsage.Text

/-! ## Words and numbers -/

/-- A text with its ASCII capitals in lower case. -/
def lowered (s : String) : String := String.ofList (s.toList.map Char.toLower)

/-- The truth value of a word, in any case. -/
def wordTruth? (s : String) : Option Bool :=
  if ["true", "on", "yes"].contains (lowered s) then some true
  else if ["false", "off", "no"].contains (lowered s) then some false
  else none

/-- A truth value: a number is true unless it is zero. -/
def bool? : Json → Option Bool
  | .bool b => some b
  | .int i => some (i != 0)
  | .float x => some (!x.isZero)
  | .str "1" => some true
  | .str "0" => some false
  | .str s => wordTruth? s
  | _ => none

/-- The number that a text of digits writes; a plus may stand in front. -/
def digits? (cs : List Char) : Option Nat :=
  let cs := match cs with
    | '+' :: rest => rest
    | cs => cs
  if cs.isEmpty || !cs.all isDigit then none
  else if decimalValue cs < wordCount then some (decimalValue cs)
  else none

/-- The count nearest to a number; "not a number" counts as none. -/
def nearestCount : Binary → Nat
  | .nan => 0
  | .infinite negative => if negative then 0 else wordCount - 1
  | x => min ((x.round?.getD 0).toNat) (wordCount - 1)

/-- A count. -/
def count? : Json → Option Nat
  | .int i => if 0 ≤ i ∧ i < wordCount then some i.toNat else none
  | .bool b => some b.toNat
  | .float x => some (nearestCount x)
  | .str s =>
    match wordTruth? s with
    | some b => some b.toNat
    | none => digits? s.toList
  | _ => none

/-- A text. -/
def text? : Json → Option String
  | .str s => some s
  | .bool b => some (if b then "true" else "false")
  | .int i => some (toString i)
  | .float x => some (Format.double.text x)
  | _ => none

/-! ## Choices and options -/

/-- A value that may be missing, which nothing stands for. -/
def optional? (decode : Json → Option α) : Json → Option (Option α)
  | .null => some none
  | j => (decode j).map some

/-- One of several named values. A table of one key stands for the value of that name. -/
def choice? (name : α → String) (choices : List α) : Json → Option α
  | .str s => choices.find? fun a => name a == s
  | .obj [(key, _)] => choices.find? fun a => name a == key
  | _ => none

/-! ## Records -/

/-- The given fields of a record: those of a table by their names, those of a list by their
places. A table may not hold other keys; further items of a list do not matter. -/
def record? (names : List String) : Json → Option (List (String × Json))
  | .obj members => if members.all fun m => names.contains m.1 then some members else none
  | .arr items => some (names.zip items)
  | _ => none

theorem record?_obj (names : List String) (members : List (String × Json)) :
    record? names (.obj members) = some members ↔ ∀ m ∈ members, m.1 ∈ names := by
  simp [record?]

/-- The value of a field; fields that are not given have a default. -/
def field? (fields : List (String × Json)) (name : String) (default : α)
    (decode : Json → Option α) : Option α :=
  match fields.lookup name with
  | none => some default
  | some j => decode j

end SchemaUsage.Settings.Coercion

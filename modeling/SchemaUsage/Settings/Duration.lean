import SchemaUsage.Number.Power
import SchemaUsage.Text.Blank
import SchemaUsage.Text.Digits

/-!
# Durations

The written forms of `flush_interval`, `connect_timeout` and `request_timeout`. A duration is a
number of nanoseconds. It is written as numbers with units, such as `1m 30s`, in any order and any
number; the written form that is chosen has the greatest units first. Whole seconds of a duration
keep 64 bits.

Results:
- `total_parts`: the chosen parts of a duration add up to it.
-/

namespace SchemaUsage.Settings

open SchemaUsage.Number SchemaUsage.Text

/-- Nanoseconds of a second. -/
def perSecond : Nat := 1000000000

namespace Duration

/-! ## Units -/

/-- A unit of time. -/
inductive TimeUnit where
  | nanosecond
  | microsecond
  | millisecond
  | second
  | minute
  | hour
  | day
  | week
  | month
  | year
  deriving Repr, DecidableEq

namespace TimeUnit

/-- The unit in nanoseconds; a year is 365.25 days, and a month 30.44. -/
def nanos : TimeUnit → Nat
  | nanosecond => 1
  | microsecond => 1000
  | millisecond => 1000000
  | second => perSecond
  | minute => 60 * perSecond
  | hour => 3600 * perSecond
  | day => 86400 * perSecond
  | week => 604800 * perSecond
  | month => 2630016 * perSecond
  | year => 31557600 * perSecond

/-- The unit of a name. -/
def ofName? (name : String) : Option TimeUnit :=
  if ["nanos", "nsec", "ns"].contains name then some nanosecond
  else if ["usec", "us", "µs"].contains name then some microsecond
  else if ["millis", "msec", "ms"].contains name then some millisecond
  else if ["seconds", "second", "secs", "sec", "s"].contains name then some second
  else if ["minutes", "minute", "min", "mins", "m"].contains name then some minute
  else if ["hours", "hour", "hrs", "hr", "h"].contains name then some hour
  else if ["days", "day", "d"].contains name then some day
  else if ["weeks", "week", "wks", "wk", "w"].contains name then some week
  else if ["months", "month", "M"].contains name then some month
  else if ["years", "year", "yrs", "yr", "y"].contains name then some year
  else none

/-- The grain that whole numbers of the unit are counted in: nanoseconds below a second, and
seconds from there on. -/
def grain : TimeUnit → Nat
  | nanosecond | microsecond | millisecond => 1
  | _ => perSecond

/-- The grain that fractions of the unit are counted in; nanoseconds have none. -/
def fractionGrain? : TimeUnit → Option Nat
  | nanosecond => none
  | microsecond | millisecond | second | minute => some 1
  | _ => some perSecond

end TimeUnit

/-! ## Reading -/

/-- A number with its unit: digits in front of the point, digits behind it, and a name. -/
structure Part where
  whole : List Char
  places : Option (List Char)
  unit : List Char
  deriving Repr, DecidableEq

/-- The characters of names of units. -/
def isUnitChar (c : Char) : Bool := c.isAlpha || c == 'µ'

/-- The characters of numbers: blanks may stand between the digits. -/
def isNumberChar (c : Char) : Bool := isDigit c || isBlank c

/-- Splits a point and the digits behind it off the front. -/
def takePlaces : List Char → Option (List Char) × List Char
  | '.' :: rest => (some ((rest.takeWhile isNumberChar).filter isDigit), rest.dropWhile isNumberChar)
  | rest => (none, rest)

/-- Splits a part off the front. -/
def takePart (cs : List Char) : Part × List Char :=
  let (places, rest) := takePlaces (cs.dropWhile isNumberChar)
  (⟨(cs.takeWhile isNumberChar).filter isDigit, places, rest.takeWhile isUnitChar⟩,
    rest.dropWhile isUnitChar)

/-- The parts of a text; none if something else stands between them. -/
def parts? : Nat → List Char → Option (List Part)
  | 0, _ => none
  | n + 1, cs =>
    match trimStart cs with
    | [] => some []
    | c :: rest =>
      if isDigit c then
        let (part, rest) := takePart (c :: rest)
        (parts? n rest).map (part :: ·)
      else none

/-- A count that fits. -/
def fitting? (n : Nat) : Option Nat := if n < wordCount then some n else none

/-- Adds a count of grains to a duration. Less than a second of it and the count are added as
numbers of 64 bits, and so are the whole seconds. -/
def add? (total grain count : Nat) : Option Nat :=
  if total % perSecond / grain + count < wordCount ∧
      total + count * grain < wordCount * perSecond then some (total + count * grain)
  else none

/-- Adds the whole number of a part. -/
def addWhole? (total : Nat) (unit : TimeUnit) (n : Nat) : Option Nat := do
  let count ← fitting? (n * (unit.nanos / unit.grain))
  add? total unit.grain count

/-- Adds the fraction of a part, rounded down. -/
def addFraction? (total : Nat) (unit : TimeUnit) (places : List Char) : Option Nat := do
  let grain ← unit.fractionGrain?
  let denominator ← fitting? (tenTo places.length)
  let numerator ← fitting? (decimalValue places * (unit.nanos / grain))
  if places.isEmpty then none else add? total grain (numerator / denominator)

/-- Adds a part to a duration. -/
def addPart? (total : Nat) (p : Part) : Option Nat := do
  let unit ← TimeUnit.ofName? (String.ofList p.unit)
  let n ← fitting? (decimalValue p.whole)
  let total ← addWhole? total unit n
  match p.places with
  | none => pure total
  | some places => addFraction? total unit places

/-- **Reads a duration.** A lone zero needs no unit. -/
def ofText? (text : String) : Option Nat :=
  if text == "0" then some 0
  else
    match parts? (text.length + 1) text.toList with
    | none => none
    | some [] => none
    | some parts => parts.foldlM addPart? 0

/-! ## Writing -/

/-- The units of the chosen written form, the greatest first: nanoseconds, name, and whether the
name has a plural. -/
def chosenUnits : List (Nat × String × Bool) :=
  [(TimeUnit.year.nanos, "year", true), (TimeUnit.month.nanos, "month", true),
    (TimeUnit.day.nanos, "day", true), (TimeUnit.hour.nanos, "h", false),
    (TimeUnit.minute.nanos, "m", false), (TimeUnit.second.nanos, "s", false),
    (TimeUnit.millisecond.nanos, "ms", false), (TimeUnit.microsecond.nanos, "us", false),
    (TimeUnit.nanosecond.nanos, "ns", false)]

/-- How often each unit goes into what the greater ones leave. -/
def counts (total : Nat) : List (Nat × String × Bool) → List (Nat × Nat × String × Bool)
  | [] => []
  | unit :: units => (total / unit.1, unit) :: counts (total % unit.1) units

/-- What the counts of a list amount to. -/
def amount (counted : List (Nat × Nat × String × Bool)) : Nat :=
  counted.foldr (fun c rest => c.1 * c.2.1 + rest) 0

theorem amount_counts (units : List (Nat × String × Bool)) (hlast : units.getLast?.map Prod.fst = some 1)
    (total : Nat) : amount (counts total units) = total := by
  induction units generalizing total with
  | nil => simp at hlast
  | cons unit units ih =>
    have hdiv : total / unit.1 * unit.1 + total % unit.1 = total := by
      rw [Nat.mul_comm]
      exact Nat.div_add_mod total unit.1
    cases units with
    | nil =>
      have hone : unit.1 = 1 := by simpa using hlast
      simp [counts, amount, hone]
    | cons other units =>
      have hrest := ih (by simpa [List.getLast?_cons_cons] using hlast) (total % unit.1)
      simp only [amount] at hrest
      rw [counts, amount, List.foldr_cons, hrest]
      exact hdiv

/-- **The chosen parts add up.** -/
theorem total_parts (total : Nat) : amount (counts total chosenUnits) = total :=
  amount_counts chosenUnits rfl total

/-- The written form of a count; nothing for none. -/
def countText : Nat × Nat × String × Bool → Option String
  | (n, _, name, plural) =>
    if n = 0 then none else some (toString n ++ name ++ (if plural && n != 1 then "s" else ""))

/-- **The written form of a duration.** -/
def text (total : Nat) : String :=
  match (counts total chosenUnits).filterMap countText with
  | [] => "0s"
  | shown => " ".intercalate shown

end Duration

end SchemaUsage.Settings

import SchemaUsage.Log.Event
import SchemaUsage.Text.Blank
import SchemaUsage.Text.Digits
import SchemaUsage.Text.Lines
import SchemaUsage.Text.Symbol

/-!
# Filters of events

The filter that `init` of the logger reads from the directive of the settings (`filter_directive`),
and what it lets through. A filter is a row of directives; the most special of those that hold for
an event decides.

Results:
- `admits_bare`: a filter of one level alone tells what the level includes.
-/

namespace SchemaUsage.Log

open SchemaUsage.Text

/-- A directive. Its fields have a name, and possibly a value that they have to match. -/
structure Directive where
  target : Option String := none
  span : Option String := none
  fields : List (String × Bool) := []
  level : Level := .trace
  deriving Repr, DecidableEq

/-! ## Reading -/

/-- The level of a digit. -/
def digitLevel? (cs : List Char) : Option Level :=
  let digits := match cs with
    | '+' :: rest => rest
    | cs => cs
  if digits.isEmpty || !digits.all isDigit then none else Level.all[decimalValue digits]?

/-- The level of a text: a number or a name in any case. -/
def level? (cs : List Char) : Option Level :=
  (digitLevel? cs).or
    (Level.all.find? fun level => level.name.toList == cs.map Char.toLower)

/-- The level behind the equals sign of a directive, all levels if there is none. -/
def levelOrAll? (cs : List Char) : Option Level :=
  if cs.isEmpty then some .trace else level? cs

/-- A field in a directive. -/
def field? (cs : List Char) : Option (String × Bool) :=
  if cs.isEmpty then none
  else some (String.ofList (cs.takeWhile (· != '=')), cs.contains '=')

/-- Whether a directive may start with the character. -/
def startsDirective (c : Char) : Bool :=
  c.isAlphanum || ['-', ':', '_'].contains c || isForeignLetter c

/-- What follows the part in brackets: a level, or nothing. -/
def afterSpan? (d : Directive) : List Char → Option Directive
  | [] => some d
  | '=' :: level => (levelOrAll? level).map fun level => { d with level := level }
  | _ => none

/-- The part of a directive behind its opening bracket. -/
def spanPart? (target : Option String) (cs : List Char) : Option Directive :=
  let name := cs.takeWhile fun c => c != ']' && c != Char.ofNat 0x7B
  match cs.drop name.length with
  | ']' :: rest => afterSpan? { target := target, span := some (String.ofList name) } rest
  | _ :: rest =>
    let body := rest.takeWhile (· != Char.ofNat 0x7D)
    match rest.drop body.length with
    | _ :: ']' :: rest => do
      let field ← field? body
      let span := if name.isEmpty then none else some (String.ofList name)
      afterSpan? { target := target, span := span, fields := [field] } rest
    | _ => none
  | [] => none

/-- **Reads a directive.** A name that is no level is a target. -/
def Directive.parse? (piece : List Char) : Option Directive :=
  let cs := trim piece
  let name := cs.takeWhile fun c => c != '=' && c != '['
  match cs, cs.drop name.length with
  | '[' :: rest, _ => spanPart? none rest
  | c :: _, rest =>
    if !startsDirective c then none
    else
      match rest with
      | [] =>
        match level? name with
        | some level => some { level := level }
        | none => some { target := some (String.ofList name) }
      | '=' :: level =>
        (levelOrAll? level).map fun level =>
          { target := some (String.ofList name), level := level }
      | _ :: rest => spanPart? (some (String.ofList name)) rest
  | [], _ => none

/-- A filter. -/
structure Filter where
  directives : List Directive
  deriving Repr, DecidableEq

/-- **Reads a filter**: directives between commas. Without any, errors are told. -/
def Filter.parse? (text : String) : Option Filter :=
  let pieces := (split ',' text.toList).filter fun piece => !piece.isEmpty
  if pieces.isEmpty then some ⟨[{ level := .error }]⟩
  else (pieces.mapM Directive.parse?).map Filter.mk

/-! ## Admission -/

/-- The names of the fields of every event. -/
def eventFields : List String := ["message"]

/-- Whether a directive holds for the events of a target. -/
def Directive.covers (d : Directive) (target : String) : Bool :=
  d.span.isNone && d.fields.all (fun f => !f.2 && eventFields.contains f.1) &&
    d.target.all fun t => t.toList.isPrefixOf target.toList

/-- How special a directive is. -/
def Directive.rank (d : Directive) : Nat × Nat :=
  ((d.target.map fun t => t.length + 1).getD 0, d.fields.length)

/-- Whether a directive decides in spite of an earlier one. -/
def Directive.outranks (d earlier : Directive) : Bool :=
  earlier.rank.1 < d.rank.1 || (earlier.rank.1 == d.rank.1 && earlier.rank.2 ≤ d.rank.2)

/-- The directive that decides on the events of a target. -/
def Filter.decisive? (f : Filter) (target : String) : Option Directive :=
  (f.directives.filter (·.covers target)).foldl (fun best d =>
    match best with
    | none => some d
    | some b => if d.outranks b then some d else some b) none

/-- **Whether an event is told.** -/
def Filter.admits (f : Filter) (e : Event) : Bool :=
  (f.decisive? e.target).any fun d => d.level.includes e.severity

theorem admits_bare (level : Level) (e : Event) :
    Filter.admits ⟨[{ level := level }]⟩ e = level.includes e.severity := by
  simp [Filter.admits, Filter.decisive?, Directive.covers]

end SchemaUsage.Log

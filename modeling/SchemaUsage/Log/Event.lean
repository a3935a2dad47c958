/-!
# Log events

What the program tells about its work, besides its results, and how much of it is told (`LogLevel`).

Results:
- `includes_of_le`: what a level includes, every later level includes.

Out of scope: times, threads and spans of events; the program opens no spans.
-/

namespace SchemaUsage.Log

/-- How urgent an event is, the most urgent first. -/
inductive Severity where
  | error
  | warn
  | info
  | debug
  | trace
  deriving Repr, DecidableEq, Inhabited

/-- The rank of a severity: the more urgent, the lower. -/
def Severity.rank : Severity → Nat
  | error => 1
  | warn => 2
  | info => 3
  | debug => 4
  | trace => 5

/-- The name of a severity in written events. -/
def Severity.name : Severity → String
  | error => "ERROR"
  | warn => "WARN"
  | info => "INFO"
  | debug => "DEBUG"
  | trace => "TRACE"

/-- An event: the target names the part of the program that speaks. -/
structure Event where
  severity : Severity
  target : String
  message : String
  deriving Repr, DecidableEq, Inhabited

/-! ## Levels -/

/-- How much is told; each level includes the ones before it. -/
inductive Level where
  | off
  | error
  | warn
  | info
  | debug
  | trace
  deriving Repr, DecidableEq, Inhabited

namespace Level

/-- The levels. -/
def all : List Level := [off, error, warn, info, debug, trace]

/-- The name of a level. -/
def name : Level → String
  | off => "off"
  | error => "error"
  | warn => "warn"
  | info => "info"
  | debug => "debug"
  | trace => "trace"

/-- The rank of a level. -/
def rank : Level → Nat
  | off => 0
  | error => 1
  | warn => 2
  | info => 3
  | debug => 4
  | trace => 5

/-- Whether events of a severity are told at the level. -/
def includes (level : Level) (severity : Severity) : Bool := severity.rank ≤ level.rank

theorem includes_of_le {a b : Level} {s : Severity} (hab : a.rank ≤ b.rank)
    (h : a.includes s = true) : b.includes s = true := by
  simp only [includes, decide_eq_true_eq] at h ⊢
  omega

end Level

end SchemaUsage.Log

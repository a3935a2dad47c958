import SchemaUsage.Number.Shortest

/-!
# Circuit breakers

Model of `CircuitBreakerBuilder` and of the breaker that `build_async` gives. A breaker watches
calls that succeed or fail, and rejects calls for a while once too many of the latest have failed.
Rates and thresholds are numbers of 32 bits.

* The breaker itself is a library's; its phases are modelled as it documents them: `closed_len`
  results are kept while it is closed, and `trialVolume` results while it is half open.
* The reset timeout is not measured. `wait` says that it has passed.

Out of scope: calls at the same time.
-/

namespace SchemaUsage.Delivery

open SchemaUsage.Number

/-! ## Settings -/

/-- How a breaker is set up (`CircuitBreakerBuilder`). -/
structure BreakerSettings where
  errorThreshold : Binary := Format.single.ofRatio false 1 2
  volumeThreshold : Nat := 5
  deriving Repr, DecidableEq

/-- Sets the rate of failures that opens the breaker, rounded to 32 bits (`error_threshold`). -/
def BreakerSettings.withErrorThreshold (s : BreakerSettings) (rate : Binary) : BreakerSettings :=
  { s with errorThreshold := Format.single.scale rate 1 1 }

/-- Why there is no breaker (`CircuitBreakerError`). -/
inductive BreakerError where
  | invalidErrorThreshold (threshold : Binary)
  deriving Repr, DecidableEq

/-- The wording of the error. -/
def BreakerError.message : BreakerError → String
  | invalidErrorThreshold threshold =>
    "invalid error threshold: " ++ Format.single.text threshold ++
      ", it must be between 0.0 and 1.0"

/-- Whether a threshold lies between zero and one. -/
def BreakerSettings.valid (s : BreakerSettings) : Bool :=
  Binary.zero.le s.errorThreshold && s.errorThreshold.le Binary.one

/-! ## Results of the latest calls -/

/-- The results of the latest calls, the newest first. -/
abbrev Results := List Bool

/-- Adds a result and forgets the oldest beyond `limit`. -/
def Results.record (results : Results) (limit : Nat) (succeeded : Bool) : Results :=
  (succeeded :: results).take limit

/-- The rate of failures. -/
def Results.failureRate (results : Results) : Binary :=
  Format.single.ofRatio false (results.count false) results.length

/-! ## Breakers -/

/-- The state of a breaker: calls pass while it is closed, and on trial while it is half open. An
open breaker knows whether its timeout has passed. -/
inductive Phase where
  | closed (results : Results)
  | opened (waited : Bool)
  | halfOpen (results : Results)
  deriving Repr, DecidableEq

/-- A breaker. -/
structure Breaker where
  settings : BreakerSettings
  phase : Phase := .closed []
  deriving Repr, DecidableEq

/-- **Sets a breaker up** (`build_async`). -/
def BreakerSettings.breaker (s : BreakerSettings) : Except BreakerError Breaker :=
  if s.valid then .ok { settings := s }
  else .error (.invalidErrorThreshold s.errorThreshold)

namespace Breaker

/-- The number of calls that are on trial. -/
def trialVolume : Nat := 10

/-- The breaker that lets the next call through; none if it rejects the call. -/
def admit? (b : Breaker) : Option Breaker :=
  match b.phase with
  | .opened false => none
  | .opened true => some { b with phase := .halfOpen [] }
  | _ => some b

/-- Whether the failures among the results reach the threshold. -/
def failing (b : Breaker) (results : Results) : Bool :=
  b.settings.errorThreshold.le results.failureRate

/-- Whether the failures among the results stay within the threshold. -/
def recovered (b : Breaker) (results : Results) : Bool :=
  results.failureRate.le b.settings.errorThreshold

/-- **Takes the result of a call that was let through.** Rates count only where the results were
complete before the call. -/
def record (b : Breaker) (succeeded : Bool) : Breaker :=
  match b.phase with
  | .closed results =>
    let limit := b.settings.volumeThreshold
    let latest := results.record limit succeeded
    if limit ≤ results.length && b.failing latest then { b with phase := .opened false }
    else { b with phase := .closed latest }
  | .halfOpen results =>
    let latest := results.record trialVolume succeeded
    if trialVolume ≤ results.length then
      if succeeded && b.recovered latest then { b with phase := .closed [] }
      else if !succeeded && b.failing latest then { b with phase := .opened false }
      else { b with phase := .halfOpen latest }
    else { b with phase := .halfOpen latest }
  | .opened waited => { b with phase := .opened waited }

/-- The reset timeout passes. -/
def wait (b : Breaker) : Breaker :=
  match b.phase with
  | .opened _ => { b with phase := .opened true }
  | _ => b

/-! ## Runs -/

/-- What a breaker is told. -/
inductive Action where
  | call (succeeds : Bool)
  | wait
  deriving Repr, DecidableEq

/-- What becomes of an action. -/
inductive Answer where
  | succeeded
  | failed
  | rejected
  | waited
  deriving Repr, DecidableEq

/-- One action. -/
def act (b : Breaker) : Action → Answer × Breaker
  | .wait => (.waited, b.wait)
  | .call succeeds =>
    match b.admit? with
    | none => (.rejected, b)
    | some b => (if succeeds then .succeeded else .failed, b.record succeeds)

/-- The answers to the actions of a run, and the breaker behind them. -/
def run (b : Breaker) : List Action → List Answer × Breaker
  | [] => ([], b)
  | action :: actions =>
    let (answer, b) := b.act action
    let (others, b) := b.run actions
    (answer :: others, b)

end Breaker

end SchemaUsage.Delivery

import SchemaUsage.Delivery.Sender

/-!
# Traffic

Runs of `HiveSender::send` against a scripted server. Reports are given to the sender one after
another, and the reset timeout of its breaker may pass in between. Of each report the result is
seen, and the requests that the server receives for it.
-/

namespace SchemaUsage.Delivery

open SchemaUsage.Reporting

/-- What is seen of a report that has been given to a sender: the result, the number of requests
that the server had received before, and the requests that it has received for the report. -/
structure Sending where
  report : Report
  result : Except SendError Unit
  earlier : Nat
  requests : List Request

/-- **How the sending of a report ends**: with the response to the last request, if there is one. -/
def Sending.ending (script : List Reply) (x : Sending) : Option Response :=
  if x.requests.isEmpty then none
  else (replyAt script (x.earlier + x.requests.length - 1)).seen

namespace Sender

/-- What happens to a sender: it is given a report, or the reset timeout of its breaker passes. -/
inductive Action where
  | send (report : Report)
  | wait

/-- One action, with all that the server has received. -/
def act (script : List Reply) (s : Sender) (received : List Request) :
    Action → Option Sending × Sender × List Request
  | .send report =>
    let (result, s, all) := send (scripted script) report s received
    (some ⟨report, result, received.length, all.drop received.length⟩, s, all)
  | .wait => (none, { s with breaker := s.breaker.wait }, received)

/-- What is seen of the actions of a run, the sender behind them, and all that the server has
received. -/
def run (script : List Reply) (s : Sender) (received : List Request) :
    List Action → List (Option Sending) × Sender × List Request
  | [] => ([], s, received)
  | action :: actions =>
    let (seen, s, received) := s.act script received action
    let (others, s, received) := run script s received actions
    (seen :: others, s, received)

end Sender

end SchemaUsage.Delivery

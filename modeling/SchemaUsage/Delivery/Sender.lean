import SchemaUsage.Delivery.Breaker
import SchemaUsage.Delivery.Exchange
import SchemaUsage.Delivery.Target
import SchemaUsage.Log.Event
import SchemaUsage.Reporting.Wire

/-!
# Senders

Model of `HiveSender` with its builder. A sender delivers reports to an endpoint, behind a circuit
breaker. It is set up from settings that are checked in a fixed order.

* The network is a parameter (`Exchange`). Whatever it answers, the breaker is told that the call
  has succeeded: `send` hands it the request, and looks at the status of the response later.

Results:
- `send_empty`: an empty report is delivered without a request, and leaves the breaker alone.

Out of scope: time limits, certificates, and the wording of errors of the connection.
-/

namespace SchemaUsage.Delivery

open SchemaUsage.Reporting

/-! ## Settings -/

/-- How a sender is set up (`HiveSenderBuilder`). -/
structure SenderSettings where
  token : Option String := none
  endpoint : String := "https://app.graphql-hive.com/usage"
  targetId : Option String := none
  clientName : String := "hive-usage-cli"
  clientVersion : String := "0.1.0"
  maxRetries : Nat := 3
  acceptInvalidCerts : Bool := false
  breaker : BreakerSettings := {}
  deriving Repr, DecidableEq

/-- One choice of a setting: a call of a method of `HiveSenderBuilder`. Times are not among them:
nothing here depends on them. -/
inductive SenderChoice where
  | token (text : String)
  | endpoint (text : String)
  | targetId (text : String)
  | clientName (text : String)
  | clientVersion (text : String)
  | maxRetries (count : Nat)
  | acceptInvalidCerts (accept : Bool)
  | breaker (settings : BreakerSettings)
  deriving Repr, DecidableEq

/-- The new text unless it is empty. -/
def replaced (old new : String) : String := if new.isEmpty then old else new

/-- **Makes a choice.** An empty text leaves the setting as it was. -/
def SenderSettings.choose (s : SenderSettings) : SenderChoice → SenderSettings
  | .token text => { s with token := if text.isEmpty then s.token else some text }
  | .endpoint text => { s with endpoint := replaced s.endpoint text }
  | .targetId text => { s with targetId := if text.isEmpty then s.targetId else some text }
  | .clientName text => { s with clientName := replaced s.clientName text }
  | .clientVersion text => { s with clientVersion := replaced s.clientVersion text }
  | .maxRetries count => { s with maxRetries := count }
  | .acceptInvalidCerts accept => { s with acceptInvalidCerts := accept }
  | .breaker settings => { s with breaker := settings }

/-- Makes choices one after another. -/
def SenderSettings.chooseAll (s : SenderSettings) (choices : List SenderChoice) : SenderSettings :=
  choices.foldl SenderSettings.choose s

/-! ## Construction -/

/-- Why there is no sender (`AgentError`, its cases for `build`). -/
inductive SetupError where
  | missingToken
  | missingTargetId
  | targetIdWithLegacyToken
  | invalidToken
  | invalidClientHeader (value : String)
  | invalidTargetId (text : String)
  | breaker (error : BreakerError)
  deriving Repr, DecidableEq

/-- The wording of the error. -/
def SetupError.message : SetupError → String
  | missingToken => "missing token"
  | missingTargetId => "your access token requires providing a 'target_id' option."
  | targetIdWithLegacyToken => "using 'target_id' with legacy tokens is not supported"
  | invalidToken => "invalid token provided"
  | invalidClientHeader value => "invalid client name or version provided: " ++ value
  | invalidTargetId text =>
    "invalid target id provided: " ++ shownTarget text ++
      ", it should be either a slug like \"$organizationSlug/$projectSlug/$targetSlug\" or an UUID"
  | breaker error => "unable to create circuit breaker: " ++ error.message

/-- Whether a token is of the kind that names its target itself (`is_legacy_token`). -/
def isLegacyToken (token : String) : Bool :=
  ["hvo1/", "hvu1/", "hvp1/"].all fun mark => !mark.toList.isPrefixOf token.toList

/-- Whether a text may stand in a header (`client_header`): no control characters but the tab. -/
def isHeaderValue (text : String) : Bool :=
  text.toList.all fun c => c == '\t' || (32 ≤ c.toNat && c.toNat != 127)

/-- A sender (`HiveSender`). -/
structure Sender where
  endpoint : String
  headers : List (String × String)
  maxRetries : Nat
  breaker : Breaker
  deriving Repr, DecidableEq

/-- The headers of every request. -/
def SenderSettings.headers (s : SenderSettings) (token : String) : List (String × String) :=
  [("accept", "application/json"), ("authorization", "Bearer " ++ token),
    ("content-type", "application/json"), ("graphql-client-name", s.clientName),
    ("graphql-client-version", s.clientVersion),
    ("user-agent", s.clientName ++ "/" ++ s.clientVersion), ("x-usage-api-version", "2")]

/-- The endpoint with the name of the target, if the token needs one (`build`, its last match). -/
def SenderSettings.endpointFor (s : SenderSettings) (token : String) :
    Except SetupError String :=
  match s.targetId with
  | some text =>
    if isLegacyToken token then .error .targetIdWithLegacyToken
    else
      match targetName? text with
      | some name => .ok (s.endpoint ++ "/" ++ name)
      | none => .error (.invalidTargetId text)
  | none => if isLegacyToken token then .ok s.endpoint else .error .missingTargetId

/-- **Sets a sender up** (`HiveSenderBuilder::build`), which checks in this order. -/
def SenderSettings.sender (s : SenderSettings) : Except SetupError Sender :=
  match s.token with
  | none => .error .missingToken
  | some token =>
    if !isHeaderValue ("Bearer " ++ token) then .error .invalidToken
    else if !isHeaderValue s.clientName then .error (.invalidClientHeader s.clientName)
    else if !isHeaderValue s.clientVersion then .error (.invalidClientHeader s.clientVersion)
    else
      match s.endpointFor token with
      | .error e => .error e
      | .ok endpoint =>
        match s.breaker.breaker with
        | .error e => .error (.breaker e)
        | .ok breaker => .ok ⟨endpoint, s.headers token, s.maxRetries, breaker⟩

/-! ## Sending -/

/-- Why a report was not delivered (`AgentError`, its cases for `send`). -/
inductive SendError where
  | unauthorized
  | forbidden
  | rateLimited
  | rejected
  | transport
  | refused (response : Response)
  deriving Repr, DecidableEq

/-- The wording of the error. -/
def SendError.message : SendError → String
  | unauthorized => "unable to send report: unauthorized"
  | forbidden => "unable to send report: no access"
  | rateLimited => "unable to send report: rate limited"
  | rejected => "rejected by the circuit breaker"
  | transport => "unable to send report: error sending request"
  | refused response =>
    "unable to send report: (" ++ statusText response.status ++ ") " ++ response.body

/-- What a response means for the report (the end of `send`). -/
def Response.verdict (r : Response) : Except SendError Unit :=
  if isSuccess r.status then .ok ()
  else if r.status = 401 then .error .unauthorized
  else if r.status = 403 then .error .forbidden
  else if r.status = 429 then .error .rateLimited
  else .error (.refused r)

theorem Response.verdict_ne_rejected (r : Response) : r.verdict ≠ .error .rejected := by
  unfold Response.verdict
  repeat' split
  all_goals simp

namespace Sender

variable {σ : Type}

/-- The request that carries a report. -/
def request (s : Sender) (address : Address) (report : Report) : Request :=
  ⟨"POST", address, s.headers, report.toJson⟩

/-- The last response to a report; none if there was no connection, or no address to connect
to. -/
def respond (s : Sender) (exchange : Exchange σ) (report : Report) (net : σ) :
    Option Response × σ :=
  match Address.ofText? s.endpoint with
  | none => (none, net)
  | some address => attempts exchange (s.request address report) s.maxRetries net

/-- **Sends a report** (`HiveSender::send`). The breaker counts a response of any kind as
success. -/
def send (exchange : Exchange σ) (report : Report) (s : Sender) (net : σ) :
    Except SendError Unit × Sender × σ :=
  if report.size = 0 then (.ok (), s, net)
  else
    match s.breaker.admit? with
    | none => (.error .rejected, s, net)
    | some breaker =>
      match s.respond exchange report net with
      | (none, net) => (.error .transport, { s with breaker := breaker.record false }, net)
      | (some response, net) =>
        (response.verdict, { s with breaker := breaker.record true }, net)

theorem send_empty {exchange : Exchange σ} {report : Report} (h : report.size = 0) (s : Sender)
    (net : σ) : send exchange report s net = (.ok (), s, net) := by
  simp [send, h]

/-- What a delivered report is logged as. -/
def deliveredEvent (report : Report) : Log.Event :=
  ⟨.debug, "hive_usage_sdk::sender",
    "sent report with " ++ toString report.size ++ " operations"⟩

/-- Sends reports one after another. -/
def sendAll (exchange : Exchange σ) : List Report → Sender → σ →
    List (Except SendError Unit) × Sender × σ
  | [], s, net => ([], s, net)
  | report :: reports, s, net =>
    let (result, s, net) := send exchange report s net
    let (others, s, net) := sendAll exchange reports s net
    (result :: others, s, net)

end Sender

end SchemaUsage.Delivery

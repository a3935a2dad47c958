import SchemaUsage.Delivery.Address
import SchemaUsage.Json.Basic

/-!
# Exchanges

Requests, responses and the networks between them, and the repetition of requests by the client of a
sender (`max_retries`). A network that answers may answer differently each time; a scripted server
answers by a list and keeps what it has received.

Out of scope: the time between two attempts, time limits, redirections and certificates.
-/

namespace SchemaUsage.Delivery

/-- A request. -/
structure Request where
  method : String
  address : Address
  headers : List (String × String)
  body : Json
  deriving Repr, Inhabited

/-- A response. -/
structure Response where
  status : Nat
  body : String
  deriving Repr, DecidableEq, Inhabited

/-- A network: a response to a request, or none if the connection fails. -/
abbrev Exchange (σ : Type) := Request → σ → Option Response × σ

/-- The network in which no connection succeeds. -/
def unreachable {σ : Type} : Exchange σ := fun _ s => (none, s)

/-! ## Status codes -/

/-- The standard phrase of a status code. -/
def reasonPhrase? : Nat → Option String
  | 100 => some "Continue"
  | 101 => some "Switching Protocols"
  | 102 => some "Processing"
  | 200 => some "OK"
  | 201 => some "Created"
  | 202 => some "Accepted"
  | 203 => some "Non Authoritative Information"
  | 204 => some "No Content"
  | 205 => some "Reset Content"
  | 206 => some "Partial Content"
  | 207 => some "Multi-Status"
  | 208 => some "Already Reported"
  | 226 => some "IM Used"
  | 300 => some "Multiple Choices"
  | 301 => some "Moved Permanently"
  | 302 => some "Found"
  | 303 => some "See Other"
  | 304 => some "Not Modified"
  | 305 => some "Use Proxy"
  | 307 => some "Temporary Redirect"
  | 308 => some "Permanent Redirect"
  | 400 => some "Bad Request"
  | 401 => some "Unauthorized"
  | 402 => some "Payment Required"
  | 403 => some "Forbidden"
  | 404 => some "Not Found"
  | 405 => some "Method Not Allowed"
  | 406 => some "Not Acceptable"
  | 407 => some "Proxy Authentication Required"
  | 408 => some "Request Timeout"
  | 409 => some "Conflict"
  | 410 => some "Gone"
  | 411 => some "Length Required"
  | 412 => some "Precondition Failed"
  | 413 => some "Payload Too Large"
  | 414 => some "URI Too Long"
  | 415 => some "Unsupported Media Type"
  | 416 => some "Range Not Satisfiable"
  | 417 => some "Expectation Failed"
  | 418 => some "I'm a teapot"
  | 421 => some "Misdirected Request"
  | 422 => some "Unprocessable Entity"
  | 423 => some "Locked"
  | 424 => some "Failed Dependency"
  | 426 => some "Upgrade Required"
  | 428 => some "Precondition Required"
  | 429 => some "Too Many Requests"
  | 431 => some "Request Header Fields Too Large"
  | 451 => some "Unavailable For Legal Reasons"
  | 500 => some "Internal Server Error"
  | 501 => some "Not Implemented"
  | 502 => some "Bad Gateway"
  | 503 => some "Service Unavailable"
  | 504 => some "Gateway Timeout"
  | 505 => some "HTTP Version Not Supported"
  | 506 => some "Variant Also Negotiates"
  | 507 => some "Insufficient Storage"
  | 508 => some "Loop Detected"
  | 510 => some "Not Extended"
  | 511 => some "Network Authentication Required"
  | _ => none

/-- A status code with its phrase. -/
def statusText (status : Nat) : String :=
  toString status ++ " " ++ (reasonPhrase? status).getD "<unknown status code>"

/-- Whether a status code reports success. -/
def isSuccess (status : Nat) : Bool := 200 ≤ status && status < 300

/-! ## Repetition -/

/-- Whether another attempt may end better: after a failed connection, and after a response that
blames the server, the load or the time. -/
def isTransient : Option Response → Bool
  | none => true
  | some r => (500 ≤ r.status && r.status < 600) || r.status == 408 || r.status == 429

/-- Sends a request, and up to `retries` times more as long as the result is transient (the retry
policy of `max_retries`). The last result counts. -/
def attempts {σ : Type} (exchange : Exchange σ) (request : Request) :
    Nat → σ → Option Response × σ
  | 0, s => exchange request s
  | retries + 1, s =>
    let (answer, s) := exchange request s
    if isTransient answer then attempts exchange request retries s else (answer, s)

/-! ## Scripted servers -/

/-- What a scripted server does with a request. -/
inductive Reply where
  | respond (response : Response)
  | close
  deriving Repr, DecidableEq, Inhabited

/-- The response that a client sees: one without new content carries no body. -/
def Reply.seen : Reply → Option Response
  | respond r => some (if r.status = 304 then { r with body := "" } else r)
  | close => none

/-- The reply to the request with the given number: the last one of the script repeats, and an
empty script means success. -/
def replyAt (script : List Reply) (n : Nat) : Reply :=
  match script[n]? with
  | some reply => reply
  | none => script.getLast?.getD (.respond ⟨200, ""⟩)

/-- The server that answers by a script. Its state is what it has received, in order. -/
def scripted (script : List Reply) : Exchange (List Request) := fun request received =>
  ((replyAt script received.length).seen, received ++ [request])

end SchemaUsage.Delivery

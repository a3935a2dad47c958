import SchemaUsage.Delivery.Traffic

/-!
# A sender and its breaker stay in step

About `HiveSender::send`, called over and over. A sender asks its breaker before it sends a report,
and tells it the result once all repetitions are over. Hence the reports that it rejects are those
that any breaker with the same settings would reject, if it were called once for each report that is
not empty: the call succeeds if there is a response in the end, whatever its status, and fails if
there is none. Empty reports pass the breaker by.

* `Sender.told` are the actions of the breaker that goes along, `Sender.answers` what it answers.
* `Sending.Regular` says what holds of a single report.

Results:
- `attempts_scripted`: a request is repeated until its last reply counts.
- `send_cases`: all that a sender does with a report.
- `Sender.run_follows`: what a step does to sender and server, over a whole run.
- `sender_in_step`: a sender rejects what its breaker does alone.
-/

namespace SchemaUsage.Delivery

open SchemaUsage.Reporting

/-! ## Repetitions -/

/-- **A request is sent once, and repeated so often at most**, and the reply to the last of these
counts. -/
theorem attempts_scripted (script : List Reply) (request : Request) (retries : Nat)
    (received : List Request) :
    ∃ n ≤ retries, attempts (scripted script) request retries received =
      ((replyAt script (received.length + n)).seen,
        received ++ List.replicate (n + 1) request) := by
  induction retries generalizing received with
  | zero => exact ⟨0, Nat.le_refl 0, rfl⟩
  | succ retries ih =>
    unfold attempts
    by_cases again : isTransient (replyAt script received.length).seen = true
    · obtain ⟨n, bound, later⟩ := ih (received ++ [request])
      refine ⟨n + 1, Nat.succ_le_succ bound, ?_⟩
      simp only [scripted, again, if_true]
      rw [later, List.length_append, List.length_singleton, List.append_assoc, Nat.add_assoc,
        Nat.add_comm 1 n]
      rfl
    · refine ⟨0, Nat.zero_le _, ?_⟩
      simp only [scripted, again]
      rfl

/-! ## Sending a report -/

/-- What a response, or the lack of one, means for the report. -/
def verdictOf (ending : Option Response) : Except SendError Unit :=
  ending.elim (.error .transport) Response.verdict

theorem Response.verdict_ne_transport (r : Response) : r.verdict ≠ .error .transport := by
  unfold Response.verdict
  repeat' split
  all_goals simp

theorem verdictOf_ne_rejected (ending : Option Response) : verdictOf ending ≠ .error .rejected := by
  cases ending with
  | none => nofun
  | some r => exact r.verdict_ne_rejected

section Send

variable {s : Sender} {address : Address} (addressed : Address.ofText? s.endpoint = some address)
  (script : List Reply) (report : Report) (received : List Request)

include addressed

/-- **All that a sender does with a report**: it passes an empty one by, has it rejected by its
breaker, or sends it and tells the breaker whether there was a response. -/
theorem send_cases :
    report.size = 0 ∧ Sender.send (scripted script) report s received = (.ok (), s, received) ∨
    report.size ≠ 0 ∧ s.breaker.admit? = none ∧
      Sender.send (scripted script) report s received = (.error .rejected, s, received) ∨
    ∃ breaker n, report.size ≠ 0 ∧ s.breaker.admit? = some breaker ∧ n ≤ s.maxRetries ∧
      let ending := (replyAt script (received.length + n)).seen
      Sender.send (scripted script) report s received =
        (verdictOf ending, { s with breaker := breaker.record ending.isSome },
          received ++ List.replicate (n + 1) (s.request address report)) := by
  by_cases empty : report.size = 0
  · exact .inl ⟨empty, Sender.send_empty empty s received⟩
  · cases admitted : s.breaker.admit? with
    | none => exact .inr (.inl ⟨empty, rfl, by simp [Sender.send, empty, admitted]⟩)
    | some breaker =>
      obtain ⟨n, bound, tried⟩ :=
        attempts_scripted script (s.request address report) s.maxRetries received
      refine .inr (.inr ⟨breaker, n, empty, rfl, bound, ?_⟩)
      have responded : s.respond (scripted script) report received =
          ((replyAt script (received.length + n)).seen,
            received ++ List.replicate (n + 1) (s.request address report)) := by
        rw [Sender.respond, addressed]
        exact tried
      simp only [Sender.send, empty, admitted, responded, if_false]
      cases (replyAt script (received.length + n)).seen <;> rfl

end Send

/-- **What holds of each report** that is given to a sender with so many repetitions. -/
structure Sending.Regular (script : List Reply) (retries : Nat) (x : Sending) : Prop where
  empty : x.report.size = 0 → x.result = .ok () ∧ x.requests = []
  rejected : x.result = .error .rejected → x.requests = []
  tried : x.report.size ≠ 0 → x.result ≠ .error .rejected →
    0 < x.requests.length ∧ x.requests.length ≤ retries + 1 ∧
      (∀ request ∈ x.requests, request.body = x.report.toJson) ∧
      x.result = verdictOf (x.ending script)

namespace Sender

/-! ## The breaker that goes along -/

/-- What a breaker is told that goes along with a sender: it waits when the sender does, and is
called for a report that is not empty. Where the report was rejected, so that nothing is known, the
call does as it likes. -/
def told (script : List Reply) (free : Sending → Bool) : Option Sending → List Breaker.Action
  | none => [.wait]
  | some x =>
    if x.report.size = 0 then []
    else match x.result with
      | .error .rejected => [.call (free x)]
      | _ => [.call (x.ending script).isSome]

/-- What the breaker that goes along has to answer. -/
def answers : Option Sending → List Breaker.Answer
  | none => [.waited]
  | some x =>
    if x.report.size = 0 then []
    else match x.result with
      | .error .rejected => [.rejected]
      | .error .transport => [.failed]
      | _ => [.succeeded]

section Told

variable {script : List Reply} {free : Sending → Bool} {x : Sending}

theorem told_empty (empty : x.report.size = 0) : told script free (some x) = [] := if_pos empty

theorem answers_empty (empty : x.report.size = 0) : answers (some x) = [] := if_pos empty

theorem told_rejected (filled : x.report.size ≠ 0) (rejected : x.result = .error .rejected) :
    told script free (some x) = [.call (free x)] := by
  rw [told, if_neg filled, rejected]

theorem answers_rejected (filled : x.report.size ≠ 0) (rejected : x.result = .error .rejected) :
    answers (some x) = [.rejected] := by
  rw [answers, if_neg filled, rejected]

theorem told_tried (filled : x.report.size ≠ 0) {ending : Option Response}
    (result : x.result = verdictOf ending) (ends : x.ending script = ending) :
    told script free (some x) = [.call ending.isSome] := by
  rw [told, if_neg filled]
  split
  · rename_i rejected
    exact absurd (result.symm.trans rejected) (verdictOf_ne_rejected ending)
  · rw [ends]

theorem answers_tried (filled : x.report.size ≠ 0) {ending : Option Response}
    (result : x.result = verdictOf ending) :
    answers (some x) = [if ending.isSome then .succeeded else .failed] := by
  rw [answers, if_neg filled, result]
  cases ending with
  | none => rfl
  | some r =>
    split
    · rename_i rejected
      exact absurd rejected r.verdict_ne_rejected
    · rename_i failed
      exact absurd failed r.verdict_ne_transport
    · rfl

end Told

/-! ## Runs -/

/-- **Sender and server go on in step with a breaker.** This is kept of what is seen, be it of one
step or of a run. -/
structure Follows (script : List Reply) (s : Sender) (received : List Request)
    (seen : List (Option Sending)) (s' : Sender) (received' : List Request) : Prop where
  breaker : ∀ free, s.breaker.run (seen.flatMap (told script free)) =
    (seen.flatMap answers, s'.breaker)
  regular : ∀ x, some x ∈ seen → x.Regular script s.maxRetries
  received : received' = received ++ seen.flatMap fun x => x.elim [] Sending.requests
  endpoint : s'.endpoint = s.endpoint
  retries : s'.maxRetries = s.maxRetries

end Sender

theorem Breaker.run_cons (b : Breaker) (action : Breaker.Action) (actions : List Breaker.Action) :
    b.run (action :: actions) =
      ((b.act action).1 :: ((b.act action).2.run actions).1, ((b.act action).2.run actions).2) :=
  rfl

theorem Breaker.run_append (b : Breaker) (before after : List Breaker.Action) :
    b.run (before ++ after) =
      ((b.run before).1 ++ ((b.run before).2.run after).1, ((b.run before).2.run after).2) := by
  induction before generalizing b with
  | nil => rfl
  | cons action before ih =>
    rw [List.cons_append, run_cons, run_cons, ih, List.cons_append]

/-- A breaker that lets a call through answers what the call does, and takes its result. -/
theorem Breaker.run_admitted {b c : Breaker} (admitted : b.admit? = some c) (succeeds : Bool) :
    b.run [.call succeeds] =
      ([if succeeds then .succeeded else .failed], c.record succeeds) := by
  simp [Breaker.run, Breaker.act, admitted]

theorem Breaker.run_rejected {b : Breaker} (rejected : b.admit? = none) (succeeds : Bool) :
    b.run [.call succeeds] = ([.rejected], b) := by
  simp [Breaker.run, Breaker.act, rejected]

namespace Sender

theorem Follows.trans {script : List Reply} {s s' s'' : Sender}
    {received received' received'' : List Request} {seen seen' : List (Option Sending)}
    (h : Follows script s received seen s' received')
    (h' : Follows script s' received' seen' s'' received'') :
    Follows script s received (seen ++ seen') s'' received'' where
  breaker free := by
    rw [List.flatMap_append, Breaker.run_append, h.breaker, h'.breaker, List.flatMap_append]
  regular x mem := by
    rcases List.mem_append.mp mem with mem | mem
    · exact h.regular x mem
    · exact h.retries ▸ h'.regular x mem
  received := by rw [h'.received, h.received, List.flatMap_append, List.append_assoc]
  endpoint := h'.endpoint.trans h.endpoint
  retries := h'.retries.trans h.retries

/-- What has to be shown of a report that has been given to a sender. -/
theorem follows_send {script : List Reply} {s s' : Sender} {report : Report}
    {received requests : List Request} {result : Except SendError Unit}
    (sent : send (scripted script) report s received = (result, s', received ++ requests))
    (breaker : ∀ free,
      s.breaker.run (told script free (some ⟨report, result, received.length, requests⟩)) =
        (answers (some ⟨report, result, received.length, requests⟩), s'.breaker))
    (regular : Sending.Regular script s.maxRetries ⟨report, result, received.length, requests⟩)
    (endpoint : s'.endpoint = s.endpoint) (retries : s'.maxRetries = s.maxRetries) :
    Follows script s received [(s.act script received (.send report)).1]
      (s.act script received (.send report)).2.1 (s.act script received (.send report)).2.2 := by
  have seen : s.act script received (.send report) =
      (some ⟨report, result, received.length, requests⟩, s', received ++ requests) := by
    simp only [act, sent, List.drop_left]
  rw [seen]
  constructor
  · intro free
    rw [List.flatMap_singleton, List.flatMap_singleton, breaker]
  · intro x mem
    cases List.mem_singleton.mp mem
    exact regular
  · rw [List.flatMap_singleton]
    rfl
  · exact endpoint
  · exact retries

/-- The response to the last of some requests ends the sending. -/
theorem ending_tried (script : List Reply) (report : Report) (result : Except SendError Unit)
    (earlier n : Nat) (request : Request) :
    Sending.ending script ⟨report, result, earlier, List.replicate (n + 1) request⟩ =
      (replyAt script (earlier + n)).seen := by
  simp [Sending.ending]

section Run

variable {s : Sender} {address : Address} (addressed : Address.ofText? s.endpoint = some address)
  (script : List Reply) (received : List Request)

include addressed

theorem act_follows (action : Action) :
    Follows script s received [(s.act script received action).1]
      (s.act script received action).2.1 (s.act script received action).2.2 := by
  cases action with
  | wait => exact ⟨fun _ => rfl, nofun, (List.append_nil received).symm, rfl, rfl⟩
  | send report =>
    rcases send_cases addressed script report received with
      ⟨empty, sent⟩ | ⟨filled, rejected, sent⟩ | ⟨breaker, n, filled, admitted, bound, sent⟩
    · have sent' : send (scripted script) report s received = (.ok (), s, received ++ []) := by
        rw [sent, List.append_nil]
      refine follows_send sent' (fun free => ?_) ?_ rfl rfl
      · rw [told_empty empty, answers_empty empty]
        rfl
      · exact ⟨fun _ => ⟨rfl, rfl⟩, fun _ => rfl, fun filled => absurd empty filled⟩
    · have sent' : send (scripted script) report s received =
          (.error .rejected, s, received ++ []) := by
        rw [sent, List.append_nil]
      refine follows_send sent' (fun free => ?_) ?_ rfl rfl
      · rw [told_rejected filled rfl, answers_rejected filled rfl]
        exact Breaker.run_rejected rejected _
      · exact ⟨fun empty => absurd empty filled, fun _ => rfl, fun _ tried => absurd rfl tried⟩
    · have ends := ending_tried script report
        (verdictOf (replyAt script (received.length + n)).seen) received.length n
        (s.request address report)
      refine follows_send sent (fun free => ?_) ?_ rfl rfl
      · rw [told_tried filled rfl ends, answers_tried filled rfl]
        exact Breaker.run_admitted admitted _
      · refine ⟨fun empty => absurd empty filled, fun rejected => ?_, fun _ _ => ?_⟩
        · exact absurd rejected (verdictOf_ne_rejected _)
        · refine ⟨?_, ?_, fun request mem => ?_, ?_⟩
          · rw [List.length_replicate]
            exact Nat.succ_pos n
          · rw [List.length_replicate]
            exact Nat.succ_le_succ bound
          · cases List.eq_of_mem_replicate mem
            rfl
          · rw [ends]

/-- **A run keeps sender and breaker in step.** -/
theorem run_follows (actions : List Action) :
    Follows script s received (s.run script received actions).1
      (s.run script received actions).2.1 (s.run script received actions).2.2 := by
  induction actions generalizing s received with
  | nil => exact ⟨fun _ => rfl, nofun, (List.append_nil received).symm, rfl, rfl⟩
  | cons action actions ih =>
    have first := act_follows addressed script received action
    have addressed' :
        Address.ofText? (s.act script received action).2.1.endpoint = some address := by
      rw [first.endpoint, addressed]
    exact first.trans (ih addressed' _)

end Run

end Sender

/-! ## Senders that have been set up -/

/-- A sender has the breaker and the repetitions of its settings. -/
theorem of_sender_eq_ok {settings : SenderSettings} {s : Sender} (built : settings.sender = .ok s) :
    settings.breaker.breaker = .ok s.breaker ∧ s.maxRetries = settings.maxRetries := by
  unfold SenderSettings.sender at built
  repeat' split at built
  all_goals cases built
  exact ⟨‹_›, rfl⟩

/-- **A sender and its breaker stay in step.** A sender is set up by choices, its endpoint addresses
a scripted server, and it is given reports, between which the reset timeout of its breaker may pass.
A breaker with the same settings that is told of each wait, and called once for each report that is
not empty, rejects just the reports that the sender rejects, and answers to the others whether they
ended with a response. Each report is regular: it makes no request if it is empty or rejected, and
else one at least and no more than its repetitions allow, each with the report as body. An empty
report is delivered in any state of the breaker, and leaves it alone. -/
theorem sender_in_step {choices : List SenderChoice} {s : Sender} {address : Address}
    (built : (SenderSettings.chooseAll {} choices).sender = .ok s)
    (addressed : Address.ofText? s.endpoint = some address) (script : List Reply)
    (actions : List Sender.Action) :
    (∃ b, (SenderSettings.chooseAll {} choices).breaker.breaker = .ok b ∧
      ∀ free, b.run ((s.run script [] actions).1.flatMap (Sender.told script free)) =
        ((s.run script [] actions).1.flatMap Sender.answers,
          (s.run script [] actions).2.1.breaker)) ∧
    (∀ x, some x ∈ (s.run script [] actions).1 →
      x.Regular script (SenderSettings.chooseAll {} choices).maxRetries) ∧
    (s.run script [] actions).2.2 =
      (s.run script [] actions).1.flatMap (fun seen => seen.elim [] Sending.requests) ∧
    ∀ (b : Breaker) (report : Report) (received : List Request), report.size = 0 →
      Sender.send (scripted script) report { s with breaker := b } received =
        (.ok (), { s with breaker := b }, received) := by
  obtain ⟨breaker, retries⟩ := of_sender_eq_ok built
  have follows := Sender.run_follows addressed script [] actions
  refine ⟨⟨s.breaker, breaker, follows.breaker⟩, fun x mem => ?_, follows.received, ?_⟩
  · rw [← retries]
    exact follows.regular x mem
  · exact fun b report received empty => Sender.send_empty empty { s with breaker := b } received

/-- Choices that set a sender up. -/
def hastyChoices : List SenderChoice :=
  [.token "t", .endpoint "http://host/usage", .maxRetries 1, .breaker { volumeThreshold := 1 }]

/-- The sender of `hastyChoices`, which repeats a request once and gives up after two reports. -/
def hastySender : Sender where
  endpoint := "http://host/usage"
  headers := (SenderSettings.chooseAll {} hastyChoices).headers "t"
  maxRetries := 1
  breaker := ⟨{ volumeThreshold := 1 }, .closed []⟩

/-- A report of a certain size that tells nothing. -/
def blankReport (size : Nat) : Report := ⟨size, [], []⟩

/-- A server that closes two connections for each of the first two reports, and then is busy
once. -/
def hastyScript : List Reply :=
  List.replicate 4 .close ++ [.respond ⟨503, "busy"⟩, .respond ⟨200, ""⟩]

/-- Two failures, with an empty report in between, a rejection, and a success on trial. -/
def hastyActions : List Sender.Action :=
  [.send (blankReport 1), .send (blankReport 0), .send (blankReport 2), .send (blankReport 3),
    .wait, .send (blankReport 4)]

theorem sender_in_step_hasty :
    (SenderSettings.chooseAll {} hastyChoices).sender = .ok hastySender ∧
    Address.ofText? hastySender.endpoint = some ⟨false, "host", "/usage"⟩ ∧
    (∃ b, BreakerSettings.breaker { volumeThreshold := 1 } = .ok b ∧
      ∀ free, (b.run ((hastySender.run hastyScript [] hastyActions).1.flatMap
        (Sender.told hastyScript free))).1 =
          [.failed, .failed, .rejected, .waited, .succeeded]) ∧
    (∀ x, some x ∈ (hastySender.run hastyScript [] hastyActions).1 → x.Regular hastyScript 1) ∧
    (hastySender.run hastyScript [] hastyActions).2.2.length = 6 := by
  have built : (SenderSettings.chooseAll {} hastyChoices).sender = .ok hastySender := rfl
  have addressed : Address.ofText? hastySender.endpoint = some ⟨false, "host", "/usage"⟩ := rfl
  obtain ⟨⟨b, made, follows⟩, regular, -, -⟩ :=
    sender_in_step built addressed hastyScript hastyActions
  refine ⟨built, addressed, ⟨b, made, fun free => ?_⟩, regular, rfl⟩
  rw [follows free]
  rfl

end SchemaUsage.Delivery

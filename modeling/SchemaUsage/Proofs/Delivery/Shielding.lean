import SchemaUsage.Proofs.Delivery.Traffic
import SchemaUsage.Proofs.Number.Order

/-!
# What a breaker shields from

About `HiveSender::send` and what the breaker in front of it is told. A breaker knows of a report
only whether there was a response, not what the response says. An endpoint that does not respond is
shielded: behind more failed reports than the volume threshold, the next one is rejected. An
endpoint that responds with errors is not: its responses count as successes, so a caller may see
nothing but errors, and each report is still sent, with all its repetitions.

* `answered` is what the breaker learns from a result.
* `BreakerSettings.opens` is the rule by which the results of a closed breaker open it, and
  `BreakerSettings.after` the breaker behind them.

Results:
- `record_after`: a breaker that has not opened takes one more result.
- `sendAll_after`: what a run makes of the breaker, as long as nothing is rejected.
- `rejects_iff_opens`: when the next report is rejected.
- `shielded_from_silence`: only silence is shielded from.
- `busy_endpoint_not_shielded`: an endpoint that is busy all the time is not.

Out of scope: how long a breaker stays open. That its timeout has passed is an action of its own.
-/

namespace SchemaUsage.Delivery

open SchemaUsage.Number SchemaUsage.Reporting

/-! ## The rule of a closed breaker -/

/-- **Whether results open a breaker** that has been closed since it was set up. They are the newest
first; there must have been more of them than the breaker looks at. -/
def BreakerSettings.opens (s : BreakerSettings) (results : Results) : Bool :=
  decide (s.volumeThreshold < results.length) &&
    s.errorThreshold.le (Results.failureRate (results.take s.volumeThreshold))

/-- The breaker behind such results. -/
def BreakerSettings.after (s : BreakerSettings) (results : Results) : Breaker :=
  ⟨s, if s.opens results then .opened false else .closed (results.take s.volumeThreshold)⟩

section Rule

variable {s : BreakerSettings} {results : Results}

theorem after_opened (opens : s.opens results = true) : s.after results = ⟨s, .opened false⟩ := by
  rw [BreakerSettings.after, if_pos opens]

theorem after_closed (closed : s.opens results = false) :
    s.after results = ⟨s, .closed (results.take s.volumeThreshold)⟩ := by
  rw [BreakerSettings.after, closed]
  rfl

/-- **A breaker that has not opened takes one more result.** -/
theorem record_after (closed : s.opens results = false) (succeeded : Bool) :
    (s.after results).record succeeded = s.after (succeeded :: results) := by
  have latest : Results.record (results.take s.volumeThreshold) s.volumeThreshold succeeded =
      (succeeded :: results).take s.volumeThreshold := by
    cases volume : s.volumeThreshold with
    | zero => rfl
    | succ n => simp [Results.record, List.take_take]
  -- The results were complete before the call: that is one less than there are now.
  have complete : s.volumeThreshold ≤ (results.take s.volumeThreshold).length ↔
      s.volumeThreshold < (succeeded :: results).length := by
    rw [List.length_take, List.length_cons]
    omega
  rw [after_closed closed]
  unfold Breaker.record Breaker.failing
  simp only [latest, decide_eq_decide.mpr complete]
  cases opens : s.opens (succeeded :: results) with
  | true =>
    rw [after_opened opens]
    exact if_pos opens
  | false =>
    rw [after_closed opens]
    exact if_neg (Bool.not_eq_true _ ▸ opens)

/-! ## Failures only, and none at all -/

theorem failureRate_replicate {n : Nat} (positive : 0 < n) :
    Results.failureRate (List.replicate n false) = .finite false (twoTo 23) (-23) := by
  rw [Results.failureRate, List.count_replicate_self, List.length_replicate]
  exact Format.ofRatio_self false positive rfl (by decide) (by decide)

theorem failureRate_answered {results : Results} (answered : false ∉ results) :
    Results.failureRate results = .finite false 0 (-149) := by
  rw [Results.failureRate, List.count_eq_zero.mpr answered, Format.ofRatio_zero]
  rfl

theorem le_singleOne (x : Binary) : x.le (.finite false (twoTo 23) (-23)) = x.le Binary.one :=
  Binary.le_of_value_eq (by norm_num [finiteValue, signed, cast_twoTo]) x

theorem le_singleZero (x : Binary) : x.le (.finite false 0 (-149)) = x.le Binary.zero :=
  Binary.le_of_value_eq (by simp [finiteValue, signed]) x

/-- **Failures alone open a breaker**, whatever its threshold is. -/
theorem opens_replicate (valid : s.valid = true) (positive : 0 < s.volumeThreshold) {k : Nat}
    (complete : s.volumeThreshold < k) : s.opens (List.replicate k false) = true := by
  have reached : s.errorThreshold.le Binary.one = true := by
    rw [BreakerSettings.valid, Bool.and_eq_true] at valid
    exact valid.2
  rw [BreakerSettings.opens, List.length_replicate, List.take_replicate,
    Nat.min_eq_left (Nat.le_of_lt complete), failureRate_replicate positive, le_singleOne, reached,
    decide_eq_true complete, Bool.and_self]

/-- **Responses alone do not open a breaker**, if its threshold is above zero. -/
theorem opens_answered (above : s.errorThreshold.le Binary.zero = false)
    (answered : false ∉ results) : s.opens results = false := by
  have latest : false ∉ results.take s.volumeThreshold := fun failed =>
    answered (List.mem_of_mem_take failed)
  rw [BreakerSettings.opens, failureRate_answered latest, le_singleZero, above, Bool.and_false]

end Rule

/-! ## Reports -/

/-- **What a breaker learns from a result**: whether there was a response. -/
def answered (result : Except SendError Unit) : Bool :=
  match result with
  | .error .transport => false
  | _ => true

theorem answered_eq_false {result : Except SendError Unit} :
    answered result = false ↔ result = .error .transport := by
  unfold answered
  split <;> simp_all

theorem answered_verdictOf (ending : Option Response) :
    answered (verdictOf ending) = ending.isSome := by
  cases ending with
  | none => rfl
  | some response =>
    have responded : answered response.verdict ≠ false := by
      rw [Ne, answered_eq_false]
      exact response.verdict_ne_transport
    exact Bool.eq_true_of_not_eq_false responded

namespace Sender

variable {σ : Type} {exchange : Exchange σ} {settings : BreakerSettings} {s : Sender}
  {report : Report} {net : σ} {results : Results}

section Single

variable (exchange net)

/-- A breaker that has opened rejects a report. -/
theorem send_opened (filled : report.size ≠ 0) (behind : s.breaker = settings.after results)
    (opens : settings.opens results = true) :
    send exchange report s net = (.error .rejected, s, net) := by
  have rejects : s.breaker.admit? = none := by
    rw [behind, after_opened opens]
    rfl
  simp [send, filled, rejects]

/-- A breaker that has not opened lets a report through, and learns from the result. -/
theorem send_closed (filled : report.size ≠ 0) (behind : s.breaker = settings.after results)
    (closed : settings.opens results = false) :
    ∃ result net', result ≠ .error .rejected ∧ send exchange report s net =
      (result, { s with breaker := settings.after (answered result :: results) }, net') := by
  have admits : s.breaker.admit? = some (settings.after results) := by
    rw [behind, after_closed closed]
    rfl
  rcases responded : s.respond exchange report net with ⟨ending, net'⟩
  refine ⟨verdictOf ending, net', verdictOf_ne_rejected ending, ?_⟩
  rw [answered_verdictOf, ← record_after closed]
  cases ending <;> simp [send, filled, admits, responded, verdictOf]

end Single

/-! ## Runs -/

theorem sendAll_cons {result : Except SendError Unit} {s' : Sender} {net' : σ}
    (sent : send exchange report s net = (result, s', net')) (reports : List Report) :
    sendAll exchange (report :: reports) s net =
      let others := sendAll exchange reports s' net'
      (result :: others.1, others.2) := by
  simp only [sendAll, sent]

/-- **What a run makes of the breaker**, as long as nothing is rejected: the breaker behind all the
results. -/
theorem sendAll_after {reports : List Report} (filled : ∀ report ∈ reports, report.size ≠ 0)
    (behind : s.breaker = settings.after results)
    (admitted : .error .rejected ∉ (sendAll exchange reports s net).1) :
    (sendAll exchange reports s net).2.1.breaker =
      settings.after (((sendAll exchange reports s net).1.map answered).reverse ++ results) := by
  induction reports generalizing s net results with
  | nil => exact behind
  | cons report reports ih =>
    obtain ⟨filledFirst, filledOthers⟩ := List.forall_mem_cons.mp filled
    cases opens : settings.opens results with
    | true =>
      rw [sendAll_cons (send_opened exchange _ filledFirst behind opens)] at admitted
      exact absurd List.mem_cons_self admitted
    | false =>
      obtain ⟨result, net', -, sent⟩ := send_closed exchange net filledFirst behind opens
      rw [sendAll_cons sent] at admitted ⊢
      have later := ih filledOthers rfl (List.not_mem_of_not_mem_cons admitted)
      simpa using later

/-- **When the next report is rejected**, if none has been so far: if the results that came in, by
whether there was a response, open the breaker. -/
theorem rejects_iff_opens {reports : List Report} (filled : ∀ report ∈ reports, report.size ≠ 0)
    (new : s.breaker = settings.after [])
    (admitted : .error .rejected ∉ (sendAll exchange reports s net).1) {next : Report}
    (filledNext : next.size ≠ 0) :
    let sent := sendAll exchange reports s net
    (send exchange next sent.2.1 sent.2.2).1 = .error .rejected ↔
      settings.opens (sent.1.map answered).reverse = true := by
  intro sent
  have behind := sendAll_after filled new admitted
  rw [List.append_nil] at behind
  cases opens : settings.opens (sent.1.map answered).reverse with
  | true =>
    rw [send_opened exchange _ filledNext behind opens]
    exact iff_of_true rfl rfl
  | false =>
    obtain ⟨result, net', tried, sentNext⟩ :=
      send_closed exchange sent.2.2 filledNext behind opens
    rw [sentNext]
    exact iff_of_false tried Bool.false_ne_true

/-- What has opened stays so: all that follows is rejected. -/
theorem sendAll_opened {reports : List Report} (filled : ∀ report ∈ reports, report.size ≠ 0)
    (behind : s.breaker = settings.after results) (opens : settings.opens results = true) :
    (sendAll exchange reports s net).2 = (s, net) := by
  induction reports with
  | nil => rfl
  | cons report reports ih =>
    obtain ⟨filledFirst, filledOthers⟩ := List.forall_mem_cons.mp filled
    rw [sendAll_cons (send_opened exchange net filledFirst behind opens)]
    exact ih filledOthers

/-- A run without any response: the breaker has taken a failure for each report, or has opened on
the way. -/
theorem sendAll_silent {reports : List Report} (filled : ∀ report ∈ reports, report.size ≠ 0)
    {k : Nat} (behind : s.breaker = settings.after (List.replicate k false))
    (silent : ∀ result ∈ (sendAll exchange reports s net).1,
      result = .error .transport ∨ result = .error .rejected) :
    ∃ j, (sendAll exchange reports s net).2.1.breaker = settings.after (List.replicate j false) ∧
      (settings.opens (List.replicate j false) = true ∨ j = k + reports.length) := by
  induction reports generalizing s net k with
  | nil => exact ⟨k, behind, .inr rfl⟩
  | cons report reports ih =>
    obtain ⟨filledFirst, filledOthers⟩ := List.forall_mem_cons.mp filled
    cases opens : settings.opens (List.replicate k false) with
    | true =>
      rw [sendAll_opened filled behind opens]
      exact ⟨k, behind, .inl opens⟩
    | false =>
      obtain ⟨result, net', tried, sent⟩ := send_closed exchange net filledFirst behind opens
      rw [sendAll_cons sent] at silent ⊢
      obtain ⟨silentFirst, silentOthers⟩ := List.forall_mem_cons.mp silent
      have unanswered : result = .error .transport := silentFirst.resolve_right tried
      obtain ⟨j, reached, ends⟩ :=
        ih (k := k + 1) filledOthers (by rw [unanswered]; rfl) silentOthers
      refine ⟨j, reached, ends.imp_right fun length => ?_⟩
      rw [length, List.length_cons, Nat.add_right_comm, Nat.add_assoc]

/-- A run in which each report is answered: none is rejected, if the threshold is above zero. -/
theorem sendAll_answered {reports : List Report} (filled : ∀ report ∈ reports, report.size ≠ 0)
    (above : settings.errorThreshold.le Binary.zero = false)
    (behind : s.breaker = settings.after results) (earlier : false ∉ results)
    (responded : .error .transport ∉ (sendAll exchange reports s net).1) :
    .error .rejected ∉ (sendAll exchange reports s net).1 := by
  induction reports generalizing s net results with
  | nil => nofun
  | cons report reports ih =>
    obtain ⟨filledFirst, filledOthers⟩ := List.forall_mem_cons.mp filled
    obtain ⟨result, net', tried, sent⟩ :=
      send_closed exchange net filledFirst behind (opens_answered above earlier)
    rw [sendAll_cons sent] at responded ⊢
    have isAnswered : false ≠ answered result := fun silent =>
      List.ne_of_not_mem_cons responded (answered_eq_false.mp silent.symm).symm
    have later := ih filledOthers rfl (List.not_mem_cons_of_ne_of_not_mem isAnswered earlier)
      (List.not_mem_of_not_mem_cons responded)
    exact List.not_mem_cons_of_ne_of_not_mem tried.symm later

end Sender

/-! ## Senders that have been set up -/

/-- A breaker that is set up has valid settings, and no results yet. -/
theorem of_breaker_eq_ok {settings : BreakerSettings} {b : Breaker}
    (built : settings.breaker = .ok b) : settings.valid = true ∧ b = settings.after [] := by
  unfold BreakerSettings.breaker at built
  split at built
  · cases built
    exact ⟨‹_›, by simp [BreakerSettings.after, BreakerSettings.opens]⟩
  · cases built

/-- **Only silence is shielded from.** A sender is set up by choices with a volume threshold above
zero, and gets reports that are not empty, with no time for its breaker to be reset.

If none of them has a response, and there are more of them than the threshold, the next report is
rejected: it makes no request, and leaves the sender as it is. As long as none is rejected, the next
one is if and only if the breaker has opened, and that depends on which reports had a response, but
not on the status of a response. If all had one, whatever the status, then none is rejected, unless
the error threshold is zero. -/
theorem shielded_from_silence {choices : List SenderChoice} {s : Sender}
    (built : (SenderSettings.chooseAll {} choices).sender = .ok s) {settings : BreakerSettings}
    (chosen : (SenderSettings.chooseAll {} choices).breaker = settings)
    (positive : 0 < settings.volumeThreshold) (script : List Reply) {reports : List Report}
    (filled : ∀ report ∈ reports, report.size ≠ 0) {next : Report} (filledNext : next.size ≠ 0) :
    let sent := Sender.sendAll (scripted script) reports s []
    let sentNext := Sender.send (scripted script) next sent.2.1 sent.2.2
    (settings.volumeThreshold < reports.length →
      (∀ result ∈ sent.1, result = .error .transport ∨ result = .error .rejected) →
      sentNext = (.error .rejected, sent.2)) ∧
    (.error .rejected ∉ sent.1 →
      (sentNext.1 = .error .rejected ↔
        settings.opens (sent.1.map answered).reverse = true)) ∧
    (settings.errorThreshold.le Binary.zero = false → .error .transport ∉ sent.1 →
      .error .rejected ∉ sent.1) := by
  intro sent sentNext
  have made : settings.breaker = .ok s.breaker := chosen ▸ (of_sender_eq_ok built).1
  obtain ⟨valid, new⟩ := of_breaker_eq_ok made
  refine ⟨fun many silent => ?_, fun admitted => ?_, fun above responded => ?_⟩
  · obtain ⟨j, behind, ends⟩ := Sender.sendAll_silent (k := 0) filled new silent
    have opens : settings.opens (List.replicate j false) = true := by
      rcases ends with opens | length
      · exact opens
      · exact opens_replicate valid positive (by omega)
    exact Sender.send_opened _ _ filledNext behind opens
  · exact Sender.rejects_iff_opens filled new admitted filledNext
  · exact Sender.sendAll_answered filled above new nofun responded

/-- A server that closes every connection: the third report is rejected. -/
theorem shielded_from_silence_hasty :
    let sent := Sender.sendAll (scripted [.close]) [blankReport 1, blankReport 2] hastySender []
    sent.1 = [.error .transport, .error .transport] ∧
    Sender.send (scripted [.close]) (blankReport 3) sent.2.1 sent.2.2 =
      (.error .rejected, sent.2) := by
  intro sent
  have silent : sent.1 = [.error .transport, .error .transport] := rfl
  have shielded := @shielded_from_silence hastyChoices hastySender rfl _ rfl (by decide) [.close]
    [blankReport 1, blankReport 2] (by decide) (blankReport 3) (by decide)
  exact ⟨silent, shielded.1 (by decide) (by simp [silent, sent])⟩

/-- The refusal of a server that is busy. -/
def busy : SendError := .refused ⟨503, "busy"⟩

/-- **A busy endpoint is not shielded**: both reports behind a volume threshold of one end with an
error, and the next one is still sent, and repeated. -/
theorem busy_endpoint_not_shielded :
    let script : List Reply := [.respond ⟨503, "busy"⟩]
    let sent := Sender.sendAll (scripted script) [blankReport 1, blankReport 2] hastySender []
    let sentNext := Sender.send (scripted script) (blankReport 3) sent.2.1 sent.2.2
    (SenderSettings.chooseAll {} hastyChoices).sender = .ok hastySender ∧
    hastySender.breaker.settings.volumeThreshold = 1 ∧
    sent.1 = [.error busy, .error busy] ∧
    sentNext.1 = .error busy ∧ sentNext.2.2.length = sent.2.2.length + 2 :=
  ⟨rfl, rfl, rfl, rfl, rfl⟩

end SchemaUsage.Delivery

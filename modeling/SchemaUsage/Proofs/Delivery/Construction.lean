import SchemaUsage.Proofs.Delivery.Targets
import SchemaUsage.Proofs.Number.Order

/-!
# Construction of senders

About the methods of `HiveSenderBuilder`, up to `build`. Choices are made one after another, and of
the texts chosen for a setting the last one counts that is not empty. What then becomes a sender is
told by conditions on the settings: either all of them hold, or the first fault is the error.

* `TextSetting` names the settings that are texts, with `lastText?` for what choices make of them.
* `HeaderValue`, `OfOrganization` and `InUnit` state what the checks of the settings look for.
* `SenderSettings.Accepts` are the conditions, `SenderSettings.Fault` what breaks them, each at its
  place in the order.

Results:
- `text?_chooseAll`, `breaker_chooseAll`: the last choice counts, the last text that is not empty.
- `isHeaderValue_iff`, `isLegacyToken_eq_false_iff`, `BreakerSettings.valid_iff`: what the checks
  look for.
- `sender_eq_ok_or_firstFault`: a sender is set up, or there is a first fault.
- `construction_exact`: which choices make which sender, and which error else.
-/

namespace SchemaUsage.Delivery

open SchemaUsage.Text SchemaUsage.Number

/-! ## Choices -/

/-- The settings that are texts. -/
inductive TextSetting where
  | token
  | endpoint
  | targetId
  | clientName
  | clientVersion
  deriving Repr, DecidableEq

/-- The text that a choice names for a setting. -/
def SenderChoice.text? : TextSetting → SenderChoice → Option String
  | .token, .token text => some text
  | .endpoint, .endpoint text => some text
  | .targetId, .targetId text => some text
  | .clientName, .clientName text => some text
  | .clientVersion, .clientVersion text => some text
  | _, _ => none

/-- The breaker that a choice names. -/
def SenderChoice.breaker? : SenderChoice → Option BreakerSettings
  | .breaker settings => some settings
  | _ => none

/-- The text of a setting, if it has one. -/
def SenderSettings.text? (s : SenderSettings) : TextSetting → Option String
  | .token => s.token
  | .endpoint => some s.endpoint
  | .targetId => s.targetId
  | .clientName => some s.clientName
  | .clientVersion => some s.clientVersion

/-- **The last text that choices name for a setting**, of those that are not empty. -/
def lastText? (setting : TextSetting) (choices : List SenderChoice) : Option String :=
  ((choices.filterMap (SenderChoice.text? setting)).filter (!·.isEmpty)).getLast?

/-- The last breaker that choices name. -/
def lastBreaker? (choices : List SenderChoice) : Option BreakerSettings :=
  (choices.filterMap SenderChoice.breaker?).getLast?

theorem lastText?_singleton (setting : TextSetting) (choice : SenderChoice) :
    lastText? setting [choice] = (choice.text? setting).filter (!·.isEmpty) := by
  cases named : choice.text? setting with
  | none => simp [lastText?, named]
  | some text =>
    simp only [lastText?, List.filterMap_cons, named, List.filterMap_nil, List.filter_cons,
      List.filter_nil, Option.filter_some]
    split <;> rfl

/-- One choice replaces the text of a setting if it names one that is not empty. -/
theorem text?_choose (setting : TextSetting) (s : SenderSettings) (choice : SenderChoice) :
    (s.choose choice).text? setting = (lastText? setting [choice]).or (s.text? setting) := by
  rw [lastText?_singleton]
  cases choice <;> cases setting <;> first | rfl | skip
  all_goals
    simp only [SenderSettings.choose, SenderSettings.text?, SenderChoice.text?, replaced,
      Option.filter_some]
    split <;> simp_all

theorem breaker_choose (s : SenderSettings) (choice : SenderChoice) :
    (s.choose choice).breaker = (lastBreaker? [choice]).getD s.breaker := by
  cases choice <;> rfl

/-- Of choices in a row, the later ones count first. -/
theorem lastText?_append (setting : TextSetting) (before after : List SenderChoice) :
    lastText? setting (before ++ after) =
      (lastText? setting after).or (lastText? setting before) := by
  simp only [lastText?, List.filterMap_append, List.filter_append, List.getLast?_append]

theorem lastBreaker?_append (before after : List SenderChoice) :
    lastBreaker? (before ++ after) = (lastBreaker? after).or (lastBreaker? before) := by
  simp only [lastBreaker?, List.filterMap_append, List.getLast?_append]

/-- **Of the texts chosen for a setting the last one counts that is not empty.** -/
theorem text?_chooseAll (setting : TextSetting) (choices : List SenderChoice)
    (s : SenderSettings) :
    (s.chooseAll choices).text? setting = (lastText? setting choices).or (s.text? setting) := by
  induction choices generalizing s with
  | nil => rfl
  | cons choice choices ih =>
    show ((s.choose choice).chooseAll choices).text? setting = _
    rw [ih, text?_choose, ← Option.or_assoc, ← lastText?_append]
    rfl

/-- **Of the breakers chosen the last one counts.** -/
theorem breaker_chooseAll (choices : List SenderChoice) (s : SenderSettings) :
    (s.chooseAll choices).breaker = (lastBreaker? choices).getD s.breaker := by
  induction choices generalizing s with
  | nil => rfl
  | cons choice choices ih =>
    show ((s.choose choice).chooseAll choices).breaker = _
    rw [ih, breaker_choose, ← Option.getD_or, ← lastBreaker?_append]
    rfl

/-! ## What the checks look for -/

/-- A byte of a header: a tab, or one that is no control. -/
def HeaderByte (byte : Nat) : Prop := byte = 9 ∨ 32 ≤ byte ∧ byte ≠ 127

/-- **A text that may stand in a header**, by the bytes of its encoding. -/
def HeaderValue (text : String) : Prop := ∀ byte ∈ text.toUTF8.data, HeaderByte byte.toNat

theorem mem_toUTF8_iff {text : String} {byte : UInt8} :
    byte ∈ text.toUTF8.data ↔ ∃ c ∈ text.toList, byte ∈ String.utf8EncodeChar c := by
  rw [String.toUTF8, ← String.utf8Encode_toList, List.utf8Encode, List.data_toByteArray,
    List.mem_toArray, List.mem_flatMap]

/-- Every byte of a character beyond ASCII may stand in a header. -/
theorem forall_headerByte_iff (c : Char) :
    (∀ byte ∈ String.utf8EncodeChar c, HeaderByte byte.toNat) ↔
      (c == '\t' || (32 ≤ c.toNat && c.toNat != 127)) = true := by
  have tab : c = '\t' ↔ c.toNat = 9 := ⟨fun h => h ▸ rfl, fun h => Char.toNat_inj.mp h⟩
  simp only [Bool.or_eq_true, beq_iff_eq, tab, Bool.and_eq_true, decide_eq_true_eq, bne_iff_ne,
    String.utf8EncodeChar, Char.toNat, HeaderByte]
  repeat' split
  all_goals
    simp only [List.forall_mem_cons, List.not_mem_nil, false_imp_iff, forall_const, and_true,
      UInt8.toNat_ofNat']
    omega

theorem isHeaderValue_iff {text : String} : isHeaderValue text = true ↔ HeaderValue text := by
  simp only [isHeaderValue, List.all_eq_true, ← forall_headerByte_iff, HeaderValue, mem_toUTF8_iff]
  grind

theorem refused_iff {text : String} : (!isHeaderValue text) = true ↔ ¬ HeaderValue text := by
  rw [← isHeaderValue_iff, Bool.not_eq_true', Bool.not_eq_true]

/-- **A token of an organization** starts with one of three marks. -/
def OfOrganization (token : String) : Prop :=
  ∃ mark ∈ ["hvo1/", "hvu1/", "hvp1/"], mark.toList <+: token.toList

theorem isLegacyToken_eq_false_iff {token : String} :
    isLegacyToken token = false ↔ OfOrganization token := by
  simp only [isLegacyToken, List.all_eq_false, OfOrganization, Bool.not_eq_true, Bool.not_eq_false',
    List.isPrefixOf_iff_prefix]

/-- **A number between zero and one**, by its value. -/
def InUnit : Binary → Prop
  | .finite negative mantissa exponent =>
    0 ≤ finiteValue negative mantissa exponent ∧ finiteValue negative mantissa exponent ≤ 1
  | _ => False

theorem BreakerSettings.valid_iff {s : BreakerSettings} :
    s.valid = true ↔ InUnit s.errorThreshold := by
  unfold BreakerSettings.valid
  rw [Bool.and_eq_true]
  cases s.errorThreshold with
  | nan => simp [Binary.le, InUnit]
  | infinite negative => cases negative <;> simp [Binary.le, Binary.zero, Binary.one, InUnit]
  | finite negative mantissa exponent =>
    simp only [Binary.le, Binary.zero, Binary.one, finiteLe_iff, finiteValue_zero, finiteValue_one,
      InUnit]

theorem targetName?_of_targetName {text : String} (name : TargetName (trim text.toList)) :
    targetName? text = some (trimmed text) := if_pos (isSlug_or_isUuid_iff.mpr name)

theorem targetName?_eq_none_iff {text : String} :
    targetName? text = none ↔ ¬ TargetName (trim text.toList) := by
  simp [targetName?, ← isSlug_or_isUuid_iff]

/-! ## Conditions and faults -/

/-- **The conditions on a target**: there is one if and only if the token is of an organization, and
it is named between the blank ends of its text. -/
structure SenderSettings.Aims (s : SenderSettings) (token : String) : Prop where
  aimed : (∃ text, s.targetId = some text) ↔ OfOrganization token
  named : ∀ text, s.targetId = some text → TargetName (trim text.toList)

/-- **The conditions on settings** with a token. -/
structure SenderSettings.Accepts (s : SenderSettings) (token : String) : Prop where
  given : s.token = some token
  authorization : HeaderValue ("Bearer " ++ token)
  clientName : HeaderValue s.clientName
  clientVersion : HeaderValue s.clientVersion
  aims : s.Aims token
  threshold : InUnit s.breaker.errorThreshold

/-- **What breaks the conditions**, with the error that tells of it, each at its place in the order
of the checks. -/
inductive SenderSettings.Fault (s : SenderSettings) : Nat → SetupError → Prop where
  | noToken (absent : s.token = none) : Fault s 0 .missingToken
  | authorization {token : String} (given : s.token = some token)
      (refused : ¬ HeaderValue ("Bearer " ++ token)) : Fault s 1 .invalidToken
  | clientName (refused : ¬ HeaderValue s.clientName) :
      Fault s 2 (.invalidClientHeader s.clientName)
  | clientVersion (refused : ¬ HeaderValue s.clientVersion) :
      Fault s 3 (.invalidClientHeader s.clientVersion)
  | legacyTarget {token text : String} (given : s.token = some token)
      (legacy : ¬ OfOrganization token) (aimed : s.targetId = some text) :
      Fault s 4 .targetIdWithLegacyToken
  | invalidTarget {text : String} (aimed : s.targetId = some text)
      (unnamed : ¬ TargetName (trim text.toList)) : Fault s 5 (.invalidTargetId text)
  | missingTarget {token : String} (given : s.token = some token)
      (organization : OfOrganization token) (aimless : s.targetId = none) :
      Fault s 6 .missingTargetId
  | threshold (outside : ¬ InUnit s.breaker.errorThreshold) :
      Fault s 7 (.breaker (.invalidErrorThreshold s.breaker.errorThreshold))

/-- The error of the first fault. -/
def SenderSettings.FirstFault (s : SenderSettings) (e : SetupError) : Prop :=
  ∃ place, s.Fault place e ∧ ∀ earlier other, s.Fault earlier other → place ≤ earlier

variable {s : SenderSettings} {token : String} {place : Nat} {e other : SetupError}

theorem SenderSettings.Fault.unique (fault : s.Fault place e) (same : s.Fault place other) :
    e = other := by
  cases fault <;> cases same <;> simp_all

theorem SenderSettings.Accepts.no_fault (accepts : s.Accepts token) : ¬ s.Fault place e := by
  obtain ⟨given, authorization, clientName, clientVersion, ⟨aimed, named⟩, threshold⟩ := accepts
  rintro (absent | ⟨given', refused⟩ | refused | refused | ⟨given', legacy, target⟩ |
    ⟨target, unnamed⟩ | ⟨given', organization, aimless⟩ | outside)
  all_goals grind

/-- The endpoint that accepted settings make. -/
def SenderSettings.fullEndpoint (s : SenderSettings) : String :=
  s.endpoint ++ s.targetId.elim "" fun text => "/" ++ trimmed text

/-- No fault stands before a place. -/
def SenderSettings.ClearTo (s : SenderSettings) (place : Nat) : Prop :=
  ∀ other e, s.Fault other e → place ≤ other

theorem SenderSettings.ClearTo.next (clear : s.ClearTo place) (free : ∀ e, ¬ s.Fault place e) :
    s.ClearTo (place + 1) := fun other e fault => by
  refine Nat.lt_of_le_of_ne (clear other e fault) fun same => ?_
  subst same
  exact free e fault

theorem SenderSettings.FirstFault.unique (first : s.FirstFault e) (same : s.FirstFault other) :
    e = other := by
  obtain ⟨place, fault, least⟩ := first
  obtain ⟨place', fault', least'⟩ := same
  obtain rfl : place = place' :=
    Nat.le_antisymm (least place' other fault') (least' place e fault)
  exact fault.unique fault'

theorem SenderSettings.Aims.clear (aims : s.Aims token) (given : s.token = some token)
    (clear : s.ClearTo 4) : s.ClearTo 7 := by
  obtain ⟨aimed, named⟩ := aims
  refine ((clear.next ?_).next ?_).next ?_
  · rintro _ ⟨⟩
    grind
  · rintro _ ⟨⟩
    grind
  · rintro _ ⟨⟩
    grind

theorem endpointFor_eq_ok_or_fault (given : s.token = some token) (clear : s.ClearTo 4) :
    (s.Aims token ∧ s.endpointFor token = .ok s.fullEndpoint) ∨
      ∃ e, s.FirstFault e ∧ s.endpointFor token = .error e := by
  unfold SenderSettings.endpointFor SenderSettings.fullEndpoint
  cases aimed : s.targetId with
  | none =>
    cases legacy : isLegacyToken token with
    | false =>
      have organization := isLegacyToken_eq_false_iff.mp legacy
      have before := (clear.next (by rintro _ ⟨⟩; simp_all)).next (by rintro _ ⟨⟩; simp_all)
      exact .inr ⟨_, ⟨6, .missingTarget given organization aimed, before⟩, rfl⟩
    | true =>
      have aims : s.Aims token := ⟨by simp [aimed, ← isLegacyToken_eq_false_iff, legacy],
        by simp [aimed]⟩
      exact .inl ⟨aims, by simp⟩
  | some text =>
    cases legacy : isLegacyToken token with
    | true =>
      have foreign : ¬ OfOrganization token := by simp [← isLegacyToken_eq_false_iff, legacy]
      exact .inr ⟨_, ⟨4, .legacyTarget given foreign aimed, clear⟩, rfl⟩
    | false =>
      have organization := isLegacyToken_eq_false_iff.mp legacy
      by_cases named : TargetName (trim text.toList)
      · have aims : s.Aims token := ⟨by simp [aimed, organization], by simpa [aimed] using named⟩
        exact .inl ⟨aims, by simp [targetName?_of_targetName named, String.append_assoc]⟩
      · have before := clear.next (by rintro _ ⟨⟩; simp_all)
        refine .inr ⟨_, ⟨5, .invalidTarget aimed named, before⟩, ?_⟩
        simp [targetName?_eq_none_iff.mpr named]

/-- **A sender is set up, or there is a first fault.** -/
theorem sender_eq_ok_or_firstFault (s : SenderSettings) :
    (∃ token sender, s.Accepts token ∧ s.sender = .ok sender ∧
      sender.endpoint = s.fullEndpoint) ∨
    ∃ e, s.FirstFault e ∧ s.sender = .error e := by
  -- each check shows the fault at its place, or clears the place for the next one
  have clear : s.ClearTo 0 := fun _ _ _ => Nat.zero_le _
  unfold SenderSettings.sender
  cases given : s.token with
  | none => exact .inr ⟨_, ⟨0, .noToken given, clear⟩, rfl⟩
  | some token =>
    have clear := clear.next (by rintro _ ⟨⟩; simp_all)
    dsimp only
    by_cases authorization : HeaderValue ("Bearer " ++ token)
    case neg =>
      exact .inr ⟨_, ⟨1, .authorization given authorization, clear⟩,
        if_pos (refused_iff.mpr authorization)⟩
    have clear := clear.next (by rintro _ ⟨⟩; simp_all)
    rw [if_neg (refused_iff.not_left.mpr authorization)]
    by_cases clientName : HeaderValue s.clientName
    case neg =>
      exact .inr ⟨_, ⟨2, .clientName clientName, clear⟩, if_pos (refused_iff.mpr clientName)⟩
    have clear := clear.next (by rintro _ ⟨⟩; contradiction)
    rw [if_neg (refused_iff.not_left.mpr clientName)]
    by_cases clientVersion : HeaderValue s.clientVersion
    case neg =>
      exact .inr ⟨_, ⟨3, .clientVersion clientVersion, clear⟩,
        if_pos (refused_iff.mpr clientVersion)⟩
    have clear := clear.next (by rintro _ ⟨⟩; contradiction)
    rw [if_neg (refused_iff.not_left.mpr clientVersion)]
    obtain ⟨aims, endpoint⟩ | ⟨e, first, endpoint⟩ := endpointFor_eq_ok_or_fault given clear
    case inr => exact .inr ⟨e, first, by rw [endpoint]⟩
    rw [endpoint, BreakerSettings.breaker]
    by_cases threshold : InUnit s.breaker.errorThreshold
    case neg =>
      have clear := aims.clear given clear
      exact .inr ⟨_, ⟨7, .threshold threshold, clear⟩, by
        simp [mt BreakerSettings.valid_iff.mp threshold]⟩
    rw [if_pos (BreakerSettings.valid_iff.mpr threshold)]
    exact .inl ⟨token, _, ⟨given, authorization, clientName, clientVersion, aims, threshold⟩, rfl,
      rfl⟩

/-- **Which choices make which sender, and which error else.** After choices, every text is the last
one that they name for it and that is not empty, and the breaker is the last one that they name;
without one it is the default.

There is a sender if and only if the conditions on the settings hold for a token. Its endpoint is
the endpoint of the settings, with a slash and the target without its blank ends behind it if there
is a target. The error is that of the first fault, if there is no sender. -/
theorem construction_exact (choices : List SenderChoice) :
    let s := SenderSettings.chooseAll {} choices
    (∀ setting, s.text? setting =
      (lastText? setting choices).or (SenderSettings.text? {} setting)) ∧
    s.breaker = (lastBreaker? choices).getD {} ∧
    ((∃ sender, s.sender = .ok sender) ↔ ∃ token, s.Accepts token) ∧
    (∀ sender, s.sender = .ok sender →
      sender.endpoint = s.endpoint ++ s.targetId.elim "" fun text => "/" ++ trimmed text) ∧
    ∀ e, s.sender = .error e ↔ s.FirstFault e := by
  intro s
  refine ⟨fun setting => text?_chooseAll setting choices {}, breaker_chooseAll choices {}, ?_⟩
  obtain ⟨token, made, accepts, built, endpoint⟩ | ⟨e, first, refused⟩ :=
    sender_eq_ok_or_firstFault s
  · refine ⟨⟨fun _ => ⟨token, accepts⟩, fun _ => ⟨made, built⟩⟩, fun sender other => ?_,
      fun e => ⟨fun refused => ?_, fun ⟨place, fault, _⟩ => absurd fault accepts.no_fault⟩⟩
    · obtain rfl := Except.ok.inj (built.symm.trans other)
      exact endpoint
    · exact nomatch built.symm.trans refused
  · have ⟨place, fault, least⟩ := first
    refine ⟨⟨fun ⟨sender, built⟩ => ?_, fun ⟨token, accepts⟩ => absurd fault accepts.no_fault⟩,
      fun sender built => ?_, fun other => ⟨fun refused' => ?_, fun first' => ?_⟩⟩
    · exact nomatch refused.symm.trans built
    · exact nomatch refused.symm.trans built
    · obtain rfl := Except.error.inj (refused.symm.trans refused')
      exact first
    · rw [refused, first.unique first']

/-- Choices of which some are made twice and some are empty. -/
def repeatedChoices : List SenderChoice :=
  [.token "t", .token "hvo1/t", .targetId " a/b/c\n", .endpoint "http://host/usage", .endpoint "",
    .breaker { volumeThreshold := 1 }, .clientVersion "", .token ""]

theorem construction_exact_repeatedChoices :
    let s := SenderSettings.chooseAll {} repeatedChoices
    s.text? .token = some "hvo1/t" ∧ s.text? .clientVersion = some "0.1.0" ∧
    (∃ token, s.Accepts token) ∧
    (∃ sender, s.sender = .ok sender ∧ sender.endpoint = "http://host/usage/a/b/c") ∧
    (SenderSettings.chooseAll {} (repeatedChoices ++ [.token "t"])).FirstFault
      .targetIdWithLegacyToken := by
  obtain ⟨texts, -, accepted, endpoints, -⟩ := construction_exact repeatedChoices
  obtain ⟨-, -, -, -, refused⟩ := construction_exact (repeatedChoices ++ [.token "t"])
  have built : ∃ sender, (SenderSettings.chooseAll {} repeatedChoices).sender = .ok sender :=
    ⟨_, by rfl⟩
  refine ⟨texts .token, texts .clientVersion, accepted.mp built, ?_, (refused _).mp rfl⟩
  obtain ⟨sender, built⟩ := built
  exact ⟨sender, built, endpoints sender built⟩

end SchemaUsage.Delivery

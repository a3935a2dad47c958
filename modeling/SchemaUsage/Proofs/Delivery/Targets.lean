import SchemaUsage.Delivery.Sender
import SchemaUsage.Proofs.Text.Trimmed

/-!
# Names of targets

About `validate_target_id`. A text denotes a target if and only if it is, but for its blank ends,
put together by the grammar of names; it then denotes just this name. What an endpoint gets appended
is such a name: it consists of characters that mean nothing in an address, and slashes part it into
segments that are not empty.

* `TargetName` (with the checks themselves) is the grammar, `Trims` tells the ends.
* `Plain` are the characters without a meaning in an address.

Results:
- `isSlug_or_isUuid_iff`: the checks accept what is put together by the grammar, and nothing else.
- `TargetName.plain`, `TargetName.segments`: what names consist of.
- `targetName?_exact`: which texts denote a target, and what an endpoint gets appended.
-/

namespace SchemaUsage.Delivery

open SchemaUsage.Text

/-! ## The grammar -/

theorem SlugPart.free {cs : List Char} (part : SlugPart cs) : '/' ∉ cs := fun mem =>
  absurd (part.2 '/' mem) (by decide)

theorem HexGroup.free {size : Nat} {cs : List Char} {c : Char} (group : HexGroup size cs)
    (other : isHexDigit c = false) : c ∉ cs := fun mem => by
  simp [group.2 c mem] at other

theorem targetName_of_isSlug {cs : List Char} (slug : isSlug cs = true) : TargetName cs := by
  simp only [isSlug, Bool.and_eq_true, beq_iff_eq, List.all_eq_true] at slug
  obtain ⟨three, parts⟩ := slug
  have whole := join_split '/' cs
  obtain ⟨a, b, c, pieces⟩ := List.length_eq_three.mp three
  rw [pieces] at parts whole
  have part : ∀ piece ∈ [a, b, c], SlugPart piece := fun piece mem => by
    simpa [SlugPart] using parts piece mem
  have name : TargetName _ := .slug (part a (by simp)) (part b (by simp)) (part c (by simp))
  rw [← whole]
  simpa [join] using name

theorem targetName_of_isUuid {cs : List Char} (uuid : isUuid cs = true) : TargetName cs := by
  simp only [isUuid, Bool.and_eq_true, beq_iff_eq, List.all_eq_true, List.map_eq_cons_iff,
    List.map_eq_nil_iff] at uuid
  obtain ⟨⟨a, _, pieces, first, b, _, rfl, second, c, _, rfl, third, d, _, rfl, fourth, e, _, rfl,
    fifth, rfl⟩, digits⟩ := uuid
  have whole := join_split '-' cs
  rw [pieces] at digits whole
  have name : TargetName _ := .uuid ⟨first, digits a (by simp)⟩ ⟨second, digits b (by simp)⟩
    ⟨third, digits c (by simp)⟩ ⟨fourth, digits d (by simp)⟩ ⟨fifth, digits e (by simp)⟩
  rw [← whole]
  simpa [join] using name

/-- **The checks accept what is put together by the grammar**, and nothing else. -/
theorem isSlug_or_isUuid_iff {cs : List Char} :
    (isSlug cs || isUuid cs) = true ↔ TargetName cs := by
  rw [Bool.or_eq_true]
  refine ⟨fun passes => passes.elim targetName_of_isSlug targetName_of_isUuid, fun name => ?_⟩
  cases name with
  | slug first second third =>
    refine .inl ?_
    rw [isSlug, split_append first.free, split_append second.free, split_of_not_mem third.free]
    simpa [SlugPart] using And.intro first ⟨second, third⟩
  | uuid first second third fourth fifth =>
    refine .inr ?_
    have hyphen : isHexDigit '-' = false := by decide
    rw [isUuid, split_append (first.free hyphen), split_append (second.free hyphen),
      split_append (third.free hyphen), split_append (fourth.free hyphen),
      split_of_not_mem (fifth.free hyphen)]
    simpa [HexGroup] using And.intro
      ⟨first.1, second.1, third.1, fourth.1, fifth.1⟩
      ⟨first.2, second.2, third.2, fourth.2, fifth.2⟩

/-- **A text denotes the name between its blank ends**, if it is put together by the grammar. -/
theorem targetName?_eq_some_iff {text name : String} :
    targetName? text = some name ↔ Trims text.toList name.toList ∧ TargetName name.toList := by
  rw [← trim_eq_iff, ← isSlug_or_isUuid_iff, targetName?]
  constructor
  · intro denotes
    obtain ⟨passes, named⟩ := Option.ite_none_right_eq_some.mp denotes
    obtain rfl := Option.some.inj named
    rw [String.toList_ofList]
    exact ⟨rfl, passes⟩
  · rintro ⟨trimmed, passes⟩
    rw [trimmed, if_pos passes, String.ofList_toList]

/-! ## Characters and segments -/

/-- **A character without a meaning in an address.** -/
structure Plain (c : Char) : Prop where
  ascii : c.toNat < 128
  visible : isBlank c = false
  literal : c ∉ ['?', '#', '%', '.']

theorem le_iff_toNat {c d : Char} : c ≤ d ↔ c.toNat ≤ d.toNat := Iff.rfl

/-- The ASCII characters above the period are plain, on both sides of the question mark. -/
theorem plain_of_between {c : Char} {low high : Nat} (above : low ≤ c.toNat)
    (below : c.toNat ≤ high) (clear : 47 ≤ low ∧ high ≤ 62 ∨ 64 ≤ low ∧ high ≤ 127) : Plain c := by
  refine ⟨by omega, by simp [isBlank]; omega, fun mem => ?_⟩
  simp only [List.mem_cons, List.not_mem_nil, or_false] at mem
  rcases mem with rfl | rfl | rfl | rfl <;> simp at above below <;> omega

theorem plain_of_isSlugChar {c : Char} (slug : isSlugChar c = true) : Plain c := by
  simp only [isSlugChar, isDigit, Bool.or_eq_true, Bool.and_eq_true, decide_eq_true_eq, beq_iff_eq,
    le_iff_toNat] at slug
  rcases slug with (((⟨above, below⟩ | ⟨above, below⟩) | ⟨above, below⟩) | rfl) | rfl
  · exact plain_of_between above below (by decide)
  · exact plain_of_between above below (by decide)
  · exact plain_of_between above below (by decide)
  · exact ⟨by decide, by decide, by decide⟩
  · exact ⟨by decide, by decide, by decide⟩

theorem isSlugChar_of_isHexDigit {c : Char} (digit : isHexDigit c = true) :
    isSlugChar c = true := by
  have letter : c ≤ 'f' → c ≤ 'z' := fun below =>
    Char.le_trans below (by decide)
  have capital : c ≤ 'F' → c ≤ 'Z' := fun below =>
    Char.le_trans below (by decide)
  unfold isHexDigit hexDigit? at digit
  unfold isSlugChar isDigit
  grind

/-- **Every character of a name is plain.** -/
theorem TargetName.plain {cs : List Char} (name : TargetName cs) : ∀ c ∈ cs, Plain c := by
  have slash : Plain '/' := ⟨by decide, by decide, by decide⟩
  have hyphen : Plain '-' := ⟨by decide, by decide, by decide⟩
  have part : ∀ {cs}, SlugPart cs → ∀ c ∈ cs, Plain c := fun part c mem =>
    plain_of_isSlugChar (part.2 c mem)
  have group : ∀ {size cs}, HexGroup size cs → ∀ c ∈ cs, Plain c := fun group c mem =>
    plain_of_isSlugChar (isSlugChar_of_isHexDigit (group.2 c mem))
  cases name with
  | slug first second third =>
    simpa only [List.forall_mem_append, List.forall_mem_cons] using
      ⟨part first, slash, part second, slash, part third⟩
  | uuid first second third fourth fifth =>
    simpa only [List.forall_mem_append, List.forall_mem_cons] using
      ⟨group first, hyphen, group second, hyphen, group third, hyphen, group fourth, hyphen,
        group fifth⟩

/-- **No segment of a name is empty.** -/
theorem TargetName.segments {cs : List Char} (name : TargetName cs) :
    ∀ segment ∈ split '/' cs, segment ≠ [] := by
  cases name with
  | slug first second third =>
    rw [split_append first.free, split_append second.free, split_of_not_mem third.free]
    simpa using ⟨first.1, second.1, third.1⟩
  | uuid first second third fourth fifth =>
    have slash : isHexDigit '/' = false := by decide
    rw [split_of_not_mem (by simp [first.free slash, second.free slash, third.free slash,
      fourth.free slash, fifth.free slash])]
    simp

/-! ## Endpoints -/

/-- The endpoint of a sender with a target ends in the target's name. -/
theorem endpoint_of_sender_eq_ok {s : SenderSettings} {text : String} {sender : Sender}
    (aimed : s.targetId = some text) (built : s.sender = .ok sender) :
    ∃ name, targetName? text = some name ∧ sender.endpoint = s.endpoint ++ "/" ++ name := by
  unfold SenderSettings.sender SenderSettings.endpointFor at built
  rw [aimed] at built
  grind

/-- **Which texts denote a target, and what an endpoint gets appended.** A text denotes a name if
and only if the name is what stands between the blank ends of the text, and is put together by the
grammar of names. Behind the endpoint of the settings, the endpoint of a sender with a target holds
a slash and this name: there is no blank character in it, no question mark, hash, per cent sign,
period or character beyond ASCII, and no empty segment between slashes. -/
theorem targetName?_exact (text : String) :
    (∀ name, targetName? text = some name ↔
      Trims text.toList name.toList ∧ TargetName name.toList) ∧
    (∀ name, targetName? text = some name → name = trimmed text) ∧
    ∀ (s : SenderSettings) (sender : Sender), s.targetId = some text → s.sender = .ok sender →
      ∃ name, targetName? text = some name ∧ sender.endpoint = s.endpoint ++ "/" ++ name ∧
        (∀ c ∈ name.toList, Plain c) ∧ ∀ segment ∈ split '/' name.toList, segment ≠ [] := by
  refine ⟨fun name => targetName?_eq_some_iff, fun name => targetName?_trim,
    fun s sender aimed built => ?_⟩
  obtain ⟨name, denotes, endpoint⟩ := endpoint_of_sender_eq_ok aimed built
  have grammar := (targetName?_eq_some_iff.mp denotes).2
  exact ⟨name, denotes, endpoint, grammar.plain, grammar.segments⟩

/-- A slug between a no-break space and a line end. -/
def paddedText : String := "\u00a0a/b-c/d_1\n"

/-- Settings with `paddedText` for a target. -/
def paddedSettings : SenderSettings where
  token := some "hvo1/t"
  endpoint := "http://host/usage"
  targetId := some paddedText

theorem targetName?_exact_paddedText :
    Trims paddedText.toList "a/b-c/d_1".toList ∧ TargetName "a/b-c/d_1".toList ∧
    ∃ sender, paddedSettings.sender = .ok sender ∧
      sender.endpoint = "http://host/usage/a/b-c/d_1" ∧
      (∀ c ∈ "a/b-c/d_1".toList, Plain c) ∧
      ∀ segment ∈ split '/' "a/b-c/d_1".toList, segment ≠ [] := by
  obtain ⟨denotes, -, appended⟩ := targetName?_exact paddedText
  have named : targetName? paddedText = some "a/b-c/d_1" := by decide +kernel
  have built : ∃ sender, paddedSettings.sender = .ok sender := ⟨_, by rfl⟩
  obtain ⟨sender, built⟩ := built
  obtain ⟨name, other, endpoint, plain, segments⟩ := appended paddedSettings sender rfl built
  obtain rfl := Option.some.inj (named.symm.trans other)
  obtain ⟨trims, grammar⟩ := (denotes _).mp named
  exact ⟨trims, grammar, sender, built, endpoint, plain, segments⟩

end SchemaUsage.Delivery

import SchemaUsage.Text.Blank
import SchemaUsage.Text.Digits
import SchemaUsage.Text.Lines

/-!
# Target ids

Model of `validate_target_id`. A target is named by a slug of three parts (`SLUG_REGEX`) or by a
UUID (`UUID_REGEX`). Blanks around a name do not count. `TargetName` is the same grammar without a
check.

Results:
- `targetName?_trim`: the name of a target is the text less its blank ends.
-/

namespace SchemaUsage.Delivery

open SchemaUsage.Text

/-- The characters of a slug's parts. -/
def isSlugChar (c : Char) : Bool :=
  ('a' ≤ c && c ≤ 'z') || ('A' ≤ c && c ≤ 'Z') || isDigit c || c == '-' || c == '_'

/-- Three non-empty parts separated by slashes (`SLUG_REGEX`). -/
def isSlug (cs : List Char) : Bool :=
  let parts := split '/' cs
  parts.length == 3 && parts.all fun part => !part.isEmpty && part.all isSlugChar

/-- Five groups of hexadecimal digits separated by hyphens (`UUID_REGEX`). -/
def isUuid (cs : List Char) : Bool :=
  let groups := split '-' cs
  groups.map List.length == [8, 4, 4, 4, 12] && groups.all fun group => group.all isHexDigit

/-- **The name of the target that a text denotes** (`validate_target_id`). -/
def targetName? (text : String) : Option String :=
  let cs := trim text.toList
  if isSlug cs || isUuid cs then some (String.ofList cs) else none

theorem targetName?_trim {text name : String} (h : targetName? text = some name) :
    name = trimmed text := by
  unfold targetName? at h
  simp only [Option.ite_none_right_eq_some, Option.some.injEq] at h
  exact h.2.symm

/-! ## Names put together -/

/-- A part of a slug. -/
def SlugPart (cs : List Char) : Prop := cs ≠ [] ∧ ∀ c ∈ cs, isSlugChar c = true

/-- A group of so many hexadecimal digits. -/
def HexGroup (size : Nat) (cs : List Char) : Prop :=
  cs.length = size ∧ ∀ c ∈ cs, isHexDigit c = true

/-- **A name of a target**, put together from its parts. -/
inductive TargetName : List Char → Prop where
  | slug {a b c : List Char} (first : SlugPart a) (second : SlugPart b) (third : SlugPart c) :
      TargetName (a ++ '/' :: (b ++ '/' :: c))
  | uuid {a b c d e : List Char} (first : HexGroup 8 a) (second : HexGroup 4 b)
      (third : HexGroup 4 c) (fourth : HexGroup 4 d) (fifth : HexGroup 12 e) :
      TargetName (a ++ '-' :: (b ++ '-' :: (c ++ '-' :: (d ++ '-' :: e))))

/-- How a text that denotes no target is shown. -/
def shownTarget (text : String) : String :=
  let name := trimmed text
  if name.isEmpty then "<empty>" else "'" ++ name ++ "'"

end SchemaUsage.Delivery

/-!
# UTF-8

Decodes bytes, as `read_file` and the sources of settings do. A row of bytes that starts a character
and breaks off counts as one damaged piece, and so does every byte that starts none.

Results:
- `decode_ascii`: bytes below 128 stand for themselves.
-/

namespace SchemaUsage.Text.Utf8

/-- A character that has been started: its bits so far, the number of bytes that it lacks, and the
bounds of the next one. -/
structure Started where
  bits : Nat
  lacks : Nat
  least : Nat := 0x80
  most : Nat := 0xBF
  deriving Repr, DecidableEq

/-- What a first byte means. -/
inductive First where
  | char (c : Char)
  | started (s : Started)
  | damaged
  deriving Repr, DecidableEq

/-- **What a first byte means.** The bounds of the second byte leave out surrogates, longer forms
than necessary, and what lies behind the last character. -/
def first (b : Nat) : First :=
  if b < 0x80 then .char (Char.ofNat b)
  else if b < 0xC2 then .damaged
  else if b < 0xE0 then .started { bits := b - 0xC0, lacks := 1 }
  else if b < 0xF0 then
    .started { bits := b - 0xE0, lacks := 2, least := if b = 0xE0 then 0xA0 else 0x80,
               most := if b = 0xED then 0x9F else 0xBF }
  else if b < 0xF5 then
    .started { bits := b - 0xF0, lacks := 3, least := if b = 0xF0 then 0x90 else 0x80,
               most := if b = 0xF4 then 0x8F else 0xBF }
  else .damaged

/-- Adds a further byte: the character, once nothing lacks any more. -/
def Started.add (s : Started) (b : Nat) : First :=
  let bits := 64 * s.bits + b % 64
  if s.lacks ≤ 1 then .char (Char.ofNat bits) else .started { bits := bits, lacks := s.lacks - 1 }

/-- The characters of bytes behind a started one; none stands for a damaged piece. -/
def decodeFrom : Option Started → List Nat → List (Option Char)
  | none, [] => []
  | some _, [] => [none]
  | started, b :: bytes =>
    match started with
    | some s =>
      if s.least ≤ b ∧ b ≤ s.most then
        match s.add b with
        | .char c => some c :: decodeFrom none bytes
        | .started s => decodeFrom (some s) bytes
        | .damaged => none :: decodeFrom none bytes
      else
        match first b with
        | .char c => none :: some c :: decodeFrom none bytes
        | .started s => none :: decodeFrom (some s) bytes
        | .damaged => none :: none :: decodeFrom none bytes
    | none =>
      match first b with
      | .char c => some c :: decodeFrom none bytes
      | .started s => decodeFrom (some s) bytes
      | .damaged => none :: decodeFrom none bytes

/-- **The characters of bytes.** -/
def decode (bytes : List Nat) : List (Option Char) := decodeFrom none bytes

theorem decode_ascii {bytes : List Nat} (h : ∀ b ∈ bytes, b < 0x80) :
    decode bytes = bytes.map fun b => some (Char.ofNat b) := by
  unfold decode
  induction bytes with
  | nil => rfl
  | cons b bytes ih =>
    have hb : b < 0x80 := h b (by simp)
    rw [decodeFrom, first, if_pos hb, List.map_cons, ← ih fun c hc => h c (by simp [hc])]

end SchemaUsage.Text.Utf8

/-!
# Scanners

A scanner reads from the front of a list of symbols and may refuse. The same few combinators
serve characters and tokens.
-/

namespace SchemaUsage.Text

/-- Reads an `α` from the front of a list of symbols, or refuses. -/
abbrev Scan (σ α : Type) := StateT (List σ) Option α

namespace Scan

variable {σ α : Type}

/-- Refuses. -/
def refuse : Scan σ α := fun _ => none

/-- The first symbol, which is left in place. -/
def peek : Scan σ (Option σ) := fun input => some (input.head?, input)

/-- The first symbol, which is taken. -/
def next : Scan σ σ
  | [] => none
  | c :: rest => some (c, rest)

/-- Takes exactly the symbol `c`. -/
def expect [DecidableEq σ] (c : σ) : Scan σ Unit
  | [] => none
  | d :: rest => if d = c then some ((), rest) else none

/-- Takes the symbol `c` if it comes first, and tells whether it did. -/
def accept [DecidableEq σ] (c : σ) : Scan σ Bool
  | [] => some (false, [])
  | d :: rest => if d = c then some (true, rest) else some (false, d :: rest)

/-- Takes symbols as long as they satisfy `p`. -/
def takeWhile (p : σ → Bool) : Scan σ (List σ) := fun input =>
  some (input.takeWhile p, input.dropWhile p)

/-- Succeeds at the end of the input only. -/
def atEnd : Scan σ Unit
  | [] => some ((), [])
  | _ :: _ => none

/-- Runs `item` at most `n` times, as long as the next symbol satisfies `starts`. -/
def repeatUpTo (starts : σ → Bool) (item : Scan σ α) : Nat → Scan σ (List α)
  | 0 => pure []
  | n + 1 => do
    match ← peek with
    | none => pure []
    | some c =>
      if starts c then do
        let first ← item
        let others ← repeatUpTo starts item n
        pure (first :: others)
      else pure []

/-- Runs `item` as long as the next symbol satisfies `starts`. Each run takes a symbol at least,
so the input's length bounds the runs. -/
def many (starts : σ → Bool) (item : Scan σ α) : Scan σ (List α) := fun input =>
  repeatUpTo starts item input.length input

/-- `many`, and at least once. -/
def some (starts : σ → Bool) (item : Scan σ α) : Scan σ (List α) := do
  let first ← item
  let others ← many starts item
  pure (first :: others)

/-- The result of a scanner that must read the whole input. -/
def whole (p : Scan σ α) (input : List σ) : Option α :=
  match p input with
  | Option.some (a, []) => Option.some a
  | _ => none

end Scan

end SchemaUsage.Text

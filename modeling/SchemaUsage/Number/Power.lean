/-!
# Powers

Powers of two and of ten, and the ranges of integers of 64 bits.

Results:
- `twoTo_pos`: powers of two are positive.
-/

namespace SchemaUsage.Number

/-- A power of two. -/
def twoTo (n : Nat) : Nat := Nat.pow 2 n

/-- A power of ten. -/
def tenTo (n : Nat) : Nat := Nat.pow 10 n

theorem twoTo_succ (n : Nat) : twoTo (n + 1) = twoTo n * 2 := rfl

theorem twoTo_pos (n : Nat) : 0 < twoTo n := Nat.two_pow_pos n

/-- The number of words of 64 bits. -/
def wordCount : Nat := twoTo 64

/-- Whether an integer has 64 bits, one of them for the sign. -/
def isSigned64 (i : Int) : Bool :=
  decide (-(twoTo 63 : Int) ≤ i) && decide (i < (twoTo 63 : Int))

end SchemaUsage.Number

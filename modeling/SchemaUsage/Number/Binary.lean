import SchemaUsage.Number.Power

/-!
# Binary floating-point numbers

Numbers with a bounded binary mantissa, rounded from exact ratios (IEEE 754, to nearest, ties to
even). `Format.double` and `Format.single` are the formats of 64 and 32 bits.

Results:
- `roundRatio_lower`, `roundRatio_upper`: rounding a ratio to an integer errs by half a unit at
  most.

Out of scope: other rounding directions, flags, and the payload of "not a number".
-/

namespace SchemaUsage.Number

/-- A binary format: the bits of a mantissa, and the least and greatest exponent that the last
bit of a mantissa may have. -/
structure Format where
  precision : Nat
  minExponent : Int
  maxExponent : Int
  deriving Repr, DecidableEq

/-- The format of 64 bits. -/
def Format.double : Format := ⟨53, -1074, 971⟩

/-- The format of 32 bits. -/
def Format.single : Format := ⟨24, -149, 104⟩

/-- A number of some format: `finite s m q` is `m * 2 ^ q`, negated when `s` is set. -/
inductive Binary where
  | nan
  | infinite (negative : Bool)
  | finite (negative : Bool) (mantissa : Nat) (exponent : Int)
  deriving Repr, DecidableEq, Inhabited

/-! ## Rounding -/

/-- The integer nearest to `num / den`; a half goes to the even neighbour. -/
def roundRatio (num den : Nat) : Nat :=
  let quotient := num / den
  let rest := num % den
  if 2 * rest < den then quotient
  else if den < 2 * rest then quotient + 1
  else if quotient % 2 = 0 then quotient else quotient + 1

theorem roundRatio_lower {den : Nat} (num : Nat) (hpos : 0 < den) :
    2 * num ≤ (2 * roundRatio num den + 1) * den := by
  have h := Nat.div_add_mod num den
  have hmul : (2 * (num / den) + 1) * den = 2 * (den * (num / den)) + den := by
    rw [Nat.add_mul, Nat.mul_assoc, Nat.mul_comm (num / den) den, Nat.one_mul]
  have hmul' : (2 * (num / den + 1) + 1) * den = 2 * (den * (num / den)) + 3 * den := by
    rw [show 2 * (num / den + 1) + 1 = 2 * (num / den) + 3 by omega, Nat.add_mul, Nat.mul_assoc,
      Nat.mul_comm (num / den) den]
  have hlt := Nat.mod_lt num hpos
  unfold roundRatio
  dsimp only
  split
  · omega
  · split
    · omega
    · split <;> omega

theorem roundRatio_upper {den : Nat} (num : Nat) (hpos : 0 < den) :
    2 * roundRatio num den * den ≤ 2 * num + den := by
  have h := Nat.div_add_mod num den
  have hmul : 2 * (num / den) * den = 2 * (den * (num / den)) := by
    rw [Nat.mul_assoc, Nat.mul_comm (num / den) den]
  have hmul' : 2 * (num / den + 1) * den = 2 * (den * (num / den)) + 2 * den := by
    rw [show 2 * (num / den + 1) = 2 * (num / den) + 2 by omega, Nat.add_mul, Nat.mul_assoc,
      Nat.mul_comm (num / den) den]
  have hlt := Nat.mod_lt num hpos
  unfold roundRatio
  dsimp only
  split
  · omega
  · split
    · omega
    · split <;> omega

/-- The ratio `num / (den * 2 ^ q)` as a pair of integers. -/
def shiftRatio (num den : Nat) (q : Int) : Nat × Nat :=
  (num * twoTo (-q).toNat, den * twoTo q.toNat)

/-- The greatest `e` with `2 ^ e ≤ num / den`, for a positive ratio. -/
def floorLog2 (num den : Nat) : Int :=
  let estimate : Int := (num.log2 : Int) - (den.log2 : Int)
  let (n, d) := shiftRatio num den estimate
  if n < d then estimate - 1 else estimate

/-- The number of the format nearest to `num / den`. -/
def Format.ofRatio (fmt : Format) (negative : Bool) (num den : Nat) : Binary :=
  if num = 0 then .finite negative 0 fmt.minExponent
  else
    let q := max fmt.minExponent (floorLog2 num den - (fmt.precision - 1 : Nat))
    let (n, d) := shiftRatio num den q
    let m := roundRatio n d
    let (m, q) := if m = twoTo fmt.precision then (m / 2, q + 1) else (m, q)
    if fmt.maxExponent < q then .infinite negative else .finite negative m q

/-- The number of the format nearest to `x * num / den`. -/
def Format.scale (fmt : Format) (x : Binary) (num den : Nat) : Binary :=
  match x with
  | .nan => .nan
  | .infinite s => .infinite s
  | .finite s m q => fmt.ofRatio s (m * num * twoTo q.toNat) (den * twoTo (-q).toNat)

/-- The number of the format nearest to `mantissa * 10 ^ exponent`. Exponents far outside of the
format's range are not expanded. -/
def Format.ofDecimal (fmt : Format) (negative : Bool) (mantissa : Nat) (exponent : Int) : Binary :=
  let magnitude : Int := (Nat.toDigits 10 mantissa).length + exponent
  if mantissa = 0 ∨ magnitude < -400 then .finite negative 0 fmt.minExponent
  else if 400 < magnitude then .infinite negative
  else fmt.ofRatio negative (mantissa * tenTo exponent.toNat) (tenTo (-exponent).toNat)

/-- An integer in the format. -/
def Format.ofInt (fmt : Format) (i : Int) : Binary :=
  fmt.ofRatio (i < 0) i.natAbs 1

/-! ## Order -/

/-- `≤` on finite numbers, each given by sign, mantissa and exponent. -/
def finiteLe (s : Bool) (m : Nat) (q : Int) (t : Bool) (n : Nat) (r : Int) : Bool :=
  let sign (negative : Bool) (k : Nat) : Int := if negative then -(k : Int) else k
  let least := min q r
  decide (sign s (m * twoTo (q - least).toNat) ≤ sign t (n * twoTo (r - least).toNat))

/-- `x ≤ y`, which is false as soon as one of them is not a number. -/
def Binary.le : Binary → Binary → Bool
  | .nan, _ => false
  | _, .nan => false
  | .infinite s, .infinite t => s || !t
  | .infinite s, .finite .. => s
  | .finite .., .infinite t => !t
  | .finite s m q, .finite t n r => finiteLe s m q t n r

/-- The number zero, as a double. -/
def Binary.zero : Binary := .finite false 0 (-1074)

/-- The number one, as a double. -/
def Binary.one : Binary := .finite false (twoTo 52) (-52)

/-- Whether the number is zero, of either sign. -/
def Binary.isZero : Binary → Bool
  | .finite _ m _ => m == 0
  | _ => false

/-- The integer nearest to the number, a half going away from zero; none for the others. -/
def Binary.round? : Binary → Option Int
  | .finite s m q =>
    let num := m * twoTo q.toNat
    let den := twoTo (-q).toNat
    let n := (2 * num + den) / (2 * den)
    some (if s then -(n : Int) else n)
  | _ => none

/-! ## Bits -/

/-- The bits of a number in its format: sign, biased exponent, fraction. -/
def Format.bits (fmt : Format) : Binary → Nat :=
  let fraction := fmt.precision - 1
  let topExponent := (fmt.maxExponent - fmt.minExponent).toNat + 2
  let signed (negative : Bool) (n : Nat) : Nat :=
    if negative then n + (topExponent + 1) * twoTo fraction else n
  fun
  | .nan => topExponent * twoTo fraction + twoTo (fraction - 1)
  | .infinite s => signed s (topExponent * twoTo fraction)
  | .finite s m q =>
    signed s (if m < twoTo fraction then m else
      ((q - fmt.minExponent).toNat + 1) * twoTo fraction + (m - twoTo fraction))

end SchemaUsage.Number

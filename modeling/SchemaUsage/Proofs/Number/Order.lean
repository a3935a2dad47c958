import Mathlib.Algebra.Order.Field.Power
import Mathlib.Data.Rat.Cast.Order
import Mathlib.Tactic.Positivity
import Mathlib.Tactic.Ring
import SchemaUsage.Number.Binary

/-!
# The order of binary numbers

A finite number stands for a rational, and the order compares these: how a value is written, with a
small mantissa or a large one, in 32 bits or in 64, makes no difference. A ratio of a number to
itself is one.

Results:
- `finiteLe_iff`: finite numbers are compared by value.
- `Binary.le_of_value_eq`: numbers of one value have the same numbers below them.
- `Format.ofRatio_self`: a ratio of a number to itself is one.
-/

namespace SchemaUsage.Number

/-- A mantissa with its sign. -/
def signed (negative : Bool) (mantissa : Nat) : Int :=
  if negative then -(mantissa : Int) else mantissa

/-- **The value of a finite number.** -/
def finiteValue (negative : Bool) (mantissa : Nat) (exponent : Int) : ℚ :=
  signed negative mantissa * 2 ^ exponent

theorem cast_twoTo (n : Nat) : (twoTo n : ℚ) = 2 ^ n := by simp [twoTo]

theorem cast_signed_mul (negative : Bool) (m k : Nat) :
    (signed negative (m * k) : ℚ) = signed negative m * k := by
  cases negative <;> simp [signed]

/-- A number has its value also with a lesser exponent, if its mantissa grows in return. -/
theorem finiteValue_shift (negative : Bool) (m : Nat) {least q : Int} (below : least ≤ q) :
    finiteValue negative m q = finiteValue negative (m * twoTo (q - least).toNat) least := by
  have exponents : (((q - least).toNat : Nat) : Int) + least = q := by omega
  calc finiteValue negative m q
      = signed negative m * 2 ^ ((((q - least).toNat : Nat) : Int) + least) := by
        rw [exponents, finiteValue]
    _ = signed negative m * twoTo (q - least).toNat * 2 ^ least := by
        rw [zpow_add₀ (by norm_num), zpow_natCast, cast_twoTo, mul_assoc]
    _ = finiteValue negative (m * twoTo (q - least).toNat) least := by
        rw [finiteValue, cast_signed_mul]

/-- **Finite numbers are compared by value.** -/
theorem finiteLe_iff (s : Bool) (m : Nat) (q : Int) (t : Bool) (n : Nat) (r : Int) :
    finiteLe s m q t n r = true ↔ finiteValue s m q ≤ finiteValue t n r := by
  have positive : (0 : ℚ) < 2 ^ min q r := by positivity
  rw [finiteValue_shift s m (min_le_left q r), finiteValue_shift t n (min_le_right q r),
    finiteValue, finiteValue, mul_le_mul_iff_left₀ positive, Int.cast_le]
  exact decide_eq_true_iff

theorem finiteValue_zero : finiteValue false 0 (-1074) = 0 := by simp [finiteValue, signed]

theorem finiteValue_one : finiteValue false (twoTo 52) (-52) = 1 := by
  norm_num [finiteValue, signed, cast_twoTo, zpow_neg]

/-- **Numbers of one value have the same numbers below them.** -/
theorem Binary.le_of_value_eq {s t : Bool} {m n : Nat} {q r : Int}
    (same : finiteValue s m q = finiteValue t n r) (x : Binary) :
    x.le (.finite s m q) = x.le (.finite t n r) := by
  cases x with
  | nan => rfl
  | infinite negative => rfl
  | finite negative k e =>
    show finiteLe negative k e s m q = finiteLe negative k e t n r
    rw [Bool.eq_iff_iff, finiteLe_iff, finiteLe_iff, same]

/-! ## Ratios -/

theorem roundRatio_mul (n : Nat) {den : Nat} (positive : 0 < den) :
    roundRatio (n * den) den = n := by
  unfold roundRatio
  rw [Nat.mul_div_cancel n positive, Nat.mul_mod_left]
  exact if_pos positive

theorem floorLog2_self (n : Nat) : floorLog2 n n = 0 := by
  unfold floorLog2
  simp [shiftRatio]

theorem Format.ofRatio_zero (fmt : Format) (negative : Bool) (den : Nat) :
    fmt.ofRatio negative 0 den = .finite negative 0 fmt.minExponent := rfl

/-- **A ratio of a number to itself is one**, in a format that has the exponent for it. -/
theorem Format.ofRatio_self {fmt : Format} (negative : Bool) {n k : Nat} (positive : 0 < n)
    (precision : fmt.precision = k + 1) (least : fmt.minExponent ≤ -(k : Int))
    (greatest : -(k : Int) ≤ fmt.maxExponent) :
    fmt.ofRatio negative n n = .finite negative (twoTo k) (-k) := by
  have exponent : max fmt.minExponent (floorLog2 n n - ((k + 1 - 1 : Nat) : Int)) = -(k : Int) := by
    rw [floorLog2_self, Nat.add_sub_cancel]
    omega
  have shifted : shiftRatio n n (-(k : Int)) = (twoTo k * n, n) := by
    simp [shiftRatio, twoTo, Nat.mul_comm]
  have inRange : twoTo k ≠ twoTo (k + 1) := by
    have := twoTo_pos k
    rw [twoTo_succ]
    omega
  unfold Format.ofRatio
  rw [if_neg (Nat.ne_of_gt positive), precision, exponent]
  simp only [shifted, roundRatio_mul _ positive, if_neg inRange, if_neg (not_lt.mpr greatest)]

end SchemaUsage.Number

import SchemaUsage.Number.Binary

/-!
# Shortest decimal text

The decimal with the fewest digits that reads back as a given binary number, and of those the
nearest one, written in positional notation without an exponent: the displayed form of numbers in
messages, rates and documents.
-/

namespace SchemaUsage.Number

/-- The reals that round to `m * 2 ^ q`, over the unit `2 ^ (q - 2)`: below a power of two the
neighbour is half as far away. -/
structure Interval where
  low : Nat
  value : Nat
  high : Nat
  closed : Bool
  deriving Repr, DecidableEq

/-- The interval of a mantissa, in quarters of its last place. -/
def Format.interval (fmt : Format) (m : Nat) (q : Int) : Interval where
  low := 4 * m - (if m = twoTo (fmt.precision - 1) ∧ fmt.minExponent < q then 1 else 2)
  value := 4 * m
  high := 4 * m + 2
  closed := m % 2 == 0

/-- Whether a point lies in an interval whose bounds are scaled by `scale`. -/
def Interval.contains (i : Interval) (scale point : Nat) : Bool :=
  if i.closed then i.low * scale ≤ point && point ≤ i.high * scale
  else i.low * scale < point && point < i.high * scale

/-- Among the multiples of `unit` next to the value: the one inside of the interval, and of two
the nearer one. -/
def Interval.pick (i : Interval) (scale unit : Nat) : Option Nat :=
  let below := i.value * scale / unit
  let above := below + 1
  match i.contains scale (below * unit), i.contains scale (above * unit) with
  | false, false => none
  | true, false => some below
  | false, true => some above
  | true, true =>
    if i.value * scale - below * unit ≤ above * unit - i.value * scale then some below
    else some above

/-- The first grid `10 ^ k`, from a coarse one on, that has a point in the interval. -/
def Interval.search (i : Interval) (e : Int) : Nat → Int → Nat × Int
  | 0, k => (0, k)
  | n + 1, k =>
    match i.pick (twoTo e.toNat * tenTo (-k).toNat) (tenTo k.toNat * twoTo (-e).toNat) with
    | some point => (point, k)
    | none => i.search e n (k - 1)

/-- The digits and the decimal exponent of the shortest decimal for `m * 2 ^ q`, `m` positive. -/
def Format.shortest (fmt : Format) (m : Nat) (q : Int) : Nat × Int :=
  let top : Int := ((m.log2 : Int) + q) * 30103 / 100000
  (fmt.interval m q).search (q - 2) 24 (top + 2)

/-- `digits * 10 ^ exponent` in positional notation. -/
def positional (digits : Nat) (exponent : Int) : String :=
  let ds := Nat.toDigits 10 digits
  if 0 ≤ exponent then String.ofList (ds ++ List.replicate exponent.toNat '0')
  else
    let places := (-exponent).toNat
    let padded := List.replicate (places + 1 - ds.length) '0' ++ ds
    let split := padded.length - places
    String.ofList (padded.take split ++ '.' :: padded.drop split)

/-- **The text of a number**: shortest digits, positional, no point behind an integer. -/
def Format.text (fmt : Format) : Binary → String
  | .nan => "NaN"
  | .infinite s => if s then "-inf" else "inf"
  | .finite s m q =>
    let sign := if s then "-" else ""
    if m = 0 then sign ++ "0"
    else
      let (digits, exponent) := fmt.shortest m q
      sign ++ positional digits exponent

end SchemaUsage.Number

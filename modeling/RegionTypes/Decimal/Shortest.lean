import RegionTypes.Decimal.Binary

/-!
# Shortest decimals

The decimal with the fewest digits that reads back as a given binary number, and of several such
decimals the nearest.

Every real between the two midpoints to the neighbouring binary numbers reads back as the number in
the middle; the midpoints themselves do so exactly when the significand is even.  For one digit, two
digits and so on, the two neighbours of the number on that decimal grid are tried; the first grid
with a neighbour in the interval gives the answer.  All comparisons are between natural numbers.

* `Decimal.shortest` — the answer as a coefficient and a power of ten.
-/

namespace RegionTypes

/-- The number `coefficient * 10 ^ exponent`. -/
structure Decimal where
  coefficient : Nat
  exponent : Int
  deriving DecidableEq, Repr

namespace Decimal

open Binary (Magnitude twoTo tenTo)

/-- The number of decimal digits; zero has one. -/
def digitCount (n : Nat) : Nat := (Nat.toDigits 10 n).length

/-- The reals that read back as one binary number, as multiples of a power of two. -/
structure Interval where
  low : Nat
  value : Nat
  high : Nat
  power : Int
  closed : Bool

/-- The interval around a number, in quarters of its last place. -/
def Interval.around (d : Magnitude) (atEdge : Bool) : Interval where
  low := 4 * d.significand - if atEdge then 1 else 2
  value := 4 * d.significand
  high := 4 * d.significand + 2
  power := d.power - 2
  closed := d.significand % 2 == 0

/-- The least `k` with `value < 10 ^ k`, for a value that is not zero. -/
def Interval.magnitude (i : Interval) : Int :=
  let whole := i.value * twoTo i.power.toNat
  let parts := twoTo (-i.power).toNat
  if parts ≤ whole then digitCount (whole / parts)
  else
    let ratio := (parts + whole - 1) / whole
    1 - (digitCount (ratio - 1) : Int)

/-- A decimal grid of multiples of `10 ^ exponent`, laid over an interval: both measured in units
that make them whole. -/
structure Grid where
  step : Nat
  low : Nat
  value : Nat
  high : Nat
  closed : Bool

def Interval.grid (i : Interval) (exponent : Int) : Grid :=
  let scale := twoTo i.power.toNat * tenTo (-exponent).toNat
  { step := twoTo (-i.power).toNat * tenTo exponent.toNat
    low := i.low * scale
    value := i.value * scale
    high := i.high * scale
    closed := i.closed }

/-- Whether a multiple of the grid's step reads back as the value. -/
def Grid.holds (g : Grid) (k : Nat) : Bool :=
  if g.closed then g.low ≤ k * g.step && k * g.step ≤ g.high
  else g.low < k * g.step && k * g.step < g.high

/-- The nearer of the value's two neighbours on the grid that reads back; of two equally near ones,
the larger. -/
def Grid.nearest? (g : Grid) : Option Nat :=
  let below := g.value / g.step
  let above := below + 1
  match g.holds below, g.holds above with
  | true, true =>
    if g.value - below * g.step < above * g.step - g.value then some below else some above
  | true, false => some below
  | false, true => some above
  | false, false => none

/-- The decimal on the grid of `digits` significant digits, if one reads back. -/
def Interval.candidate? (i : Interval) (digits : Nat) : Option Decimal :=
  let exponent := i.magnitude - digits
  (i.grid exponent).nearest?.map fun k => ⟨k, exponent⟩

/-- Drops zeros at the end of a coefficient, at most as many as `fuel`. -/
def normalize : Nat → Decimal → Decimal
  | 0, d => d
  | fuel + 1, d =>
    if d.coefficient % 10 = 0 then normalize fuel ⟨d.coefficient / 10, d.exponent + 1⟩ else d

def mostDigits : Nat := 17

/-- The shortest decimal that reads back as a number, and zero for zero. -/
def shortest (d : Magnitude) (atEdge : Bool) : Decimal :=
  if d.isZero then ⟨0, 0⟩
  else
    let i := Interval.around d atEdge
    match (List.range mostDigits).findSome? fun n => i.candidate? (n + 1) with
    | some decimal => decimal.normalize mostDigits
    | none => ⟨i.value, i.power⟩

example : shortest ⟨Binary.twoTo 52, -52⟩ true = ⟨1, 0⟩ := by decide +kernel
example : shortest ⟨1, -1074⟩ false = ⟨5, -324⟩ := by decide +kernel
example : shortest ⟨7205759403792794, -56⟩ false = ⟨1, -1⟩ := by decide +kernel

end Decimal

end RegionTypes

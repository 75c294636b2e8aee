import RegionTypes.Decimal.Shortest

/-!
# Rounding decimals to binary words

The floating-point word nearest to a decimal; of two equally near ones the one with the even
significand.  What is too large for the format becomes an infinity.

* `roundDiv` — a quotient to the nearest natural number, halves to even.
* `Binary.nearest` — the word, all arithmetic done in natural numbers.
-/

namespace RegionTypes.Binary

/-- The natural number nearest to a quotient; halves go to the even one. -/
def roundDiv (num den : Nat) : Nat :=
  let q := num / den
  let r := num % den
  if den < 2 * r || (2 * r == den && q % 2 == 1) then q + 1 else q

/-- The word nearest to `num / den`, for `num` that is not zero.  The power of two is the least one
at which the quotient has no more bits than a significand. -/
def nearestQuotient (fmt : Format) (num den : Nat) : Nat :=
  let start : Int :=
    max fmt.leastPower ((num.log2 : Int) - den.log2 - 1 - fmt.fractionBits)
  let scaled (power : Int) : Nat × Nat := (num * twoTo (-power).toNat, den * twoTo power.toNat)
  let whole := (scaled start).1 / (scaled start).2
  let power := if whole < twoTo (fmt.fractionBits + 1) then start else start + 1
  let significand := roundDiv (scaled power).1 (scaled power).2
  min fmt.infinity ((power - fmt.leastPower).toNat * twoTo fmt.fractionBits + significand)

/-- The number of places of a decimal beyond which every format overflows, and the number of zeros
after the point beyond which it is nearest to zero. -/
def placeLimit : Int := 400

def nearestUnsigned (fmt : Format) (d : Decimal) : Nat :=
  let places := Decimal.digitCount d.coefficient + d.exponent
  if d.coefficient = 0 || places < -placeLimit then 0
  else if placeLimit < places then fmt.infinity
  else nearestQuotient fmt (d.coefficient * tenTo d.exponent.toNat) (tenTo (-d.exponent).toNat)

def nearest (fmt : Format) (negative : Bool) (d : Decimal) : Nat :=
  (if negative then fmt.signBit else 0) + nearestUnsigned fmt d

example : nearest double false ⟨1, -1⟩ = 0x3fb999999999999a := by decide +kernel
example : nearest double false ⟨5, -324⟩ = 1 := by decide +kernel
example : nearest double true ⟨17976931348623159, 292⟩ = 0xfff0000000000000 := by decide +kernel
example : nearest double false ⟨17976931348623157, 292⟩ = 0x7fefffffffffffff := by decide +kernel
example : nearest double false ⟨9007199254740993, 0⟩ = 0x4340000000000000 := by decide +kernel

end RegionTypes.Binary

/-!
# Binary floating-point words

A **format** fixes the widths of fraction and exponent; a word of that format decodes to an exact
magnitude, an infinity or a value that is no number.  No floating-point operation is involved.

* `Binary.decode` — the fields of a word as sign, significand and power of two.
* `Binary.Magnitude.le` — exact comparison of magnitudes.
-/

namespace RegionTypes.Binary

def twoTo (n : Nat) : Nat := Nat.pow 2 n

def tenTo (n : Nat) : Nat := Nat.pow 10 n

/-- The widths of the fraction and the exponent of a word. -/
structure Format where
  fractionBits : Nat
  exponentBits : Nat
  deriving DecidableEq, Repr

def single : Format := ⟨23, 8⟩

def double : Format := ⟨52, 11⟩

namespace Format

/-- The power of two of a format's last place near zero. -/
def leastPower (fmt : Format) : Int := 2 - (twoTo (fmt.exponentBits - 1) : Int) - fmt.fractionBits

def infinity (fmt : Format) : Nat := (twoTo fmt.exponentBits - 1) * twoTo fmt.fractionBits

def signBit (fmt : Format) : Nat := twoTo (fmt.fractionBits + fmt.exponentBits)

end Format

/-- The number `significand * 2 ^ power`. -/
structure Magnitude where
  significand : Nat
  power : Int
  deriving DecidableEq, Repr

/-- What a word stands for. -/
inductive Value where
  | nan
  | infinite (negative : Bool)
  /-- A number; `atEdge` says that the next smaller magnitude is only half as far away as the next
  larger one. -/
  | finite (negative : Bool) (magnitude : Magnitude) (atEdge : Bool)
  deriving DecidableEq, Repr

def decode (fmt : Format) (word : Nat) : Value :=
  let fraction := word % twoTo fmt.fractionBits
  let exponent := word / twoTo fmt.fractionBits % twoTo fmt.exponentBits
  let negative := word / fmt.signBit % 2 == 1
  if exponent = twoTo fmt.exponentBits - 1 then
    if fraction = 0 then .infinite negative else .nan
  else if exponent = 0 then .finite negative ⟨fraction, fmt.leastPower⟩ false
  else
    .finite negative
      ⟨twoTo fmt.fractionBits + fraction, fmt.leastPower + (exponent - 1 : Nat)⟩
      (fraction == 0 && exponent != 1)

/-- Exact comparison: both numbers are brought to the smaller power of two. -/
def Magnitude.le (a b : Magnitude) : Bool :=
  let least := min a.power b.power
  a.significand * twoTo (a.power - least).toNat ≤ b.significand * twoTo (b.power - least).toNat

def Magnitude.isZero (a : Magnitude) : Bool := a.significand == 0

example : decode double 0x3ff0000000000000 = .finite false ⟨twoTo 52, -52⟩ true := by
  decide +kernel
example : decode single 0x80000001 = .finite true ⟨1, -149⟩ false := by decide +kernel
example : decode double 0x7ff0000000000000 = .infinite false := by decide +kernel

end RegionTypes.Binary

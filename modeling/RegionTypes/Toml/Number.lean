import RegionTypes.Decimal.Rounding
import RegionTypes.Toml.Text

/-!
# TOML numbers

Integers are decimal with an optional sign, or hexadecimal, octal or binary without one; they must
fit in 64 bits.  Digits may be set apart by single underscores.  A floating-point number has a
fraction or an exponent or both; one too large is refused unless it is negative.

* `integer` — an integer.
* `float` — a floating-point number as a 64-bit word.
-/

namespace RegionTypes.Toml

open Reader

/-- Digits, perhaps with single underscores between them. -/
def digits (isDigit : Char → Bool) : Reader (List Char) := do
  let first ← satisfy isDigit
  let rest ← many (satisfy isDigit <|> (char '_' *> satisfy isDigit))
  return first :: rest

/-- An optional sign: whether it is a minus. -/
def sign : Reader Bool := (char '-' *> pure true) <|> (char '+' *> pure false) <|> pure false

/-- The digits of a decimal integer.  A zero in front stands alone. -/
def decimalDigits : Reader (List Char) := do
  if (← peek) == '0' then return [← satisfy (· == '0')] else digits Char.isDigit

def withSign (negative : Bool) (n : Nat) : Int := if negative then -(n : Int) else n

/-- Whether a number fits in 64 bits with a sign. -/
def fits (n : Int) : Bool := -9223372036854775808 ≤ n && n ≤ 9223372036854775807

def decimalInteger : Reader Int := do
  let negative ← sign
  return withSign negative (digitsValue 10 (← decimalDigits))

/-- An integer in a base that its second character tells. -/
def basedInteger (mark : Char) (base : Nat) (isDigit : Char → Bool) : Reader Int := do
  chars ['0', mark]
  return (digitsValue base (← digits isDigit) : Int)

def integer : Reader Int := do
  let n ← basedInteger 'x' 16 isHexDigit <|>
    basedInteger 'o' 8 (fun c => '0' ≤ c && c ≤ '7') <|>
    basedInteger 'b' 2 (fun c => c == '0' || c == '1') <|>
    decimalInteger
  if fits n then return n else failure

def fraction : Reader (List Char) := char '.' *> digits Char.isDigit

def exponent : Reader Int := do
  discard (satisfy fun c => c == 'e' || c == 'E')
  let negative ← sign
  return withSign negative (digitsValue 10 (← digits Char.isDigit))

/-- What follows the whole part of a floating-point number. -/
def scale : Reader (List Char × Int) :=
  (do return ([], ← exponent)) <|>
  (do
    let digits ← fraction
    return (digits, (← optional exponent).getD 0))

def writtenFloat : Reader Nat := do
  let negative ← sign
  let whole ← decimalDigits
  let (fraction, exponent) ← scale
  let decimal : Decimal :=
    ⟨digitsValue 10 (whole ++ fraction), exponent - fraction.length⟩
  let word := Binary.nearest Binary.double negative decimal
  if word = Binary.double.infinity then failure else return word

def notANumber : Nat := 0x7ff8000000000000

/-- An infinity, or no number. -/
def namedFloat : Reader Nat := do
  let negative ← sign
  let word ← (chars ['i', 'n', 'f'] *> pure Binary.double.infinity) <|>
    (chars ['n', 'a', 'n'] *> pure notANumber)
  return (if negative then Binary.double.signBit else 0) + word

def float : Reader UInt64 := do return UInt64.ofNat (← writtenFloat <|> namedFloat)

end RegionTypes.Toml

import RegionTypes.Decimal.Layout

/-!
# Literals

The value a constant type carries.  Values of the types `boolean`, `char`, `byte`, `short` and `int`
are all carried as 32-bit integers; floating-point values are kept as words.

* `Literal.text` — the value as source text.
* `Literal.floatText` — a floating-point word: positional from `1e-3` up to but not including `1e7`,
  scientific outside, with the fewest digits that read back in the word's own width.
-/

namespace RegionTypes

inductive Literal where
  | int (value : Int32)
  | long (value : Int64)
  | float (word : UInt32)
  | double (word : UInt64)
  | text (value : String)
  deriving DecidableEq

namespace Literal

open Binary (Magnitude)

/-- The double nearest to one thousandth, from which on numbers are written positionally. -/
def positionalFrom : Magnitude := ⟨0x10624dd2f1a9fc, -62⟩

/-- Ten million, from which on numbers are no longer written positionally. -/
def positionalBelow : Magnitude := ⟨10000000, 0⟩

def isPositional (d : Magnitude) : Bool :=
  d.isZero || (positionalFrom.le d && !positionalBelow.le d)

def floatText (fmt : Binary.Format) (word : Nat) : String :=
  match Binary.decode fmt word with
  | .nan => "NaN"
  | .infinite negative => Decimal.signed negative "Infinity"
  | .finite negative magnitude atEdge =>
    let decimal := Decimal.shortest magnitude atEdge
    Decimal.signed negative
      (if isPositional magnitude then decimal.positional else decimal.scientific)

protected def toText : Literal → String
  | int v => toString v.toInt
  | long v => toString v.toInt
  | float word => floatText Binary.single word.toNat
  | double word => floatText Binary.double word.toNat
  | text s => s

example : Binary.decode Binary.double 0x3f50624dd2f1a9fc = .finite false positionalFrom false := by
  decide +kernel

/-- Four upper-case hexadecimal digits. -/
def hex4 (n : Nat) : String :=
  let digits := (Nat.toDigits 16 n).map Char.toUpper
  String.ofList (List.replicate (4 - digits.length) '0' ++ digits)

/-- A character constant as text.  A value that is no character keeps its lower sixteen bits as an
escape. -/
def charText (v : Int32) : String :=
  let code := v.toInt.toNat
  if v.toInt < 0 ∨ ¬ code.isValidChar then "\\u" ++ hex4 (v.toInt % 65536).toNat
  else (Char.ofNat code).toString

end Literal

end RegionTypes

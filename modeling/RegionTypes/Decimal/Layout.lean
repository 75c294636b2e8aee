import RegionTypes.Decimal.Shortest

/-!
# Layout of decimals

Two ways to write a decimal: **positional**, with zeros up to the point, and **scientific**, with one
digit before the point and the power of ten after a mark.  Both always have a digit after the point.
-/

namespace RegionTypes.Decimal

def digits (d : Decimal) : List Char := Nat.toDigits 10 d.coefficient

/-- Digits before and after the point, with a zero where there would be none. -/
def withPoint (whole fraction : List Char) : String :=
  String.ofList (whole ++ '.' :: if fraction.isEmpty then ['0'] else fraction)

def positional (d : Decimal) : String :=
  let places := (d.digits.length : Int) + d.exponent
  if 0 < places then
    let padded := d.digits ++ List.replicate d.exponent.toNat '0'
    withPoint (padded.take places.toNat) (padded.drop places.toNat)
  else withPoint ['0'] (List.replicate (-places).toNat '0' ++ d.digits)

/-- One digit before the point and the power of ten after `E`. -/
def scientific (d : Decimal) : String :=
  let power := (d.digits.length : Int) - 1 + d.exponent
  withPoint (d.digits.take 1) (d.digits.drop 1) ++ "E" ++ toString power

def signed (negative : Bool) (text : String) : String := if negative then "-" ++ text else text

end RegionTypes.Decimal

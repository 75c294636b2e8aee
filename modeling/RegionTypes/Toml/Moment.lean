import RegionTypes.Toml.Text

/-!
# TOML dates and times

A date of the Gregorian calendar, a time of day, or a date with a time and perhaps an offset.  The
second 60 is allowed on any day, for leap seconds.
-/

namespace RegionTypes.Toml

open Reader

def fixedNumber (n : Nat) : Reader Nat := do
  return digitsValue 10 (← exactly n Char.isDigit)

/-- A number of two digits within bounds. -/
def twoDigits (least most : Nat) : Reader Nat := do
  let n ← fixedNumber 2
  if least ≤ n ∧ n ≤ most then return n else failure

def isLeapYear (year : Nat) : Bool := year % 4 == 0 && (year % 100 != 0 || year % 400 == 0)

def daysIn (year month : Nat) : Nat :=
  if month = 2 then if isLeapYear year then 29 else 28
  else if month = 4 ∨ month = 6 ∨ month = 9 ∨ month = 11 then 30
  else 31

def date : Reader Unit := do
  let year ← fixedNumber 4
  char '-'
  let month ← twoDigits 1 12
  char '-'
  discard (twoDigits 1 (daysIn year month))

def time : Reader Unit := do
  discard (twoDigits 0 23)
  char ':'
  discard (twoDigits 0 59)
  char ':'
  discard (twoDigits 0 60)
  discard (optional (char '.' *> takeWhile1 Char.isDigit))

/-- The offset of a time from the reference time. -/
def offset : Reader Unit :=
  discard (satisfy fun c => c == 'Z' || c == 'z') <|>
  (do
    discard (satisfy fun c => c == '+' || c == '-')
    discard (twoDigits 0 23)
    char ':'
    discard (twoDigits 0 59))

def timeOfDate : Reader Unit := do
  discard (satisfy fun c => c == 'T' || c == 't' || c == ' ')
  time
  discard (optional offset)

/-- A date, a time, or both. -/
def moment : Reader Unit := (do date; discard (optional timeOfDate)) <|> time

end RegionTypes.Toml

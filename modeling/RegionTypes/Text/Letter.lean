import RegionTypes.Text.Printable

/-!
# Letters and digits

* `Text.isLetterOrDigit` — characters with the property `Alphabetic` or one of the general categories
  `Nd`, `Nl` and `No`.  For ASCII these are the letters and digits.
-/

namespace RegionTypes.Text

/-- Code points beyond ASCII with the property `Alphabetic` or a general category of numbers. -/
def letterRanges : RangeTable :=
  .ofSteps 0
    [170, 0, 8, 1, 2, 0, 4, 1, 2, 2, 2, 22, 2, 30, 2, 457, 5, 11, 15, 4, 8, 0, 2, 0, 87, 0, 30,
     17, 2, 1, 3, 3, 2, 0, 7, 0, 2, 2, 2, 0, 2, 19, 2, 82, 2, 138, 9, 165, 2, 37, 3, 0, 7, 40,
     40, 13, 2, 0, 2, 1, 2, 1, 2, 0, 9, 26, 5, 3, 30, 10, 6, 55, 2, 16, 5, 101, 2, 7, 5, 7, 5,
     15, 3, 0, 17, 47, 14, 100, 15, 42, 10, 1, 5, 0, 6, 23, 3, 18, 20, 24, 8, 10, 6, 23, 2, 6, 8,
     0, 9, 41, 11, 11, 4, 6, 7, 75, 2, 15, 2, 2, 5, 14, 3, 9, 2, 18, 2, 7, 3, 1, 3, 21, 2, 6, 2,
     0, 4, 3, 4, 7, 3, 1, 3, 1, 2, 0, 9, 0, 5, 1, 2, 4, 3, 11, 3, 5, 3, 0, 5, 2, 2, 5, 5, 1, 3,
     21, 2, 6, 2, 1, 2, 1, 2, 1, 5, 4, 5, 1, 3, 1, 5, 0, 8, 3, 2, 0, 8, 15, 12, 2, 2, 8, 2, 2, 2,
     21, 2, 6, 2, 1, 2, 4, 4, 8, 2, 2, 2, 1, 4, 0, 16, 3, 3, 9, 10, 3, 5, 2, 2, 7, 3, 1, 3, 21,
     2, 6, 2, 1, 2, 4, 4, 7, 3, 1, 3, 1, 10, 1, 5, 1, 2, 4, 3, 9, 2, 6, 11, 1, 2, 5, 4, 2, 2, 3,
     4, 1, 2, 0, 2, 1, 4, 1, 4, 2, 4, 11, 5, 4, 4, 2, 2, 2, 4, 0, 7, 0, 15, 12, 14, 12, 2, 2, 2,
     22, 2, 15, 4, 7, 2, 2, 2, 2, 9, 1, 2, 2, 2, 1, 3, 3, 3, 9, 9, 6, 2, 3, 2, 7, 2, 2, 2, 22, 2,
     9, 2, 4, 4, 7, 2, 2, 2, 2, 9, 1, 6, 2, 2, 3, 3, 9, 2, 2, 13, 12, 2, 2, 2, 40, 3, 7, 2, 2, 2,
     2, 2, 0, 6, 15, 3, 18, 2, 5, 2, 2, 2, 17, 4, 23, 2, 8, 2, 0, 3, 6, 9, 5, 2, 0, 2, 7, 7, 9,
     3, 1, 14, 57, 6, 6, 7, 0, 3, 9, 40, 1, 2, 0, 2, 4, 2, 23, 2, 0, 2, 18, 2, 2, 3, 4, 2, 0, 7,
     0, 3, 9, 3, 3, 33, 0, 32, 19, 13, 7, 2, 35, 5, 18, 5, 15, 2, 35, 68, 54, 2, 0, 3, 14, 7, 77,
     3, 37, 2, 0, 6, 0, 3, 42, 2, 332, 2, 3, 3, 6, 2, 0, 2, 3, 3, 40, 2, 3, 3, 32, 2, 3, 3, 6, 2,
     0, 2, 3, 3, 14, 2, 56, 2, 3, 3, 66, 15, 19, 4, 15, 17, 85, 3, 5, 4, 619, 3, 16, 2, 25, 6,
     74, 4, 10, 8, 19, 12, 20, 13, 19, 13, 12, 2, 2, 2, 1, 13, 51, 3, 18, 15, 0, 5, 0, 4, 9, 7,
     9, 23, 9, 7, 88, 8, 42, 6, 69, 11, 30, 2, 11, 5, 8, 14, 39, 3, 4, 12, 43, 5, 25, 7, 10, 38,
     27, 5, 62, 3, 19, 12, 9, 7, 9, 14, 0, 24, 1, 12, 2, 50, 51, 2, 14, 2, 7, 4, 9, 39, 41, 3,
     57, 2, 10, 15, 54, 10, 9, 4, 48, 3, 10, 6, 42, 3, 2, 42, 3, 2, 5, 2, 1, 4, 0, 6, 191, 20,
     33, 12, 277, 3, 5, 3, 37, 3, 5, 3, 7, 2, 0, 2, 0, 2, 0, 2, 30, 3, 52, 2, 6, 2, 0, 4, 2, 2,
     6, 4, 3, 3, 5, 5, 12, 6, 2, 2, 6, 116, 1, 3, 5, 6, 10, 7, 12, 102, 0, 5, 0, 3, 9, 2, 0, 4,
     4, 7, 0, 2, 0, 2, 0, 2, 3, 2, 10, 3, 3, 6, 4, 5, 0, 2, 57, 727, 59, 27, 73, 631, 29, 1133,
     228, 7, 3, 4, 1, 10, 0, 3, 37, 2, 0, 6, 0, 3, 55, 8, 0, 17, 22, 10, 6, 2, 6, 2, 6, 2, 6, 2,
     6, 2, 6, 2, 6, 2, 6, 2, 31, 48, 0, 470, 2, 26, 8, 8, 4, 3, 4, 5, 85, 7, 2, 2, 89, 2, 3, 6,
     42, 2, 93, 4, 3, 11, 31, 49, 15, 33, 9, 31, 7, 2, 14, 33, 9, 40, 14, 321, 6591, 65, 22156,
     68, 45, 3, 268, 4, 27, 21, 46, 6, 7, 4, 112, 40, 8, 3, 102, 3, 81, 21, 20, 2, 32, 9, 5, 11,
     51, 13, 67, 2, 0, 11, 9, 25, 5, 4, 0, 2, 45, 6, 34, 14, 28, 4, 50, 2, 11, 16, 10, 7, 30, 2,
     54, 10, 13, 3, 9, 7, 22, 4, 68, 2, 0, 2, 0, 25, 2, 3, 15, 3, 3, 12, 5, 3, 5, 3, 5, 10, 6, 2,
     6, 2, 42, 2, 13, 7, 122, 6, 9, 7, 11171, 13, 22, 5, 48, 8453, 365, 3, 105, 39, 6, 13, 4, 6,
     11, 2, 12, 2, 4, 2, 0, 2, 1, 2, 1, 2, 107, 34, 362, 19, 63, 3, 53, 41, 11, 117, 4, 2, 134,
     20, 9, 8, 25, 7, 25, 12, 88, 4, 5, 3, 5, 3, 5, 3, 2, 36, 11, 2, 25, 2, 18, 2, 1, 2, 14, 3,
     13, 35, 122, 13, 44, 13, 56, 18, 1, 245, 28, 4, 48, 17, 26, 5, 35, 10, 29, 6, 42, 6, 29, 3,
     35, 5, 7, 2, 4, 43, 157, 3, 9, 7, 35, 5, 35, 5, 39, 9, 51, 13, 10, 2, 14, 2, 6, 2, 1, 2, 10,
     2, 14, 2, 6, 2, 1, 4, 51, 13, 310, 10, 21, 11, 7, 25, 5, 2, 41, 2, 8, 70, 5, 3, 0, 2, 43, 2,
     1, 4, 0, 3, 22, 3, 30, 3, 37, 9, 8, 49, 18, 2, 1, 6, 32, 5, 25, 7, 25, 39, 55, 5, 19, 3, 49,
     2, 1, 6, 7, 2, 2, 2, 28, 11, 8, 24, 30, 2, 31, 33, 7, 2, 27, 7, 4, 17, 53, 11, 21, 3, 26, 6,
     25, 24, 6, 81, 72, 56, 50, 14, 50, 8, 45, 9, 9, 7, 37, 4, 0, 6, 22, 219, 30, 2, 41, 2, 1, 4,
     1, 17, 5, 51, 2, 4, 39, 9, 21, 12, 3, 28, 17, 47, 27, 21, 22, 10, 69, 13, 29, 2, 4, 11, 56,
     10, 0, 14, 24, 8, 9, 7, 50, 4, 9, 5, 3, 9, 34, 4, 0, 10, 63, 2, 3, 10, 12, 2, 0, 5, 19, 12,
     17, 2, 33, 3, 0, 7, 3, 63, 6, 2, 0, 2, 3, 2, 14, 2, 9, 8, 56, 8, 9, 7, 3, 2, 7, 3, 1, 3, 21,
     2, 6, 2, 1, 2, 4, 4, 7, 3, 1, 3, 1, 4, 0, 7, 0, 6, 6, 29, 9, 2, 0, 3, 0, 2, 37, 2, 9, 2, 0,
     3, 0, 2, 3, 2, 1, 4, 0, 2, 0, 45, 65, 2, 2, 2, 3, 6, 9, 6, 2, 31, 65, 3, 1, 2, 0, 9, 9, 167,
     53, 3, 6, 26, 5, 35, 62, 2, 0, 4, 0, 12, 9, 39, 53, 3, 0, 8, 9, 7, 19, 29, 26, 3, 13, 6, 11,
     5, 6, 186, 56, 104, 82, 13, 7, 3, 0, 3, 7, 2, 1, 2, 29, 2, 1, 3, 1, 3, 3, 14, 9, 71, 7, 3,
     45, 3, 5, 2, 0, 2, 1, 28, 50, 3, 9, 18, 71, 6, 0, 19, 72, 104, 7, 89, 32, 16, 9, 7, 8, 2,
     44, 2, 6, 2, 0, 16, 28, 6, 29, 3, 21, 2, 13, 74, 6, 2, 1, 2, 43, 4, 0, 2, 1, 2, 2, 2, 0, 3,
     1, 9, 9, 7, 5, 2, 1, 2, 36, 2, 1, 2, 3, 2, 0, 8, 9, 7, 43, 5, 9, 247, 22, 10, 16, 2, 40, 4,
     2, 16, 9, 87, 0, 16, 20, 44, 921, 103, 110, 18, 195, 2637, 96, 16, 1071, 18, 5, 26, 3994, 6,
     582, 6842, 46, 2, 9, 1735, 568, 8, 30, 2, 9, 7, 78, 2, 9, 7, 29, 19, 47, 17, 3, 13, 9, 2, 6,
     2, 20, 6, 18, 433, 44, 4, 9, 199, 86, 10, 24, 3, 24, 45, 74, 5, 56, 8, 16, 65, 1, 2, 0, 13,
     6, 10, 7381, 42, 31, 98, 114, 8702, 3, 2, 6, 2, 1, 2, 290, 16, 0, 30, 2, 3, 0, 15, 3, 9,
     395, 2309, 106, 6, 12, 4, 8, 8, 9, 5, 0, 4178, 9, 1479, 19, 13, 19, 109, 24, 136, 84, 2, 70,
     2, 1, 3, 0, 3, 1, 3, 3, 2, 11, 2, 0, 2, 6, 2, 64, 2, 3, 3, 7, 2, 6, 2, 27, 2, 3, 2, 4, 2, 0,
     4, 6, 2, 339, 3, 24, 2, 24, 2, 30, 2, 24, 2, 30, 2, 24, 2, 30, 2, 24, 2, 30, 2, 24, 2, 7, 3,
     49, 1793, 30, 7, 5, 214, 6, 2, 16, 3, 6, 2, 1, 2, 4, 6, 61, 34, 0, 113, 44, 11, 6, 3, 9, 5,
     0, 322, 29, 19, 43, 5, 9, 471, 27, 5, 9, 215, 29, 3, 10, 198, 30, 2, 21, 9, 1, 225, 6, 2, 3,
     2, 1, 2, 14, 2, 196, 3, 8, 49, 67, 4, 0, 4, 0, 5, 9, 792, 58, 2, 2, 2, 3, 77, 44, 2, 14,
     195, 3, 2, 26, 2, 1, 2, 0, 3, 0, 2, 9, 2, 3, 2, 0, 2, 0, 7, 0, 5, 0, 2, 0, 2, 0, 2, 2, 2, 1,
     2, 0, 3, 0, 2, 0, 2, 0, 2, 0, 2, 0, 2, 1, 2, 0, 3, 3, 2, 6, 2, 3, 2, 3, 2, 0, 2, 9, 2, 16,
     6, 2, 2, 4, 2, 16, 581, 12, 36, 25, 7, 25, 7, 25, 2663, 9, 1031, 42719, 33, 4381, 3, 5773,
     3, 7472, 16, 621, 2467, 541, 1507, 4938, 6, 8489]

def isLetterOrDigit (c : Char) : Bool := c.isAlphanum || letterRanges.contains c.toNat

example : letterRanges.length = 841 := by decide +kernel

end RegionTypes.Text

/-!
# Blanks

White space in the sense of the Unicode property `White_Space`, and trimming by it.  Case is folded
for ASCII letters only.
-/

namespace RegionTypes.Text

/-- Whether a character has the property `White_Space`. -/
def isBlank (c : Char) : Bool :=
  let n := c.toNat
  (9 ≤ n && n ≤ 13) || n == 0x20 || n == 0x85 || n == 0xa0 || n == 0x1680 ||
    (0x2000 ≤ n && n ≤ 0x200a) || n == 0x2028 || n == 0x2029 || n == 0x202f || n == 0x205f ||
    n == 0x3000

def trimEnd (cs : List Char) : List Char := (cs.reverse.dropWhile isBlank).reverse

def trim (s : String) : String := String.ofList (trimEnd (s.toList.dropWhile isBlank))

/-- A text with its ASCII capitals in lower case. -/
def lower (s : String) : String := String.ofList (s.toList.map Char.toLower)

end RegionTypes.Text

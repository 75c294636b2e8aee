import RegionTypes.Text.Printable

/-!
# Quoted text

A text in double quotes, with everything that would be invisible or ambiguous written as an escape:
the usual two-character escapes where there is one, and `\u` with the code point in hexadecimal
between braces otherwise.
-/

namespace RegionTypes.Text

def hex (n : Nat) : String := String.ofList (Nat.toDigits 16 n)

def codeEscape (c : Char) : String := "\\u\x7b" ++ hex c.toNat ++ "\x7d"

/-- How one character stands between double quotes. -/
def quoteChar (c : Char) : String :=
  match c with
  | '\x00' => "\\0"
  | '\t' => "\\t"
  | '\r' => "\\r"
  | '\n' => "\\n"
  | '\\' => "\\\\"
  | '"' => "\\\""
  | _ => if isCombining c || isUnprintable c then codeEscape c else c.toString

def quoted (s : String) : String := "\"" ++ String.join (s.toList.map quoteChar) ++ "\""

end RegionTypes.Text

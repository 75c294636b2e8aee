import RegionTypes.Toml.Blank

/-!
# TOML texts and keys

Texts come in four forms: between double quotes with escapes, between single quotes as they stand,
and both with tripled quotes over several lines.

* `text` — a text in any form.
* `key` — the parts of a dotted key: bare words or texts on one line.
-/

namespace RegionTypes.Toml

open Reader

/-- A quoted text on one line holds anything plain but its own quote and, with escapes, the
backslash. -/
def isBasic (c : Char) : Bool := isPlain c && c != '"' && c != '\\'

def isVerbatim (c : Char) : Bool := isPlain c && c != '\''

def isHexDigit (c : Char) : Bool :=
  c.isDigit || ('a' ≤ c && c ≤ 'f') || ('A' ≤ c && c ≤ 'F')

def hexValue (c : Char) : Nat :=
  if c.isDigit then c.toNat - '0'.toNat
  else if 'a' ≤ c then c.toNat - 'a'.toNat + 10
  else c.toNat - 'A'.toNat + 10

def digitsValue (base : Nat) (digits : List Char) : Nat :=
  digits.foldl (fun n c => n * base + hexValue c) 0

/-- The character with the code point given by `n` hexadecimal digits. -/
def codePoint (n : Nat) : Reader Char := do
  let code := digitsValue 16 (← exactly n isHexDigit)
  if code.isValidChar then return Char.ofNat code else failure

/-- A backslash and what it stands for with the next characters. -/
def escape : Reader Char := do
  char '\\'
  match ← satisfy fun _ => true with
  | 'b' => return '\x08'
  | 'f' => return '\x0c'
  | 'n' => return '\n'
  | 'r' => return '\r'
  | 't' => return '\t'
  | '"' => return '"'
  | '\\' => return '\\'
  | 'u' => codePoint 4
  | 'U' => codePoint 8
  | _ => failure

def basicText : Reader (List Char) := do
  char '"'
  let content ← many (satisfy isBasic <|> escape)
  char '"'
  return content

def verbatimText : Reader (List Char) := do
  char '\''
  let content ← takeWhile isVerbatim
  char '\''
  return content

/-! ### Texts over several lines -/

def innerNewline : Reader (List Char) := do
  newline
  return ['\n']

/-- A backslash at the end of a line: the line end and all blanks after it are left out. -/
def joinedLines : Reader (List Char) := do
  char '\\'
  spaces
  newline
  blankLines
  return []

/-- A piece of a text over several lines with escapes. -/
def basicPiece : Reader (List Char) :=
  takeWhile1 isBasic <|> joinedLines <|> (do return [← escape]) <|> innerNewline

/-- A piece of a text over several lines without escapes. -/
def verbatimPiece : Reader (List Char) := takeWhile1 isVerbatim <|> innerNewline

/-- Two quotes or one, before something. -/
def fewQuotes (quote : Char) (before : Reader Unit) : Reader (List Char) :=
  (do
    chars [quote, quote]
    ahead before
    return [quote, quote]) <|>
  (do
    char quote
    ahead before
    return [quote])

def tripleQuote (quote : Char) : Reader Unit := chars [quote, quote, quote]

/-- A text between tripled quotes.  A line end right after the opening ones does not count.  One or
two quotes may stand inside, also right before the closing ones. -/
def longText (quote : Char) (piece : Reader (List Char)) : Reader (List Char) := do
  tripleQuote quote
  discard (optional newline)
  let pieces ← many (piece <|> fewQuotes quote (discard (satisfy (· != quote))))
  let last ← optional (fewQuotes quote (tripleQuote quote))
  tripleQuote quote
  return pieces.flatten ++ last.getD []

def text : Reader String := do
  let content ← longText '"' basicPiece <|> basicText <|> longText '\'' verbatimPiece <|> verbatimText
  return String.ofList content

/-! ### Keys -/

def isBare (c : Char) : Bool := c.isAlphanum || c == '-' || c == '_'

def keyPart : Reader String := do
  let name ← basicText <|> verbatimText <|> takeWhile1 isBare
  return String.ofList name

/-- How deeply keys, lists and tables may nest. -/
def nestingLimit : Nat := 80

def key : Reader (List String) := do
  let parts ← sepBy1 (do spaces; let part ← keyPart; spaces; return part) (char '.')
  if parts.length < nestingLimit then return parts else failure

end RegionTypes.Toml

import RegionTypes.Toml.Reader

/-!
# Blanks, line ends and comments

A line ends with a line feed, which a carriage return may precede, or with the document.  A carriage
return alone is no blank.  Comments hold no control characters but tabs.
-/

namespace RegionTypes.Toml

open Reader

def isWide (c : Char) : Bool := 0x80 ≤ c.toNat

def isSpace (c : Char) : Bool := c == ' ' || c == '\t'

/-- Whether a character is visible ASCII, a blank, a tab or beyond ASCII. -/
def isPlain (c : Char) : Bool := c == '\t' || (0x20 ≤ c.toNat && c.toNat ≤ 0x7e) || isWide c

def spaces : Reader Unit := discard (takeWhile isSpace)

def newline : Reader Unit := char '\n' <|> chars ['\r', '\n']

def lineEnd : Reader Unit := newline <|> atEnd

def comment : Reader Unit := do
  char '#'
  discard (takeWhile isPlain)

/-- What may follow on a line whose content is complete. -/
def lineRest : Reader Unit := do
  spaces
  discard (optional comment)
  lineEnd

def blankLines : Reader Unit := discard (many (discard (satisfy isSpace) <|> newline))

/-- Blanks, line ends and comments between the items of a list. -/
def gap : Reader Unit := discard (many (discard (satisfy isSpace) <|> newline <|> comment))

end RegionTypes.Toml

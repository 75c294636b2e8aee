import RegionTypes.Toml.Moment
import RegionTypes.Toml.Number
import RegionTypes.Toml.Table

/-!
# TOML documents

* `value` — a value; its depth is how many lists and tables may still be opened inside each other.
* `line` — a line of a document.
* `parse?` — the table that a document defines.  Nothing comes of a document with any fault.
-/

namespace RegionTypes.Toml

open Reader

/-! ### Values -/

def splitKey (parts : List String) : Reader (List String × String) :=
  match parts.getLast? with
  | some name => return (parts.dropLast, name)
  | none => failure

/-- A list of values.  A comma may follow the last one. -/
def list (item : Reader Value) : Reader Value := do
  char '['
  let items ← (do
    let items ← sepBy1 (do gap; let v ← item; gap; return v) (char ',')
    discard (optional (char ','))
    return items) <|> pure []
  gap
  char ']'
  return .list items

/-- A key, an equals sign and a value. -/
def assignment (item : Reader Value) : Reader Assignment := do
  let (path, name) ← splitKey (← key)
  char '='
  spaces
  return ⟨path, name, ← item⟩

/-- A table between braces, all on one line.  No comma follows the last entry. -/
def braces (item : Reader Value) : Reader Value := do
  char '\x7b'
  let assignments ← sepBy (do let a ← assignment item; spaces; return a) (char ',')
  spaces
  char '\x7d'
  match inlineTable assignments with
  | some table => return table
  | none => failure

def scalar : Reader Value :=
  (do return .text (← text)) <|>
  (do moment; return .moment) <|>
  (do return .float (← float)) <|>
  (do return .integer (← integer)) <|>
  (do chars ['t', 'r', 'u', 'e']; return .boolean true) <|>
  (do chars ['f', 'a', 'l', 's', 'e']; return .boolean false)

/-- A value in which `depth` more lists and tables may be opened inside each other. -/
def value : Nat → Reader Value
  | 0 => scalar
  | depth + 1 => list (value depth) <|> braces (value depth) <|> scalar

/-! ### Lines -/

def headerLine : Reader Line :=
  (do
    chars ['[', '[']
    let (path, name) ← splitKey (← key)
    chars [']', ']']
    lineRest
    return .itemHeader path name) <|>
  (do
    char '['
    let (path, name) ← splitKey (← key)
    char ']'
    lineRest
    return .header path name)

def assignmentLine : Reader Line := do
  let a ← assignment (value (nestingLimit - 1))
  lineRest
  return .assignment a

/-- A line, which may say nothing, and the blanks before the next one. -/
def line : Reader (Option Line) := do
  let content ← (do newline; return none) <|> (do comment; lineEnd; return none) <|>
    (do return some (← headerLine)) <|> (do return some (← assignmentLine))
  spaces
  return content

/-- The lines of a document that say something.  A byte order mark may come first. -/
def document : Reader (List Line) := do
  discard (optional (char (Char.ofNat 0xfeff)))
  spaces
  let lines ← many line
  atEnd
  return lines.filterMap id

def parse? (s : String) : Option Entries := do
  let (lines, _) ← document s.toList
  ofLines lines

end RegionTypes.Toml

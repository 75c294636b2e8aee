import RegionTypes.Settings.Source

/-!
# The journal

Where log events go.  Each event becomes one line of text or one record; the same lines go to the
error output and to the log file, as the settings say.

* `Line.ofEvent` — an event as text or as a record.  In a text, the characters of a message that make
  a terminal act are written as escapes; other fields stand as they are.
* `Journal.write` — what outputs hold after some events.
* `Journal.opening` — the events of opening the journal: a warning when there is to be a log file and
  it cannot be opened.
-/

namespace RegionTypes.Log

inductive Line where
  | text (s : String)
  /-- A record; no field comes twice. -/
  | record (level : Level) (target : String) (fields : List (String × String))
  deriving DecidableEq, Repr

/-- The ASCII characters that make a terminal act: bell, backspace, form feed, escape and delete. -/
def terminalControls : List Char := ['\x07', '\x08', '\x0c', '\x1b', '\x7f']

/-- A character of a message.  Those that make a terminal act, the second row of control characters
among them, are written as escapes. -/
def messageChar (c : Char) : String :=
  if terminalControls.contains c then
    "\\x" ++ String.ofList (List.replicate (2 - (Text.hex c.toNat).length) '0') ++ Text.hex c.toNat
  else if 0x80 ≤ c.toNat ∧ c.toNat ≤ 0x9f then Text.codeEscape c
  else c.toString

def messageText (s : String) : String := String.join (s.toList.map messageChar)

/-- A field in a line of text: messages stand without their name. -/
def fieldText (field : String × String) : String :=
  if field.1 = "message" then messageText field.2 else field.1 ++ "=" ++ field.2

def Event.text (e : Event) : String :=
  e.level.name ++ " " ++ e.target ++ ": " ++ " ".intercalate (e.fields.map fieldText)

/-- Of fields with one name only the last. -/
def lastFields : List (String × String) → List (String × String)
  | [] => []
  | field :: rest =>
    if rest.any (·.1 == field.1) then lastFields rest else field :: lastFields rest

/-- A line without the carriage return that its end may start with. -/
def lineBody (line : List Char) : String :=
  String.ofList (if line.getLast? = some '\r' then line.dropLast else line)

/-- The lines of a text that a line end follows. -/
def endedLines (s : String) : List String := (s.toList.splitOn '\n').map lineBody

/-- The lines of a text; a line end after the last one does not start another. -/
def textLines (s : String) : List String :=
  let parts := s.toList.splitOn '\n'
  let last := parts.getLast?.getD []
  parts.dropLast.map lineBody ++ if last.isEmpty then [] else [String.ofList last]

def Line.ofEvent (json : Bool) (e : Event) : List Line :=
  if json then [.record e.level e.target (lastFields e.fields)]
  else (endedLines e.text).map .text

structure Journal where
  stderr : List Line
  file : Option (List Line)
  deriving DecidableEq, Repr

namespace Journal

/-- The log file of the settings, if it can be opened. -/
def file? (l : Logging) : Option String := l.file.filter opensForAppending

def opening (l : Logging) (filter : Filter) : List Event :=
  match l.file with
  | some path =>
    if !opensForAppending path && filter.admits .warn configTarget then
      [⟨.warn, configTarget,
        [("message", "failed to open log file; file logging disabled"), ("path", path)]⟩]
    else []
  | none => []

/-- What the outputs hold after some events; `existing` is what the log file held before. -/
def write (l : Logging) (existing : Option String) (events : List Event) : Journal :=
  let lines := events.flatMap (Line.ofEvent l.json)
  { stderr := if l.stderr then lines else []
    file := (file? l).map fun _ => (textLines (existing.getD "")).map .text ++ lines }

/-- Which of several attempts to open the journal succeed: only the first. -/
def attempts (n : Nat) : List Bool := (List.range n).map (· == 0)

end Journal

end RegionTypes.Log

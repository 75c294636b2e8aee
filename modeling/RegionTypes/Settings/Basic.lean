import RegionTypes.Log.Filter
import RegionTypes.Type.Options

/-!
# Settings

How types are rendered and how the program logs.

* `Logging.directives` — the configured level as a filter text.  A plain level may be written in any
  case, with blanks around it, and `warning` for `warn`; anything else is a filter text already.
* `Logging.filterBy` — the filter in force, with whatever reads filters: the configured directives and,
  after them, those of the environment.  A side that cannot be read is left out; when neither can, levels
  up to `info` pass.
* `Logging.filter` — the same with the filters of this program.
-/

namespace RegionTypes

structure Logging where
  /-- A level or a filter text. -/
  level : String := "info"
  json : Bool := false
  stderr : Bool := true
  file : Option String := none
  deriving DecidableEq, Repr

structure Settings where
  display : DisplayOptions := {}
  logging : Logging := {}
  deriving DecidableEq, Repr

namespace Logging

/-- The spellings of plain levels, in lower case, and what they stand for. -/
def plainLevels : List (String × String) :=
  [("trace", "trace"), ("debug", "debug"), ("info", "info"), ("warn", "warn"), ("warning", "warn"),
    ("error", "error")]

def normalize (level : String) : String :=
  let trimmed := Text.trim level
  if trimmed.isEmpty then "info" else (plainLevels.lookup (Text.lower trimmed)).getD trimmed

def directives (l : Logging) : String := normalize l.level

def ownFilter {F : Type} (reader : Log.Reader F) (l : Logging) : F :=
  (reader.read? l.directives).getD reader.fallback

/-- What the environment says about the filter; blanks alone say nothing. -/
def environmentText? (environment : Option String) : Option String :=
  (environment.map Text.trim).filter (! ·.isEmpty)

def filterBy {F : Type} (reader : Log.Reader F) (l : Logging) (environment : Option String) : F :=
  match environmentText? environment with
  | none => l.ownFilter reader
  | some text =>
    ((reader.read? (l.directives ++ "," ++ text)).or (reader.read? text)).getD (l.ownFilter reader)

def filter (l : Logging) (environment : Option String) : Log.Filter := l.filterBy .standard environment

end Logging

end RegionTypes

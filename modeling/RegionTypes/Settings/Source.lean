import RegionTypes.Log.Event
import RegionTypes.Settings.Load

/-!
# Where settings come from

Settings are read from a file in the current directory, and log files are opened there.  Of the
directory it matters only which one file it holds; outside it nothing but directories is known, those
on the way up and the usual ones at the top.

* `Directory.locate` — where a path leads.
* `Directory.read` — the text of the file that a path leads to.
* `opensForAppending` — whether a path names a file that could be made or added to.
* `Settings.ofFile` — the settings in a file.
-/

namespace RegionTypes

/-- The current directory with the one file that it may hold. -/
structure Directory where
  file : Option (String × ByteArray)

inductive Obstacle where
  | missing
  | isDirectory
  /-- The path goes on behind a file. -/
  | notDirectory
  /-- The path or one of its parts is too long. -/
  | tooLong
  /-- The path holds the character that ends paths. -/
  | nul
  /-- The file's bytes are no text. -/
  | notText
  deriving DecidableEq, Repr

def Obstacle.reason : Obstacle → String
  | missing => "No such file or directory (os error 2)"
  | isDirectory => "Is a directory (os error 21)"
  | notDirectory => "Not a directory (os error 20)"
  | tooLong => "File name too long (os error 36)"
  | nul => "file name contained an unexpected NUL byte"
  | notText => "stream did not contain valid UTF-8"

inductive Spot where
  | here
  | top
  | outside
  | file (content : ByteArray)

def pathParts (path : String) : List String := (path.toList.splitOn '/').map String.ofList

/-- The most bytes that a part of a path may have. -/
def longestPart : Nat := 255

def longestPath : Nat := 4095

/-- The directories that are found at the top of every system. -/
def topDirectories : List String :=
  ["bin", "boot", "dev", "etc", "home", "lib", "media", "mnt", "opt", "proc", "root", "run", "sbin",
    "srv", "sys", "tmp", "usr", "var"]

/-- What is wrong with a path before it is followed at all. -/
def pathObstacle? (path : String) : Option Obstacle :=
  if path.toList.contains '\x00' then some .nul
  else if path.utf8ByteSize > longestPath then some .tooLong
  else if path.isEmpty then some .missing
  else none

namespace Directory

def find (d : Directory) (spot : Spot) (name : String) : Except Obstacle Spot :=
  match spot, d.file with
  | .here, some (file, content) => if file = name then .ok (.file content) else .error .missing
  | .top, _ => if topDirectories.contains name then .ok .outside else .error .missing
  | _, _ => .error .missing

def step (d : Directory) (spot : Spot) (part : String) : Except Obstacle Spot :=
  match spot with
  | .file _ => .error .notDirectory
  | _ =>
    if part = "" ∨ part = "." then .ok spot
    else if part = ".." then
      match spot with
      | .top => .ok .top
      | _ => .ok .outside
    else if part.utf8ByteSize > longestPart then .error .tooLong
    else d.find spot part

/-- Where a path starts: a slash in front leads to the top. -/
def origin (path : String) : Spot := if path.toList.head? = some '/' then .top else .here

def locate (d : Directory) (path : String) : Except Obstacle Spot :=
  match pathObstacle? path with
  | some obstacle => .error obstacle
  | none => (pathParts path).foldlM d.step (origin path)

def read (d : Directory) (path : String) : Except Obstacle String :=
  match d.locate path with
  | .error obstacle => .error obstacle
  | .ok (.file content) =>
    match String.fromUTF8? content with
    | some text => .ok text
    | none => .error .notText
  | .ok _ => .error .isDirectory

end Directory

/-- Whether a path names a file that could be made or added to: its directory is there, and in it the
last name is free for a file. -/
def opensForAppending (path : String) : Bool :=
  let d : Directory := ⟨none⟩
  let parts := pathParts path
  match pathObstacle? path, parts.dropLast.foldlM d.step (Directory.origin path) with
  | none, .ok spot =>
    match d.step spot (parts.getLast?.getD "") with
    | .error .missing => true
    | _ => false
  | _, _ => false

namespace Settings

def ofFile (d : Directory) (path : String) : Except LoadError Settings :=
  match d.read path with
  | .error obstacle => .error (.unreadable path obstacle.reason)
  | .ok text => ofText text

/-- The events of loading settings from a file: success is reported, with the path. -/
def loadEvents (path : String) : Except LoadError Settings → List Log.Event
  | .ok _ => [⟨.debug, Log.configTarget, [("message", "loaded config"), ("path", path)]⟩]
  | .error _ => []

end Settings

end RegionTypes

/-!
# Readers

A reader takes something off the front of a list of characters or fails.  After a failure the next
alternative starts where the failed one started.

* `many` — as often as possible; each round has to take something off, so it ends.
* `sepBy` — things with separators between them.
-/

namespace RegionTypes.Toml

/-- Takes something off the front of the characters, or fails. -/
abbrev Reader := StateT (List Char) Option

namespace Reader

variable {α : Type}

/-- The next character, which stays where it is. -/
def peek : Reader Char := fun cs =>
  match cs with
  | c :: _ => some (c, cs)
  | [] => none

def satisfy (p : Char → Bool) : Reader Char := fun cs =>
  match cs with
  | c :: rest => if p c then some (c, rest) else none
  | [] => none

def char (c : Char) : Reader Unit := discard (satisfy (· == c))

def chars (expected : List Char) : Reader Unit := expected.forM char

def exactly (n : Nat) (p : Char → Bool) : Reader (List Char) :=
  (List.replicate n ()).mapM fun _ => satisfy p

/-- All characters of a class up to the first other one. -/
def takeWhile (p : Char → Bool) : Reader (List Char) := fun cs =>
  some (cs.takeWhile p, cs.dropWhile p)

/-- The same, at least one. -/
def takeWhile1 (p : Char → Bool) : Reader (List Char) := do
  let first ← satisfy p
  return first :: (← takeWhile p)

def atEnd : Reader Unit := fun cs => if cs.isEmpty then some ((), cs) else none

/-- Nothing, if the reader would succeed here. -/
def ahead (r : Reader α) : Reader Unit := fun cs => (r cs).map fun _ => ((), cs)

/-- What a reader takes off in as many rounds as possible, and what is left. -/
def repeated (r : Reader α) (cs : List Char) : List α × List Char :=
  match r cs with
  | none => ([], cs)
  | some (a, rest) =>
    if _h : rest.length < cs.length then
      let (more, left) := repeated r rest
      (a :: more, left)
    else ([], cs)
termination_by cs.length

def many (r : Reader α) : Reader (List α) := fun cs => some (repeated r cs)

/-- At least one thing, with separators between them. -/
def sepBy1 (r : Reader α) (sep : Reader Unit) : Reader (List α) := do
  let first ← r
  return first :: (← many (sep *> r))

def sepBy (r : Reader α) (sep : Reader Unit) : Reader (List α) := sepBy1 r sep <|> pure []

end Reader

end RegionTypes.Toml

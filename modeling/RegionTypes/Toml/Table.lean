import RegionTypes.Toml.Value

/-!
# Building tables

The lines of a document add to its tables.  A table is complete when its braces close, and a header
may name a table only once; what is defined twice is refused.

* `descend` — changes the table that a key leads to, making the tables on the way.
* `assign` — gives a value to a dotted key.
* `Draft` — a document of which the lines up to some point were read: the table of the latest header
  is still outside the others, and goes to the end of the table around it when the next header comes.
-/

namespace RegionTypes.Toml

/-- Replaces the value of a key that is there. -/
def replace (name : String) (v : Value) (entries : Entries) : Entries :=
  entries.map fun entry => if entry.1 == name then (name, v) else entry

def updateLast (f : Form → Entries → Option Entries) :
    List Entries → Option (List Entries)
  | [] => none
  | [last] => do return [← f .header last]
  | first :: rest => do return first :: (← updateLast f rest)

/-- Changes the table at the end of a path.  Missing tables on the way are made in the form `made`;
a path of a dotted key does not lead through a table with a header of its own, and no path leads
through any other value. -/
def descend (made : Form) (f : Form → Entries → Option Entries) :
    List String → Form → Entries → Option Entries
  | [], form, entries => f form entries
  | name :: path, _, entries =>
    match entries.lookup name with
    | none => do return entries ++ [(name, .table made (← descend made f path made []))]
    | some (.table .inline _) => none
    | some (.table form inner) =>
      if made = .dotted ∧ form = .header then none
      else do return replace name (.table form (← descend made f path form inner)) entries
    | some (.tables items) => do
      return replace name (.tables (← updateLast (descend made f path) items)) entries
    | some _ => none

/-- Adds an entry whose key must be new. -/
def add (name : String) (v : Value) (entries : Entries) : Option Entries :=
  match entries.lookup name with
  | none => some (entries ++ [(name, v)])
  | some _ => none

/-- Gives a value to a dotted key.  The tables on its way must have come from dotted keys too. -/
def assign (path : List String) (name : String) (v : Value) (entries : Entries) : Option Entries :=
  descend .dotted
    (fun form inner => if form = .dotted ∨ path.isEmpty then add name v inner else none)
    path .header entries

structure Assignment where
  /-- All parts of the key but the last. -/
  path : List String
  name : String
  value : Value

def Assignment.apply (entries : Entries) (a : Assignment) : Option Entries :=
  assign a.path a.name a.value entries

def inlineTable (assignments : List Assignment) : Option Value := do
  return .table .inline (← assignments.foldlM Assignment.apply [])

/-! ### Documents -/

/-- A line of a document that says something. -/
inductive Line where
  | assignment (a : Assignment)
  | header (path : List String) (name : String)
  /-- The header of a further table of an array. -/
  | itemHeader (path : List String) (name : String)

/-- Where the table of the latest header belongs. -/
inductive Place where
  | top
  | table (path : List String) (name : String)
  | item (path : List String) (name : String)

/-- A document of which some lines were read. -/
structure Draft where
  /-- The document without the current table. -/
  root : Entries
  current : Entries
  place : Place

namespace Draft

def start : Draft := ⟨[], [], .top⟩

def addItem (name : String) (item : List Entries) (entries : Entries) : Option Entries :=
  match entries.lookup name with
  | none => some (entries ++ [(name, .tables item)])
  | some (.tables items) => some (replace name (.tables (items ++ item)) entries)
  | some _ => none

/-- The whole document, with the current table put in its place. -/
def close (d : Draft) : Option Entries :=
  match d.place with
  | .top => some d.current
  | .table path name =>
    descend .implied (fun _ inner => add name (.table .header d.current) inner) path .header d.root
  | .item path name =>
    descend .implied (fun _ inner => addItem name [d.current] inner) path .header d.root

/-- What a header finds under its name: nothing, or a table that only longer headers have named. -/
def existing? (name : String) (entries : Entries) : Option Entries :=
  match entries.lookup name with
  | none => some []
  | some (.table .implied inner) => some inner
  | some _ => none

/-- The entries that the table of a new header starts with. -/
def found : List String → String → Entries → Option Entries
  | [], name, entries => existing? name entries
  | step :: path, name, entries =>
    match entries.lookup step with
    | none => some []
    | some (.table _ inner) => found path name inner
    | some (.tables items) => found path name (items.getLast?.getD [])
    | some _ => none

def next (d : Draft) : Line → Option Draft
  | .assignment a => do return { d with current := ← a.apply d.current }
  | .header path name => do
    let root ← d.close
    let current ← found path name root
    let root ← descend .implied (fun _ inner => some (inner.filter (·.1 != name))) path .header root
    return ⟨root, current, .table path name⟩
  | .itemHeader path name => do
    let root ← d.close
    let root ← descend .implied (fun _ inner => addItem name [] inner) path .header root
    return ⟨root, [], .item path name⟩

end Draft

def ofLines (lines : List Line) : Option Entries := do
  (← lines.foldlM Draft.next Draft.start).close

end RegionTypes.Toml

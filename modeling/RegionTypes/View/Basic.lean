/-!
# Array views

A **view** is a window on a contiguous run of cells of an array.  Indices are relative to the start
of the window and are checked against its length, even when they would be in bounds for the array.

* `View.get`, `View.put`, `View.swap` — access to single cells; a refused access changes nothing.
* `View.sub`, `View.splitAt` — narrower views, which remember where they start in the whole array.
* `View.replace` — a narrower view's cells put back in their place.
-/

namespace RegionTypes

inductive ViewError where
  | index (index length : Nat)
  /-- The range does not lie inside the view. -/
  | range (start length bound : Nat)
  deriving DecidableEq, Repr

def ViewError.message : ViewError → String
  | .index i n => s!"index {i} out of bounds for slice of length {n}"
  | .range s n b => s!"range {s}..{s}+{n} out of bounds for slice of length {b}"

/-- A window on an array: where it starts and the cells it covers. -/
structure View (α : Type) where
  start : Nat
  cells : List α
  deriving DecidableEq, Repr

namespace View

variable {α : Type}

def whole (cells : List α) : View α := ⟨0, cells⟩

def length (v : View α) : Nat := v.cells.length

def isEmpty (v : View α) : Bool := v.cells.isEmpty

def get (v : View α) (i : Nat) : Except ViewError α :=
  match v.cells[i]? with
  | some a => .ok a
  | none => .error (.index i v.length)

/-- Replaces the cell at an index; gives its previous value and the new view. -/
def put (v : View α) (i : Nat) (a : α) : Except ViewError (α × View α) :=
  match v.get i with
  | .ok old => .ok (old, { v with cells := v.cells.set i a })
  | .error e => .error e

/-- Exchanges two cells.  The first index is checked first. -/
def swap (v : View α) (i j : Nat) : Except ViewError (View α) :=
  match v.get i, v.get j with
  | .ok a, .ok b => .ok { v with cells := (v.cells.set i b).set j a }
  | .error e, _ => .error e
  | .ok _, .error e => .error e

def reverse (v : View α) : View α := { v with cells := v.cells.reverse }

/-- The view of `length` cells from `start` on.  The sum is exact, so no range can wrap around. -/
def sub (v : View α) (start length : Nat) : Except ViewError (View α) :=
  if start + length ≤ v.length then .ok ⟨v.start + start, (v.cells.drop start).take length⟩
  else .error (.range start length v.length)

/-- Two adjoining views that meet at `mid`. -/
def splitAt (v : View α) (mid : Nat) : Except ViewError (View α × View α) :=
  if mid ≤ v.length then
    .ok (⟨v.start, v.cells.take mid⟩, ⟨v.start + mid, v.cells.drop mid⟩)
  else .error (.range 0 mid v.length)

/-- The view with its cells from `offset` on replaced by those of a narrower view. -/
def replace (v : View α) (offset : Nat) (w : View α) : View α :=
  { v with cells := v.cells.take offset ++ w.cells ++ v.cells.drop (offset + w.length) }

structure CellFormat (α : Type) where
  plain : α → String
  /-- The cell inside a list, with quotes where it needs them. -/
  quoted : α → String

def text (fmt : CellFormat α) (v : View α) : String := " ".intercalate (v.cells.map fmt.plain)

/-- The cells and the start of the window, field by field. -/
def describe (fmt : CellFormat α) (v : View α) : String :=
  "ArraySlice \x7b elts: [" ++ ", ".intercalate (v.cells.map fmt.quoted) ++ "], start: " ++
    toString v.start ++ " \x7d"

end View

end RegionTypes

import RegionTypes.View.Basic
import RegionTypes.Text.Quoted

/-!
# Programs on array views

A program is a list of operations on a view; `sub` and `split` run whole programs on narrower views
and then put the cells back.

* `ViewOp.run`, `ViewOp.runAll` — each operation gives a step and the view after it; a refused
  operation leaves the view as it was and does not stop the program.
-/

namespace RegionTypes

inductive ViewOp (α : Type) where
  | get (i : Nat)
  | put (i : Nat) (value : α)
  | swap (i j : Nat)
  | info
  | describe
  | reverse
  /-- Runs a program on a narrower view. -/
  | sub (start length : Nat) (body : List (ViewOp α))
  /-- Splits the view and runs a program on each half, the left one first. -/
  | split (mid : Nat) (left right : List (ViewOp α))

inductive ViewAnswer (α : Type) where
  /-- A cell's value, read or replaced. -/
  | cell (value : α)
  | done
  | info (start length : Nat) (isEmpty : Bool) (text : String)
  | description (text : String)
  /-- The bounds of the narrower view and the steps of the program run on it. -/
  | sub (start length : Nat) (steps : List (Except ViewError (ViewAnswer α × List α)))
  /-- Whether the halves agreed at first, their bounds, and the steps of their programs. -/
  | split (equal : Bool) (starts lengths : Nat × Nat)
      (left right : List (Except ViewError (ViewAnswer α × List α)))

/-- A step of a program: a refusal, or an answer with the view's cells after it. -/
abbrev ViewStep (α : Type) := Except ViewError (ViewAnswer α × List α)

namespace ViewOp

variable {α : Type} [DecidableEq α]

def succeed (answer : ViewAnswer α) (v : View α) : ViewStep α × View α :=
  (.ok (answer, v.cells), v)

mutual

def run (fmt : View.CellFormat α) : ViewOp α → View α → ViewStep α × View α
  | get i, v =>
    match v.get i with
    | .ok a => succeed (.cell a) v
    | .error e => (.error e, v)
  | put i a, v =>
    match v.put i a with
    | .ok (old, w) => succeed (.cell old) w
    | .error e => (.error e, v)
  | swap i j, v =>
    match v.swap i j with
    | .ok w => succeed .done w
    | .error e => (.error e, v)
  | info, v => succeed (.info v.start v.length v.isEmpty (v.text fmt)) v
  | describe, v => succeed (.description (v.describe fmt)) v
  | reverse, v => succeed .done v.reverse
  | sub start length body, v =>
    match v.sub start length with
    | .ok w =>
      let (steps, w') := runAll fmt body w
      succeed (.sub w.start w.length steps) (v.replace start w')
    | .error e => (.error e, v)
  | split mid left right, v =>
    match v.splitAt mid with
    | .ok (l, r) =>
      let (leftSteps, l') := runAll fmt left l
      let (rightSteps, r') := runAll fmt right r
      succeed (.split (l == r) (l.start, r.start) (l.length, r.length) leftSteps rightSteps)
        { v with cells := l'.cells ++ r'.cells }
    | .error e => (.error e, v)

def runAll (fmt : View.CellFormat α) : List (ViewOp α) → View α → List (ViewStep α) × View α
  | [], v => ([], v)
  | op :: ops, v =>
    let (step, v') := run fmt op v
    let (steps, v'') := runAll fmt ops v'
    (step :: steps, v'')

end

end ViewOp

/-- A cell of an array of numbers or of texts. -/
inductive Cell where
  | number (value : Int)
  | text (value : String)
  deriving DecidableEq, Repr

/-- Numbers in decimal; texts as they are, or quoted inside a list. -/
def Cell.format : View.CellFormat Cell where
  plain
    | .number n => toString n
    | .text s => s
  quoted
    | .number n => toString n
    | .text s => Text.quoted s

end RegionTypes

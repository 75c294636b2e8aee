import RegionTypes.Store.Session

/-!
# Structural equality

Arrays are compared by their elements and methods by their parameters and results; any other type
equals itself only.  Nothing is loaded.

* `typesEqual` — the comparison.
* `typeHash` — a 32-bit number that equal types share.
* `keyReport` — types as keys of a table under this equality.
-/

namespace RegionTypes

open Run

/-- Whether a condition holds of all pairs of two lists of equal length. -/
def allPairsM (p : TypeId → TypeId → Run Bool) : List TypeId → List TypeId → Run Bool
  | [], [] => return true
  | a :: as, b :: bs => do if ← p a b then allPairsM p as bs else return false
  | _, _ => return false

def typesEqual : Nat → TypeId → TypeId → Run Bool
  | 0, _, _ => tooDeep
  | depth + 1, a, b => do
    if a = b then return true
    else
      let left ← kindOf a
      let right ← kindOf b
      match left, right with
      | .array x, .array y => typesEqual depth x.elem y.elem
      | .method x, .method y =>
        if x.params.length ≠ y.params.length then return false
        else if ← allPairsM (typesEqual depth) x.params y.params then
          typesEqual depth x.result y.result
        else return false
      | _, _ => return false

def mixHash (hash part : UInt32) : UInt32 := (hash <<< 5) + part

/-- A number that structurally equal types share. -/
def typeHash : Nat → TypeId → Run UInt32
  | 0, _ => tooDeep
  | depth + 1, ty => do
    match ← kindOf ty with
    | .array info =>
      return mixHash (UInt32.ofNat Tag.array.number) (← typeHash depth info.elem)
    | .method info =>
      let hash ← info.params.foldlM (fun hash param => do return mixHash hash (← typeHash depth param))
        (UInt32.ofNat Tag.method.number)
      return mixHash hash (← typeHash depth info.result)
    | _ => return UInt32.ofNat ty.index

/-- The position of the first type of a list that equals the given one; the length of the list if
there is none. -/
def firstEqual (depth : Nat) (ty : TypeId) : List TypeId → Run Nat
  | [] => return 0
  | candidate :: rest => do
    if ← typesEqual depth candidate ty then return 0
    else return (← firstEqual depth ty rest) + 1

/-- The types as keys: how many differ, and where each first occurs. -/
def keyReport (depth : Nat) (types : List TypeId) : Run KeyReport := do
  let _ ← types.mapM (typeHash depth)
  let first ← types.mapM fun ty => firstEqual depth ty types
  return ⟨types, first.eraseDups.length, first⟩

end RegionTypes

import RegionTypes.Effect.Summary
import RegionTypes.Serial.Value

/-!
# Serial forms of regions and effects

* `ofPath`, `path?` — a region path is a record with the one field `elements`.
* `ofSummary`, `summary?` — an effect summary is a record with the one field `set`; the effects may
  come in any order and more than once.

Writing chooses one spelling; reading accepts all of them.
-/

namespace RegionTypes.Serial

/-! ### Writing -/

def ofElement : Element → Value
  | .root => .text "Root"
  | .star => .text "Star"
  | .name s => .object [("Name", .text s)]
  | .param s => .object [("Param", .text s)]
  | .var s => .object [("Var", .text s)]
  | .index s => .object [("Index", .text s)]

def ofPath (p : Path) : Value := .object [("elements", .list (p.elements.map ofElement))]

def ofEffect : Effect → Value
  | .read p => .object [("Read", ofPath p)]
  | .write p => .object [("Write", ofPath p)]
  | .var s => .object [("Variable", .text s)]

def ofSummary (s : Summary) : Value := .object [("set", .list (s.toList.map ofEffect))]

/-! ### Reading -/

def element? (v : Value) : Option Element :=
  match variant? v with
  | some ("Root", carried) => if isBare carried then some .root else none
  | some ("Star", carried) => if isBare carried then some .star else none
  | some ("Name", carried) => (carriedText? carried).map .name
  | some ("Param", carried) => (carriedText? carried).map .param
  | some ("Var", carried) => (carriedText? carried).map .var
  | some ("Index", carried) => (carriedText? carried).map .index
  | _ => none

/-- Reads a path.  It may come without any element. -/
def path? (v : Value) : Option Path := do
  let items ← items? (← onlyField? "elements" v)
  return ⟨← items.mapM element?⟩

def effect? (v : Value) : Option Effect :=
  match variant? v with
  | some ("Read", some carried) => (path? carried).map .read
  | some ("Write", some carried) => (path? carried).map .write
  | some ("Variable", carried) => (carriedText? carried).map .var
  | _ => none

def summary? (v : Value) : Option Summary := do
  let items ← items? (← onlyField? "set" v)
  return Summary.ofList (← items.mapM effect?)

end RegionTypes.Serial

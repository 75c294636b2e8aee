/-!
# Serial values

The data that regions, effects and options are stored as: numbers, texts, lists and objects.

Two shapes of data are read in more than one spelling.

* `fields` — a record is an object, whose unknown keys are ignored, or the list of its fields in
  order.
* `variant?` — one of several alternatives is the text of its name, or an object whose only key is
  its name and whose value is what it carries.
-/

namespace RegionTypes.Serial

inductive Value where
  | null
  | bool (b : Bool)
  | number (n : Int)
  | text (s : String)
  | list (items : List Value)
  | object (entries : List (String × Value))
  deriving Inhabited

/-- The fields of a record with the given names, nothing for those left out.  A list with more items
than there are fields is no record. -/
def fields (names : List String) : Value → Option (List (Option Value))
  | .object entries => some (names.map fun name => entries.lookup name)
  | .list items =>
    if items.length ≤ names.length then
      some (items.map some ++ List.replicate (names.length - items.length) none)
    else none
  | _ => none

def onlyField? (name : String) (v : Value) : Option Value :=
  match fields [name] v with
  | some [some value] => some value
  | _ => none

def variant? : Value → Option (String × Option Value)
  | .text name => some (name, none)
  | .object [(name, value)] => some (name, some value)
  | _ => none

/-- Whether an alternative that carries nothing was written as one. -/
def isBare : Option Value → Bool
  | none | some .null => true
  | some _ => false

def carriedText? : Option Value → Option String
  | some (.text s) => some s
  | _ => none

def items? : Value → Option (List Value)
  | .list items => some items
  | _ => none

end RegionTypes.Serial

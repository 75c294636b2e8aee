/-!
# TOML values

A TOML document is a table.  How a table came into being decides whether later lines may add to it,
so it is kept with the table.

* `Form` — how a table was written.
* `Value.items?`, `Value.entries?` — the two ways to look into a value.
-/

namespace RegionTypes.Toml

inductive Form where
  /-- Between braces: complete once it is closed. -/
  | inline
  /-- Under a header of its own. -/
  | header
  /-- Only as a part of a longer header. -/
  | implied
  | dotted
  deriving DecidableEq, Repr

inductive Value where
  | text (s : String)
  | integer (n : Int)
  /-- A 64-bit floating-point word. -/
  | float (word : UInt64)
  | boolean (b : Bool)
  | moment
  | list (items : List Value)
  | table (form : Form) (entries : List (String × Value))
  | tables (items : List (List (String × Value)))

/-- The entries of a table in order of coming. -/
abbrev Entries := List (String × Value)

namespace Value

/-- The items of a list or of an array of tables. -/
def items? : Value → Option (List Value)
  | list items => some items
  | tables items => some (items.map (table .header))
  | _ => none

def entries? : Value → Option Entries
  | table _ entries => some entries
  | _ => none

end Value

end RegionTypes.Toml

import RegionTypes.Serial.Value
import RegionTypes.Type.Kind
import RegionTypes.Type.Options

/-!
# Serial forms of display options and primitive types

Display options may leave out fields, which then keep their defaults.
-/

namespace RegionTypes.Serial

def ofOptions (o : DisplayOptions) : Value :=
  .object [("verbose", .bool o.verbose), ("print_regions", .bool o.printRegions)]

def flag? (otherwise : Bool) : Option Value → Option Bool
  | none => some otherwise
  | some (.bool b) => some b
  | some _ => none

def options? (v : Value) : Option DisplayOptions :=
  match fields ["verbose", "print_regions"] v with
  | some [verbose, regions] => do return ⟨← flag? false verbose, ← flag? false regions⟩
  | _ => none

def primitiveName : Primitive → String
  | .byte => "Byte"
  | .char => "Char"
  | .short => "Short"
  | .int => "Int"
  | .long => "Long"
  | .float => "Float"
  | .double => "Double"
  | .boolean => "Boolean"

def primitives : List Primitive :=
  [.byte, .char, .short, .int, .long, .float, .double, .boolean]

def ofPrimitive (p : Primitive) : Value := .text (primitiveName p)

def primitive? (v : Value) : Option Primitive :=
  match variant? v with
  | some (name, carried) =>
    if isBare carried then primitives.find? fun p => primitiveName p == name else none
  | none => none

end RegionTypes.Serial

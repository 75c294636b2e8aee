/-!
# Symbol flags

The modifiers of a declaration and the compiler's own marks, each with its bit.
-/

namespace RegionTypes

/-- A modifier or mark. -/
inductive Flag where
  | publicAccess | privateAccess | protectedAccess | static | final | interface | abstract
  /-- A class that stands for an intersection of bounds. -/
  | compound
  /-- The supertypes were checked for cycles. -/
  | acyclic
  deriving DecidableEq, Repr

namespace Flag

def bit : Flag → Nat
  | publicAccess => 0
  | privateAccess => 1
  | protectedAccess => 2
  | static => 3
  | final => 4
  | interface => 9
  | abstract => 10
  | compound => 24
  | acyclic => 27

def name : Flag → String
  | publicAccess => "PUBLIC"
  | privateAccess => "PRIVATE"
  | protectedAccess => "PROTECTED"
  | static => "STATIC"
  | final => "FINAL"
  | interface => "INTERFACE"
  | abstract => "ABSTRACT"
  | compound => "COMPOUND"
  | acyclic => "ACYCLIC"

def all : List Flag :=
  [publicAccess, privateAccess, protectedAccess, static, final, interface, abstract, compound,
    acyclic]

end Flag

structure Flags where
  bits : Nat
  deriving DecidableEq, Repr

namespace Flags

def none : Flags := ⟨0⟩

def ofList (fs : List Flag) : Flags := ⟨fs.foldl (fun bits f => bits ||| 1 <<< f.bit) 0⟩

def has (fs : Flags) (f : Flag) : Bool := fs.bits.testBit f.bit

/-- The flags of symbols that stand for what could not be resolved. -/
def synthetic : Flags := ofList [.publicAccess, .static, .acyclic]

def describe (fs : Flags) : String :=
  let names := (Flag.all.filter fs.has).map Flag.name
  "SymbolFlags(" ++ (if names.isEmpty then "0x0" else " | ".intercalate names) ++ ")"

end Flags

end RegionTypes

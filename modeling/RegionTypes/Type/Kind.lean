import RegionTypes.Effect.Summary
import RegionTypes.Type.Handle
import RegionTypes.Type.Literal

/-!
# Types as recorded

The data behind a type handle.  What is fixed at construction and what is filled in later stand in
the same record; the later part is an `Option` that goes from `none` to `some` at most once.

* `ClassInfo` — a class or interface type: the argument lists, the supertypes, and the caches of
  what is derived from them.
* `VarInfo` — a type variable.  A copy of a declared variable has no bound of its own and reads the
  bound of its prototype.
* `PlaceholderInfo` — a variable of type inference, whose bounds only grow.
* `Kind` — the variants, and `TypeData` — a variant with its symbol, erasure flag and literal.
-/

namespace RegionTypes

inductive Primitive where
  | byte | char | short | int | long | float | double | boolean
  deriving DecidableEq, Repr

def Primitive.name : Primitive → String
  | byte => "byte"
  | char => "char"
  | short => "short"
  | int => "int"
  | long => "long"
  | float => "float"
  | double => "double"
  | boolean => "boolean"

/-- The discriminant of a type.  The primitive ones come first. -/
inductive Tag where
  | byte | char | short | int | long | float | double | boolean
  | void | classType | array | method | package | typeVar | wildcard | forAll
  | bottom | missing | error | placeholder
  deriving DecidableEq, Repr

namespace Tag

def number : Tag → Nat
  | byte => 1
  | char => 2
  | short => 3
  | int => 4
  | long => 5
  | float => 6
  | double => 7
  | boolean => 8
  | void => 9
  | classType => 10
  | array => 11
  | method => 12
  | package => 13
  | typeVar => 14
  | wildcard => 15
  | forAll => 16
  | bottom => 17
  | missing => 18
  | error => 19
  | placeholder => 20

def isPrimitive (t : Tag) : Bool := t.number < void.number

end Tag

def Primitive.tag : Primitive → Tag
  | byte => .byte
  | char => .char
  | short => .short
  | int => .int
  | long => .long
  | float => .float
  | double => .double
  | boolean => .boolean

/-- The kinds of type that a language model tells apart. -/
inductive ModelKind where
  | primitive (p : Primitive)
  | void | null | none | declared | error | array | executable | package | typeVar | wildcard | other
  deriving DecidableEq, Repr

/-- A class or interface type.  The argument lists and the supertypes are either given at
construction or filled in when the class is loaded; the rest is derived on demand. -/
structure ClassInfo where
  /-- The enclosing type; the missing type for a top-level class. -/
  outer : TypeId
  typeArgs : Option (List TypeId) := none
  regionArgs : Option (List Path) := none
  effectArgs : Option (List Summary) := none
  supertype : Option TypeId := none
  interfaces : Option (List TypeId) := none
  cellType : Option TypeId := none
  /-- The region arguments with omitted ones filled in. -/
  resolvedRegions : Option (List Path) := none
  allTypeParams : Option (List TypeId) := none
  allRegionParams : Option (List Path) := none
  allEffectParams : Option (List Summary) := none
  deriving DecidableEq, Repr

/-- An array type with the region of its cells and the variable that stands for the index. -/
structure ArrayInfo where
  elem : TypeId
  region : Path
  indexVar : Option SymbolId
  deriving DecidableEq, Repr

structure CallActuals where
  types : List TypeId := []
  regions : List Path := []
  effects : List Summary := []
  deriving DecidableEq, Repr

structure MethodInfo where
  params : List TypeId
  result : TypeId
  thrown : List TypeId
  actuals : Option CallActuals := none
  deriving DecidableEq, Repr

structure ForAllInfo where
  typeVars : List TypeId
  regionVars : List Path
  effectVars : List Summary
  body : TypeId
  deriving DecidableEq, Repr

structure VarInfo where
  bound : Option TypeId := none
  lower : TypeId
  regionParams : List Path := []
  regionArgs : List Path := []
  /-- The declared variable that this one is an occurrence of. -/
  prototype : Option TypeId := none
  deriving DecidableEq, Repr

inductive BoundKind where
  | upper
  | lower
  | unbounded
  deriving DecidableEq, Repr

structure WildcardInfo where
  bound : TypeId
  kind : BoundKind
  /-- The type parameter that the wildcard is an argument for. -/
  formal : Option TypeId
  deriving DecidableEq, Repr

structure PlaceholderInfo where
  origin : TypeId
  lowerBounds : List TypeId := []
  upperBounds : List TypeId := []
  solution : Option TypeId := none
  deriving DecidableEq, Repr

inductive Kind where
  | primitive (p : Primitive)
  | void
  | missing
  | bottom
  | package
  | classType (info : ClassInfo)
  /-- Stands for a type that could not be made out. -/
  | error (outer : TypeId)
  | array (info : ArrayInfo)
  | method (info : MethodInfo)
  | forAll (info : ForAllInfo)
  | typeVar (info : VarInfo)
  /-- A fresh variable that stands for a wildcard. -/
  | captured (info : VarInfo) (wildcard : TypeId)
  | wildcard (info : WildcardInfo)
  | placeholder (info : PlaceholderInfo)
  deriving DecidableEq, Repr

namespace Kind

/-- The discriminant of a variant; captured variables count as type variables. -/
def tag : Kind → Tag
  | primitive p => p.tag
  | void => .void
  | missing => .missing
  | bottom => .bottom
  | package => .package
  | classType _ => .classType
  | error _ => .error
  | array _ => .array
  | method _ => .method
  | forAll _ => .forAll
  | typeVar _ | captured .. => .typeVar
  | wildcard _ => .wildcard
  | placeholder _ => .placeholder

def model : Kind → ModelKind
  | primitive p => .primitive p
  | void => .void
  | missing => .none
  | bottom => .null
  | package => .package
  | classType _ => .declared
  | error _ => .error
  | array _ => .array
  | method _ | forAll _ => .executable
  | typeVar _ | captured .. => .typeVar
  | wildcard _ => .wildcard
  | placeholder _ => .other

def class? : Kind → Option ClassInfo
  | classType info => some info
  | _ => none

/-- The variable data of a type variable, captured or not. -/
def var? : Kind → Option VarInfo
  | typeVar info | captured info _ => some info
  | _ => none

/-- The method data of a method type. -/
def method? : Kind → Option MethodInfo
  | method info => some info
  | _ => none

/-- What a quantified type leads to. -/
def body? : Kind → Option TypeId
  | forAll info => some info.body
  | _ => none

/-- What a quantified type or a placeholder leads to. -/
def leadsTo : Kind → Option TypeId
  | forAll info => some info.body
  | placeholder info => some info.origin
  | _ => none

def mapClass (f : ClassInfo → ClassInfo) : Kind → Kind
  | classType info => classType (f info)
  | k => k

def mapMethod (f : MethodInfo → MethodInfo) : Kind → Kind
  | method info => method (f info)
  | k => k

def mapVar (f : VarInfo → VarInfo) : Kind → Kind
  | typeVar info => typeVar (f info)
  | captured info w => captured (f info) w
  | k => k

def mapWildcard (f : WildcardInfo → WildcardInfo) : Kind → Kind
  | wildcard info => wildcard (f info)
  | k => k

def mapPlaceholder (f : PlaceholderInfo → PlaceholderInfo) : Kind → Kind
  | placeholder info => placeholder (f info)
  | k => k

end Kind

/-- A type as it stands in the store. -/
structure TypeData where
  symbol : Option SymbolId
  /-- Region and effect information was stripped. -/
  erased : Bool := false
  literal : Option Literal := none
  kind : Kind
  deriving DecidableEq

/-- The region arguments a type variable is used with: its parameters when none are given. -/
def VarInfo.regions (v : VarInfo) : List Path :=
  if v.regionArgs.isEmpty then v.regionParams else v.regionArgs

end RegionTypes

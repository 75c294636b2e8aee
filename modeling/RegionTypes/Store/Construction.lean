import RegionTypes.Store.Mapping
import RegionTypes.Store.Rendering

/-!
# Construction

Declaring symbols and making types.

* `declareClass`, `declarePackage`, `newTypeVar`, `captured` — a symbol together with its type.
* `damage` — turns a class symbol into one that could not be loaded: its type becomes an error type,
  its members are forgotten and its completer is dropped.
* `constType` — the type of a literal.  Only primitive types and class types carry literals; the type
  of `null` and error types stay as they are.
-/

namespace RegionTypes

open Run

def newSymbol (kind : SymbolKind) (name : String) (owner : Option SymbolId) (flags : Flags) :
    Run SymbolId :=
  pushSymbol { name, owner, kind, flags }

def attachType (sym : SymbolId) (ty : TypeId) : Run Unit :=
  updateSymbol sym fun s => { s with type := some ty }

/-- Declares a class.  Its lists and supertypes stay unset until they are defined. -/
def declareClass (name : String) (owner : Option SymbolId) (flags : Flags)
    (outer : Option TypeId) : Run SymbolId := do
  let sym ← newSymbol .type name owner flags
  let ty ← pushType
    { symbol := some sym, kind := .classType { outer := outer.getD WellKnown.missing } }
  attachType sym ty
  return sym

def declarePackage (name : String) (owner : Option SymbolId) : Run SymbolId := do
  let sym ← newSymbol .package name owner .none
  let ty ← pushType { symbol := some sym, kind := .package }
  attachType sym ty
  return sym

/-- A class type as written at a use site. -/
structure ClassUse where
  outer : Option TypeId := none
  typeArgs : List TypeId := []
  regionArgs : List Path := []
  effectArgs : List Summary := []
  cellType : Option TypeId := none
  erased : Bool := false

def useClass (sym : SymbolId) (use : ClassUse) : Run TypeId :=
  pushType
    { symbol := some sym
      erased := use.erased
      kind := .classType
        { outer := use.outer.getD WellKnown.missing
          typeArgs := some use.typeArgs
          regionArgs := some use.regionArgs
          effectArgs := some use.effectArgs
          cellType := use.cellType } }

def arrayType (elem : TypeId) (region : Option Path) (indexVar : Option SymbolId) : Run TypeId :=
  pushType { symbol := none, kind := .array ⟨elem, region.getD Path.root, indexVar⟩ }

def methodType (params : List TypeId) (result : TypeId) (thrown : List TypeId) : Run TypeId :=
  pushType { symbol := none, kind := .method { params, result, thrown } }

def typeVar (sym : SymbolId) (info : VarInfo) : Run TypeId :=
  pushType { symbol := some sym, kind := .typeVar info }

/-- Declares a type variable.  Its bound is set later. -/
def newTypeVar (name : String) (owner : Option SymbolId) (lower : TypeId) : Run TypeId := do
  let sym ← newSymbol .type name owner .none
  let ty ← typeVar sym { lower }
  attachType sym ty
  return ty

/-- Allocates another occurrence of a declared type variable, with region arguments of its own. -/
def copyTypeVar (load : Loader) (depth : Nat) (declared : TypeId) (regionArgs : List Path) :
    Run TypeId := do
  let data ← typeData declared
  match data.kind with
  | .typeVar info =>
    match data.symbol with
    | some sym =>
      typeVar sym
        { lower := info.lower, regionParams := info.regionParams, regionArgs
          prototype := some (info.prototype.getD declared) }
    | none => violation (pure "type variable without symbol")
  | _ => violationAt load depth "copy_type_var on non-type-variable " declared ""

def captured (name : String) (owner : Option SymbolId) (upper lower wildcard : TypeId) :
    Run TypeId := do
  let sym ← newSymbol .type name owner .none
  let ty ← pushType
    { symbol := some sym, kind := .captured { bound := some upper, lower } wildcard }
  attachType sym ty
  return ty

def wildcard (bound : TypeId) (kind : BoundKind) (formal : Option TypeId) : Run TypeId :=
  pushType { symbol := none, kind := .wildcard ⟨bound, kind, formal⟩ }

/-- Allocates a placeholder; it shares its origin's symbol. -/
def placeholder (origin : TypeId) : Run TypeId := do
  let symbol := (← typeData origin).symbol
  pushType { symbol, kind := .placeholder { origin } }

/-! ### Errors -/

def errorType (symbol : Option SymbolId) : Run TypeId :=
  pushType { symbol, kind := .error WellKnown.missing }

/-- Turns a class symbol into one that could not be loaded. -/
def damage (sym : SymbolId) : Run TypeId := do
  let ty ← errorType (some sym)
  updateSymbol sym fun s =>
    { s with type := some ty, kind := .error, members := .error, completer := none }
  return ty

/-- An error type for a name that means nothing in a container. -/
def errorTypeNamed (name : String) (container : Option SymbolId) : Run TypeId := do
  damage (← newSymbol .type name container .synthetic)

/-! ### Literals -/

def constType (load : Loader) (depth : Nat) (ty : TypeId) (value : Literal) : Run TypeId := do
  let data ← typeData ty
  match data.kind with
  | .primitive p => pushType { data with literal := some value, kind := .primitive p }
  | .classType info =>
    let args ← typeArguments load depth ty
    rebuildClass ty { data with literal := some value } info.outer args
  | .bottom | .error _ => return ty
  | _ => violationAt load depth "constant type requested for " ty ""

/-- Strips a literal or the solution of a placeholder. -/
def baseType : Nat → TypeId → Run TypeId
  | 0, _ => tooDeep
  | depth + 1, ty => do
    let data ← typeData ty
    if data.literal.isSome then return (← canonicalType data.symbol).getD ty
    else
      match data.kind with
      | .placeholder info =>
        match info.solution with
        | some solution => baseType depth solution
        | none => return ty
      | _ => return ty

/-- The base types of a list and whether one of them differs from its element. -/
def baseTypes (depth : Nat) (types : List TypeId) : Run (List TypeId × Bool) := do
  let bases ← types.mapM (baseType depth)
  return (bases, bases != types)

/-- The text of a literal of a type: booleans and characters are carried as integers. -/
def literalText (tag : Tag) (value : Literal) : String :=
  match tag, value with
  | .boolean, .int v => if v = 0 then "false" else "true"
  | .char, .int v => Literal.charText v
  | _, _ => value.toText

def stringValue (load : Loader) (depth : Nat) (ty : TypeId) : Run String := do
  let data ← typeData ty
  match data.kind, data.literal with
  | .bottom, _ => return "null"
  | kind, some value => return literalText kind.tag value
  | _, none => violationAt load depth "string value of non-constant type " ty ""

def booleanValue? (ty : TypeId) : Run (Option Int32) := do
  let data ← typeData ty
  match data.kind.tag, data.literal with
  | .boolean, some (.int v) => return some v
  | _, _ => return none

def isTrue (ty : TypeId) : Run Bool := do return (← booleanValue? ty).any (· ≠ 0)

def isFalse (ty : TypeId) : Run Bool := do return (← booleanValue? ty).any (· = 0)

end RegionTypes

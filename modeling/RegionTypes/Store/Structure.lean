import RegionTypes.Store.Arguments

/-!
# Structural questions

Questions that follow a type into its components.

* `allTypeParams`, `allRegionParams`, `allEffectParams` — the parameters of a class together with
  those of the types that enclose it, outermost first.
* `isErroneous` — whether there is an error in the structure of a type.
* `contains` — whether one type occurs in another; every type contains itself.
* `isRaw`, `isParameterized`, `hasRegionParams`, `hasEffectParams` — how a class type is used.
-/

namespace RegionTypes

open Run

variable (load : Loader)

/-! ### Parameters along the enclosing types -/

/-- The type parameters of a class and of the types around it. -/
def allTypeParams : Nat → TypeId → Run (List TypeId)
  | 0, _ => tooDeep
  | depth + 1, ty => do
    let data ← typeData ty
    match data.kind with
    | .classType info =>
      match info.allTypeParams with
      | some list => return list
      | none =>
        let own ← declaredList load .typeArgs ty data.symbol
        let outer ← allTypeParams depth info.outer
        remember .allTypeParams ty (outer ++ own)
    | .array info => allTypeParams depth info.elem
    | .forAll info => allTypeParams depth info.body
    | .placeholder info => allTypeParams depth info.origin
    | _ => return []

/-- The region parameters of a class and of the classes around it. -/
def allRegionParams : Nat → TypeId → Run (List Path)
  | 0, _ => tooDeep
  | depth + 1, ty => do
    match ← kindOf ty with
    | .classType info =>
      match info.allRegionParams with
      | some list => return list
      | none =>
        let own ← regionArguments load (depth + 1) ty
        let outer ← allRegionParams depth info.outer
        remember .allRegionParams ty (outer ++ own)
    | _ => return []

/-- The effect parameters of a class and of the classes around it. -/
def allEffectParams : Nat → TypeId → Run (List Summary)
  | 0, _ => tooDeep
  | depth + 1, ty => do
    match ← kindOf ty with
    | .classType info =>
      match info.allEffectParams with
      | some list => return list
      | none =>
        let own ← effectArguments load (depth + 1) ty
        if info.outer = ty then remember .allEffectParams ty own
        else
          let outer ← allEffectParams depth info.outer
          remember .allEffectParams ty (outer ++ own)
    | _ => return []

/-! ### Errors inside a type -/

/-- Whether there is an error in the structure of a type: in the type itself, in a component, or in
the canonical type of its class. -/
def isErroneous : Nat → TypeId → Run Bool
  | 0, _ => tooDeep
  | depth + 1, ty => do
    let data ← typeData ty
    match data.kind with
    | .error _ => return true
    | .classType info =>
      if ← isErroneous depth info.outer then return true
      else if ← (← declaredList load .typeArgs ty data.symbol).anyM (isErroneous depth) then
        return true
      else
        match ← canonicalType data.symbol with
        | none => return false
        | some canonical => if canonical = ty then return false else isErroneous depth canonical
    | .array info => isErroneous depth info.elem
    | .method info =>
      if ← info.params.anyM (isErroneous depth) then return true
      else isErroneous depth info.result
    | .forAll info => isErroneous depth info.body
    | .placeholder info => isErroneous depth info.origin
    | _ => return false

def isErroneousList (depth : Nat) (types : List TypeId) : Run Bool :=
  types.anyM (isErroneous load depth)

/-! ### How a class type is used -/

/-- Whether a class type or one around it has type arguments; an array type asks its elements. -/
def isParameterized : Nat → TypeId → Run Bool
  | 0, _ => tooDeep
  | depth + 1, ty => do
    match ← kindOf ty with
    | .classType _ => return !(← allTypeParams load (depth + 1) ty).isEmpty
    | .array info => isParameterized depth info.elem
    | _ => return false

def hasRegionParams (depth : Nat) (ty : TypeId) : Run Bool := do
  match ← kindOf ty with
  | .classType _ => return !(← allRegionParams load depth ty).isEmpty
  | _ => return false

def hasEffectParams (depth : Nat) (ty : TypeId) : Run Bool := do
  match ← kindOf ty with
  | .classType _ => return !(← allEffectParams load depth ty).isEmpty
  | _ => return false

/-- Whether a class type leaves out the type arguments its class has parameters for. -/
def isRaw : Nat → TypeId → Run Bool
  | 0, _ => tooDeep
  | depth + 1, ty => do
    let data ← typeData ty
    match data.kind with
    | .classType _ =>
      match ← canonicalType data.symbol with
      | none => return false
      | some canonical =>
        if canonical = ty then return false
        else if (← allTypeParams load (depth + 1) canonical).isEmpty then return false
        else return (← allTypeParams load (depth + 1) ty).isEmpty
    | .array info => isRaw depth info.elem
    | _ => return false

/-- Whether the type is an intersection.  Asked without loading the class. -/
def isCompound (ty : TypeId) : Run Bool := do
  let data ← typeData ty
  match data.kind, data.symbol with
  | .error _, _ | _, none => return false
  | _, some sym =>
    let symbol ← symbolData sym
    return symbol.completer.isNone && symbol.flags.has .compound

def symbolFlags (sym : SymbolId) : Run Flags := do
  completeLazily load (some sym)
  return (← symbolData sym).flags

def isInterface (ty : TypeId) : Run Bool := do
  let data ← typeData ty
  match data.kind, data.symbol with
  | .error _, _ | _, none => return false
  | _, some sym => return (← symbolFlags load sym).has .interface

/-! ### Containment -/

/-- Whether `elem` occurs in a type. -/
def contains : Nat → TypeId → TypeId → Run Bool
  | 0, _, _ => tooDeep
  | depth + 1, ty, elem => do
    if ty = elem then return true
    else
      let data ← typeData ty
      match data.kind with
      | .classType info =>
        if ← isParameterized load (depth + 1) ty then
          if ← contains depth info.outer elem then return true
          else
            (← declaredList load .typeArgs ty data.symbol).anyM fun arg => contains depth arg elem
        else return false
      | .array info => contains depth info.elem elem
      | .method info =>
        if ← info.params.anyM fun param => contains depth param elem then return true
        else contains depth info.result elem
      | .forAll info => contains depth info.body elem
      | _ => return false

def containsList (depth : Nat) (types : List TypeId) (elem : TypeId) : Run Bool :=
  types.anyM fun ty => contains load depth ty elem

def containsSome (depth : Nat) (ty : TypeId) (elems : List TypeId) : Run Bool :=
  elems.anyM fun elem => contains load depth ty elem

/-! ### Free type variables -/

/-- Collects the type variables that occur free in a type, in order of first occurrence, after those
already found. -/
def collectFree : Nat → List TypeId → List TypeId → TypeId → Run (List TypeId)
  | 0, _, _, _ => tooDeep
  | depth + 1, bound, found, ty => do
    match ← kindOf ty with
    | .classType info =>
      let found ← collectFree depth bound found info.outer
      (← typeArguments load (depth + 1) ty).foldlM (collectFree depth bound) found
    | .wildcard info => collectFree depth bound found info.bound
    | .array info => collectFree depth bound found info.elem
    | .method info =>
      let found ← info.params.foldlM (collectFree depth bound) found
      let found ← collectFree depth bound found info.result
      (← thrownTypes (depth + 1) ty).foldlM (collectFree depth bound) found
    | .typeVar _ | .captured .. =>
      return if bound.contains ty || found.contains ty then found else found ++ [ty]
    | .forAll info => collectFree depth (bound ++ info.typeVars) found info.body
    | _ => return found

def freeTypeVars (depth : Nat) (ty : TypeId) : Run (List TypeId) :=
  collectFree load depth [] [] ty

end RegionTypes

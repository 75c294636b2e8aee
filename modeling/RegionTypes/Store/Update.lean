import RegionTypes.Store.Construction

/-!
# Updates

Filling in what construction left open.  Write-once fields refuse a second, different value; the
refusal names the type by its text, so it may load classes.

* `defineClass` — the signature of a canonical class type, all of it at once.
* `setUpperBound` — the bound of a type variable, written to its prototype too, so that all
  occurrences agree.
* `recordActuals`, `setInstantiation` — written once.
* `addLowerBound`, `addUpperBound` — the bounds of a placeholder only grow, without repetition.
* `complete` — loads every class a type mentions.
-/

namespace RegionTypes

open Run

structure ClassSignature where
  typeParams : List TypeId := []
  regionParams : List Path := []
  effectParams : List Summary := []
  supertype : Option TypeId := none
  interfaces : List TypeId := []

/-- The first field of a class that a signature would write a second time. -/
def ClassInfo.takenField? (info : ClassInfo) : Option Field :=
  if info.typeArgs.isSome then some .typeParameters
  else if info.regionArgs.isSome then some .regionParameters
  else if info.effectArgs.isSome then some .effectParameters
  else if info.supertype.isSome || info.interfaces.isSome then some .supertypes
  else none

def ClassInfo.define (sig : ClassSignature) (info : ClassInfo) : ClassInfo :=
  { info with
    typeArgs := some sig.typeParams
    regionArgs := some sig.regionParams
    effectArgs := some sig.effectParams
    supertype := sig.supertype
    interfaces := some sig.interfaces }

variable (load : Loader) (depth : Nat)

def unexpected (expected : Expected) (ty : TypeId) : Run (Except TypeError Unit) := do
  return .error (.unexpected expected (← display load depth ty))

/-- The error for a field that holds another value. -/
def alreadySet (field : Field) (ty : TypeId) : Run (Except TypeError Unit) := do
  return .error (.alreadySet field (← display load depth ty))

def defineClass (ty : TypeId) (sig : ClassSignature) : Run (Except TypeError Unit) := do
  match ← kindOf ty with
  | .classType info =>
    match info.takenField? with
    | some field => alreadySet load depth field ty
    | none =>
      updateKind ty (·.mapClass (ClassInfo.define sig))
      return .ok ()
  | _ => unexpected load depth .classType ty

/-- Sets or clears the cell type of a class type; any other type is left alone. -/
def setCellType (ty : TypeId) (cell : Option TypeId) : Run Unit := do
  let _ ← typeData ty
  updateKind ty (·.mapClass fun info => { info with cellType := cell })

def recordActuals (load : Loader) : Nat → TypeId → CallActuals → Run (Except TypeError Unit)
  | 0, _, _ => tooDeep
  | depth + 1, ty, actuals => do
    match ← kindOf ty with
    | .method info =>
      if info.actuals.isSome then alreadySet load (depth + 1) .callActuals ty
      else
        updateKind ty (·.mapMethod fun info => { info with actuals := some actuals })
        return .ok ()
    | .forAll info => recordActuals load depth info.body actuals
    | _ => unexpected load (depth + 1) .methodType ty

def setThrown (load : Loader) : Nat → TypeId → List TypeId → Run Unit
  | 0, _, _ => tooDeep
  | depth + 1, ty, thrown => do
    match ← kindOf ty with
    | .method _ => updateKind ty (·.mapMethod fun info => { info with thrown })
    | .forAll info => setThrown load depth info.body thrown
    | _ => violationAt load (depth + 1) "set_thrown on non-method type " ty ""

/-- Attaches the type parameter that a wildcard is an argument for. -/
def setFormal (ty formal : TypeId) : Run TypeId := do
  let _ ← typeData ty
  updateKind ty (·.mapWildcard fun info => { info with formal := some formal })
  return ty

/-! ### Bounds of type variables -/

def VarInfo.refuses (info : VarInfo) (bound : TypeId) : Bool :=
  info.bound.any (· ≠ bound)

/-- The variable with a bound, unless it has one. -/
def VarInfo.setBound (bound : TypeId) (info : VarInfo) : VarInfo :=
  { info with bound := info.bound.or (some bound) }

/-- The prototype of a variable and the prototype's own data. -/
def prototypeOf (info : VarInfo) : Run (Option (TypeId × VarInfo)) :=
  match info.prototype with
  | none => pure none
  | some prototype => do return (← kindOf prototype).var?.map fun var => (prototype, var)

def setUpperBound (ty bound : TypeId) : Run (Except TypeError Unit) := do
  match (← kindOf ty).var? with
  | none => unexpected load depth .typeVariable ty
  | some info =>
    let prototype ← prototypeOf info
    if info.refuses bound then alreadySet load depth .upperBound ty
    else
      match prototype with
      | none =>
        updateKind ty (·.mapVar (VarInfo.setBound bound))
        return .ok ()
      | some (owner, var) =>
        if var.refuses bound then alreadySet load depth .upperBound owner
        else
          updateKind ty (·.mapVar (VarInfo.setBound bound))
          updateKind owner (·.mapVar (VarInfo.setBound bound))
          return .ok ()

/-- The bound of a type variable that must have one. -/
def typeVarBound (ty : TypeId) : Run TypeId := do
  match ← upperBound depth ty with
  | some bound => return bound
  | none => violationAt load depth "type variable " ty " has no bound"

/-- The method type under any quantifiers, which must be there. -/
def asMethodType (ty : TypeId) : Run TypeId := do
  match ← methodType? depth ty with
  | some method => return method
  | none => violationAt load depth "" ty " is not a method type"

/-! ### Placeholders -/

/-- A list with one more element at its end, unless the element is there already. -/
def addOnce (ty : TypeId) (types : List TypeId) : List TypeId :=
  if types.contains ty then types else types ++ [ty]

def updatePlaceholder (ty : TypeId) (f : PlaceholderInfo → PlaceholderInfo) :
    Run (Except TypeError Unit) := do
  match ← kindOf ty with
  | .placeholder _ =>
    updateKind ty (·.mapPlaceholder f)
    return .ok ()
  | _ => unexpected load depth .inferenceVariable ty

def addLowerBound (ty bound : TypeId) : Run (Except TypeError Unit) :=
  updatePlaceholder load depth ty fun info =>
    { info with lowerBounds := addOnce bound info.lowerBounds }

def addUpperBound (ty bound : TypeId) : Run (Except TypeError Unit) :=
  updatePlaceholder load depth ty fun info =>
    { info with upperBounds := addOnce bound info.upperBounds }

def setInstantiation (ty solution : TypeId) : Run (Except TypeError Unit) := do
  match ← kindOf ty with
  | .placeholder info =>
    match info.solution with
    | none =>
      updateKind ty (·.mapPlaceholder fun info => { info with solution := some solution })
      return .ok ()
    | some existing =>
      if existing = solution then return .ok () else alreadySet load depth .instantiation ty
  | _ => unexpected load depth .inferenceVariable ty

/-! ### Loading -/

/-- Runs a fallible computation on each element until one fails. -/
def forEach {α : Type} (f : α → Run (Except CompletionError Unit)) :
    List α → Run (Except CompletionError Unit)
  | [] => return .ok ()
  | a :: rest => do
    match ← f a with
    | .ok () => forEach f rest
    | .error e => return .error e

/-- Loads every class a type mentions, until one fails. -/
def complete (load : Loader) : Nat → TypeId → Run (Except CompletionError Unit)
  | 0, _ => tooDeep
  | depth + 1, ty => do
    let data ← typeData ty
    match data.kind with
    | .classType _ =>
      match data.symbol with
      | some sym => load sym
      | none => return .ok ()
    | .array info => complete load depth info.elem
    | .method info =>
      match ← forEach (complete load depth) info.params with
      | .error e => return .error e
      | .ok () =>
        match ← complete load depth info.result with
        | .error e => return .error e
        | .ok () => forEach (complete load depth) (← thrownTypes 1 ty)
    | .forAll info =>
      match ← forEach (fun var => do complete load depth (← typeVarBound load (depth + 1) var))
          info.typeVars with
      | .error e => return .error e
      | .ok () => complete load depth info.body
    | _ => return .ok ()

end RegionTypes

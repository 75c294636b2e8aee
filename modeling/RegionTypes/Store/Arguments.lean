import RegionTypes.Store.Completion

/-!
# Arguments and components

What a type is made of.  Each question has a plain answer for the variants it means nothing for: an
empty list, nothing, `false`.  The class of a class type is loaded on the way where needed.

Questions that look through quantifiers and placeholders take a depth, the number of types they may
pass; past it the run ends.

* `typeArguments`, `regionArguments`, `effectArguments` — the argument lists.  A class type written
  without region arguments gets one `Root` for each formal region parameter, unless it is erased.
* `supertype`, `interfaces` — what loading the class supplied.
* `enclosingType`, `parameterTypes`, `returnType`, `thrownTypes`, `callActuals`, `methodType?` —
  components fixed at construction or set later, seen through quantifiers.
-/

namespace RegionTypes

open Run

variable (load : Loader)

/-- The arguments of a class type that its class declares, or the variables of a quantified
declaration. -/
def declaredArguments {β : Type} (slot : Slot β) (vars : ForAllInfo → List β) :
    Nat → TypeId → Run (List β)
  | 0, _ => tooDeep
  | depth + 1, ty => do
    let data ← typeData ty
    match data.kind with
    | .classType _ => declaredList load slot ty data.symbol
    | .forAll info => return vars info
    | .placeholder info => declaredArguments slot vars depth info.origin
    | _ => return []

def typeArguments : Nat → TypeId → Run (List TypeId) :=
  declaredArguments load .typeArgs ForAllInfo.typeVars

def effectArguments : Nat → TypeId → Run (List Summary) :=
  declaredArguments load .effectArgs ForAllInfo.effectVars

/-- The region arguments, with omitted ones filled in. -/
def regionArguments : Nat → TypeId → Run (List Path)
  | 0, _ => tooDeep
  | depth + 1, ty => do
    let data ← typeData ty
    match data.kind with
    | .classType info =>
      match info.resolvedRegions with
      | some list => return list
      | none =>
        let declared ← declaredList load .regionArgs ty data.symbol
        if data.erased || !declared.isEmpty then remember .resolvedRegions ty declared
        else
          match ← canonicalType data.symbol with
          | none => remember .resolvedRegions ty declared
          | some canonical =>
            if canonical = ty then remember .resolvedRegions ty declared
            else
              let formals ← regionArguments depth canonical
              remember .resolvedRegions ty (List.replicate formals.length Path.root)
    | .forAll info => return info.regionVars
    | .typeVar info | .captured info _ => return info.regions
    | _ => return []

/-- Something that loading the class supplies. -/
def suppliedPart {α : Type} (read : ClassInfo → Option α) (ty : TypeId) : Run (Option α) := do
  let data ← typeData ty
  match data.kind with
  | .classType info =>
    if (read info).isNone then completeLazily load data.symbol
    return (← kindOf ty).class?.bind read
  | _ => return none

def supertype (ty : TypeId) : Run (Option TypeId) := suppliedPart load ClassInfo.supertype ty

def interfaces (ty : TypeId) : Run (List TypeId) := do
  return (← suppliedPart load ClassInfo.interfaces ty).getD []

def ownerRegion (depth : Nat) (ty : TypeId) : Run Path := do
  return (← regionArguments load depth ty).head?.getD Path.root

/-! ### Components that need no loading -/

/-- Follows one part of a type after another, as long as there is one to go on to. -/
def followed {α : Type} (next : Kind → Option TypeId) (last : TypeId → Kind → Run α) :
    Nat → TypeId → Run α
  | 0, _ => tooDeep
  | depth + 1, ty => do
    let kind ← kindOf ty
    match next kind with
    | some part => followed next last depth part
    | none => last ty kind

/-- The type that encloses a class; an error type encloses itself. -/
def enclosingType : Nat → TypeId → Run (Option TypeId) :=
  followed Kind.leadsTo fun ty kind =>
    match kind with
    | .classType info => pure (some info.outer)
    | .error _ => pure (some ty)
    | _ => pure none

def parameterTypes : Nat → TypeId → Run (List TypeId) :=
  followed Kind.leadsTo fun _ kind => pure ((kind.method?.map MethodInfo.params).getD [])

/-- The result type of a method; an error type returns itself. -/
def returnType : Nat → TypeId → Run (Option TypeId) :=
  followed Kind.leadsTo fun ty kind =>
    match kind with
    | .method info => pure (some info.result)
    | .error _ => pure (some ty)
    | _ => pure none

def thrownTypes : Nat → TypeId → Run (List TypeId) :=
  followed Kind.leadsTo fun _ kind => pure ((kind.method?.map MethodInfo.thrown).getD [])

def callActuals : Nat → TypeId → Run CallActuals :=
  followed Kind.body? fun _ kind => pure ((kind.method?.bind MethodInfo.actuals).getD {})

def methodType? : Nat → TypeId → Run (Option TypeId) :=
  followed Kind.body? fun ty kind => pure (kind.method?.map fun _ => ty)

def typeVariables (ty : TypeId) : Run (List TypeId) := do
  match ← kindOf ty with
  | .forAll info => return info.typeVars
  | _ => return []

def effectVariables (ty : TypeId) : Run (List Summary) := do
  match ← kindOf ty with
  | .forAll info => return info.effectVars
  | _ => return []

def cellType (ty : TypeId) : Run (Option TypeId) := do
  match ← kindOf ty with
  | .classType info => return info.cellType
  | _ => return none

/-! ### Wildcards and bounds -/

def wildcard? (ty : TypeId) : Run (Option WildcardInfo) := do
  match ← kindOf ty with
  | .wildcard info => return some info
  | _ => return none

/-- Whether the type is a wildcard with a lower bound, perhaps the trivial one. -/
def isSuperBound (ty : TypeId) : Run Bool := do
  return (← wildcard? ty).any fun info => info.kind != .upper

/-- Whether the type is a wildcard with an upper bound, perhaps the trivial one. -/
def isExtendsBound (ty : TypeId) : Run Bool := do
  return (← wildcard? ty).any fun info => info.kind != .lower

def isUnbound (ty : TypeId) : Run Bool := do
  return (← wildcard? ty).any fun info => info.kind == .unbounded

def extendsBound (ty : TypeId) : Run (Option TypeId) := do
  return ((← wildcard? ty).filter fun info => info.kind == .upper).map WildcardInfo.bound

def superBound (ty : TypeId) : Run (Option TypeId) := do
  return ((← wildcard? ty).filter fun info => info.kind == .lower).map WildcardInfo.bound

/-- A bounded wildcard becomes its bound; any other type is unchanged. -/
def removeBounds (ty : TypeId) : Run TypeId := do
  return (((← wildcard? ty).filter fun info => info.kind != .unbounded).map WildcardInfo.bound).getD
    ty

/-- The bound of a variable, read from its prototype when it has none of its own. -/
def varBound (info : VarInfo) : Run (Option TypeId) :=
  match info.bound, info.prototype with
  | some bound, _ => pure (some bound)
  | none, none => pure none
  | none, some prototype => do return (← kindOf prototype).var?.bind VarInfo.bound

def upperBound : Nat → TypeId → Run (Option TypeId) :=
  followed Kind.leadsTo fun _ kind =>
    match kind.var? with
    | some info => varBound info
    | none => pure none

def lowerBound (ty : TypeId) : Run (Option TypeId) := do
  return (← kindOf ty).var?.map VarInfo.lower

end RegionTypes

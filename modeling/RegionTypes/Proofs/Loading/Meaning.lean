import RegionTypes.Proofs.Store.Components

/-!
# What the questions mean

In a store where every class is defined, the questions about types have answers that depend on the
store alone: nothing is loaded, and nothing needs to be remembered.  These answers are given here as
plain functions.

* `Store.level` — the handle of a type, or nothing if it is made of no others.
* `Store.descend` — recursion along levels; `Store.level_induction` — induction along them.
* `Store.regionArgumentsOf`, `Store.allTypeParamsOf`, ... — the answers.
-/

namespace RegionTypes

/-- The components that are looked at for an error in a type. -/
def Kind.inspected : Kind → List TypeId
  | classType info => info.outer :: info.typeArgs.getD []
  | array info => [info.elem]
  | method info => info.params ++ [info.result]
  | forAll info => [info.body]
  | placeholder info => [info.origin]
  | _ => []

theorem Kind.class?_eq_some {kind : Kind} {info : ClassInfo} :
    kind.class? = some info ↔ kind = .classType info := by
  cases kind with
  | classType => exact ⟨fun h => Option.some.inj h ▸ rfl, fun h => Kind.classType.inj h ▸ rfl⟩
  | _ => exact ⟨nofun, nofun⟩

theorem Kind.mapClass_of_class?_eq_none {kind : Kind} (h : kind.class? = none)
    (f : ClassInfo → ClassInfo) : kind.mapClass f = kind := by
  cases kind with
  | classType => cases h
  | _ => rfl

theorem Kind.eq_of_mapClass {k k' : Kind} {f : ClassInfo → ClassInfo} (h : k'.mapClass f = k.mapClass f)
    (hclass : k.class? = none) : k' = k := by
  rw [Kind.mapClass_of_class?_eq_none hclass] at h
  cases k' with
  | classType =>
    subst h
    cases hclass
  | _ => exact h

/-- Whether types with the tag are made of no others. -/
def Tag.atomic : Tag → Bool
  | classType | array | method | wildcard | forAll | placeholder => false
  | _ => true

/-- A symbol up to what loading it changes. -/
def Symbol.face (y : Symbol) : Symbol := { y with completer := none, completing := false }

namespace Store

variable {r : Store} {ty c : TypeId} {data : TypeData} {β : Type}

/-- The kind of a type of the store. -/
def kind? (r : Store) (ty : TypeId) : Option Kind := (r.type? ty).map TypeData.kind

theorem kind?_eq (h : r.type? ty = some data) : r.kind? ty = some data.kind := by
  rw [kind?, h, Option.map_some]

/-- The canonical type of a symbol. -/
def canonical? (r : Store) (symbol : Option SymbolId) : Option TypeId :=
  symbol.bind fun sym => (r.symbol? sym).bind Symbol.type

/-! ### Levels -/

/-- The handle of a type, or nothing if the type is made of no others. -/
def level (r : Store) (ty : TypeId) : Nat :=
  if ((r.kind? ty).any fun kind => kind.tag.atomic) then 0 else ty.index

theorem level_le (r : Store) (ty : TypeId) : r.level ty ≤ ty.index := by
  rw [level]
  split
  · exact Nat.zero_le _
  · exact Nat.le_refl _

theorem level_of_atomic (record : r.type? ty = some data) (htag : data.kind.tag.atomic = true) :
    r.level ty = 0 := by
  simp [level, kind?, record, htag]

theorem level_of_not_atomic (record : r.type? ty = some data)
    (htag : data.kind.tag.atomic = false) : r.level ty = ty.index := by
  simp [level, kind?, record, htag]

/-- Recursion along levels: `step` may use the results for all types of lower levels; for any other
type it gets `otherwise`. -/
def descend (r : Store) (otherwise : β) (step : (TypeId → β) → TypeId → β) (ty : TypeId) : β :=
  step (fun c => if r.level c < r.level ty then r.descend otherwise step c else otherwise) ty
termination_by r.level ty

/-- What the step at a type gets to see. -/
def descendBelow (r : Store) (otherwise : β) (step : (TypeId → β) → TypeId → β) (ty c : TypeId) :
    β :=
  if r.level c < r.level ty then r.descend otherwise step c else otherwise

theorem descend_eq (otherwise : β) (step : (TypeId → β) → TypeId → β) (ty : TypeId) :
    r.descend otherwise step ty = step (r.descendBelow otherwise step ty) ty := by
  rw [descend]
  rfl

theorem descendBelow_eq {otherwise : β} {step : (TypeId → β) → TypeId → β}
    (h : r.level c < r.level ty) :
    r.descendBelow otherwise step ty c = r.descend otherwise step c := if_pos h

/-- **Induction along levels** for what takes a depth: at a type it may be shown from what holds one
step deeper at the types of lower levels, and then a depth above the level is enough. -/
theorem level_induction {motive : Nat → TypeId → Prop}
    (h : ∀ d ty, r.level ty < d + 1 → r.Has ty →
      (∀ c, r.level c < d → r.Has c → motive d c) → motive (d + 1) ty)
    (d : Nat) : ∀ ty, r.level ty < d → r.Has ty → motive d ty := by
  induction d with
  | zero => exact fun _ hd => absurd hd (Nat.not_lt_zero _)
  | succ d ih => exact fun ty hd hty => h d ty hd hty ih

/-! ### Arguments -/

/-- The arguments of a class type in the list that its class declares, or the variables of a quantified
declaration. -/
def declaredArgumentsOf (read : ClassInfo → Option (List β)) (vars : ForAllInfo → List β)
    (r : Store) : TypeId → List β :=
  r.descend [] fun go ty =>
    match r.kind? ty with
    | some (.classType info) => (read info).getD []
    | some (.forAll info) => vars info
    | some (.placeholder info) => go info.origin
    | _ => []

def typeArgumentsOf (r : Store) : TypeId → List TypeId :=
  r.declaredArgumentsOf ClassInfo.typeArgs ForAllInfo.typeVars

def effectArgumentsOf (r : Store) : TypeId → List Summary :=
  r.declaredArgumentsOf ClassInfo.effectArgs ForAllInfo.effectVars

/-- The region arguments of a class type: those declared, or `Root` for each parameter of the class.
-/
def resolvedRegionsOf (r : Store) (go : TypeId → List Path) (ty : TypeId) (data : TypeData)
    (declared : List Path) : List Path :=
  if data.erased || !declared.isEmpty then declared
  else match r.canonical? data.symbol with
    | none => declared
    | some c => if c = ty then declared else List.replicate (go c).length Path.root

/-- The region arguments, with omitted ones filled in. -/
def regionArgumentsOf (r : Store) : TypeId → List Path :=
  r.descend [] fun go ty =>
    match r.type? ty with
    | none => []
    | some data =>
      match data.kind with
      | .classType info => r.resolvedRegionsOf go ty data (info.regionArgs.getD [])
      | .forAll info => info.regionVars
      | .typeVar info | .captured info _ => info.regions
      | _ => []

/-- The supertype of a class type. -/
def supertypeOf (r : Store) (ty : TypeId) : Option TypeId :=
  ((r.kind? ty).bind Kind.class?).bind ClassInfo.supertype

/-- The interfaces of a class type. -/
def interfacesOf (r : Store) (ty : TypeId) : List TypeId :=
  (((r.kind? ty).bind Kind.class?).bind ClassInfo.interfaces).getD []

/-- The bound of a variable, its own or its prototype's. -/
def varBoundOf (r : Store) (info : VarInfo) : Option TypeId :=
  info.bound.or ((info.prototype.bind r.kind?).bind fun kind => kind.var?.bind VarInfo.bound)

/-- The upper bound of a type variable. -/
def upperBoundOf (r : Store) : TypeId → Option TypeId :=
  r.descend none fun go ty =>
    match r.kind? ty with
    | some (.typeVar info) | some (.captured info _) => r.varBoundOf info
    | some (.forAll info) => go info.body
    | some (.placeholder info) => go info.origin
    | _ => none

/-- The method type under any quantifiers. -/
def methodOf (r : Store) : TypeId → Option TypeId :=
  r.descend none fun go ty =>
    match r.kind? ty with
    | some (.method _) => some ty
    | some (.forAll info) => go info.body
    | _ => none

/-! ### Parameters along the enclosing types -/

/-- The type parameters of a class and of the types around it. -/
def allTypeParamsOf (r : Store) : TypeId → List TypeId :=
  r.descend [] fun go ty =>
    match r.kind? ty with
    | some (.classType info) => go info.outer ++ info.typeArgs.getD []
    | some (.array info) => go info.elem
    | some (.forAll info) => go info.body
    | some (.placeholder info) => go info.origin
    | _ => []

/-- The region parameters of a class and of the classes around it. -/
def allRegionParamsOf (r : Store) : TypeId → List Path :=
  r.descend [] fun go ty =>
    match r.kind? ty with
    | some (.classType info) => go info.outer ++ r.regionArgumentsOf ty
    | _ => []

/-- The effect parameters of a class and of the classes around it. -/
def allEffectParamsOf (r : Store) : TypeId → List Summary :=
  r.descend [] fun go ty =>
    match r.kind? ty with
    | some (.classType info) => go info.outer ++ info.effectArgs.getD []
    | _ => []

/-! ### Structure -/

/-- Whether there is an error in the structure of a type. -/
def erroneous (r : Store) : TypeId → Bool :=
  r.descend false fun go ty =>
    match r.type? ty with
    | none => false
    | some data =>
      match data.kind with
      | .error _ => true
      | .classType info =>
        go info.outer || (info.typeArgs.getD []).any go ||
          match r.canonical? data.symbol with
          | none => false
          | some c => if c = ty then false else go c
      | .array info => go info.elem
      | .method info => info.params.any go || go info.result
      | .forAll info => go info.body
      | .placeholder info => go info.origin
      | _ => false

/-- Whether a class type or one around it has type arguments. -/
def parameterized (r : Store) : TypeId → Bool :=
  r.descend false fun go ty =>
    match r.kind? ty with
    | some (.classType _) => !(r.allTypeParamsOf ty).isEmpty
    | some (.array info) => go info.elem
    | _ => false

/-- Whether a class type or one around it has region arguments. -/
def regionParameterized (r : Store) (ty : TypeId) : Bool :=
  match r.kind? ty with
  | some (.classType _) => !(r.allRegionParamsOf ty).isEmpty
  | _ => false

/-- Whether a class type or one around it has effect arguments. -/
def effectParameterized (r : Store) (ty : TypeId) : Bool :=
  match r.kind? ty with
  | some (.classType _) => !(r.allEffectParamsOf ty).isEmpty
  | _ => false

/-- Whether a class type leaves out the type arguments its class has parameters for. -/
def raw (r : Store) : TypeId → Bool :=
  r.descend false fun go ty =>
    match r.type? ty with
    | none => false
    | some data =>
      match data.kind with
      | .classType _ =>
        match r.canonical? data.symbol with
        | none => false
        | some c =>
          if c = ty then false
          else !(r.allTypeParamsOf c).isEmpty && (r.allTypeParamsOf ty).isEmpty
      | .array info => go info.elem
      | _ => false

/-- Whether `elem` occurs in a type. -/
def occurs (r : Store) (elem : TypeId) : TypeId → Bool :=
  r.descend false fun go ty =>
    ty = elem ||
      match r.kind? ty with
      | some (.classType info) =>
        r.parameterized ty && (go info.outer || (info.typeArgs.getD []).any go)
      | some (.array info) => go info.elem
      | some (.method info) => info.params.any go || go info.result
      | some (.forAll info) => go info.body
      | _ => false

/-- One level of the search for free variables. -/
def freeVarsStep (r : Store) (go : TypeId → List TypeId → List TypeId → List TypeId) (ty : TypeId)
    (bound found : List TypeId) : List TypeId :=
  match r.kind? ty with
  | some (.classType info) =>
    (info.typeArgs.getD []).foldl (fun found c => go c bound found) (go info.outer bound found)
  | some (.wildcard info) => go info.bound bound found
  | some (.array info) => go info.elem bound found
  | some (.method info) =>
    info.thrown.foldl (fun found c => go c bound found)
      (go info.result bound (info.params.foldl (fun found c => go c bound found) found))
  | some (.typeVar _) | some (.captured ..) =>
    if bound.contains ty || found.contains ty then found else found ++ [ty]
  | some (.forAll info) => go info.body (bound ++ info.typeVars) found
  | _ => found

/-- The variables that occur free in a type, after those already found. -/
def freeVars (r : Store) : TypeId → List TypeId → List TypeId → List TypeId :=
  r.descend (fun _ found => found) r.freeVarsStep

end Store

end RegionTypes

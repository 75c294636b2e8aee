import RegionTypes.Store.Structure

/-!
# Mapping and substitution

A **mapping** is a function from types to types that may work on the session and keep a state of its
own.  Returning the type it was given is how a mapping says that there is nothing to do.

* `mapType` — applies a mapping to the immediate components of a type.  The type is rebuilt only when
  a component changed; otherwise the very same handle comes back.
* `mapList` — applies a mapping to the elements of a list, last to first, and tells whether any of
  them changed.
* `substitute` — substitution of types for type variables, in depth.  A variable matches the first
  pair whose source is the same type or has the same symbol; the variables of a quantifier hide the
  pairs for them.
* `Table.apply` — replacement by a table, on the surface or in depth.
-/

namespace RegionTypes

open Run

/-- A function from types to types with a state of its own. -/
abbrev Mapping (σ : Type) := TypeId → StateT σ Run TypeId

section

variable {σ : Type}

/-- Applies a mapping to one element of a list, at its position.  The first element that changes makes
a copy of the list, and each that changes is replaced in the copy. -/
def mapElement (f : Mapping σ) (types : List TypeId) (element : TypeId × Nat)
    (copy : Option (List TypeId)) : StateT σ Run (Option (List TypeId)) := do
  let image ← f element.1
  return if image = element.1 then copy else some ((copy.getD types).set element.2 image)

/-- Goes through the elements from the last to the first.  The list itself comes back if none of them
changed, and otherwise its copy. -/
def mapList (f : Mapping σ) (types : List TypeId) : StateT σ Run (List TypeId × Bool) := do
  let copy ← types.zipIdx.foldrM (mapElement f types) none
  return (copy.getD types, copy.isSome)

/-- The images of the elements, worked out from the last to the first. -/
def mapEach (f : Mapping σ) : List TypeId → StateT σ Run (List TypeId)
  | [] => return []
  | ty :: rest => do
    let images ← mapEach f rest
    let image ← f ty
    return image :: images

/-- The copy made on the way through the back of a list. -/
theorem foldrM_mapElement (f : Mapping σ) (front back : List TypeId) :
    (back.zipIdx front.length).foldrM (mapElement f (front ++ back)) none = do
      let images ← mapEach f back
      return if images = back then none else some (front ++ images) := by
  induction back generalizing front with
  | nil => rfl
  | cons ty rest ih =>
    have hback := ih (front ++ [ty])
    simp only [List.append_assoc, List.singleton_append, List.length_append,
      List.length_singleton] at hback
    rw [List.zipIdx_cons, List.foldrM_cons, hback]
    simp only [mapEach, mapElement, bind_assoc, pure_bind]
    refine congrArg _ (funext fun images => congrArg _ (funext fun image => congrArg _ ?_))
    by_cases hsame : image = ty <;> by_cases hrest : images = rest <;> simp [hsame, hrest]

/-- The copy is the list of the images, and it is made exactly when one of them differs. -/
theorem mapList_eq (f : Mapping σ) (types : List TypeId) :
    mapList f types = do
      let images ← mapEach f types
      return (images, images != types) := by
  have hcopy := foldrM_mapElement f [] types
  simp only [List.nil_append, List.length_nil] at hcopy
  simp only [mapList, hcopy, bind_assoc, pure_bind]
  refine congrArg _ (funext fun images => congrArg pure ?_)
  by_cases hsame : images = types <;> simp [hsame]

/-- Allocates an array type over changed elements: region and index variable are dropped. -/
def rebuildArray (elem : TypeId) : Run TypeId :=
  pushType { symbol := none, kind := .array ⟨elem, Path.root, none⟩ }

/-- Allocates a class type with changed arguments.  Region and effect arguments are copied as far as
they are known; supertypes and caches are not. -/
def rebuildClass (ty : TypeId) (data : TypeData) (outer : TypeId) (args : List TypeId) :
    Run TypeId := do
  let copied : ClassInfo ← match (← kindOf ty).class? with
    | some info =>
      pure { outer, typeArgs := some args, regionArgs := info.regionArgs,
             effectArgs := info.effectArgs, cellType := info.cellType }
    | none => pure { outer, typeArgs := some args }
  pushType { data with kind := .classType copied }

def rebuildMethod (ty : TypeId) (params : List TypeId) (result : TypeId) (thrown : List TypeId) :
    Run TypeId := do
  let actuals := match ← kindOf ty with
    | .method info => info.actuals
    | _ => none
  pushType { symbol := none, kind := .method ⟨params, result, thrown, actuals⟩ }

/-- Allocates a quantified type; it shares its body's symbol. -/
def quantify (info : ForAllInfo) : Run TypeId := do
  let symbol := (← typeData info.body).symbol
  pushType { symbol, kind := .forAll info }

def rebuildWildcard (ty bound : TypeId) (kind : BoundKind) : Run TypeId := do
  let formal := (← wildcard? ty).bind WildcardInfo.formal
  pushType { symbol := none, kind := .wildcard ⟨bound, kind, formal⟩ }

/-- Applies a mapping to the immediate components of a type. -/
def mapType (load : Loader) (depth : Nat) (f : Mapping σ) (ty : TypeId) : StateT σ Run TypeId := do
  let data ← typeData ty
  match data.kind with
  | .classType info =>
    let args ← typeArguments load depth ty
    let outer ← f info.outer
    let (images, changed) ← mapList f args
    if outer = info.outer && !changed then return ty
    else rebuildClass ty data outer images
  | .array info =>
    let elem ← f info.elem
    if elem = info.elem then return ty else rebuildArray elem
  | .method info =>
    let (params, paramsChanged) ← mapList f info.params
    let result ← f info.result
    let (thrown, thrownChanged) ← mapList f (← thrownTypes 1 ty)
    if !paramsChanged && result = info.result && !thrownChanged then return ty
    else rebuildMethod ty params result thrown
  | .forAll info =>
    let body ← f info.body
    if body = info.body then return ty else quantify { info with body }
  | .wildcard info =>
    let bound ← f info.bound
    if bound = info.bound then return ty else rebuildWildcard ty bound info.kind
  | _ => return ty

end

/-! ### Substitution -/

/-- Which types to put in the place of which variables; earlier pairs come first. -/
structure Substitution where
  pairs : List (TypeId × TypeId)
  deriving DecidableEq, Repr

namespace Substitution

/-- Pairs each source with its target; what is left over on either side is ignored. -/
def ofLists (sources targets : List TypeId) : Substitution := ⟨sources.zip targets⟩

def isEmpty (s : Substitution) : Bool := s.pairs.isEmpty

def symbolOf (ty : TypeId) : Run (Option SymbolId) := do return (← typeData ty).symbol

/-- Whether a source stands for a variable: it is the same type, or another occurrence of the
variable with this symbol. -/
def stands (var : TypeId) (symbol : Option SymbolId) (source : TypeId) : Run Bool :=
  if source = var then pure true
  else match symbol with
    | none => pure false
    | some sym => do return (← symbolOf source) = some sym

/-- The target of the first pair whose source stands for the variable. -/
def find? (var : TypeId) (symbol : Option SymbolId) : List (TypeId × TypeId) → Run (Option TypeId)
  | [] => return none
  | (source, target) :: rest => do
    if ← stands var symbol source then return some target else find? var symbol rest

/-- What a variable is replaced by; itself if no pair is for it. -/
def replacement (s : Substitution) (var : TypeId) : Run TypeId := do
  let symbol ← symbolOf var
  return (← find? var symbol s.pairs).getD var

/-- Whether a source is one of the given variables or an occurrence of one. -/
def isHidden (vars : List TypeId) (symbols : List SymbolId) (source : TypeId) : Run Bool :=
  if vars.contains source then pure true
  else do return (← symbolOf source).any symbols.contains

/-- The substitution without the pairs for the variables of a quantifier. -/
def without (s : Substitution) (vars : List TypeId) : Run Substitution := do
  let symbols := (← vars.mapM symbolOf).filterMap id
  return ⟨← s.pairs.filterM fun pair => do return !(← isHidden vars symbols pair.1)⟩

end Substitution

/-- A computation on a session as a mapping without state. -/
def stateless (f : TypeId → Run TypeId) : Mapping Unit := fun ty => f ty

def substitute (load : Loader) : Nat → Substitution → TypeId → Run TypeId
  | 0, _, _ => tooDeep
  | depth + 1, s, ty => do
    if s.isEmpty then return ty
    else
      match ← kindOf ty with
      | .typeVar _ | .captured .. => s.replacement ty
      | .forAll info =>
        let inner ← s.without info.typeVars
        if inner.isEmpty then return ty
        else (mapType load (depth + 1) (stateless (substitute load depth inner)) ty).run' ()
      | _ => (mapType load (depth + 1) (stateless (substitute load depth s)) ty).run' ()

def substituteList (load : Loader) (depth : Nat) (s : Substitution) (types : List TypeId) :
    Run (List TypeId × Bool) :=
  (mapList (stateless (substitute load depth s)) types).run' ()

/-! ### Tables -/

/-- Which types to replace by which, and whether to look for them in depth. -/
structure Table where
  pairs : List (TypeId × TypeId)
  deep : Bool

/-- Applies a table to a type, noting the types it was applied to, the latest first. -/
def Table.apply (load : Loader) (table : Table) : Nat → Mapping (List TypeId)
  | 0, _ => (tooDeep : Run TypeId)
  | depth + 1, ty => do
    modify (ty :: ·)
    match table.pairs.find? (·.1 = ty) with
    | some pair => return pair.2
    | none =>
      if table.deep then mapType load (depth + 1) (table.apply load depth) ty
      else return ty

end RegionTypes

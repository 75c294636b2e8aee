import RegionTypes.Proofs.Store.ReadOnly

/-!
# The changes a store goes through

Every operation on a store, completers included, works through a small number of changes.  Here they
are listed, each with what is checked before it is made; what holds of every run follows from this
list by a case analysis.

* `Kind.Revised` — what may happen to the data of one type.  A field that is written once is written
  while it is unset only.
* `Store.Routine` — the changes that any operation may make: options, running completers, new symbols
  and types, what may happen to a symbol, a revision of a type, the bound of a variable.
* `Store.Change` — **one change of the store**: a routine one, or one of the three that a single command
  makes, installing a completer, making a variable for a given prototype and replacing what a method
  throws.
* `Loader.Follows` — a loader that takes the store along a relation that allows every routine change.
  All that is shown about operations is shown for every such relation.
-/

namespace RegionTypes

/-! ### Revisions of a type -/

/-- The lists that loading a class supplies. -/
inductive Slot.Declared : {β : Type} → Slot β → Prop
  | typeArgs : Declared .typeArgs
  | regionArgs : Declared .regionArgs
  | effectArgs : Declared .effectArgs

/-- The lists that are worked out from others and kept. -/
inductive Slot.Derived : {β : Type} → Slot β → Prop
  | resolvedRegions : Derived .resolvedRegions
  | allTypeParams : Derived .allTypeParams
  | allRegionParams : Derived .allRegionParams
  | allEffectParams : Derived .allEffectParams

/-- What may become of the data of a type while so many completers are running. -/
inductive Kind.Revised (inFlight : Nat) : Kind → Kind → Prop
  | same (k : Kind) : Revised inFlight k k
  | define (info : ClassInfo) (sig : ClassSignature) (h : info.takenField? = none) :
    Revised inFlight (.classType info) (.classType (info.define sig))
  /-- A declared list that loading left unset is settled as empty. -/
  | settle {β : Type} (slot : Slot β) (info : ClassInfo) (hslot : slot.Declared)
      (h : slot.read info = none) :
    Revised inFlight (.classType info) (.classType (slot.write [] info))
  /-- A derived list is kept while no completer is running. -/
  | remember {β : Type} (slot : Slot β) (info : ClassInfo) (list : List β) (hslot : slot.Derived)
      (h : slot.read info = none) (hrest : inFlight = 0) :
    Revised inFlight (.classType info) (.classType (slot.write list info))
  | cell (info : ClassInfo) (cell : Option TypeId) :
    Revised inFlight (.classType info) (.classType { info with cellType := cell })
  | actuals (info : MethodInfo) (actuals : CallActuals) (h : info.actuals = none) :
    Revised inFlight (.method info) (.method { info with actuals := some actuals })
  | formal (info : WildcardInfo) (formal : TypeId) :
    Revised inFlight (.wildcard info) (.wildcard { info with formal := some formal })
  | lower (info : PlaceholderInfo) (bound : TypeId) :
    Revised inFlight (.placeholder info)
      (.placeholder { info with lowerBounds := addOnce bound info.lowerBounds })
  | upper (info : PlaceholderInfo) (bound : TypeId) :
    Revised inFlight (.placeholder info)
      (.placeholder { info with upperBounds := addOnce bound info.upperBounds })
  | solve (info : PlaceholderInfo) (solution : TypeId) (h : info.solution = none) :
    Revised inFlight (.placeholder info) (.placeholder { info with solution := some solution })

/-- The data of a type that has just been allocated: a class has its arguments at most, a placeholder
has neither bounds nor solution, and a variable has no prototype. -/
def Kind.IsNew : Kind → Prop
  | classType info =>
    info = { outer := info.outer, typeArgs := info.typeArgs, regionArgs := info.regionArgs,
             effectArgs := info.effectArgs, cellType := info.cellType }
  | placeholder info => info = { origin := info.origin }
  | typeVar info | captured info _ => info.prototype = none
  | _ => True

/-- Another occurrence of a declared variable.  Copies of a copy have the prototype of the copy. -/
def VarInfo.copy (info : VarInfo) (declared : TypeId) (regionArgs : List Path) : VarInfo :=
  { lower := info.lower, regionParams := info.regionParams, regionArgs
    prototype := some (info.prototype.getD declared) }

/-! ### Changes of the store -/

/-- The symbol of a class that could not be loaded, with its error type. -/
def Symbol.damaged (ty : TypeId) (y : Symbol) : Symbol :=
  { y with type := some ty, kind := .error, members := .error, completer := none }

variable {s t : Store}

namespace Store

/-- The store with the kind of one type changed. -/
def reviseType (s : Store) (ty : TypeId) (f : Kind → Kind) : Store :=
  s.updateType ty fun data => { data with kind := f data.kind }

/-- The store with a bound given to a variable that has none. -/
def setBound (s : Store) (bound ty : TypeId) : Store :=
  s.reviseType ty (·.mapVar (VarInfo.setBound bound))

/-- The store with a list of a class type written. -/
abbrev setList {β : Type} (s : Store) (slot : Slot β) (ty : TypeId) (list : List β) : Store :=
  s.reviseType ty (·.mapClass (slot.write list))

/-- The store with the types replaced that a method may throw. -/
def setThrown (s : Store) (thrown : List TypeId) (ty : TypeId) : Store :=
  s.reviseType ty (·.mapMethod fun info => { info with thrown })

theorem bind_type?_reviseType {α : Type} {g : TypeData → Option α} {f : Kind → Kind} {ty : TypeId}
    (h : ∀ data, s.type? ty = some data → g { data with kind := f data.kind } = g data) (a : TypeId) :
    ((s.reviseType ty f).type? a).bind g = (s.type? a).bind g := by
  rw [reviseType, type?_updateType]
  split
  · next hty =>
    subst hty
    cases hdata : s.type? ty with
    | none => rfl
    | some data => exact h data hdata
  · rfl

/-- One change of a store that any operation may make. -/
inductive Routine (s : Store) : Store → Prop
  | options (options : DisplayOptions) : Routine s { s with options }
  | inFlight (n : Nat) : Routine s { s with inFlight := n }
  | declare (name : String) (owner : Option SymbolId) (kind : SymbolKind) (flags : Flags) :
    Routine s (s.pushSymbol { name, owner, kind, flags })
  /-- A symbol without a type gets one that was made for it, which is no error type. -/
  | attach (sym : SymbolId) (ty : TypeId) (y : Symbol) (data : TypeData)
      (hy : s.symbol? sym = some y) (htype : y.type = none) (hdata : s.type? ty = some data)
      (hsym : data.symbol = some sym) (hkind : ∀ outer, data.kind ≠ .error outer) :
    Routine s (s.updateSymbol sym fun y => { y with type := some ty })
  | damage (sym : SymbolId) (ty : TypeId) (data : TypeData) (hdata : s.type? ty = some data)
      (hsym : data.symbol = some sym) (hkind : data.kind = .error WellKnown.missing) :
    Routine s (s.updateSymbol sym (Symbol.damaged ty))
  | flags (sym : SymbolId) (flags : Flags) :
    Routine s (s.updateSymbol sym fun y => { y with flags })
  | enter (sym member : SymbolId) :
    Routine s (s.updateSymbol sym fun y => { y with members := y.members.enter member })
  | detach (sym : SymbolId) :
    Routine s (s.updateSymbol sym fun y => { y with completer := none })
  | completing (sym : SymbolId) (completing : Bool) :
    Routine s (s.updateSymbol sym fun y => { y with completing })
  | allocate (data : TypeData) (hnew : data.kind.IsNew) : Routine s (s.pushType data)
  | copy (declared : TypeId) (data : TypeData) (info : VarInfo) (regionArgs : List Path)
      (hdata : s.type? declared = some data) (hkind : data.kind = .typeVar info) :
    Routine s (s.pushType
      { symbol := data.symbol, kind := .typeVar (info.copy declared regionArgs) })
  | revise (ty : TypeId) (f : Kind → Kind)
      (h : ∀ data, s.type? ty = some data → data.kind.Revised s.inFlight (f data.kind)) :
    Routine s (s.reviseType ty f)
  /-- A variable whose prototype is no variable, or that has none, gets its bound. -/
  | bound (ty bound : TypeId) (data : TypeData) (info : VarInfo) (hdata : s.type? ty = some data)
      (hvar : data.kind.var? = some info) (hfree : info.refuses bound = false)
      (hown : ∀ owner ownerData, info.prototype = some owner → s.type? owner = some ownerData →
        ownerData.kind.var? = none) :
    Routine s (s.setBound bound ty)
  /-- A variable and its prototype get their bound together. -/
  | sharedBound (ty owner bound : TypeId) (data ownerData : TypeData) (info ownerInfo : VarInfo)
      (hdata : s.type? ty = some data) (hvar : data.kind.var? = some info)
      (hfree : info.refuses bound = false) (howner : info.prototype = some owner)
      (hownerData : s.type? owner = some ownerData)
      (hownerVar : ownerData.kind.var? = some ownerInfo)
      (hownerFree : ownerInfo.refuses bound = false) :
    Routine s ((s.setBound bound ty).setBound bound owner)

/-- The changes before and after the run of a completer. -/
inductive Marks (s : Store) : Store → Prop
  | inFlight (n : Nat) : Marks s { s with inFlight := n }
  | detach (sym : SymbolId) : Marks s (s.updateSymbol sym fun y => { y with completer := none })
  | completing (sym : SymbolId) (completing : Bool) :
    Marks s (s.updateSymbol sym fun y => { y with completing })

theorem Marks.routine (h : s.Marks t) : s.Routine t := by
  cases h with
  | inFlight n => exact .inFlight n
  | detach sym => exact .detach sym
  | completing sym completing => exact .completing sym completing

/-- A list of a class type that was unset is set: a declared one that loading has left unset, or a
derived one while no completer is running. -/
inductive SetsList (s : Store) : Store → Prop
  | settle {β : Type} (slot : Slot β) (ty : TypeId) (data : TypeData) (info : ClassInfo)
      (hslot : slot.Declared) (hdata : s.type? ty = some data) (hkind : data.kind = .classType info)
      (hunset : slot.read info = none) :
    SetsList s (s.setList slot ty [])
  | remember {β : Type} (slot : Slot β) (ty : TypeId) (list : List β) (data : TypeData)
      (info : ClassInfo) (hslot : slot.Derived) (hdata : s.type? ty = some data)
      (hkind : data.kind = .classType info) (hunset : slot.read info = none)
      (hrest : s.inFlight = 0) :
    SetsList s (s.setList slot ty list)

theorem SetsList.routine (h : s.SetsList t) : s.Routine t := by
  cases h with
  | settle slot ty data info hslot hdata hkind hunset =>
    refine .revise ty _ fun data' hdata' => ?_
    obtain rfl : data = data' := Option.mem_unique hdata hdata'
    rw [hkind]
    exact .settle slot info hslot hunset
  | remember slot ty list data info hslot hdata hkind hunset hrest =>
    refine .revise ty _ fun data' hdata' => ?_
    obtain rfl : data = data' := Option.mem_unique hdata hdata'
    rw [hkind]
    exact .remember slot info list hslot hunset hrest

/-- A class type none of whose lists and supertypes is set gets its signature. -/
inductive Defines (s : Store) : Store → Prop
  | define (ty : TypeId) (sig : ClassSignature) (data : TypeData) (info : ClassInfo)
      (hdata : s.type? ty = some data) (hkind : data.kind = .classType info)
      (htaken : info.takenField? = none) : Defines s (s.reviseType ty (·.mapClass (ClassInfo.define sig)))

theorem Defines.routine (h : s.Defines t) : s.Routine t := by
  cases h with
  | define ty sig data info hdata hkind htaken =>
    refine .revise ty _ fun data' hdata' => ?_
    obtain rfl : data = data' := Option.mem_unique hdata hdata'
    rw [hkind]
    exact .define info sig htaken

/-- One change of a store. -/
inductive Change (s : Store) : Store → Prop
  | routine {t : Store} (h : Routine s t) : Change s t
  | install (sym : SymbolId) (completer : Completer) :
    Change s (s.updateSymbol sym fun y => { y with completer := some completer })
  | prototyped (sym : SymbolId) (info : VarInfo) :
    Change s (s.pushType { symbol := some sym, kind := .typeVar info })
  | thrown (thrown : List TypeId) (ty : TypeId) : Change s (s.setThrown thrown ty)

end Store

/-- The changes that a command makes by itself. -/
inductive Command.Makes : Command → Store → Store → Prop
  | install {s : Store} (symbol : SymbolRef) (completer : Completer) (sym : SymbolId) :
    Makes (.setCompleter symbol completer.script completer.propagate completer.failure) s
      (s.updateSymbol sym fun y => { y with completer := some completer })
  | prototyped {s : Store} (symbol : SymbolRef) (bound lower : Option TypeRef)
      (regionParams regionArgs : List Path) (prototype : Option TypeRef) (sym : SymbolId)
      (info : VarInfo) (hprototype : prototype = none → info.prototype = none) :
    Makes (.typeVar symbol bound lower regionParams regionArgs prototype) s
      (s.pushType { symbol := some sym, kind := .typeVar info })
  | thrown {s : Store} (type : TypeRef) (types : List TypeRef) (thrown : List TypeId) (ty : TypeId) :
    Makes (.setThrown type types) s (s.setThrown thrown ty)

theorem Command.Makes.change {command : Command} (h : command.Makes s t) :
    s.Change t := by
  cases h with
  | install symbol completer sym => exact .install sym completer
  | prototyped symbol bound lower regionParams regionArgs prototype sym info =>
    exact .prototyped sym info
  | thrown type types thrown ty => exact .thrown thrown ty

/-- The relation allows every routine change, and the loader takes the store along it. -/
structure Loader.Follows (load : Loader) (R : Store → Store → Prop) : Prop where
  change : ∀ s t, Store.Routine s t → R s t
  load : ∀ sym, Run.Along R (load sym)

end RegionTypes

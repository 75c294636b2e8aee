import RegionTypes.Proofs.Store.Commands
import RegionTypes.Proofs.Store.Components

/-!
# Evolution of a store

A store only grows.  What is written about a type or a symbol stays, and what is filled in later is
filled in once.

* `Kept` — a field that is written once: what is set stays.
* `Kind.Precedes`, `TypeData.Precedes` — what a type has in common with any later state of it.
* `Store.Precedes` — **a later state of the store**: every type and every symbol is still there under
  its handle, and a symbol's type has at most become an error type.
* `Store.BoundsDistinct` — no placeholder has a bound twice.
* `Store.Change.evolves` — each change of a store leads to a later state and keeps bounds distinct.
* `Store.Later`, `perform_later` — the states that any number of changes lead to.
* `store_evolution_monotone` — **so does every operation**, whatever completers it starts and however
  it ends.
-/

namespace RegionTypes

/-- What is set stays. -/
def Kept {α : Type} (old new : Option α) : Prop := ∀ a, old = some a → new = some a

namespace Kept

variable {α : Type} {a b c : Option α}

protected theorem refl (a : Option α) : Kept a a := fun _ h => h

protected theorem trans (hab : Kept a b) (hbc : Kept b c) : Kept a c :=
  fun x hx => hbc x (hab x hx)

theorem of_none (h : a = none) : Kept a b := by
  intro x hx
  rw [h] at hx
  cases hx

end Kept

/-! ### Types -/

/-- The class data at a later time: the fields that are written once are kept. -/
structure ClassInfo.Precedes (a b : ClassInfo) : Prop where
  outer : b.outer = a.outer
  typeArgs : Kept a.typeArgs b.typeArgs
  regionArgs : Kept a.regionArgs b.regionArgs
  effectArgs : Kept a.effectArgs b.effectArgs
  supertype : Kept a.supertype b.supertype
  interfaces : Kept a.interfaces b.interfaces
  resolvedRegions : Kept a.resolvedRegions b.resolvedRegions
  allTypeParams : Kept a.allTypeParams b.allTypeParams
  allRegionParams : Kept a.allRegionParams b.allRegionParams
  allEffectParams : Kept a.allEffectParams b.allEffectParams

/-- The method data at a later time. -/
structure MethodInfo.Precedes (a b : MethodInfo) : Prop where
  params : b.params = a.params
  result : b.result = a.result
  actuals : Kept a.actuals b.actuals

/-- The data of a variable at a later time: only the bound may have been added. -/
structure VarInfo.Precedes (a b : VarInfo) : Prop where
  bound : Kept a.bound b.bound
  lower : b.lower = a.lower
  regionParams : b.regionParams = a.regionParams
  regionArgs : b.regionArgs = a.regionArgs
  prototype : b.prototype = a.prototype

/-- The data of a placeholder at a later time: bounds were added at the end. -/
structure PlaceholderInfo.Precedes (a b : PlaceholderInfo) : Prop where
  origin : b.origin = a.origin
  lowerBounds : a.lowerBounds <+: b.lowerBounds
  upperBounds : a.upperBounds <+: b.upperBounds
  solution : Kept a.solution b.solution

/-- The data of a type at a later time.  The variant stays, and so does all the data of the variants
that are not listed. -/
inductive Kind.Precedes : Kind → Kind → Prop
  | same (k : Kind) : Precedes k k
  | classType {a b : ClassInfo} (h : a.Precedes b) : Precedes (.classType a) (.classType b)
  | method {a b : MethodInfo} (h : a.Precedes b) : Precedes (.method a) (.method b)
  | typeVar {a b : VarInfo} (h : a.Precedes b) : Precedes (.typeVar a) (.typeVar b)
  | captured {a b : VarInfo} {w : TypeId} (h : a.Precedes b) :
    Precedes (.captured a w) (.captured b w)
  | wildcard {a b : WildcardInfo} (hbound : b.bound = a.bound) (hkind : b.kind = a.kind) :
    Precedes (.wildcard a) (.wildcard b)
  | placeholder {a b : PlaceholderInfo} (h : a.Precedes b) :
    Precedes (.placeholder a) (.placeholder b)

/-- A type at a later time. -/
structure TypeData.Precedes (a b : TypeData) : Prop where
  symbol : b.symbol = a.symbol
  erased : b.erased = a.erased
  literal : b.literal = a.literal
  kind : a.kind.Precedes b.kind

protected theorem ClassInfo.Precedes.refl (a : ClassInfo) : a.Precedes a :=
  ⟨rfl, .refl _, .refl _, .refl _, .refl _, .refl _, .refl _, .refl _, .refl _, .refl _⟩

protected theorem ClassInfo.Precedes.trans {a b c : ClassInfo} (hab : a.Precedes b)
    (hbc : b.Precedes c) : a.Precedes c where
  outer := hbc.outer.trans hab.outer
  typeArgs := hab.typeArgs.trans hbc.typeArgs
  regionArgs := hab.regionArgs.trans hbc.regionArgs
  effectArgs := hab.effectArgs.trans hbc.effectArgs
  supertype := hab.supertype.trans hbc.supertype
  interfaces := hab.interfaces.trans hbc.interfaces
  resolvedRegions := hab.resolvedRegions.trans hbc.resolvedRegions
  allTypeParams := hab.allTypeParams.trans hbc.allTypeParams
  allRegionParams := hab.allRegionParams.trans hbc.allRegionParams
  allEffectParams := hab.allEffectParams.trans hbc.allEffectParams

protected theorem MethodInfo.Precedes.trans {a b c : MethodInfo} (hab : a.Precedes b)
    (hbc : b.Precedes c) : a.Precedes c :=
  ⟨hbc.params.trans hab.params, hbc.result.trans hab.result, hab.actuals.trans hbc.actuals⟩

protected theorem VarInfo.Precedes.trans {a b c : VarInfo} (hab : a.Precedes b)
    (hbc : b.Precedes c) : a.Precedes c where
  bound := hab.bound.trans hbc.bound
  lower := hbc.lower.trans hab.lower
  regionParams := hbc.regionParams.trans hab.regionParams
  regionArgs := hbc.regionArgs.trans hab.regionArgs
  prototype := hbc.prototype.trans hab.prototype

protected theorem PlaceholderInfo.Precedes.trans {a b c : PlaceholderInfo} (hab : a.Precedes b)
    (hbc : b.Precedes c) : a.Precedes c where
  origin := hbc.origin.trans hab.origin
  lowerBounds := hab.lowerBounds.trans hbc.lowerBounds
  upperBounds := hab.upperBounds.trans hbc.upperBounds
  solution := hab.solution.trans hbc.solution

protected theorem Kind.Precedes.trans {a b c : Kind} (hab : a.Precedes b) (hbc : b.Precedes c) :
    a.Precedes c := by
  cases hab with
  | same => exact hbc
  | classType h =>
    cases hbc with
    | same => exact .classType h
    | classType h' => exact .classType (h.trans h')
  | method h =>
    cases hbc with
    | same => exact .method h
    | method h' => exact .method (h.trans h')
  | typeVar h =>
    cases hbc with
    | same => exact .typeVar h
    | typeVar h' => exact .typeVar (h.trans h')
  | captured h =>
    cases hbc with
    | same => exact .captured h
    | captured h' => exact .captured (h.trans h')
  | wildcard hbound hkind =>
    cases hbc with
    | same => exact .wildcard hbound hkind
    | wildcard hbound' hkind' => exact .wildcard (hbound'.trans hbound) (hkind'.trans hkind)
  | placeholder h =>
    cases hbc with
    | same => exact .placeholder h
    | placeholder h' => exact .placeholder (h.trans h')

/-! Variants at a later time. -/

variable {k : Kind} {info : ClassInfo}

theorem Kind.Precedes.of_classType (h : (Kind.classType info).Precedes k) :
    ∃ info', k = .classType info' ∧ info.Precedes info' := by
  cases h with
  | same => exact ⟨info, rfl, .refl info⟩
  | classType h => exact ⟨_, rfl, h⟩

theorem Kind.Precedes.of_method {info : MethodInfo} (h : (Kind.method info).Precedes k) :
    ∃ info', k = .method info' ∧ info'.params = info.params ∧ info'.result = info.result := by
  cases h with
  | same => exact ⟨info, rfl, rfl, rfl⟩
  | method h => exact ⟨_, rfl, h.params, h.result⟩

theorem Kind.Precedes.of_typeVar {info : VarInfo} (h : (Kind.typeVar info).Precedes k) :
    ∃ info', k = .typeVar info' ∧ info.Precedes info' := by
  cases h with
  | same => exact ⟨info, rfl, .refl _, rfl, rfl, rfl, rfl⟩
  | typeVar h => exact ⟨_, rfl, h⟩

protected theorem TypeData.Precedes.refl (a : TypeData) : a.Precedes a := ⟨rfl, rfl, rfl, .same _⟩

protected theorem TypeData.Precedes.trans {a b c : TypeData} (hab : a.Precedes b)
    (hbc : b.Precedes c) : a.Precedes c :=
  ⟨hbc.symbol.trans hab.symbol, hbc.erased.trans hab.erased, hbc.literal.trans hab.literal,
    hab.kind.trans hbc.kind⟩

/-- The kind is that of an error type. -/
def Kind.IsError (k : Kind) : Prop := ∃ outer, k = .error outer

theorem Kind.Precedes.isError {a b : Kind} (h : a.Precedes b) (ha : a.IsError) : b.IsError := by
  obtain ⟨outer, rfl⟩ := ha
  cases h with
  | same => exact ⟨outer, rfl⟩

theorem Kind.Precedes.isError_of_later {a b : Kind} (h : a.Precedes b) (hb : b.IsError) :
    a.IsError := by
  obtain ⟨outer, rfl⟩ := hb
  cases h with
  | same => exact ⟨outer, rfl⟩

/-! ### Stores -/

variable {ty : TypeId}

namespace Store

/-- The handle is that of an error type. -/
def IsErrorType (s : Store) (ty : TypeId) : Prop :=
  ∃ data, s.type? ty = some data ∧ data.kind.IsError

/-- A symbol in the store at a later time: its type stays or becomes an error type. -/
structure KeepsSymbol (t : Store) (a b : Symbol) : Prop where
  name : b.name = a.name
  owner : b.owner = a.owner
  type : ∀ ty, a.type = some ty → ∃ ty', b.type = some ty' ∧ (ty' = ty ∨ t.IsErrorType ty')

/-- A store at a later time. -/
structure Precedes (s t : Store) : Prop where
  types : ∀ ty data, s.type? ty = some data → ∃ data', t.type? ty = some data' ∧ data.Precedes data'
  symbols : ∀ sym y, s.symbol? sym = some y → ∃ y', t.symbol? sym = some y' ∧ t.KeepsSymbol y y'

variable {s t u : Store}

theorem KeepsSymbol.of_eq {a b : Symbol} (hname : b.name = a.name) (howner : b.owner = a.owner)
    (htype : b.type = a.type) : t.KeepsSymbol a b :=
  ⟨hname, howner, fun ty hty => ⟨ty, htype.trans hty, .inl rfl⟩⟩

theorem Precedes.isErrorType (h : s.Precedes t) (hty : s.IsErrorType ty) :
    t.IsErrorType ty := by
  obtain ⟨data, hdata, herror⟩ := hty
  obtain ⟨data', hdata', hkeeps⟩ := h.types ty data hdata
  exact ⟨data', hdata', hkeeps.kind.isError herror⟩

theorem Precedes.classType {data : TypeData} (h : s.Precedes t) (hdata : s.type? ty = some data)
    (hkind : data.kind = .classType info) :
    ∃ data' info', t.type? ty = some data' ∧ data'.kind = .classType info' ∧ data.Precedes data' ∧
      info.Precedes info' := by
  obtain ⟨data', hdata', hkeeps⟩ := h.types ty data hdata
  have hkind' := hkeeps.kind
  rw [hkind] at hkind'
  obtain ⟨info', hclass, hinfo⟩ := hkind'.of_classType
  exact ⟨data', info', hdata', hclass, hkeeps, hinfo⟩

theorem precedes_of_eq (htypes : t.types = s.types) (hsymbols : t.symbols = s.symbols) :
    s.Precedes t where
  types ty data hdata := ⟨data, by rw [type?, htypes]; exact hdata, .refl data⟩
  symbols sym y hy := ⟨y, by rw [symbol?, hsymbols]; exact hy, .of_eq rfl rfl rfl⟩

protected theorem Precedes.trans (hst : s.Precedes t) (htu : t.Precedes u) : s.Precedes u where
  types ty data hdata := by
    obtain ⟨data', hdata', hkeeps⟩ := hst.types ty data hdata
    obtain ⟨data'', hdata'', hkeeps'⟩ := htu.types ty data' hdata'
    exact ⟨data'', hdata'', hkeeps.trans hkeeps'⟩
  symbols sym y hy := by
    obtain ⟨y', hy', hkeeps⟩ := hst.symbols sym y hy
    obtain ⟨y'', hy'', hkeeps'⟩ := htu.symbols sym y' hy'
    refine ⟨y'', hy'', hkeeps'.name.trans hkeeps.name, hkeeps'.owner.trans hkeeps.owner, ?_⟩
    intro ty hty
    obtain ⟨ty', hty', hsame⟩ := hkeeps.type ty hty
    obtain ⟨ty'', hty'', hsame'⟩ := hkeeps'.type ty' hty'
    refine ⟨ty'', hty'', ?_⟩
    rcases hsame' with rfl | herror
    · -- an error type stays one
      rcases hsame with rfl | herror
      · exact .inl rfl
      · exact .inr (htu.isErrorType herror)
    · exact .inr herror

/-! ### The ways a store changes -/

theorem precedes_pushType (s : Store) (data : TypeData) : s.Precedes (s.pushType data) where
  types _ old hold := ⟨old, type?_pushType_of_some hold data, .refl old⟩
  symbols _ y hy := ⟨y, hy, .of_eq rfl rfl rfl⟩

theorem precedes_pushSymbol (s : Store) (new : Symbol) : s.Precedes (s.pushSymbol new) where
  types ty data hdata := ⟨data, hdata, .refl data⟩
  symbols sym y hy := by
    refine ⟨y, ?_, .of_eq rfl rfl rfl⟩
    rw [symbol?_pushSymbol, if_neg (ne_nextSymbol (Option.isSome_iff_exists.2 ⟨y, hy⟩)), hy]

theorem precedes_updateSymbol {sym : SymbolId} {f : Symbol → Symbol}
    (h : ∀ y, s.symbol? sym = some y → s.KeepsSymbol y (f y)) :
    s.Precedes (s.updateSymbol sym f) where
  types ty data hdata := ⟨data, hdata, .refl data⟩
  symbols a y hy := by
    rw [symbol?_updateSymbol]
    split
    · next hsym =>
      subst hsym
      have hkeeps := h y hy
      exact ⟨f y, by rw [hy]; rfl, hkeeps.name, hkeeps.owner, hkeeps.type⟩
    · exact ⟨y, hy, .of_eq rfl rfl rfl⟩

theorem precedes_reviseType {f : Kind → Kind}
    (h : ∀ data, s.type? ty = some data → data.kind.Precedes (f data.kind)) :
    s.Precedes (s.reviseType ty f) where
  types a data hdata := by
    rw [reviseType, type?_updateType]
    split
    · next hty =>
      subst hty
      exact ⟨{ data with kind := f data.kind }, by rw [hdata]; rfl, rfl, rfl, rfl, h data hdata⟩
    · exact ⟨data, hdata, .refl data⟩
  symbols sym y hy := ⟨y, hy, .of_eq rfl rfl rfl⟩

end Store

/-! ### Revisions -/

theorem addOnce_prefix (ty : TypeId) (types : List TypeId) : types <+: addOnce ty types := by
  unfold addOnce
  split
  · exact List.prefix_refl types
  · exact List.prefix_append types [ty]

theorem nodup_addOnce {types : List TypeId} (h : types.Nodup) :
    (addOnce ty types).Nodup := by
  unfold addOnce
  split
  · exact h
  · next hnot =>
    have hmem : ty ∉ types := by simpa using hnot
    exact List.nodup_append.2 ⟨h, List.nodup_singleton ty, by
      intro a ha b hb
      rw [List.mem_singleton.1 hb]
      rintro rfl
      exact hmem ha⟩

theorem ClassInfo.takenField?_eq_none :
    info.takenField? = none ↔ info.typeArgs = none ∧ info.regionArgs = none ∧
      info.effectArgs = none ∧ info.supertype = none ∧ info.interfaces = none := by
  unfold takenField?
  grind [Option.not_isSome_iff_eq_none]

/-- A signature is filled in only where nothing is set. -/
theorem ClassInfo.precedes_define (sig : ClassSignature) (h : info.takenField? = none) :
    info.Precedes (info.define sig) := by
  obtain ⟨htypes, hregions, heffects, hsupertype, hinterfaces⟩ := takenField?_eq_none.1 h
  exact { ClassInfo.Precedes.refl info with
    typeArgs := .of_none htypes
    regionArgs := .of_none hregions
    effectArgs := .of_none heffects
    supertype := .of_none hsupertype
    interfaces := .of_none hinterfaces }

theorem Slot.Declared.precedes_write {β : Type} {slot : Slot β} (hslot : slot.Declared) (list : List β)
    (h : slot.read info = none) :
    info.Precedes (slot.write list info) := by
  cases hslot with
  | typeArgs => exact { ClassInfo.Precedes.refl info with typeArgs := .of_none h }
  | regionArgs => exact { ClassInfo.Precedes.refl info with regionArgs := .of_none h }
  | effectArgs => exact { ClassInfo.Precedes.refl info with effectArgs := .of_none h }

theorem Slot.Derived.precedes_write {β : Type} {slot : Slot β} (hslot : slot.Derived) (list : List β)
    (h : slot.read info = none) :
    info.Precedes (slot.write list info) := by
  cases hslot with
  | resolvedRegions => exact { ClassInfo.Precedes.refl info with resolvedRegions := .of_none h }
  | allTypeParams => exact { ClassInfo.Precedes.refl info with allTypeParams := .of_none h }
  | allRegionParams => exact { ClassInfo.Precedes.refl info with allRegionParams := .of_none h }
  | allEffectParams => exact { ClassInfo.Precedes.refl info with allEffectParams := .of_none h }

theorem VarInfo.precedes_setBound (bound : TypeId) (info : VarInfo) :
    info.Precedes (info.setBound bound) := by
  refine ⟨fun old hold => ?_, rfl, rfl, rfl, rfl⟩
  rw [setBound, hold]
  rfl

theorem Kind.precedes_setBound (bound : TypeId) (k : Kind) :
    k.Precedes (k.mapVar (VarInfo.setBound bound)) := by
  cases k with
  | typeVar info => exact .typeVar (info.precedes_setBound bound)
  | captured info => exact .captured (info.precedes_setBound bound)
  | _ => exact .same _

theorem Kind.Revised.precedes {n : Nat} {a b : Kind} (h : a.Revised n b) : a.Precedes b := by
  cases h with
  | same => exact .same _
  | define info sig hunset => exact .classType (info.precedes_define sig hunset)
  | settle slot info hslot hunset => exact .classType (hslot.precedes_write [] hunset)
  | remember slot info list hslot hunset => exact .classType (hslot.precedes_write list hunset)
  | cell info => exact .classType { ClassInfo.Precedes.refl info with }
  | actuals info actuals hunset => exact .method ⟨rfl, rfl, .of_none hunset⟩
  | formal => exact .wildcard rfl rfl
  | lower info bound =>
    exact .placeholder ⟨rfl, addOnce_prefix bound _, List.prefix_refl _, .refl _⟩
  | upper info bound =>
    exact .placeholder ⟨rfl, List.prefix_refl _, addOnce_prefix bound _, .refl _⟩
  | solve info solution hunset =>
    exact .placeholder ⟨rfl, List.prefix_refl _, List.prefix_refl _, .of_none hunset⟩

/-! ### Bounds of placeholders -/

/-- The bounds of a placeholder are distinct. -/
def Kind.BoundsDistinct (k : Kind) : Prop :=
  ∀ info, k = .placeholder info → info.lowerBounds.Nodup ∧ info.upperBounds.Nodup

theorem Kind.IsNew.boundsDistinct (h : k.IsNew) : k.BoundsDistinct := by
  rintro info rfl
  have hnew : info = { origin := info.origin } := h
  rw [hnew]
  exact ⟨List.nodup_nil, List.nodup_nil⟩

theorem Kind.Revised.boundsDistinct {n : Nat} {a b : Kind} (h : a.Revised n b)
    (ha : a.BoundsDistinct) : b.BoundsDistinct := by
  rintro info rfl
  cases h with
  | same => exact ha info rfl
  | lower old =>
    have hold := ha old rfl
    exact ⟨nodup_addOnce hold.1, hold.2⟩
  | upper old =>
    have hold := ha old rfl
    exact ⟨hold.1, nodup_addOnce hold.2⟩
  | solve old => exact ha old rfl

theorem Kind.boundsDistinct_setBound (bound : TypeId) (h : k.BoundsDistinct) :
    (k.mapVar (VarInfo.setBound bound)).BoundsDistinct := by
  cases k with
  | placeholder => exact h
  | _ => exact fun _ hkind => nomatch hkind

namespace Store

variable {s t : Store} {data : TypeData}

/-- No placeholder has a lower or an upper bound twice. -/
def BoundsDistinct (s : Store) : Prop :=
  ∀ ty data, s.type? ty = some data → data.kind.BoundsDistinct

theorem initial_boundsDistinct (options : DisplayOptions) : (initial options).BoundsDistinct := by
  intro ty data hdata info hkind
  have hnone : ∀ data ∈ initialTypes, data.kind.tag ≠ .placeholder := by decide
  exact absurd (by rw [hkind]; rfl) (hnone data (mem_initialTypes hdata))

theorem boundsDistinct_reviseType {f : Kind → Kind}
    (h : ∀ data, s.type? ty = some data → data.kind.BoundsDistinct → (f data.kind).BoundsDistinct)
    (hs : s.BoundsDistinct) : (s.reviseType ty f).BoundsDistinct := by
  intro a data hdata
  rw [reviseType, type?_updateType] at hdata
  split at hdata
  · next hty =>
    subst hty
    obtain ⟨old, hold, rfl⟩ := Option.map_eq_some_iff.1 hdata
    exact h old hold (hs ty old hold)
  · exact hs a data hdata

theorem boundsDistinct_pushType (h : data.kind.BoundsDistinct) (hs : s.BoundsDistinct) :
    (s.pushType data).BoundsDistinct := by
  intro ty found hfound
  rw [type?_pushType] at hfound
  split at hfound
  · obtain rfl := Option.some.inj hfound
    exact h
  · exact hs ty found hfound

/-! ### Changes -/

/-- A later state of the store, in which the bounds of placeholders are still distinct. -/
structure Evolves (s t : Store) : Prop where
  precedes : s.Precedes t
  bounds : s.BoundsDistinct → t.BoundsDistinct

instance : IsPreorder Store Evolves where
  refl _ := ⟨precedes_of_eq rfl rfl, id⟩
  trans _ _ _ h h' := ⟨h.precedes.trans h'.precedes, h'.bounds ∘ h.bounds⟩

theorem evolves_setBound (s : Store) (bound ty : TypeId) : s.Evolves (s.setBound bound ty) where
  precedes := precedes_reviseType fun data _ => data.kind.precedes_setBound bound
  bounds := boundsDistinct_reviseType fun _ _ => Kind.boundsDistinct_setBound bound

theorem evolves_setThrown (s : Store) (thrown : List TypeId) (ty : TypeId) :
    s.Evolves (s.setThrown thrown ty) where
  precedes := precedes_reviseType fun data _ => by
    cases data.kind with
    | method => exact .method ⟨rfl, rfl, .refl _⟩
    | _ => exact .same _
  bounds := boundsDistinct_reviseType fun data _ h => by
    cases hkind : data.kind with
    | placeholder => rwa [hkind] at h
    | _ => exact fun _ hkind => nomatch hkind

theorem evolves_updateSymbol {sym : SymbolId} {f : Symbol → Symbol}
    (h : ∀ y, s.symbol? sym = some y → s.KeepsSymbol y (f y)) :
    s.Evolves (s.updateSymbol sym f) :=
  ⟨precedes_updateSymbol h, id⟩

theorem evolves_pushType (s : Store) (h : data.kind.BoundsDistinct) :
    s.Evolves (s.pushType data) :=
  ⟨s.precedes_pushType data, boundsDistinct_pushType h⟩

theorem Routine.evolves (h : s.Routine t) : s.Evolves t := by
  cases h with
  | options | inFlight => exact ⟨precedes_of_eq rfl rfl, id⟩
  | declare => exact ⟨s.precedes_pushSymbol _, id⟩
  | attach sym ty y data hy htype =>
    refine evolves_updateSymbol fun y' hy' => ⟨rfl, rfl, fun old hold => ?_⟩
    -- the symbol had no type
    obtain rfl : y = y' := Option.mem_unique hy hy'
    rw [htype] at hold
    cases hold
  | damage sym ty data hdata hsym hkind =>
    refine evolves_updateSymbol fun y hy => ⟨rfl, rfl, fun old _ => ?_⟩
    exact ⟨ty, rfl, .inr ⟨data, hdata, WellKnown.missing, hkind⟩⟩
  | flags | enter | detach | completing => exact evolves_updateSymbol fun _ _ => .of_eq rfl rfl rfl
  | allocate data hnew => exact s.evolves_pushType hnew.boundsDistinct
  | copy => exact s.evolves_pushType fun _ h => nomatch h
  | revise ty f hrevised =>
    exact ⟨precedes_reviseType fun data hdata => (hrevised data hdata).precedes,
      boundsDistinct_reviseType fun data hdata => (hrevised data hdata).boundsDistinct⟩
  | bound ty bound => exact s.evolves_setBound bound ty
  | sharedBound ty owner bound data ownerData info ownerInfo hdata hvar hfree howner hownerData
      hownerVar hownerFree =>
    exact trans_of Evolves (s.evolves_setBound bound ty) (evolves_setBound _ bound owner)

/-- **Each change leads to a later state.** -/
theorem Change.evolves (h : s.Change t) : s.Evolves t := by
  cases h with
  | routine h => exact h.evolves
  | install => exact evolves_updateSymbol fun _ _ => .of_eq rfl rfl rfl
  | prototyped => exact s.evolves_pushType fun _ h => nomatch h
  | thrown thrown ty => exact s.evolves_setThrown thrown ty

/-- The store after any number of changes.  The states inside an operation are among these. -/
def Later : Store → Store → Prop := Relation.ReflTransGen Change

instance : IsPreorder Store Later where
  refl _ := .refl
  trans _ _ _ := .trans

theorem Later.precedes (h : s.Later t) : s.Precedes t := by
  induction h with
  | refl => exact precedes_of_eq rfl rfl
  | tail _ hchange ih => exact ih.trans hchange.evolves.precedes

end Store

/-! ### Operations -/

open Run

/-- Every command leads to a later state. -/
theorem perform_later (depth : Nat) (command : Command) :
    Along Store.Later (perform depth command) :=
  perform_along (fun _ _ h => .single h) depth command

theorem completerLoader_later (depth : Nat) : (completerLoader depth).Follows Store.Later :=
  completerLoader_follows (fun _ _ h => .single (.routine h)) (perform_later depth)

/-- **A store only grows.**  In every reachable session the bounds of placeholders are distinct.
Every command, from any session, whatever completers it starts and however it ends, leads to a later
state of the store; so do mapping the components of a type and mapping a list, for any mapping that
itself leads to later states. -/
theorem store_evolution_monotone :
    (∀ s : Session, s.Reachable → s.store.BoundsDistinct) ∧
      (∀ (depth : Nat) (command : Command), Along Store.Evolves (perform depth command)) ∧
      ∀ (σ : Type) (f : Mapping σ) (load : Loader), (∀ ty, AlongState Store.Evolves (f ty)) →
        (∀ sym, Along Store.Evolves (load sym)) →
          (∀ depth ty, AlongState Store.Evolves (mapType load depth f ty)) ∧
            ∀ types, AlongState Store.Evolves (mapList f types) := by
  have hchange : ∀ s t, Store.Change s t → s.Evolves t := fun _ _ h => h.evolves
  refine ⟨fun s hs => ?_, perform_along hchange, fun σ f load hf hload => ⟨?_, ?_⟩⟩
  · exact hs.invariant Store.initial_boundsDistinct fun s t h => h.evolves.bounds
  · exact mapType_along ⟨fun s t h => hchange s t (.routine h), hload⟩ hf
  · exact mapList_along hf

/-- A placeholder that is given the same bound twice, and a mapping of a list that replaces it. -/
theorem store_evolution_monotone_placeholder :
    let made := (makeStep (perform 3) (none, .placeholder (.handle WellKnown.int))).after
      (.initial {} .empty)
    let bounded := (makeStep (perform 3)
      (none, .addLowerBound (.handle ⟨12⟩) (.handle WellKnown.long))).after made
    let again := (makeStep (perform 3)
      (none, .addLowerBound (.handle ⟨12⟩) (.handle WellKnown.long))).after bounded
    let table : Table := ⟨[(⟨12⟩, WellKnown.long)], false⟩
    (again.store.type? ⟨12⟩).map TypeData.kind =
        some (.placeholder { origin := WellKnown.int, lowerBounds := [WellKnown.long] }) ∧
      again.store.BoundsDistinct ∧
      AlongState Store.Evolves (mapList (table.apply (fun _ => tooDeep) 3) [⟨12⟩]) := by
  intro made bounded again table
  have hload : Loader.Follows (fun _ => tooDeep) Store.Evolves :=
    ⟨fun _ _ h => h.evolves, fun _ => tooDeep_still.of_eq⟩
  have hreachable : again.Reachable := .step 3 _ (.step 3 _ (.step 3 _ (.initial {} .empty)))
  refine ⟨by decide +kernel, store_evolution_monotone.1 again hreachable, ?_⟩
  exact (store_evolution_monotone.2.2 _ _ _ (apply_along hload table 3) hload.load).2 [⟨12⟩]

end RegionTypes

import RegionTypes.Proofs.Store.Commands
import RegionTypes.Proofs.Store.Components

/-!
# Consistent stores

A store gives out its handles in order, so a type is made of types that were there before it.  This
and a few facts about what stands together in one record hold of every store that was worked with
through handles of its own.

* `Kind.ingredients` — the types that had to be there when a type was made.
* `TypeData.Shaped`, `TypeData.Consistent`, `Symbol.Consistent` — what holds of a record.
* `Store.Consistent` — **every record is consistent**.
* `Store.IssuedChange`, `Store.Develops` — what is done to a store through handles of its own.
* `Store.Upholds` — from a consistent store to one that it develops into, which is consistent too.
* `Store.upholds_pushType`, `Store.upholds_updateSymbol`, ... — what a change has to bring with it.
* `setUpperBound_upholds`, `recordActuals_upholds`, ... — what is told to a type later may be anything.
-/

namespace RegionTypes

open Run

/-! ### What a type is made of -/

/-- The type arguments that a class type was written with.  The list of a class that has got its
signature holds type parameters instead, and these may be younger. -/
def ClassInfo.written (info : ClassInfo) : List TypeId :=
  if info.interfaces.isNone then info.typeArgs.getD [] else []

/-- The types that had to be there when the type was made. -/
def Kind.ingredients : Kind → List TypeId
  | classType info => info.outer :: info.written
  | error outer => [outer]
  | array info => [info.elem]
  | method info => info.result :: info.params
  | forAll info => info.body :: info.typeVars
  | typeVar info => info.prototype.toList
  | captured info bounds => bounds :: info.prototype.toList
  | wildcard info => [info.bound]
  | placeholder info => [info.origin]
  | primitive _ | void | missing | bottom | package => []

/-- The types that a type refers to without being made of them: they may be told to it later. -/
def Kind.mentions : Kind → List TypeId
  | typeVar info | captured info _ => info.bound.toList
  | wildcard info => info.formal.toList
  | _ => []

/-- The index variable of an array type. -/
def Kind.indexVars : Kind → List SymbolId
  | array info => info.indexVar.toList
  | _ => []

/-- The symbols that a record names. -/
def TypeData.names (data : TypeData) : List SymbolId := data.symbol.toList ++ data.kind.indexVars

/-- Whether types with the tag have no symbol. -/
def Tag.unnamed : Tag → Bool
  | array | method | wildcard => true
  | _ => false

/-- A class that has supertypes has its lists. -/
def ClassInfo.Supplied (info : ClassInfo) : Prop :=
  info.supertype.isSome ∨ info.interfaces.isSome →
    info.typeArgs.isSome ∧ info.regionArgs.isSome ∧ info.effectArgs.isSome

/-- What stands together in the record of a type.  Captured variables count as type variables. -/
structure TypeData.Shaped (data : TypeData) : Prop where
  declared : data.kind.tag = .typeVar → data.symbol.isSome
  literal : data.literal.isSome → data.kind.tag.isPrimitive ∨ data.kind.tag = .classType
  erased : data.erased → data.kind.tag = .classType
  supplied : ∀ info, data.kind = .classType info → info.Supplied

/-- A record of a consistent store. -/
structure TypeData.Consistent (s : Store) (ty : TypeId) (data : TypeData) : Prop
    extends data.Shaped where
  older : ∀ c ∈ data.kind.ingredients, c.index < ty.index
  closed : ∀ c ∈ data.kind.components, s.Has c

/-- A symbol of a consistent store. -/
structure Symbol.Consistent (s : Store) (sym : SymbolId) (y : Symbol) : Prop where
  owner : ∀ o, y.owner = some o → o.index < sym.index
  /-- The canonical type of a symbol has that symbol. -/
  canonical : ∀ ty, y.type = some ty → s.Owns ty (some sym)

/-- **Every record is consistent.** -/
structure Store.Consistent (s : Store) : Prop where
  types : ∀ ty data, s.type? ty = some data → data.Consistent s ty
  symbols : ∀ sym y, s.symbol? sym = some y → y.Consistent s sym
  wellKnown : ∀ ty ∈ WellKnown.names.map Prod.snd, s.Has ty

theorem Store.Consistent.exists_owner {s : Store} (hs : s.Consistent) {sym owner : SymbolId}
    {y : Symbol} (hy : s.symbol? sym = some y) (howner : y.owner = some owner) :
    owner.index < sym.index ∧ ∃ z, s.symbol? owner = some z := by
  have holder := (hs.symbols sym y hy).owner owner howner
  exact ⟨holder, exists_symbol (Nat.lt_trans holder (symbol_lt hy))⟩

/-- A class in a consistent store that has none of its lists has no supertypes either. -/
theorem ClassInfo.Supplied.takenField?_ne {info : ClassInfo} (h : info.Supplied) :
    info.takenField? ≠ some .supertypes := by
  intro htaken
  unfold takenField? at htaken
  split at htaken
  · cases htaken
  · next htypes =>
    split at htaken
    · cases htaken
    · split at htaken
      · cases htaken
      · split at htaken
        · next hset => exact htypes (h (Bool.or_eq_true_iff.1 hset)).1
        · cases htaken

/-! ### Records -/

theorem TypeData.shaped_of_not_class {symbol : Option SymbolId} {kind : Kind}
    (hclass : kind.class? = none) (hvar : kind.tag = .typeVar → symbol.isSome) :
    TypeData.Shaped { symbol, kind } where
  declared := hvar
  literal := nofun
  erased := nofun
  supplied info hkind := by
    obtain rfl : kind = .classType info := hkind
    cases hclass

theorem TypeData.shaped_of_class {data : TypeData} {info : ClassInfo}
    (hkind : data.kind = .classType info) (hsuper : info.supertype = none)
    (hinterfaces : info.interfaces = none) : data.Shaped where
  declared h := by
    rw [hkind] at h
    cases h
  literal _ := by
    rw [hkind]
    exact .inr rfl
  erased _ := by
    rw [hkind]
    rfl
  supplied info' hkind' hset := by
    obtain rfl : info = info' := Kind.classType.inj (hkind.symm.trans hkind')
    rw [hsuper, hinterfaces] at hset
    exact nomatch hset

/-- The kinds are the same but for what a type is told later. -/
structure Kind.Alike (k k' : Kind) : Prop where
  tag : k'.tag = k.tag
  class? : k'.class? = k.class?
  ingredients : k'.ingredients = k.ingredients
  components : k'.components = k.components

variable {f : Kind → Kind}

namespace Store

variable {s t u : Store} {ty : TypeId} {data : TypeData} {sym : SymbolId} {y : Symbol}

/-! ### Stores that grow -/

/-- The store has all handles of the other. -/
structure Expands (s t : Store) : Prop where
  types : s.types.size ≤ t.types.size
  symbols : s.symbols.size ≤ t.symbols.size

theorem Expands.refl (s : Store) : s.Expands s := ⟨Nat.le_refl _, Nat.le_refl _⟩

theorem Expands.trans (h : s.Expands t) (h' : t.Expands u) : s.Expands u :=
  ⟨Nat.le_trans h.types h'.types, Nat.le_trans h.symbols h'.symbols⟩

theorem Expands.has (h : s.Expands t) (hty : s.Has ty) : t.Has ty :=
  has_iff_lt.2 (Nat.lt_of_lt_of_le (has_iff_lt.1 hty) h.types)

theorem Consistent.has_ingredient (hs : s.Consistent) (hdata : s.type? ty = some data) {c : TypeId}
    (hc : c ∈ data.kind.ingredients) : s.Has c := by
  have hlt := (hs.types ty data hdata).older c hc
  exact has_iff_lt.2 (Nat.lt_trans hlt (has_iff_lt.1 (has_iff.2 ⟨data, hdata⟩)))

/-- What is left to be shown of a store that has grown out of a consistent one. -/
theorem Consistent.of_expands (hs : s.Consistent) (hgrows : s.Expands t)
    (howns : ∀ ty symbol, s.Owns ty symbol → t.Owns ty symbol)
    (htypes : ∀ ty data, t.type? ty = some data → s.type? ty = some data ∨ data.Consistent t ty)
    (hsymbols : ∀ sym y, t.symbol? sym = some y → s.symbol? sym = some y ∨ y.Consistent t sym) :
    t.Consistent where
  types ty data hdata := by
    rcases htypes ty data hdata with hold | hnew
    · have hdata := hs.types ty data hold
      exact { hdata with closed := fun c hc => hgrows.has (hdata.closed c hc) }
    · exact hnew
  symbols sym y hy := by
    rcases hsymbols sym y hy with hold | hnew
    · have hy := hs.symbols sym y hold
      exact { hy with canonical := fun ty hty => howns ty _ (hy.canonical ty hty) }
    · exact hnew
  wellKnown ty hty := hgrows.has (hs.wellKnown ty hty)

/-! ### Changes through handles of the store -/

/-- The symbol belongs to the store, or to what a type of it names. -/
def Names (s : Store) (sym : SymbolId) : Prop :=
  sym.index < s.symbols.size ∨ ∃ ty data, s.type? ty = some data ∧ sym ∈ data.names

/-- The type belongs to the store, or to what a type of it mentions. -/
def Mentions (s : Store) (c : TypeId) : Prop :=
  s.Has c ∨ ∃ ty data, s.type? ty = some data ∧ c ∈ data.kind.mentions

/-- What a type becomes by being told something: it keeps its tag, and what it mentions in addition
belongs to the store. -/
structure Told (s : Store) (k k' : Kind) : Prop where
  tag : k'.tag = k.tag
  indexVars : k'.indexVars = k.indexVars
  mentions : ∀ c ∈ k'.mentions, c ∈ k.mentions ∨ s.Has c

/-- One change of a store by an operation that was given handles of the store. -/
inductive IssuedChange (s : Store) : Store → Prop
  | same {t : Store} (htypes : t.types = s.types) (hsymbols : t.symbols = s.symbols) :
    IssuedChange s t
  | type (data : TypeData) (hunnamed : data.kind.tag.unnamed → data.symbol = none)
      (hnames : ∀ sym ∈ data.names, s.Names sym)
      (hmentions : ∀ c ∈ data.kind.mentions, s.Mentions c) : IssuedChange s (s.pushType data)
  | symbol (y : Symbol) (htype : y.type = none) : IssuedChange s (s.pushSymbol y)
  | update (sym : SymbolId) (f : Symbol → Symbol) (htype : ∀ y, (f y).type = y.type) :
    IssuedChange s (s.updateSymbol sym f)
  /-- A new symbol gets a new type. -/
  | declare (y : Symbol) (kind : Kind) (htype : y.type = none)
      (htag : kind.tag = .classType ∨ kind.tag.atomic) (hmentions : ∀ c ∈ kind.mentions, s.Has c) :
    IssuedChange s (((s.pushSymbol y).pushType { symbol := some s.nextSymbol, kind }).updateSymbol
      s.nextSymbol fun y => { y with type := some s.nextType })
  /-- A symbol gets a new error type. -/
  | damage (sym : SymbolId) (hsym : sym.index < s.symbols.size) :
    IssuedChange s ((s.pushType { symbol := some sym, kind := .error WellKnown.missing }).updateSymbol
      sym (Symbol.damaged s.nextType))
  | revise (ty : TypeId) (f : Kind → Kind)
      (h : ∀ data, s.type? ty = some data → s.Told data.kind (f data.kind)) :
    IssuedChange s (s.reviseType ty f)

/-- The store becomes the other one by such changes. -/
def Develops : Store → Store → Prop := Relation.ReflTransGen IssuedChange

theorem IssuedChange.develops (h : s.IssuedChange t) : s.Develops t := .single h

theorem Develops.refl (s : Store) : s.Develops s := Relation.ReflTransGen.refl

theorem Develops.trans (h : s.Develops t) (h' : t.Develops u) : s.Develops u :=
  Relation.ReflTransGen.trans h h'

theorem expands_pushType (s : Store) (data : TypeData) : s.Expands (s.pushType data) :=
  ⟨by simp [Store.pushType], Nat.le_refl _⟩

theorem expands_pushSymbol (s : Store) (y : Symbol) : s.Expands (s.pushSymbol y) :=
  ⟨Nat.le_refl _, by simp [Store.pushSymbol]⟩

theorem expands_updateSymbol (s : Store) (sym : SymbolId) (f : Symbol → Symbol) :
    s.Expands (s.updateSymbol sym f) :=
  ⟨Nat.le_refl _, Nat.le_of_eq (by simp [Store.updateSymbol])⟩

theorem expands_reviseType (s : Store) (ty : TypeId) (f : Kind → Kind) :
    s.Expands (s.reviseType ty f) :=
  ⟨Nat.le_of_eq (by simp [Store.reviseType, Store.updateType]), Nat.le_refl _⟩

theorem IssuedChange.expands (h : s.IssuedChange t) : s.Expands t := by
  cases h with
  | same htypes hsymbols => exact ⟨Nat.le_of_eq (by rw [htypes]), Nat.le_of_eq (by rw [hsymbols])⟩
  | type data => exact expands_pushType s data
  | symbol y => exact expands_pushSymbol s y
  | update sym f => exact expands_updateSymbol s sym f
  | declare y =>
    exact (expands_pushSymbol s y).trans
      ((expands_pushType _ _).trans (expands_updateSymbol _ _ _))
  | damage => exact (expands_pushType s _).trans (expands_updateSymbol _ _ _)
  | revise ty f => exact expands_reviseType s ty f

theorem Develops.expands (h : s.Develops t) : s.Expands t := by
  induction h with
  | refl => exact .refl s
  | tail _ hstep ih => exact ih.trans hstep.expands

theorem Develops.has (h : s.Develops t) (hty : s.Has ty) : t.Has ty := h.expands.has hty

/-- The record of a type keeps its tag, its literal and what it names. -/
theorem IssuedChange.record (h : s.IssuedChange t) (hdata : s.type? ty = some data) :
    ∃ data', t.type? ty = some data' ∧ data'.kind.tag = data.kind.tag ∧ data'.literal = data.literal ∧
      data'.names = data.names := by
  cases h with
  | same htypes =>
    have hsame : t.type? ty = s.type? ty := by rw [type?, htypes, type?]
    exact ⟨data, hsame.trans hdata, rfl, rfl, rfl⟩
  | type data' => exact ⟨data, type?_pushType_of_some hdata data', rfl, rfl, rfl⟩
  | declare y =>
    exact ⟨data, type?_pushType_of_some (s := s.pushSymbol y) hdata _, rfl, rfl, rfl⟩
  | damage => exact ⟨data, type?_pushType_of_some hdata _, rfl, rfl, rfl⟩
  | revise a f h =>
    rw [reviseType, type?_updateType]
    split
    · next ha =>
      subst ha
      have htold := h data hdata
      rw [hdata]
      exact ⟨_, rfl, htold.tag, rfl, by simp only [TypeData.names, htold.indexVars]⟩
    · exact ⟨data, hdata, rfl, rfl, rfl⟩
  | symbol | update => exact ⟨data, hdata, rfl, rfl, rfl⟩

theorem Develops.names (h : s.Develops t) (hsym : s.Names sym) : t.Names sym := by
  induction h with
  | refl => exact hsym
  | tail _ hstep ih =>
    rcases ih with hlt | ⟨ty, data, hdata, hmem⟩
    · exact .inl (Nat.lt_of_lt_of_le hlt hstep.expands.symbols)
    · obtain ⟨data', hdata', -, -, hnames⟩ := hstep.record hdata
      exact .inr ⟨ty, data', hdata', hnames ▸ hmem⟩

/-- From a consistent store, the other is one that it develops into and that is consistent too. -/
def Upholds (s t : Store) : Prop := s.Consistent → s.Develops t ∧ t.Consistent

instance : IsPreorder Store Upholds where
  refl s hs := ⟨.refl s, hs⟩
  trans _ _ _ hst htu hs := by
    obtain ⟨hgrows, ht⟩ := hst hs
    obtain ⟨hgrows', hu⟩ := htu ht
    exact ⟨hgrows.trans hgrows', hu⟩

theorem upholds_of_eq (htypes : t.types = s.types) (hsymbols : t.symbols = s.symbols) :
    s.Upholds t := by
  have htype : ∀ ty, t.type? ty = s.type? ty := fun ty => by rw [type?, htypes, type?]
  have hsymbol : ∀ sym, t.symbol? sym = s.symbol? sym := fun sym => by
    rw [symbol?, hsymbols, symbol?]
  have hchange : s.IssuedChange t := .same htypes hsymbols
  refine fun hs => ⟨hchange.develops, hs.of_expands hchange.expands (fun ty symbol howns => ?_)
    (fun ty data h => ?_) fun sym y h => ?_⟩
  · unfold Owns
    rw [htype]
    exact howns
  · exact .inl ((htype ty).symm.trans h)
  · exact .inl ((hsymbol sym).symm.trans h)

theorem Consistent.pushType (hs : s.Consistent) (hshaped : data.Shaped)
    (hparts : ∀ c ∈ data.kind.ingredients ++ data.kind.components, s.Has c) :
    (s.pushType data).Consistent := by
  have hgrows := expands_pushType s data
  refine hs.of_expands hgrows ?_ (fun ty d h => ?_) fun sym y h => .inl h
  · rintro ty symbol ⟨d, hd, hsymbol⟩
    exact ⟨d, type?_pushType_of_some hd data, hsymbol⟩
  · rw [type?_pushType] at h
    split at h
    · next hty =>
      obtain rfl : data = d := Option.some.inj h
      refine .inr ⟨hshaped, fun c hc => ?_, fun c hc => ?_⟩
      · rw [hty]
        exact has_iff_lt.1 (hparts c (List.mem_append_left _ hc))
      · exact hgrows.has (hparts c (List.mem_append_right _ hc))
    · exact .inl h

theorem Consistent.pushSymbol (hs : s.Consistent) (htype : y.type = none)
    (howner : ∀ o, y.owner = some o → o.index < s.symbols.size) : (s.pushSymbol y).Consistent := by
  refine hs.of_expands (expands_pushSymbol s y) (fun _ _ h => h) (fun ty d h => .inl h)
    fun sym y' h => ?_
  rw [symbol?_pushSymbol] at h
  split at h
  · next hsym =>
    obtain rfl : y = y' := Option.some.inj h
    refine .inr ⟨fun o ho => ?_, fun ty hty => ?_⟩
    · rw [hsym]
      exact howner o ho
    · rw [htype] at hty
      cases hty
  · exact .inl h

/-- A symbol keeps its owner, and the type it has afterwards was made for it. -/
theorem Consistent.updateSymbol {f : Symbol → Symbol} (hs : s.Consistent)
    (howner : ∀ y, (f y).owner = y.owner)
    (htype : ∀ y ty, (f y).type = some ty → y.type = some ty ∨ s.Owns ty (some sym)) :
    (s.updateSymbol sym f).Consistent := by
  refine hs.of_expands (expands_updateSymbol s sym f) (fun _ _ h => h) (fun _ _ h => .inl h)
    fun sym' y' h => ?_
  rw [symbol?_updateSymbol] at h
  split at h
  · next hsym =>
    subst hsym
    obtain ⟨y, hy, rfl⟩ := Option.map_eq_some_iff.1 h
    have hfits := hs.symbols sym y hy
    refine .inr ⟨fun o ho => hfits.owner o ((howner y).symm.trans ho), fun ty hty => ?_⟩
    exact (htype y ty hty).elim (hfits.canonical ty) id
  · exact .inl h

theorem upholds_pushType (hshaped : s.Consistent → data.Shaped)
    (hparts : s.Consistent → ∀ c ∈ data.kind.ingredients ++ data.kind.components, s.Has c)
    (hunnamed : data.kind.tag.unnamed → data.symbol = none) (hnames : ∀ sym ∈ data.names, s.Names sym)
    (hmentions : ∀ c ∈ data.kind.mentions, s.Mentions c) : s.Upholds (s.pushType data) := fun hs =>
  ⟨(IssuedChange.type data hunnamed hnames hmentions).develops, hs.pushType (hshaped hs) (hparts hs)⟩

theorem upholds_updateSymbol {f : Symbol → Symbol} (howner : ∀ y, (f y).owner = y.owner)
    (htype : ∀ y, (f y).type = y.type) : s.Upholds (s.updateSymbol sym f) := fun hs =>
  ⟨(IssuedChange.update sym f htype).develops,
    hs.updateSymbol howner fun y _ h => .inl ((htype y).symm.trans h)⟩

/-- A new symbol under one of the store, and a type made for it, which the symbol gets. -/
theorem upholds_declare {kind : Kind} (htype : y.type = none)
    (howner : ∀ o, y.owner = some o → o.index < s.symbols.size)
    (hshaped : TypeData.Shaped { symbol := some s.nextSymbol, kind })
    (hparts : s.Consistent → ∀ c ∈ kind.ingredients ++ kind.components, s.Has c)
    (htag : kind.tag = .classType ∨ kind.tag.atomic) (hmentions : ∀ c ∈ kind.mentions, s.Has c) :
    s.Upholds (((s.pushSymbol y).pushType { symbol := some s.nextSymbol, kind }).updateSymbol
      s.nextSymbol fun y => { y with type := some s.nextType }) := by
  intro hs
  refine ⟨(IssuedChange.declare y kind htype htag hmentions).develops, ?_⟩
  refine ((hs.pushSymbol htype howner).pushType hshaped (hparts hs)).updateSymbol (fun _ => rfl)
    fun _ ty hty => .inr ?_
  obtain rfl : s.nextType = ty := Option.some.inj hty
  exact ⟨{ symbol := some s.nextSymbol, kind }, by simp [nextType, Store.pushSymbol], rfl⟩

theorem upholds_damage (hsym : sym.index < s.symbols.size) :
    s.Upholds ((s.pushType { symbol := some sym, kind := .error WellKnown.missing }).updateSymbol sym
      (Symbol.damaged s.nextType)) := by
  intro hs
  refine ⟨(IssuedChange.damage sym hsym).develops, ?_⟩
  refine (hs.pushType (TypeData.shaped_of_not_class rfl (by simp [Kind.tag])) ?_).updateSymbol
    (fun _ => rfl) fun y ty hty => .inr ?_
  · intro c hc
    obtain rfl : c = WellKnown.missing := by simpa [Kind.ingredients, Kind.components] using hc
    exact hs.wellKnown _ (by decide)
  · obtain rfl : s.nextType = ty := Option.some.inj hty
    exact ⟨{ symbol := some sym, kind := .error WellKnown.missing }, by simp, rfl⟩

theorem upholds_reviseType
    (h : s.Consistent → ∀ data, s.type? ty = some data → data.Consistent s ty →
      TypeData.Consistent s ty { data with kind := f data.kind })
    (htold : ∀ data, s.type? ty = some data → s.Told data.kind (f data.kind)) :
    s.Upholds (s.reviseType ty f) := by
  have hchange : s.IssuedChange (s.reviseType ty f) := .revise ty f htold
  have hlook : ∀ c d, (s.reviseType ty f).type? c = some d →
      s.type? c = some d ∨ ty = c ∧ ∃ old, s.type? c = some old ∧ d = { old with kind := f old.kind } := by
    intro c d hd
    rw [reviseType, type?_updateType] at hd
    split at hd
    · next hty =>
      obtain ⟨old, hold, rfl⟩ := Option.map_eq_some_iff.1 hd
      exact .inr ⟨hty, old, hold, rfl⟩
    · exact .inl hd
  refine fun hs => ⟨hchange.develops, hs.of_expands hchange.expands ?_ (fun c d hd => ?_)
    fun sym y h => .inl h⟩
  · rintro c symbol ⟨d, hd, hsymbol⟩
    rw [Owns, reviseType, type?_updateType]
    split
    · exact ⟨{ d with kind := f d.kind }, by rw [hd, Option.map_some], hsymbol⟩
    · exact ⟨d, hd, hsymbol⟩
  · rcases hlook c d hd with hold | ⟨rfl, old, hold, rfl⟩
    · exact .inl hold
    · have hnew := h hs old hold (hs.types ty old hold)
      exact .inr { hnew with closed := fun c hc => hchange.expands.has (hnew.closed c hc) }

/-- What a type is told later may be anything of the store. -/
theorem upholds_of_alike (h : ∀ k : Kind, k.Alike (f k)) (htold : ∀ k : Kind, s.Told k (f k)) :
    s.Upholds (s.reviseType ty f) := by
  refine upholds_reviseType (fun hs data hdata hfits => ?_) fun data _ => htold data.kind
  have hk := h data.kind
  have hclass : ∀ info, f data.kind = .classType info → data.kind = .classType info := by
    intro info hinfo
    have hsame := hk.class?
    rw [hinfo] at hsame
    cases hkind : data.kind with
    | classType =>
      rw [hkind] at hsame
      rw [Option.some.inj hsame]
    | _ =>
      rw [hkind] at hsame
      cases hsame
  exact
    { declared := fun htag => hfits.declared (hk.tag.symm.trans htag)
      literal := fun hliteral => hk.tag ▸ hfits.literal hliteral
      erased := fun herased => hk.tag.trans (hfits.erased herased)
      supplied := fun info hinfo => hfits.supplied info (hclass info hinfo)
      older := fun c hc => hfits.older c (hk.ingredients ▸ hc)
      closed := fun c hc => hfits.closed c (hk.components ▸ hc) }

theorem told_mapClass (s : Store) (k : Kind) (g : ClassInfo → ClassInfo) : s.Told k (k.mapClass g) := by
  cases k <;> exact ⟨rfl, rfl, fun _ => .inl⟩

/-- What is told to a class: its supertypes come with its lists, and its arguments stay. -/
theorem upholds_mapClass {g : ClassInfo → ClassInfo} (houter : ∀ info, (g info).outer = info.outer)
    (h : s.Consistent → ∀ data info, s.type? ty = some data → data.kind = .classType info →
      info.Supplied → (g info).Supplied ∧ (g info).written ⊆ info.written ∧
        ∀ c ∈ (g info).typeArgs.getD [], c ∈ info.typeArgs.getD [] ∨ s.Has c) :
    s.Upholds (s.reviseType ty (·.mapClass g)) := by
  refine upholds_reviseType (fun hs data hdata hfits => ?_) fun data _ => s.told_mapClass data.kind g
  obtain ⟨symbol, erased, literal, kind⟩ := data
  cases kind with
  | classType info =>
    obtain ⟨hsupplied, hwritten, hargs⟩ := h hs _ info hdata rfl (hfits.supplied info rfl)
    refine ⟨⟨nofun, fun _ => .inr rfl, fun _ => rfl, ?_⟩, ?_, ?_⟩
    · intro info' hinfo
      obtain rfl : g info = info' := Kind.classType.inj hinfo
      exact hsupplied
    · intro c hc
      rcases List.mem_cons.1 hc with rfl | hc
      · exact hfits.older _ (houter info ▸ List.mem_cons_self)
      · exact hfits.older c (List.mem_cons_of_mem _ (hwritten hc))
    · intro c hc
      rcases List.mem_cons.1 hc with rfl | hc
      · exact hfits.closed _ (houter info ▸ List.mem_cons_self)
      · exact (hargs c hc).elim (fun hold => hfits.closed c (List.mem_cons_of_mem _ hold)) id
  | _ => exact hfits

theorem upholds_define {sig : ClassSignature} (hparams : ∀ c ∈ sig.typeParams, s.Has c) :
    s.Upholds (s.reviseType ty (·.mapClass (ClassInfo.define sig))) :=
  upholds_mapClass (fun _ => rfl) fun _ _ _ _ _ _ =>
    ⟨fun _ => ⟨rfl, rfl, rfl⟩, fun _ => nofun, fun c hc => .inr (hparams c hc)⟩

theorem SetsList.upholds (h : s.SetsList t) : s.Upholds t := by
  cases h with
  | settle slot ty data info hslot =>
    refine upholds_mapClass (fun _ => by cases hslot <;> rfl) fun hs _ info _ _ hsupplied => ?_
    cases hslot with
    | typeArgs =>
      refine ⟨fun hset => ⟨rfl, (hsupplied hset).2⟩, fun c hc => ?_, nofun⟩
      unfold ClassInfo.written at hc
      split at hc <;> cases hc
    | regionArgs =>
      exact ⟨fun hset => ⟨(hsupplied hset).1, rfl, (hsupplied hset).2.2⟩, fun _ => id, fun _ => .inl⟩
    | effectArgs =>
      exact ⟨fun hset => ⟨(hsupplied hset).1, (hsupplied hset).2.1, rfl⟩, fun _ => id, fun _ => .inl⟩
  | remember slot ty list data info hslot =>
    refine upholds_mapClass (fun _ => by cases hslot <;> rfl) fun hs _ info _ _ hsupplied => ?_
    cases hslot <;> exact ⟨hsupplied, fun _ => id, fun _ => .inl⟩

theorem initial_consistent (options : DisplayOptions) : (initial options).Consistent where
  types ty data h := by
    have hall : ∀ entry ∈ initialTypes.zipIdx, entry.1.kind.class? = none ∧
        entry.1.kind.tag ≠ .typeVar ∧ entry.1.literal = none ∧ entry.1.erased = false ∧
        entry.1.kind.components = [] ∧ ∀ c ∈ entry.1.kind.ingredients, c.index < entry.2 := by
      decide
    have hmem : (data, ty.index) ∈ initialTypes.zipIdx :=
      List.mk_mem_zipIdx_iff_getElem?.2 ((List.getElem?_toArray).symm.trans h)
    obtain ⟨hclass, htag, hliteral, herased, hcomponents, hingredients⟩ := hall _ hmem
    obtain ⟨symbol, erased, literal, kind⟩ := data
    obtain rfl : literal = none := hliteral
    obtain rfl : erased = false := herased
    refine ⟨TypeData.shaped_of_not_class hclass fun h => absurd h htag, hingredients, fun c hc => ?_⟩
    rw [hcomponents] at hc
    cases hc
  symbols sym y h := by
    have hall : ∀ entry ∈ initialSymbols.zipIdx, entry.1.owner = none ∧
        ∀ ty ∈ entry.1.type, initialTypes[ty.index]?.map TypeData.symbol = some (some ⟨entry.2⟩) := by
      decide
    have hmem : (y, sym.index) ∈ initialSymbols.zipIdx :=
      List.mk_mem_zipIdx_iff_getElem?.2 ((List.getElem?_toArray).symm.trans h)
    obtain ⟨howner, htype⟩ := hall _ hmem
    refine ⟨fun o ho => ?_, fun ty hty => ?_⟩
    · rw [howner] at ho
      cases ho
    · obtain ⟨data, hdata, hsymbol⟩ := Option.map_eq_some_iff.1 (htype ty hty)
      exact ⟨data, (List.getElem?_toArray).trans hdata, hsymbol⟩
  wellKnown ty h := by
    have hall : ∀ ty ∈ WellKnown.names.map Prod.snd, ty.index < initialTypes.length := by decide
    exact has_iff_lt.2 (hall ty h)

end Store

/-! ### Questions and updates -/

/-- Loading a class takes a consistent store to a consistent one, and so does every question. -/
abbrev Loader.Upholds (load : Loader) : Prop := load.Asks load (Tie.ofMoves Store.Upholds)

theorem Loader.upholds_of {load : Loader} (h : ∀ sym, Along Store.Upholds (load sym)) :
    load.Upholds :=
  Loader.Tied.asks ⟨fun _ _ hsets => hsets.upholds, fun sym => Tie.keeps_ofMoves (h sym)⟩

section Updates

variable {load : Loader} {ty : TypeId} {s : Session}

theorem updateKind_upholds (h : ∀ k : Kind, k.Alike (f k))
    (htold : ∀ (s : Store) (k : Kind), s.Told k (f k)) : Along Store.Upholds (updateKind ty f) :=
  along_modifyStore fun s => Store.upholds_of_alike h (htold s)

theorem setCellType_upholds (ty : TypeId) (cell : Option TypeId) :
    Along Store.Upholds (setCellType ty cell) :=
  (typeData_still ty).of_eq.bind fun _ => along_modifyStore fun _ =>
    Store.upholds_mapClass (fun _ => rfl) fun _ _ _ _ _ hsupplied =>
      ⟨hsupplied, fun _ => id, fun _ => .inl⟩

theorem setFormal_upholds (ty : TypeId) {formal : TypeId} (hformal : s.store.Has formal) :
    s.store.Upholds ((setFormal ty formal).after s).store := by
  refine along_of_still (typeData_still ty) fun _ s' _ hsame => ?_
  refine along_of_bind (Store.upholds_of_alike (fun k => ?_) fun k => ?_) fun _ s₁ _ => along_pure ty s₁
  · cases k <;> exact ⟨rfl, rfl, rfl, rfl⟩
  · cases k with
    | wildcard =>
      refine ⟨rfl, rfl, fun c hc => .inr ?_⟩
      rw [hsame, Option.some.inj (Option.mem_toList.1 hc).symm]
      exact hformal
    | _ => exact ⟨rfl, rfl, fun _ => .inl⟩

theorem recordActuals_upholds (h : load.Upholds) (depth : Nat) (ty : TypeId) (actuals : CallActuals) :
    Along Store.Upholds (recordActuals load depth ty actuals) := by
  induction depth generalizing ty with
  | zero => exact tooDeep_still.of_eq
  | succ depth ih =>
    refine (kindOf_still ty).of_eq.bind fun kind => ?_
    split
    · split
      · exact (alreadySet_keeps h (depth + 1) .callActuals ty).along
      · refine (updateKind_upholds (fun k => ?_) fun _ k => ?_).bind fun _ => along_pure _
        · cases k <;> exact ⟨rfl, rfl, rfl, rfl⟩
        · cases k <;> exact ⟨rfl, rfl, fun _ => .inl⟩
    · exact ih _
    · exact (unexpected_keeps h (depth + 1) .methodType ty).along

theorem prototypeOf_still (info : VarInfo) : Along Eq (prototypeOf info) := by
  unfold prototypeOf
  split
  · exact along_pure none
  · exact (kindOf_still _).map

theorem setBound_upholds (var : TypeId) {bound : TypeId} (hbound : s.store.Has bound) :
    s.store.Upholds ((updateKind var (·.mapVar (VarInfo.setBound bound))).after s).store := by
  have htold : ∀ info : VarInfo, ∀ c ∈ (info.setBound bound).bound.toList,
      c ∈ info.bound.toList ∨ s.store.Has c := by
    intro info c hc
    cases hown : info.bound with
    | none =>
      obtain rfl : c = bound := by simpa [VarInfo.setBound, hown] using hc
      exact .inr hbound
    | some => exact .inl (by simpa [VarInfo.setBound, hown] using hc)
  refine Store.upholds_of_alike (fun k => ?_) fun k => ?_
  · cases k <;> exact ⟨rfl, rfl, rfl, rfl⟩
  · cases k with
    | typeVar info | captured info _ => exact ⟨rfl, rfl, htold info⟩
    | _ => exact ⟨rfl, rfl, fun _ => .inl⟩

theorem setUpperBound_upholds (h : load.Upholds) (depth : Nat) (ty : TypeId) {bound : TypeId}
    (hbound : s.store.Has bound) :
    s.store.Upholds ((setUpperBound load depth ty bound).after s).store := by
  refine along_of_still (kindOf_still ty) fun kind s₁ _ hsame => ?_
  split
  · exact (unexpected_keeps h depth .typeVariable ty).along s₁
  · refine along_of_still (prototypeOf_still _) fun prototype s₂ _ hsame' => ?_
    have hbound₂ : s₂.store.Has bound := by rwa [hsame', hsame]
    split
    · exact (alreadySet_keeps h depth .upperBound ty).along s₂
    · split
      · exact along_of_bind (setBound_upholds ty hbound₂) fun _ s₃ _ => along_pure _ s₃
      · split
        · exact (alreadySet_keeps h depth .upperBound _).along s₂
        · refine along_of_bind (setBound_upholds ty hbound₂) fun _ s₃ hrun => ?_
          obtain ⟨-, rfl⟩ := EStateM.Result.ok.inj hrun
          exact along_of_bind
            (setBound_upholds _ ((Store.expands_reviseType s₂.store ty _).has hbound₂))
            fun _ s₄ _ => along_pure _ s₄

theorem updatePlaceholder_upholds (h : load.Upholds) {f : PlaceholderInfo → PlaceholderInfo}
    (hf : ∀ info, (f info).origin = info.origin) (depth : Nat) (ty : TypeId) :
    Along Store.Upholds (updatePlaceholder load depth ty f) := by
  refine (kindOf_still ty).of_eq.bind fun kind => ?_
  split
  · refine (updateKind_upholds (fun k => ?_) fun _ k => ?_).bind fun _ => along_pure _
    · cases k with
      | placeholder info => exact ⟨rfl, rfl, congrArg (fun ty => [ty]) (hf info), rfl⟩
      | _ => exact ⟨rfl, rfl, rfl, rfl⟩
    · cases k <;> exact ⟨rfl, rfl, fun _ => .inl⟩
  · exact (unexpected_keeps h depth .inferenceVariable ty).along

theorem addLowerBound_upholds (h : load.Upholds) (depth : Nat) (ty bound : TypeId) :
    Along Store.Upholds (addLowerBound load depth ty bound) :=
  updatePlaceholder_upholds (f := fun info =>
    { info with lowerBounds := addOnce bound info.lowerBounds }) h (fun _ => rfl) depth ty

theorem addUpperBound_upholds (h : load.Upholds) (depth : Nat) (ty bound : TypeId) :
    Along Store.Upholds (addUpperBound load depth ty bound) :=
  updatePlaceholder_upholds (f := fun info =>
    { info with upperBounds := addOnce bound info.upperBounds }) h (fun _ => rfl) depth ty

theorem setInstantiation_upholds (h : load.Upholds) (depth : Nat) (ty solution : TypeId) :
    Along Store.Upholds (setInstantiation load depth ty solution) := by
  refine (kindOf_still ty).of_eq.bind fun kind => ?_
  split
  · split
    · refine (updateKind_upholds (fun k => ?_) fun _ k => ?_).bind fun _ => along_pure _
      · cases k <;> exact ⟨rfl, rfl, rfl, rfl⟩
      · cases k <;> exact ⟨rfl, rfl, fun _ => .inl⟩
    · split
      · exact along_pure _
      · exact (alreadySet_keeps h depth .instantiation ty).along
  · exact (unexpected_keeps h depth .inferenceVariable ty).along

end Updates

end RegionTypes

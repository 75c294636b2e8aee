import RegionTypes.Proofs.Loading.Meaning
import RegionTypes.Proofs.Store.Change

/-!
# Stores that differ in what they keep

The lists that are worked out from others and kept are a convenience: what a store says about types is
in the rest.  Two stores are **twins** if they agree in the rest.

* `TypeData.plain` — a type without the derived lists that it keeps.
* `Store.Twin`, `Session.Twin` — stores and sessions that agree in all but these lists.
* `Answer.plain`, `TraceEntry.plain` — answers and notes in which these lists do not show.
* `Store.Permits` — the changes that operations make apart from loading and from keeping lists, as
  functions on stores, so that the same change can be made to two stores.
* `Store.Twin.change` — **such a change to two stores that are twins leaves them twins**.
-/

namespace RegionTypes

/-! ### What is recorded apart from derived lists -/

/-- The class data without derived lists. -/
def ClassInfo.plain (info : ClassInfo) : ClassInfo :=
  { info with
    resolvedRegions := none
    allTypeParams := none
    allRegionParams := none
    allEffectParams := none }

/-- The kind without derived lists. -/
def Kind.plain : Kind → Kind := Kind.mapClass ClassInfo.plain

/-- The type without derived lists. -/
def TypeData.plain (data : TypeData) : TypeData := { data with kind := data.kind.plain }

theorem Kind.class?_plain (k : Kind) : k.plain.class? = k.class?.map ClassInfo.plain := by
  cases k <;> rfl

/-- A kind that looks like a class type without its derived lists is a class type. -/
theorem Kind.exists_of_plain_eq {k : Kind} {info : ClassInfo} (h : k.plain = .classType info) :
    ∃ info', k = .classType info' ∧ info'.plain = info := by
  cases k with
  | classType info' => exact ⟨info', rfl, Kind.classType.inj h⟩
  | _ => cases h

/-- Kinds that look the same are the same, or they are class types that look the same. -/
theorem Kind.plain_eq_cases {k k' : Kind} (h : k'.plain = k.plain) :
    k' = k ∨ ∃ info info', k = .classType info ∧ k' = .classType info' ∧ info'.plain = info.plain := by
  cases k with
  | classType info =>
    obtain ⟨info', rfl, hinfo⟩ := Kind.exists_of_plain_eq h
    exact .inr ⟨info, info', rfl, rfl, hinfo⟩
  | _ =>
    left
    cases k' with
    | classType => cases h
    | _ => exact h

/-- The answer without derived lists. -/
def Answer.plain : Answer → Answer
  | .data value => .data value.plain
  | answer => answer

/-- The outcome without derived lists. -/
def Outcome.plain (outcome : Outcome) : Outcome := outcome.map Answer.plain

/-- The outcomes differ in derived lists at most. -/
def Outcome.Agrees (a b : Outcome) : Prop := Outcome.plain b = Outcome.plain a

/-- The note without derived lists. -/
def TraceEntry.plain : TraceEntry → TraceEntry
  | .stepped outcome => .stepped (Outcome.plain outcome)
  | entry => entry

theorem Slot.Declared.read_plain {β : Type} {slot : Slot β} (h : slot.Declared) (info : ClassInfo) :
    slot.read info.plain = slot.read info := by
  cases h <;> rfl

/-! ### Stores and sessions -/

namespace Store

/-- The stores agree in all but derived lists. -/
structure Twin (s t : Store) : Prop where
  symbols : t.symbols = s.symbols
  options : t.options = s.options
  inFlight : t.inFlight = s.inFlight
  size : t.types.size = s.types.size
  types : ∀ ty, (t.type? ty).map TypeData.plain = (s.type? ty).map TypeData.plain

variable {s t : Store} {ty : TypeId} {sym : SymbolId}

namespace Twin

protected theorem refl (s : Store) : s.Twin s := ⟨rfl, rfl, rfl, rfl, fun _ => rfl⟩

protected theorem symm (h : s.Twin t) : t.Twin s :=
  ⟨h.symbols.symm, h.options.symm, h.inFlight.symm, h.size.symm, fun ty => (h.types ty).symm⟩

protected theorem trans {u : Store} (h : s.Twin t) (h' : t.Twin u) : s.Twin u :=
  ⟨h'.symbols.trans h.symbols, h'.options.trans h.options, h'.inFlight.trans h.inFlight,
    h'.size.trans h.size, fun ty => (h'.types ty).trans (h.types ty)⟩

variable (h : s.Twin t)

include h

theorem symbol? (sym : SymbolId) : t.symbol? sym = s.symbol? sym := by
  rw [Store.symbol?, Store.symbol?, h.symbols]

theorem nextType : t.nextType = s.nextType := by rw [Store.nextType, Store.nextType, h.size]

theorem nextSymbol : t.nextSymbol = s.nextSymbol := by
  rw [Store.nextSymbol, Store.nextSymbol, h.symbols]

theorem describe : t.describe = s.describe := by
  obtain ⟨hsymbols, hoptions, _, hsize, _⟩ := h
  cases s
  cases t
  dsimp only at hsymbols hoptions hsize
  subst hsymbols hoptions
  unfold Store.describe
  dsimp only
  rw [hsize]

theorem type?_eq_none (hnone : s.type? ty = none) : t.type? ty = none := by
  have htypes := h.types ty
  rwa [hnone, Option.map_none, Option.map_eq_none_iff] at htypes

theorem exists_type? {data : TypeData} (hdata : s.type? ty = some data) :
    ∃ data', t.type? ty = some data' ∧ data'.plain = data.plain := by
  have htypes := h.types ty
  rw [hdata, Option.map_some] at htypes
  exact Option.map_eq_some_iff.1 htypes

/-- The data of a type are the same, or those of a class with other derived lists. -/
theorem type?_cases {data data' : TypeData} (hdata : s.type? ty = some data)
    (hdata' : t.type? ty = some data') :
    data' = data ∨ ∃ symbol erased literal info info', data = ⟨symbol, erased, literal, .classType info⟩ ∧
      data' = ⟨symbol, erased, literal, .classType info'⟩ ∧ info'.plain = info.plain := by
  obtain ⟨found, hfound, hsame⟩ := h.exists_type? hdata
  obtain rfl : found = data' := Option.mem_unique hfound hdata'
  obtain ⟨symbol, erased, literal, kind⟩ := data
  obtain ⟨symbol', erased', literal', kind'⟩ := found
  simp only [TypeData.plain, TypeData.mk.injEq] at hsame
  obtain ⟨rfl, rfl, rfl, hkind⟩ := hsame
  rcases Kind.plain_eq_cases hkind with rfl | ⟨info, info', rfl, rfl, hinfo⟩
  · exact .inl rfl
  · exact .inr ⟨_, _, _, info, info', rfl, rfl, hinfo⟩

end Twin

/-! ### Changes -/

variable {f : Kind → Kind}

theorem reviseType_eq_self (h : ∀ data, s.type? ty = some data → f data.kind = data.kind) :
    s.reviseType ty f = s := by
  have hmodify : s.types.modify ty.index (fun data => { data with kind := f data.kind }) =
      s.types := by
    refine Array.ext_getElem? fun i => ?_
    rw [Array.getElem?_modify]
    split
    · next heq =>
      subst heq
      cases hdata : s.types[ty.index]? with
      | none => rfl
      | some data => rw [Option.map_some, h data hdata]
    · rfl
  show { s with types := _ } = s
  rw [hmodify]

/-- A type that is no class has no lists, so nothing is written. -/
theorem Twin.setList_eq_self {β : Type} {slot : Slot β} {list : List β} {data : TypeData}
    (h : s.Twin t) (hdata : s.type? ty = some data) (hclass : data.kind.class? = none) :
    t.setList slot ty list = t := by
  refine reviseType_eq_self fun data' hdata' => Kind.mapClass_of_class?_eq_none ?_ _
  obtain ⟨_, hsame, hplain⟩ := h.exists_type? hdata
  obtain rfl := Option.mem_unique hsame hdata'
  have hkind := congrArg (Kind.class? ∘ TypeData.kind) hplain
  simpa [TypeData.plain, Kind.class?_plain, hclass] using hkind

/-- The store with a symbol and a type for it that becomes its canonical type. -/
def declareTyped (symbol : Symbol) (data : SymbolId → TypeData) (s : Store) : Store :=
  ((s.pushSymbol symbol).pushType (data s.nextSymbol)).updateSymbol s.nextSymbol
    fun y => { y with type := some s.nextType }

/-- The store with an error type that becomes the canonical type of a symbol. -/
def damageSymbol (sym : SymbolId) (s : Store) : Store :=
  (s.pushType { symbol := some sym, kind := .error WellKnown.missing }).updateSymbol sym
    (Symbol.damaged s.nextType)

/-- The changes that may be made to a store, apart from those of loading and of keeping derived
lists; completers are installed only if that is allowed. -/
inductive Permits (s : Store) (installs : Prop) : (Store → Store) → Prop
  | options (options : DisplayOptions) : Permits s installs fun s => { s with options }
  | declare (name : String) (owner : Option SymbolId) (kind : SymbolKind) (flags : Flags) :
    Permits s installs (·.pushSymbol { name, owner, kind, flags })
  | declareTyped (name : String) (owner : Option SymbolId) (kind : SymbolKind) (flags : Flags)
      (data : SymbolId → TypeData) (hplain : ∀ sym, (data sym).plain = data sym) :
    Permits s installs (Store.declareTyped { name, owner, kind, flags } data)
  /-- A symbol keeps its type, and whether it is being completed. -/
  | symbol (sym : SymbolId) (f : Symbol → Symbol)
      (hf : ∀ y, (f y).type = y.type ∧ (f y).completing = y.completing ∧
        ((f y).completer.isSome → y.completer.isSome ∨ installs)) :
    Permits s installs (·.updateSymbol sym f)
  | damage (sym : SymbolId) : Permits s installs (Store.damageSymbol sym)
  | allocate (data : TypeData) (hplain : data.plain = data) : Permits s installs (·.pushType data)
  /-- A revision that leaves classes alone. -/
  | revise (ty : TypeId) (f : Kind → Kind) (hf : ∀ k, (f k).class? = k.class?) :
    Permits s installs (·.reviseType ty f)
  /-- The same for two types at once. -/
  | reviseBoth (a b : TypeId) (f : Kind → Kind) (hf : ∀ k, (f k).class? = k.class?) :
    Permits s installs fun s => (s.reviseType a f).reviseType b f
  | cell (ty : TypeId) (cell : Option TypeId) :
    Permits s installs (·.reviseType ty (·.mapClass fun info => { info with cellType := cell }))
  | define (ty : TypeId) (sig : ClassSignature) (data : TypeData) (info : ClassInfo)
      (hdata : s.type? ty = some data) (hkind : data.kind = .classType info)
      (htaken : info.takenField? = none) :
    Permits s installs (·.reviseType ty (·.mapClass (ClassInfo.define sig)))
  /-- A declared list is settled as empty, unless the class is being loaded. -/
  | settle {β : Type} (slot : Slot β) (ty : TypeId) (data : TypeData) (info : ClassInfo)
      (hslot : slot.Declared) (hdata : s.type? ty = some data) (hkind : data.kind = .classType info)
      (hunset : slot.read info = none)
      (hidle : ∀ sym y, data.symbol = some sym → s.symbol? sym = some y → y.completing = false) :
    Permits s installs (·.setList slot ty [])

namespace Twin

theorem reviseType (h : s.Twin t) (hf : ∀ k k', k'.plain = k.plain → (f k').plain = (f k).plain) :
    (s.reviseType ty f).Twin (t.reviseType ty f) where
  symbols := h.symbols
  options := h.options
  inFlight := h.inFlight
  size := by simpa [Store.reviseType, updateType] using h.size
  types a := by
    have htypes := h.types a
    unfold Store.reviseType
    rw [type?_updateType, type?_updateType]
    split
    · cases hdata : s.type? a with
      | none => rw [h.type?_eq_none hdata]
      | some data =>
        obtain ⟨data', hdata', hplain⟩ := h.exists_type? hdata
        have hkind : data'.kind.plain = data.kind.plain := congrArg TypeData.kind hplain
        rw [hdata', Option.map_some, Option.map_some, Option.map_some, Option.map_some]
        simp only [TypeData.plain, TypeData.mk.injEq, Option.some.injEq] at hplain ⊢
        exact ⟨hplain.1, hplain.2.1, hplain.2.2.1, hf _ _ hkind⟩
    · exact htypes

/-- A revision that leaves classes alone. -/
theorem reviseOther (h : s.Twin t) (hf : ∀ k, (f k).class? = k.class?) :
    (s.reviseType ty f).Twin (t.reviseType ty f) := by
  refine h.reviseType fun k k' hplain => ?_
  rcases Kind.plain_eq_cases hplain with rfl | ⟨info, info', rfl, rfl, hinfo⟩
  · rfl
  · rw [Kind.class?_eq_some.1 (hf (.classType info)), Kind.class?_eq_some.1 (hf (.classType info'))]
    exact hplain

theorem mapClass (h : s.Twin t) {g : ClassInfo → ClassInfo}
    (hg : ∀ info, (g info).plain = g info.plain) :
    (s.reviseType ty (·.mapClass g)).Twin (t.reviseType ty (·.mapClass g)) := by
  refine h.reviseType fun k k' hplain => ?_
  rcases Kind.plain_eq_cases hplain with rfl | ⟨info, info', rfl, rfl, hinfo⟩
  · rfl
  · show Kind.classType (g info').plain = Kind.classType (g info).plain
    rw [hg, hg, hinfo]

/-- A derived list that is kept makes no difference. -/
theorem fill {β : Type} {slot : Slot β} (hslot : slot.Derived) (s : Store) (ty : TypeId)
    (list : List β) : s.Twin (s.setList slot ty list) where
  symbols := rfl
  options := rfl
  inFlight := rfl
  size := by simp [Store.reviseType, updateType]
  types a := by
    unfold Store.setList Store.reviseType
    rw [type?_updateType]
    split
    · cases s.type? a with
      | none => rfl
      | some data =>
        obtain ⟨symbol, erased, literal, kind⟩ := data
        cases kind with
        | classType => cases hslot <;> rfl
        | _ => rfl
    · rfl

theorem updateSymbol (h : s.Twin t) (f : Symbol → Symbol) :
    (s.updateSymbol sym f).Twin (t.updateSymbol sym f) where
  symbols := by
    show t.symbols.modify _ _ = s.symbols.modify _ _
    rw [h.symbols]
  options := h.options
  inFlight := h.inFlight
  size := h.size
  types := h.types

theorem pushType (h : s.Twin t) (data : TypeData) : (s.pushType data).Twin (t.pushType data) where
  symbols := h.symbols
  options := h.options
  inFlight := h.inFlight
  size := by simp [Store.pushType, h.size]
  types a := by
    rw [type?_pushType, type?_pushType, h.nextType]
    split
    · rfl
    · exact h.types a

theorem pushSymbol (h : s.Twin t) (y : Symbol) : (s.pushSymbol y).Twin (t.pushSymbol y) where
  symbols := by
    show t.symbols.push y = s.symbols.push y
    rw [h.symbols]
  options := h.options
  inFlight := h.inFlight
  size := h.size
  types := h.types

/-- **A change that is made to both stores leaves them twins.** -/
theorem change (h : s.Twin t) {installs : Prop} {f : Store → Store} (hf : s.Permits installs f) :
    (f s).Twin (f t) := by
  cases hf with
  | options => exact ⟨h.symbols, rfl, h.inFlight, h.size, h.types⟩
  | declare => exact h.pushSymbol _
  | declareTyped =>
    unfold Store.declareTyped
    rw [h.nextSymbol, h.nextType]
    exact ((h.pushSymbol _).pushType _).updateSymbol _
  | symbol sym f => exact h.updateSymbol f
  | damage =>
    unfold Store.damageSymbol
    rw [h.nextType]
    exact (h.pushType _).updateSymbol _
  | allocate data => exact h.pushType data
  | revise ty f hf => exact h.reviseOther hf
  | reviseBoth a b f hf => exact (h.reviseOther hf).reviseOther hf
  | cell | define => exact h.mapClass fun _ => rfl
  | settle slot ty data info hslot =>
    refine h.mapClass fun _ => ?_
    cases hslot <;> rfl

/-- What may be done to a store may be done to its twins. -/
theorem permits (h : s.Twin t) {installs : Prop} {f : Store → Store} (hf : s.Permits installs f) :
    t.Permits installs f := by
  have hclass : ∀ ty data info, s.type? ty = some data → data.kind = .classType info →
      ∃ data' info', t.type? ty = some data' ∧ data'.symbol = data.symbol ∧
        data'.kind = .classType info' ∧ info'.plain = info.plain := by
    intro ty data info hdata hkind
    obtain ⟨data', hdata', hplain⟩ := h.exists_type? hdata
    have hsymbol : data'.plain.symbol = data.plain.symbol := by rw [hplain]
    have hkind' : data'.kind.plain = data.kind.plain := congrArg TypeData.kind hplain
    rw [hkind] at hkind'
    obtain ⟨info', hinfo', hsame⟩ := Kind.exists_of_plain_eq hkind'
    exact ⟨data', info', hdata', hsymbol, hinfo', hsame⟩
  cases hf with
  | options options => exact .options options
  | declare name owner kind flags => exact .declare name owner kind flags
  | declareTyped name owner kind flags data hplain =>
    exact .declareTyped name owner kind flags data hplain
  | symbol sym f hf => exact .symbol sym f hf
  | damage sym => exact .damage sym
  | allocate data hplain => exact .allocate data hplain
  | revise ty f hf => exact .revise ty f hf
  | reviseBoth a b f hf => exact .reviseBoth a b f hf
  | cell ty cell => exact .cell ty cell
  | define ty sig data info hdata hkind htaken =>
    obtain ⟨data', info', hdata', -, hkind', hsame⟩ := hclass ty data info hdata hkind
    refine .define ty sig data' info' hdata' hkind' ?_
    exact (congrArg ClassInfo.takenField? hsame).trans htaken
  | settle slot ty data info hslot hdata hkind hunset hidle =>
    obtain ⟨data', info', hdata', hsymbol, hkind', hsame⟩ := hclass ty data info hdata hkind
    refine .settle slot ty data' info' hslot hdata' hkind' ?_ fun sym y hsym hy => ?_
    · rw [← hslot.read_plain, hsame, hslot.read_plain, hunset]
    · exact hidle sym y (hsymbol.symm.trans hsym) ((h.symbol? sym).symm.trans hy)

end Twin

end Store

/-- The sessions agree in all but derived lists and what was noted. -/
structure Session.Twin (s t : Session) : Prop where
  store : s.store.Twin t.store
  names : t.names = s.names
  audience : t.audience = s.audience

protected theorem Session.Twin.refl (s : Session) : s.Twin s := ⟨.refl s.store, rfl, rfl⟩

end RegionTypes

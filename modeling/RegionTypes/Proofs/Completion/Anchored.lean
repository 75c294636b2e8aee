import RegionTypes.Proofs.Completion.Issued
import RegionTypes.Proofs.Store.Scoping

/-!
# What the records of a store hold on to

A store that is worked with through its own handles holds no others: the symbols that a record names, the
bounds of variables and the formals of wildcards all belong to it.  And the canonical type of a class is
older than every other class type of that class, since it was made together with the symbol.

* `Store.Heads` — a type that may be the canonical type of a symbol.
* `Store.Anchored` — **every handle in a record belongs to the store, and canonical types come first**.
* `Store.IssuedChange.record_cases` — which records a store has after a change.
* `Store.Anchored.step`, `Store.Anchored.of_develops` — the step lemma and the run lemma.
* `Session.Leads.anchored` — so it is with every store that has grown out of a new one.
* `Session.Leads.wellFormed`, `Session.Leads.atRest` — the records of such a store are as the
  constructors make them, and types can be gone through where nothing is pending.
-/

namespace RegionTypes

namespace Store

variable {s t : Store} {ty : TypeId} {sym : SymbolId} {data : TypeData}

/-- The type has no literal, and it has no parts or is the oldest class type with the symbol. -/
def Heads (s : Store) (ty : TypeId) (sym : SymbolId) : Prop :=
  ∃ data, s.type? ty = some data ∧ data.literal = none ∧ (data.kind.tag.atomic = true ∨
    data.kind.tag = .classType ∧ ∀ other data', s.type? other = some data' → data'.symbol = some sym →
      data'.kind.tag = .classType → ty.index ≤ other.index)

/-- Every handle in a record belongs to the store, and canonical types come first. -/
structure Anchored (s : Store) : Prop where
  names : ∀ ty data, s.type? ty = some data → ∀ sym ∈ data.names, sym.index < s.symbols.size
  mentions : ∀ ty data, s.type? ty = some data → ∀ c ∈ data.kind.mentions, s.Has c
  /-- Arrays, methods and wildcards have no symbol. -/
  unnamed : ∀ ty data, s.type? ty = some data → data.kind.tag.unnamed → data.symbol = none
  canonical : ∀ sym y ty, s.symbol? sym = some y → y.type = some ty → s.Heads ty sym

/-! ### Records after a change -/

/-- The record has grown out of the other by what the type was told. -/
structure Retold (s : Store) (old data : TypeData) : Prop where
  symbol : data.symbol = old.symbol
  told : s.Told old.kind data.kind

theorem Retold.refl (s : Store) (data : TypeData) : s.Retold data data :=
  ⟨rfl, rfl, rfl, fun _ => .inl⟩

theorem Retold.names {old : TypeData} (h : s.Retold old data) : data.names = old.names := by
  rw [TypeData.names, h.symbol, h.told.indexVars, TypeData.names]

/-- A record that is new after a change. -/
structure Fresh (s t : Store) (data : TypeData) : Prop where
  names : ∀ sym ∈ data.names, s.Names sym ∨ sym = s.nextSymbol ∧ s.symbols.size < t.symbols.size
  mentions : ∀ c ∈ data.kind.mentions, s.Mentions c
  unnamed : data.kind.tag.unnamed → data.symbol = none

theorem cases_pushType {new : TypeData} (h : (s.pushType new).type? ty = some data) :
    s.type? ty = some data ∨ ty = s.nextType ∧ data = new := by
  rw [type?_pushType] at h
  split at h
  · next hty => exact .inr ⟨hty, (Option.some.inj h).symm⟩
  · exact .inl h

/-- **After a change a record is an old one**, apart from what the type was told, or it is new. -/
theorem IssuedChange.record_cases (h : s.IssuedChange t) (hdata : t.type? ty = some data) :
    (∃ old, s.type? ty = some old ∧ s.Retold old data) ∨ ty = s.nextType ∧ s.Fresh t data := by
  cases h with
  | same htypes =>
    refine .inl ⟨data, ?_, .refl s data⟩
    rwa [type?, ← htypes]
  | type new hunnamed hnames hmentions =>
    rcases cases_pushType hdata with hold | ⟨hty, rfl⟩
    · exact .inl ⟨data, hold, .refl s data⟩
    · exact .inr ⟨hty, fun sym hsym => .inl (hnames sym hsym), hmentions, hunnamed⟩
  | symbol | update => exact .inl ⟨data, hdata, .refl s data⟩
  | declare y kind htype htag hmentions =>
    rcases cases_pushType (s := s.pushSymbol y) hdata with hold | ⟨hty, rfl⟩
    · exact .inl ⟨data, hold, .refl s data⟩
    · refine .inr ⟨hty, fun sym hmem => .inr ?_, fun c hc => .inl (hmentions c hc), fun hunnamed => ?_⟩
      have hindex : kind.indexVars = [] := by
        cases kind with
        | array => simp [Kind.tag, Tag.atomic] at htag
        | _ => rfl
      rw [TypeData.names, hindex] at hmem
      refine ⟨by simpa using hmem, ?_⟩
      simp [Store.updateSymbol, Store.pushType, Store.pushSymbol]
      -- a type that is made for a symbol is a class or has no parts
      rcases htag with hclass | hatomic
      · simp [hclass, Tag.unnamed] at hunnamed
      · cases htag : kind.tag <;> simp_all [Tag.unnamed, Tag.atomic]
  | damage sym hsym =>
    rcases cases_pushType hdata with hold | ⟨hty, rfl⟩
    · exact .inl ⟨data, hold, .refl s data⟩
    · refine .inr ⟨hty, fun sym' hmem => .inl (.inl ?_), by simp [Kind.mentions],
        by simp [Kind.tag, Tag.unnamed]⟩
      obtain rfl : sym' = sym := by simpa [TypeData.names, Kind.indexVars] using hmem
      exact hsym
  | revise a f htold =>
    rw [reviseType, type?_updateType] at hdata
    split at hdata
    · obtain ⟨old, hold, rfl⟩ := Option.map_eq_some_iff.1 hdata
      next ha =>
      subst ha
      exact .inl ⟨old, hold, rfl, htold old hold⟩
    · exact .inl ⟨data, hdata, .refl s data⟩

/-! ### The step -/

theorem Anchored.lt_of_names (hs : s.Anchored) (h : s.Names sym) : sym.index < s.symbols.size := by
  rcases h with hlt | ⟨ty, data, hdata, hmem⟩
  · exact hlt
  · exact hs.names ty data hdata sym hmem

theorem Anchored.has_of_mentions {c : TypeId} (hs : s.Anchored) (h : s.Mentions c) : s.Has c := by
  rcases h with hc | ⟨ty, data, hdata, hmem⟩
  · exact hc
  · exact hs.mentions ty data hdata c hmem

/-- A type that comes first still does so after a change. -/
theorem Heads.step (h : s.IssuedChange t) (hheads : s.Heads ty sym) : t.Heads ty sym := by
  obtain ⟨data, hdata, hnone, hfirst⟩ := hheads
  obtain ⟨data', hdata', htag, hliteral, -⟩ := h.record hdata
  refine ⟨data', hdata', hliteral.trans hnone, ?_⟩
  rw [htag]
  refine hfirst.imp id fun ⟨hclass, hold⟩ => ⟨hclass, fun other d hd hsymbol htag' => ?_⟩
  rcases h.record_cases hd with ⟨old, hold', hretold⟩ | ⟨rfl, -⟩
  · exact hold other old hold' (hretold.symbol ▸ hsymbol) (hretold.told.tag ▸ htag')
  · exact Nat.le_of_lt (has_iff_lt.1 (has_iff.2 ⟨data, hdata⟩))

theorem Anchored.heads_declare {y : Symbol} {kind : Kind} (hs : s.Anchored)
    (htag : kind.tag = .classType ∨ kind.tag.atomic = true) :
    ((s.pushSymbol y).pushType { symbol := some s.nextSymbol, kind }).Heads s.nextType
      s.nextSymbol := by
  refine ⟨{ symbol := some s.nextSymbol, kind }, by simp [nextType, Store.pushSymbol], rfl, ?_⟩
  refine htag.symm.imp id fun hclass => ⟨hclass, fun other d hd hsymbol _ => ?_⟩
  rcases cases_pushType (s := s.pushSymbol y) hd with hold | ⟨rfl, -⟩
  · have hlt := hs.names other d hold s.nextSymbol (by simp [TypeData.names, hsymbol])
    exact absurd hlt (Nat.lt_irrefl _)
  · exact Nat.le_refl _

/-- **The step lemma.** -/
theorem Anchored.step (hs : s.Anchored) (h : s.IssuedChange t) : t.Anchored where
  names ty data hdata sym hsym := by
    have hgrows := h.expands.symbols
    rcases h.record_cases hdata with ⟨old, hold, hretold⟩ | ⟨-, hfresh⟩
    · have hlt := hs.names ty old hold sym (hretold.names ▸ hsym)
      omega
    · rcases hfresh.names sym hsym with hnames | ⟨rfl, hlt⟩
      · have hlt := hs.lt_of_names hnames
        omega
      · exact hlt
  mentions ty data hdata c hc := by
    refine h.expands.has ?_
    rcases h.record_cases hdata with ⟨old, hold, hretold⟩ | ⟨-, hfresh⟩
    · exact (hretold.told.mentions c hc).elim (hs.mentions ty old hold c) id
    · exact hs.has_of_mentions (hfresh.mentions c hc)
  unnamed ty data hdata hunnamed := by
    rcases h.record_cases hdata with ⟨old, hold, hretold⟩ | ⟨-, hfresh⟩
    · exact hretold.symbol.trans (hs.unnamed ty old hold (hretold.told.tag ▸ hunnamed))
    · exact hfresh.unnamed hunnamed
  canonical sym y ty hy htype := by
    -- only a declaration and a damage give a symbol a type that it did not have
    have hkept : ∀ y, s.symbol? sym = some y → y.type = some ty → t.Heads ty sym :=
      fun y hy htype => (hs.canonical sym y ty hy htype).step h
    cases h with
    | same _ hsymbols =>
      refine hkept y ?_ htype
      rwa [symbol?, ← hsymbols]
    | type | revise => exact hkept y hy htype
    | symbol new hnew =>
      rw [symbol?_pushSymbol] at hy
      split at hy
      · obtain rfl := Option.some.inj hy
        rw [hnew] at htype
        cases htype
      · exact hkept y hy htype
    | update sym' f hf =>
      rw [symbol?_updateSymbol] at hy
      split at hy
      · obtain ⟨old, hold, rfl⟩ := Option.map_eq_some_iff.1 hy
        exact hkept old hold ((hf old).symm.trans htype)
      · exact hkept y hy htype
    | declare new kind hnew htag =>
      rw [symbol?_updateSymbol] at hy
      split at hy
      · next heq =>
        subst heq
        obtain ⟨old, -, rfl⟩ := Option.map_eq_some_iff.1 hy
        obtain rfl := Option.some.inj htype
        exact hs.heads_declare htag
      · next hne =>
        rw [symbol?_pushType, symbol?_pushSymbol, if_neg (Ne.symm hne)] at hy
        exact hkept y hy htype
    | damage sym' =>
      rw [symbol?_updateSymbol] at hy
      split at hy
      · obtain ⟨old, -, rfl⟩ := Option.map_eq_some_iff.1 hy
        obtain rfl := Option.some.inj htype
        exact ⟨{ symbol := some sym', kind := .error WellKnown.missing }, by simp, rfl, .inl rfl⟩
      · exact hkept y hy htype

theorem Anchored.of_develops (hs : s.Anchored) (h : s.Develops t) : t.Anchored := by
  induction h with
  | refl => exact hs
  | tail _ hstep ih => exact ih.step hstep

theorem initial_anchored (options : DisplayOptions) : (initial options).Anchored where
  names ty data h := by
    have hall : ∀ data ∈ initialTypes, ∀ sym ∈ data.names, sym.index < initialSymbols.length := by decide
    exact hall data (mem_initialTypes h)
  mentions ty data h := by
    have hall : ∀ data ∈ initialTypes, data.kind.mentions = [] := by decide
    rw [hall data (mem_initialTypes h)]
    simp
  unnamed ty data h hunnamed := by
    have hall : ∀ data ∈ initialTypes, data.kind.tag.unnamed = false := by decide
    rw [hall data (mem_initialTypes h)] at hunnamed
    cases hunnamed
  canonical sym y ty hy htype := by
    have hall : ∀ y ∈ initialSymbols, ∀ ty ∈ y.type,
        ∃ data ∈ initialTypes[ty.index]?, data.literal = none ∧ data.kind.tag.atomic = true := by
      decide
    obtain ⟨data, hdata, hliteral, htag⟩ := hall y (mem_initialSymbols hy) ty htype
    exact ⟨data, (List.getElem?_toArray).trans hdata, hliteral, .inl htag⟩

end Store

/-- **Every store is anchored** that has grown out of a new one by operations on handles of its own. -/
theorem Session.Leads.anchored {options : DisplayOptions} {audience : Log.Filter} {s : Session}
    (h : (Session.initial options audience).Leads s) : s.store.Anchored :=
  (Store.initial_anchored options).of_develops (h.upholds (Store.initial_consistent options)).1

/-! ### Well-formed stores -/

theorem Kind.unnamed_of_shape {k : Kind} (h : k.shape.unnamed) : k.tag.unnamed := by
  cases k <;> simp_all [Kind.shape, Shape.unnamed, Kind.tag, Tag.unnamed]

theorem Kind.tag_of_plain {k : Kind} (h : k.shape.plain) :
    k.tag ≠ .classType ∧ k.tag.isPrimitive = false := by
  cases k with
  | array | method | forAll | wildcard => exact ⟨by simp [Kind.tag], rfl⟩
  | _ => cases h

/-- **The records of a store that holds on to its own handles are as the constructors make them.** -/
theorem Store.Anchored.wellFormed {s : Store} (h : s.Anchored) (hs : s.Consistent) : s.WellFormed := by
  intro data hmem
  obtain ⟨i, hi, hdata⟩ := Array.mem_iff_getElem.1 hmem
  have hdata : s.type? ⟨i⟩ = some data := by rw [type?, Array.getElem?_eq_getElem hi, hdata]
  have hrecord := hs.types _ data hdata
  refine ⟨hrecord.closed, fun v hv => hs.has_ingredient hdata ?_, fun sym hsym => ?_,
    fun hshape => h.unnamed _ data hdata (Kind.unnamed_of_shape hshape), fun hshape => ?_⟩
  · cases hkind : data.kind <;> simp_all [Kind.binders, Kind.ingredients]
  · have hlt := h.names _ data hdata sym (List.mem_append_left _ (Option.mem_toList.2 hsym))
    exact Option.isSome_iff_exists.2 (exists_symbol hlt)
  · obtain ⟨hclass, hprimitive⟩ := Kind.tag_of_plain hshape
    refine ⟨Bool.eq_false_iff.2 fun herased => hclass (hrecord.erased herased), ?_⟩
    refine Option.not_isSome_iff_eq_none.1 fun hliteral => ?_
    rcases hrecord.literal hliteral with htag | htag
    · rw [hprimitive] at htag
      cases htag
    · exact hclass htag

theorem Session.Leads.wellFormed {options : DisplayOptions} {audience : Log.Filter} {s : Session}
    (h : (Session.initial options audience).Leads s) : s.store.WellFormed :=
  h.anchored.wellFormed h.consistent

/-- **Types can be gone through** in a store that is worked with through its own handles, once nothing
is pending and as long as no type is made of itself. -/
theorem Session.Leads.atRest {options : DisplayOptions} {audience : Log.Filter} {s : Session}
    (h : (Session.initial options audience).Leads s) (hacyclic : s.store.Acyclic)
    (hpending : ∀ y ∈ s.store.symbols, y.completer = none) : s.store.AtRest :=
  ⟨h.wellFormed, hacyclic, fun _ =>
    Store.nonePending_of_symbols fun y hy => Option.isNone_iff_eq_none.2 (hpending y hy)⟩

end RegionTypes

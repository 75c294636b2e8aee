import RegionTypes.Proofs.Completion.Derived
import RegionTypes.Proofs.Loading.Survey

/-!
# What questions leave alone

Where no class has to be loaded, a question changes nothing but lists of class types that were unset: a
declared list becomes empty, and a derived list is kept.  What is left of a record without these is its
outline.

* `ClassInfo.outline`, `TypeData.outline` — class data and records up to lists that are set by questions.
* `Store.Underlies` — another store with the same outlines, and perhaps more types.
* `Store.SetsList.sameOutline` — **setting a list changes no outline**.
* `asks_leavesOutline` — so no question does, if no completer is left.
* `Run.Yields` — a computation returns wherever the store has the outlines of a given one, and leaves
  them alone; with a rule for each way in which questions are put together.
* `declaredList_yields`, `remember_yields`, `suppliedPart_yields` — the lists of a class type.
* `Store.Settled.survey` — **each question about a settled store ends**, whatever its answer is.
-/

namespace RegionTypes

open Run

variable {α β : Type} {start : Completer → Loader} {info info' : ClassInfo} {slot : Slot β}
  {symbol : Option SymbolId}

/-! ### Outlines -/

/-- Class data up to the lists that questions set. -/
def ClassInfo.outline (info : ClassInfo) : ClassInfo :=
  { info.plain with
    typeArgs := some (info.typeArgs.getD [])
    regionArgs := some (info.regionArgs.getD [])
    effectArgs := some (info.effectArgs.getD []) }

/-- The record of a type up to the lists that questions set. -/
def TypeData.outline (data : TypeData) : TypeData :=
  { data with kind := data.kind.mapClass ClassInfo.outline }

theorem ClassInfo.outline_settle (hslot : slot.Declared) (hunset : slot.read info = none) :
    (slot.write [] info).outline = info.outline := by
  cases hslot with
  | typeArgs =>
    have hunset : info.typeArgs = none := hunset
    simp [Slot.typeArgs, outline, plain, hunset]
  | regionArgs =>
    have hunset : info.regionArgs = none := hunset
    simp [Slot.regionArgs, outline, plain, hunset]
  | effectArgs =>
    have hunset : info.effectArgs = none := hunset
    simp [Slot.effectArgs, outline, plain, hunset]

theorem ClassInfo.outline_remember (hslot : slot.Derived) (list : List β) (info : ClassInfo) :
    (slot.write list info).outline = info.outline := by
  cases hslot <;> rfl

/-- A declared list can be read off the outline, but not whether it is unset. -/
theorem ClassInfo.getD_of_outline (hslot : slot.Declared) (h : info'.outline = info.outline) :
    (slot.read info').getD [] = (slot.read info).getD [] := by
  cases hslot with
  | typeArgs => exact Option.some.inj (congrArg ClassInfo.typeArgs h)
  | regionArgs => exact Option.some.inj (congrArg ClassInfo.regionArgs h)
  | effectArgs => exact Option.some.inj (congrArg ClassInfo.effectArgs h)

theorem ClassInfo.outer_of_outline (h : info'.outline = info.outline) :
    info'.outer = info.outer := by
  show info'.outline.outer = info.outline.outer
  rw [h]

theorem ClassInfo.supertype_of_outline (h : info'.outline = info.outline) :
    info'.supertype = info.supertype := by
  show info'.outline.supertype = info.outline.supertype
  rw [h]

theorem ClassInfo.interfaces_of_outline (h : info'.outline = info.outline) :
    info'.interfaces = info.interfaces := by
  show info'.outline.interfaces = info.outline.interfaces
  rw [h]

theorem TypeData.eq_of_outline {data data' : TypeData} (h : data'.outline = data.outline)
    (hclass : data.kind.class? = none) : data' = data := by
  obtain ⟨symbol, erased, literal, kind⟩ := data
  obtain ⟨symbol', erased', literal', kind'⟩ := data'
  simp only [TypeData.outline, TypeData.mk.injEq] at h
  obtain ⟨rfl, rfl, rfl, hkind⟩ := h
  rw [Kind.eq_of_mapClass hkind hclass]

theorem TypeData.class_of_outline {data data' : TypeData} (h : data'.outline = data.outline)
    (kind : data.kind = .classType info) :
    ∃ info', data' = { data with kind := .classType info' } ∧ info'.outline = info.outline := by
  obtain ⟨symbol, erased, literal, k⟩ := data
  obtain ⟨symbol', erased', literal', k'⟩ := data'
  obtain ⟨rfl, rfl, rfl, hkind⟩ := TypeData.mk.inj h
  obtain rfl : k = .classType info := kind
  cases k' with
  | classType info' => exact ⟨info', rfl, Kind.classType.inj hkind⟩
  | _ => cases hkind

namespace Store

variable {o s t u : Store} {ty : TypeId} {data : TypeData} {info : ClassInfo}

/-- The other store has the same outlines and the same symbols, and perhaps more types. -/
structure Underlies (s t : Store) : Prop where
  types : ∀ ty data, s.type? ty = some data →
    ∃ data', t.type? ty = some data' ∧ data'.outline = data.outline
  symbols : t.symbols = s.symbols

theorem Underlies.refl (s : Store) : s.Underlies s := ⟨fun _ data h => ⟨data, h, rfl⟩, rfl⟩

theorem Underlies.trans (h : s.Underlies t) (h' : t.Underlies u) : s.Underlies u where
  types ty data hdata := by
    obtain ⟨data₁, h₁, houtline⟩ := h.types ty data hdata
    obtain ⟨data₂, h₂, houtline'⟩ := h'.types ty data₁ h₁
    exact ⟨data₂, h₂, houtline'.trans houtline⟩
  symbols := h'.symbols.trans h.symbols

theorem Underlies.has (h : s.Underlies t) (hty : s.Has ty) : t.Has ty := by
  obtain ⟨data, hdata⟩ := has_iff.1 hty
  obtain ⟨data', hdata', -⟩ := h.types ty data hdata
  exact has_iff.2 ⟨data', hdata'⟩

theorem Underlies.symbol? (h : s.Underlies t) (sym : SymbolId) : t.symbol? sym = s.symbol? sym := by
  rw [Store.symbol?, h.symbols, Store.symbol?]

theorem Underlies.canonical? (h : s.Underlies t) (symbol : Option SymbolId) :
    t.canonical? symbol = s.canonical? symbol := by
  simp only [Store.canonical?, h.symbol?]

theorem Underlies.record (h : s.Underlies t) (record : s.type? ty = some data)
    (hclass : data.kind.class? = none) : t.type? ty = some data := by
  obtain ⟨data', record', houtline⟩ := h.types ty data record
  rw [record', TypeData.eq_of_outline houtline hclass]

theorem Underlies.classRecord (h : s.Underlies t) (record : s.type? ty = some data)
    (kind : data.kind = .classType info) :
    ∃ info', t.type? ty = some { data with kind := .classType info' } ∧
      info'.outline = info.outline := by
  obtain ⟨data', record', houtline⟩ := h.types ty data record
  obtain ⟨info', rfl, hinfo⟩ := TypeData.class_of_outline houtline kind
  exact ⟨info', record', hinfo⟩

theorem underlies_pushType (s : Store) (data : TypeData) : s.Underlies (s.pushType data) where
  types _ data' h := ⟨data', type?_pushType_of_some h data, rfl⟩
  symbols := rfl

/-! ### Setting a list -/

/-- Each store has the outlines of the other. -/
structure SameOutline (s t : Store) : Prop where
  forth : s.Underlies t
  back : t.Underlies s

theorem SameOutline.refl (s : Store) : s.SameOutline s := ⟨.refl s, .refl s⟩

theorem SameOutline.trans (h : s.SameOutline t) (h' : t.SameOutline u) : s.SameOutline u :=
  ⟨h.forth.trans h'.forth, h'.back.trans h.back⟩

theorem sameOutline_reviseType {f : ClassInfo → ClassInfo} (record : s.type? ty = some data)
    (kind : data.kind = .classType info) (hf : (f info).outline = info.outline) :
    s.SameOutline (s.reviseType ty (·.mapClass f)) := by
  have hlook : ∀ a, ((s.reviseType ty (·.mapClass f)).type? a).map TypeData.outline =
      (s.type? a).map TypeData.outline := by
    intro a
    rw [reviseType, type?_updateType]
    split
    · next h =>
      subst h
      simp [record, TypeData.outline, kind, Kind.mapClass, hf]
    · rfl
  have hunderlies {s t : Store} (h : ∀ a, (t.type? a).map TypeData.outline =
      (s.type? a).map TypeData.outline) (hsymbols : t.symbols = s.symbols) : s.Underlies t := by
    refine ⟨fun a data' hdata => ?_, hsymbols⟩
    have hsome := h a
    rw [hdata, Option.map_some] at hsome
    exact Option.map_eq_some_iff.1 hsome
  exact ⟨hunderlies hlook rfl, hunderlies (fun a => (hlook a).symm) rfl⟩

/-- **Setting a list changes no outline.** -/
theorem SetsList.sameOutline (h : s.SetsList t) : s.SameOutline t := by
  cases h with
  | settle slot ty data info hslot hdata hkind hunset =>
    exact sameOutline_reviseType hdata hkind (ClassInfo.outline_settle hslot hunset)
  | remember slot ty list data info hslot hdata hkind =>
    exact sameOutline_reviseType hdata hkind (ClassInfo.outline_remember hslot list info)

theorem SetsList.options (h : s.SetsList t) : t.options = s.options := by
  cases h <;> rfl

theorem NothingPending.of_underlies (h : s.NothingPending) (hst : s.Underlies t) : t.NothingPending := by
  rw [NothingPending, hst.symbols]
  exact h

/-- Where nothing is left to be loaded, the other store has the same outlines and options. -/
def LeavesOutline (s t : Store) : Prop := s.NothingPending → s.SameOutline t ∧ t.options = s.options

instance : IsPreorder Store LeavesOutline where
  refl s _ := ⟨.refl s, rfl⟩
  trans _ _ _ hst htu hs := by
    obtain ⟨hfirst, hoptions⟩ := hst hs
    obtain ⟨hsecond, hoptions'⟩ := htu (hs.of_underlies hfirst.forth)
    exact ⟨hfirst.trans hsecond, hoptions'.trans hoptions⟩

end Store

/-- Where nothing is left to be loaded, no completer is started. -/
theorem completeSymbol_leavesOutline (sym : SymbolId) :
    Along Store.LeavesOutline (completeSymbol start sym) := by
  intro s
  refine along_of_still (symbolData_still sym) fun y s' hrun _ hs => ?_
  obtain ⟨rfl, hy⟩ := eq_of_symbolData hrun
  simp only [hs y (Array.mem_of_getElem? hy)]
  exact ⟨.refl _, rfl⟩

/-- **Questions change no outline** where nothing is left to be loaded. -/
theorem asks_leavesOutline :
    (completeSymbol start).Asks (completeSymbol start) (Tie.ofMoves Store.LeavesOutline) :=
  Loader.Tied.asks ⟨fun _ _ hsets _ => ⟨hsets.sameOutline, hsets.options⟩,
    fun sym => Tie.keeps_ofMoves (completeSymbol_leavesOutline sym)⟩

/-! ### Answers that depend on outlines -/

namespace Store

theorem Underlies.loaded {s t : Store} {classes : List SymbolId} (h : s.Underlies t)
    (hs : s.Loaded classes) : t.Loaded classes := by
  intro sym hsym
  rw [h.symbol? sym]
  exact hs sym hsym

end Store

section Yields

variable {o : Store} {ty : TypeId} {data : TypeData} {info : ClassInfo} {l : List α} {action : Run α}
  {p : α → Prop}

/-- Wherever the store has the outlines of the given one, the computation returns a value that satisfies
`post`, and the store has these outlines afterwards. -/
def Run.Yields (o : Store) (action : Run α) (post : α → Prop) : Prop :=
  ∀ s, o.Underlies s.store → action.Returns s fun a s' => o.Underlies s'.store ∧ post a

/-- The computation comes to an end with a result. -/
def Run.Ends (action : Run α) (s : Session) : Prop := ∃ a s', action s = .ok a s'

theorem Run.Yields.ends {post : α → Prop} {s : Session} (h : action.Yields s.store post) :
    action.Ends s := by
  obtain ⟨a, s', hrun, -⟩ := h s (.refl _)
  exact ⟨a, s', hrun⟩

theorem Run.Yields.imp {q : α → Prop} (h : action.Yields o p) (hpq : ∀ a, p a → q a) :
    action.Yields o q := by
  intro s hs
  exact (h s hs).imp fun a _ ⟨hs', ha⟩ => ⟨hs', hpq a ha⟩

theorem Run.Yields.bind {next : α → Run β} {q : β → Prop} (h : action.Yields o p)
    (hnext : ∀ a, p a → (next a).Yields o q) :
    (action >>= next).Yields o q := by
  intro s hs
  exact (h s hs).bind fun a s' ⟨hs', ha⟩ => hnext a ha s' hs'

theorem yields_pure {a : α} (h : p a) : (pure a : Run α).Yields o p :=
  fun _ hs => returns_pure ⟨hs, h⟩

/-- What returns while the outlines stay. -/
def Run.yielding (o : Store) : Run.Logic := ⟨Yields o, yields_pure, .bind⟩

/-- Where only the outcome matters to what comes next. -/
theorem Run.Yields.then {next : α → Run β} {q : β → Prop} (h : action.Yields o p)
    (hnext : ∀ a, (next a).Yields o q) : (action >>= next).Yields o q :=
  h.bind fun a _ => hnext a

/-! #### Records -/

/-- Where any record does. -/
theorem yields_typeData_of_has {next : TypeData → Run β} {q : β → Prop} (hty : o.Has ty)
    (h : ∀ data, (next data).Yields o q) : (typeData ty >>= next).Yields o q := by
  intro s hs
  obtain ⟨data, record⟩ := Store.has_iff.1 (hs.has hty)
  exact .step (typeData_run record) (h data s hs)

/-! #### The lists of a class -/

theorem completeLazily_yields (hloaded : o.Loaded symbol.toList) :
    (completeLazily (completeSymbol start) symbol).Yields o fun _ => True :=
  fun s hs => ⟨(), s, completeLazily_run (hs.loaded hloaded), hs, trivial⟩

/-- **A declared list** of a class that has not to be loaded. -/
theorem declaredList_yields (hslot : slot.Declared) (record : o.type? ty = some data)
    (kind : data.kind = .classType info) (hloaded : o.Loaded data.symbol.toList) :
    (declaredList (completeSymbol start) slot ty data.symbol).Yields o
      (· = (slot.read info).getD []) := by
  intro s hs
  obtain ⟨info', record', hinfo⟩ := hs.classRecord record kind
  rw [← ClassInfo.getD_of_outline hslot hinfo]
  have hcurrent := slot.current_run record' rfl
  refine .step hcurrent ?_
  cases hread : slot.read info' with
  | some => exact returns_pure ⟨hs, rfl⟩
  | none =>
    rw [hread] at hcurrent
    obtain ⟨completing, hcompleting⟩ := isCompleting_run (hs.loaded hloaded).known
    refine .step (completeLazily_run (hs.loaded hloaded)) (.step hcurrent (.step hcompleting ?_))
    cases completing with
    | true => exact returns_pure ⟨hs, rfl⟩
    | false =>
      have hsets := Store.SetsList.settle slot ty _ info' hslot record' rfl hread
      exact ⟨[], _, rfl, hs.trans hsets.sameOutline.forth, rfl⟩

/-- **A derived list** may be kept. -/
theorem remember_yields (hslot : slot.Derived) (record : o.type? ty = some data)
    (kind : data.kind = .classType info) (list : List β) :
    (remember slot ty list).Yields o fun _ => True := by
  intro s hs
  obtain ⟨info', record', -⟩ := hs.classRecord record kind
  rw [Returns, remember_run (Store.class?_eq_some.2 ⟨_, record', rfl⟩)]
  split
  · next hrest =>
    cases hread : slot.read info' with
    | some kept => exact ⟨kept, s, rfl, hs, trivial⟩
    | none =>
      have hsets := Store.SetsList.remember slot ty list _ info' hslot record' rfl hread hrest
      exact ⟨list, _, rfl, hs.trans hsets.sameOutline.forth, trivial⟩
  · exact ⟨list, s, rfl, hs, trivial⟩

/-- What loading a class supplies is part of its outline. -/
theorem suppliedPart_yields {read : ClassInfo → Option α}
    (hread : ∀ info info' : ClassInfo, info'.outline = info.outline → read info' = read info)
    (record : o.type? ty = some data) (hloaded : o.Loaded data.symbol.toList) :
    (suppliedPart (completeSymbol start) read ty).Yields o
      (· = ((o.kind? ty).bind Kind.class?).bind read) := by
  intro s hs
  rw [Store.kind?_eq record, Option.bind_some]
  cases hclass : data.kind.class? with
  | none =>
    refine .step (typeData_run (hs.record record hclass)) ?_
    obtain ⟨symbol, erased, literal, kind⟩ := data
    cases kind with
    | classType => cases hclass
    | _ => exact returns_pure ⟨hs, rfl⟩
  | some info =>
    obtain ⟨info', record', hinfo⟩ := hs.classRecord record (Kind.class?_eq_some.1 hclass)
    have hlast : (do return (← kindOf ty).class?.bind read : Run (Option α)) s = .ok (read info') s :=
      bind_run (kindOf_run record')
    refine .step (typeData_run record') ?_
    dsimp only
    rw [Option.bind_some, ← hread info info' hinfo]
    split
    · exact .step (completeLazily_run (hs.loaded hloaded)) ⟨_, s, hlast, hs, rfl⟩
    · exact ⟨_, s, hlast, hs, rfl⟩

theorem typeArguments_yields (record : o.type? ty = some data) (kind : data.kind = .classType info)
    (hloaded : o.Loaded data.symbol.toList) (d : Nat) :
    (typeArguments (completeSymbol start) (d + 1) ty).Yields o (· = info.typeArgs.getD []) := by
  intro s hs
  obtain ⟨info', record', -⟩ := hs.classRecord record kind
  exact .step (typeData_run record') (declaredList_yields .typeArgs record kind hloaded s hs)

end Yields

/-! ### Surveys -/

section Surveys

variable {o : Store} {ty : TypeId}

theorem TypeData.found_of_outline {data data' : TypeData} (h : data'.outline = data.outline) :
    data.Found o False ty data' := by
  cases hclass : data.kind.class? with
  | none =>
    obtain rfl := TypeData.eq_of_outline h hclass
    exact .other hclass
  | some info =>
    obtain ⟨symbol, erased, literal, kind⟩ := data
    obtain rfl : kind = .classType info := Kind.class?_eq_some.1 hclass
    obtain ⟨info', rfl, hinfo⟩ := TypeData.class_of_outline h rfl
    refine .classType (ClassInfo.outer_of_outline hinfo) (fun _ _ _ => False.elim) fun hsuper hinter => ?_
    exact ⟨(ClassInfo.supertype_of_outline hinfo).trans hsuper,
      (ClassInfo.interfaces_of_outline hinfo).trans hinter⟩

theorem Slot.Means.derived {value : TypeId → List β} (h : slot.Means o value) : slot.Derived := by
  cases h <;> constructor

/-- **A settled store can be surveyed**: questions end, whatever their answers are. -/
def Store.Settled.survey (h : o.Settled) (start : Completer → Loader) :
    Survey o (completeSymbol start) where
  toLogic := yielding o
  settled := h
  sure := False
  session s hs := ⟨s, s, rfl, hs, trivial⟩
  logging level target fields s hs := by
    refine (log_returns level target fields s).imp fun _ s' ⟨new, hs', _⟩ => ⟨?_, trivial⟩
    rw [hs']
    exact hs
  typeData hty s hs := by
    obtain ⟨full, hfull⟩ := Store.has_iff.1 hty
    obtain ⟨data, hdata, houtline⟩ := hs.types _ full hfull
    exact ⟨data, s, typeData_run hdata, hs, full, hfull, TypeData.found_of_outline houtline⟩
  symbolData hy s hs := ⟨_, s, symbolData_run ((hs.symbol? _).trans hy), hs, rfl⟩
  completeLazily hy := by
    refine completeLazily_yields fun sym hsym => ?_
    obtain rfl := List.mem_singleton.1 hsym
    exact ⟨_, hy, h.pending _ (Array.mem_of_getElem? hy)⟩
  declaredList hslot hfull :=
    (declaredList_yields hslot hfull rfl (h.loaded hfull)).imp fun _ hl => ⟨.inl hl, False.elim⟩
  remember hmeans hfull _ :=
    (remember_yields hmeans.derived hfull rfl _).imp fun _ _ => False.elim
  supertype hty := by
    obtain ⟨data, hdata⟩ := Store.has_iff.1 hty
    exact (suppliedPart_yields (fun _ _ => ClassInfo.supertype_of_outline) hdata (h.loaded hdata)).imp
      fun _ hsuper => ⟨.inl hsuper, False.elim⟩
  interfaces hty := by
    obtain ⟨data, hdata⟩ := Store.has_iff.1 hty
    exact (suppliedPart_yields (fun _ _ => ClassInfo.interfaces_of_outline) hdata
      (h.loaded hdata)).bind fun _ hlist =>
        yields_pure ⟨.inl (congrArg (Option.getD · []) hlist), False.elim⟩

end Surveys

end RegionTypes

import RegionTypes.Proofs.Store.Consistent

/-!
# Making types from issued handles

An operation that is given handles of the store gives out handles of the store, and leaves the store
consistent.  It does so however it ends, and whatever the classes that it loads add to the store.

* `Run.Issues` — **from this session, a consistent store stays consistent** and what is returned
  belongs to it, with a rule for sequences and one for each kind of reading.
* `useClass_issues`, `declare_upheld`, ... — new types and symbols.
* `mapType_issues` — any mapping that gives out handles of the store.
* `substitute_issues`, `apply_issues` — substitutions and tables whose targets belong to the store.
* `defineClass_upheld`, `setThrown_upheld` — what a class and a method are told.
-/

namespace RegionTypes

variable {ty : TypeId}

namespace Run

variable {α β σ : Type} {s : Session} {made : α → Store → Prop} {made' : β → Store → Prop} {action : Run α}

/-- From this session, if its store is consistent, the store develops and stays consistent, and what is
returned goes with the store. -/
def Issues (made : α → Store → Prop) (action : Run α) (s : Session) : Prop :=
  s.store.Consistent → s.store.Develops (action.after s).store ∧ (action.after s).store.Consistent ∧
    ∀ a s', action s = .ok a s' → made a s'.store

/-- From this session, if its store is consistent, the store develops and stays consistent. -/
abbrev Upheld (action : Run α) (s : Session) : Prop := Issues (fun _ _ => True) action s

theorem Issues.upholds (h : Issues made action s) :
    s.store.Upholds (action.after s).store :=
  fun hs => ⟨(h hs).1, (h hs).2.1⟩

theorem issues_of_upholds (h : s.store.Upholds (action.after s).store)
    (hmade : ∀ a s', action s = .ok a s' → s'.store.Consistent → made a s'.store) :
    Issues made action s := by
  intro hs
  obtain ⟨hgrows, hafter⟩ := h hs
  refine ⟨hgrows, hafter, fun a s' hrun => hmade a s' hrun ?_⟩
  rwa [after_of_ok hrun] at hafter

theorem upheld_of (h : s.store.Upholds (action.after s).store) : Upheld action s :=
  issues_of_upholds h fun _ _ _ _ => trivial

theorem Along.upheld (h : Along Store.Upholds action) : Upheld action s :=
  upheld_of (h s)

/-- Only consistent stores count. -/
theorem issues_intro (h : s.store.Consistent → Issues made action s) :
    Issues made action s :=
  fun hs => h hs hs

theorem issues_pure {a : α} (h : made a s.store) : Issues made (pure a) s := by
  refine issues_of_upholds (refl_of Store.Upholds s.store) fun b s' hrun _ => ?_
  obtain ⟨rfl, rfl⟩ := EStateM.Result.ok.inj hrun
  exact h

theorem issues_tooDeep : Issues made (tooDeep : Run α) s :=
  issues_of_upholds (tooDeep_still.of_eq s) nofun

/-- **Sequencing.** -/
theorem Issues.bind {next : α → Run β} (h : Issues made action s)
    (hnext : ∀ a s', action s = .ok a s' → s.store.Develops s'.store → made a s'.store →
      Issues made' (next a) s') : Issues made' (action >>= next) s := by
  intro hs
  obtain ⟨hgrows, hafter, hmade⟩ := h hs
  have hrest : ∀ a s', action s = .ok a s' → Issues made' (next a) s' := by
    intro a s' hrun
    rw [after_of_ok hrun] at hgrows
    exact hnext a s' hrun hgrows (hmade a s' hrun)
  have hupholds : s.store.Upholds ((action >>= next).after s).store :=
    along_of_bind (h.upholds) fun a s' hrun => (hrest a s' hrun).upholds
  refine ⟨(hupholds hs).1, (hupholds hs).2, fun b s'' hrun => ?_⟩
  obtain ⟨a, s', hfirst, hsecond⟩ := exists_of_bind hrun
  rw [after_of_ok hfirst] at hafter
  exact (hrest a s' hfirst hafter).2.2 b s'' hsecond

theorem Issues.map {f : α → β} (h : Issues made action s) :
    Upheld (do return f (← action)) s :=
  h.bind fun _ _ _ _ _ => issues_pure trivial

/-! ### Reading -/

theorem issues_read {read : Run α} {next : α → Run β} {found : α → Prop} (hstill : Along Eq read)
    (hread : ∀ a s', read s = .ok a s' → s' = s ∧ found a)
    (h : ∀ a, found a → Issues made' (next a) s) : Issues made' (read >>= next) s := by
  have halong : Along Store.Upholds read := hstill.of_eq
  refine halong.upheld.bind fun a s' hrun _ _ => ?_
  obtain ⟨rfl, hfound⟩ := hread a s' hrun
  exact h a hfound

theorem issues_typeData {next : TypeData → Run β}
    (h : ∀ data, s.store.type? ty = some data → Issues made' (next data) s) :
    Issues made' (typeData ty >>= next) s :=
  issues_read (typeData_still ty) (fun _ _ hrun => eq_of_typeData hrun) h

theorem issues_kindOf {next : Kind → Run β}
    (h : ∀ data, s.store.type? ty = some data → Issues made' (next data.kind) s) :
    Issues made' (kindOf ty >>= next) s := by
  refine issues_read (kindOf_still ty) (fun _ _ hrun => eq_of_kindOf hrun) ?_
  rintro _ ⟨data, hdata, rfl⟩
  exact h data hdata

/-! ### Computations with a state -/

/-- The same from every state that a mapping has of its own. -/
def IssuesState (made : α → Store → Prop) (action : StateT σ Run α) (s : Session) : Prop :=
  ∀ u, Issues (fun r t => made r.1 t) (action.run u) s

theorem issuesState_pure {a : α} (h : made a s.store) :
    IssuesState made (pure a : StateT σ Run α) s :=
  fun _ => issues_pure h

theorem issuesState_intro {action : StateT σ Run α}
    (h : s.store.Consistent → IssuesState made action s) : IssuesState made action s :=
  fun u => issues_intro fun hs => h hs u

theorem IssuesState.bind {action : StateT σ Run α} {next : α → StateT σ Run β}
    (h : IssuesState made action s)
    (hnext : ∀ a s', s.store.Develops s'.store → made a s'.store → IssuesState made' (next a) s') :
    IssuesState made' (action >>= next) s :=
  fun u => (h u).bind fun r s' _ hgrows hmade => hnext r.1 s' hgrows hmade r.2

theorem Issues.lift (h : Issues made action s) :
    IssuesState made (liftM action : StateT σ Run α) s :=
  fun _ => h.bind fun _ _ _ _ hmade => issues_pure hmade

theorem IssuesState.run' {action : StateT σ Run α} (h : IssuesState made action s) (u : σ) :
    Issues made (action.run' u) s :=
  (h u).bind fun _ _ _ _ hmade => issues_pure hmade

theorem issuesState_typeData {next : TypeData → StateT σ Run β}
    (h : ∀ data, s.store.type? ty = some data → IssuesState made' (next data) s) :
    IssuesState made' (do next (← (typeData ty : Run TypeData))) s := by
  intro u
  have hrun : (do next (← (typeData ty : Run TypeData)) : StateT σ Run β).run u =
      typeData ty >>= fun data => (next data).run u := by
    simp
  rw [hrun]
  exact issues_typeData fun data hdata => h data hdata u

end Run

open Run

variable {s : Session} {load : Loader} {α : Type} {depth : Nat} {name : String}
  {owner symbol : Option SymbolId} {flags : Flags} {subst : Substitution} {data : TypeData}
  {sym : SymbolId} {types : List TypeId}

/-- The handle that is given out belongs to the store. -/
abbrev Store.Gives (ty : TypeId) (t : Store) : Prop := t.Has ty

/-- The handles that are given out belong to the store. -/
abbrev Store.GivesAll (types : List TypeId) (t : Store) : Prop := ∀ ty ∈ types, t.Has ty

/-! ### Making types -/

/-- What is recorded with a type of the store is named or mentioned there. -/
theorem Store.names_of_record {t : Store} (h : t.type? ty = some data) :
    ∀ sym ∈ data.symbol.toList, t.Names sym :=
  fun _ hsym => .inr ⟨ty, data, h, List.mem_append_left _ hsym⟩

theorem pushType_issues (hshaped : s.store.Consistent → data.Shaped)
    (hparts : s.store.Consistent → ∀ c ∈ data.kind.ingredients ++ data.kind.components, s.store.Has c)
    (hunnamed : data.kind.tag.unnamed → data.symbol = none)
    (hnames : ∀ sym ∈ data.names, s.store.Names sym)
    (hmentions : ∀ c ∈ data.kind.mentions, s.store.Mentions c) :
    Issues Store.Gives (pushType data) s := by
  refine issues_of_upholds ?_ fun ty s' hrun _ => ?_
  · rw [after_of_ok (pushType_run data s)]
    exact Store.upholds_pushType hshaped hparts hunnamed hnames hmentions
  · obtain ⟨rfl, rfl⟩ := EStateM.Result.ok.inj ((pushType_run data s).symm.trans hrun)
    exact Store.has_iff.2 ⟨data, by simp⟩

theorem pushType_issues_of_not_class {kind : Kind} (hclass : kind.class? = none)
    (hvar : kind.tag = .typeVar → symbol.isSome) (hunnamed : kind.tag.unnamed → symbol = none)
    (hparts : s.store.Consistent → ∀ c ∈ kind.ingredients ++ kind.components, s.store.Has c)
    (hnames : ∀ sym ∈ symbol.toList ++ kind.indexVars, s.store.Names sym)
    (hmentions : ∀ c ∈ kind.mentions, s.store.Mentions c) :
    Issues Store.Gives (pushType { symbol, kind }) s :=
  pushType_issues (fun _ => TypeData.shaped_of_not_class hclass hvar) hparts hunnamed hnames hmentions

theorem pushType_issues_of_class {info : ClassInfo} (hkind : data.kind = .classType info)
    (hsuper : info.supertype = none) (hinterfaces : info.interfaces = none)
    (houter : s.store.Consistent → s.store.Has info.outer)
    (hargs : ∀ c ∈ info.typeArgs.getD [], s.store.Has c)
    (hnames : ∀ sym ∈ data.symbol.toList, s.store.Names sym) :
    Issues Store.Gives (pushType data) s := by
  refine pushType_issues (fun _ => TypeData.shaped_of_class hkind hsuper hinterfaces)
    (fun hs c hc => ?_) (by simp [hkind, Kind.tag, Tag.unnamed]) (fun sym hsym => ?_) fun c hc => ?_
  · rw [hkind] at hc
    have hwritten : info.written = info.typeArgs.getD [] := by rw [ClassInfo.written, hinterfaces]; rfl
    simp only [Kind.ingredients, Kind.components, hwritten, List.mem_append, List.mem_cons] at hc
    rcases hc with (rfl | hc) | rfl | hc
    · exact houter hs
    · exact hargs c hc
    · exact houter hs
    · exact hargs c hc
  · simp only [TypeData.names, hkind, Kind.indexVars, List.append_nil] at hsym
    exact hnames sym hsym
  · rw [hkind] at hc
    cases hc

/-- What stands in for a type that is not given is one of those every store has. -/
theorem Store.Consistent.has_getD {t : Store} (ht : t.Consistent) {ty : Option TypeId}
    (hty : ∀ c, ty = some c → t.Has c) {default : TypeId}
    (hdefault : default ∈ WellKnown.names.map Prod.snd) : t.Has (ty.getD default) := by
  cases ty with
  | none => exact ht.wellKnown default hdefault
  | some c => exact hty c rfl

theorem useClass_issues {use : ClassUse} (hsym : sym.index < s.store.symbols.size)
    (houter : ∀ c, use.outer = some c → s.store.Has c) (hargs : ∀ c ∈ use.typeArgs, s.store.Has c) :
    Issues Store.Gives (useClass sym use) s :=
  pushType_issues_of_class rfl rfl rfl (fun hs => hs.has_getD houter (by decide)) hargs
    fun _ h => .inl (List.mem_singleton.1 h ▸ hsym)

theorem arrayType_issues {elem : TypeId} (region : Option Path) {indexVar : Option SymbolId}
    (hindexVar : ∀ sym, indexVar = some sym → sym.index < s.store.symbols.size)
    (helem : s.store.Has elem) : Issues Store.Gives (arrayType elem region indexVar) s :=
  pushType_issues_of_not_class rfl nofun (fun _ => rfl)
    (fun _ => by simpa [Kind.ingredients, Kind.components] using helem)
    (fun sym hsym => .inl (hindexVar sym (Option.mem_toList.1 hsym))) (by simp [Kind.mentions])

theorem pushType_issues_of_method {info : MethodInfo} (hparams : ∀ c ∈ info.params, s.store.Has c)
    (hresult : s.store.Has info.result) (hthrown : ∀ c ∈ info.thrown, s.store.Has c) :
    Issues Store.Gives (pushType { symbol := none, kind := .method info }) s := by
  refine pushType_issues_of_not_class rfl nofun (fun _ => rfl) (fun _ c hc => ?_)
    (by simp [Kind.indexVars]) (by simp [Kind.mentions])
  simp only [Kind.ingredients, Kind.components, List.mem_append, List.mem_cons] at hc
  rcases hc with (rfl | hc) | hc | rfl | hc
  · exact hresult
  · exact hparams c hc
  · exact hparams c hc
  · exact hresult
  · exact hthrown c hc

theorem quantify_issues {info : ForAllInfo} (hvars : ∀ c ∈ info.typeVars, s.store.Has c)
    (hbody : s.store.Has info.body) : Issues Store.Gives (quantify info) s := by
  refine issues_typeData fun data hdata => pushType_issues_of_not_class rfl nofun
    (by simp [Kind.tag, Tag.unnamed]) (fun _ c hc => ?_)
    (by simpa [Kind.indexVars] using Store.names_of_record hdata) (by simp [Kind.mentions])
  simp only [Kind.ingredients, Kind.components, List.mem_append, List.mem_cons,
    List.not_mem_nil, or_false] at hc
  rcases hc with (rfl | hc) | rfl
  · exact hbody
  · exact hvars c hc
  · exact hbody

theorem wildcard_issues {bound : TypeId} {kind : BoundKind} {formal : Option TypeId}
    (hbound : s.store.Has bound) (hformal : ∀ c, formal = some c → s.store.Mentions c) :
    Issues Store.Gives (wildcard bound kind formal) s :=
  pushType_issues_of_not_class rfl nofun (fun _ => rfl)
    (fun _ => by simpa [Kind.ingredients, Kind.components] using hbound) (by simp [Kind.indexVars])
    fun c hc => hformal c (Option.mem_toList.1 hc)

theorem typeVar_issues {info : VarInfo} (hsym : s.store.Names sym)
    (hbound : ∀ c, info.bound = some c → s.store.Has c)
    (hprototype : ∀ c, info.prototype = some c → s.store.Has c) :
    Issues Store.Gives (typeVar sym info) s := by
  refine pushType_issues_of_not_class rfl (fun _ => rfl) (by simp [Kind.tag, Tag.unnamed])
    (fun _ c hc => ?_) (by simpa [Kind.indexVars] using hsym)
    fun c hc => .inl (hbound c (Option.mem_toList.1 hc))
  simp only [Kind.ingredients, Kind.components, List.append_nil, Option.mem_toList] at hc
  exact hprototype c hc

theorem violationAt_issues {made : α → Store → Prop} (h : load.Upholds) {before after : String} :
    Issues made (violationAt load depth before ty after) s := by
  refine issues_of_upholds ((violationAt_keeps h depth before ty after).along s) fun a s' hrun => ?_
  obtain ⟨options, s₁, -, hviolation⟩ := exists_of_bind hrun
  exact absurd hviolation violation_ne_ok

/-- The prototype of the copy is that of the variable, or the variable itself. -/
theorem copyTypeVar_issues (h : load.Upholds) {declared : TypeId} {regionArgs : List Path}
    (hdeclared : s.store.Has declared) :
    Issues Store.Gives (copyTypeVar load depth declared regionArgs) s := by
  refine issues_typeData fun data hdata => issues_intro fun hs => ?_
  cases hkind : data.kind with
  | typeVar info =>
    cases hsymbol : data.symbol with
    | none =>
      exact issues_of_upholds ((along_pure _).violation s) fun _ _ hrun => absurd hrun violation_ne_ok
    | some sym =>
      refine typeVar_issues (Store.names_of_record hdata sym (by simp [hsymbol])) (by simp) fun c hc => ?_
      obtain rfl : info.prototype.getD declared = c := Option.some.inj hc
      cases hprototype : info.prototype with
      | none => exact hdeclared
      | some => exact hs.has_ingredient hdata (by simp [hkind, Kind.ingredients, hprototype])
  | _ => exact violationAt_issues h

theorem placeholder_issues {origin : TypeId} (horigin : s.store.Has origin) :
    Issues Store.Gives (placeholder origin) s :=
  issues_typeData fun data hdata => pushType_issues_of_not_class rfl nofun
    (by simp [Kind.tag, Tag.unnamed])
    (fun _ => by simpa [Kind.ingredients, Kind.components] using horigin)
    (by simpa [Kind.indexVars] using Store.names_of_record hdata) (by simp [Kind.mentions])

theorem errorType_issues : Issues Store.Gives (errorType none) s :=
  pushType_issues_of_not_class rfl nofun (fun _ => rfl)
    (fun hs c hc => by
      obtain rfl : c = WellKnown.missing := by simpa [Kind.ingredients, Kind.components] using hc
      exact hs.wellKnown _ (by decide))
    (by simp [Kind.indexVars]) (by simp [Kind.mentions])

theorem damage_upheld (hsym : sym.index < s.store.symbols.size) :
    Upheld (damage sym) s := by
  let pushed := s.store.pushType { symbol := some sym, kind := .error WellKnown.missing }
  have hy : pushed.symbol? sym = some s.store.symbols[sym.index] := Array.getElem?_eq_getElem hsym
  have hrun : damage sym s = .ok s.store.nextType
      { s with store := pushed.updateSymbol sym (Symbol.damaged s.store.nextType) } :=
    (bind_run (pushType_run _ s)).trans (bind_run (updateSymbol_run hy))
  refine upheld_of ?_
  rw [after_of_ok hrun]
  exact Store.upholds_damage hsym

section Declarations

variable (howner : ∀ o, owner = some o → o.index < s.store.symbols.size)

include howner

theorem newSymbol_upheld {kind : SymbolKind} : Upheld (newSymbol kind name owner flags) s := by
  refine upheld_of ?_
  rw [after_of_ok (newSymbol_run kind name owner flags s)]
  exact fun hs => ⟨(Store.IssuedChange.symbol _ rfl).develops, hs.pushSymbol rfl howner⟩

theorem declare_upheld {symbolKind : SymbolKind} (kind : Kind) (result : SymbolId → TypeId → α)
    (hshaped : ∀ sym, TypeData.Shaped { symbol := some sym, kind })
    (hparts : s.store.Consistent → ∀ c ∈ kind.ingredients ++ kind.components, s.store.Has c)
    (htag : kind.tag = .classType ∨ kind.tag.atomic) (hmentions : ∀ c ∈ kind.mentions, s.store.Has c) :
    Upheld (do
      let sym ← newSymbol symbolKind name owner flags
      let ty ← pushType { symbol := some sym, kind }
      attachType sym ty
      return result sym ty) s := by
  let named := s.store.pushSymbol { name, owner, kind := symbolKind, flags }
  let pushed := named.pushType { symbol := some s.store.nextSymbol, kind }
  have hy : pushed.symbol? s.store.nextSymbol = some { name, owner, kind := symbolKind, flags } := by
    simp [pushed, named]
  have hrun : ∀ f, updateSymbol s.store.nextSymbol f { s with store := pushed } =
      .ok () { s with store := pushed.updateSymbol s.store.nextSymbol f } :=
    fun f => updateSymbol_run hy
  refine upheld_of ?_
  rw [after_bind (newSymbol_run symbolKind name owner flags s), after_bind (pushType_run _ _),
    attachType, after_bind (hrun _)]
  exact Store.upholds_declare rfl howner (hshaped _) hparts htag hmentions

theorem declareClass_upheld {outer : Option TypeId} (houter : ∀ c, outer = some c → s.store.Has c) :
    Upheld (declareClass name owner flags outer) s := by
  refine declare_upheld howner (.classType _) (fun sym _ => sym)
    (fun _ => TypeData.shaped_of_class rfl rfl rfl) (fun hs c hc => ?_) (.inl rfl)
    (by simp [Kind.mentions])
  obtain rfl : c = outer.getD WellKnown.missing := by
    simpa [Kind.ingredients, Kind.components, ClassInfo.written] using hc
  exact hs.has_getD houter (by decide)

theorem declarePackage_upheld : Upheld (declarePackage name owner) s :=
  declare_upheld howner .package (fun sym _ => sym) (fun _ => TypeData.shaped_of_not_class rfl nofun)
    (fun _ => nofun) (.inr rfl) (by simp [Kind.mentions])

theorem newTypeVar_upheld {lower : TypeId} : Upheld (newTypeVar name owner lower) s :=
  declare_upheld howner (.typeVar { lower }) (fun _ ty => ty)
    (fun _ => TypeData.shaped_of_not_class rfl fun _ => rfl) (fun _ => nofun) (.inr rfl)
    (by simp [Kind.mentions])

theorem captured_upheld {upper lower bounds : TypeId} (hupper : s.store.Has upper)
    (hbounds : s.store.Has bounds) : Upheld (captured name owner upper lower bounds) s := by
  refine declare_upheld howner (.captured { bound := some upper, lower } bounds) (fun _ ty => ty)
    (fun _ => TypeData.shaped_of_not_class rfl fun _ => rfl) (fun _ c hc => ?_) (.inr rfl)
    (by simpa [Kind.mentions] using hupper)
  obtain rfl : c = bounds := by simpa [Kind.ingredients, Kind.components] using hc
  exact hbounds

end Declarations

/-! ### Mappings -/

theorem rebuildClass_issues {outer : TypeId} {args : List TypeId} (houter : s.store.Has outer)
    (hargs : ∀ c ∈ args, s.store.Has c) (hnames : ∀ sym ∈ data.symbol.toList, s.store.Names sym) :
    Issues Store.Gives (rebuildClass ty data outer args) s := by
  refine issues_kindOf fun old _ => ?_
  cases old.kind.class? with
  | none | some => exact pushType_issues_of_class rfl rfl rfl (fun _ => houter) hargs hnames

/-- The formal of the wildcard is that of the old one. -/
theorem rebuildWildcard_issues {bound : TypeId} {kind : BoundKind} (hbound : s.store.Has bound) :
    Issues Store.Gives (rebuildWildcard ty bound kind) s := by
  show Issues Store.Gives ((kindOf ty >>= _) >>= _) s
  rw [bind_assoc]
  refine issues_kindOf fun data hdata => ?_
  cases hkind : data.kind with
  | wildcard =>
    refine wildcard_issues hbound fun c hc => .inr ⟨ty, data, hdata, ?_⟩
    rw [hkind]
    exact Option.mem_toList.2 hc
  | _ => exact wildcard_issues hbound (by simp)

/-- What a class answers with belongs to the store by then. -/
theorem declaredList_issues (h : load.Upholds) :
    Issues Store.GivesAll (declaredList load .typeArgs ty symbol) s := by
  refine issues_of_upholds ((declaredList_keeps h.toTied .typeArgs ty symbol).along s)
    fun list s' hrun hs' c hc => ?_
  rcases declaredList_answer hrun with rfl | ⟨data, hdata, hread⟩
  · cases hc
  · refine (hs'.types ty data hdata).closed c ?_
    obtain ⟨symbol, erased, literal, kind⟩ := data
    cases kind with
    | classType info =>
      have hargs : info.typeArgs = some list := hread
      simp [Kind.components, hargs, hc]
    | _ => cases hread

theorem typeArguments_issues (h : load.Upholds) (depth : Nat) (ty : TypeId) :
    Issues Store.GivesAll (typeArguments load depth ty) s := by
  induction depth generalizing ty with
  | zero => exact issues_tooDeep
  | succ depth ih =>
    refine issues_typeData fun data hdata => issues_intro fun hs => ?_
    cases hkind : data.kind with
    | classType => exact declaredList_issues h
    | forAll =>
      refine issues_pure fun c hc => hs.has_ingredient hdata ?_
      rw [hkind]
      exact List.mem_cons_of_mem _ hc
    | placeholder info => exact ih info.origin
    | _ => exact issues_pure (List.forall_mem_nil _)

theorem thrownTypes_issues (depth : Nat) (ty : TypeId) :
    Issues Store.GivesAll (thrownTypes depth ty) s := by
  induction depth generalizing ty with
  | zero => exact issues_tooDeep
  | succ depth ih =>
    refine issues_kindOf fun data hdata => issues_intro fun hs => ?_
    cases hkind : data.kind with
    | method info =>
      refine issues_pure fun c hc => (hs.types ty data hdata).closed c ?_
      have hthrown : c ∈ info.thrown := hc
      simp [hkind, Kind.components, hthrown]
    | forAll info => exact ih info.body
    | placeholder info => exact ih info.origin
    | _ => exact issues_pure (List.forall_mem_nil _)

section Mapping

variable {σ : Type} {f : Mapping σ} {r : Store}

/-- From sessions whose store has grown out of this one, the mapping takes handles of the store to
handles of the store. -/
def Mapping.IssuesFrom (f : Mapping σ) (r : Store) : Prop :=
  ∀ ty s, r.Expands s.store → s.store.Has ty → IssuesState Store.Gives (f ty) s

theorem mapEach_issues (hf : f.IssuesFrom r) (hr : r.Expands s.store)
    (htypes : ∀ ty ∈ types, s.store.Has ty) : IssuesState Store.GivesAll (mapEach f types) s := by
  induction types with
  | nil => exact issuesState_pure nofun
  | cons ty rest ih =>
    refine (ih fun c hc => htypes c (List.mem_cons_of_mem _ hc)).bind fun images s₁ hgrows himages => ?_
    refine (hf ty s₁ (hr.trans hgrows.expands) (hgrows.has (htypes ty List.mem_cons_self))).bind
      fun image s₂ hgrows' himage => issuesState_pure fun c hc => ?_
    rcases List.mem_cons.1 hc with rfl | hc
    · exact himage
    · exact hgrows'.has (himages c hc)

theorem mapList_issues (hf : f.IssuesFrom r) (hr : r.Expands s.store)
    (htypes : ∀ ty ∈ types, s.store.Has ty) :
    IssuesState (fun result t => Store.GivesAll result.1 t) (mapList f types) s := by
  rw [mapList_eq]
  exact (mapEach_issues hf hr htypes).bind fun _ _ _ himages => issuesState_pure himages

/-- **Any mapping that gives out handles of the store.**  What a component is taken to, and the other
components, belong to the store when the type is rebuilt. -/
theorem mapType_issues (h : load.Upholds) (hf : f.IssuesFrom r) (hr : r.Expands s.store) (depth : Nat)
    (ty : TypeId) : IssuesState Store.Gives (mapType load depth f ty) s := by
  refine issuesState_typeData fun data hdata => issuesState_intro fun hs => ?_
  have hty : s.store.Has ty := Store.has_iff.2 ⟨data, hdata⟩
  cases hkind : data.kind with
  | classType info =>
    have houter : s.store.Has info.outer := hs.has_ingredient hdata (by simp [hkind, Kind.ingredients])
    refine (typeArguments_issues h depth ty).lift.bind fun args s₁ h₁ hargs => ?_
    refine (hf info.outer s₁ (hr.trans h₁.expands) (h₁.has houter)).bind fun outer s₂ h₂ houter' => ?_
    have hargs' : ∀ c ∈ args, s₂.store.Has c := fun c hc => h₂.has (hargs c hc)
    refine (mapList_issues hf (hr.trans (h₁.trans h₂).expands) hargs').bind
      fun mapped s₃ h₃ himages => ?_
    show IssuesState _ (if _ then _ else _) s₃
    split
    · exact issuesState_pure ((h₁.trans (h₂.trans h₃)).has hty)
    · have hnames : ∀ sym ∈ data.symbol.toList, s₃.store.Names sym := fun sym hsym =>
        (h₁.trans (h₂.trans h₃)).names (Store.names_of_record hdata sym hsym)
      exact (rebuildClass_issues (h₃.has houter') himages hnames).lift
  | array info =>
    have helem : s.store.Has info.elem := hs.has_ingredient hdata (by simp [hkind, Kind.ingredients])
    refine (hf info.elem s hr helem).bind fun elem s₁ h₁ helem' => ?_
    split
    · exact issuesState_pure (h₁.has hty)
    · have hrebuild : Issues Store.Gives (rebuildArray elem) s₁ :=
        arrayType_issues none (by simp) helem'
      exact hrebuild.lift
  | method info =>
    have hparams : ∀ c ∈ info.params, s.store.Has c := fun c hc =>
      hs.has_ingredient hdata (by simp [hkind, Kind.ingredients, hc])
    have hresult : s.store.Has info.result :=
      hs.has_ingredient hdata (by simp [hkind, Kind.ingredients])
    refine (mapList_issues hf hr hparams).bind fun params s₁ h₁ hparams' => ?_
    refine (hf info.result s₁ (hr.trans h₁.expands) (h₁.has hresult)).bind
      fun result s₂ h₂ hresult' => ?_
    refine (thrownTypes_issues 1 ty).lift.bind fun thrown s₃ h₃ hthrown => ?_
    refine (mapList_issues hf (hr.trans (h₁.trans (h₂.trans h₃)).expands) hthrown).bind
      fun mapped s₄ h₄ himages => ?_
    show IssuesState _ (if _ then _ else _) s₄
    split
    · exact issuesState_pure ((h₁.trans (h₂.trans (h₃.trans h₄))).has hty)
    · exact Issues.lift (issues_kindOf fun _ _ => pushType_issues_of_method
        (fun c hc => (h₂.trans (h₃.trans h₄)).has (hparams' c hc)) ((h₃.trans h₄).has hresult') himages)
  | forAll info =>
    have hbody : s.store.Has info.body := hs.has_ingredient hdata (by simp [hkind, Kind.ingredients])
    have hvars : ∀ c ∈ info.typeVars, s.store.Has c := fun c hc =>
      hs.has_ingredient hdata (by simp [hkind, Kind.ingredients, hc])
    refine (hf info.body s hr hbody).bind fun body s₁ h₁ hbody' => ?_
    split
    · exact issuesState_pure (h₁.has hty)
    · have hquantify : Issues Store.Gives (quantify { info with body }) s₁ :=
        quantify_issues (fun c hc => h₁.has (hvars c hc)) hbody'
      exact hquantify.lift
  | wildcard info =>
    have hbound : s.store.Has info.bound := hs.has_ingredient hdata (by simp [hkind, Kind.ingredients])
    refine (hf info.bound s hr hbound).bind fun bound s₁ h₁ hbound' => ?_
    split
    · exact issuesState_pure (h₁.has hty)
    · exact (rebuildWildcard_issues hbound').lift
  | _ => exact issuesState_pure hty

end Mapping

/-! ### Substitutions and tables -/

namespace Substitution

theorem find?_issues {var : TypeId} {pairs : List (TypeId × TypeId)}
    (hpairs : ∀ pair ∈ pairs, s.store.Has pair.2) :
    Issues (fun found t => ∀ c, found = some c → t.Has c) (find? var symbol pairs) s := by
  induction pairs generalizing s with
  | nil => exact issues_pure nofun
  | cons pair rest ih =>
    have hstands : Along Store.Upholds (stands var symbol pair.1) :=
      (stands_keeps (T := Tie.ofMoves Store.Upholds) var symbol pair.1).along
    refine hstands.upheld.bind fun found s' _ hgrows _ => ?_
    split
    · refine issues_pure fun c hc => hgrows.has ?_
      obtain rfl : pair.2 = c := Option.some.inj hc
      exact hpairs pair List.mem_cons_self
    · exact ih fun other hother => hgrows.has (hpairs other (List.mem_cons_of_mem _ hother))

theorem replacement_issues {var : TypeId} (hpairs : ∀ pair ∈ subst.pairs, s.store.Has pair.2)
    (hvar : s.store.Has var) :
    Issues Store.Gives (subst.replacement var) s := by
  have hsymbol : Along Store.Upholds (symbolOf var) :=
    (symbolOf_keeps (T := Tie.ofMoves Store.Upholds) var).along
  refine hsymbol.upheld.bind fun symbol s₁ _ h₁ _ => ?_
  refine (find?_issues fun pair hpair => h₁.has (hpairs pair hpair)).bind
    fun found s₂ _ h₂ hfound => issues_pure ?_
  cases found with
  | none => exact (h₁.trans h₂).has hvar
  | some target => exact hfound target rfl

theorem mem_of_filterAuxM {p : α → Run Bool} {l acc l' : List α} {s' : Session}
    (h : l.filterAuxM p acc s = .ok l' s') : ∀ a ∈ l', a ∈ l ∨ a ∈ acc := by
  induction l generalizing acc s with
  | nil =>
    obtain ⟨rfl, rfl⟩ := EStateM.Result.ok.inj h
    exact fun a ha => .inr ha
  | cons b l ih =>
    obtain ⟨keep, s₁, -, hrest⟩ := exists_of_bind h
    intro a ha
    rcases ih hrest a ha with hl | hacc
    · exact .inl (List.mem_cons_of_mem _ hl)
    · cases keep with
      | true =>
        rcases List.mem_cons.1 hacc with rfl | hacc
        · exact .inl List.mem_cons_self
        · exact .inr hacc
      | false => exact .inr hacc

theorem mem_of_without {inner : Substitution} {vars : List TypeId} {s' : Session}
    (h : subst.without vars s = .ok inner s') : ∀ pair ∈ inner.pairs, pair ∈ subst.pairs := by
  obtain ⟨symbols, s₁, -, h⟩ := exists_of_bind h
  obtain ⟨kept, s₂, hkept, h⟩ := exists_of_bind h
  obtain ⟨rfl, rfl⟩ := EStateM.Result.ok.inj h
  obtain ⟨reversed, s₃, hreversed, h⟩ := exists_of_bind hkept
  obtain ⟨rfl, rfl⟩ := EStateM.Result.ok.inj h
  intro pair hpair
  exact (mem_of_filterAuxM hreversed pair (List.mem_reverse.1 hpair)).resolve_right nofun

end Substitution

section

variable (h : load.Upholds) (depth : Nat)

include h

/-- **Substituting types of the store for variables.** -/
theorem substitute_issues
    (hpairs : ∀ pair ∈ subst.pairs, s.store.Has pair.2) (hty : s.store.Has ty) :
    Issues Store.Gives (substitute load depth subst ty) s := by
  induction depth generalizing subst ty s with
  | zero => exact issues_tooDeep
  | succ depth ih =>
    have hmap : ∀ (inner : Substitution) (s : Session), (∀ pair ∈ inner.pairs, s.store.Has pair.2) →
        Issues Store.Gives
          ((mapType load (depth + 1) (stateless (substitute load depth inner)) ty).run' ()) s := by
      intro inner s hinner
      refine (mapType_issues h (fun ty s' hgrows hty => ?_) (.refl _)
        (depth + 1) ty).run' ()
      exact (ih (fun pair hpair => hgrows.has (hinner pair hpair)) hty).lift
    unfold substitute
    split
    · exact issues_pure hty
    · refine issues_kindOf fun data _ => ?_
      cases data.kind with
      | typeVar | captured => exact Substitution.replacement_issues hpairs hty
      | forAll info =>
        have hwithout : Along Store.Upholds (subst.without info.typeVars) :=
          (Substitution.without_keeps (T := Tie.ofMoves Store.Upholds) subst info.typeVars).along
        refine hwithout.upheld.bind fun inner s' hrun hgrows _ => ?_
        split
        · exact issues_pure (hgrows.has hty)
        · refine hmap inner s' fun pair hpair => hgrows.has ?_
          exact hpairs pair (Substitution.mem_of_without hrun pair hpair)
      | _ => exact hmap subst s hpairs

theorem apply_issues {table : Table} {r : Store}
    (hpairs : ∀ pair ∈ table.pairs, r.Has pair.2) (depth : Nat) :
    (table.apply load depth).IssuesFrom r := by
  induction depth with
  | zero => exact fun _ _ _ _ => issues_tooDeep.lift
  | succ depth ih =>
    intro ty s hr hty
    have hnote : IssuesState (fun _ _ => True) (modify (ty :: ·) : StateT _ Run Unit) s := fun _ =>
      issues_pure trivial
    refine hnote.bind fun _ s' hgrows _ => ?_
    split
    · next pair hpair =>
      exact issuesState_pure
        (hgrows.has (hr.has (hpairs pair (List.mem_of_find?_eq_some hpair))))
    · split
      · exact mapType_issues h ih (hr.trans hgrows.expands) (depth + 1) ty
      · exact issuesState_pure (hgrows.has hty)

theorem stateless_issues {r : Store} (hpairs : ∀ pair ∈ subst.pairs, r.Has pair.2) :
    (stateless (substitute load depth subst)).IssuesFrom r :=
  fun _ _ hr hty => (substitute_issues h depth (fun pair hpair => hr.has (hpairs pair hpair)) hty).lift

theorem substituteList_issues
    (hpairs : ∀ pair ∈ subst.pairs, s.store.Has pair.2) (htypes : ∀ ty ∈ types, s.store.Has ty) :
    Issues (fun result t => Store.GivesAll result.1 t) (substituteList load depth subst types) s :=
  (mapList_issues (stateless_issues h depth hpairs) (.refl _) htypes).run' ()

/-! ### Literals and signatures -/

/-- The same type with a literal: only primitive types and classes get one. -/
theorem constType_issues {value : Literal} :
    Issues Store.Gives (constType load depth ty value) s := by
  refine issues_typeData fun data hdata => issues_intro fun hs => ?_
  have hty : s.store.Has ty := Store.has_iff.2 ⟨data, hdata⟩
  cases hkind : data.kind with
  | primitive p =>
    have hshaped : TypeData.Shaped { data with literal := some value, kind := .primitive p } :=
      { declared := fun htag => by cases p <;> cases htag
        literal := fun _ => .inl (by cases p <;> rfl)
        erased := fun herased => by
          have htag := (hs.types ty data hdata).erased herased
          rw [hkind] at htag
          exact htag
        supplied := fun _ hclass => nomatch hclass }
    exact pushType_issues (fun _ => hshaped) (fun _ _ hc => nomatch hc)
      (by cases p <;> simp [Kind.tag, Primitive.tag, Tag.unnamed])
      (by simpa [TypeData.names, Kind.indexVars] using Store.names_of_record hdata)
      (by simp [Kind.mentions])
  | classType info =>
    have houter : s.store.Has info.outer := hs.has_ingredient hdata (by simp [hkind, Kind.ingredients])
    exact (typeArguments_issues h depth ty).bind fun args s₁ _ h₁ hargs =>
      rebuildClass_issues (h₁.has houter) hargs fun sym hsym =>
        h₁.names (Store.names_of_record hdata sym hsym)
  | bottom | error => exact issues_pure hty
  | _ => exact violationAt_issues h

theorem defineClass_upheld {sig : ClassSignature} (hparams : ∀ c ∈ sig.typeParams, s.store.Has c) :
    Upheld (defineClass load depth ty sig) s := by
  refine issues_kindOf fun data hdata => ?_
  cases data.kind with
  | classType info =>
    cases htaken : info.takenField? with
    | some field =>
      simp only [htaken]
      exact (alreadySet_keeps h depth field ty).along.upheld
    | none =>
      simp only [htaken]
      have hdefine : s.store.Upholds ((updateKind ty (·.mapClass (ClassInfo.define sig))).after s).store :=
        Store.upholds_define hparams
      exact (upheld_of hdefine).map
  | _ => exact (unexpected_keeps h depth .classType ty).along.upheld

theorem setThrown_upheld (ty : TypeId) {thrown : List TypeId}
    (hthrown : ∀ c ∈ thrown, s.store.Has c) :
    Upheld (setThrown load depth ty thrown) s := by
  induction depth generalizing ty with
  | zero => exact issues_tooDeep
  | succ depth ih =>
    refine issues_kindOf fun data hdata => ?_
    cases data.kind with
    | method =>
      refine upheld_of (Store.upholds_reviseType (fun hs data hdata hfits => ?_) fun data _ => ?_)
      · obtain ⟨symbol, erased, literal, kind⟩ := data
        cases kind with
        | method =>
          refine ⟨⟨fun htag => (nomatch htag), hfits.literal, hfits.erased,
            fun _ hclass => (nomatch hclass)⟩, hfits.older, fun c hc => ?_⟩
          simp only [Kind.mapMethod, Kind.components, List.mem_append, List.mem_cons] at hc
          rcases hc with hc | rfl | hc
          · exact hfits.closed c (by simp [Kind.components, hc])
          · exact hfits.closed _ (by simp [Kind.components])
          · exact hthrown c hc
        | _ => exact hfits
      · cases data.kind <;> exact ⟨rfl, rfl, fun _ => .inl⟩
    | forAll info => exact ih info.body
    | _ => exact violationAt_issues h

end

end RegionTypes

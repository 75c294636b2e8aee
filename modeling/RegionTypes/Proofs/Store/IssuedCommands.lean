import RegionTypes.Proofs.Store.Issuing

/-!
# Commands that name issued handles

A command names types and symbols by handles, or by the names that a script has given them.  Where all
of them belong to the store, the command leaves the store consistent.

* `Command.typeRefs`, `Command.symbolRefs` — what a command names.
* `Command.Issued` — all of it belongs to the store.
* `issues_lookupType`, `issues_lookupSides`, ... — what is looked up belongs to the store.
* `execute_upheld` — **every command that is given handles of the store**, for any loader.
-/

namespace RegionTypes

open Run

variable {s : Session} {load : Loader}

/-! ### What a command names -/

/-- What the reference stands for belongs to the store. -/
def TypeRef.Issued (s : Session) (ref : TypeRef) : Prop :=
  ∀ ty ∈ ref.resolve? s.names, s.store.Has ty

/-- What the reference stands for belongs to the store. -/
def SymbolRef.Issued (s : Session) (ref : SymbolRef) : Prop :=
  ∀ sym ∈ ref.resolve? s.names, sym.index < s.store.symbols.size

/-- The types that a mapping is about. -/
def MappingSpec.typeRefs : MappingSpec → List TypeRef
  | table sources targets _ | subst sources targets => sources ++ targets

/-- The types that a command names. -/
def Command.typeRefs : Command → List TypeRef
  | declareClass _ _ _ outer => outer.toList
  | complete type | copyTypeVar type _ | placeholder type | constType type _ | display type _
  | displayHandle type _ | displayArgTypes type _ | accept type _ _ | ask _ type | data type
  | inspect type | arrayType type _ _ => [type]
  | defineClass type typeParams _ _ supertype interfaces =>
    type :: (typeParams ++ (supertype.toList ++ interfaces))
  | classType _ outer typeArgs _ _ cellType _ => outer.toList ++ (typeArgs ++ cellType.toList)
  | setCellType type cell => type :: cell.toList
  | methodType params result thrown => params ++ result :: thrown
  | setThrown type types | recordActuals type types _ _ | containsSome type types => type :: types
  | forAll typeVars _ _ body => typeVars ++ [body]
  | newTypeVar _ _ lower => lower.toList
  | typeVar _ bound lower _ _ prototype => bound.toList ++ (lower.toList ++ prototype.toList)
  | captured _ _ upper lower bounds => upper :: (lower.toList ++ [bounds])
  | wildcard type _ formal => type :: formal.toList
  | setUpperBound type other | addLowerBound type other | addUpperBound type other
  | setInstantiation type other | withTypeVar type other | typesEqual type other
  | contains type other => [type, other]
  | displayList types | isErroneousList types | removeBoundsList types | baseTypes types
  | keys types => types
  | containsList types elem => types ++ [elem]
  | map type mapping => type :: mapping.typeRefs
  | mapList types mapping => types ++ mapping.typeRefs
  | subst type sources targets => type :: (sources ++ targets)
  | substList types sources targets => types ++ (sources ++ targets)
  | wellKnown | typeCount | displayOptions | setDisplayOptions _ | describeStore | newSymbol ..
  | declarePackage .. | symbolInfo _ | describeSymbol _ | symbolType _ | symbolName _
  | qualifiedName _ | symbolFlags _ | setSymbolFlags .. | enterMember .. | setCompleter ..
  | completeSymbol _ | emit _ | errorType | errorTypeForClass _ | errorTypeNamed .. => []

/-- The symbols that a command names. -/
def Command.symbolRefs : Command → List SymbolRef
  | newSymbol _ _ owner _ | declareClass _ owner _ _ | declarePackage _ owner
  | newTypeVar _ owner _ | captured _ owner _ _ _ | errorTypeNamed _ owner
  | arrayType _ _ owner => owner.toList
  | symbolInfo symbol | describeSymbol symbol | symbolType symbol | symbolName symbol
  | qualifiedName symbol | symbolFlags symbol | setSymbolFlags symbol _ | setCompleter symbol _ _ _
  | completeSymbol symbol | classType symbol _ _ _ _ _ _ | typeVar symbol _ _ _ _ _
  | errorTypeForClass symbol => [symbol]
  | enterMember owner member => [owner, member]
  | _ => []

/-- All that a command names belongs to the store. -/
structure Command.Issued (s : Session) (command : Command) : Prop where
  types : ∀ ref ∈ command.typeRefs, ref.Issued s
  symbols : ∀ ref ∈ command.symbolRefs, ref.Issued s

/-! ### Looking up what is named -/

section Lookup

variable {β : Type} {made : β → Store → Prop}

theorem issues_lookupType {ref : TypeRef} {next : TypeId → Run β} (href : ref.Issued s)
    (h : ∀ ty, s.store.Has ty → Issues made (next ty) s) :
    Issues made (lookupType ref >>= next) s :=
  issues_read (lookupType_still ref) (fun _ _ hrun => eq_of_lookupType hrun)
    fun ty hty => h ty (href ty hty)

theorem issues_lookupTypes {refs : List TypeRef} {next : List TypeId → Run β}
    (hrefs : ∀ ref ∈ refs, ref.Issued s)
    (h : ∀ types, (∀ ty ∈ types, s.store.Has ty) → Issues made (next types) s) :
    Issues made (lookupTypes refs >>= next) s := by
  refine issues_read (Along.mapM lookupType_still refs) (fun _ _ hrun => eq_of_lookupTypes hrun)
    fun types htypes => h types fun ty hty => ?_
  obtain ⟨ref, href, hresolve⟩ := htypes ty hty
  exact hrefs ref href ty hresolve

theorem issues_lookupType? {ref : Option TypeRef} {next : Option TypeId → Run β}
    (href : ∀ r ∈ ref.toList, r.Issued s)
    (h : ∀ ty, (∀ c, ty = some c → s.store.Has c) → Issues made (next ty) s) :
    Issues made (lookupType? ref >>= next) s := by
  cases ref with
  | none => exact h none nofun
  | some r =>
    show Issues made ((lookupType r >>= fun ty => pure (some ty)) >>= next) s
    rw [bind_assoc]
    refine issues_lookupType (href r List.mem_cons_self) fun ty hty => h (some ty) fun c hc => ?_
    rw [← Option.some.inj hc]
    exact hty

theorem issues_lookupSymbol {ref : SymbolRef} {next : SymbolId → Run β} (href : ref.Issued s)
    (h : ∀ sym, sym.index < s.store.symbols.size → Issues made (next sym) s) :
    Issues made (lookupSymbol ref >>= next) s :=
  issues_read (lookupSymbol_still ref) (fun _ _ hrun => eq_of_lookupSymbol hrun)
    fun sym hsym => h sym (href sym hsym)

theorem issues_lookupSymbol? {ref : Option SymbolRef} {next : Option SymbolId → Run β}
    (href : ∀ r ∈ ref.toList, r.Issued s)
    (h : ∀ sym, (∀ o, sym = some o → o.index < s.store.symbols.size) → Issues made (next sym) s) :
    Issues made (lookupSymbol? ref >>= next) s := by
  cases ref with
  | none => exact h none nofun
  | some r =>
    show Issues made ((lookupSymbol r >>= fun sym => pure (some sym)) >>= next) s
    rw [bind_assoc]
    refine issues_lookupSymbol (href r List.mem_cons_self) fun sym hsym => h (some sym) fun o ho => ?_
    rw [← Option.some.inj ho]
    exact hsym

theorem issues_lookupBoth {first second : TypeRef} {next : TypeId → TypeId → Run β}
    (hrefs : ∀ ref ∈ [first, second], ref.Issued s)
    (h : ∀ ty other, s.store.Has other → Issues made (next ty other) s) :
    Issues made (lookupType first >>= fun ty => lookupType second >>= next ty) s := by
  obtain ⟨hfirst, hsecond⟩ := List.forall_mem_cons.1 hrefs
  exact issues_lookupType hfirst fun ty _ =>
    issues_lookupType (List.forall_mem_singleton.1 hsecond) fun other hother => h ty other hother

/-- The two sides of a mapping: what it maps to belongs to the store. -/
theorem issues_lookupSides {sources targets : List TypeRef} {next : List TypeId → List TypeId → Run β}
    (hrefs : ∀ ref ∈ sources ++ targets, ref.Issued s)
    (h : ∀ olds news, (∀ pair ∈ olds.zip news, s.store.Has pair.2) → Issues made (next olds news) s) :
    Issues made (lookupTypes sources >>= fun olds => lookupTypes targets >>= next olds) s := by
  obtain ⟨hsources, htargets⟩ := List.forall_mem_append.1 hrefs
  refine issues_lookupTypes hsources fun olds _ => issues_lookupTypes htargets fun news hnews => ?_
  exact h olds news fun pair hpair => hnews pair.2 (List.of_mem_zip hpair).2

end Lookup

/-! ### Commands -/

theorem runMapping_upheld (h : load.Upholds) {depth : Nat} {ty : TypeId} {mapping : MappingSpec}
    (hrefs : ∀ ref ∈ mapping.typeRefs, ref.Issued s) :
    Upheld (runMapping load depth ty mapping) s := by
  cases mapping with
  | table =>
    refine issues_lookupSides hrefs fun olds news hpairs => ?_
    exact (mapType_issues h (apply_issues h hpairs depth) (.refl _) depth ty []).bind
      fun ⟨image, visited⟩ _ _ _ _ => issues_pure trivial
  | subst =>
    refine issues_lookupSides hrefs fun olds news hpairs => ?_
    exact ((mapType_issues h (stateless_issues h depth hpairs) (.refl _) depth ty).run' ()).map

theorem runListMapping_upheld (h : load.Upholds) {depth : Nat} {types : List TypeId}
    {mapping : MappingSpec} (htypes : ∀ ty ∈ types, s.store.Has ty)
    (hrefs : ∀ ref ∈ mapping.typeRefs, ref.Issued s) :
    Upheld (runListMapping load depth types mapping) s := by
  cases mapping with
  | table =>
    refine issues_lookupSides hrefs fun olds news hpairs => ?_
    exact (mapList_issues (apply_issues h hpairs depth) (.refl _) htypes []).bind
      fun ⟨⟨images, changed⟩, visited⟩ _ _ _ _ => issues_pure trivial
  | subst =>
    refine issues_lookupSides hrefs fun olds news hpairs => ?_
    exact (substituteList_issues h depth hpairs htypes).bind
      fun ⟨images, changed⟩ _ _ _ _ => issues_pure trivial

theorem attempting_upheld {action : Run (Except TypeError Unit)}
    (h : Upheld action s) : Upheld (attempting action) s := by
  refine h.bind fun result _ _ _ _ => ?_
  cases result with
  | ok | error => exact issues_pure trivial

theorem updateNamed_upheld {ref : SymbolRef} (href : ref.Issued s) (f : Symbol → Symbol)
    (howner : ∀ y, (f y).owner = y.owner) (htype : ∀ y, (f y).type = y.type) :
    Upheld (do updateSymbol (← lookupSymbol ref) f; return Answer.nothing) s :=
  issues_lookupSymbol href fun _ _ => Issues.map (Along.upheld (updateSymbol_along fun _ =>
    Store.upholds_updateSymbol howner htype))

/-- **Every command that is given handles of the store** leaves it consistent. -/
theorem execute_upheld (h : load.Upholds) (depth : Nat) {command : Command}
    (hissued : command.Issued s) : Upheld (execute load depth command) s := by
  by_cases hchanges : command.changes = true
  case neg => exact (execute_question_exact h depth (Bool.eq_false_iff.2 hchanges)).along.upheld
  obtain ⟨htypes, hsymbols⟩ := hissued
  cases command with
  | setDisplayOptions options =>
    have halong : Along Store.Upholds (modifyStore fun s => { s with options }) :=
      along_modifyStore fun _ => Store.upholds_of_eq rfl rfl
    exact halong.upheld.map.map
  | newSymbol kind name owner =>
    exact (issues_lookupSymbol? hsymbols fun owner howner => (newSymbol_upheld howner).map).map
  | declareClass name owner flags outer =>
    exact (issues_lookupSymbol? hsymbols fun owner howner => issues_lookupType? htypes
      fun outer houter => (declareClass_upheld howner houter).map).map
  | declarePackage name owner =>
    exact (issues_lookupSymbol? hsymbols fun owner howner => (declarePackage_upheld howner).map).map
  | setSymbolFlags symbol flags =>
    exact (updateNamed_upheld (List.forall_mem_singleton.1 hsymbols) (fun y => { y with flags })
      (fun _ => rfl) fun _ => rfl).map
  | enterMember owner member =>
    obtain ⟨howner, hmember⟩ := List.forall_mem_cons.1 hsymbols
    exact (issues_lookupSymbol (List.forall_mem_singleton.1 hmember) fun member _ =>
      updateNamed_upheld howner (fun y => { y with members := y.members.enter member })
        (fun _ => rfl) fun _ => rfl).map
  | setCompleter symbol script propagate failure =>
    exact (updateNamed_upheld (List.forall_mem_singleton.1 hsymbols)
      (fun y => { y with completer := some ⟨script, propagate, failure⟩ }) (fun _ => rfl)
      fun _ => rfl).map
  | defineClass type typeParams regionParams effectParams supertype interfaces =>
    obtain ⟨htype, hrest⟩ := List.forall_mem_cons.1 htypes
    obtain ⟨hparams, hrest⟩ := List.forall_mem_append.1 hrest
    obtain ⟨hsuper, hinterfaces⟩ := List.forall_mem_append.1 hrest
    exact issues_lookupType htype fun ty _ => issues_lookupTypes hparams fun typeParams hparams =>
      issues_lookupType? hsuper fun supertype _ => issues_lookupTypes hinterfaces fun interfaces _ =>
        attempting_upheld (defineClass_upheld h depth hparams)
  | classType symbol outer typeArgs regionArgs effectArgs cellType =>
    obtain ⟨houter, hrest⟩ := List.forall_mem_append.1 htypes
    obtain ⟨hargs, hcell⟩ := List.forall_mem_append.1 hrest
    exact (issues_lookupSymbol (List.forall_mem_singleton.1 hsymbols) fun sym hsym =>
      issues_lookupType? houter fun outer houter => issues_lookupTypes hargs fun typeArgs hargs =>
        issues_lookupType? hcell fun cellType _ => useClass_issues hsym houter hargs).map
  | setCellType type cell =>
    obtain ⟨htype, hcell⟩ := List.forall_mem_cons.1 htypes
    exact (issues_lookupType htype fun ty _ => issues_lookupType? hcell fun cell _ =>
      (setCellType_upholds ty cell).upheld.map).map
  | arrayType elem region indexVar =>
    exact (issues_lookupType (List.forall_mem_singleton.1 htypes) fun elem helem =>
      issues_lookupSymbol? hsymbols fun indexVar hindexVar =>
        arrayType_issues region hindexVar helem).map
  | methodType params result thrown =>
    obtain ⟨hparams, hrest⟩ := List.forall_mem_append.1 htypes
    obtain ⟨hresult, hthrown⟩ := List.forall_mem_cons.1 hrest
    exact (issues_lookupTypes hparams fun params hparams => issues_lookupType hresult
      fun result hresult => issues_lookupTypes hthrown fun thrown hthrown =>
        pushType_issues_of_method hparams hresult hthrown).map
  | setThrown type thrown =>
    obtain ⟨htype, hthrown⟩ := List.forall_mem_cons.1 htypes
    exact (issues_lookupType htype fun ty _ => issues_lookupTypes hthrown fun thrown hthrown =>
      (setThrown_upheld h depth ty hthrown).map).map
  | recordActuals type types =>
    obtain ⟨htype, htypes⟩ := List.forall_mem_cons.1 htypes
    exact issues_lookupType htype fun ty _ => issues_lookupTypes htypes fun types _ =>
      attempting_upheld (recordActuals_upholds h depth ty _).upheld
  | forAll typeVars regionVars effectVars body =>
    obtain ⟨hvars, hbody⟩ := List.forall_mem_append.1 htypes
    exact (issues_lookupTypes hvars fun typeVars hvars =>
      issues_lookupType (List.forall_mem_singleton.1 hbody) fun body hbody =>
        quantify_issues hvars hbody).map
  | newTypeVar name owner lower =>
    exact (issues_lookupSymbol? hsymbols fun owner howner => issues_lookupType? htypes
      fun lower _ => newTypeVar_upheld howner).map
  | typeVar symbol bound lower regionParams regionArgs prototype =>
    obtain ⟨hbound, hrest⟩ := List.forall_mem_append.1 htypes
    obtain ⟨hlower, hprototype⟩ := List.forall_mem_append.1 hrest
    exact (issues_lookupSymbol (List.forall_mem_singleton.1 hsymbols) fun sym hsym =>
      issues_lookupType? hbound fun bound hbound => issues_lookupType? hlower fun lower _ =>
        issues_lookupType? hprototype fun prototype hprototype =>
          typeVar_issues (.inl hsym) hbound hprototype).map
  | copyTypeVar =>
    exact (issues_lookupType (List.forall_mem_singleton.1 htypes) fun ty hty =>
      copyTypeVar_issues h hty).map
  | captured name owner upper lower bounds =>
    obtain ⟨hupper, hrest⟩ := List.forall_mem_cons.1 htypes
    obtain ⟨hlower, hbounds⟩ := List.forall_mem_append.1 hrest
    exact (issues_lookupSymbol? hsymbols fun owner howner => issues_lookupType hupper
      fun upper hupper => issues_lookupType? hlower fun lower _ =>
        issues_lookupType (List.forall_mem_singleton.1 hbounds) fun bounds hbounds =>
          captured_upheld howner hupper hbounds).map
  | wildcard type kind formal =>
    obtain ⟨htype, hformal⟩ := List.forall_mem_cons.1 htypes
    exact (issues_lookupType htype fun ty hty => issues_lookupType? hformal fun formal hformal =>
      wildcard_issues hty fun c hc => .inl (hformal c hc)).map
  | placeholder origin =>
    exact (issues_lookupType (List.forall_mem_singleton.1 htypes) fun origin horigin =>
      placeholder_issues horigin).map
  | errorType => exact errorType_issues.map
  | errorTypeForClass =>
    exact (issues_lookupSymbol (List.forall_mem_singleton.1 hsymbols) fun _ hsym =>
      damage_upheld hsym).map
  | errorTypeNamed name container =>
    refine Issues.map (?_ : Upheld _ s)
    refine issues_lookupSymbol? hsymbols fun container hcontainer =>
      (newSymbol_upheld hcontainer).bind fun sym s' hrun _ _ => damage_upheld ?_
    obtain ⟨rfl, rfl⟩ := EStateM.Result.ok.inj ((newSymbol_run _ _ _ _ s).symm.trans hrun)
    simp [Store.nextSymbol, Store.pushSymbol]
  | constType =>
    exact (issues_lookupType (List.forall_mem_singleton.1 htypes) fun ty _ => constType_issues h depth).map
  | setUpperBound type bound =>
    exact attempting_upheld (issues_lookupBoth htypes fun ty bound hbound =>
      upheld_of (setUpperBound_upholds h depth ty hbound))
  | addLowerBound type bound =>
    exact attempting_upheld (issues_lookupBoth htypes fun ty bound _ =>
      (addLowerBound_upholds h depth ty bound).upheld)
  | addUpperBound type bound =>
    exact attempting_upheld (issues_lookupBoth htypes fun ty bound _ =>
      (addUpperBound_upholds h depth ty bound).upheld)
  | setInstantiation type solution =>
    exact attempting_upheld (issues_lookupBoth htypes fun ty solution _ =>
      (setInstantiation_upholds h depth ty solution).upheld)
  | withTypeVar type formal =>
    exact (issues_lookupBoth htypes fun ty formal hformal =>
      upheld_of (setFormal_upholds ty hformal)).map
  | map =>
    obtain ⟨htype, hmapping⟩ := List.forall_mem_cons.1 htypes
    exact (issues_lookupType htype fun ty _ => runMapping_upheld h hmapping).map
  | mapList types =>
    obtain ⟨htypes, hmapping⟩ := List.forall_mem_append.1 htypes
    exact (issues_lookupTypes htypes fun types htypes => runListMapping_upheld h htypes hmapping).map
  | subst =>
    obtain ⟨htype, hsides⟩ := List.forall_mem_cons.1 htypes
    exact (issues_lookupType htype fun ty hty => issues_lookupSides hsides fun olds news hpairs =>
      substitute_issues h depth hpairs hty).map
  | substList types =>
    obtain ⟨htypes, hsides⟩ := List.forall_mem_append.1 htypes
    refine Issues.map (?_ : Upheld _ s)
    refine issues_lookupTypes htypes fun types htypes =>
      issues_lookupSides hsides fun olds news hpairs => ?_
    exact (substituteList_issues h depth hpairs htypes).bind
      fun _ _ _ _ _ => issues_pure trivial
  | _ => cases hchanges

end RegionTypes

import RegionTypes.Proofs.Lockstep.Questions

/-!
# Commands and completers in both runs

Every command takes the same course in two runs that are tied.  Its outcome is the same but for the
derived lists that an answer may show.

* `declare_keeps`, `damage_keeps` — a symbol gets a type together with it, or an error type.
* `setUpperBound_keeps`, `defineClass_keeps`, ... — the updates write what is unset.
* `execute_keeps` — **every command**, for any loader.
* `runScript_keeps`, `Completer.run_keeps` — scripts and completers.
-/

namespace RegionTypes

open Run Tie

variable {T : Tie} {load load' : Loader} {s t : Session}

theorem Loader.Keeps.revise (h : load.Keeps load' T) {f : Kind → Kind} {ty : TypeId} {data : TypeData}
    (hdata : s.store.type? ty = some data)
    (hrevised : data.kind.Revised s.store.inFlight (f data.kind)) :
    T.Moves s.store (s.store.reviseType ty f) := by
  refine h.routine _ _ (.revise ty f fun data' hdata' => ?_)
  obtain rfl : data = data' := Option.mem_unique hdata hdata'
  exact hrevised

/-- The same type is revised in both runs, and its lists are left alone. -/
theorem Loader.Keeps.revises {α : Type} {action action' : Run α} {a : α} (h : load.Keeps load' T)
    {f : Kind → Kind} {ty : TypeId} {data : TypeData} (hdata : s.store.type? ty = some data)
    (hclass : ∀ k, (f k).class? = k.class?)
    (hrun : ∀ t, action t = .ok a { t with store := t.store.reviseType ty f } ∧
      action' t = .ok a { t with store := t.store.reviseType ty f })
    (hrevised : data.kind.Revised s.store.inFlight (f data.kind)) : T.Local s action action' :=
  .change _ a (fun _ _ => .revise ty f hclass) (h.revise hdata hrevised) fun t _ => hrun t

variable [T.Lawful]

/-! ### Declarations -/

theorem newSymbol_run (kind : SymbolKind) (name : String) (owner : Option SymbolId) (flags : Flags)
    (s : Session) : newSymbol kind name owner flags s = .ok s.store.nextSymbol
      { s with store := s.store.pushSymbol { name, owner, kind, flags } } := rfl

theorem declare_keeps {α : Type} (h : load.Keeps load' T) (kind : SymbolKind) (name : String)
    (owner : Option SymbolId) (flags : Flags) (data : SymbolId → TypeData)
    (result : SymbolId → TypeId → α) (hsym : ∀ sym, (data sym).symbol = some sym)
    (hkind : ∀ sym outer, (data sym).kind ≠ .error outer) (hnew : ∀ sym, (data sym).kind.IsNew)
    (hplain : ∀ sym, (data sym).plain = data sym) : T.Keeps (do
      let sym ← newSymbol kind name owner flags
      let ty ← pushType (data sym)
      attachType sym ty
      return result sym ty) := by
  have hattach : ∀ s : Store, T.Moves s (s.declareTyped { name, owner, kind, flags } data) := by
    intro s
    have hdeclared := h.routine _ _ (.declare (s := s) name owner kind flags)
    have hallocated := h.routine _ _ (.allocate (s := s.pushSymbol { name, owner, kind, flags })
      (data s.nextSymbol) (hnew _))
    refine trans_of T.Moves hdeclared (trans_of T.Moves hallocated (h.routine _ _ ?_))
    exact .attach s.nextSymbol s.nextType { name, owner, kind, flags } (data s.nextSymbol) (by simp)
      rfl (by simp [Store.nextType, Store.pushSymbol]) (hsym _) (hkind _)
  refine pairs_of_local fun s => .change _ (result s.store.nextSymbol s.store.nextType)
    (fun _ _ => .declareTyped name owner kind flags data hplain) (hattach s.store)
    fun t hst => and_self_iff.2 ?_
  have hy : ((t.store.pushSymbol { name, owner, kind, flags }).pushType
      (data t.store.nextSymbol)).symbol? t.store.nextSymbol = some { name, owner, kind, flags } := by
    simp
  rw [bind_run (newSymbol_run kind name owner flags t), bind_run (pushType_run _ _), attachType,
    bind_run (updateSymbol_run hy), ← hst.store.nextSymbol, ← hst.store.nextType]
  rfl

theorem damage_keeps (h : load.Keeps load' T) (sym : SymbolId) : T.Keeps (damage sym) := by
  have hpush : T.Keeps (errorType (some sym)) := h.pushType rfl trivial
  refine pairs_of_local fun s => ?_
  cases hy : s.store.symbol? sym with
  | none =>
    refine .other (do let _ ← errorType (some sym); let _ ← symbolData sym; tooDeep) _
      (hpush.bind fun _ => (symbolData_keeps sym).bind fun _ => keeps_tooDeep)
      fun t hst => and_self_iff.2 ?_
    have hallocated : errorType (some sym) t = .ok t.store.nextType _ := pushType_run _ t
    rw [damage, bind_run hallocated, bind_run hallocated, updateSymbol, bind_assoc]
    refine bind_congr_of_stop fun y u hrun => ?_
    have hfound : t.store.symbol? sym = some y := (eq_of_symbolData hrun).2
    rw [hst.store.symbol? sym, hy] at hfound
    cases hfound
  | some =>
    refine .change (Store.damageSymbol sym) s.store.nextType (fun _ _ => .damage sym) ?_
      fun t hst => and_self_iff.2 ?_
    · have hallocated := h.routine _ _ (.allocate (s := s.store)
        { symbol := some sym, kind := .error WellKnown.missing } trivial)
      refine trans_of T.Moves hallocated (h.routine _ _ ?_)
      exact .damage sym s.store.nextType { symbol := some sym, kind := .error WellKnown.missing }
        (by simp) rfl rfl
    · have hallocated : errorType (some sym) t = .ok t.store.nextType _ := pushType_run _ t
      have hupdated := updateSymbol_run (f := Symbol.damaged t.store.nextType) (s := { t with
        store := t.store.pushType { symbol := some sym, kind := .error WellKnown.missing } })
        ((hst.store.symbol? sym).trans hy)
      rw [damage, bind_run hallocated, ← hst.store.nextType]
      exact bind_run hupdated

section

variable (h : load.Keeps load' T) (name : String) (owner : Option SymbolId)

include h

theorem declareClass_keeps
    (flags : Flags) (outer : Option TypeId) : T.Keeps (declareClass name owner flags outer) :=
  declare_keeps h .type name owner flags
    (fun sym => { symbol := some sym, kind := .classType { outer := outer.getD WellKnown.missing } })
    (fun sym _ => sym) (fun _ => rfl) (by simp) (fun _ => rfl) fun _ => rfl

theorem declarePackage_keeps : T.Keeps (declarePackage name owner) :=
  declare_keeps h .package name owner .none (fun sym => { symbol := some sym, kind := .package })
    (fun sym _ => sym) (fun _ => rfl) (by simp) (fun _ => trivial) fun _ => rfl

theorem newTypeVar_keeps (lower : TypeId) : T.Keeps (newTypeVar name owner lower) :=
  declare_keeps h .type name owner .none
    (fun sym => { symbol := some sym, kind := .typeVar { lower } })
    (fun _ ty => ty) (fun _ => rfl) (by simp) (fun _ => rfl) fun _ => rfl

theorem captured_keeps
    (upper lower wildcard : TypeId) : T.Keeps (captured name owner upper lower wildcard) :=
  declare_keeps h .type name owner .none
    (fun sym => { symbol := some sym, kind := .captured { bound := some upper, lower } wildcard })
    (fun _ ty => ty) (fun _ => rfl) (by simp) (fun _ => rfl) fun _ => rfl

/-! ### Types -/

theorem copyTypeVar_keeps (depth : Nat) (declared : TypeId)
    (regionArgs : List Path) : T.Pairs (copyTypeVar load depth declared regionArgs)
      (copyTypeVar load' depth declared regionArgs) := by
  refine pairs_of_local fun s => local_typeData (fun _ _ _ _ => rfl) (fun _ _ _ _ => rfl)
    fun data hdata => ?_
  cases hkind : data.kind with
  | typeVar info =>
    cases hsymbol : data.symbol with
    | none => exact ((keeps_pure _).violation).here
    | some =>
      have hmoves := h.routine _ _ (.copy declared data info regionArgs hdata hkind)
      rw [hsymbol] at hmoves
      refine .change _ s.store.nextType (fun _ _ => .allocate _ rfl) hmoves fun t hst => ?_
      rw [← hst.store.nextType]
      exact ⟨rfl, rfl⟩
  | _ => exact (violationAt_keeps h.toAsks depth _ declared _).here

theorem placeholder_keeps (origin : TypeId) : T.Keeps (placeholder origin) :=
  keeps_typeData (fun _ _ _ _ => rfl) fun _ => h.pushType rfl rfl

theorem constType_keeps (depth : Nat) (ty : TypeId) (value : Literal) :
    T.Pairs (constType load depth ty value) (constType load' depth ty value) := by
  refine keeps_typeData (fun _ _ _ _ => rfl) fun data => ?_
  cases data.kind with
  | primitive => exact h.pushType rfl trivial
  | classType =>
    exact (typeArguments_keeps h.toTied depth ty).bind fun args => rebuildClass_keeps h ty _ _ args
  | bottom | error => exact keeps_pure ty
  | _ => exact violationAt_keeps h.toAsks depth _ ty _

end

theorem stringValue_keeps (h : load.Asks load' T) (depth : Nat) (ty : TypeId) :
    T.Pairs (stringValue load depth ty) (stringValue load' depth ty) := by
  refine keeps_typeData (fun _ _ literal _ => by cases literal <;> rfl) fun data => ?_
  split
  · exact keeps_pure _
  · exact keeps_pure _
  · exact violationAt_keeps h depth _ ty _

/-! ### Updates -/

theorem unexpected_keeps (h : load.Asks load' T) (depth : Nat) (expected : Expected) (ty : TypeId) :
    T.Pairs (unexpected load depth expected ty) (unexpected load' depth expected ty) :=
  (display_keeps h depth ty).map

theorem alreadySet_keeps (h : load.Asks load' T) (depth : Nat) (field : Field) (ty : TypeId) :
    T.Pairs (alreadySet load depth field ty) (alreadySet load' depth field ty) :=
  (display_keeps h depth ty).map

theorem defineClass_keeps (h : load.Asks load' T) (depth : Nat) (ty : TypeId) (sig : ClassSignature)
    (hdefine : ∀ s t, Store.Defines s t → T.Moves s t) :
    T.Pairs (defineClass load depth ty sig) (defineClass load' depth ty sig) := by
  refine keeps_kindOf_change (fun _ => rfl) (fun _ => rfl) fun data s hdata => ?_
  cases hkind : data.kind with
  | classType info =>
    cases htaken : info.takenField? with
    | some field =>
      simp only [htaken]
      exact (alreadySet_keeps h depth field ty).here
    | none =>
      simp only [htaken]
      exact .change _ (.ok ()) (fun _ _ => .define ty sig data info hdata hkind htaken)
        (hdefine _ _ (.define ty sig data info hdata hkind htaken)) fun _ _ => ⟨rfl, rfl⟩
  | _ => exact (unexpected_keeps h depth .classType ty).here

section

variable (h : load.Keeps load' T) (depth : Nat) (ty : TypeId)

include h

theorem setCellType_keeps (cell : Option TypeId) : T.Keeps (setCellType ty cell) := by
  refine keeps_typeData (fun _ _ _ _ => rfl) fun _ =>
    keeps_modifyStore (fun _ => .cell ty cell) fun s => ?_
  refine h.routine _ _ (.revise ty _ fun data _ => ?_)
  cases data.kind with
  | classType info => exact .cell info cell
  | _ => exact .same _

theorem setFormal_keeps (formal : TypeId) : T.Keeps (setFormal ty formal) := by
  refine keeps_typeData (fun _ _ _ _ => rfl) fun _ => Joins.bind ?_ fun _ => keeps_pure ty
  refine keeps_modifyStore (fun _ => .revise ty _ fun k => by cases k <;> rfl) fun s => ?_
  refine h.routine _ _ (.revise ty _ fun data _ => ?_)
  cases data.kind with
  | wildcard info => exact .formal info formal
  | _ => exact .same _

theorem recordActuals_keeps (actuals : CallActuals) :
    T.Pairs (recordActuals load depth ty actuals) (recordActuals load' depth ty actuals) := by
  induction depth generalizing ty with
  | zero => exact keeps_tooDeep
  | succ depth ih =>
    refine keeps_kindOf_change (fun _ => rfl) (fun _ => rfl) fun data s hdata => ?_
    cases hkind : data.kind with
    | method info =>
      cases hset : info.actuals with
      | some =>
        simp only [hset]
        exact (alreadySet_keeps h.toAsks (depth + 1) .callActuals ty).here
      | none =>
        simp only [hset]
        refine h.revises hdata (fun k => by cases k <;> rfl) (fun _ => ⟨rfl, rfl⟩) ?_
        rw [hkind]
        exact .actuals info actuals hset
    | forAll info => exact (ih info.body).here
    | _ => exact (unexpected_keeps h.toAsks (depth + 1) .methodType ty).here

theorem setThrown_keeps {thrown : List TypeId}
    (hmoves : ∀ (s : Store) ty, T.Moves s (s.setThrown thrown ty)) (depth : Nat) (ty : TypeId) :
    T.Pairs (setThrown load depth ty thrown) (setThrown load' depth ty thrown) := by
  induction depth generalizing ty with
  | zero => exact keeps_tooDeep
  | succ depth ih =>
    refine keeps_kindOf_change (fun _ => rfl) (fun _ => rfl) fun data s hdata => ?_
    cases hkind : data.kind with
    | method =>
      exact .change _ () (fun _ _ => .revise ty _ fun k => by cases k <;> rfl) (hmoves s.store ty)
        fun _ _ => ⟨rfl, rfl⟩
    | forAll info => exact (ih info.body).here
    | _ => exact (violationAt_keeps h.toAsks (depth + 1) _ ty _).here

end

theorem local_prototypeOf {α : Type} {info : VarInfo} {k k' : Option (TypeId × VarInfo) → Run α}
    (hk : ∀ prototype, prototypeOf info s = .ok prototype s → T.Local s (k prototype) (k' prototype)) :
    T.Local s (prototypeOf info >>= k) (prototypeOf info >>= k') := by
  unfold prototypeOf at hk ⊢
  generalize info.prototype = prototype at hk ⊢
  cases prototype with
  | none => exact hk none rfl
  | some owner =>
    simp only [kindOf_bind, bind_assoc] at hk ⊢
    exact local_typeData (fun _ _ _ _ => rfl) (fun _ _ _ _ => rfl) fun data hdata =>
      hk _ (bind_run (typeData_run hdata))

/-- The bound goes to the variable alone, or to the variable and its prototype at once. -/
theorem setUpperBound_keeps (h : load.Keeps load' T) (depth : Nat) (ty bound : TypeId) :
    T.Pairs (setUpperBound load depth ty bound) (setUpperBound load' depth ty bound) := by
  have hclass : ∀ k : Kind, (k.mapVar (VarInfo.setBound bound)).class? = k.class? := by
    intro k
    cases k <;> rfl
  refine keeps_kindOf_change (fun _ => rfl) (fun _ => rfl) fun data s hdata => ?_
  cases hvar : data.kind.var? with
  | none => exact (unexpected_keeps h.toAsks depth .typeVariable ty).here
  | some info =>
    refine local_prototypeOf fun prototype hprototype => ?_
    obtain ⟨_, hfound⟩ := eq_of_prototypeOf hprototype
    cases hfree : info.refuses bound with
    | true =>
      simp only [if_true]
      exact (alreadySet_keeps h.toAsks depth .upperBound ty).here
    | false =>
      simp only [Bool.false_eq_true, if_false]
      cases prototype with
      | none =>
        refine .change (·.setBound bound ty) (.ok ()) (fun _ _ => .revise ty _ hclass)
          (h.routine _ _ (.bound ty bound data info hdata hvar hfree ?_)) fun _ _ => ⟨rfl, rfl⟩
        intro owner ownerData howner hownerData
        rcases hfound with ⟨hnone, _⟩ | ⟨owner', data', howner', hdata', hvar'⟩
        · rw [hnone] at howner
          cases howner
        · obtain rfl : owner' = owner := Option.mem_unique howner' howner
          obtain rfl : data' = ownerData := Option.mem_unique hdata' hownerData
          exact Option.map_eq_none_iff.1 hvar'.symm
      | some =>
        rcases hfound with ⟨_, hnone⟩ | ⟨owner, ownerData, howner, hownerData, hvar'⟩
        · cases hnone
        · obtain ⟨var, hownerVar, rfl⟩ := Option.map_eq_some_iff.1 hvar'.symm
          cases hownerFree : var.refuses bound with
          | true =>
            simp only [hownerFree, if_true]
            exact (alreadySet_keeps h.toAsks depth .upperBound owner).here
          | false =>
            simp only [hownerFree, Bool.false_eq_true, if_false]
            exact .change (fun s => (s.setBound bound ty).setBound bound owner) (.ok ())
              (fun _ _ => .reviseBoth ty owner _ hclass) (h.routine _ _ (.sharedBound ty owner bound
                data ownerData info var hdata hvar hfree howner hownerData hownerVar hownerFree))
              fun _ _ => ⟨rfl, rfl⟩

theorem typeVarBound_keeps (h : load.Asks load' T) (depth : Nat) (ty : TypeId) :
    T.Pairs (typeVarBound load depth ty) (typeVarBound load' depth ty) := by
  refine (upperBound_reads depth ty).keeps.bind fun bound => ?_
  split
  · exact keeps_pure _
  · exact violationAt_keeps h depth _ ty _

theorem asMethodType_keeps (h : load.Asks load' T) (depth : Nat) (ty : TypeId) :
    T.Pairs (asMethodType load depth ty) (asMethodType load' depth ty) := by
  refine (methodType?_keeps depth ty).bind fun method => ?_
  split
  · exact keeps_pure _
  · exact violationAt_keeps h depth _ ty _

theorem updatePlaceholder_keeps {f : PlaceholderInfo → PlaceholderInfo} (h : load.Keeps load' T)
    (depth : Nat) (ty : TypeId)
    (hf : ∀ n info, Kind.Revised n (.placeholder info) (.placeholder (f info))) :
    T.Pairs (updatePlaceholder load depth ty f) (updatePlaceholder load' depth ty f) := by
  refine keeps_kindOf_change (fun _ => rfl) (fun _ => rfl) fun data s hdata => ?_
  cases hkind : data.kind with
  | placeholder info =>
    refine h.revises hdata (fun k => by cases k <;> rfl) (fun _ => ⟨rfl, rfl⟩) ?_
    rw [hkind]
    exact hf _ info
  | _ => exact (unexpected_keeps h.toAsks depth .inferenceVariable ty).here

theorem setInstantiation_keeps (h : load.Keeps load' T) (depth : Nat) (ty solution : TypeId) :
    T.Pairs (setInstantiation load depth ty solution) (setInstantiation load' depth ty solution) := by
  refine keeps_kindOf_change (fun _ => rfl) (fun _ => rfl) fun data s hdata => ?_
  cases hkind : data.kind with
  | placeholder info =>
    cases hsolution : info.solution with
    | none =>
      simp only [hsolution]
      refine h.revises hdata (fun k => by cases k <;> rfl) (fun _ => ⟨rfl, rfl⟩) ?_
      rw [hkind]
      exact .solve info solution hsolution
    | some =>
      simp only [hsolution]
      refine Joins.here ?_
      split
      · exact keeps_pure _
      · exact alreadySet_keeps h.toAsks depth .instantiation ty
  | _ => exact (unexpected_keeps h.toAsks depth .inferenceVariable ty).here

/-! ### Loading -/

theorem forEach_keeps {α : Type} {f f' : α → Run (Except CompletionError Unit)}
    (hf : ∀ a, T.Pairs (f a) (f' a)) (l : List α) : T.Pairs (forEach f l) (forEach f' l) := by
  induction l with
  | nil => exact keeps_pure _
  | cons a rest ih =>
    refine (hf a).bind fun result => ?_
    cases result with
    | ok => exact ih
    | error => exact keeps_pure _

theorem complete_keeps (h : load.Asks load' T) (depth : Nat) (ty : TypeId) :
    T.Pairs (complete load depth ty) (complete load' depth ty) := by
  induction depth generalizing ty with
  | zero => exact keeps_tooDeep
  | succ depth ih =>
    refine keeps_typeData (fun _ _ _ _ => rfl) fun data => ?_
    cases data.kind with
    | classType =>
      cases data.symbol with
      | none => exact keeps_pure _
      | some sym => exact h.load sym
    | array info => exact ih info.elem
    | method info =>
      refine (forEach_keeps ih info.params).bind fun result => ?_
      cases result with
      | error => exact keeps_pure _
      | ok =>
        refine (ih info.result).bind fun result => ?_
        cases result with
        | error => exact keeps_pure _
        | ok => exact (thrownTypes_keeps 1 ty).bind fun thrown => forEach_keeps ih thrown
    | forAll info =>
      have hbound : ∀ var, T.Pairs (do complete load depth (← typeVarBound load (depth + 1) var))
          (do complete load' depth (← typeVarBound load' (depth + 1) var)) :=
        fun var => (typeVarBound_keeps h (depth + 1) var).bind ih
      refine (forEach_keeps hbound info.typeVars).bind fun result => ?_
      cases result with
      | error => exact keeps_pure _
      | ok => exact ih info.body
    | _ => exact keeps_pure _

/-! ### Commands -/

theorem inquire_keeps (h : load.Asks load' T) (depth : Nat) (ty : TypeId) (query : Query) :
    T.Pairs (inquire load depth ty query) (inquire load' depth ty query) := by
  have hdata : ∀ f : TypeData → Answer, IgnoresLists f → T.Keeps (do return f (← typeData ty)) :=
    fun f hf => keeps_typeData (fun symbol erased literal info => by rw [hf]) fun _ => keeps_pure _
  have hkind : ∀ f : Kind → Answer, (∀ info, f (.classType info) = f (.classType info.plain)) →
      T.Keeps (do return f (← kindOf ty)) := fun f hf =>
    keeps_kindOf (fun info => by rw [hf]) fun _ => keeps_pure _
  cases query with
  | tag => exact hkind (fun kind => .tag kind.tag) fun _ => rfl
  | modelKind => exact hkind (fun kind => .model kind.model) fun _ => rfl
  | asElement => exact hdata (fun data => .symbol data.symbol) fun _ _ _ _ => rfl
  | isErased => exact hdata (fun data => .truth data.erased) fun _ _ _ _ => rfl
  | constValue => exact hdata (fun data => .literal data.literal) fun _ _ _ _ => rfl
  | isCompound => exact (isCompound_keeps ty).map
  | cellType => exact (cellType_keeps ty).map
  | typeHash => exact (typeHash_keeps depth ty).map
  | typeArguments => exact (typeArguments_keeps h.toTied depth ty).map
  | regionArguments => exact (h.regionArguments depth ty).map
  | effectArguments => exact (effectArguments_keeps h.toTied depth ty).map
  | enclosingType => exact (enclosingType_keeps depth ty).map
  | parameterTypes => exact (parameterTypes_keeps depth ty).map
  | returnType => exact (returnType_keeps depth ty).map
  | thrownTypes => exact (thrownTypes_keeps depth ty).map
  | supertype => exact (supertype_keeps h ty).map
  | interfaces => exact (interfaces_keeps h ty).map
  | ownerRegion => exact (h.regionArguments depth ty).map.map
  | allTypeParams => exact (h.allTypeParams depth ty).map
  | allRegionParams => exact (h.allRegionParams depth ty).map
  | allEffectParams => exact (h.allEffectParams depth ty).map
  | isPrimitive => exact hkind (fun kind => .truth kind.tag.isPrimitive) fun _ => rfl
  | isErroneous => exact (isErroneous_keeps h depth ty).map
  | isParameterized => exact (isParameterized_keeps h depth ty).map
  | hasRegionParams => exact (hasRegionParams_keeps h depth ty).map
  | hasEffectParams => exact (hasEffectParams_keeps h depth ty).map
  | isRaw => exact (isRaw_keeps h depth ty).map
  | isInterface => exact (isInterface_keeps h ty).map
  | isSuperBound | isExtendsBound | isUnbound | extendsBound | superBound | removeBounds =>
    exact (wildcard?_reads ty).keeps.map.map
  | upperBound => exact (upperBound_reads depth ty).keeps.map
  | lowerBound => exact (lowerBound_keeps ty).map
  | baseType => exact (baseType_keeps depth ty).map
  | isTrue | isFalse => exact (booleanValue?_keeps ty).map.map
  | tryAsMethodType => exact (methodType?_keeps depth ty).map
  | typeVariables => exact (typeVariables_keeps ty).map
  | effectVariables => exact (effectVariables_keeps ty).map
  | callActuals => exact (callActuals_keeps depth ty).map
  | freeTypeVars => exact (collectFree_keeps h depth [] [] ty).map
  | stringValue => exact (stringValue_keeps h depth ty).map
  | typeVarBound => exact (typeVarBound_keeps h depth ty).map
  | asMethodType => exact (asMethodType_keeps h depth ty).map

/-- The questions about types: lists, accumulated lists and predicates. -/
def Command.isRead : Command → Bool
  | ask .. | contains .. | containsList .. | containsSome .. | isErroneousList .. | typesEqual .. => true
  | _ => false

/-- Such a question changes nothing but the lists of classes. -/
theorem execute_read_keeps (h : load.Asks load' T) (depth : Nat) {command : Command}
    (hread : command.isRead = true) :
    T.Pairs (execute load depth command) (execute load' depth command) := by
  cases command with
  | ask query => exact .map (looking fun ty => inquire_keeps h depth ty query)
  | contains type elem =>
    exact .map (looking fun ty => looking fun elem => (contains_keeps h depth ty elem).map)
  | containsList types elem =>
    exact .map (looking fun types => looking fun elem =>
      (Pairs.anyM (fun ty => contains_keeps h depth ty elem) types).map)
  | containsSome type elems =>
    exact .map (looking fun ty => looking fun elems =>
      (Pairs.anyM (contains_keeps h depth ty) elems).map)
  | isErroneousList types =>
    exact .map (looking fun types => (Pairs.anyM (isErroneous_keeps h depth) types).map)
  | typesEqual a b =>
    exact .map (looking fun a => looking fun b => (typesEqual_keeps depth a b).map)
  | _ => cases hread

theorem inspect_keeps (h : load.Asks load' T) (depth : Nat) (ty : TypeId) :
    T.Pairs (inspect load depth ty) (inspect load' depth ty) :=
  (Pairs.mapM (fun query => (inquire_keeps h depth ty query).map) _).bind fun _ =>
    (display_keeps h depth ty).map

theorem runMapping_keeps (h : load.Keeps load' T) (depth : Nat) (ty : TypeId) (mapping : MappingSpec) :
    T.Pairs (runMapping load depth ty mapping) (runMapping load' depth ty mapping) := by
  cases mapping with
  | table =>
    refine looking fun olds => looking fun news => ?_
    exact (mapType_keeps h (apply_keeps h _ depth) depth ty []).bind fun ⟨image, visited⟩ =>
      keeps_pure _
  | subst =>
    refine looking fun olds => looking fun news => ?_
    have hmapping := fun ty => (substitute_keeps h depth (.ofLists olds news) ty).lift (σ := Unit)
    exact ((mapType_keeps h hmapping depth ty).run' ()).map

theorem runListMapping_keeps (h : load.Keeps load' T) (depth : Nat) (types : List TypeId)
    (mapping : MappingSpec) :
    T.Pairs (runListMapping load depth types mapping) (runListMapping load' depth types mapping) := by
  cases mapping with
  | table =>
    refine looking fun olds => looking fun news => ?_
    exact (mapList_keeps (apply_keeps h _ depth) types []).bind fun ⟨⟨images, changed⟩, visited⟩ =>
      keeps_pure _
  | subst =>
    refine looking fun olds => looking fun news => ?_
    exact (substituteList_keeps h depth _ types).bind fun ⟨images, changed⟩ => keeps_pure _

theorem attempting_keeps {action action' : Run (Except TypeError Unit)} (h : T.Pairs action action') :
    T.Pairs (attempting action) (attempting action') := by
  refine h.bind fun result => ?_
  cases result with
  | ok | error => exact keeps_pure _

/-- The command that gives a symbol a completer. -/
def Command.installs : Command → Bool
  | setCompleter .. => true
  | _ => false

/-- The commands that declare something, make a type or fill in what is open.  All others only ask,
and what they change are lists of classes and what completers do. -/
def Command.changes : Command → Bool
  | setDisplayOptions .. | newSymbol .. | declareClass .. | declarePackage .. | setSymbolFlags ..
  | enterMember .. | setCompleter .. | defineClass .. | classType .. | setCellType .. | arrayType ..
  | methodType .. | setThrown .. | recordActuals .. | forAll .. | newTypeVar .. | typeVar ..
  | copyTypeVar .. | captured .. | wildcard .. | placeholder .. | errorType | errorTypeForClass ..
  | errorTypeNamed .. | constType .. | setUpperBound .. | addLowerBound .. | addUpperBound ..
  | setInstantiation .. | withTypeVar .. | map .. | mapList .. | subst .. | substList .. => true
  | _ => false

/-- What only asks needs no more of the tie than questions do. -/
theorem execute_question_keeps (h : load.Asks load' T) (depth : Nat) {command : Command}
    (hasks : command.changes = false) (hdata : ∀ type, command ≠ .data type) :
    T.Pairs (execute load depth command) (execute load' depth command) := by
  cases command with
  | wellKnown => exact (keeps_pure _).map
  | typeCount =>
    exact (keeps_get (fun s t h => by simp only [h.store.size]) fun s => keeps_pure _).map
  | displayOptions => exact storeOptions_keeps.map.map
  | describeStore =>
    have hread : T.Keeps (do return Answer.text (← get).store.describe) :=
      keeps_get (fun s t h => by rw [h.store.describe]) fun s => keeps_pure _
    exact hread.map
  | symbolInfo | describeSymbol | symbolName =>
    exact .map (looking fun sym => (symbolData_keeps sym).map)
  | symbolType => exact .map (looking fun sym => (symbolType_keeps sym).map)
  | qualifiedName => exact .map (looking fun sym => (qualifiedName_reads depth sym).keeps.map)
  | symbolFlags => exact .map (looking fun sym => (symbolFlags_keeps h sym).map)
  | completeSymbol =>
    refine looking fun sym => (h.load sym).bind fun result => ?_
    cases result with
    | ok | error => exact keeps_pure _
  | complete =>
    refine looking fun ty => (complete_keeps h depth ty).bind fun result => ?_
    cases result with
    | ok | error => exact keeps_pure _
  | emit => exact ((log_keeps _ _ _).bind fun _ => keeps_pure _).map
  | display | displayHandle =>
    exact .map (looking fun ty => looking fun options => (render_keeps h depth options ty).map)
  | displayList types => exact .map (looking fun types => (renderList_keeps h depth types).map)
  | displayArgTypes type varargs =>
    exact .map (looking fun ty => (renderArgTypes_keeps h depth ty varargs).map)
  | typesEqual | contains | containsList | containsSome | isErroneousList | ask =>
    exact execute_read_keeps h depth rfl
  | removeBoundsList types =>
    exact .map (looking fun types => (Pairs.mapM (fun ty => (wildcard?_reads ty).keeps.map) types).map)
  | baseTypes types =>
    exact .map (looking fun types =>
      ((Pairs.mapM (baseType_keeps depth) types).map).bind fun ⟨bases, changed⟩ => keeps_pure _)
  | keys types => exact .map (looking fun types => (keyReport_keeps depth types).map)
  | accept type visitor =>
    exact .map (looking fun ty =>
      (keeps_of_kind ty (fun _ => rfl) fun _ => ⟨_, rfl⟩ : T.Keeps (accept visitor ty)).map)
  | data type => exact absurd rfl (hdata type)
  | inspect => exact .map (looking fun ty => inspect_keeps h depth ty)
  | _ => cases hasks

/-- The command that defines a class. -/
def Command.defines : Command → Bool
  | defineClass .. => true
  | _ => false

theorem execute_define_keeps (h : load.Asks load' T) (depth : Nat) {command : Command}
    (hdefines : command.defines = true) (hdefine : ∀ s t, Store.Defines s t → T.Moves s t) :
    T.Pairs (execute load depth command) (execute load' depth command) := by
  cases command with
  | defineClass =>
    exact looking fun ty => looking fun typeParams => looking fun supertype =>
      looking fun interfaces => attempting_keeps (defineClass_keeps h depth ty _ hdefine)
  | _ => cases hdefines

theorem execute_keeps_of_ne_data (h : load.Keeps load' T) (depth : Nat) (command : Command)
    (hmakes : ∀ s t, command.Makes s t → T.Moves s t) (hinstalls : command.installs = true → T.Installs)
    (hdata : ∀ type, command ≠ .data type) :
    T.Pairs (execute load depth command) (execute load' depth command) := by
  have hsymbol : ∀ (ref : SymbolRef) (f : Symbol → Symbol),
      (∀ y, (f y).type = y.type ∧ (f y).completing = y.completing ∧
        ((f y).completer.isSome → y.completer.isSome ∨ T.Installs)) →
      (∀ (s : Store) sym, T.Moves s (s.updateSymbol sym f)) →
        T.Keeps (do updateSymbol (← lookupSymbol ref) f; return Answer.nothing) :=
    fun ref f hf hmoves => looking fun sym =>
      (updateSymbol_keeps hf fun s => hmoves s sym).bind fun _ => keeps_pure _
  by_cases hchanges : command.changes = true
  case neg => exact execute_question_keeps h.toAsks depth (Bool.eq_false_iff.2 hchanges) hdata
  cases command with
  | setDisplayOptions options =>
    exact ((keeps_modifyStore (fun _ => .options options) fun s =>
      h.routine _ _ (.options options)).bind fun _ => keeps_pure _).map
  | newSymbol kind name owner flags =>
    exact .map (looking fun owner => (pushSymbol_keeps name owner kind flags fun s =>
      h.routine _ _ (.declare name owner kind flags)).map)
  | declareClass name owner flags outer =>
    exact .map (looking fun owner => looking fun outer =>
      (declareClass_keeps h name owner flags outer).map)
  | declarePackage name owner =>
    exact .map (looking fun owner => (declarePackage_keeps h name owner).map)
  | setSymbolFlags symbol flags =>
    exact (hsymbol symbol (fun y => { y with flags }) (fun _ => ⟨rfl, rfl, .inl⟩) fun s sym =>
      h.routine _ _ (.flags sym flags)).map
  | enterMember owner member =>
    exact .map (looking fun member =>
      hsymbol owner (fun y => { y with members := y.members.enter member })
        (fun _ => ⟨rfl, rfl, .inl⟩) fun s sym => h.routine _ _ (.enter sym member))
  | setCompleter symbol script propagate failure =>
    exact (hsymbol symbol (fun y => { y with completer := some ⟨script, propagate, failure⟩ })
      (fun _ => ⟨rfl, rfl, fun _ => .inr (hinstalls rfl)⟩) fun s sym =>
        hmakes _ _ (.install symbol ⟨script, propagate, failure⟩ sym)).map
  | defineClass => exact execute_define_keeps h.toAsks depth rfl fun s t hst => h.routine s t hst.routine
  | classType symbol outer typeArgs regionArgs effectArgs cellType =>
    exact .map (looking fun sym => looking fun outer => looking fun typeArgs =>
      looking fun cellType => h.pushType rfl rfl)
  | setCellType type cell =>
    exact .map (looking fun ty => looking fun cell =>
      (setCellType_keeps h ty cell).bind fun _ => keeps_pure _)
  | arrayType elem region indexVar =>
    exact .map (looking fun elem => looking fun indexVar => h.pushType rfl trivial)
  | methodType params result thrown =>
    exact .map (looking fun params => looking fun result => looking fun thrown =>
      h.pushType rfl trivial)
  | setThrown type thrown =>
    exact .map (looking fun ty => looking fun thrown =>
      (setThrown_keeps h (fun _ _ => hmakes _ _ (.thrown ..)) depth ty).bind fun _ => keeps_pure _)
  | recordActuals type types =>
    exact looking fun ty => looking fun types => attempting_keeps (recordActuals_keeps h depth ty _)
  | forAll typeVars regionVars effectVars body =>
    exact .map (looking fun typeVars => looking fun body => quantify_keeps h _)
  | newTypeVar name owner lower =>
    exact .map (looking fun owner => looking fun lower => newTypeVar_keeps h name owner _)
  | typeVar symbol bound lower regionParams regionArgs prototype =>
    refine .map (looking fun sym => looking fun given => looking fun low => ?_)
    have hpush : ∀ found, (prototype = none → found = none) → T.Keeps (typeVar sym
        { bound := given, lower := low.getD WellKnown.bottom, regionParams, regionArgs
          prototype := found }) := fun found hfound =>
      pushType_keeps rfl fun s => hmakes _ _
        (.prototyped symbol bound lower regionParams regionArgs prototype sym _ hfound)
    cases prototype with
    | none => exact hpush none fun _ => rfl
    | some => exact looking fun found => hpush found nofun
  | copyTypeVar type regionArgs =>
    exact .map (looking fun ty => copyTypeVar_keeps h depth ty regionArgs)
  | captured name owner upper lower wildcard =>
    exact .map (looking fun owner => looking fun upper => looking fun lower =>
      looking fun wildcard => captured_keeps h name owner upper _ wildcard)
  | wildcard type kind formal =>
    exact .map (looking fun ty => looking fun formal => h.pushType rfl trivial)
  | placeholder origin => exact .map (looking fun origin => placeholder_keeps h origin)
  | errorType => exact (h.pushType rfl trivial : T.Keeps (errorType none)).map
  | errorTypeForClass => exact .map (looking fun sym => damage_keeps h sym)
  | errorTypeNamed name container =>
    exact .map (looking fun container =>
      (pushSymbol_keeps name container .type .synthetic fun s =>
        h.routine _ _ (.declare name container .type .synthetic)).bind (damage_keeps h))
  | constType type value => exact .map (looking fun ty => constType_keeps h depth ty value)
  | setUpperBound type bound =>
    exact attempting_keeps (looking fun ty => looking fun bound =>
      setUpperBound_keeps h depth ty bound)
  | addLowerBound type bound =>
    exact attempting_keeps (looking fun ty => looking fun bound =>
      updatePlaceholder_keeps h depth ty fun _ info => .lower info bound)
  | addUpperBound type bound =>
    exact attempting_keeps (looking fun ty => looking fun bound =>
      updatePlaceholder_keeps h depth ty fun _ info => .upper info bound)
  | setInstantiation type solution =>
    exact attempting_keeps (looking fun ty => looking fun solution =>
      setInstantiation_keeps h depth ty solution)
  | withTypeVar type formal =>
    exact .map (looking fun ty => looking fun formal => setFormal_keeps h ty formal)
  | map type mapping => exact .map (looking fun ty => runMapping_keeps h depth ty mapping)
  | mapList types mapping =>
    exact .map (looking fun types => runListMapping_keeps h depth types mapping)
  | subst =>
    exact .map (looking fun ty => looking fun olds => looking fun news =>
      substitute_keeps h depth _ ty)
  | substList types =>
    exact .map (looking fun types => looking fun olds => looking fun news =>
      (substituteList_keeps h depth (.ofLists olds news) types).bind fun ⟨images, changed⟩ =>
        keeps_pure (Answer.mappedList images (!changed) none))
  | _ => cases hchanges

theorem data_keeps (ty : TypeId) :
    T.KeepsBy Outcome.Agrees (do return .ok (.data (← typeData ty))) := by
  refine keepsBy_of (typeData_still ty).of_eq.map fun s t hst => ?_
  cases hdata : s.store.type? ty with
  | none => exact inStep_typeData_of_none hst hdata
  | some data =>
    obtain ⟨data', hdata', hplain⟩ := (Lawful.twin hst).store.exists_type? hdata
    unfold InStep
    rw [bind_run (typeData_run hdata), bind_run (typeData_run hdata')]
    refine .inr ⟨?_, hst⟩
    show Except.ok (Answer.data data'.plain) = Except.ok (Answer.data data.plain)
    rw [hplain]

/-- **Every command**: both runs have the same outcome but for derived lists. -/
theorem execute_keeps (h : load.Keeps load' T) (depth : Nat) (command : Command)
    (hmakes : ∀ s t, command.Makes s t → T.Moves s t)
    (hinstalls : command.installs = true → T.Installs) :
    T.Joins Outcome.Agrees (execute load depth command) (execute load' depth command) := by
  by_cases hdata : ∃ type, command = .data type
  · obtain ⟨type, rfl⟩ := hdata
    show T.KeepsBy Outcome.Agrees (answering _)
    rw [answering, bind_assoc]
    refine looking fun ty => ?_
    rw [bind_assoc]
    exact data_keeps ty
  · have hpairs := execute_keeps_of_ne_data h depth command hmakes hinstalls fun type heq =>
      hdata ⟨type, heq⟩
    refine hpairs.imp ?_
    rintro outcome _ rfl
    rfl

/-! ### Scripts and completers -/

omit [T.Lawful]

/-- Answers that look the same are the same, or each is the data of a type. -/
theorem Answer.plain_eq_cases {a b : Answer} (h : b.plain = a.plain) :
    b = a ∨ ∃ data data', a = .data data ∧ b = .data data' := by
  cases a with
  | data data =>
    cases b with
    | data data' => exact .inr ⟨data, data', rfl, rfl⟩
    | _ => cases h
  | _ =>
    cases b with
    | data => cases h
    | _ => exact .inl h

theorem Session.Twin.bind (h : s.Twin t) (label : String) {a b : Answer} (hab : b.plain = a.plain) :
    ∃ names, s.bind label a = { s with names } ∧ t.bind label b = { t with names } := by
  rcases Answer.plain_eq_cases hab with rfl | ⟨data, data', rfl, rfl⟩
  · unfold Session.bind
    split
    · exact ⟨_, rfl, by rw [h.names]⟩
    · exact ⟨_, rfl, by rw [h.names]⟩
    · exact ⟨_, rfl, by rw [h.names]⟩
    · exact ⟨_, rfl, by rw [h.names]⟩
    · dsimp only
      rw [h.store.symbol?, h.names]
      split
      · exact ⟨_, rfl, rfl⟩
      · exact ⟨_, rfl, rfl⟩
    · exact ⟨s.names, rfl, by rw [← h.names]⟩
  · refine ⟨s.names, rfl, ?_⟩
    rw [← h.names]
    rfl

/-- What remains to be done when the steps of a completer have been made. -/
def Completer.conclude (completer : Completer) (sym : SymbolId) (ending : Option Failure) :
    Run (Except CompletionError Unit) := do
  let name := (← symbolData sym).name
  match (ending.map Failure.message).or completer.failure with
  | some message =>
    note (.ended sym false)
    return .error ⟨name, message⟩
  | none =>
    note (.ended sym true)
    return .ok ()

theorem Completer.conclude_still (completer : Completer) (sym : SymbolId) (ending : Option Failure) :
    Along Eq (completer.conclude sym ending) := by
  refine (symbolData_still sym).bind fun y => ?_
  split
  · exact (note_still _).bind fun _ => along_pure _
  · exact (note_still _).bind fun _ => along_pure _

section Scripts

variable {V : Outcome → Outcome → Prop} [T.Named V] {perform perform' : Command → Run Outcome}

/-- Carrying out a step: what is named is named in both runs. -/
theorem makeStep_keeps {step : Step} (h : T.Joins V (perform step.2) (perform' step.2)) :
    T.Joins V (makeStep perform step) (makeStep perform' step) := by
  obtain ⟨label, command⟩ := step
  have hstill : ∀ label answer, Along Eq (modify (·.bind label answer) : Run Unit) :=
    fun label answer s => (s.bind_store label answer).1.symm
  refine h.bindBy (fun outcome => and_self_iff.2 ?_) fun a b s t hab hst => ?_
  · cases outcome with
    | error => exact along_pure _
    | ok answer =>
      cases label with
      | none => exact along_pure _
      | some label => exact (hstill label answer).of_eq.bind fun _ => along_pure _
  · have hplain : Outcome.Agrees a b := Named.agrees T hab
    cases a with
    | error =>
      cases b with
      | error => exact inStep_pure hst hab
      | ok => cases hplain
    | ok answer =>
      cases b with
      | error => cases hplain
      | ok answer' =>
        cases label with
        | none => exact inStep_pure hst hab
        | some label =>
          obtain ⟨names, hs, ht⟩ := (Lawful.twin hst).bind label (Except.ok.inj hplain)
          refine .inr ⟨hab, ?_⟩
          show T.Holds (s.bind label answer) (t.bind label answer')
          rw [hs, ht]
          exact Named.names V names hst

theorem runScript_keeps {script : List Step}
    (h : ∀ step ∈ script, T.Joins V (perform step.2) (perform' step.2)) (propagate : Bool) :
    T.Pairs (runScript perform propagate script) (runScript perform' propagate script) := by
  induction script with
  | nil => exact keeps_pure _
  | cons step rest ih =>
    have hrest := ih fun other hother => h other (List.mem_cons_of_mem step hother)
    have hnoting : ∀ (outcome : Outcome) {next : Run (Option Failure)}, Along T.Moves next →
        Along T.Moves (do note (.stepped outcome); next) :=
      fun _ _ hnext => (note_still _).of_eq.bind fun _ => hnext
    refine (makeStep_keeps (h step List.mem_cons_self)).bindBy
      (fun outcome => ⟨hnoting outcome ?_, hnoting outcome ?_⟩) fun a b s t hab hst => ?_
    · split
      · exact along_pure _
      · exact hrest.along
    · split
      · exact along_pure _
      · exact hrest.alongSecond
    have hnoted : T.Holds { s with trace := .stepped a :: s.trace }
        { t with trace := .stepped b :: t.trace } := Named.stepped hab hst
    have hgoes : T.InStep Eq (runScript perform propagate rest) (runScript perform' propagate rest)
        { s with trace := .stepped a :: s.trace } { t with trace := .stepped b :: t.trace } :=
      hrest.inStep _ _ hnoted
    have hplain : Outcome.Agrees a b := Named.agrees T hab
    cases a with
    | ok =>
      cases b with
      | ok => exact hgoes
      | error => cases hplain
    | error failure =>
      cases b with
      | ok => cases hplain
      | error failure' =>
        obtain rfl : failure' = failure := Except.error.inj hplain
        cases propagate with
        | true => exact .inr ⟨rfl, hnoted⟩
        | false => exact hgoes

/-- Running a completer, once its start has been noted. -/
theorem Completer.run_inStep {completer : Completer}
    (h : ∀ step ∈ completer.script, T.Joins V (perform step.2) (perform' step.2)) {sym : SymbolId}
    (hst : T.Holds { s with trace := .began sym :: s.trace } { t with trace := .began sym :: t.trace }) :
    T.InStep Eq (completer.run perform sym) (completer.run perform' sym) s t := by
  have hended : ∀ ok, T.Keeps (note (.ended sym ok)) := fun ok =>
    keepsBy_of (note_still _).of_eq fun _ _ hst => .inr ⟨rfl, Named.ended V sym ok hst⟩
  have hconclude : ∀ ending, T.Keeps (completer.conclude sym ending) := by
    intro ending
    refine (symbolData_keeps sym).bind fun y => ?_
    split
    · exact (hended false).bind fun _ => keeps_pure _
    · exact (hended true).bind fun _ => keeps_pure _
  exact ((runScript_keeps h completer.propagate).bind hconclude).inStep _ _ hst

end Scripts

/-- **Running a completer.** -/
theorem Completer.run_keeps {V : Outcome → Outcome → Prop} [T.Begins V]
    {perform : Command → Run Outcome} {completer : Completer}
    (h : ∀ step ∈ completer.script, T.KeepsBy V (perform step.2)) (sym : SymbolId) :
    T.Keeps (completer.run perform sym) := by
  refine keepsBy_of ?_ fun s t hst => Completer.run_inStep h (Begins.began V sym hst)
  refine (note_still _).of_eq.bind fun _ => ?_
  exact (runScript_keeps h completer.propagate).along.bind fun ending =>
    (completer.conclude_still sym ending).of_eq

end RegionTypes

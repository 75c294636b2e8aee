import RegionTypes.Proofs.Loading.Texts

/-!
# Commands that ask

* `Command.isQuestion` — the commands that ask and do not change anything.
* `Query.answerIn`, `Command.answerIn` — what the questions about declarations answer in a store
  with every class defined.
* `inquire_asks` — every question that has an answer is answered.
* `execute_asks` — **a command that asks** a store that can be surveyed is answered, and where answers
  are sure it gets the answer that it has with every class defined.
-/

namespace RegionTypes

open Run

/-! ### Commands that ask -/

/-- Whether a question about a type has an answer.  Three questions may not be asked of any type. -/
def Query.hasAnswer (r : Store) (ty : TypeId) : Query → Bool
  | stringValue => (r.type? ty).any fun data => data.kind = .bottom || data.literal.isSome
  | typeVarBound => (r.upperBoundOf ty).isSome
  | asMethodType => (r.methodOf ty).isSome
  | _ => true

/-- Whether a command refers to a type of the store by its handle. -/
def TypeRef.belongs (r : Store) : TypeRef → Bool
  | handle ty => r.Has ty
  | named _ => false

/-- Whether a command refers to a symbol of the store by its handle. -/
def SymbolRef.belongs (r : Store) : SymbolRef → Bool
  | handle sym => (r.symbol? sym).isSome
  | named _ => false

/-- Whether the texts of all types can be had, with questions nested at most so deep. -/
def Store.rendersWithin (r : Store) (bound : Nat) : Bool :=
  decide r.Legible && decide (3 * r.types.size + r.symbols.size ≤ bound)

/-- The commands that only ask: about the session, and about types and symbols of the store.  Names of
symbols and texts of types need questions that are nested more deeply than others. -/
def Command.isQuestion (r : Store) (bound : Nat) : Command → Bool
  | wellKnown | typeCount | displayOptions | describeStore | emit _ => true
  | symbolInfo symbol | describeSymbol symbol | symbolType symbol | symbolName symbol
  | symbolFlags symbol => symbol.belongs r
  | qualifiedName symbol => symbol.belongs r && decide (r.symbols.size ≤ bound)
  | ask query (.handle ty) => decide (r.Has ty) && query.hasAnswer r ty
  | accept type _ _ | data type => type.belongs r
  | typesEqual a b | contains a b => a.belongs r && b.belongs r
  | containsList types elem => types.all (·.belongs r) && elem.belongs r
  | containsSome ty elems => ty.belongs r && elems.all (·.belongs r)
  | isErroneousList types | removeBoundsList types | baseTypes types | keys types =>
    types.all (·.belongs r)
  | display type _ | displayHandle type _ | displayArgTypes type _ | inspect type =>
    type.belongs r && r.rendersWithin bound
  | displayList types => types.all (·.belongs r) && r.rendersWithin bound
  | _ => false

/-- The answer to a question about declarations in a store with every class defined. -/
def Query.answerIn (r : Store) (ty : TypeId) : Query → Option Answer
  | typeArguments => some (.types (r.typeArgumentsOf ty))
  | regionArguments => some (.regions (r.regionArgumentsOf ty))
  | effectArguments => some (.effects (r.effectArgumentsOf ty))
  | supertype => some (.type (r.supertypeOf ty))
  | interfaces => some (.types (r.interfacesOf ty))
  | allTypeParams => some (.types (r.allTypeParamsOf ty))
  | allRegionParams => some (.regions (r.allRegionParamsOf ty))
  | allEffectParams => some (.effects (r.allEffectParamsOf ty))
  | isErroneous => some (.truth (r.erroneous ty))
  | isParameterized => some (.truth (r.parameterized ty))
  | hasRegionParams => some (.truth (r.regionParameterized ty))
  | hasEffectParams => some (.truth (r.effectParameterized ty))
  | isRaw => some (.truth (r.raw ty))
  | freeTypeVars => some (.types (r.freeVars ty [] []))
  | _ => none

/-- The answer to a command that asks about declarations. -/
def Command.answerIn (r : Store) : Command → Option Answer
  | ask query (.handle ty) => query.answerIn r ty
  | contains (.handle ty) (.handle elem) => some (.truth (r.occurs elem ty))
  | _ => none

variable {α : Type} {r : Store} {load : Loader} {ty : TypeId} {d b : Nat} {sure : Prop}

/-! ### Questions about one type -/

/-- A question whose answer is known. -/
theorem Run.Logic.Asks.known {L : Logic} {action : Run α} {f : α → Answer} {value : α}
    (h : L.Asks action fun a => sure → a = value) :
    L.Asks (do return f (← action)) fun a => sure → ∀ b ∈ some (f value), a = b :=
  h.map fun _ ha hsure _ hb => by rw [ha hsure, Option.some.inj hb]

/-- A question whose answer does not matter. -/
theorem Run.Logic.Asks.unknown {L : Logic} {action : Run α} {f : α → Answer} {p : α → Prop}
    (h : L.Asks action p) : L.Asks (do return f (← action)) fun a => sure → ∀ b ∈ none, a = b :=
  h.map fun _ _ _ _ hb => by cases hb

section

variable (V : Survey r load)

theorem wildcard?_asks (hty : r.Has ty) : V.Asks (wildcard? ty) fun _ => True := by
  refine V.ofKind hty fun kind => ?_
  cases kind with
  | wildcard => exact .pure trivial
  | _ => exact .pure trivial

variable (hthrown : r.ThrowsOlder) (hunsolved : r.Unsolved)

include hthrown hunsolved

/-- **Every question is answered**, and those about declarations as the store would answer them with
every class defined. -/
theorem inquire_asks (hd : r.level ty < d) (hty : r.Has ty) (query : Query)
    (hanswer : query.hasAnswer r ty) :
    V.Asks (inquire load d ty query) fun a => V.sure → ∀ b ∈ query.answerIn r ty, a = b := by
  have hwildcard : ∀ {γ : Type} (f : Option WildcardInfo → γ),
      V.Asks (do return f (← wildcard? ty)) fun _ => True :=
    fun _ => (wildcard?_asks V hty).map fun _ _ => trivial
  have hboolean : ∀ f : Option Int32 → Bool,
      V.Asks (do return f (← booleanValue? ty)) fun _ => True :=
    fun _ => (booleanValue?_asks V hty).map fun _ _ => trivial
  cases query with
  | typeArguments => exact .known (typeArguments_asks V d ty hd hty)
  | regionArguments => exact .known (regionArguments_asks V d ty hd hty)
  | effectArguments => exact .known (effectArguments_asks V d ty hd hty)
  | supertype => exact .known ((V.supertype hty).imp fun _ h => h.2)
  | interfaces => exact .known ((V.interfaces hty).imp fun _ h => h.2)
  | allTypeParams => exact .known (allTypeParams_asks V d ty hd hty)
  | allRegionParams => exact .known (allRegionParams_asks V d ty hd hty)
  | allEffectParams => exact .known (allEffectParams_asks V d ty hd hty)
  | isErroneous => exact .known (isErroneous_asks V d ty hd hty)
  | isParameterized => exact .known (isParameterized_asks V d ty hd hty)
  | hasRegionParams => exact .known (hasParams_asks V hty (allRegionParams_asks V d ty hd hty))
  | hasEffectParams => exact .known (hasParams_asks V hty (allEffectParams_asks V d ty hd hty))
  | isRaw => exact .known (isRaw_asks V d ty hd hty)
  | freeTypeVars => exact .known (freeTypeVars_asks V hthrown hd hty)
  | tag | modelKind | isPrimitive => exact .unknown (V.kindOf hty)
  | asElement | isErased | constValue => exact .unknown (V.typeData hty)
  | isCompound => exact .unknown (isCompound_asks V hty)
  | isInterface => exact .unknown (isInterface_asks V hty)
  | cellType =>
    refine .unknown (p := fun _ => True) (V.ofKind hty fun kind => ?_)
    cases kind with
    | classType => exact .pure trivial
    | _ => exact .pure trivial
  | typeVariables | effectVariables =>
    refine .unknown (p := fun _ => True) (V.ofKind hty fun kind => ?_)
    cases kind with
    | forAll => exact .pure trivial
    | _ => exact .pure trivial
  | typeHash => exact .unknown (typeHash_asks V d ty hd hty)
  | baseType => exact .unknown (baseType_asks V hunsolved hd hty)
  | enclosingType => exact .unknown (enclosingType_asks V hd hty)
  | parameterTypes => exact .unknown (parameterTypes_asks V hd hty)
  | returnType => exact .unknown (returnType_asks V hd hty)
  | thrownTypes => exact .unknown (thrownTypes_asks V hd hty)
  | callActuals => exact .unknown (callActuals_asks V hd hty)
  | tryAsMethodType => exact .unknown (methodType?_asks V hd hty)
  | upperBound => exact .unknown (upperBound_asks V hd hty)
  | lowerBound => exact .unknown ((V.kindOf hty).map (q := fun _ => True) fun _ _ => trivial)
  | ownerRegion =>
    exact .unknown ((regionArguments_asks V d ty hd hty).map (q := fun _ => True)
      fun _ _ => trivial)
  | isSuperBound | isExtendsBound | isUnbound | extendsBound | superBound | removeBounds =>
    exact .unknown (hwildcard _)
  | isTrue | isFalse => exact .unknown (hboolean _)
  | stringValue => exact .unknown (stringValue_asks V hty hanswer)
  | typeVarBound => exact .unknown (typeVarBound_asks V hd hty hanswer)
  | asMethodType => exact .unknown (asMethodType_asks V hd hty hanswer)

/-! ### Texts -/

section

variable (hrenders : r.rendersWithin d)

include hrenders

omit hthrown hunsolved

omit hrenders in
theorem chosenOptions_asks (options : Option DisplayOptions) :
    V.Asks (chosenOptions options) fun _ => True := by
  cases options with
  | some => exact .pure trivial
  | none => exact V.session.map fun _ _ => trivial

theorem renderWithin_asks (hty : r.Has ty) (options : DisplayOptions) :
    V.Asks (render load d options ty) fun _ => True := by
  obtain ⟨hlegible, hdepth⟩ := Bool.and_eq_true_iff.1 hrenders
  exact render_asks V (of_decide_eq_true hlegible) hty (of_decide_eq_true hdepth) options

theorem display_asks (hty : r.Has ty) : V.Asks (display load d ty) fun _ => True :=
  (chosenOptions_asks V none).bind fun options _ => renderWithin_asks V hrenders hty options

theorem renderList_asks {types : List TypeId} (htypes : ∀ ty ∈ types, r.Has ty) :
    V.Asks (renderList load d types) fun _ => True :=
  (Logic.Asks.mapM fun ty hty => display_asks V hrenders (htypes ty hty)).map fun _ _ => trivial

theorem renderArgTypes_asks (hd : r.level ty < d) (hty : r.Has ty) (varargs : Bool) :
    V.Asks (renderArgTypes load d ty varargs) fun _ => True := by
  refine (parameterTypes_asks V hd hty).bind fun params hparams => ?_
  cases hlast : params.getLast? with
  | none => exact renderList_asks V hrenders hparams
  | some last =>
    have hmem := hparams last (List.mem_of_getLast? hlast)
    dsimp only
    split
    · have hfirst : V.Asks (params.dropLast.mapM (display load d)) _ := .mapM fun c hc =>
        display_asks V hrenders (hparams c (List.mem_of_mem_dropLast hc))
      refine hfirst.bind fun _ _ => ?_
      have hfinal : V.Asks (renderLastArg load d last) fun _ => True := by
        refine (V.kindOf_parts hmem).bind fun kind hkind => ?_
        cases kind with
        | array info =>
          exact (display_asks V hrenders (hkind rfl _ List.mem_cons_self).1).map fun _ _ => trivial
        | _ => exact display_asks V hrenders hmem
      exact hfinal.map fun _ _ => trivial
    · exact renderList_asks V hrenders hparams

omit hrenders in
theorem Query.hasAnswer_of_mem_inspected {query : Query} (h : query ∈ Query.inspected) :
    query.hasAnswer r ty := by
  cases query with
  | stringValue | typeVarBound | asMethodType => simp [Query.inspected] at h
  | _ => rfl

include hthrown hunsolved

theorem inspect_asks (hd : r.level ty < d) (hty : r.Has ty) :
    V.Asks (inspect load d ty) fun _ => True := by
  have hall : V.Asks (Query.inspected.mapM fun query => do
      return (query, ← inquire load d ty query)) _ := .mapM fun query hquery =>
    (inquire_asks V hthrown hunsolved hd hty query (Query.hasAnswer_of_mem_inspected hquery)).map
      (q := fun _ => True) fun _ _ => trivial
  exact hall.bind fun _ _ => (display_asks V hrenders hty).map fun _ _ => trivial

end

end

/-! ### Commands -/

section

variable {L : Logic}

theorem answering_asks {action : Run Answer} {p : Answer → Prop} (h : L.Asks action p) :
    L.Asks (answering action) fun out => ∃ a, out = .ok a ∧ p a :=
  h.map fun a ha => ⟨a, rfl, ha⟩

theorem lookupType_asks {ref : TypeRef} (h : ref.belongs r) :
    L.Asks (lookupType ref) fun ty => r.Has ty := by
  cases ref with
  | handle => exact .pure (of_decide_eq_true h)
  | named => cases h

theorem lookupTypes_asks {refs : List TypeRef} (h : refs.all (·.belongs r)) :
    L.Asks (lookupTypes refs) fun types => ∀ ty ∈ types, r.Has ty :=
  .mapM fun ref href => lookupType_asks (List.all_eq_true.1 h ref href)

theorem lookupSymbol_asks {ref : SymbolRef} (h : ref.belongs r) :
    L.Asks (lookupSymbol ref) fun sym => ∃ y, r.symbol? sym = some y := by
  cases ref with
  | handle => exact .pure (Option.isSome_iff_exists.1 h)
  | named => cases h

/-- A question with an answer that does not matter. -/
theorem Run.Logic.Asks.aside {action : Run Answer} (h : L.Asks action fun _ => True) :
    L.Asks (answering action) fun out => ∃ a, out = .ok a ∧ (sure → ∀ b ∈ none, a = b) :=
  answering_asks (h.imp fun _ _ _ _ hb => by cases hb)

theorem Run.Logic.Asks.aboutType {ref : TypeRef} {action : TypeId → Run Answer}
    (href : ref.belongs r) (h : ∀ ty, r.Has ty → L.Asks (action ty) fun _ => True) :
    L.Asks (answering (lookupType ref >>= action))
      fun out => ∃ a, out = .ok a ∧ (sure → ∀ b ∈ none, a = b) :=
  .aside ((lookupType_asks href).bind h)

theorem Run.Logic.Asks.aboutTypes {refs : List TypeRef} {action : List TypeId → Run Answer}
    (hrefs : refs.all (·.belongs r))
    (h : ∀ types, (∀ ty ∈ types, r.Has ty) → L.Asks (action types) fun _ => True) :
    L.Asks (answering (lookupTypes refs >>= action))
      fun out => ∃ a, out = .ok a ∧ (sure → ∀ b ∈ none, a = b) :=
  .aside ((lookupTypes_asks hrefs).bind h)

theorem Run.Logic.Asks.aboutSymbol {ref : SymbolRef} {action : SymbolId → Run Answer}
    (href : ref.belongs r)
    (h : ∀ sym y, r.symbol? sym = some y → L.Asks (action sym) fun _ => True) :
    L.Asks (answering (lookupSymbol ref >>= action))
      fun out => ∃ a, out = .ok a ∧ (sure → ∀ b ∈ none, a = b) :=
  .aside ((lookupSymbol_asks href).bind fun sym ⟨y, hy⟩ => h sym y hy)

end

/-- **A command that asks** is answered, and where answers are sure it gets the answer that the store
would give with every class defined. -/
theorem execute_asks (V : Survey r load) (hthrown : r.ThrowsOlder) (hunsolved : r.Unsolved)
    (hb : r.types.size ≤ b) (hd : b ≤ d) {command : Command} (hquestion : command.isQuestion r b) :
    V.Asks (execute load d command) fun out =>
      ∃ a, out = .ok a ∧ (V.sure → ∀ b ∈ command.answerIn r, a = b) := by
  have hlevel : ∀ {ty}, r.Has ty → r.level ty < d := fun {ty} hty =>
    Nat.lt_of_lt_of_le (Nat.lt_of_le_of_lt (r.level_le ty) (Store.has_iff_lt.1 hty)) (hb.trans hd)
  have hrenders : r.rendersWithin b → r.rendersWithin d := by
    simp only [Store.rendersWithin, Bool.and_eq_true, decide_eq_true_eq]
    exact fun h => ⟨h.1, h.2.trans hd⟩
  have hcontains : ∀ {ty}, r.Has ty → ∀ elem, V.Asks (contains load d ty elem)
      fun b => V.sure → b = r.occurs elem ty :=
    fun hty elem => contains_asks V elem d _ (hlevel hty) hty
  cases command with
  | wellKnown => exact .aside (.pure trivial)
  | typeCount | describeStore => exact .aside (V.session.map fun _ _ => trivial)
  | displayOptions => exact .aside ((chosenOptions_asks V none).map fun _ _ => trivial)
  | emit => exact .aside ((V.logging _ _ _).bind fun _ _ => .pure trivial)
  | symbolInfo | describeSymbol | symbolName =>
    exact .aboutSymbol hquestion fun sym y hy => (V.symbolData hy).map fun _ _ => trivial
  | symbolType =>
    exact .aboutSymbol hquestion fun sym y hy =>
      ((V.symbolData hy).map (q := fun _ => True) fun _ _ => trivial).map fun _ _ => trivial
  | symbolFlags =>
    exact .aboutSymbol hquestion fun sym y hy => (symbolFlags_asks V hy).map fun _ _ => trivial
  | qualifiedName =>
    obtain ⟨href, hsize⟩ := Bool.and_eq_true_iff.1 hquestion
    have hsize : r.symbols.size ≤ b := of_decide_eq_true hsize
    refine .aboutSymbol href fun sym y hy => ?_
    have hlt := Store.symbol_lt hy
    exact (qualifiedName_asks V d sym hlt (by omega)).map fun _ _ => trivial
  | ask query ref =>
    cases ref with
    | named => cases hquestion
    | handle ty =>
      obtain ⟨hty, hanswer⟩ := Bool.and_eq_true_iff.1 hquestion
      replace hty : r.Has ty := of_decide_eq_true hty
      exact answering_asks (inquire_asks V hthrown hunsolved (hlevel hty) hty query hanswer)
  | accept =>
    exact .aboutType hquestion fun ty hty =>
      ((V.kindOf hty).map (q := fun _ => True) fun _ _ => trivial).map fun _ _ => trivial
  | data => exact .aboutType hquestion fun ty hty => (V.typeData hty).map fun _ _ => trivial
  | typesEqual =>
    obtain ⟨hleft, hright⟩ := Bool.and_eq_true_iff.1 hquestion
    refine .aboutType hleft fun a ha => (lookupType_asks hright).bind fun b hb => ?_
    exact (typesEqual_asks V d a b (hlevel ha) ha hb).map fun _ _ => trivial
  | contains ref elemRef =>
    obtain ⟨href, helem⟩ := Bool.and_eq_true_iff.1 hquestion
    cases ref with
    | named => cases href
    | handle =>
      cases elemRef with
      | named => cases helem
      | handle elem => exact answering_asks (.known (hcontains (of_decide_eq_true href) elem))
  | containsList =>
    obtain ⟨hrefs, helem⟩ := Bool.and_eq_true_iff.1 hquestion
    refine .aboutTypes hrefs fun types htypes => ?_
    refine (lookupType_asks helem).bind fun elem _ => ?_
    exact (Logic.Asks.anyM fun ty hty => hcontains (htypes ty hty) elem).map fun _ _ => trivial
  | containsSome =>
    obtain ⟨href, helems⟩ := Bool.and_eq_true_iff.1 hquestion
    refine .aboutType href fun ty hty => (lookupTypes_asks helems).bind fun elems _ => ?_
    exact (Logic.Asks.anyM fun elem _ => hcontains hty elem).map fun _ _ => trivial
  | isErroneousList =>
    refine .aboutTypes hquestion fun types htypes => ?_
    have hany : V.Asks (types.anyM (isErroneous load d)) _ := .anyM fun ty hty =>
      isErroneous_asks V d ty (hlevel (htypes ty hty)) (htypes ty hty)
    exact hany.map fun _ _ => trivial
  | removeBoundsList =>
    refine .aboutTypes hquestion fun types htypes => ?_
    have hbounds : V.Asks (types.mapM removeBounds) _ :=
      .mapM fun ty hty =>
        (wildcard?_asks V (htypes ty hty)).map (q := fun _ => True) fun _ _ => trivial
    exact hbounds.map fun _ _ => trivial
  | baseTypes =>
    refine .aboutTypes hquestion fun types htypes => ?_
    have hbases : V.Asks (types.mapM (baseType d)) _ :=
      .mapM fun ty hty => baseType_asks V hunsolved (hlevel (htypes ty hty)) (htypes ty hty)
    exact (hbases.map (q := fun _ => True) fun _ _ => trivial).bind fun _ _ => .pure trivial
  | keys =>
    refine .aboutTypes hquestion fun types htypes => ?_
    exact (keyReport_asks V fun ty hty => ⟨hlevel (htypes ty hty), htypes ty hty⟩).map
      fun _ _ => trivial
  | display | displayHandle =>
    obtain ⟨href, hwithin⟩ := Bool.and_eq_true_iff.1 hquestion
    refine .aboutType href fun ty hty => (chosenOptions_asks V _).bind fun options _ => ?_
    exact (renderWithin_asks V (hrenders hwithin) hty options).map fun _ _ => trivial
  | displayArgTypes =>
    obtain ⟨href, hwithin⟩ := Bool.and_eq_true_iff.1 hquestion
    refine .aboutType href fun ty hty => ?_
    exact (renderArgTypes_asks V (hrenders hwithin) (hlevel hty) hty _).map fun _ _ => trivial
  | displayList =>
    obtain ⟨hrefs, hwithin⟩ := Bool.and_eq_true_iff.1 hquestion
    refine .aboutTypes hrefs fun types htypes => ?_
    exact (renderList_asks V (hrenders hwithin) htypes).map fun _ _ => trivial
  | inspect =>
    obtain ⟨href, hwithin⟩ := Bool.and_eq_true_iff.1 hquestion
    exact .aboutType href fun ty hty =>
      inspect_asks V hthrown hunsolved (hrenders hwithin) (hlevel hty) hty
  | _ => cases hquestion

end RegionTypes

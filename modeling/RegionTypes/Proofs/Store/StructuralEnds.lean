import RegionTypes.Proofs.Loading.Texts
import RegionTypes.Proofs.Store.Identity
import RegionTypes.Proofs.Store.Outline

/-!
# Structural questions and rendering end

Substitution adds types while it goes through a type.  It never goes into what it has added: the
components of a type are fixed when the type is reached for the first time, and they lie at lower levels.
So it ends as the questions do that add nothing.

* `Stores` — a mapping that ends with a type of the store, now and later.
* `mapType_stores` — mapping a type ends if the mapping does for the components of the type.
* `substitute_stores` — **substitution ends**.
* `structural_recursions_end` — **no structural question nests deeper than the handle of its type**.
* `rendering_ends` — **rendering any type ends, under all options**.
-/

namespace RegionTypes

open Run

variable {start : Completer → Loader}

/-! ### Substitution -/

/-- The mapping returns a type that belongs to the store then, from whatever session it is applied in
after the given one; no outline is changed. -/
def Stores (s : Session) (action : Run TypeId) : Prop :=
  ∀ r : Session, s.store.Underlies r.store →
    action.Returns r fun image r' => r.store.Underlies r'.store ∧ r'.store.Has image

section

variable {o : Store} {s r : Session} {ty : TypeId} {data : TypeData} {depth : Nat}
  {f : TypeId → Run TypeId}

theorem Stores.later {action : Run TypeId} (h : Stores s action) (hr : s.store.Underlies r.store) :
    Stores r action :=
  fun t ht => h t (hr.trans ht)

theorem inTurn_of_stores (types : List TypeId) (hf : ∀ c ∈ types, Stores s (f c)) :
    ∃ images t, (stateless f).InTurn types images () s () t ∧ s.store.Underlies t.store ∧
      ∀ b ∈ images, t.store.Has b := by
  induction types generalizing s with
  | nil => exact ⟨[], s, .nil () s, .refl _, by simp⟩
  | cons c types ih =>
    obtain ⟨image, r, hrun, hr, hhas⟩ := hf c List.mem_cons_self s (.refl _)
    obtain ⟨images, t, hturn, ht, himages⟩ :=
      ih fun c' hc' => (hf c' (List.mem_cons_of_mem c hc')).later hr
    have hcall : (stateless f c).run () s = .ok (image, ()) r :=
      stateT_lift_eq_ok_iff.2 ⟨rfl, hrun⟩
    exact ⟨image :: images, t, .cons hcall hturn, hr.trans ht,
      List.forall_mem_cons.2 ⟨ht.has hhas, himages⟩⟩

/-- A mapping goes through the components of a type. -/
theorem exists_visits (start : Completer → Loader) (depth : Nat)
    (record : s.store.type? ty = some data)
    (hloaded : s.store.Loaded data.symbol.toList)
    (hf : ∀ c ∈ data.kind.components, Stores s (f c)) :
    ∃ types images t,
      Visits (completeSymbol start) (depth + 1) (stateless f) ty () s types images () t ∧
      s.store.Underlies t.store ∧ ∀ b ∈ images, t.store.Has b := by
  obtain ⟨symbol, erased, literal, kind⟩ := data
  cases kind with
  | classType info =>
    have hasks : (typeArguments (completeSymbol start) (depth + 1) ty).Yields s.store
        (· = info.typeArgs.getD []) := typeArguments_yields record rfl hloaded depth
    obtain ⟨args, r, hanswer, hr, rfl⟩ := hasks s (.refl _)
    obtain ⟨images, t, hturn, ht, himages⟩ :=
      inTurn_of_stores (info.outer :: (info.typeArgs.getD []).reverse) fun c hc =>
        (hf c (by simpa [Kind.components] using hc)).later hr
    exact ⟨_, images, t, .classType record rfl hanswer hturn, hr.trans ht, himages⟩
  | array =>
    obtain ⟨images, t, hturn, ht⟩ := inTurn_of_stores _ hf
    exact ⟨_, images, t, .array record rfl hturn, ht⟩
  | method info =>
    obtain ⟨front, r, hturn, hr, hfront⟩ :=
      inTurn_of_stores (info.params.reverse ++ [info.result]) fun c hc =>
        hf c (by simp only [Kind.components]; grind)
    obtain ⟨back, t, hturn', ht, hback⟩ :=
      inTurn_of_stores info.thrown.reverse fun c hc =>
        (hf c (by simp only [Kind.components]; grind)).later hr
    have hthrown := thrownTypes_run (d := 0) (hr.record record rfl) rfl
    refine ⟨_, _, t, .method record rfl hturn hthrown hturn', hr.trans ht, fun b hb => ?_⟩
    rcases List.mem_append.1 hb with hb | hb
    · exact ht.has (hfront b hb)
    · exact hback b hb
  | forAll =>
    obtain ⟨images, t, hturn, ht⟩ := inTurn_of_stores _ hf
    exact ⟨_, images, t, .forAll record rfl hturn, ht⟩
  | wildcard =>
    obtain ⟨images, t, hturn, ht⟩ := inTurn_of_stores _ hf
    exact ⟨_, images, t, .wildcard record rfl hturn, ht⟩
  | typeVar | captured => exact ⟨[], [], s, .leaf record (.inr rfl), .refl _, by simp⟩
  | _ => exact ⟨[], [], s, .leaf record (.inl rfl), .refl _, by simp⟩

/-- **Mapping a type ends** if the mapping does for the components of the type. -/
theorem mapType_stores (record : s.store.type? ty = some data)
    (hloaded : s.store.Loaded data.symbol.toList)
    (hf : ∀ c ∈ data.kind.components, Stores s (f c)) :
    ((mapType (completeSymbol start) (depth + 1) (stateless f) ty).run' ()).Returns s fun image s' =>
      s.store.Underlies s'.store ∧ s'.store.Has image := by
  obtain ⟨types, images, t, hvisits, ht, himages⟩ := exists_visits start depth record hloaded hf
  have hty : t.store.Has ty := ht.has (Store.has_iff.2 ⟨data, record⟩)
  obtain ⟨image, s', hrun, hends⟩ := hvisits.mapType_returns hty himages
  refine ⟨image, s', stateT_run'_eq_ok_iff.2 ⟨(), hrun⟩, ?_⟩
  cases hends with
  | kept => exact ⟨ht, hty⟩
  | rebuilt _ data' =>
    exact ⟨ht.trans (Store.underlies_pushType _ data'), Store.has_iff.2 ⟨data', by simp⟩⟩

/-! #### Pairs -/

namespace Substitution

variable {pairs : List (TypeId × TypeId)}

theorem symbolOf_yields (hty : o.Has ty) : (symbolOf ty).Yields o fun _ => True :=
  yields_typeData_of_has hty fun _ => yields_pure trivial

theorem find?_yields (symbol : Option SymbolId) (hpairs : ∀ p ∈ pairs, o.Has p.1 ∧ o.Has p.2) :
    (find? ty symbol pairs).Yields o fun target => ∀ b, target = some b → o.Has b := by
  induction pairs with
  | nil => exact yields_pure (by simp)
  | cons p pairs ih =>
    obtain ⟨⟨hsource, htarget⟩, hrest⟩ := List.forall_mem_cons.1 hpairs
    have hstands : (stands ty symbol p.1).Yields o fun _ => True := by
      unfold stands
      split
      · exact yields_pure trivial
      · cases symbol with
        | none => exact yields_pure trivial
        | some => exact (symbolOf_yields hsource).then fun _ => yields_pure trivial
    refine hstands.then fun found => ?_
    cases found with
    | true => exact yields_pure (by simp [htarget])
    | false => exact ih hrest

theorem replacement_yields (hty : o.Has ty) (hpairs : ∀ p ∈ pairs, o.Has p.1 ∧ o.Has p.2) :
    (replacement ⟨pairs⟩ ty).Yields o o.Has := by
  refine (symbolOf_yields hty).then fun symbol => ?_
  refine (find?_yields symbol hpairs).bind fun target htarget => yields_pure ?_
  cases target with
  | none => exact hty
  | some b => exact htarget b rfl

theorem without_yields {vars : List TypeId} (hvars : ∀ v ∈ vars, o.Has v)
    (hpairs : ∀ p ∈ pairs, o.Has p.1 ∧ o.Has p.2) :
    (without ⟨pairs⟩ vars).Yields o fun inner => inner.pairs ⊆ pairs := by
  have hsymbols : (yielding o).Asks (vars.mapM symbolOf) _ :=
    .mapM fun v hv => symbolOf_yields (hvars v hv)
  refine hsymbols.bind fun symbols _ => ?_
  refine (Logic.Asks.filterM fun p hp => ?_).bind fun kept hkept => yields_pure hkept
  have hhidden : (isHidden vars (symbols.filterMap id) p.1).Yields o fun _ => True := by
    rw [isHidden]
    split
    · exact yields_pure trivial
    · exact (symbolOf_yields (hpairs p hp).1).then fun _ => yields_pure trivial
  exact hhidden.then fun _ => yields_pure trivial

end Substitution

theorem Store.Underlies.components {t : Store} {data' : TypeData} (h : o.Underlies t)
    (record : o.type? ty = some data) (record' : t.type? ty = some data') :
    data'.kind.components = data.kind.components ∧ data'.symbol = data.symbol := by
  obtain ⟨symbol, erased, literal, kind⟩ := data
  cases kind with
  | classType info =>
    obtain ⟨info', hinfo', hinfo⟩ := h.classRecord record rfl
    obtain rfl := Option.mem_unique record' hinfo'
    have hargs : info'.typeArgs.getD [] = info.typeArgs.getD [] :=
      ClassInfo.getD_of_outline .typeArgs hinfo
    simp [Kind.components, ClassInfo.outer_of_outline hinfo, hargs]
  | _ =>
    obtain rfl := Option.some.inj (record'.symm.trans (h.record record rfl))
    exact ⟨rfl, rfl⟩

/-- **Substitution ends**, by induction along the steps.  The types that it adds are not gone into. -/
theorem substitute_stores (h : o.Settled) (hthrown : o.ThrowsOlder) :
    ∀ depth ty, o.level ty < depth → o.Has ty → ∀ pairs (s : Session), o.Underlies s.store →
      (∀ p ∈ pairs, s.store.Has p.1 ∧ s.store.Has p.2) →
      (substitute (completeSymbol start) depth ⟨pairs⟩ ty).Returns s fun image s' =>
        s.store.Underlies s'.store ∧ s'.store.Has image := by
  refine Store.level_induction fun depth ty hlevel hhas ih pairs s hs hpairs => ?_
  obtain ⟨data, record⟩ := Store.has_iff.1 hhas
  have hty : s.store.Has ty := hs.has hhas
  have hmap : ∀ inner ⊆ pairs, ∀ t : Session, s.store.Underlies t.store →
      ((mapType (completeSymbol start) (depth + 1)
        (stateless (substitute (completeSymbol start) depth ⟨inner⟩)) ty).run' ()).Returns t
        fun image s' => s.store.Underlies s'.store ∧ s'.store.Has image := by
    intro inner hinner t ht
    obtain ⟨data', record'⟩ := Store.has_iff.1 (ht.has hty)
    obtain ⟨hcomponents, hsymbol⟩ := (hs.trans ht).components record record'
    have hloaded : t.store.Loaded data'.symbol.toList := by
      rw [hsymbol]
      exact (hs.trans ht).loaded (h.loaded record)
    have hparts : ∀ c ∈ data'.kind.components,
        Stores t (substitute (completeSymbol start) depth ⟨inner⟩ c) := by
      intro c hc r hr
      rw [hcomponents] at hc
      obtain ⟨hhas, hlower⟩ := h.edge_lower record hthrown hc
      refine ih c (by omega) hhas inner r ((hs.trans ht).trans hr) fun p hp => ?_
      obtain ⟨hsource, htarget⟩ := hpairs p (hinner hp)
      exact ⟨(ht.trans hr).has hsource, (ht.trans hr).has htarget⟩
    exact (mapType_stores record' hloaded hparts).imp fun _ _ ⟨hs', himage⟩ => ⟨ht.trans hs', himage⟩
  rw [substitute]
  split
  · exact returns_pure ⟨.refl _, hty⟩
  · have hwhole := hmap pairs (List.Subset.refl _) s (.refl _)
    have hvar : (Substitution.replacement ⟨pairs⟩ ty).Returns s fun image s' =>
        s.store.Underlies s'.store ∧ s'.store.Has image :=
      (Substitution.replacement_yields hty hpairs s (.refl _)).imp
        fun _ _ ⟨hs', himage⟩ => ⟨hs', hs'.has himage⟩
    obtain ⟨symbol, erased, literal, kind⟩ := data
    cases kind with
    | classType =>
      obtain ⟨info', record', -⟩ := hs.classRecord record rfl
      exact .step (kindOf_run record') hwhole
    | typeVar | captured => exact .step (kindOf_run (hs.record record rfl)) hvar
    | forAll info =>
      have hvars : ∀ v ∈ info.typeVars, s.store.Has v := fun v hv =>
        hs.has (h.binders record hv)
      refine .step (kindOf_run (hs.record record rfl)) ?_
      refine (Substitution.without_yields hvars hpairs s (.refl _)).bind fun inner t ⟨ht, hinner⟩ => ?_
      split
      · exact returns_pure ⟨ht, ht.has hty⟩
      · exact hmap inner.pairs hinner t ht
    | _ => exact .step (kindOf_run (hs.record record rfl)) hwhole

end

/-! ### All structural questions -/

/-- All structural questions about a type end if they may nest so deeply: the search for errors, for a
type and for free variables, substitution, comparison with any type, hashing, the parameters along the
enclosing types, the arguments, and what is seen through quantifiers and placeholders. -/
structure EndsWithin (load : Loader) (depth : Nat) (s : Session) (ty : TypeId) : Prop where
  isErroneous : (isErroneous load depth ty).Ends s
  contains : ∀ elem, (contains load depth ty elem).Ends s
  freeTypeVars : (freeTypeVars load depth ty).Ends s
  substitute : ∀ pairs, (∀ p ∈ pairs, s.store.Has p.1 ∧ s.store.Has p.2) →
    (substitute load depth ⟨pairs⟩ ty).Ends s
  typesEqual : ∀ other, s.store.Has other → (typesEqual depth ty other).Ends s
  typeHash : (typeHash depth ty).Ends s
  allTypeParams : (allTypeParams load depth ty).Ends s
  allRegionParams : (allRegionParams load depth ty).Ends s
  allEffectParams : (allEffectParams load depth ty).Ends s
  typeArguments : (typeArguments load depth ty).Ends s
  regionArguments : (regionArguments load depth ty).Ends s
  effectArguments : (effectArguments load depth ty).Ends s
  enclosingType : (enclosingType depth ty).Ends s
  parameterTypes : (parameterTypes depth ty).Ends s
  returnType : (returnType depth ty).Ends s
  thrownTypes : (thrownTypes depth ty).Ends s
  callActuals : (callActuals depth ty).Ends s
  methodType? : (methodType? depth ty).Ends s
  upperBound : (upperBound depth ty).Ends s

/-- **No structural question nests deeper than the handle of its type.**  Let a store have grown out of a
new one by operations on handles of its own, without a class left to be loaded, such that all type
parameters of classes are variables and methods throw older types only.  Then every structural question
about a type ends if it may nest once more than the number of the type's handle, whatever the bounds of
variables, the supertypes, the cell types and the solutions of placeholders are. -/
theorem structural_recursions_end (options : DisplayOptions) (audience : Log.Filter) (s : Session)
    (hleads : (Session.initial options audience).Leads s) (hpending : s.store.NothingPending)
    (hparams : s.store.DeclaresVariables) (hthrown : s.store.ThrowsOlder) (ty : TypeId)
    (hty : s.store.Has ty) (n depth : Nat) (hdepth : ty.index + 1 ≤ depth) :
    EndsWithin (completerLoader n) depth s ty := by
  have h : s.store.Settled := ⟨hleads.consistent, hleads.anchored, hpending, hparams⟩
  have hlevel : s.store.level ty < depth := Nat.lt_of_le_of_lt (s.store.level_le ty) hdepth
  let V := h.survey fun completer => completer.run (perform n)
  have ends_of {α : Type} {action : Run α} {post : α → Prop} (hasks : V.Asks action post) :
      action.Ends s := Yields.ends hasks
  constructor
  case isErroneous => exact ends_of (isErroneous_asks V depth ty hlevel hty)
  case contains => exact fun elem => ends_of (contains_asks V elem depth ty hlevel hty)
  case freeTypeVars => exact ends_of (freeTypeVars_asks V hthrown hlevel hty)
  case substitute =>
    intro pairs hpairs
    obtain ⟨image, s', hrun, -⟩ :=
      substitute_stores h hthrown depth ty hlevel hty pairs s (.refl _) hpairs
    exact ⟨image, s', hrun⟩
  case typesEqual =>
    exact fun other hother => ends_of (typesEqual_asks V depth ty other hlevel hty hother)
  case typeHash => exact ends_of (typeHash_asks V depth ty hlevel hty)
  case allTypeParams => exact ends_of (allTypeParams_asks V depth ty hlevel hty)
  case allRegionParams => exact ends_of (allRegionParams_asks V depth ty hlevel hty)
  case allEffectParams => exact ends_of (allEffectParams_asks V depth ty hlevel hty)
  case typeArguments => exact ends_of (typeArguments_asks V depth ty hlevel hty)
  case regionArguments => exact ends_of (regionArguments_asks V depth ty hlevel hty)
  case effectArguments => exact ends_of (effectArguments_asks V depth ty hlevel hty)
  case enclosingType => exact ends_of (enclosingType_asks V hlevel hty)
  case parameterTypes => exact ends_of (parameterTypes_asks V hlevel hty)
  case returnType => exact ends_of (returnType_asks V hlevel hty)
  case thrownTypes => exact ends_of (thrownTypes_asks V hlevel hty)
  case callActuals => exact ends_of (callActuals_asks V hlevel hty)
  case methodType? => exact ends_of (methodType?_asks V hlevel hty)
  case upperBound => exact ends_of (upperBound_asks V hlevel hty)

/-- A session with a class `C` of a parameter `T` that extends `C<T>`, where `T` is bounded by `C<T>` and
this is its own cell type; a placeholder for `T` that is solved by itself; and a quantified method that
takes the placeholder, returns `C<T>` and throws it. -/
def circular : Session :=
  let run (s : Session) (command : Command) := (makeStep (perform 9) (none, command)).after s
  let declared := run (run (.initial {} .empty) (.newTypeVar "T" none none))
    (.declareClass "C" none .none none)
  let used := run declared (.classType (.handle ⟨12⟩) none [.handle ⟨12⟩] [] [] none false)
  let defined := run used (.defineClass (.handle ⟨13⟩) [.handle ⟨12⟩] [] [] (some (.handle ⟨14⟩)) [])
  let bounded := run (run defined (.setUpperBound (.handle ⟨12⟩) (.handle ⟨14⟩)))
    (.setCellType (.handle ⟨14⟩) (some (.handle ⟨14⟩)))
  let solved := run (run bounded (.placeholder (.handle ⟨12⟩)))
    (.setInstantiation (.handle ⟨15⟩) (.handle ⟨15⟩))
  run (run (run solved (.methodType [.handle ⟨15⟩] (.handle ⟨14⟩) []))
    (.setThrown (.handle ⟨16⟩) [.handle ⟨14⟩])) (.forAll [.handle ⟨12⟩] [] [] (.handle ⟨16⟩))

theorem circular_leads : (Session.initial {} .empty).Leads circular := by
  unfold circular
  exact .after_step _ _ (.after_step _ _ (.after_step _ _ (.after_step _ _ (.after_step _ _
    (.after_step _ _ (.after_step _ _ (.after_step _ _ (.after_step _ _ (.after_step _ _
      (.after_step _ _ (.refl _) rfl) rfl) rfl) rfl) rfl) rfl) rfl) rfl) rfl) rfl) rfl

/-- The quantified method, of which the bound, the supertype, the cell type and the solution lead back to
themselves. -/
theorem structural_recursions_end_circular :
    circular.store.NothingPending ∧ circular.store.DeclaresVariables ∧ circular.store.ThrowsOlder ∧
      EndsWithin (completerLoader 9) 18 circular ⟨17⟩ := by
  have hpending : circular.store.NothingPending := by decide +kernel
  have hparams : circular.store.DeclaresVariables := by decide +kernel
  have hthrown : circular.store.ThrowsOlder := by decide +kernel
  have hty : circular.store.Has ⟨17⟩ := by decide +kernel
  exact ⟨hpending, hparams, hthrown, structural_recursions_end {} .empty circular circular_leads hpending
    hparams hthrown ⟨17⟩ hty 9 18 (by decide)⟩

/-! ### Texts -/

/-- **Rendering any type ends, under all options.**  Let a store have grown out of a new one by operations
on handles of its own, without a class left to be loaded, such that all type parameters of classes are type
variables, every class that has been given supertypes has a name, and no placeholder is solved.  Then the
text of each of its types can be had, whatever the bounds of variables and the formals of wildcards are;
three times as deep as there are types, and once as there are symbols, is deep enough. -/
theorem rendering_ends (initial : DisplayOptions) (audience : Log.Filter) (s : Session)
    (hleads : (Session.initial initial audience).Leads s) (hpending : s.store.NothingPending)
    (hparams : s.store.DeclaresTypeVars) (hnamed : s.store.NamesClasses) (hunsolved : s.store.Unsolved)
    (options : DisplayOptions) (ty : TypeId) (hty : s.store.Has ty) (n depth : Nat)
    (hdepth : 3 * s.store.types.size + s.store.symbols.size ≤ depth) :
    (render (completerLoader n) depth options ty).Ends s := by
  have h : s.store.Settled :=
    ⟨hleads.consistent, hleads.anchored, hpending, hparams.declaresVariables⟩
  let V := h.survey fun completer => completer.run (perform n)
  exact Yields.ends (render_asks V ⟨hparams, hnamed, hunsolved⟩ hty hdepth options)

/-- A session with a class `C` of a parameter `T`, and with `T` bounded by `C<? extends C>`, where `T` is
the formal of the wildcard. -/
def selfBounded : Session :=
  let run (s : Session) (command : Command) := (makeStep (perform 9) (none, command)).after s
  let declared := run (run (.initial {} .empty) (.newTypeVar "T" none none))
    (.declareClass "C" none .none none)
  let defined := run declared (.defineClass (.handle ⟨13⟩) [.handle ⟨12⟩] [] [] none [])
  let shaped := run defined (.wildcard (.handle ⟨13⟩) .upper (some (.handle ⟨12⟩)))
  let used := run shaped (.classType (.handle ⟨12⟩) none [.handle ⟨14⟩] [] [] none false)
  run used (.setUpperBound (.handle ⟨12⟩) (.handle ⟨15⟩))

theorem selfBounded_leads : (Session.initial {} .empty).Leads selfBounded := by
  unfold selfBounded
  exact .after_step _ _ (.after_step _ _ (.after_step _ _ (.after_step _ _ (.after_step _ _
    (.after_step _ _ (.refl _) rfl) rfl) rfl) rfl) rfl) rfl

/-- The wildcard, whose text shows the bound of `T` and in it the wildcard again. -/
theorem rendering_ends_selfBounded :
    selfBounded.store.NothingPending ∧ selfBounded.store.DeclaresTypeVars ∧
      selfBounded.store.NamesClasses ∧ selfBounded.store.Unsolved ∧
      ∀ options, (render (completerLoader 9) 61 options ⟨14⟩).Ends selfBounded := by
  have hpending : selfBounded.store.NothingPending := by decide +kernel
  have hparams : selfBounded.store.DeclaresTypeVars := by decide +kernel
  have hnamed : selfBounded.store.NamesClasses := by decide +kernel
  have hunsolved : selfBounded.store.Unsolved := by decide +kernel
  have hty : selfBounded.store.Has ⟨14⟩ := by decide +kernel
  have hdepth : 3 * selfBounded.store.types.size + selfBounded.store.symbols.size ≤ 61 := by
    decide +kernel
  exact ⟨hpending, hparams, hnamed, hunsolved, fun options => rendering_ends {} .empty selfBounded
    selfBounded_leads hpending hparams hnamed hunsolved options ⟨14⟩ hty 9 61 hdepth⟩

end RegionTypes

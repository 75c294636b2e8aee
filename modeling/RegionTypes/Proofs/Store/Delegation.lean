import RegionTypes.Proofs.Loading.Reading
import RegionTypes.Proofs.Store.Identity
import RegionTypes.Proofs.Store.Refusal
import RegionTypes.Store.Inquiry

/-!
# Types that stand for others

A placeholder stands for the type that it was made from, its origin, and a quantified declaration around a
method type for the method.  Both may be nested.  What is asked about them is asked about the type inside,
one level deeper, and what is written through a quantified declaration is written to the method: there is
one record, so whatever handle it is written through, every handle shows it.

* `Store.PassesOn` — a chain of types, each with the next one inside it.
* `Query.passedOn` — the questions that a placeholder passes on.
* `placeholder_answers_as_origin` — **along any chain of placeholders these questions are answered as
  for the type at its end**; the region arguments are not asked for there, a placeholder has none.
* `Session.Shows`, `exhibits_of_method` — what a handle on a method type answers: its record.
* `Session.RewritesMethod`, `rewritesMethod_of_update` — a session in which one method type has another
  record and nothing else is different.
* `quantifiers_transparent` — **quantifiers are transparent**, for questions and for updates.
-/

namespace RegionTypes

open Run

/-- What a placeholder stands for. -/
def Kind.origin? : Kind → Option TypeId
  | placeholder info => some info.origin
  | _ => none

/-- From a type through so many types of some kind, each to the one inside it. -/
inductive Store.PassesOn (s : Store) (inner : Kind → Option TypeId) : TypeId → Nat → TypeId → Prop
  | here (ty : TypeId) : PassesOn s inner ty 0 ty
  | there {ty next last : TypeId} {data : TypeData} {n : Nat} (hdata : s.type? ty = some data)
      (hinner : inner data.kind = some next) (h : PassesOn s inner next n last) :
    PassesOn s inner ty (n + 1) last

variable {ty : TypeId} {n : Nat}

/-- **What each type passes on reaches the end of the chain**, with less depth left. -/
theorem Store.PassesOn.along {α : Type} {inner : Kind → Option TypeId} {s : Session} {last : TypeId}
    (h : s.store.PassesOn inner ty n last) (question : Nat → TypeId → Run α)
    (hstep : ∀ depth ty next data, s.store.type? ty = some data → inner data.kind = some next →
      question (depth + 1) ty s = question depth next s)
    (depth : Nat) :
    question (depth + n) ty s = question depth last s := by
  induction h with
  | here => rfl
  | there hdata hinner _ ih => exact (hstep _ _ _ _ hdata hinner).trans ih

/-! ### Placeholders -/

theorem Kind.eq_of_origin? {k : Kind} (h : k.origin? = some ty) :
    ∃ info, k = .placeholder info ∧ info.origin = ty := by
  cases k with
  | placeholder info => exact ⟨info, rfl, Option.some.inj h⟩
  | _ => cases h

/-- The questions that a placeholder passes on to its origin. -/
def Query.passedOn : List Query :=
  [typeArguments, effectArguments, allTypeParams, enclosingType, parameterTypes, returnType,
    thrownTypes, upperBound, isErroneous]

section

variable (load : Loader) {s : Session} {u next : TypeId} {data : TypeData} {info : PlaceholderInfo}

theorem inquire_origin {query : Query} (h : query ∈ Query.passedOn)
    (hdata : s.store.type? u = some data) (hinner : data.kind.origin? = some next) (depth : Nat) :
    inquire load (depth + 1) u query s = inquire load depth next query s := by
  obtain ⟨info, hkind, rfl⟩ := Kind.eq_of_origin? hinner
  have hdeclared {β : Type} (slot : Slot β) (vars : ForAllInfo → List β) :
      declaredArguments load slot vars (depth + 1) u s =
        declaredArguments load slot vars depth info.origin s := by
    rw [declaredArguments, bind_run (typeData_run hdata), hkind]
  have hfollowed {α : Type} (last : TypeId → Kind → Run α) :
      followed Kind.leadsTo last (depth + 1) u s = followed Kind.leadsTo last depth info.origin s := by
    rw [followed, bind_run (kindOf_run hdata), hkind]
    rfl
  simp only [Query.passedOn, List.mem_cons, List.not_mem_nil, or_false] at h
  rcases h with rfl | rfl | rfl | rfl | rfl | rfl | rfl | rfl | rfl
  all_goals refine bind_run_congr ?_ fun _ _ _ => rfl
  · exact hdeclared .typeArgs _
  · exact hdeclared .effectArgs _
  · rw [allTypeParams, bind_run (typeData_run hdata), hkind]
  · exact hfollowed _
  · exact hfollowed _
  · exact hfollowed _
  · exact hfollowed _
  · exact hfollowed _
  · rw [isErroneous, bind_run (typeData_run hdata), hkind]

end

/-- **A placeholder answers like its origin.**  Let a chain of placeholders lead from `u` to `o`.  The
questions that are passed on do for `u` what they do for `o`, in every session: they return the same
answer in the same session, or come to the same stop.  They need the depth of the chain more.

The region arguments of a placeholder are not those of its origin: there are none, and the owner region
is `Root`.  So these two questions are answered as for `o` exactly where that is the answer for `o`. -/
theorem placeholder_answers_as_origin (load : Loader) (s : Session) {u o : TypeId} {n : Nat}
    (h : s.store.PassesOn Kind.origin? u (n + 1) o) :
    (∀ query ∈ Query.passedOn, ∀ depth,
      inquire load (depth + (n + 1)) u query s = inquire load depth o query s) ∧
    ∀ depth, regionArguments load (depth + 1) u s = .ok [] s ∧
      ownerRegion load (depth + 1) u s = .ok Path.root s := by
  refine ⟨fun query hquery => ?_, fun depth => ?_⟩
  · exact h.along (fun depth ty => inquire load depth ty query) fun depth _ _ _ hdata hinner =>
      inquire_origin load hquery hdata hinner depth
  · cases h with
    | there hdata hinner =>
      obtain ⟨info, hkind, -⟩ := Kind.eq_of_origin? hinner
      -- Region arguments are those of the placeholder itself, which has none.
      have hnone : regionArguments load (depth + 1) u s = .ok [] s := by
        rw [regionArguments, bind_run (typeData_run hdata), hkind]
        rfl
      exact ⟨hnone, bind_run hnone⟩

/-- A session with a class that has a parameter of each kind, a placeholder for it, and a placeholder for
that placeholder. -/
def inferredClass : Session :=
  .afterCommands
    [.declareClass "C" none .none none,
      .newTypeVar "T" none none,
      .defineClass (.handle ⟨12⟩) [.handle ⟨13⟩] [⟨[.param "R"]⟩] [.pure] none [],
      .placeholder (.handle ⟨12⟩),
      .placeholder (.handle ⟨14⟩)]

/-- The type and effect arguments are those of the class, the regions are not. -/
theorem placeholder_answers_as_origin_twice :
    inferredClass.store.PassesOn Kind.origin? ⟨15⟩ 2 ⟨12⟩ ∧
      inquire (completerLoader 8) 5 ⟨15⟩ .typeArguments inferredClass =
        .ok (.types [⟨13⟩]) inferredClass ∧
      inquire (completerLoader 8) 5 ⟨15⟩ .effectArguments inferredClass =
        .ok (.effects [.pure]) inferredClass ∧
      regionArguments (completerLoader 8) 3 ⟨15⟩ inferredClass = .ok [] inferredClass := by
  have hchain : inferredClass.store.PassesOn Kind.origin? ⟨15⟩ 2 ⟨12⟩ :=
    .there rfl rfl (.there rfl rfl (.here _))
  obtain ⟨hpassed, hregions⟩ :=
    placeholder_answers_as_origin (completerLoader 8) inferredClass hchain
  exact ⟨hchain, (hpassed .typeArguments (by decide) 3).trans rfl,
    (hpassed .effectArguments (by decide) 3).trans rfl, (hregions 2).1⟩

/-- The class has a region parameter and the placeholder for it has none. -/
theorem placeholder_lacks_regions :
    regionArguments (completerLoader 8) 8 ⟨12⟩ inferredClass =
        .ok [⟨[.param "R"]⟩] ((regionArguments (completerLoader 8) 8 ⟨12⟩).after inferredClass) ∧
      regionArguments (completerLoader 8) 8 ⟨14⟩ inferredClass = .ok [] inferredClass ∧
      ownerRegion (completerLoader 8) 8 ⟨14⟩ inferredClass = .ok Path.root inferredClass :=
  ⟨rfl, rfl, rfl⟩

/-! ### Quantified methods -/

theorem Kind.eq_of_body? {k : Kind} (h : k.body? = some ty) :
    ∃ info, k = .forAll info ∧ info.body = ty := by
  cases k with
  | forAll info => exact ⟨info, rfl, Option.some.inj h⟩
  | _ => cases h

/-- What is asked about a handle on a method type is answered with the method and its record. -/
structure Session.Shows (s : Session) (load : Loader) (depth : Nat) (handle method : TypeId)
    (info : MethodInfo) : Prop where
  parameterTypes : RegionTypes.parameterTypes depth handle s = .ok info.params s
  returnType : RegionTypes.returnType depth handle s = .ok (some info.result) s
  thrownTypes : RegionTypes.thrownTypes depth handle s = .ok info.thrown s
  callActuals : RegionTypes.callActuals depth handle s = .ok (info.actuals.getD {}) s
  methodType? : RegionTypes.methodType? depth handle s = .ok (some method) s
  asMethodType : RegionTypes.asMethodType load depth handle s = .ok method s

/-- Every handle on the method type shows the record: the method type itself and quantifiers around it to
any depth. -/
def Session.Exhibits (s : Session) (load : Loader) (method : TypeId) (info : MethodInfo) : Prop :=
  ∀ handle n, s.store.PassesOn Kind.body? handle n method → ∀ depth, n < depth →
    s.Shows load depth handle method info

/-- One method type of the session before has another record in the session after.  All else is the same,
the handles on each type included. -/
structure Session.RewritesMethod (s : Session) (method : TypeId) (s' : Session) : Prop where
  others : ∀ ty, ty ≠ method → s'.store.type? ty = s.store.type? ty
  handles : ∀ ty n last,
    s'.store.PassesOn Kind.body? ty n last ↔ s.store.PassesOn Kind.body? ty n last
  rest : { s' with store := { s'.store with types := s.store.types } } = s

section

variable {load : Loader} {s : Session} {m : TypeId} {data : TypeData} {info : MethodInfo}
  (hdata : s.store.type? m = some data) (hkind : data.kind = .method info)

include hdata hkind

/-- What quantifiers pass on to their bodies reaches the method. -/
theorem eq_at_method {α : Type} {rest : Nat → TypeId → Kind → Run α} {w : TypeId} {depth : Nat}
    (hw : s.store.PassesOn Kind.body? w n m) (hdepth : n < depth) (action : Nat → TypeId → Run α)
    (heq : ∀ d ty, action (d + 1) ty = kindOf ty >>= rest d ty)
    (hbody : ∀ d ty info, rest d ty (.forAll info) = action d info.body) :
    action depth w s = rest (depth - n - 1) m (.method info) s := by
  have halong : action (depth - n - 1 + 1 + n) w s = action (depth - n - 1 + 1) m s := by
    refine hw.along action (fun d ty next data hdata hinner => ?_) _
    obtain ⟨info, hkind, rfl⟩ := Kind.eq_of_body? hinner
    rw [heq, bind_run (kindOf_run hdata), hkind, hbody]
  rw [show depth = depth - n - 1 + 1 + n by omega, halong, heq, bind_run (kindOf_run hdata), hkind]
  simp

/-- **Every handle on a method type shows its record.** -/
theorem exhibits_of_method : s.Exhibits load m info := by
  intro w n hw depth hdepth
  have hmethod : methodType? depth w s = .ok (some m) s :=
    (eq_at_method hdata hkind hw hdepth _ (fun _ _ => rfl) fun _ _ _ => rfl).trans rfl
  refine ⟨?_, ?_, ?_, ?_, hmethod, bind_run hmethod⟩
  all_goals exact (eq_at_method hdata hkind hw hdepth _ (fun _ _ => rfl) fun _ _ _ => rfl).trans rfl

end

/-! #### Updates -/

theorem Store.passesOn_reviseType {t : Store} {m last : TypeId} (f : MethodInfo → MethodInfo) :
    (t.reviseType m (·.mapMethod f)).PassesOn Kind.body? ty n last ↔
      t.PassesOn Kind.body? ty n last := by
  have hlook : ∀ a, ((t.reviseType m (·.mapMethod f)).type? a).map (·.kind.body?) =
      (t.type? a).map (·.kind.body?) := by
    intro a
    rw [reviseType, type?_updateType]
    split
    · have hbody : ∀ kind : Kind, (kind.mapMethod f).body? = kind.body? := by
        intro kind
        cases kind <;> rfl
      simp [Option.map_map, Function.comp_def, hbody]
    · rfl
  have hcopy {t t' : Store} (h : ∀ a, (t'.type? a).map (·.kind.body?) = (t.type? a).map (·.kind.body?))
      (hchain : t.PassesOn Kind.body? ty n last) : t'.PassesOn Kind.body? ty n last := by
    induction hchain with
    | here => exact .here _
    | @there ty _ _ found _ hfound hinner _ ih =>
      have hsome := h ty
      rw [hfound, Option.map_some, hinner] at hsome
      obtain ⟨found', hfound', hinner'⟩ := Option.map_eq_some_iff.1 hsome
      exact .there hfound' hinner' ih
  exact ⟨hcopy fun a => (hlook a).symm, hcopy hlook⟩

/-- **Writing to the record of a method type** is seen through every handle on it, and nowhere else. -/
theorem rewritesMethod_of_update (load : Loader) {s : Session} {m : TypeId} {data : TypeData}
    {info : MethodInfo} (hdata : s.store.type? m = some data) (hkind : data.kind = .method info)
    (f : MethodInfo → MethodInfo) :
    ∃ s', updateKind m (·.mapMethod f) s = .ok () s' ∧ s.RewritesMethod m s' ∧
      s'.Exhibits load m (f info) := by
  have hdata' : (s.store.reviseType m (·.mapMethod f)).type? m =
      some { data with kind := .method (f info) } := by
    rw [Store.reviseType, Store.type?_updateType, if_pos rfl, hdata, Option.map_some, hkind]
    rfl
  refine ⟨{ s with store := s.store.reviseType m (·.mapMethod f) }, rfl, ⟨?_, ?_, rfl⟩,
    exhibits_of_method hdata' rfl⟩
  · intro ty hne
    exact (s.store.type?_updateType m ty _).trans (if_neg (Ne.symm hne))
  · exact fun ty n last => Store.passesOn_reviseType f

/-- **Quantifiers are transparent.**  Let `m` be a method type.  Each of its handles, the method type itself
or quantifiers around it to any depth, shows its record.  Replacing the thrown types through a handle
always succeeds, and recording actuals through a handle succeeds exactly if none have been recorded for
`m`.  Every handle shows what was written, and no other type changes: not those that a mapping made of
any type, which are new. -/
theorem quantifiers_transparent (load : Loader) {s : Session} {m : TypeId} {data : TypeData}
    {info : MethodInfo} (hdata : s.store.type? m = some data) (hkind : data.kind = .method info) :
    s.Exhibits load m info ∧
    (∀ w n, s.store.PassesOn Kind.body? w n m → ∀ depth, n < depth →
      (∀ thrown, ∃ s', setThrown load depth w thrown s = .ok () s' ∧ s.RewritesMethod m s' ∧
        s'.Exhibits load m { info with thrown }) ∧
      ∀ actuals,
        ((∃ s', recordActuals load depth w actuals s = .ok (.ok ()) s') ↔ info.actuals = none) ∧
        ∀ s', recordActuals load depth w actuals s = .ok (.ok ()) s' →
          s.RewritesMethod m s' ∧ s'.Exhibits load m { info with actuals := some actuals }) ∧
    ∀ {σ : Type} (f : Mapping σ) (u u' : σ) (depth : Nat) (ty image : TypeId) (t t' : Session),
      (∀ sym, Along Store.Expands (load sym)) → (∀ a, AlongState Store.Expands (f a)) →
        (mapType load depth f ty).run u t = .ok (image, u') t' → image ≠ ty → ¬ t.store.Has image := by
  refine ⟨exhibits_of_method hdata hkind, fun w n hw depth hdepth => ⟨?_, ?_⟩, ?_⟩
  · intro thrown
    obtain ⟨s', hrun, hwritten⟩ := rewritesMethod_of_update load hdata hkind fun info => { info with thrown }
    refine ⟨s', Eq.trans ?_ hrun, hwritten⟩
    exact eq_at_method hdata hkind hw hdepth (fun depth ty => setThrown load depth ty thrown)
      (fun _ _ => rfl) fun _ _ _ => rfl
  · intro actuals
    obtain ⟨s', hrun, hwritten⟩ := rewritesMethod_of_update load hdata hkind
      fun info => { info with actuals := some actuals }
    rw [eq_at_method hdata hkind hw hdepth (fun depth ty => recordActuals load depth ty actuals)
      (fun _ _ => rfl) fun _ _ _ => rfl]
    cases hactuals : info.actuals with
    | some =>
      have hrefused : ∀ t, alreadySet load (depth - n - 1 + 1) .callActuals m s ≠ .ok (.ok ()) t := by
        intro t hok
        obtain ⟨text, t', -, hend⟩ := exists_of_bind hok
        cases hend
      simp only [hactuals]
      refine ⟨⟨?_, fun h => by cases h⟩, fun t hok => absurd hok (hrefused t)⟩
      rintro ⟨t, hok⟩
      exact absurd hok (hrefused t)
    | none =>
      have hrecorded : (do
          updateKind m (·.mapMethod fun info => { info with actuals := some actuals })
          return .ok () : Run (Except TypeError Unit)) s = .ok (.ok ()) s' := bind_run hrun
      dsimp only
      rw [hactuals]
      refine ⟨⟨fun _ => rfl, fun _ => ⟨s', hrecorded⟩⟩, fun t hok => ?_⟩
      obtain rfl := (EStateM.Result.ok.inj (hrecorded.symm.trans hok)).2
      exact hwritten
  · intro σ f u u' depth ty image t t' hload hf hrun hne
    obtain ⟨types, images, r, hvisits, hend⟩ := exists_visits_of_mapType hrun
    exact (hend.identity hvisits.has (hvisits.expands hload hf)).2 hne

/-- A session with a method type, a quantifier around it, another one around that, and the method type
that substitution makes of the first. -/
def quantifiedMethod : Session :=
  .afterCommands
    [.newTypeVar "T" none none,
      .methodType [.handle ⟨12⟩] (.handle WellKnown.int) [],
      .forAll [.handle ⟨12⟩] [] [] (.handle ⟨13⟩),
      .forAll [] [] [] (.handle ⟨14⟩),
      .subst (.handle ⟨13⟩) [.handle ⟨12⟩] [.handle WellKnown.int]]

/-- What is thrown through the outer quantifier is thrown by the method and the inner one, and not by the
copy.  Another copy is new, and actuals can be recorded through the inner one. -/
theorem quantifiers_transparent_nested :
    (∃ s', setThrown (completerLoader 8) 9 ⟨15⟩ [WellKnown.int] quantifiedMethod = .ok () s' ∧
      thrownTypes 9 ⟨14⟩ s' = .ok [WellKnown.int] s' ∧ thrownTypes 9 ⟨13⟩ s' = .ok [WellKnown.int] s' ∧
      s'.store.type? ⟨16⟩ = quantifiedMethod.store.type? ⟨16⟩) ∧
    (quantifiedMethod.store.type? ⟨16⟩).isSome ∧
    (∃ s', recordActuals (completerLoader 8) 9 ⟨14⟩ {} quantifiedMethod = .ok (.ok ()) s') ∧
    ¬ quantifiedMethod.store.Has ⟨17⟩ := by
  have hself : quantifiedMethod.store.PassesOn Kind.body? ⟨13⟩ 0 ⟨13⟩ := .here _
  have hinner : quantifiedMethod.store.PassesOn Kind.body? ⟨14⟩ 1 ⟨13⟩ := .there rfl rfl hself
  have houter : quantifiedMethod.store.PassesOn Kind.body? ⟨15⟩ 2 ⟨13⟩ := .there rfl rfl hinner
  have hmethod : quantifiedMethod.store.type? ⟨13⟩ = some _ := rfl
  obtain ⟨-, hhandles, hmapped⟩ := quantifiers_transparent (completerLoader 8) hmethod rfl
  refine ⟨?_, rfl, ?_, ?_⟩
  · obtain ⟨s', hrun, hrewrites, hshows⟩ :=
      (hhandles ⟨15⟩ 2 houter 9 (by decide)).1 [WellKnown.int]
    exact ⟨s', hrun, (hshows ⟨14⟩ 1 ((hrewrites.handles _ _ _).2 hinner) 9 (by decide)).thrownTypes,
      (hshows ⟨13⟩ 0 (.here _) 9 (by decide)).thrownTypes, hrewrites.others ⟨16⟩ (by decide)⟩
  · exact ((hhandles ⟨14⟩ 1 hinner 9 (by decide)).2 {}).1.2 rfl
  · refine hmapped (stateless fun _ => pure WellKnown.int) () () 9 ⟨13⟩ ⟨17⟩ quantifiedMethod _
      (completerLoader_expands 8).load (fun _ _ => along_pure _) rfl (by decide)

end RegionTypes

import RegionTypes.Proofs.Loading.Survey

/-!
# The questions that load classes

Each question about a store that can be surveyed is answered, and where answers are sure it gets the
answer that the store would give with all its classes defined.

* `typeArguments_asks`, `regionArguments_asks`, `effectArguments_asks` — the argument lists.
* `allTypeParams_asks`, ... — the parameters along the enclosing types, which are remembered.
* `isErroneous_asks`, `contains_asks`, `collectFree_asks` — the questions that go through a type;
  the level of the type bounds their depth.
-/

namespace RegionTypes

open Run

variable {r : Store} {load : Loader} {ty : TypeId} {d : Nat} {symbol : Option SymbolId}
  {erased : Bool} {literal : Option Literal} {full : ClassInfo} {β : Type} {data : TypeData}

section

variable (V : Survey r load)

/-! ### Arguments -/

theorem declaredArguments_asks {slot : Slot β} (hslot : slot.Declared) (vars : ForAllInfo → List β) :
    V.Answers (declaredArguments load slot vars) (r.declaredArgumentsOf slot.read vars) := by
  refine Store.level_induction fun d ty hd hty ih => ?_
  rw [Store.declaredArgumentsOf, Store.descend_eq]
  refine (V.typeData hty).bind fun data ⟨_, hfull, hfound⟩ => ?_
  rw [Store.kind?_eq hfull]
  cases hfound with
  | classType => exact (V.declaredList hslot hfull).imp fun _ h => h.2
  | @other _ _ _ kind hkind =>
    cases kind with
    | classType => cases hkind
    | placeholder => exact V.part ih hd hfull List.mem_cons_self
    | _ => exact .pure fun _ => rfl

theorem typeArguments_asks : V.Answers (typeArguments load) r.typeArgumentsOf :=
  declaredArguments_asks V .typeArgs _

theorem effectArguments_asks : V.Answers (effectArguments load) r.effectArgumentsOf :=
  declaredArguments_asks V .effectArgs _

theorem typeArguments_class_asks
    (hfull : r.type? ty = some ⟨symbol, erased, literal, .classType full⟩) :
    V.Asks (typeArguments load (d + 1) ty) fun l =>
      (l = full.typeArgs.getD [] ∨ l = []) ∧ (V.sure → l = full.typeArgs.getD []) := by
  refine (V.typeData (Store.has_iff.2 ⟨_, hfull⟩)).bind fun data ⟨_, hfull', hfound⟩ => ?_
  obtain rfl := Option.mem_unique hfull hfull'
  cases hfound with
  | classType => exact V.declaredList .typeArgs hfull
  | other hkind => cases hkind

theorem thrownTypes_method_asks {info : MethodInfo}
    (hfull : r.type? ty = some ⟨symbol, erased, literal, .method info⟩) :
    V.Asks (thrownTypes (d + 1) ty) fun l => l = info.thrown := by
  refine (V.kindOf (Store.has_iff.2 ⟨_, hfull⟩)).bind fun _ ⟨data, _, hfull', hfound, hkind⟩ => ?_
  subst hkind
  obtain rfl := Option.mem_unique hfull hfull'
  cases hfound with
  | other => exact .pure rfl

theorem regionArguments_asks : V.Answers (regionArguments load) r.regionArgumentsOf := by
  refine Store.level_induction fun d ty hd hty ih => ?_
  refine (V.typeData hty).bind fun data ⟨_, hfull, hfound⟩ => ?_
  have hmeaning : r.regionArgumentsOf ty = _ := Store.descend_eq [] _ ty
  rw [hfull] at hmeaning
  cases hfound with
  | @classType symbol erased literal full info _ hkept =>
    dsimp only at hmeaning ⊢
    cases hlist : info.resolvedRegions with
    | some list => exact .pure (hkept .resolvedRegions list hlist)
    | none =>
      refine (V.declaredList .regionArgs hfull).bind fun declared ⟨_, hdeclared⟩ => ?_
      have hremember : ∀ {list}, (V.sure → list = r.resolvedRegionsOf (r.descendBelow [] _ ty) ty
          ⟨symbol, erased, literal, .classType full⟩ declared) →
          V.Asks (remember .resolvedRegions ty list) fun l => V.sure → l = r.regionArgumentsOf ty :=
        fun hlist => V.remember .resolvedRegions hfull fun hsure => by
          rw [hlist hsure, hmeaning, hdeclared hsure]
          rfl
      by_cases hgiven : (erased || !declared.isEmpty) = true
      · rw [if_pos hgiven]
        exact hremember fun _ => by rw [Store.resolvedRegionsOf, if_pos hgiven]
      · rw [if_neg hgiven]
        refine (V.canonicalType hfull).bind fun canonical hcanonical => ?_
        cases canonical with
        | none =>
          refine hremember fun _ => ?_
          rw [Store.resolvedRegionsOf, if_neg hgiven, ← hcanonical]
        | some c =>
          dsimp only
          by_cases heq : c = ty
          · rw [if_pos heq]
            refine hremember fun _ => ?_
            rw [Store.resolvedRegionsOf, if_neg hgiven, ← hcanonical]
            exact (if_pos heq).symm
          · rw [if_neg heq]
            obtain ⟨hhas, hlt⟩ := V.settled.canonical hfull rfl hcanonical.symm heq
            refine (ih c (by omega) hhas).bind fun formals hformals => hremember fun hsure => ?_
            rw [Store.resolvedRegionsOf, if_neg hgiven, ← hcanonical, hformals hsure]
            dsimp only
            rw [if_neg heq, Store.descendBelow_eq hlt]
            rfl
  | @other _ _ _ kind hkind =>
    rw [hmeaning]
    cases kind with
    | classType => cases hkind
    | _ => exact .pure fun _ => rfl

/-! ### Parameters along the enclosing types -/

/-- The list of a class is put behind that of the type around it, and both are remembered together. -/
theorem accumulated_asks {slot : Slot β} {value : TypeId → List β} {own outer : Run (List β)}
    {l around : List β} (hslot : slot.Means r value)
    (hfull : r.type? ty = some ⟨symbol, erased, literal, .classType full⟩)
    (hown : V.Asks own fun l' => V.sure → l' = l)
    (houter : V.Asks outer fun l' => V.sure → l' = around) (hvalue : value ty = around ++ l) :
    V.Asks (do
      let own ← own
      let outer ← outer
      remember slot ty (outer ++ own)) fun l => V.sure → l = value ty := by
  refine hown.bind fun own hown => houter.bind fun outer houter => ?_
  refine V.remember hslot hfull fun hsure => ?_
  rw [hvalue, hown hsure, houter hsure]

theorem allTypeParams_asks : V.Answers (allTypeParams load) r.allTypeParamsOf := by
  refine Store.level_induction fun d ty hd hty ih => ?_
  refine (V.typeData hty).bind fun data ⟨_, hfull, hfound⟩ => ?_
  have hmeaning : r.allTypeParamsOf ty = _ := Store.descend_eq [] _ ty
  rw [Store.kind?_eq hfull] at hmeaning
  cases hfound with
  | @classType _ _ _ full info houter hkept =>
    dsimp only at hmeaning ⊢
    cases hlist : info.allTypeParams with
    | some list => exact .pure (hkept .allTypeParams list hlist)
    | none =>
      rw [houter]
      exact accumulated_asks V .allTypeParams hfull
        ((V.declaredList .typeArgs hfull).imp fun _ h => h.2)
        (V.part ih hd hfull List.mem_cons_self) hmeaning
  | @other _ _ _ kind hkind =>
    rw [hmeaning]
    cases kind with
    | classType => cases hkind
    | array | forAll | placeholder => exact V.part ih hd hfull List.mem_cons_self
    | _ => exact .pure fun _ => rfl

theorem allRegionParams_asks : V.Answers (allRegionParams load) r.allRegionParamsOf := by
  refine Store.level_induction fun d ty hd hty ih => ?_
  refine (V.kindOf hty).bind fun _ ⟨data, _, hfull, hfound, hkind⟩ => ?_
  subst hkind
  have hmeaning : r.allRegionParamsOf ty = _ := Store.descend_eq [] _ ty
  rw [Store.kind?_eq hfull] at hmeaning
  cases hfound with
  | @classType _ _ _ full info houter hkept =>
    dsimp only at hmeaning ⊢
    cases hlist : info.allRegionParams with
    | some list => exact .pure (hkept .allRegionParams list hlist)
    | none =>
      rw [houter]
      exact accumulated_asks V .allRegionParams hfull (regionArguments_asks V (d + 1) ty hd hty)
        (V.part ih hd hfull List.mem_cons_self) hmeaning
  | @other _ _ _ kind hkind =>
    rw [hmeaning]
    cases kind with
    | classType => cases hkind
    | _ => exact .pure fun _ => rfl

theorem allEffectParams_asks : V.Answers (allEffectParams load) r.allEffectParamsOf := by
  refine Store.level_induction fun d ty hd hty ih => ?_
  refine (V.kindOf hty).bind fun _ ⟨data, _, hfull, hfound, hkind⟩ => ?_
  subst hkind
  have hmeaning : r.allEffectParamsOf ty = _ := Store.descend_eq [] _ ty
  have hargs : r.effectArgumentsOf ty = _ := Store.descend_eq [] _ ty
  rw [Store.kind?_eq hfull] at hmeaning hargs
  cases hfound with
  | @classType _ _ _ full info houter hkept =>
    dsimp only at hmeaning hargs ⊢
    cases hlist : info.allEffectParams with
    | some list => exact .pure (hkept .allEffectParams list hlist)
    | none =>
      have hlt := (V.settled.inspected hfull (c := full.outer) List.mem_cons_self).2
      have hne : full.outer ≠ ty := fun heq => Nat.lt_irrefl _ (heq ▸ hlt)
      rw [houter]
      simp only [if_neg hne]
      exact accumulated_asks V .allEffectParams hfull (effectArguments_asks V (d + 1) ty hd hty)
        (V.part ih hd hfull List.mem_cons_self) (by rw [hmeaning, hargs])
  | @other _ _ _ kind hkind =>
    rw [hmeaning]
    cases kind with
    | classType => cases hkind
    | _ => exact .pure fun _ => rfl

/-! ### How a class type is used -/

theorem isParameterized_asks : V.Answers (isParameterized load) r.parameterized := by
  refine Store.level_induction fun d ty hd hty ih => ?_
  refine (V.kindOf hty).bind fun _ ⟨data, _, hfull, hfound, hkind⟩ => ?_
  subst hkind
  rw [Store.parameterized, Store.descend_eq, Store.kind?_eq hfull]
  cases hfound with
  | classType =>
    refine (allTypeParams_asks V (d + 1) ty hd hty).map fun params hparams hsure => ?_
    rw [hparams hsure]
  | @other _ _ _ kind hkind =>
    cases kind with
    | classType => cases hkind
    | array => exact V.part ih hd hfull List.mem_cons_self
    | _ => exact .pure fun _ => rfl

/-- Whether a class has parameters, as far as a list of them says so. -/
theorem hasParams_asks {params : Run (List β)} {l : List β} (hty : r.Has ty)
    (h : V.Asks params fun l' => V.sure → l' = l) :
    V.Asks (do
      match ← kindOf ty with
      | .classType _ => return !(← params).isEmpty
      | _ => return false) fun b => V.sure → b = match r.kind? ty with
        | some (.classType _) => !l.isEmpty
        | _ => false := by
  refine (V.kindOf hty).bind fun _ ⟨data, _, hfull, hfound, hkind⟩ => ?_
  subst hkind
  rw [Store.kind?_eq hfull]
  cases hfound with
  | classType =>
    refine h.map fun l' hl' hsure => ?_
    rw [hl' hsure]
  | @other _ _ _ kind hkind =>
    cases kind with
    | classType => cases hkind
    | _ => exact .pure fun _ => rfl

theorem isRaw_asks : V.Answers (isRaw load) r.raw := by
  refine Store.level_induction fun d ty hd hty ih => ?_
  refine (V.typeData hty).bind fun data ⟨_, hfull, hfound⟩ => ?_
  rw [Store.raw, Store.descend_eq, hfull]
  cases hfound with
  | classType =>
    refine (V.canonicalType hfull).bind fun canonical hcanonical => ?_
    dsimp only at hcanonical ⊢
    rw [← hcanonical]
    cases canonical with
    | none => exact .pure fun _ => rfl
    | some c =>
      dsimp only
      by_cases heq : c = ty
      · rw [if_pos heq, if_pos heq]
        exact .pure fun _ => rfl
      · rw [if_neg heq, if_neg heq]
        obtain ⟨hhas, hlt⟩ := V.settled.canonical hfull rfl hcanonical.symm heq
        refine (allTypeParams_asks V (d + 1) c (by omega) hhas).bind fun formals hformals => ?_
        cases hempty : formals.isEmpty with
        | true => exact .pure fun hsure => by rw [← hformals hsure, hempty]; rfl
        | false =>
          refine (allTypeParams_asks V (d + 1) ty hd hty).map fun actuals hactuals hsure => ?_
          rw [← hformals hsure, ← hactuals hsure, hempty]
          rfl
  | @other _ _ _ kind hkind =>
    cases kind with
    | classType => cases hkind
    | array => exact V.part ih hd hfull List.mem_cons_self
    | _ => exact .pure fun _ => rfl

/-! ### Questions that go through a type -/

variable {V} {f : TypeId → Run Bool} {step : (TypeId → Bool) → TypeId → Bool}

/-- The type arguments that a question has found: all of them, or perhaps none if it is not sure. -/
theorem Survey.mem_inspected {l : List TypeId}
    (hl : (l = full.typeArgs.getD [] ∨ l = []) ∧ (V.sure → l = full.typeArgs.getD [])) :
    ∀ c ∈ l, c ∈ (Kind.classType full).inspected := by
  obtain rfl | rfl := hl.1
  · exact fun c hc => List.mem_cons_of_mem _ hc
  · exact fun c hc => absurd hc List.not_mem_nil

section

variable
  (ih : ∀ c, r.level c < d → r.Has c → V.Asks (f c) fun b => V.sure → b = r.descend false step c)

include ih

theorem Survey.anyPart {l : List TypeId}
    (hd : r.level ty < d + 1) (hdata : r.type? ty = some data) (hl : ∀ c ∈ l, c ∈ data.kind.inspected) :
    V.Asks (l.anyM f) fun b => V.sure → b = l.any (r.descendBelow false step ty) :=
  .anyM fun c hc => V.part ih hd hdata (hl c hc)

theorem Survey.anyArg {l : List TypeId}
    (hd : r.level ty < d + 1) (hfull : r.type? ty = some ⟨symbol, erased, literal, .classType full⟩)
    (hl : (l = full.typeArgs.getD [] ∨ l = []) ∧ (V.sure → l = full.typeArgs.getD [])) :
    V.Asks (l.anyM f) fun b =>
      V.sure → b = (full.typeArgs.getD []).any (r.descendBelow false step ty) := by
  refine (V.anyPart ih hd hfull (V.mem_inspected hl)).imp fun b hb hsure => ?_
  rw [hb hsure, hl.2 hsure]

theorem Survey.anyParam {info : MethodInfo}
    (hd : r.level ty < d + 1) (hfull : r.type? ty = some ⟨symbol, erased, literal, .method info⟩) :
    V.Asks (do if ← info.params.anyM f then return true else f info.result) fun b =>
      V.sure → b = (info.params.any (r.descendBelow false step ty) ||
        r.descendBelow false step ty info.result) := by
  have hparams : ∀ c ∈ info.params, c ∈ (Kind.method info).inspected :=
    fun c hc => List.mem_append_left _ hc
  refine (V.anyPart ih hd hfull hparams).bind fun b hb => ?_
  cases b with
  | true => exact .pure fun hsure => by rw [← hb hsure, Bool.true_or]
  | false =>
    have hresult : info.result ∈ (Kind.method info).inspected :=
      List.mem_append_right _ List.mem_cons_self
    refine (V.part ih hd hfull hresult).imp fun b' hb' hsure => ?_
    rw [← hb hsure, Bool.false_or, hb' hsure]

end

variable (V)

theorem isErroneous_asks : V.Answers (isErroneous load) r.erroneous := by
  refine Store.level_induction fun d ty hd hty ih => ?_
  refine (V.typeData hty).bind fun data ⟨_, hfull, hfound⟩ => ?_
  rw [Store.erroneous, Store.descend_eq, hfull]
  cases hfound with
  | @classType _ _ _ full info houter _ =>
    dsimp only
    rw [houter]
    refine (V.part ih hd hfull List.mem_cons_self).bind fun b hb => ?_
    cases b with
    | true => exact .pure fun hsure => by rw [← hb hsure, Bool.true_or, Bool.true_or]
    | false =>
      refine (V.declaredList .typeArgs hfull).bind fun l hl => ?_
      refine (V.anyArg ih hd hfull hl).bind fun b' hb' => ?_
      cases b' with
      | true => exact .pure fun hsure => by rw [← hb' hsure, Bool.or_true, Bool.true_or]
      | false =>
        refine (V.canonicalType hfull).bind fun canonical hcanonical => ?_
        dsimp only at hcanonical ⊢
        rw [← hcanonical]
        cases canonical with
        | none => exact .pure fun hsure => by rw [← hb hsure, ← hb' hsure]; rfl
        | some c =>
          dsimp only
          by_cases heq : c = ty
          · rw [if_pos heq, if_pos heq]
            exact .pure fun hsure => by rw [← hb hsure, ← hb' hsure]; rfl
          · rw [if_neg heq, if_neg heq]
            obtain ⟨hhas, hlt⟩ := V.settled.canonical hfull rfl hcanonical.symm heq
            refine (ih c (by omega) hhas).imp fun b'' hb'' hsure => ?_
            rw [← hb hsure, ← hb' hsure, Store.descendBelow_eq hlt]
            exact hb'' hsure
  | @other _ _ _ kind hkind =>
    cases kind with
    | classType => cases hkind
    | array | forAll | placeholder => exact V.part ih hd hfull List.mem_cons_self
    | method => exact V.anyParam ih hd hfull
    | _ => exact .pure fun _ => rfl

theorem contains_asks (elem : TypeId) : V.Answers (contains load · · elem) (r.occurs elem) := by
  refine Store.level_induction fun d ty hd hty ih => ?_
  unfold contains
  rw [Store.occurs, Store.descend_eq]
  dsimp only
  by_cases heq : ty = elem
  · rw [if_pos heq, decide_eq_true heq]
    exact .pure fun _ => rfl
  · rw [if_neg heq, decide_eq_false heq, Bool.false_or]
    refine (V.typeData hty).bind fun data hdata => ?_
    obtain ⟨_, hfull, hfound⟩ := hdata
    rw [Store.kind?_eq hfull]
    cases hfound with
    | @classType _ _ _ full info houter _ =>
      dsimp only
      refine (isParameterized_asks V (d + 1) ty hd hty).bind fun b hb => ?_
      cases b with
      | false => exact .pure fun hsure => by rw [← hb hsure, Bool.false_and]
      | true =>
        rw [houter]
        refine (V.part ih hd hfull List.mem_cons_self).bind fun b' hb' => ?_
        cases b' with
        | true => exact .pure fun hsure => by rw [← hb hsure, ← hb' hsure, Bool.true_or]; rfl
        | false =>
          refine (V.declaredList .typeArgs hfull).bind fun l hl => ?_
          refine (V.anyArg ih hd hfull hl).imp fun b'' hb'' hsure => ?_
          rw [← hb hsure, ← hb' hsure, Bool.true_and, Bool.false_or, hb'' hsure]
    | @other _ _ _ kind hkind =>
      cases kind with
      | classType => cases hkind
      | array | forAll => exact V.part ih hd hfull List.mem_cons_self
      | method => exact V.anyParam ih hd hfull
      | _ => exact .pure fun _ => rfl

/-- The variables found so far are known only where answers are sure, so what is collected may go on
from any list that is the right one there.  Free variables are looked for in all components. -/
theorem collectFree_asks (hthrown : r.ThrowsOlder) (d : Nat) : ∀ ty, r.level ty < d → r.Has ty →
    ∀ bound found found', (V.sure → found = found') →
      V.Asks (collectFree load d bound found ty) fun l => V.sure → l = r.freeVars ty bound found' := by
  apply Store.level_induction
  intro d ty hd hty ih bound found found' hfound
  rw [Store.freeVars, Store.descend_eq, Store.freeVarsStep]
  refine (V.kindOf hty).bind fun _ ⟨data, _, hfull, hshown, hkind⟩ => ?_
  subst hkind
  rw [Store.kind?_eq hfull]
  let go := r.descendBelow (fun _ found => found) r.freeVarsStep ty
  have hpart : ∀ c ∈ data.kind.components, ∀ bound found found', (V.sure → found = found') →
      V.Asks (collectFree load d bound found c) fun l => V.sure → l = go c bound found' := by
    intro c hc bound found found' hfound
    obtain ⟨hhas, hlt⟩ := V.settled.edge_lower hfull hthrown hc
    refine (ih c (by omega) hhas bound found found' hfound).imp fun l hl hsure => ?_
    rw [hl hsure, show go c = _ from Store.descendBelow_eq hlt]
    rfl
  have hparts : ∀ {l : List TypeId}, (∀ c ∈ l, c ∈ data.kind.components) →
      ∀ found found', (V.sure → found = found') →
      V.Asks (l.foldlM (collectFree load d bound) found) fun l' =>
        V.sure → l' = l.foldl (fun found c => go c bound found) found' :=
    fun hl => Logic.Asks.foldlM fun c hc found found' => hpart c (hl c hc) bound found found'
  cases hshown with
  | @classType _ _ _ full info houter _ =>
    dsimp only
    rw [houter]
    refine (hpart _ List.mem_cons_self bound found found' hfound).bind fun found₁ hfound₁ => ?_
    refine (typeArguments_class_asks V hfull).bind fun l hl => ?_
    refine (hparts (V.mem_inspected hl) found₁ _ hfound₁).imp fun l' hl' hsure => ?_
    rw [hl' hsure, hl.2 hsure]
  | @other _ _ _ kind hkind =>
    cases kind with
    | classType => cases hkind
    | wildcard | array | forAll => exact hpart _ List.mem_cons_self _ _ _ hfound
    | typeVar | captured =>
      refine .pure fun hsure => ?_
      rw [hfound hsure]
    | method info =>
      refine (hparts (fun c hc => List.mem_append_left _ hc) found found' hfound).bind
        fun found₁ hfound₁ => ?_
      refine (hpart info.result (List.mem_append_right _ List.mem_cons_self) bound found₁ _
        hfound₁).bind fun found₂ hfound₂ => ?_
      refine (thrownTypes_method_asks V hfull).bind fun thrown hthrown => ?_
      subst hthrown
      refine hparts (fun c hc => ?_) found₂ _ hfound₂
      exact List.mem_append_right _ (List.mem_cons_of_mem _ hc)
    | _ => exact .pure hfound

end

end RegionTypes

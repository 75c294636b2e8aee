import RegionTypes.Proofs.Store.ContainmentOrder

/-!
# Damage is permanent

A class that could not be loaded stays damaged, and so do the types that involve it.  The question
whether such a type is erroneous is never answered with no; where the search for errors does not come
back and nothing on its way has to be loaded, it is answered with yes.

* `Session.Erroneous` — a type is erroneous, whoever asks.
* `damage_permanent` — **damage is permanent and total**.
* `damaged_use_unanswered` — a type of a damaged class for which the question has no answer.
-/

namespace RegionTypes

open Run

/-- The search goes on to lower types, if the type parameters of classes are variables. -/
theorem Store.Settled.not_circles {s : Store} (h : s.Settled) (ty : TypeId) : ¬ s.Circles ty := by
  rintro ⟨a, -, hcycle⟩
  refine Store.not_transGen_self s.level (fun b c hstep => ?_) a hcycle
  obtain ⟨data, hdata⟩ := Store.exists_of_mem_consulted hstep
  rcases (Store.mem_consulted hdata).1 hstep with hinspected | ⟨info, hkind, hcanonical, hne⟩
  · exact (h.inspected hdata hinspected).2
  · exact (h.canonical hdata hkind hcanonical hne).2

/-- The type is erroneous in the session: asking, with whatever nesting allowed, never gives the
answer no.  If the session has been led to through handles of the store, asking gives the answer yes where
nothing is pending and the type parameters of classes are variables; and elsewhere too, as long as the
search comes neither to a type that has to be loaded nor back to one where it has been. -/
structure Session.Erroneous (s : Session) (ty : TypeId) : Prop where
  never_no : ∀ n depth s', isErroneous (completerLoader n) depth ty s ≠ .ok false s'
  yes : ∀ options audience, (Session.initial options audience).Leads s → s.store.NothingPending →
    s.store.DeclaresVariables → ∀ n depth, s.store.types.size ≤ depth →
      (isErroneous (completerLoader n) depth ty).Affirms s
  found : ∀ options audience, (Session.initial options audience).Leads s →
    (∀ a, Relation.ReflTransGen s.store.Consults ty a → s.store.atHand a) → ¬ s.store.Circles ty →
      ∀ n depth, s.store.types.size ≤ depth → (isErroneous (completerLoader n) depth ty).Affirms s

theorem Store.Faulty.erroneous {s : Session} {ty : TypeId} (h : s.store.Faulty ty) :
    s.Erroneous ty where
  never_no n _ _ := isErroneous_ne_false (completerLoader_later n) h
  yes options audience hleads hpending hparams n depth hdepth := by
    have hsettled : s.store.Settled := ⟨hleads.consistent, hleads.anchored, hpending, hparams⟩
    have hsearch := searchable_of_not_circles hleads.consistent hleads.wellFormed hpending h.has
      (hsettled.not_circles ty)
    exact h.affirms hleads.consistent hsearch n hdepth
  found options audience hleads hatHand hcircles n depth hdepth :=
    h.affirms hleads.consistent ⟨hatHand, fun a ha hcycle => hcircles ⟨a, ha, hcycle⟩⟩ n hdepth

/-- **Damage is permanent and total.**  Every command leads to a later state.  Once a class is damaged,
in every later state its type is an error type, its kind is the error kind, it has no members, and
every class type of it is erroneous, as is every type that is found to contain one.  A type that was
once found erroneous is erroneous in every later state. -/
theorem damage_permanent {sym : SymbolId} {error : TypeId} {s₀ s : Session}
    (hdamage : damage sym s₀ = .ok error s) :
    (∀ (t : Session) depth command, t.store.Later ((perform depth command).after t).store) ∧
    (∀ t : Session, s.store.Later t.store →
      (∃ y ty, t.store.symbol? sym = some y ∧ y.kind = .error ∧ y.members.toList = [] ∧
        y.type = some ty ∧ t.store.IsErrorType ty) ∧
      ∀ c data info, t.store.type? c = some data → data.kind = .classType info →
        data.symbol = some sym →
          t.Erroneous c ∧
          ∀ n depth ty t', contains (completerLoader n) depth ty c t = .ok true t' →
            ∀ u : Session, t'.store.Later u.store → u.Erroneous ty) ∧
    ∀ n depth ty r r', isErroneous (completerLoader n) depth ty r = .ok true r' →
      ∀ u : Session, r'.store.Later u.store → u.Erroneous ty := by
  refine ⟨fun t depth command => perform_later depth command t, fun t hlater => ?_,
    fun n depth ty r r' hrun u hu => ?_⟩
  · have hdamaged := hlater.damaged (damaged_of_damage hdamage)
    refine ⟨?_, fun c data info hdata hkind hsym => ?_⟩
    · obtain ⟨y, ty, hy, hkind, hmembers, htype, herror⟩ := hdamaged
      exact ⟨y, ty, hy, hkind, by rw [hmembers]; rfl, htype, herror⟩
    · have hfaulty := hdamaged.faulty hdata hkind hsym
      refine ⟨hfaulty.erroneous, fun n depth ty t' hrun u hu => ?_⟩
      have hload := completerLoader_later n
      have hlater' := (contains_along hload depth ty c).of_ok hrun
      have hcontains := faulty_of_contains hload hrun (hfaulty.later hlater'.precedes)
      exact (hcontains.later hu.precedes).erroneous
  · have hfaulty := faulty_of_isErroneous (completerLoader_later n) hrun
    exact (hfaulty.later hu.precedes).erroneous

/-- A class that has a use of its own before it is damaged.  A member is entered and another class type
is made after that. -/
theorem damage_permanent_uses :
    let run (s : Session) (command : Command) := (makeStep (perform 9) (none, command)).after s
    let use : Command := .classType (.handle ⟨11⟩) none [] [] [] none false
    let s₀ := run (run (.initial {} .empty) (.declareClass "C" none .none none)) use
    let s := run s₀ (.errorTypeForClass (.handle ⟨11⟩))
    let t := run (run s (.enterMember (.handle ⟨11⟩) (.handle ⟨3⟩))) use
    (isErroneous (completerLoader 8) 20 ⟨13⟩).answer? s₀ = some false ∧
      damage ⟨11⟩ s₀ = .ok ⟨14⟩ s ∧ s.store.Later t.store ∧
      (∃ y, t.store.symbol? ⟨11⟩ = some y ∧ y.kind = .error ∧ y.members.toList = []) ∧
      (Session.initial {} .empty).Leads t ∧ t.store.NothingPending ∧ t.store.DeclaresVariables ∧
      ∀ c ∈ [12, 13, 15], (isErroneous (completerLoader 8) 20 ⟨c⟩).Affirms t := by
  intro run use s₀ s t
  have hbefore : (isErroneous (completerLoader 8) 20 ⟨13⟩).answer? s₀ = some false := by
    decide +kernel
  have hrun : ∀ (r : Session) command, r.store.Later (run r command).store := fun r command =>
    makeStep_along (perform_later 9 command) r
  have hdamage : damage ⟨11⟩ s₀ = .ok ⟨14⟩ s := rfl
  have hlater : s.store.Later t.store := (hrun s _).trans (hrun _ use)
  have hleads : (Session.initial {} .empty).Leads t :=
    .after_step _ _ (.after_step _ _ (.after_step _ _ (.after_step _ _ (.after_step _ _ (.refl _)
      rfl) rfl) rfl) rfl) rfl
  have hpending : t.store.NothingPending := by decide +kernel
  have hparams : t.store.DeclaresVariables := by decide +kernel
  have hclasses : ∀ c ∈ [12, 13, 15], (t.store.type? ⟨c⟩).any fun data =>
      data.kind.class?.isSome && data.symbol = some ⟨11⟩ := by decide +kernel
  have hdepth : t.store.types.size ≤ 20 := by decide +kernel
  obtain ⟨-, hdamaged, -⟩ := damage_permanent hdamage
  obtain ⟨⟨y, _, hy, hkind, hmembers, -⟩, hclass⟩ := hdamaged t hlater
  refine ⟨hbefore, hdamage, hlater, ⟨y, hy, hkind, hmembers⟩, hleads, hpending, hparams, fun c hc => ?_⟩
  have hfound := hclasses c hc
  simp only [Option.any_eq_true, Bool.and_eq_true, Option.isSome_iff_exists,
    decide_eq_true_eq] at hfound
  obtain ⟨data, hdata, ⟨info, hinfo⟩, hsym⟩ := hfound
  obtain ⟨herroneous, -⟩ := hclass ⟨c⟩ data info hdata (Kind.class?_eq_some.1 hinfo) hsym
  exact herroneous.yes {} .empty hleads hpending hparams 8 20 hdepth

/-- **A question without an answer.**  The class `S` is damaged, but whether its use is erroneous is not
answered, however deeply the search may nest: it is still on its way through the type argument. -/
theorem damaged_use_unanswered :
    (∃ data info, knotted.store.type? ⟨17⟩ = some data ∧ data.kind = .classType info ∧
      data.symbol = some ⟨12⟩) ∧ knotted.store.Damaged ⟨12⟩ ∧ knotted.store.NothingPending ∧
      ∀ n depth found s', isErroneous (completerLoader n) depth ⟨17⟩ knotted ≠ .ok found s' := by
  have hrecord : ∃ data info, knotted.store.type? ⟨17⟩ = some data ∧ data.kind = .classType info ∧
      data.symbol = some ⟨12⟩ ∧ info.outer = WellKnown.missing := ⟨_, _, rfl, rfl, rfl, rfl⟩
  obtain ⟨data, info, hdata, hkind, hsym, houter⟩ := hrecord
  refine ⟨⟨data, info, hdata, hkind, hsym⟩, ⟨_, ⟨16⟩, rfl, rfl, rfl, rfl, _, rfl, _, rfl⟩,
    knotted_pending, fun n depth found s' hrun => ?_⟩
  obtain _ | _ | depth := depth
  · cases hrun
  · -- there is no room to look at what encloses the type
    rw [isErroneous, bind_run (typeData_run hdata)] at hrun
    simp only [hkind] at hrun
    cases hrun
  have hmissing : isErroneous (completerLoader n) (depth + 1) WellKnown.missing knotted =
      .ok false knotted := rfl
  have hargs : declaredList (completerLoader n) .typeArgs ⟨17⟩ data.symbol knotted =
      .ok [⟨13⟩] knotted := rfl
  have hunanswered : ∀ found s', ([⟨13⟩] : List TypeId).anyM (isErroneous (completerLoader n) (depth + 1))
      knotted ≠ .ok found s' := by
    intro found s' hany
    obtain ⟨_, _, hfirst, -⟩ := exists_of_bind hany
    exact knotted_unanswered _ _ _ _ hfirst
  have hanswer := classAnswer_of_isErroneous hdata hkind hrun
  rw [← houter] at hmissing
  cases hanswer with
  | outer h =>
    rw [hmissing] at h
    cases h
  | arg h h' h'' | canonical h h' h'' | own h h' h'' =>
    rw [hmissing] at h
    obtain ⟨-, rfl⟩ := EStateM.Result.ok.inj h
    rw [hargs] at h'
    obtain ⟨rfl, rfl⟩ := EStateM.Result.ok.inj h'
    exact hunanswered _ _ h''

end RegionTypes

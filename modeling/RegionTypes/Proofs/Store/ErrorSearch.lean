import RegionTypes.Proofs.Completion.Issued
import RegionTypes.Proofs.Store.Consistent
import RegionTypes.Proofs.Store.Damage

/-!
# The search for errors in a type

The question whether a type is erroneous searches the structure of the type for error types.  It goes
into enclosing types and type arguments of class types, elements of arrays, parameters and results of
methods, bodies of quantified types and origins of placeholders, and from a class type to the canonical
type of its class.  It goes neither into the bounds of wildcards nor into the types that methods throw.

* `Store.Consults`, `Store.faulty_iff` — the steps of the search; a type is faulty exactly if they lead
  to an error type.
* `Store.Inspects`, `Store.Edge.inspects_or` — the steps that lead to components, and which components
  are left out.
* `Store.Searchable`, `Store.Searchable.endsIn` — a search that does not come back ends.
* `isErroneous_ne_false_of_circles` — a search that comes back never has the answer no.
* `errors_found` — **the search finds the errors that it can reach**: those in all components other than
  bounds of wildcards and thrown types.
* `error_in_wildcard_bound` — errors in these are not found.
-/

namespace RegionTypes

open Run

/-- What is looked at in a type is a component of it, or it was needed to make the type. -/
theorem Kind.mem_components_or_ingredients {k : Kind} {next : TypeId} (h : next ∈ k.inspected) :
    next ∈ k.components ∨ next ∈ k.ingredients := by
  cases k with
  | method =>
    refine .inr (List.mem_cons.2 ?_)
    rcases List.mem_append.1 h with hparam | hresult
    · exact .inr hparam
    · exact .inl (List.mem_singleton.1 hresult)
  | placeholder => exact .inr h
  | classType | array | forAll => exact .inl h
  | _ => cases h

namespace Store

variable {s t : Store} {ty a b : TypeId} {data : TypeData}

/-! ### Where the search leads -/

/-- One step of the search. -/
def Consults (s : Store) (a b : TypeId) : Prop := b ∈ s.consulted a

/-- **A type is faulty exactly if the search leads to an error type.** -/
theorem faulty_iff : s.Faulty ty ↔ ∃ e, Relation.ReflTransGen s.Consults ty e ∧ s.IsErrorType e := by
  constructor
  · intro h
    induction h with
    | @error ty herror => exact ⟨ty, .refl, herror⟩
    | consulted hstep _ ih =>
      obtain ⟨e, hreach, herror⟩ := ih
      exact ⟨e, .head hstep hreach, herror⟩
  · rintro ⟨e, hreach, herror⟩
    induction hreach using Relation.ReflTransGen.head_induction_on with
    | refl => exact .error herror
    | head hstep _ ih => exact .consulted hstep ih

/-- One step from a type to a component that the search goes into. -/
def Inspects (s : Store) (a b : TypeId) : Prop :=
  ∃ data, s.type? a = some data ∧ b ∈ data.kind.components ∧ b ∈ data.kind.inspected

instance (s : Store) (a b : TypeId) : Decidable (s.Inspects a b) :=
  inferInstanceAs (Decidable (∃ data ∈ s.type? a, b ∈ data.kind.components ∧ b ∈ data.kind.inspected))

theorem Inspects.consults (h : s.Inspects a b) : s.Consults a b := by
  obtain ⟨data, hdata, -, hinspected⟩ := h
  exact (mem_consulted hdata).2 (.inl hinspected)

theorem faulty_of_inspects {e : TypeId} (h : Relation.ReflTransGen s.Inspects ty e)
    (herror : s.IsErrorType e) : s.Faulty ty :=
  faulty_iff.2 ⟨e, Relation.ReflTransGen.mono (fun _ _ => Inspects.consults) _ _ h, herror⟩

/-- The components that the search does not go into are bounds of wildcards and thrown types. -/
theorem Edge.inspects_or (h : s.Edge a b) : s.Inspects a b ∨
    ∃ data, s.type? a = some data ∧ ((∃ info, data.kind = .wildcard info ∧ b = info.bound) ∨
      ∃ info, data.kind = .method info ∧ b ∈ info.thrown) := by
  obtain ⟨data, hdata, hb⟩ := h
  by_cases hinspected : b ∈ data.kind.inspected
  · exact .inl ⟨data, hdata, hb, hinspected⟩
  · refine .inr ⟨data, hdata, ?_⟩
    cases hkind : data.kind with
    | wildcard info =>
      rw [hkind] at hb
      exact .inl ⟨info, rfl, List.mem_singleton.1 hb⟩
    | method info =>
      rw [hkind] at hb hinspected
      refine .inr ⟨info, rfl, ?_⟩
      simp only [Kind.components, Kind.inspected, List.mem_append, List.mem_cons, List.not_mem_nil,
        or_false] at hb hinspected
      rcases hb with hparam | hresult | hthrown
      · exact absurd (.inl hparam) hinspected
      · exact absurd (.inr hresult) hinspected
      · exact hthrown
    | classType | array | forAll =>
      rw [hkind] at hb hinspected
      exact absurd hb hinspected
    | _ =>
      rw [hkind] at hb
      cases hb

/-! ### The search ends -/

/-- Nothing that a search from the type leads to has to be loaded, and no search comes back from there
to where it has started. -/
structure Searchable (s : Store) (ty : TypeId) : Prop where
  atHand : ∀ a, Relation.ReflTransGen s.Consults ty a → s.atHand a
  grounded : ∀ a, Relation.ReflTransGen s.Consults ty a → ¬ Relation.TransGen s.Consults a a

theorem Searchable.of_consults (h : s.Searchable a) (hstep : s.Consults a b) : s.Searchable b where
  atHand c hc := h.atHand c (.head hstep hc)
  grounded c hc := h.grounded c (.head hstep hc)

theorem Consistent.has_of_consults (hs : s.Consistent) (h : s.Consults a b) : s.Has b := by
  obtain ⟨data, hdata⟩ := exists_of_mem_consulted h
  rcases (mem_consulted hdata).1 h with hinspected | ⟨info, -, hcanonical, -⟩
  · rcases Kind.mem_components_or_ingredients hinspected with hcomponent | hingredient
    · exact (hs.types a data hdata).closed b hcomponent
    · exact hs.has_ingredient hdata hingredient
  · obtain ⟨sym, -, hsym⟩ := Option.bind_eq_some_iff.1 hcanonical
    obtain ⟨y, hy, htype⟩ := Option.bind_eq_some_iff.1 hsym
    obtain ⟨found, hfound, -⟩ := (hs.symbols sym y hy).canonical b htype
    exact has_iff.2 ⟨found, hfound⟩

/-- **Every search ends** that does not come back, within as many steps as there are types. -/
theorem Searchable.endsIn (h : s.Searchable ty) (hs : s.Consistent) {n : Nat}
    (hcard : (s.reached s.Consults ty).card < n) : s.endsIn n ty := by
  induction n generalizing ty with
  | zero => exact absurd hcard (Nat.not_lt_zero _)
  | succ n ih =>
    rw [Store.endsIn, Bool.and_eq_true, List.all_eq_true]
    refine ⟨h.atHand ty .refl, fun next hnext => ?_⟩
    -- fewer types are left to be reached from there
    have hnextSearchable := h.of_consults hnext
    have hlt := card_reached_lt (hnextSearchable.grounded next .refl) (hs.has_of_consults hnext) hnext
    exact ih hnextSearchable (by omega)

/-- A search that ends is one that does not come back. -/
theorem searchable_of_endsIn {n : Nat} (h : s.endsIn n ty) : s.Searchable ty := by
  induction n generalizing ty with
  | zero => cases h
  | succ n ih =>
    rw [Store.endsIn, Bool.and_eq_true, List.all_eq_true] at h
    refine ⟨fun a ha => ?_, fun a ha hcycle => ?_⟩
    · cases ha using Relation.ReflTransGen.head_induction_on with
      | refl => exact h.1
      | head hstep hrest => exact (ih (h.2 _ hstep)).atHand a hrest
    · cases ha using Relation.ReflTransGen.head_induction_on with
      | refl =>
        obtain ⟨b, hstep, hrest⟩ := Relation.TransGen.head'_iff.1 hcycle
        exact (ih (h.2 b hstep)).grounded _ hrest hcycle
      | head hstep hrest => exact (ih (h.2 _ hstep)).grounded a hrest hcycle

/-- Settling missing type arguments as empty makes no type faulty. -/
theorem Grows.faulty_of_later (h : s.Grows t) (hs : s.Consistent) (hfaulty : t.Faulty ty)
    (hty : s.Has ty) : s.Faulty ty := by
  induction hfaulty with
  | @error ty herror =>
    obtain ⟨data, hdata⟩ := has_iff.1 hty
    obtain ⟨data', hdata', hsettles⟩ := h.types ty data hdata
    obtain ⟨found, hfound, outer, hkind⟩ := herror
    obtain rfl := Option.mem_unique hdata' hfound
    cases hsettles with
    | same => exact .error ⟨data, hdata, outer, hkind⟩
    | emptied => cases hkind
  | @consulted ty next hstep _ ih =>
    obtain ⟨data, hdata⟩ := has_iff.1 hty
    rw [h.consulted hdata] at hstep
    exact .consulted hstep (ih (hs.has_of_consults hstep))

/-! ### The search comes back -/

/-- The search leads to a type that it comes back to. -/
def Circles (s : Store) (ty : TypeId) : Prop :=
  ∃ a, Relation.ReflTransGen s.Consults ty a ∧ Relation.TransGen s.Consults a a

/-- Where the search has led to once it leads later, or it leads to an error type. -/
theorem Precedes.reaches (hst : s.Precedes t) (h : Relation.ReflTransGen s.Consults ty a) :
    Relation.ReflTransGen t.Consults ty a ∨ t.Faulty ty := by
  induction h using Relation.ReflTransGen.head_induction_on with
  | refl => exact .inl .refl
  | head hstep _ ih =>
    obtain ⟨next, hnext, rfl | herror⟩ := hst.mem_consulted hstep
    · exact ih.imp (Relation.ReflTransGen.head hnext) (.consulted hnext)
    · exact .inr (.consulted hnext (.error herror))

theorem Precedes.circles (hst : s.Precedes t) (h : s.Circles ty) : t.Circles ty ∨ t.Faulty ty := by
  obtain ⟨a, hreach, hcycle⟩ := h
  obtain ⟨b, hstep, hback⟩ := Relation.TransGen.head'_iff.1 hcycle
  rcases hst.reaches hreach with hreach' | hfaulty
  · have hagain : Relation.TransGen t.Consults a a ∨ t.Faulty a := by
      obtain ⟨next, hnext, rfl | herror⟩ := hst.mem_consulted hstep
      · exact (hst.reaches hback).imp (Relation.TransGen.head' hnext) (.consulted hnext)
      · exact .inr (.consulted hnext (.error herror))
    rcases hagain with hcycle' | hfaulty
    · exact .inl ⟨a, hreach', hcycle'⟩
    · obtain ⟨e, he, herror⟩ := faulty_iff.1 hfaulty
      exact .inr (faulty_iff.2 ⟨e, hreach'.trans he, herror⟩)
  · exact .inr hfaulty

/-- A search that comes back has a first step, after which it comes back. -/
theorem Circles.exists_step (h : s.Circles ty) : ∃ next ∈ s.consulted ty, s.Circles next := by
  obtain ⟨a, hreach, hcycle⟩ := h
  obtain ⟨next, hstep, hrest⟩ := Relation.TransGen.head'_iff.1 (hcycle.trans_right hreach)
  exact ⟨next, hstep, a, hrest, hcycle⟩

end Store

/-- **A search that comes back never has the answer no.** -/
theorem isErroneous_ne_false_of_circles {load : Loader} (hload : load.Follows Store.Later) {depth : Nat}
    {ty : TypeId} {s s' : Session} (h : s.store.Circles ty) :
    isErroneous load depth ty s ≠ .ok false s' := by
  intro hrun
  induction depth generalizing ty s s' with
  | zero => cases hrun
  | succ depth ih =>
    obtain ⟨next, hnext, hcircles⟩ := h.exists_step
    obtain ⟨next', r, r', hlater, rfl | herror, hdenied⟩ := exists_denied hload hrun hnext
    · rcases hlater.precedes.circles hcircles with hcircles' | hfaulty
      · exact ih hcircles' hdenied
      · exact isErroneous_ne_false hload hfaulty hdenied
    · exact isErroneous_ne_false hload (.error herror) hdenied

/-! ### What the search finds -/

theorem Run.eq_true_of_ne_false {question : Run Bool} {s s' : Session} {found : Bool}
    (h : question s = .ok found s') (hne : question s ≠ .ok false s') : found = true := by
  cases found with
  | true => rfl
  | false => exact absurd h hne

/-- **The search finds the errors that it can reach.**  Where nothing has to be loaded and the search
does not come back, the question whether a type is erroneous has an answer, and it is yes exactly if the
search leads to an error type.  Whenever there is an answer, also after loading, it is yes if an error
type can be reached through components that the search goes into, and if the search comes back; and it is
yes only if the search leads to an error type in the end.  The components that it does not go into are
the bounds of wildcards and the types that methods throw. -/
theorem errors_found (s : Session) (ty : TypeId) :
    (s.store.Consistent → s.store.Searchable ty → ∀ n depth, s.store.types.size ≤ depth →
      (isErroneous (completerLoader n) depth ty).Returns s fun found _ =>
        found = true ↔ ∃ e, Relation.ReflTransGen s.store.Consults ty e ∧ s.store.IsErrorType e) ∧
    (∀ n depth found s', isErroneous (completerLoader n) depth ty s = .ok found s' →
      ((∃ e, Relation.ReflTransGen s.store.Inspects ty e ∧ s.store.IsErrorType e) → found = true) ∧
      (s.store.Circles ty → found = true) ∧
      (found = true →
        ∃ e, Relation.ReflTransGen s'.store.Consults ty e ∧ s'.store.IsErrorType e)) ∧
    ∀ a b, s.store.Edge a b → s.store.Inspects a b ∨
      ∃ data, s.store.type? a = some data ∧ ((∃ info, data.kind = .wildcard info ∧ b = info.bound) ∨
        ∃ info, data.kind = .method info ∧ b ∈ info.thrown) := by
  refine ⟨fun hs hsearch n depth hdepth => ?_, fun n depth found s' hrun => ?_,
    fun a b => Store.Edge.inspects_or⟩
  · have hty : s.store.Has ty := Store.has_iff.2 (Store.exists_of_atHand (hsearch.atHand ty .refl))
    have hcard := Store.card_reached_lt_size (hsearch.grounded ty .refl) hty
    have hends := hsearch.endsIn hs (Nat.lt_of_lt_of_le hcard hdepth)
    obtain ⟨found, s', hrun, hgrows⟩ :
        (isErroneous (completerLoader n) depth ty).Returns s _ := isErroneous_returns hends
    refine ⟨found, s', hrun, fun hfound => ?_, fun hreach => ?_⟩
    · rw [hfound] at hrun
      have hfaulty := faulty_of_isErroneous (completerLoader_later n) hrun
      exact Store.faulty_iff.1 (hgrows.faulty_of_later hs hfaulty hty)
    · have hfaulty := Store.faulty_iff.2 hreach
      exact eq_true_of_ne_false hrun (isErroneous_ne_false (completerLoader_later n) hfaulty)
  · refine ⟨?_, fun hcircles => ?_, ?_⟩
    · rintro ⟨e, hreach, herror⟩
      have hfaulty := Store.faulty_of_inspects hreach herror
      exact eq_true_of_ne_false hrun (isErroneous_ne_false (completerLoader_later n) hfaulty)
    · exact eq_true_of_ne_false hrun
        (isErroneous_ne_false_of_circles (completerLoader_later n) hcircles)
    · rintro rfl
      exact Store.faulty_iff.1 (faulty_of_isErroneous (completerLoader_later n) hrun)

/-- A session with a quantified method type whose parameter is a use of a class `C`, for an array of
errors. -/
def littered : Session :=
  let run (s : Session) (command : Command) := (makeStep (perform 9) (none, command)).after s
  let declared := run (run (.initial {} .empty) (.arrayType (.handle WellKnown.error) none none))
    (.declareClass "C" none .none none)
  let used := run declared (.classType (.handle ⟨11⟩) none [.handle ⟨12⟩] [] [] none false)
  run (run used (.methodType [.handle ⟨14⟩] (.handle WellKnown.int) []))
    (.forAll [] [] [] (.handle ⟨15⟩))

theorem littered_leads : (Session.initial {} .empty).Leads littered := by
  unfold littered
  exact .after_step _ _ (.after_step _ _ (.after_step _ _ (.after_step _ _ (.after_step _ _ (.refl _)
    rfl) rfl) rfl) rfl) rfl

/-- The error in the quantified method type is found. -/
theorem errors_found_littered :
    littered.store.Consistent ∧ littered.store.Searchable ⟨16⟩ ∧
      Relation.ReflTransGen littered.store.Inspects ⟨16⟩ WellKnown.error ∧
      littered.store.IsErrorType WellKnown.error ∧
      ∃ s', isErroneous (completerLoader 9) 17 ⟨16⟩ littered = .ok true s' := by
  have hsearch : littered.store.Searchable ⟨16⟩ :=
    Store.searchable_of_endsIn (n := 5) (by decide +kernel)
  have herror : littered.store.IsErrorType WellKnown.error := ⟨_, rfl, _, rfl⟩
  have hsteps : ∀ step ∈ [(16, 15), (15, 14), (14, 12), (12, 11)],
      littered.store.Inspects ⟨step.1⟩ ⟨step.2⟩ := by decide +kernel
  have hreach : Relation.ReflTransGen littered.store.Inspects ⟨16⟩ WellKnown.error :=
    .head (hsteps (16, 15) (by decide)) (.head (hsteps (15, 14) (by decide))
      (.head (hsteps (14, 12) (by decide)) (.single (hsteps (12, 11) (by decide)))))
  obtain ⟨hfound, hanswers, -⟩ := errors_found littered ⟨16⟩
  obtain ⟨found, s', hrun, -⟩ := hfound littered_leads.consistent hsearch 9 17 (by decide +kernel)
  obtain rfl := (hanswers _ _ _ _ hrun).1 ⟨_, hreach, herror⟩
  exact ⟨littered_leads.consistent, hsearch, hreach, herror, s', hrun⟩

/-- **Errors that are not found.**  A wildcard and a method type that throws have the error type as a
component, in a store without cycles. -/
theorem error_in_wildcard_bound :
    let run (s : Session) (command : Command) := (makeStep (perform 9) (none, command)).after s
    let s := run (run (.initial {} .empty) (.wildcard (.handle WellKnown.error) .upper none))
      (.methodType [] (.handle WellKnown.int) [.handle WellKnown.error])
    s.store.Layered ∧ s.store.IsErrorType WellKnown.error ∧
      s.store.Edge ⟨12⟩ WellKnown.error ∧
      perform 9 (.ask .isErroneous (.handle ⟨12⟩)) s = .ok (.ok (.truth false)) s ∧
      s.store.Edge ⟨13⟩ WellKnown.error ∧
      perform 9 (.ask .isErroneous (.handle ⟨13⟩)) s = .ok (.ok (.truth false)) s :=
  ⟨by decide +kernel, ⟨_, rfl, _, rfl⟩, ⟨_, rfl, by decide⟩, rfl, ⟨_, rfl, by decide⟩, rfl⟩

end RegionTypes

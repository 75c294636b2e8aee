import RegionTypes.Proofs.Completion.Anchored
import RegionTypes.Proofs.Store.Containment
import RegionTypes.Proofs.Store.ErrorSearch
import RegionTypes.Proofs.Store.Outline

/-!
# Containment as an order

Where no type is made of itself, one type contains another exactly if the search through components
leads there.  So containment is a partial order, and since the search for errors goes wherever the search
for a type goes, an error in a type is an error in every type that contains it.  But the search for errors
also goes from the uses of a class to the class, so it may come back where the other does not.

* `Store.Around`, `Store.Enclosed` — from a type to the one whose parameters come before its own; this
  does not come back either.
* `Run.Affirms` — the question is answered with yes.
* `contains_affirms_iff` — **when a type contains another**.
* `Store.Searches.antisymm`, `Store.faulty_of_searches` — what follows for the search.
* `Store.Underlies.faulty`, `faulty_of_affirms` — the questions before an answer do not change what is
  faulty.
* `containment_order` — **containment is a partial order that carries errors upward**.
* `isErroneous_unanswered` — a search that comes back and leads to no error has no answer;
  `contained_error_unanswered` — so an error that comes after it is not found.
-/

namespace RegionTypes

open Run

namespace Store

variable {s t : Store} {ty a b c : TypeId} {data : TypeData}

/-! ### Types around types -/

/-- One step from a type to the one whose parameters come before its own. -/
def Around (s : Store) (a b : TypeId) : Prop :=
  ∃ data, s.type? a = some data ∧ data.kind.around = some b

/-- The types around types belong to the store, and no type is around itself, directly or through
others. -/
structure Enclosed (s : Store) : Prop where
  has : ∀ a b, s.Around a b → s.Has b
  acyclic : ∀ a, ¬ Relation.TransGen s.Around a a

/-- The types that are around a type are fewer for the type around it. -/
theorem Enclosed.ranks (h : s.Enclosed) : s.Ranks fun ty => (s.reached s.Around ty).card where
  has record hnext := h.has _ _ ⟨_, record, hnext⟩
  lt record hnext :=
    card_reached_lt (h.acyclic _) (h.has _ _ ⟨_, record, hnext⟩) ⟨_, record, hnext⟩

theorem Consistent.enclosed (h : s.Consistent) : s.Enclosed where
  has a b hab := by
    obtain ⟨data, record, hnext⟩ := hab
    exact h.ranks.has record hnext
  acyclic := not_transGen_self TypeId.index fun a b hab => by
    obtain ⟨data, record, hnext⟩ := hab
    exact h.around_lt record hnext

/-! ### The search as an order -/

theorem Searches.edge (h : s.Searches a b) : s.Edge a b := by
  obtain ⟨data, record, hb, -⟩ := h
  exact ⟨data, record, Kind.components_of_searched hb⟩

theorem Searches.antisymm (hacyclic : s.Acyclic) (hab : Relation.ReflTransGen s.Searches a b)
    (hba : Relation.ReflTransGen s.Searches b a) : a = b := by
  rcases Relation.reflTransGen_iff_eq_or_transGen.1 hab with heq | hpath
  · exact heq.symm
  · have hcycle : Relation.TransGen s.Searches a a := hpath.trans_left hba
    exact absurd (Relation.TransGen.mono (fun _ _ => Searches.edge) _ _ hcycle) (hacyclic a)

/-- The search for errors goes wherever the search for a type goes. -/
theorem Searches.consults (h : s.Searches a b) : s.Consults a b := by
  obtain ⟨data, record, hb, -⟩ := h
  refine (mem_consulted record).2 (.inl ?_)
  cases hkind : data.kind with
  | classType | array | method | forAll =>
    rw [hkind] at hb
    exact hb
  | _ =>
    rw [hkind] at hb
    cases hb

theorem faulty_of_searches (h : Relation.ReflTransGen s.Searches a b) (hb : s.Faulty b) :
    s.Faulty a := by
  induction h using Relation.ReflTransGen.head_induction_on with
  | refl => exact hb
  | head hstep _ ih => exact .consulted hstep.consults ih

/-! ### What is faulty -/

theorem Underlies.consults (h : s.Underlies t) (hstep : s.Consults a b) : t.Consults a b := by
  obtain ⟨data, record⟩ := exists_of_mem_consulted hstep
  obtain ⟨symbol, erased, literal, kind⟩ := data
  cases kind with
  | classType info =>
    obtain ⟨info', record', hinfo⟩ := h.classRecord record rfl
    have hargs : info'.typeArgs.getD [] = info.typeArgs.getD [] :=
      ClassInfo.getD_of_outline .typeArgs hinfo
    refine (mem_consulted record').2 ?_
    rcases (mem_consulted record).1 hstep with hpart | ⟨_, -, hcanonical, hne⟩
    · simp only [Kind.inspected, ClassInfo.outer_of_outline hinfo, hargs]
      exact .inl hpart
    · exact .inr ⟨info', rfl, (h.canonical? symbol).trans hcanonical, hne⟩
  | _ =>
    have record' := h.record record rfl
    refine (mem_consulted record').2 (.inl ?_)
    exact mem_inspected record rfl hstep

theorem Underlies.isErrorType (h : s.Underlies t) (herror : s.IsErrorType a) : t.IsErrorType a := by
  obtain ⟨data, record, outer, hkind⟩ := herror
  exact ⟨data, h.record record (by rw [hkind]; rfl), outer, hkind⟩

theorem Underlies.faulty (h : s.Underlies t) (hfaulty : s.Faulty ty) : t.Faulty ty := by
  induction hfaulty with
  | error herror => exact .error (h.isErrorType herror)
  | consulted hstep _ ih => exact .consulted (h.consults hstep) ih

end Store

/-! ### Answers -/

/-- The question is answered with yes. -/
def Run.Affirms (question : Run Bool) (s : Session) : Prop := ∃ s', question s = .ok true s'

variable {s : Session} {n depth : Nat} {a b : TypeId}

/-- A type that is found to be erroneous was so before the question. -/
theorem faulty_of_affirms (hpending : s.store.NothingPending)
    (h : (isErroneous (completerLoader n) depth a).Affirms s) : s.store.Faulty a := by
  obtain ⟨s', hrun⟩ := h
  have halong : Along Store.LeavesOutline (isErroneous (completerLoader n) depth a) :=
    (isErroneous_keeps asks_leavesOutline depth a).along
  obtain ⟨hsame, -⟩ := halong s hpending
  rw [after_of_ok hrun] at hsame
  exact hsame.back.faulty (faulty_of_isErroneous (completerLoader_later n) hrun)

theorem has_of_contains (hne : a ≠ b) (h : (contains (completerLoader n) depth a b).Affirms s) :
    s.store.Has a := by
  obtain ⟨s', hrun⟩ := h
  cases depth with
  | zero => cases hrun
  | succ =>
    rw [contains, if_neg hne] at hrun
    obtain ⟨data, s₁, hdata, -⟩ := exists_of_bind hrun
    exact Store.has_iff.2 ⟨data, (eq_of_typeData hdata).2⟩

/-- **When a type contains another.** -/
theorem contains_returns (hs : s.TopLevel) (hrest : s.store.AtRest) (henclosed : s.store.Enclosed)
    (hdepth : 2 * s.store.types.size ≤ depth) (ha : s.store.Has a) (b : TypeId) :
    (contains (completerLoader n) depth a b).Returns s fun found _ =>
      found = true ↔ Relation.ReflTransGen s.store.Searches a b := by
  have hself := hs.accumulated.resembles_of_ranks henclosed.ranks
  have hheight := Store.height_lt_size hrest.acyclic ha
  have hdecides : Decides s.store (contains (completerLoader n) depth a b)
      (Relation.ReflTransGen s.store.Searches a b) :=
    contains_decides_of_ranks hrest henclosed.ranks
      (fun ty hty => Store.card_reached_lt_size (henclosed.acyclic ty) hty) b s.store.types.size ha
      hheight (by omega)
  exact (hdecides s hself).imp fun _ _ h => h.2

theorem contains_affirms_iff (hs : s.TopLevel) (hrest : s.store.AtRest)
    (henclosed : s.store.Enclosed) (hdepth : 2 * s.store.types.size ≤ depth) (ha : s.store.Has a) :
    (contains (completerLoader n) depth a b).Affirms s ↔
      Relation.ReflTransGen s.store.Searches a b := by
  obtain ⟨found, s', hrun, hfound⟩ := contains_returns (n := n) hs hrest henclosed hdepth ha b
  rw [← hfound]
  constructor
  · rintro ⟨s'', hrun'⟩
    exact (EStateM.Result.ok.inj (hrun.symm.trans hrun')).1
  · rintro rfl
    exact ⟨s', hrun⟩

/-- Where nothing is pending, a search that does not come back can be made. -/
theorem searchable_of_not_circles (hconsistent : s.store.Consistent) (hnamed : s.store.WellFormed)
    (hpending : s.store.NothingPending) (ha : s.store.Has a) (h : ¬ s.store.Circles a) :
    s.store.Searchable a where
  atHand c hc := by
    have hhas : s.store.Has c := by
      cases hc using Relation.ReflTransGen.rec with
      | refl => exact ha
      | tail _ hstep => exact hconsistent.has_of_consults hstep
    obtain ⟨data, hdata⟩ := Store.has_iff.1 hhas
    have hsymbols := (hnamed data (Store.mem_types hdata)).symbols
    cases hsym : data.symbol with
    | none => cases hkind : data.kind <;> simp [Store.atHand, hdata, hkind, hsym]
    | some sym =>
      obtain ⟨y, hy⟩ := Option.isSome_iff_exists.1 (hsymbols sym hsym)
      have hloaded := hpending y (Array.mem_of_getElem? hy)
      cases hkind : data.kind <;> simp [Store.atHand, hdata, hkind, hsym, hy, hloaded]
  grounded c hc hcycle := h ⟨c, hc, hcycle⟩

/-- **A search that can be made finds the error.** -/
theorem Store.Faulty.affirms {s : Session} {ty : TypeId} (h : s.store.Faulty ty)
    (hconsistent : s.store.Consistent) (hsearch : s.store.Searchable ty) (n : Nat) {depth : Nat}
    (hdepth : s.store.types.size ≤ depth) : (isErroneous (completerLoader n) depth ty).Affirms s := by
  have hcard := Store.card_reached_lt_size (hsearch.grounded ty .refl) h.has
  obtain ⟨found, s', hrun, -⟩ : (isErroneous (completerLoader n) depth ty).Returns s _ :=
    isErroneous_returns (hsearch.endsIn hconsistent (Nat.lt_of_lt_of_le hcard hdepth))
  have hfound := eq_true_of_ne_false hrun (isErroneous_ne_false (completerLoader_later n) h)
  exact ⟨s', hfound ▸ hrun⟩

/-- **Containment is a partial order that carries errors upward.**  Between the steps of a script that
names only what the store has issued, in a store without cycles that has nothing left to be loaded, every
question whether a type contains another is answered; each type contains itself, what a type contains
contains in turn is contained in it, and two types that contain each other are the same.  A type that
contains an erroneous type is never found to be without error, and it is found to be erroneous unless the
search for errors comes back to a type where it has been. -/
theorem containment_order {options : DisplayOptions} {audience : Log.Filter} {s : Session}
    (hleads : (Session.initial options audience).Leads s) (hs : s.TopLevel)
    (hacyclic : s.store.Acyclic) (hpending : s.store.NothingPending) (n depth : Nat)
    (hdepth : 2 * s.store.types.size ≤ depth) :
    let load := completerLoader n
    (∀ a b, s.store.Has a → ∃ found s', contains load depth a b s = .ok found s') ∧
    (∀ a, s.store.Has a → (contains load depth a a).Affirms s) ∧
    (∀ a b c, (contains load depth a b).Affirms s → (contains load depth b c).Affirms s →
      (contains load depth a c).Affirms s) ∧
    (∀ a b, (contains load depth a b).Affirms s → (contains load depth b a).Affirms s → a = b) ∧
    ∀ a b, (contains load depth a b).Affirms s → (isErroneous load depth b).Affirms s →
      (∀ d s', isErroneous load d a s ≠ .ok false s') ∧
      (¬ s.store.Circles a → (isErroneous load depth a).Affirms s) := by
  intro load
  have hrest := hleads.atRest hacyclic hpending
  have henclosed := hleads.consistent.enclosed
  have hiff : ∀ a b, s.store.Has a → ((contains load depth a b).Affirms s ↔
      Relation.ReflTransGen s.store.Searches a b) :=
    fun a b ha => contains_affirms_iff hs hrest henclosed hdepth ha
  have hreach : ∀ a b, (contains load depth a b).Affirms s →
      Relation.ReflTransGen s.store.Searches a b := by
    intro a b h
    by_cases hne : a = b
    · rw [hne]
    · exact (hiff a b (has_of_contains hne h)).1 h
  refine ⟨fun a b ha => ?_, fun a ha => (hiff a a ha).2 .refl, fun a b c hab hbc => ?_,
    fun a b hab hba => Store.Searches.antisymm hacyclic (hreach a b hab) (hreach b a hba),
    fun a b hab herror => ?_⟩
  · obtain ⟨found, s', hrun, -⟩ := contains_returns (n := n) hs hrest henclosed hdepth ha b
    exact ⟨found, s', hrun⟩
  · by_cases hne : a = b
    · rwa [hne]
    · have ha := has_of_contains hne hab
      exact (hiff a c ha).2 ((hreach a b hab).trans (hreach b c hbc))
  · have hfaulty := Store.faulty_of_searches (hreach a b hab) (faulty_of_affirms hpending herror)
    have hnever : ∀ d s', isErroneous load d a s ≠ .ok false s' := fun d s' =>
      isErroneous_ne_false (completerLoader_later n) hfaulty
    refine ⟨hnever, fun hcircles => ?_⟩
    have hsearch := searchable_of_not_circles hleads.consistent hleads.wellFormed hpending hfaulty.has
      hcircles
    exact hfaulty.affirms hleads.consistent hsearch n (by omega)

/-- A quantified method type contains its parameter, a use of a class, and that contains an array of
errors. -/
theorem containment_order_littered :
    (Session.initial {} .empty).Leads littered ∧ littered.TopLevel ∧ littered.store.Acyclic ∧
      littered.store.NothingPending ∧ ¬ littered.store.Circles ⟨16⟩ ∧
      (contains (completerLoader 9) 40 ⟨16⟩ ⟨12⟩).Affirms littered ∧
      ¬ (contains (completerLoader 9) 40 ⟨12⟩ ⟨16⟩).Affirms littered ∧
      (isErroneous (completerLoader 9) 40 ⟨16⟩).Affirms littered := by
  have htop : littered.TopLevel := by
    unfold littered
    exact .after_step (.after_step (.after_step (.after_step (.after_step (.initial {} .empty)
      rfl) rfl) rfl) rfl) rfl
  have hacyclic : littered.store.Acyclic := Store.Layered.acyclic (by decide +kernel)
  have hpending : littered.store.NothingPending := by decide +kernel
  have hsearch : littered.store.Searchable ⟨16⟩ :=
    Store.searchable_of_endsIn (n := 5) (by decide +kernel)
  have hcircles : ¬ littered.store.Circles ⟨16⟩ := by
    rintro ⟨a, hreach, hcycle⟩
    exact hsearch.grounded a hreach hcycle
  obtain ⟨-, -, htrans, hantisymm, herrors⟩ := containment_order littered_leads htop hacyclic hpending
    9 40 (by decide +kernel)
  have hparameter : (contains (completerLoader 9) 40 ⟨16⟩ ⟨14⟩).Affirms littered :=
    ⟨_, Run.ok_of_answer? (by decide +kernel)⟩
  have hargument : (contains (completerLoader 9) 40 ⟨14⟩ ⟨12⟩).Affirms littered :=
    ⟨_, Run.ok_of_answer? (by decide +kernel)⟩
  have herror : (isErroneous (completerLoader 9) 40 ⟨12⟩).Affirms littered :=
    ⟨_, Run.ok_of_answer? (by decide +kernel)⟩
  have hcontains := htrans _ _ _ hparameter hargument
  refine ⟨littered_leads, htop, hacyclic, hpending, hcircles, hcontains, fun hback => ?_,
    (herrors _ _ hcontains herror).2 hcircles⟩
  exact absurd (hantisymm _ _ hcontains hback) (by decide)

/-! ### Searches without an answer -/

/-- **A search that comes back and leads to no error is not answered**, however deeply it may nest. -/
theorem isErroneous_unanswered (hpending : s.store.NothingPending) (hcircles : s.store.Circles a)
    (hsound : ¬ s.store.Faulty a) (n depth : Nat) (found : Bool) (s' : Session) :
    isErroneous (completerLoader n) depth a s ≠ .ok found s' := by
  intro hrun
  cases found with
  | true => exact hsound (faulty_of_affirms hpending ⟨s', hrun⟩)
  | false => exact isErroneous_ne_false_of_circles (completerLoader_later n) hcircles hrun

/-- No type of a list is faulty if the search stays in the list and finds no error type there. -/
theorem Store.not_faulty_of_closed {s : Store} {types : List TypeId}
    (hclosed : ∀ a ∈ types, ∀ b ∈ s.consulted a, b ∈ types)
    (hsound : ∀ a ∈ types, (s.type? a).all fun data => data.kind.tag != .error) (ha : a ∈ types) :
    ¬ s.Faulty a := by
  intro h
  induction h with
  | error herror =>
    obtain ⟨data, hdata, outer, hkind⟩ := herror
    have hne := hsound _ ha
    rw [hdata] at hne
    simp [hkind, Kind.tag] at hne
  | consulted hstep _ ih => exact ih (hclosed _ ha _ hstep)

/-- A session in which the type parameter of a class `C` is a use of `C`, with a method type that takes
this use and an error; and with a damaged class `S` and its use for the use of `C`. -/
def knotted : Session :=
  .afterCommands
    [.declareClass "C" none .none none, .classType (.handle ⟨11⟩) none [] [] [] none false,
      .defineClass (.handle ⟨12⟩) [.handle ⟨13⟩] [] [] none [],
      .methodType [.handle ⟨13⟩, .handle WellKnown.error] (.handle WellKnown.int) [],
      .declareClass "S" none .none none, .errorTypeForClass (.handle ⟨12⟩),
      .classType (.handle ⟨12⟩) none [.handle ⟨13⟩] [] [] none false]

theorem knotted_pending : knotted.store.NothingPending := by decide +kernel

/-- The search from the use of `C` leads to `C` and back. -/
theorem knotted_unanswered (n depth : Nat) (found : Bool) (s' : Session) :
    isErroneous (completerLoader n) depth ⟨13⟩ knotted ≠ .ok found s' := by
  have hthere : (⟨12⟩ : TypeId) ∈ knotted.store.consulted ⟨13⟩ := by decide +kernel
  have hback : (⟨13⟩ : TypeId) ∈ knotted.store.consulted ⟨12⟩ := by decide +kernel
  have hclosed : ∀ a ∈ ([⟨10⟩, ⟨12⟩, ⟨13⟩] : List TypeId), ∀ b ∈ knotted.store.consulted a,
      b ∈ ([⟨10⟩, ⟨12⟩, ⟨13⟩] : List TypeId) := by decide +kernel
  refine isErroneous_unanswered knotted_pending ⟨⟨13⟩, .refl, .tail (.single hthere) hback⟩ ?_ n depth
    found s'
  exact Store.not_faulty_of_closed hclosed (by decide +kernel) (by decide)

/-- **An error that is not found.**  The method type contains the error type, but whether it is erroneous
is not answered, however deeply the search may nest: it is still on its way through the use of `C` that
comes first. -/
theorem contained_error_unanswered :
    (Session.initial {} .empty).Leads knotted ∧ knotted.TopLevel ∧ knotted.store.Acyclic ∧
      knotted.store.NothingPending ∧
      (contains (completerLoader 9) 40 ⟨14⟩ WellKnown.error).Affirms knotted ∧
      (isErroneous (completerLoader 9) 40 WellKnown.error).Affirms knotted ∧
      ∀ n depth found s', isErroneous (completerLoader n) depth ⟨14⟩ knotted ≠ .ok found s' := by
  -- the parameter of `C` is the one component that is younger than the type
  let rank (ty : TypeId) : Nat := if ty = ⟨12⟩ then 20 else ty.index
  refine ⟨?_, ?_, Store.acyclic_of_rank rank (by decide +kernel), knotted_pending,
    ⟨_, Run.ok_of_answer? (by decide +kernel)⟩, ⟨_, Run.ok_of_answer? (by decide +kernel)⟩,
    fun n depth found s' hrun => ?_⟩
  · simp only [knotted, Session.afterCommands, List.foldl_cons, List.foldl_nil]
    exact .after_step _ _ (.after_step _ _ (.after_step _ _ (.after_step _ _ (.after_step _ _
      (.after_step _ _ (.after_step _ _ (.refl _) rfl) rfl) rfl) rfl) rfl) rfl) rfl
  · simp only [knotted, Session.afterCommands, List.foldl_cons, List.foldl_nil]
    exact .after_step (.after_step (.after_step (.after_step (.after_step (.after_step (.after_step
      (.initial {} .empty) rfl) rfl) rfl) rfl) rfl) rfl) rfl
  · cases depth with
    | zero => cases hrun
    | succ depth =>
      have hmethod : (knotted.store.type? ⟨14⟩).map TypeData.kind =
          some (.method { params := [⟨13⟩, WellKnown.error], result := WellKnown.int, thrown := [] }) := by
        decide +kernel
      obtain ⟨data, hdata, hkind⟩ := Option.map_eq_some_iff.1 hmethod
      rw [isErroneous, bind_run (typeData_run hdata)] at hrun
      simp only [hkind] at hrun
      obtain ⟨_, _, hparams, -⟩ := exists_of_bind hrun
      obtain ⟨_, _, hfirst, -⟩ := exists_of_bind hparams
      exact knotted_unanswered _ _ _ _ hfirst

end RegionTypes

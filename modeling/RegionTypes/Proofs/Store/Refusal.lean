import RegionTypes.Proofs.Store.Commands
import RegionTypes.Proofs.Store.Settled

/-!
# Refused updates

An update that finds another value in a field that is written once, or a type of the wrong variant,
refuses.  It writes nothing itself; but the refusal names a type by its text, and working out the
text asks the store.

* `Command.updated?` — the commands that may refuse, with the type they are about.
* `Store.Concerns` — the types that a refusal may name: the type itself, the method under its
  quantifiers, the prototype of the variable.
* `Refused` — **how an update refuses**: what happens is the rendering of such a type.
* `refused_update_renders` — so the store is as before where that type is settled.
-/

namespace RegionTypes

open Run

variable {α : Type} {load : Loader} {s s' : Session}

/-! ### Names -/

theorem eq_of_lookupType? {ref : Option TypeRef} {ty : Option TypeId}
    (h : lookupType? ref s = .ok ty s') : s' = s := by
  cases ref with
  | none =>
    injection h with _ hs
    exact hs.symm
  | some =>
    obtain ⟨ty', t, hty, hpure⟩ := exists_of_bind h
    obtain rfl := (eq_of_lookupType hty).1
    injection hpure with _ hs
    exact hs.symm

/-- What follows on a look-up starts in the same session. -/
theorem exists_of_lookup {β : Type} {first : Run α} {next : α → Run β} {b : β}
    (hfirst : ∀ {a t}, first s = .ok a t → t = s) (h : (first >>= next) s = .ok b s') :
    ∃ a, first s = .ok a s ∧ next a s = .ok b s' := by
  obtain ⟨a, t, ha, hnext⟩ := exists_of_bind h
  obtain rfl := hfirst ha
  exact ⟨a, ha, hnext⟩

/-! ### Refusals -/

/-- The commands that fill in what construction left open and may refuse to, with the type they are
about. -/
def Command.updated? : Command → Option TypeRef
  | .defineClass type .. | .setUpperBound type _ | .addLowerBound type _ | .addUpperBound type _
  | .setInstantiation type _ | .recordActuals type .. => some type
  | _ => none

/-- The types that a refusal to update a type may name. -/
inductive Store.Concerns (r : Store) : TypeId → TypeId → Prop
  | self (ty : TypeId) : Concerns r ty ty
  | body {ty culprit : TypeId} {data : TypeData} {info : ForAllInfo}
      (hdata : r.type? ty = some data) (hkind : data.kind = .forAll info)
      (hbody : Concerns r info.body culprit) : Concerns r ty culprit
  | prototype {ty owner : TypeId} {data : TypeData} {info : VarInfo}
      (hdata : r.type? ty = some data) (hvar : data.kind.var? = some info)
      (howner : info.prototype = some owner) : Concerns r ty owner

/-- The error names a type by this text. -/
def TypeError.Names (error : TypeError) (text : String) : Prop :=
  (∃ field, error = .alreadySet field text) ∨ ∃ expected, error = .unexpected expected text

/-- All that happens from one session to the other is that a type which the update concerns is
rendered; the error names it. -/
def Refused (load : Loader) (depth : Nat) (ty : TypeId) (s : Session) (error : TypeError)
    (s' : Session) : Prop :=
  ∃ culprit d text, s.store.Concerns ty culprit ∧ d ≤ depth ∧
    display load d culprit s = .ok text s' ∧ error.Names text

/-- The update either succeeds or refuses in this way. -/
def Refuses (load : Loader) (depth : Nat) (ty : TypeId) (s : Session)
    (action : Run (Except TypeError Unit)) : Prop :=
  ∀ error s', action s = .ok (.error error) s' → Refused load depth ty s error s'

variable {depth d : Nat} {ty culprit : TypeId}

/-- A refusal that names a type is the rendering of this type. -/
theorem refuses_of_display {error : String → TypeError} (hnames : ∀ text, (error text).Names text)
    (hculprit : s.store.Concerns ty culprit) (hd : d ≤ depth) :
    Refuses load depth ty s (do return .error (error (← display load d culprit))) := by
  intro found s' h
  obtain ⟨text, t, htext, hpure⟩ := exists_of_bind h
  injection hpure with hfound hs
  injection hfound with hfound
  exact ⟨culprit, d, text, hculprit, hd, hs ▸ htext, hfound ▸ hnames text⟩

theorem unexpected_refuses (expected : Expected) (hculprit : s.store.Concerns ty culprit)
    (hd : d ≤ depth) : Refuses load depth ty s (unexpected load d expected culprit) :=
  refuses_of_display (fun _ => .inr ⟨expected, rfl⟩) hculprit hd

theorem alreadySet_refuses (field : Field) (hculprit : s.store.Concerns ty culprit)
    (hd : d ≤ depth) : Refuses load depth ty s (alreadySet load d field culprit) :=
  refuses_of_display (fun _ => .inl ⟨field, rfl⟩) hculprit hd

theorem success_ne_error {action : Run Unit} {error : TypeError} :
    (do action; return .ok () : Run (Except TypeError Unit)) s ≠ .ok (.error error) s' := by
  intro h
  obtain ⟨_, t, _, hpure⟩ := exists_of_bind h
  injection hpure with herror
  cases herror

theorem refuses_of_success {action : Run Unit} :
    Refuses load depth ty s (do action; return .ok ()) :=
  fun _ _ h => absurd h success_ne_error

/-- What follows on reading the kind of a type starts in the same session. -/
theorem refuses_of_kindOf {a : TypeId} {next : Kind → Run (Except TypeError Unit)}
    (h : ∀ data, s.store.type? a = some data → Refuses load depth ty s (next data.kind)) :
    Refuses load depth ty s (kindOf a >>= next) := by
  intro error s' hrun
  obtain ⟨kind, t, hkind, hnext⟩ := exists_of_bind hrun
  obtain ⟨rfl, data, hdata, rfl⟩ := eq_of_kindOf hkind
  exact h data hdata error s' hnext

/-! ### The updates -/

theorem defineClass_refuses (sig : ClassSignature) :
    Refuses load depth ty s (defineClass load depth ty sig) := by
  refine refuses_of_kindOf fun data hdata => ?_
  cases hkind : data.kind with
  | classType info =>
    cases htaken : info.takenField? with
    | some field =>
      simp only [htaken]
      exact alreadySet_refuses field (.self ty) (Nat.le_refl _)
    | none =>
      simp only [htaken]
      exact refuses_of_success
  | _ => exact unexpected_refuses .classType (.self ty) (Nat.le_refl _)

theorem setUpperBound_refuses (bound : TypeId) :
    Refuses load depth ty s (setUpperBound load depth ty bound) := by
  refine refuses_of_kindOf fun data hdata => ?_
  cases hvar : data.kind.var? with
  | none => exact unexpected_refuses .typeVariable (.self ty) (Nat.le_refl _)
  | some info =>
    intro error s' hrun
    obtain ⟨prototype, t, hprototype, hnext⟩ := exists_of_bind hrun
    obtain ⟨rfl, hfound⟩ := eq_of_prototypeOf hprototype
    cases hfree : info.refuses bound with
    | true =>
      simp only [hfree] at hnext
      exact alreadySet_refuses .upperBound (.self ty) (Nat.le_refl _) error s' hnext
    | false =>
      simp only [hfree] at hnext
      cases prototype with
      | none => exact refuses_of_success error s' hnext
      | some =>
        rcases hfound with ⟨_, hnone⟩ | ⟨owner, ownerData, howner, hownerData, hpair⟩
        · cases hnone
        · obtain ⟨var, hownerVar, rfl⟩ := Option.map_eq_some_iff.1 hpair.symm
          cases hownerFree : var.refuses bound with
          | true =>
            simp only [hownerFree] at hnext
            exact alreadySet_refuses .upperBound (.prototype hdata hvar howner) (Nat.le_refl _) error
              s' hnext
          | false =>
            simp only [hownerFree] at hnext
            obtain ⟨_, t', _, hrest⟩ := exists_of_bind hnext
            exact absurd hrest success_ne_error

theorem updatePlaceholder_refuses (f : PlaceholderInfo → PlaceholderInfo) :
    Refuses load depth ty s (updatePlaceholder load depth ty f) := by
  refine refuses_of_kindOf fun data hdata => ?_
  cases hkind : data.kind with
  | placeholder => exact refuses_of_success
  | _ => exact unexpected_refuses .inferenceVariable (.self ty) (Nat.le_refl _)

theorem setInstantiation_refuses (solution : TypeId) :
    Refuses load depth ty s (setInstantiation load depth ty solution) := by
  refine refuses_of_kindOf fun data hdata => ?_
  cases hkind : data.kind with
  | placeholder info =>
    cases hsolution : info.solution with
    | none =>
      simp only [hsolution]
      exact refuses_of_success
    | some =>
      simp only [hsolution]
      split
      · exact fun error s' h => nomatch h
      · exact alreadySet_refuses .instantiation (.self ty) (Nat.le_refl _)
  | _ => exact unexpected_refuses .inferenceVariable (.self ty) (Nat.le_refl _)

theorem recordActuals_refuses (actuals : CallActuals) (depth : Nat) (ty : TypeId) :
    Refuses load depth ty s (recordActuals load depth ty actuals) := by
  induction depth generalizing ty with
  | zero => exact fun error s' h => nomatch h
  | succ depth ih =>
    refine refuses_of_kindOf fun data hdata => ?_
    cases hkind : data.kind with
    | method info =>
      show Refuses load (depth + 1) ty s (if info.actuals.isSome then _ else _)
      split
      · exact alreadySet_refuses .callActuals (.self ty) (Nat.le_refl _)
      · exact refuses_of_success
    | forAll info =>
      intro error s' h
      obtain ⟨culprit, d, text, hculprit, hd, htext, hnames⟩ := ih info.body error s' h
      exact ⟨culprit, d, text, .body hdata hkind hculprit, Nat.le_succ_of_le hd, htext, hnames⟩
    | _ => exact unexpected_refuses .methodType (.self ty) (Nat.le_refl _)

/-! ### Commands -/

theorem exists_of_attempting {action : Run (Except TypeError Unit)} {failure : Failure}
    (h : attempting action s = .ok (.error failure) s') :
    ∃ error, failure = .type error ∧ action s = .ok (.error error) s' := by
  obtain ⟨result, t, hresult, hpure⟩ := exists_of_bind h
  cases result with
  | ok =>
    injection hpure with hok
    cases hok
  | error error =>
    injection hpure with hfailure hs
    injection hfailure with hfailure
    exact ⟨error, hfailure.symm, hs ▸ hresult⟩

theorem execute_refused {command : Command} {ref : TypeRef} {failure : Failure}
    (hupdates : command.updated? = some ref)
    (h : execute load depth command s = .ok (.error failure) s') :
    ∃ ty error, lookupType ref s = .ok ty s ∧ failure = .type error ∧
      Refused load depth ty s error s' := by
  -- the commands about a type and one more differ in the update alone
  have hpair : ∀ (type other : TypeRef) (update : TypeId → TypeId → Run (Except TypeError Unit)),
      (∀ ty a, Refuses load depth ty s (update ty a)) →
      attempting (do update (← lookupType type) (← lookupType other)) s = .ok (.error failure) s' →
      ∃ ty error, lookupType type s = .ok ty s ∧ failure = .type error ∧
        Refused load depth ty s error s' := by
    intro type other update hupdate hrun
    obtain ⟨error, hfailure, hrun⟩ := exists_of_attempting hrun
    obtain ⟨ty, hty, hrun⟩ := exists_of_lookup (fun h => (eq_of_lookupType h).1) hrun
    obtain ⟨a, -, hrun⟩ := exists_of_lookup (fun h => (eq_of_lookupType h).1) hrun
    exact ⟨ty, error, hty, hfailure, hupdate ty a error s' hrun⟩
  cases command with
  | defineClass =>
    obtain rfl := Option.some.inj hupdates
    obtain ⟨ty, hty, hrun⟩ := exists_of_lookup (fun h => (eq_of_lookupType h).1) h
    obtain ⟨params, -, hrun⟩ := exists_of_lookup (fun h => (eq_of_lookupTypes h).1) hrun
    obtain ⟨parent, -, hrun⟩ := exists_of_lookup eq_of_lookupType? hrun
    obtain ⟨others, -, hrun⟩ := exists_of_lookup (fun h => (eq_of_lookupTypes h).1) hrun
    obtain ⟨error, hfailure, hrun⟩ := exists_of_attempting hrun
    exact ⟨ty, error, hty, hfailure, defineClass_refuses _ error s' hrun⟩
  | recordActuals =>
    obtain rfl := Option.some.inj hupdates
    obtain ⟨ty, hty, hrun⟩ := exists_of_lookup (fun h => (eq_of_lookupType h).1) h
    obtain ⟨actuals, -, hrun⟩ := exists_of_lookup (fun h => (eq_of_lookupTypes h).1) hrun
    obtain ⟨error, hfailure, hrun⟩ := exists_of_attempting hrun
    exact ⟨ty, error, hty, hfailure, recordActuals_refuses _ depth ty error s' hrun⟩
  | setUpperBound type bound =>
    obtain rfl := Option.some.inj hupdates
    exact hpair type bound _ (fun _ bound => setUpperBound_refuses bound) h
  | addLowerBound type bound | addUpperBound type bound =>
    obtain rfl := Option.some.inj hupdates
    exact hpair type bound _ (fun _ _ => updatePlaceholder_refuses _) h
  | setInstantiation type solution =>
    obtain rfl := Option.some.inj hupdates
    exact hpair type solution _ (fun _ solution => setInstantiation_refuses solution) h
  | _ => cases hupdates

/-- Rendering a settled type under the options of the store leaves the store alone. -/
theorem store_of_display {start : Completer → Loader}
    {text : String} (h : s.store.TextSettled s.store.options ty)
    (hrun : display (completeSymbol start) depth ty s = .ok text s') : s'.store = s.store := by
  have hleaves : Leaves s.store (render (completeSymbol start) depth s.store.options ty) _ :=
    render_leaves depth s.store.options ty h
  have hstore := (hleaves s rfl).1
  have hrender : render (completeSymbol start) depth s.store.options ty s = .ok text s' := hrun
  rwa [after_of_ok hrender] at hstore

/-- **A refused update does nothing but render a type.**  When one of the updates fails, the session
is the one in which rendering a type that the update concerns ends, and the failure names that type by
the text.  So the store, all of it, is what it was if everything that the text shows is settled. -/
theorem refused_update_renders (depth : Nat) (command : Command) (ref : TypeRef)
    (hupdates : command.updated? = some ref) (s s' : Session) (failure : Failure)
    (h : perform (depth + 1) command s = .ok (.error failure) s') :
    ∃ ty culprit d text error, lookupType ref s = .ok ty s ∧ s.store.Concerns ty culprit ∧ d ≤ depth ∧
      display (completerLoader depth) d culprit s = .ok text s' ∧
      failure = .type error ∧ error.Names text ∧
      (s.store.TextSettled s.store.options culprit → s'.store = s.store) := by
  obtain ⟨ty, error, hty, hfailure, culprit, d, text, hconcerns, hd, hdisplay, hnames⟩ :=
    execute_refused hupdates h
  exact ⟨ty, culprit, d, text, error, hty, hconcerns, hd, hdisplay, hfailure, hnames,
    fun hsettled => store_of_display hsettled hdisplay⟩

theorem Session.afterCommands_reachable (commands : List Command) :
    (Session.afterCommands commands).Reachable := by
  unfold afterCommands
  generalize hs : Session.initial {} .empty = s
  have hreachable : s.Reachable := hs ▸ .initial {} .empty
  clear hs
  induction commands generalizing s with
  | nil => exact hreachable
  | cons command commands ih => exact ih _ (.step 9 _ hreachable)

/-- A class that was declared and not defined, about to be mistaken for a type variable. -/
theorem refused_update_settles_class :
    let s := Session.afterCommands [.declareClass "C" none .none none]
    s.Reachable ∧ ∃ failure s',
      perform 9 (.setUpperBound (.handle ⟨12⟩) (.handle WellKnown.int)) s = .ok (.error failure) s' ∧
        (s.store.type? ⟨12⟩).map TypeData.kind = some (.classType { outer := WellKnown.missing }) ∧
        (s'.store.type? ⟨12⟩).map TypeData.kind =
          some (.classType { outer := WellKnown.missing, typeArgs := some [] }) := by
  refine ⟨Session.afterCommands_reachable _, _, _, rfl, ?_, ?_⟩
  · decide +kernel
  · decide +kernel

/-- A session with a quantified method type that takes a class and whose actuals are recorded. -/
def recordedMethod : Session :=
  .afterCommands
    [.declareClass "C" none .none none,
      .classType (.handle ⟨11⟩) none [] [] [] none false,
      .methodType [.handle ⟨13⟩] (.handle WellKnown.int) [],
      .forAll [] [] [] (.handle ⟨14⟩),
      .recordActuals (.handle ⟨15⟩) [] [] []]

/-- Recording actuals once more, through the quantifier, is refused and changes nothing. -/
theorem refused_update_renders_method : ∃ failure s',
    perform 9 (.recordActuals (.handle ⟨15⟩) [.handle WellKnown.int] [] []) recordedMethod =
        .ok (.error failure) s' ∧ s'.store = recordedMethod.store := by
  let shown : List TypeId := [⟨15⟩, ⟨14⟩, ⟨13⟩, WellKnown.int]
  have hclosed : ∀ ty ∈ shown, ∀ data ∈ recordedMethod.store.type? ty,
      ∀ inner ∈ recordedMethod.store.textParts data.symbol data.kind, inner ∈ shown := by
    decide +kernel
  have hvar : ∀ ty ∈ shown, ∀ data ∈ recordedMethod.store.type? ty, data.kind.var? = none := by
    decide +kernel
  have hsettled : ∀ ty ∈ shown, recordedMethod.store.TextSettled recordedMethod.store.options ty :=
    fun ty => Store.textSettled_of_closed shown (by decide +kernel) hclosed (by decide +kernel)
  have hconcerns : ∀ ty culprit, recordedMethod.store.Concerns ty culprit → ty ∈ shown →
      culprit ∈ shown := by
    intro ty culprit h
    induction h with
    | self => exact id
    | @body ty culprit data info hdata hkind _ ih =>
      intro hty
      refine ih (hclosed ty hty data hdata info.body ?_)
      rw [hkind]
      exact List.mem_append_right _ (List.mem_singleton.2 rfl)
    | @prototype ty owner data info hdata hinfo _ =>
      intro hty
      rw [hvar ty hty data hdata] at hinfo
      cases hinfo
  obtain ⟨failure, s', hrun⟩ : ∃ failure s',
      perform 9 (.recordActuals (.handle ⟨15⟩) [.handle WellKnown.int] [] []) recordedMethod =
        .ok (.error failure) s' := ⟨_, _, rfl⟩
  obtain ⟨ty, culprit, _, _, _, hty, hculprit, _, _, _, _, hsame⟩ :=
    refused_update_renders 8 _ _ rfl _ _ _ hrun
  injection hty with hty
  refine ⟨failure, s', hrun, hsame (hsettled culprit (hconcerns ty culprit hculprit ?_))⟩
  rw [← hty]
  exact List.mem_cons_self

end RegionTypes

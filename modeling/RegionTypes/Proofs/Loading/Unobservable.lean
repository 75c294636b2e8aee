import RegionTypes.Proofs.Loading.Reference

/-!
# Loading on demand cannot be observed

Classes are loaded when they are first asked about.  Their completers may ask about any type, so
they start each other, in any order and in cycles; while they run, the questions about unfinished
classes answer with empty lists.  None of this shows from outside.

* `Command.isObserved` — the questions about declarations.
* `Store.Prepared.ready` — questions may be asked of a prepared store.
* `observed_asks` — the answers to a sequence of questions.
* `loading_unobservable` — **each answer is the one that the store gives with all signatures defined
  beforehand**, every step of every completer succeeds, and each class that is loaded gets exactly the
  signature that its completer has for it.
-/

namespace RegionTypes

open Run

variable {r : Store} {P : Finset SymbolId} {s : Session} {b d : Nat}

/-- The questions about declarations. -/
def Query.isObserved : Query → Bool
  | typeArguments | regionArguments | effectArguments | supertype | interfaces | allTypeParams
  | allRegionParams | allEffectParams | isErroneous | isParameterized | hasRegionParams
  | hasEffectParams | isRaw | freeTypeVars => true
  | _ => false

/-- The questions about the declarations behind types of the store. -/
def Command.isObserved (s : Store) : Command → Bool
  | ask query (.handle ty) => query.isObserved && decide (s.Has ty)
  | contains (.handle ty) (.handle elem) => decide (s.Has ty) && decide (s.Has elem)
  | _ => false

/-- The observed questions are among those that may be asked, and they have a meaning. -/
theorem Command.isQuestion_of_isObserved {command : Command} {b : Nat} (h : command.isObserved r) :
    command.isQuestion r b ∧ (command.answerIn r).isSome := by
  cases command with
  | ask query ref =>
    cases ref with
    | named => cases h
    | handle ty =>
      obtain ⟨hquery, hty⟩ := Bool.and_eq_true_iff.1 h
      have hanswer : query.hasAnswer r ty ∧ (query.answerIn r ty).isSome := by
        cases query with
        | typeArguments | regionArguments | effectArguments | supertype | interfaces | allTypeParams
        | allRegionParams | allEffectParams | isErroneous | isParameterized | hasRegionParams
        | hasEffectParams | isRaw | freeTypeVars => exact ⟨rfl, rfl⟩
        | _ => cases hquery
      exact ⟨Bool.and_eq_true_iff.2 ⟨hty, hanswer.1⟩, hanswer.2⟩
  | contains ref elem =>
    cases ref with
    | named => cases h
    | handle =>
      cases elem with
      | named => cases h
      | handle => exact ⟨h, rfl⟩
  | _ => cases h

theorem Store.isObserved_reference (s : Store) (command : Command) :
    command.isObserved s.reference = command.isObserved s := by
  unfold Command.isObserved
  simp only [has_reference]

/-- **A sequence of questions**: each gets its answer, whatever the earlier ones have loaded. -/
theorem observed_asks (hr : r.Complete) (hthrown : r.ThrowsOlder) (hunsolved : r.Unsolved)
    (hb : r.types.size ≤ b) (hd : b + P.card + 1 < d) {commands : List Command}
    (hcommands : ∀ command ∈ commands, command.isQuestion r b ∧ (command.answerIn r).isSome) :
    Asks r b P True (commands.mapM (perform d)) fun out => ∃ answers : List Answer,
      out = answers.map .ok ∧
        List.Forall₂ (fun command answer => command.answerIn r = some answer) commands answers := by
  induction commands with
  | nil => exact .pure ⟨[], rfl, .nil⟩
  | cons command commands ih =>
    obtain ⟨hquestion, hmeaning⟩ := hcommands command List.mem_cons_self
    obtain ⟨answer, hanswer⟩ := Option.isSome_iff_exists.1 hmeaning
    rw [List.mapM_cons]
    refine (perform_asks hr hthrown hunsolved hb le_rfl hd command hquestion).bind fun out ⟨a, hout, ha⟩ => ?_
    obtain rfl := ha trivial answer hanswer
    refine (ih fun c hc => hcommands c (List.mem_cons_of_mem command hc)).bind
      fun outs ⟨answers, houts, hanswers⟩ => ?_
    subst hout houts
    exact .pure ⟨a :: answers, rfl, .cons hanswer hanswers⟩

/-- All symbols of a store. -/
def Store.symbolIds (s : Store) : Finset SymbolId := (Finset.range s.symbols.size).image SymbolId.mk

theorem Store.pendingIn_symbolIds (s : Store) : s.PendingIn s.symbolIds :=
  fun sym _ hy _ => Finset.mem_image.2 ⟨sym.index, Finset.mem_range.2 (symbol_lt hy), rfl⟩

theorem Store.card_symbolIds_le (s : Store) : s.symbolIds.card ≤ s.symbols.size :=
  Finset.card_image_le.trans (Finset.card_range _).le

namespace Store.Prepared

theorem ready (hs : s.store.Prepared b) : s.Ready s.store.reference b s.store.symbolIds True :=
  ⟨hs.lags, s.store.pendingIn_symbolIds, iff_of_true hs.inFlight trivial⟩

theorem reference_ready (hs : s.store.Prepared b) :
    Session.Ready { s with store := s.store.reference } s.store.reference b ∅ True := by
  refine ⟨hs.reference_lags, fun sym y hy hcompleter => ?_, ?_⟩
  · rw [hs.complete.pending y (Array.mem_of_getElem? hy)] at hcompleter
    cases hcompleter
  · refine iff_of_true ?_ trivial
    show s.store.reference.inFlight = 0
    rw [reference, size_defineAll.2]
    exact hs.inFlight

/-- The reference gives each answer at once. -/
theorem perform_reference (hs : s.store.Prepared b) (hb : s.store.types.size ≤ b) (hd : b + 1 < d)
    {command : Command} {answer : Answer} (hquestion : command.isQuestion s.store.reference b)
    (hanswer : command.answerIn s.store.reference = some answer) :
    ∃ t, perform d command { s with store := s.store.reference } = .ok (.ok answer) t := by
  obtain ⟨_, t, hrun, ⟨a, rfl, ha⟩, -⟩ := perform_asks (P := ∅) (n := 0) (d := d) hs.complete hs.thrown
    hs.unsolved (size_defineAll.1.trans_le hb) le_rfl hd command hquestion _ hs.reference_ready
  rw [ha trivial answer hanswer] at hrun
  exact ⟨t, hrun⟩

/-- A class has the signature that was promised for it, unless its completer is still pending. -/
theorem declares_or_pending (hs : s.store.Prepared b) {s' : Session}
    (h : s'.Ready s.store.reference b P True) {sym : SymbolId} {p : TypeId × ClassSignature}
    (hp : s.store.promise? sym = some p) : s'.store.Declares p.1 p.2 ∨
      ∃ y, s'.store.symbol? sym = some y ∧ y.completer.isSome := by
  obtain ⟨full, fullInfo, hfull, hkind, hdecl⟩ := hs.declares_reference hp
  obtain ⟨-, -, -, -, _, _, hdata₀, hsymbol₀, -⟩ := hs.promise hp
  obtain ⟨_, hdata₀', hcompleted⟩ := hs.of_type?_reference hfull
  obtain rfl := Option.some.inj (hdata₀.symm.trans hdata₀')
  obtain ⟨data, hdata, hlags⟩ := h.lags.types p.1 full hfull
  cases hlags with
  | other kind =>
    rw [hkind] at kind
    cases kind
  | classType hlags =>
    obtain rfl := Kind.classType.inj hkind
    obtain hblank | hsame := hlags.declaration
    · obtain ⟨sym', y, hsymbol, hy, -, hwaits⟩ := h.lags.waiting p.1 _ _ hdata rfl hblank
      have hsym : sym' = sym := by
        cases hcompleted with
        | kept | defined => exact Option.some.inj (hsymbol.symm.trans hsymbol₀)
      subst hsym
      exact .inr ⟨y, hy, hwaits.resolve_right (h.not_running trivial hy)⟩
    · exact .inl ⟨_, _, hdata, rfl, hsame.trans hdecl⟩

end Store.Prepared

/-- **Loading on demand cannot be observed.**  Let a store have grown out of a new one by operations on
handles of its own, such that no class has been loaded yet and every class that is still blank has a
completer, which asks questions and then defines the class.  All signatures can be defined beforehand, in
the store without completers.  Every question about declarations that is asked of the store with
completers, in whatever order, gets the answer that this reference gives at once.  No step of a completer
fails, and a class that is loaded has exactly the signature that its completer gives it. -/
theorem loading_unobservable (options : DisplayOptions) (audience : Log.Filter) (s : Session)
    (hleads : (Session.initial options audience).Leads s) (hunloaded : s.store.Unloaded) (b : Nat)
    (hb : s.store.types.size ≤ b) (hloadable : s.store.Loadable b) (commands : List Command)
    (hcommands : ∀ command ∈ commands, command.isObserved s.store) (depth : Nat)
    (hdepth : b + s.store.symbols.size + 1 < depth) :
    ∃ reference : Session,
      (s.store.promises.map definitionCommand).mapM (perform depth)
          { s with store := s.store.withoutCompleters } =
        .ok (s.store.promises.map fun _ => .ok .nothing) reference ∧
      ∃ (answers : List Answer) (s' : Session),
        commands.mapM (perform depth) s = .ok (answers.map .ok) s' ∧
        List.Forall₂ (fun command answer =>
          ∃ t, perform depth command reference = .ok (.ok answer) t) commands answers ∧
        (∃ new, s'.trace = new ++ s.trace ∧ ∀ entry ∈ new, entry.succeeded) ∧
        ∀ sym p, s.store.promise? sym = some p → s'.store.Declares p.1 p.2 ∨
          ∃ y, s'.store.symbol? sym = some y ∧ y.completer.isSome := by
  have hs : s.store.Prepared b := ⟨hunloaded, hleads.consistent, hleads.anchored, hloadable⟩
  obtain ⟨d, rfl⟩ : ∃ d, depth = d + 1 := ⟨depth - 1, by omega⟩
  refine ⟨{ s with store := s.store.reference }, hs.define_run, ?_⟩
  have hcard := s.store.card_symbolIds_le
  have hquestions : ∀ command ∈ commands, command.isQuestion s.store.reference b ∧
      (command.answerIn s.store.reference).isSome := fun command hcommand =>
    Command.isQuestion_of_isObserved (s.store.isObserved_reference command ▸ hcommands command hcommand)
  obtain ⟨_, s', hrun, ⟨answers, rfl, hanswers⟩, hlags, hevolves⟩ :=
    observed_asks (d := d + 1) hs.complete hs.thrown hs.unsolved (Store.size_defineAll.1.trans_le hb)
      (by omega) hquestions s hs.ready
  refine ⟨answers, s', hrun, ?_, hevolves.trace, fun sym p hp => ?_⟩
  · refine ((List.forall₂_and_left _ _).2 ⟨hquestions, hanswers⟩).imp
      fun command answer ⟨⟨hquestion, _⟩, hanswer⟩ => ?_
    exact hs.perform_reference hb (by omega) hquestion hanswer
  · exact hs.declares_or_pending (hs.ready.evolve hlags hevolves) hp

/-! ### Two classes that load each other -/

/-- A session with classes `Node<T>` and `List<U>`, the one a subclass of the other and the bound of its
own parameter, and with types over them: `List<Node>`, a raw `Node`, a method type quantified over `T`,
and a wildcard.  The completer of each class asks about the other class and about types made from both,
and one of them has such a type rendered. -/
def mutualSession : Session :=
  .afterCommands [.newTypeVar "T" none none,
    .newTypeVar "U" none none,
    .declareClass "Node" none .none none,
    .declareClass "List" none .none none,
    .setUpperBound (.handle ⟨12⟩) (.handle ⟨14⟩),
    .classType (.handle ⟨14⟩) none [.handle ⟨14⟩] [] [] none false,
    .classType (.handle ⟨13⟩) none [] [] [] none false,
    .arrayType (.handle ⟨16⟩) none none,
    .methodType [.handle ⟨18⟩, .handle ⟨12⟩] (.handle ⟨17⟩) [],
    .forAll [.handle ⟨12⟩] [] [] (.handle ⟨19⟩),
    .wildcard (.handle ⟨16⟩) .upper none,
    .setCompleter (.handle ⟨13⟩)
      [(none, .ask .typeArguments (.handle ⟨15⟩)),
        (some "params", .ask .allTypeParams (.handle ⟨14⟩)),
        (none, .defineClass (.handle ⟨14⟩) [.handle ⟨12⟩] [.named "R"] [] (some (.handle ⟨15⟩)) [])]
      true none,
    .setCompleter (.handle ⟨14⟩)
      [(none, .ask .isRaw (.handle ⟨17⟩)),
        (none, .contains (.handle ⟨20⟩) (.handle ⟨12⟩)),
        (none, .display (.handle ⟨20⟩) none),
        (none, .defineClass (.handle ⟨15⟩) [.handle ⟨13⟩] [] [] none [])]
      false (some "unfinished")]

set_option maxRecDepth 2048 in
theorem mutualSession_leads : (Session.initial {} .empty).Leads mutualSession := by
  simp only [mutualSession, Session.afterCommands, List.foldl_cons, List.foldl_nil]
  iterate 13 refine Session.Leads.after_step _ _ ?_ rfl
  exact .refl _

/-- Questions of which the first starts the completer of `Node`; that one starts the completer of
`List`, which asks about `Node` again. -/
def mutualQuestions : List Command :=
  [.ask .isRaw (.handle ⟨17⟩), .ask .supertype (.handle ⟨14⟩), .ask .allRegionParams (.handle ⟨17⟩),
    .ask .freeTypeVars (.handle ⟨20⟩), .contains (.handle ⟨20⟩) (.handle ⟨12⟩)]

/-- The cycle does not show. -/
theorem loading_unobservable_mutual :
    (mutualSession.store.Unloaded ∧ mutualSession.store.Loadable 81 ∧
      ∀ command ∈ mutualQuestions, command.isObserved mutualSession.store) ∧
    ∃ (reference : Session) (answers : List Answer) (s' : Session),
      (mutualSession.store.promises.map definitionCommand).mapM (perform 99)
          { mutualSession with store := mutualSession.store.withoutCompleters } =
        .ok [.ok .nothing, .ok .nothing] reference ∧
      mutualQuestions.mapM (perform 99) mutualSession = .ok (answers.map .ok) s' ∧
      List.Forall₂ (fun command answer => ∃ t, perform 99 command reference = .ok (.ok answer) t)
        mutualQuestions answers ∧
      ∀ sym p, mutualSession.store.promise? sym = some p → s'.store.Declares p.1 p.2 ∨
        ∃ y, s'.store.symbol? sym = some y ∧ y.completer.isSome := by
  have hunloaded : mutualSession.store.Unloaded := by decide +kernel
  have hloadable : mutualSession.store.Loadable 81 := by decide +kernel
  have hobserved : ∀ command ∈ mutualQuestions, command.isObserved mutualSession.store := by
    decide +kernel
  have hpromises : mutualSession.store.promises.length = 2 := by decide +kernel
  obtain ⟨reference, hreference, answers, s', hrun, hanswers, -, hloaded⟩ :=
    loading_unobservable {} .empty mutualSession mutualSession_leads hunloaded 81 (by decide +kernel)
      hloadable mutualQuestions hobserved 99 (by decide +kernel)
  rw [List.map_const', hpromises] at hreference
  exact ⟨⟨hunloaded, hloadable, hobserved⟩, reference, answers, s', hreference, hrun, hanswers, hloaded⟩

end RegionTypes

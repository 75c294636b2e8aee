import RegionTypes.Proofs.Completion.Ahead
import RegionTypes.Proofs.Store.Refusal

/-!
# Extra reads

A question that is asked in passing, of classes whose signatures are there, leaves nothing behind but
derived lists.  The rest of a script then takes the same course as without the question, with one
exception: omitted region arguments that the question has filled in stay filled in when the class is
damaged, whereas nothing is filled in after the damage.

A question that starts a completer is another matter.  What the completer does, it then does earlier.

* `Store.Supplied` — every class has its signature; `read_quiet` — **questions leave such a store as it
  is**, up to derived lists.
* `Session.final`, `Report.plain` — where a script leads, and what its reports show.
* `Session.run_ahead` — two runs of a script, by induction on the script.
* `extra_read_unobservable` — **a question that leaves nothing else behind does not show** in any later
  report.
* `extra_read_observable` — the exceptions.
-/

namespace RegionTypes

open Run Tie

/-! ### Questions about classes with signatures -/

/-- Every class has its declared lists, and nothing is left to be loaded. -/
structure Store.Supplied (s : Store) : Prop where
  lists : ∀ {β : Type} (slot : Slot β), slot.Declared → ∀ ty info, s.class? ty = some info →
    slot.read info ≠ none
  loaded : ∀ sym y, s.symbol? sym = some y → y.completer = none

namespace Store

variable {s t : Store}

theorem supplied_iff : s.Supplied ↔
    (s.types.all fun data => data.kind.class?.all fun info =>
      info.typeArgs.isSome && info.regionArgs.isSome && info.effectArgs.isSome) = true ∧
    (s.symbols.all fun y => y.completer.isNone) = true := by
  simp only [Array.all_eq_true_iff_forall_mem, Array.mem_iff_getElem?]
  constructor
  · intro hs
    refine ⟨?_, ?_⟩
    · rintro data ⟨i, hdata⟩
      cases hclass : data.kind.class? with
      | none => rfl
      | some info =>
        have hinfo : s.class? ⟨i⟩ = some info :=
          class?_eq_some.2 ⟨data, hdata, Kind.class?_eq_some.1 hclass⟩
        have hlist : ∀ {β : Type} (slot : Slot β), slot.Declared → (slot.read info).isSome := by
          intro β slot hslot
          exact Option.isSome_iff_ne_none.2 (hs.lists slot hslot ⟨i⟩ info hinfo)
        have htypes : info.typeArgs.isSome := hlist .typeArgs .typeArgs
        have hregions : info.regionArgs.isSome := hlist .regionArgs .regionArgs
        have heffects : info.effectArgs.isSome := hlist .effectArgs .effectArgs
        rw [Option.all_some, htypes, hregions, heffects]
        rfl
    · rintro y ⟨i, hy⟩
      exact Option.isNone_iff_eq_none.2 (hs.loaded ⟨i⟩ y hy)
  · rintro ⟨htypes, hsymbols⟩
    refine ⟨fun slot hslot ty info hinfo => ?_, fun sym y hy => ?_⟩
    · obtain ⟨data, hdata, hkind⟩ := class?_eq_some.1 hinfo
      have hlists := htypes data ⟨ty.index, hdata⟩
      rw [hkind] at hlists
      simp only [Kind.class?, Option.all_some, Bool.and_eq_true, Option.isSome_iff_ne_none] at hlists
      cases hslot with
      | typeArgs => exact hlists.1.1
      | regionArgs => exact hlists.1.2
      | effectArgs => exact hlists.2
    · exact Option.isNone_iff_eq_none.1 (hsymbols y ⟨sym.index, hy⟩)

instance (s : Store) : Decidable s.Supplied := decidable_of_iff' _ supplied_iff

theorem Twin.supplied (h : s.Twin t) (hs : s.Supplied) : t.Supplied where
  lists slot hslot ty info hinfo := by
    obtain ⟨info', hinfo', hplain⟩ := h.symm.exists_class? hinfo
    rw [← hslot.read_plain, ← hplain, hslot.read_plain]
    exact hs.lists slot hslot ty info' hinfo'
  loaded sym y hy := hs.loaded sym y ((h.symbol? sym).symm.trans hy)

theorem Twin.owns {ty : TypeId} {symbol : Option SymbolId} (h : s.Twin t) (hs : s.Owns ty symbol) :
    t.Owns ty symbol := by
  obtain ⟨data, hdata, hsymbol⟩ := hs
  obtain ⟨data', hdata', hplain⟩ := h.exists_type? hdata
  have hsame : data'.plain.symbol = data.plain.symbol := by rw [hplain]
  exact ⟨data', hdata', hsame.trans hsymbol⟩

/-- Setting a list that is unset is keeping a derived one. -/
theorem SetsList.twin (h : s.SetsList t) (hs : s.Supplied) : s.Twin t := by
  cases h with
  | settle slot ty data info hslot hdata hkind hunset =>
    exact absurd hunset (hs.lists slot hslot ty info (class?_eq_some.2 ⟨data, hdata, hkind⟩))
  | remember slot ty list data info hslot => exact .fill hslot s ty list

end Store

instance : IsPreorder Store fun s t => s.Supplied → s.Twin t where
  refl s _ := .refl s
  trans _ _ _ hst htu hs := (hst hs).trans (htu ((hst hs).supplied hs))

/-- One run from a session in which every class has its signature, with nothing but derived lists being
set. -/
def Session.reading (b : Session) : Tie where
  Moves s t := s.Supplied → s.Twin t
  Holds s t := t.store = s.store ∧ t.names = s.names ∧ t.audience = s.audience ∧ s.store.Supplied ∧
    b.Twin s
  Ends _ _ := True
  Void _ := False
  Lax := False
  Installs := True

variable {s s' t : Session} {r w : Store}

theorem Session.Twin.of_store {b : Session} {u : Store} (h : b.Twin s) (hu : s.store.Twin u) :
    b.Twin { s with store := u } :=
  ⟨h.store.trans hu, h.names, h.audience⟩

instance (b : Session) : b.reading.Exact where
  preorder := inferInstanceAs (IsPreorder Store fun s t => s.Supplied → s.Twin t)
  void _ := id
  twin h := ⟨by rw [h.1]; exact .refl _, h.2.1, h.2.2.1⟩
  ends _ := trivial
  log _ h := ⟨h.1, h.2.1, h.2.2.1, h.2.2.2.1, h.2.2.2.2.store, h.2.2.2.2.names, h.2.2.2.2.audience⟩
  change h _ hs _ := ⟨by rw [h.1], h.2.1, h.2.2.1, (hs h.2.2.2.1).supplied h.2.2.2.1,
    h.2.2.2.2.of_store (hs h.2.2.2.1)⟩
  owns h hmoves := (hmoves h.2.2.2.1).owns
  store h := h.1
  remember h _ _ _ _ _ hmoves := ⟨congrArg (Store.setList · _ _ _) h.1, h.2.1, h.2.2.1,
    (hmoves h.2.2.2.1).supplied h.2.2.2.1, h.2.2.2.2.of_store (hmoves h.2.2.2.1)⟩

/-- Where nothing is left to be loaded, loading looks the symbol up. -/
theorem completerLoader_of_supplied (n : Nat) (sym : SymbolId) (hs : s.store.Supplied) :
    completerLoader n sym s = (symbolData sym >>= fun _ => pure (.ok ())) s := by
  rw [completerLoader, completeSymbol_eq]
  cases hrun : symbolData sym s with
  | error => rw [bind_run_error hrun, bind_run_error hrun]
  | ok y =>
    obtain ⟨rfl, hy⟩ := eq_of_symbolData hrun
    rw [bind_run hrun, bind_run hrun, hs.loaded sym y hy]

theorem completerLoader_reading (n : Nat) (b : Session) :
    (completerLoader n).Tied (completerLoader n) b.reading where
  sets _ _ h := h.twin
  load sym := by
    have hlookup : b.reading.Keeps
        (symbolData sym >>= fun _ => pure (.ok ()) : Run (Except CompletionError Unit)) :=
      (symbolData_keeps sym).bind fun _ => keeps_pure _
    refine keepsBy_of (fun s hs => ?_) fun s t hst => ?_
    · have hsame := hlookup.along s hs
      rw [after, ← completerLoader_of_supplied n sym hs] at hsame
      exact hsame
    · have hstep := hlookup.inStep s t hst
      unfold InStep at hstep ⊢
      rw [completerLoader_of_supplied n sym hst.2.2.2.1,
        completerLoader_of_supplied n sym (by rw [hst.1]; exact hst.2.2.2.1)]
      exact hstep

/-- **A question changes nothing but derived lists** where every class has its signature. -/
theorem read_quiet {depth : Nat} {read : Command} {outcome : Outcome} (hread : read.isRead = true)
    (hs : s.store.Supplied) (hrun : perform depth read s = .ok outcome s') : s.Twin s' := by
  cases depth with
  | zero => cases hrun
  | succ depth =>
    have hkeeps : s.reading.Keeps (perform (depth + 1) read) :=
      execute_read_keeps (completerLoader_reading depth s).asks depth hread
    have hstep := hkeeps.inStep s s ⟨rfl, rfl, rfl, hs, .refl s⟩
    unfold InStep at hstep
    rw [hrun] at hstep
    exact (hstep.resolve_left id).2.2.2.2.2

/-! ### Runs of scripts -/

/-- The session in which a script ends. -/
def Session.final (s : Session) : List Step → Session
  | [] => s
  | step :: rest =>
    match makeStep (perform nestingLimit) step { s with trace := [] } with
    | .ok _ next => next.final rest
    | .error _ next => next

/-- The report without derived lists. -/
def Report.plain (report : Report) : Report where
  outcome := report.outcome.map Outcome.plain
  trace := report.trace.map TraceEntry.plain

theorem Report.plain_eq {outcome outcome' : Except Stop Outcome} {trace trace' : List TraceEntry}
    (houtcome : outcome'.map Outcome.plain = outcome.map Outcome.plain)
    (htrace : trace'.map TraceEntry.plain = trace.map TraceEntry.plain) :
    Report.plain ⟨outcome', trace'.reverse⟩ = Report.plain ⟨outcome, trace.reverse⟩ := by
  simp only [Report.plain, houtcome, List.map_reverse, htrace]

theorem Session.final_later (s : Session) (script : List Step) :
    s.store.Later (s.final script).store := by
  induction script generalizing s with
  | nil => exact refl_of Store.Later _
  | cons step rest ih =>
    have hstep := makeStep_along (perform_later nestingLimit step.2) { s with trace := [] }
    rw [Session.final]
    cases hrun : makeStep (perform nestingLimit) step { s with trace := [] } with
    | ok outcome next =>
      rw [after_of_ok hrun] at hstep
      exact trans_of Store.Later hstep (ih next)
    | error =>
      rw [after_of_error hrun] at hstep
      exact hstep

theorem Session.Ahead.unnoted (h : Session.Ahead r w s t) :
    Session.Ahead r w { s with trace := [] } { t with trace := [] } :=
  ⟨⟨h.twin.store, h.twin.names, h.twin.audience⟩, rfl, h.store⟩

/-- **Two runs of a script**, of which the second starts with more that is kept. -/
theorem Session.run_ahead (hw : r.Warms w) (script : List Step)
    (hst : Session.Ahead r w { s with trace := [] } { t with trace := [] })
    (hdeep : ∀ report ∈ s.run script, report.outcome ≠ .error .tooDeep)
    (hdamage : ¬ (r.ahead w).Void (s.final script).store) :
    (t.run script).map Report.plain = (s.run script).map Report.plain := by
  induction script generalizing s t with
  | nil => rfl
  | cons step rest ih =>
    have hstep := (makeStep_keeps (perform_ahead hw nestingLimit step.2)).inStep _ _ hst
    unfold InStep at hstep
    rw [Session.run, Session.run]
    rw [Session.run] at hdeep
    rw [Session.final] at hdamage
    cases hrun : makeStep (perform nestingLimit) step { s with trace := [] } with
    | ok outcome next =>
      simp only [hrun] at hstep hdeep hdamage ⊢
      have hgoes := hstep.resolve_left fun hvoid =>
        hdamage (Lawful.void (T := r.ahead w) (next.final_later rest) hvoid)
      cases hrun' : makeStep (perform nestingLimit) step { t with trace := [] } with
      | error =>
        rw [hrun'] at hgoes
        exact hgoes.elim
      | ok outcome' =>
        rw [hrun'] at hgoes
        obtain ⟨hab, hst'⟩ := hgoes
        have hrest := ih hst'.unnoted
          (fun report hreport => hdeep report (List.mem_cons_of_mem _ hreport)) hdamage
        have houtcome : (Except.ok outcome' : Except Stop Outcome).map Outcome.plain =
            (Except.ok outcome).map Outcome.plain := congrArg Except.ok hab
        rw [List.map_cons, List.map_cons, hrest, Report.plain_eq houtcome hst'.trace]
    | error =>
      simp only [hrun] at hstep hdeep hdamage ⊢
      have hstops := hstep.resolve_left fun hexcused => hexcused.elim hdamage fun hlax =>
        hdeep _ List.mem_cons_self (congrArg Except.error hlax.2)
      cases hrun' : makeStep (perform nestingLimit) step { t with trace := [] } with
      | ok =>
        rw [hrun'] at hstops
        exact hstops.elim
      | error =>
        rw [hrun'] at hstops
        obtain ⟨rfl, htrace⟩ := hstops
        rw [List.map_cons, List.map_cons, Report.plain_eq rfl htrace]

/-! ### One more question -/

theorem Store.Twin.sameDeclarations {s t : Store} (h : s.Twin t) : s.SameDeclarations t where
  size := h.size
  canonical symbol := by
    rw [Store.canonical?, Store.canonical?]
    exact congrArg (Option.bind symbol) (funext fun sym => by rw [h.symbol? sym])
  declared _ hslot ty := h.list?_declared hslot ty

/-- What a command leaves behind that changes nothing else follows from what the store holds. -/
theorem warms_of_quiet {depth : Nat} {read : Command} {outcome : Outcome} (hs : s.store.Idle)
    (hrun : perform depth read s = .ok outcome s') (hquiet : s.Twin s') : s.store.Warms s'.store where
  twin := hquiet.store
  later := (perform_later depth read).of_ok hrun
  derived d := by
    have hstep := (perform_calm (b := s.store) depth read).inStep s s ⟨rfl, rfl, rfl, .inr (.refl hs)⟩
    unfold InStep at hstep
    rw [hrun] at hstep
    have hcases := (hstep.resolve_left id).2.2.2.2
    exact (hcases.resolve_left hquiet.store.sameDeclarations.not_enriched).derived d

theorem Store.Warms.ahead (h : r.Warms w) : r.Ahead w r w where
  first := refl_of Store.Later r
  second := refl_of Store.Later w
  lists d ty := by
    cases hlist : r.list? d.slot ty with
    | none => exact .inr ⟨rfl, rfl⟩
    | some => exact .inl (h.later.precedes.list? (q := d.listing) hlist)
  canonical _ _ _ := .inl rfl

/-- **An extra question does not show.**  Take a session between the steps of a script and a command
that returns and leaves everything as it is, apart from derived lists.  Carried out as one more step, it
makes no difference to the reports on the later steps, whatever these are, with the same answers and
failures, the same loading and the same stops.  There are two provisos: without the extra step no report
is of nesting too deep, and no class is damaged of which the extra step was the first to fill in omitted
region arguments.

Every question about lists, accumulated lists and predicates is such a command where the classes have
their signatures and no completer is pending. -/
theorem extra_read_unobservable :
    (∀ (s : Session) (read : Command) (outcome : Outcome) (s' : Session), s.TopLevel →
      perform nestingLimit read { s with trace := [] } = .ok outcome s' → s.Twin s' →
      ∀ script : List Step, (∀ report ∈ s.run script, report.outcome ≠ .error .tooDeep) →
        (∀ sym, s.store.Backfills s'.store sym → ¬ (s.final script).store.Damaged sym) →
          (s.run ((none, read) :: script)).tail.map Report.plain = (s.run script).map Report.plain) ∧
    ∀ (s : Session) (read : Command) (outcome : Outcome) (s' : Session), s.store.Supplied →
      read.isRead → perform nestingLimit read s = .ok outcome s' → s.Twin s' := by
  refine ⟨?_, fun s read outcome s' hs hread hrun => read_quiet hread hs hrun⟩
  intro s read outcome s' hs hrun hquiet script hdeep hdamage
  have hquiet' : Session.Twin { s with trace := [] } s' := ⟨hquiet.store, hquiet.names, hquiet.audience⟩
  have hw : s.store.Warms s'.store :=
    warms_of_quiet (s := { s with trace := [] }) hs.report.idle hrun hquiet'
  have hstep : makeStep (perform nestingLimit) (none, read) { s with trace := [] } = .ok outcome s' := by
    rw [makeStep, bind_run hrun]
    cases outcome <;> rfl
  rw [Session.run, hstep]
  refine Session.run_ahead hw script ⟨⟨hquiet.store, hquiet.names, hquiet.audience⟩, rfl, hw.ahead⟩ hdeep ?_
  rintro ⟨sym, hfills, hdamaged⟩
  exact hdamage sym hfills hdamaged

/-- A session with a class that has a region parameter, and a use of it that omits the argument. -/
def omittedRegion : Session :=
  let declared := (makeStep (perform 9) (none, .declareClass "C" none .none none)).after
    (.initial {} .empty)
  let defined := (makeStep (perform 9)
    (none, .defineClass (.handle ⟨12⟩) [] [⟨[.param "R"]⟩] [] none [])).after declared
  (makeStep (perform 9) (none, .classType (.handle ⟨11⟩) none [] [] [] none false)).after defined

/-- The omitted argument is asked for once more, before another class is damaged. -/
theorem extra_read_unobservable_omitted :
    let read := Command.ask .regionArguments (.handle ⟨13⟩)
    let script : List Step := [(none, .declareClass "D" none .none none),
      (none, .errorTypeForClass (.handle ⟨12⟩)), (none, read),
      (none, .ask .allRegionParams (.handle ⟨13⟩))]
    omittedRegion.TopLevel ∧ omittedRegion.store.Supplied ∧
      omittedRegion.store.list? .resolvedRegions ⟨13⟩ = none ∧
      ∃ s', perform nestingLimit read { omittedRegion with trace := [] } =
          .ok (.ok (.regions [Path.root])) s' ∧
        omittedRegion.Twin s' ∧ s'.store.list? .resolvedRegions ⟨13⟩ = some [Path.root] ∧
        (omittedRegion.run ((none, read) :: script)).tail.map Report.plain =
          (omittedRegion.run script).map Report.plain := by
  intro read script
  have hs : omittedRegion.TopLevel := by
    unfold omittedRegion
    exact .after_step (.after_step (.after_step (.initial {} .empty) rfl) rfl) rfl
  have hsupplied : omittedRegion.store.Supplied := by decide +kernel
  obtain ⟨s', hrun, hlist, hclasses⟩ : ∃ s',
      perform nestingLimit read { omittedRegion with trace := [] } =
        .ok (.ok (.regions [Path.root])) s' ∧
      s'.store.list? .resolvedRegions ⟨13⟩ = some [Path.root] ∧
      s'.store.types.all (fun data => data.kind.class?.isNone || data.symbol == some ⟨11⟩) = true :=
    ⟨_, rfl, rfl, by decide +kernel⟩
  have hquiet : omittedRegion.Twin s' := by
    obtain ⟨hstore, hnames, haudience⟩ := extra_read_unobservable.2 _ _ _ _ hsupplied rfl hrun
    exact ⟨hstore, hnames, haudience⟩
  refine ⟨hs, hsupplied, rfl, s', hrun, hquiet, hlist, ?_⟩
  refine extra_read_unobservable.1 _ _ _ _ hs hrun hquiet script ?_ ?_
  · have hdeep : (omittedRegion.run script).all (·.outcome.isOk) = true := by decide +kernel
    intro report hreport hstop
    have hreturned := List.all_eq_true.1 hdeep report hreport
    rw [hstop] at hreturned
    cases hreturned
  · -- the only class with a type at hand is not the one that is damaged
    rintro sym ⟨ty, list, ⟨data, hdata, hsym⟩, hregions, -⟩ ⟨y, _, hy, hkind, -⟩
    obtain ⟨info, hinfo, -⟩ := Option.bind_eq_some_iff.1 hregions
    obtain ⟨_, hdata', hclass⟩ := Store.class?_eq_some.1 hinfo
    obtain rfl := Option.some.inj (hdata.symm.trans hdata')
    have hsame := Array.all_eq_true_iff_forall_mem.1 hclasses data (Array.mem_of_getElem? hdata)
    rw [hclass, hsym] at hsame
    obtain rfl : sym = ⟨11⟩ := by simpa [Kind.class?] using hsame
    have hundamaged :
        ((omittedRegion.final script).store.symbol? ⟨11⟩).map Symbol.kind = some .type := by
      decide +kernel
    rw [hy, Option.map_some, hkind] at hundamaged
    cases hundamaged

/-- **Extra questions that show.**

* The omitted region argument of a class, asked for before the class is damaged: the answer stays.
* A class with a completer that is asked about before the class is damaged: it has been loaded.
* A class with a completer that makes a type variable: what is made later gets another handle. -/
theorem extra_read_observable :
    (let before := [.declareClass "C" none .none none,
        .defineClass (.handle ⟨12⟩) [] [⟨[.param "R"]⟩] [] none [],
        .classType (.handle ⟨11⟩) none [] [] [] none false]
      let read := Command.ask .regionArguments (.handle ⟨13⟩)
      let damage := Command.errorTypeForClass (.handle ⟨11⟩)
      (Session.afterCommands before).store.Supplied ∧
        (∃ t, perform 9 read (Session.afterCommands (before ++ [damage])) =
          .ok (.ok (.regions [])) t) ∧
        ∃ t, perform 9 read (Session.afterCommands (before ++ [read, damage])) =
          .ok (.ok (.regions [Path.root])) t) ∧
    (let before := [.newTypeVar "T" none none, .declareClass "C" none .none none,
        .setCompleter (.handle ⟨12⟩)
          [(none, .defineClass (.handle ⟨13⟩) [.handle ⟨12⟩] [] [] none [])] false none]
      let read := Command.ask .typeArguments (.handle ⟨13⟩)
      let damage := Command.errorTypeForClass (.handle ⟨12⟩)
      (∃ t, perform 9 read (Session.afterCommands (before ++ [damage])) = .ok (.ok (.types [])) t) ∧
        ∃ t, perform 9 read (Session.afterCommands (before ++ [read, damage])) =
          .ok (.ok (.types [⟨12⟩])) t) ∧
    (let before := [.declareClass "C" none .none none,
        .setCompleter (.handle ⟨11⟩) [(some "T", .newTypeVar "T" none none),
          (none, .defineClass (.handle ⟨12⟩) [.named "T"] [] [] none [])] false none]
      let read := Command.ask .isParameterized (.handle ⟨12⟩)
      let later := Command.newTypeVar "X" none none
      (∃ t, perform 9 later (Session.afterCommands before) = .ok (.ok (.type (some ⟨13⟩))) t) ∧
        ∃ t, perform 9 later (Session.afterCommands (before ++ [read])) =
          .ok (.ok (.type (some ⟨14⟩))) t) := by
  refine ⟨⟨by decide +kernel, ?_, ?_⟩, ⟨?_, ?_⟩, ?_, ?_⟩
  all_goals exact ⟨_, rfl⟩

end RegionTypes

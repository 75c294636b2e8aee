import RegionTypes.Proofs.Completion.Stable
import RegionTypes.Proofs.Completion.Watched

/-!
# The books of completion

The store counts the completers that are running, and a symbol that gets a completer is completed with
it once.

* `Watch.balance` — objects where the count is not that of the stack; `Watch.installs` — notes each call
  that gives a symbol a completer.
* `Session.Noted` — a session with that of the same run under watch.
* `Tie.counting` — the two runs, in which a completer that is pending has been noted but not started.
* `performWatched_pairs` — **every command takes the same course under watch**.
* `completion_bookkeeping` — the count is right, it is zero between steps, and completers are started no
  more often than they are installed.
-/

namespace RegionTypes

open Run Tie

/-- The command gives the symbol a completer. -/
def Point.installs (sym : SymbolId) (s : Session) : Point → Bool
  | .starts (.setCompleter ref _ _ _) =>
    match lookupSymbol ref s with
    | .ok found _ => found == sym
    | .error _ _ => false
  | _ => false

/-- Stops the run where the number of completers that the store counts as running is not that of the
stack. -/
def Watch.balance (alarm : Stop) : Watch := fun stack _ => do
  if (← get).store.inFlight = stack.length then pure () else throw alarm

/-- Notes each command that gives the symbol a completer. -/
def Watch.installs (sym : SymbolId) (mark : TraceEntry) : Watch := fun _ point => do
  if point.installs sym (← get) then note mark

/-- The entry notes the start of the symbol's completer. -/
def TraceEntry.begins (sym : SymbolId) : TraceEntry → Bool
  | .began a => a == sym
  | _ => false

/-- How many completers of the symbol have been started. -/
def Session.starts (s : Session) (sym : SymbolId) : Nat := s.trace.countP (·.begins sym)

/-! ### Pending completers -/

namespace Store

variable {s t : Store} {sym a : SymbolId}

/-- The number of completers that the symbol still has, which is one or none. -/
def pending (s : Store) (sym : SymbolId) : Nat :=
  if ((s.symbol? sym).bind Symbol.completer).isSome then 1 else 0

theorem pending_le_one (s : Store) (sym : SymbolId) : s.pending sym ≤ 1 := by
  unfold pending
  split <;> omega

theorem pending_le (h : ∀ y, t.symbol? sym = some y → y.completer.isSome →
    ∃ x, s.symbol? sym = some x ∧ x.completer.isSome) : t.pending sym ≤ s.pending sym := by
  unfold pending
  split
  · next hsome =>
    obtain ⟨completer, hcompleter⟩ := Option.isSome_iff_exists.1 hsome
    obtain ⟨y, hy, hpending⟩ := Option.bind_eq_some_iff.1 hcompleter
    obtain ⟨x, hx, hwas⟩ := h y hy (by rw [hpending]; rfl)
    rw [hx, Option.bind_some, if_pos hwas]
  · exact Nat.zero_le _

theorem pending_eq (h : t.symbols = s.symbols) : t.pending sym = s.pending sym := by
  rw [pending, pending, symbol?, symbol?, h]

theorem pending_updateSymbol_le {f : Symbol → Symbol}
    (h : ∀ y, a = sym → (f y).completer.isSome → y.completer.isSome) :
    (s.updateSymbol a f).pending sym ≤ s.pending sym := by
  refine pending_le fun y hy hpending => ?_
  rw [symbol?_updateSymbol] at hy
  split at hy
  · next heq =>
    obtain ⟨x, hx, rfl⟩ := Option.map_eq_some_iff.1 hy
    exact ⟨x, hx, h x heq hpending⟩
  · exact ⟨y, hy, hpending⟩

theorem pending_pushSymbol_le {symbol : Symbol} (h : symbol.completer = none) :
    (s.pushSymbol symbol).pending sym ≤ s.pending sym := by
  refine pending_le fun y hy hpending => ?_
  rw [symbol?_pushSymbol] at hy
  split at hy
  · obtain rfl := Option.some.inj hy
    rw [h] at hpending
    cases hpending
  · exact ⟨y, hy, hpending⟩

theorem Permits.pending_le {f : Store → Store} (hf : s.Permits False f) :
    (f s).pending sym ≤ s.pending sym := by
  have hsame : ∀ t : Store, t.symbols = s.symbols → t.pending sym ≤ s.pending sym := fun t h =>
    (pending_eq h).le
  cases hf with
  | declare => exact pending_pushSymbol_le rfl
  | declareTyped name owner kind flags data =>
    have hpushed : ((s.pushSymbol { name, owner, kind, flags }).pushType (data s.nextSymbol)).pending sym
        ≤ s.pending sym := (pending_eq rfl).le.trans (pending_pushSymbol_le rfl)
    exact le_trans (pending_updateSymbol_le fun _ _ h => h) hpushed
  | symbol a f hf =>
    exact pending_updateSymbol_le fun y _ h => ((hf y).2.2 h).resolve_right id
  | damage =>
    refine le_trans (pending_updateSymbol_le fun _ _ h => ?_) (hsame _ rfl)
    exact nomatch (h : (none : Option Completer).isSome = true)
  | _ => exact hsame _ rfl

theorem pending_detach {y : Symbol} {completer : Completer} (hy : s.symbol? a = some y)
    (hcompleter : y.completer = some completer) :
    (s.updateSymbol a fun y => { y with completer := none }).pending sym + (if a = sym then 1 else 0) ≤
      s.pending sym := by
  split
  · next heq =>
    subst heq
    have hpending : s.pending a = 1 := by rw [pending, hy, Option.bind_some, hcompleter]; rfl
    have hdetached : (s.updateSymbol a fun y => { y with completer := none }).pending a = 0 := by
      rw [pending, symbol?_updateSymbol, if_pos rfl, hy]
      rfl
    rw [hpending, hdetached]
  · next hne => exact pending_updateSymbol_le fun _ heq => absurd heq hne

end Store

/-! ### The same run with and without a watch -/

/-- What is in common to a session under watch and one that is not, with marks to spare: each completer
that was started has its mark. -/
structure Session.Noted (sym : SymbolId) (counts : Prop) (spare : Nat) (s t : Session) : Prop where
  store : t.store = s.store
  names : t.names = s.names
  audience : t.audience = s.audience
  sublist : t.trace.Sublist s.trace
  same : ¬ counts → t.trace = s.trace
  counted : counts → t.starts sym + spare + t.trace.length ≤ s.trace.length

variable {a : SymbolId}

namespace Session.Noted

variable {sym : SymbolId} {counts : Prop} {spare less : Nat} {s t : Session}

theorem mono (h : Noted sym counts spare s t) (hle : counts → less ≤ spare) :
    Noted sym counts less s t :=
  { h with
    counted := fun hcounts => by
      have hcounted := h.counted hcounts
      have := hle hcounts
      omega }

/-- The same change to both stores, which leaves no completer that was not pending. -/
theorem change {f : Store → Store} (h : Noted sym counts (s.store.pending sym + spare) s t)
    (hf : counts → (f s.store).pending sym + less ≤ s.store.pending sym + spare) :
    Noted sym counts ((f s.store).pending sym + less) { s with store := f s.store }
      { t with store := f t.store } :=
  { h.mono hf with store := congrArg f h.store }

theorem note (h : Noted sym counts spare s t) {entry : TraceEntry} (hentry : entry.begins sym = false) :
    Noted sym counts spare { s with trace := entry :: s.trace } { t with trace := entry :: t.trace } where
  store := h.store
  names := h.names
  audience := h.audience
  sublist := h.sublist.cons_cons entry
  same hcounts := congrArg (entry :: ·) (h.same hcounts)
  counted hcounts := by
    have hle := h.counted hcounts
    simp only [starts, List.countP_cons, hentry, List.length_cons] at hle ⊢
    simp only [Bool.false_eq_true, if_false]
    omega

/-- The start of a completer takes one mark, if it is one of the symbol. -/
theorem began (h : Noted sym counts (spare + if a = sym then 1 else 0) s t) :
    Noted sym counts spare { s with trace := .began a :: s.trace }
      { t with trace := .began a :: t.trace } where
  store := h.store
  names := h.names
  audience := h.audience
  sublist := h.sublist.cons_cons _
  same hcounts := congrArg (_ :: ·) (h.same hcounts)
  counted hcounts := by
    have hle := h.counted hcounts
    have hbegins : (TraceEntry.began a).begins sym = decide (a = sym) := by
      rw [TraceEntry.begins, beq_eq_decide]
    simp only [starts, List.countP_cons, hbegins, decide_eq_true_eq, List.length_cons] at hle ⊢
    omega

theorem mark (h : Noted sym counts spare s t) (hcounts : counts) (entry : TraceEntry) :
    Noted sym counts (spare + 1) { s with trace := entry :: s.trace } t where
  store := h.store
  names := h.names
  audience := h.audience
  sublist := h.sublist.cons entry
  same hnot := absurd hcounts hnot
  counted _ := by
    have hle := h.counted hcounts
    simp only [List.length_cons]
    omega

theorem eq (h : Noted sym counts spare s t) (hcounts : ¬ counts) : t = s := by
  obtain ⟨store, names, audience, trace⟩ := s
  obtain ⟨store', names', audience', trace'⟩ := t
  obtain ⟨rfl, rfl, rfl, -, hsame, -⟩ := h
  obtain rfl := hsame hcounts
  rfl

end Session.Noted

/-- The two runs as long as so many completers are running: there is a mark for a completer of the
symbol that is pending, and some more. -/
def Tie.counting (sym : SymbolId) (counts : Prop) (spare running : Nat) : Tie where
  Moves := Store.Later
  Holds s t := s.store.inFlight = running ∧ Session.Noted sym counts (s.store.pending sym + spare) s t
  Ends s t := Session.Noted sym counts 0 s t
  Void _ := False
  Lax := False
  Installs := False

variable {ref : SymbolRef}

section Counting

variable {sym : SymbolId} {counts : Prop} {spare running : Nat}

instance : (counting sym counts spare running).Exact where
  preorder := inferInstanceAs (IsPreorder Store Store.Later)
  void _ := id
  twin h := ⟨by rw [h.2.store]; exact .refl _, h.2.names, h.2.audience⟩
  ends h := h.2.mono fun _ => Nat.zero_le _
  log _ h := ⟨h.1, h.2.note rfl⟩
  change h hf _ _ := ⟨hf.inFlight_eq.trans h.1,
    h.2.change fun _ => Nat.add_le_add_right hf.pending_le spare⟩
  owns _ hmoves := (Store.Later.precedes hmoves).owns
  store h := h.2.store
  remember := @fun s _ _ slot ty _ _ list h _ _ _ _ _ _ =>
    ⟨h.1, h.2.change (f := (·.setList slot ty list))
      fun _ => Nat.add_le_add_right (Store.pending_eq rfl).le spare⟩

instance : (counting sym counts spare running).Named Eq where
  toLawful := inferInstance
  agrees := by
    rintro a _ rfl
    rfl
  names _ h := ⟨h.1, { h.2 with names := rfl }⟩
  stepped := by
    rintro s t a _ rfl h
    exact ⟨h.1, h.2.note rfl⟩
  ended _ _ h := ⟨h.1, h.2.note rfl⟩

variable {commands commands' : Command → Run Outcome}

/-- From the detaching of a completer to its end.  The completer was pending, so there is a mark for the
start that is noted. -/
theorem detached_counting {s t : Session} {y : Symbol} {completer : Completer}
    (h : ∀ command, (counting sym counts 0 (running + 1)).Pairs (commands command) (commands' command))
    (hst : (counting sym counts 0 running).Holds s t) (hy : s.store.symbol? a = some y)
    (hcompleter : y.completer = some completer) (fields : List (String × String)) :
    (counting sym counts 0 running).InStep Eq
      (do updateSymbol a fun y => { y with completer := none }
          log .debug Log.typesTarget fields
          whileLoading a (completer.run commands a))
      (do updateSymbol a fun y => { y with completer := none }
          log .debug Log.typesTarget fields
          whileLoading a (completer.run commands' a)) s t := by
  have hy' : t.store.symbol? a = some y := by rw [hst.2.store, hy]
  have hpending : ∀ (u : Store) (b : Bool), (u.updateSymbol a fun y =>
      { y with completing := b }).pending sym ≤ u.pending sym := fun u b =>
    Store.pending_updateSymbol_le fun _ _ h => h
  let owed := if a = sym then 1 else 0
  let detached := fun u : Session =>
    { u with store := u.store.updateSymbol a fun y => { y with completer := none } }
  have hdetached : (counting sym counts owed running).Holds (detached s) (detached t) :=
    ⟨hst.1, hst.2.change (f := (·.updateSymbol a fun y => { y with completer := none }))
      fun _ => Store.pending_detach hy hcompleter⟩
  unfold InStep
  rw [bind_run (updateSymbol_run hy), bind_run (updateSymbol_run hy')]
  refine inStep_bind_into (T := counting sym counts owed running) (fun _ => id) id
    (fun _ _ hends => hends) ((log_keeps _ _ _).inStep _ _ hdetached) fun _ _ s₁ t₁ _ hlog hst₁ => ?_
  have hy₁ : s₁.store.symbol? a = some { y with completer := none } := by
    have hstill := log_still Log.Level.debug Log.typesTarget fields (detached s)
    rw [after_of_ok hlog] at hstill
    rw [← hstill]
    simp [detached, hy]
  have hentered : Session.Noted sym counts ((s₁.store.enterLoading a).pending sym + owed)
      (s₁.entering a) (t₁.entering a) :=
    hst₁.2.change (f := (·.enterLoading a)) fun _ =>
      Nat.add_le_add_right (hpending s₁.store true) owed
  have hinside : (counting sym counts 0 (running + 1)).InStep Eq (completer.run commands a)
      (completer.run commands' a) (s₁.entering a) (t₁.entering a) :=
    Completer.run_inStep (fun step _ => h step.2) ⟨congrArg (· + 1) hst₁.1, hentered.began⟩
  refine whileLoading_inStep
    ⟨hst₁.1, hst₁.2.mono fun _ => Nat.add_le_add_left (Nat.zero_le _) _⟩ hy₁ hinside
    (Store.Later.precedes (Completer.run_along (fun step _ => (h step.2).along) a _))
    (fun _ s₂ t₂ _ hst₂ => ?_) (fun _ _ hends => hends) (fun _ h => h.elim) id
  refine ⟨?_, hst₂.2.change (f := (·.stopLoading a)) fun _ => Nat.add_le_add_right ?_ 0⟩
  · show s₂.store.inFlight - 1 = running
    rw [hst₂.1, Nat.add_sub_cancel]
  · exact (hpending { s₂.store with inFlight := s₂.store.inFlight - 1 } false).trans
      (Store.pending_eq rfl).le

/-- **Loading a class.** -/
theorem completeSymbol_counting
    (h : ∀ command, (counting sym counts 0 (running + 1)).Pairs (commands command) (commands' command))
    (a : SymbolId) :
    (counting sym counts 0 running).Pairs
      (completeSymbol (fun completer a => completer.run commands a) a)
      (completeSymbol (fun completer a => completer.run commands' a) a) := by
  refine ⟨fun s => ?_, fun s => ?_, fun s t hst => ?_⟩
  · exact completeSymbol_along (fun _ _ h => .single (.routine h.routine)) fun _ _ _ _ =>
      Completer.run_along (fun step _ => (h step.2).along) a
  · exact completeSymbol_along (fun _ _ h => .single (.routine h.routine)) fun _ _ _ _ =>
      Completer.run_along (fun step _ => (h step.2).alongSecond) a
  · rw [completeSymbol_eq, completeSymbol_eq]
    refine inStep_bind_of_not_void (fun _ => id) ((symbolData_keeps a).inStep s t hst) ?_
    rintro y _ s' t' rfl hread hst'
    obtain ⟨rfl, hy⟩ := eq_of_symbolData hread
    cases hcompleter : y.completer with
    | none => exact inStep_pure hst' rfl
    | some => exact detached_counting h hst' hy hcompleter _

/-- Giving a symbol a completer, which takes a mark if it is the symbol in question. -/
theorem setCompleter_counting {load load' : Loader} {depth : Nat} {script : List Step} {propagate : Bool}
    {failure : Option String} {s t : Session} (hst : (counting sym counts spare running).Holds s t)
    (hspare : counts → ∀ s', lookupSymbol ref s = .ok sym s' → 1 ≤ spare) :
    (counting sym counts 0 running).InStep Eq
      (execute load depth (.setCompleter ref script propagate failure))
      (execute load' depth (.setCompleter ref script propagate failure)) s t := by
  let f : Symbol → Symbol := fun y => { y with completer := some ⟨script, propagate, failure⟩ }
  have hupdate : ∀ load depth, execute load depth (.setCompleter ref script propagate failure) =
      (do let a ← lookupSymbol ref
          let _ ← symbolData a
          modifyStore (·.updateSymbol a f)
          return .ok .nothing) := by
    intro load depth
    show answering _ = _
    simp only [answering, updateSymbol, bind_assoc, pure_bind]
    rfl
  rw [hupdate, hupdate]
  refine inStep_bind_into (T := counting sym counts spare running) (fun _ => id) id
    (fun _ _ hends => hends) ((lookupSymbol_keeps ref).inStep s t hst) ?_
  rintro a _ s₁ t₁ rfl hrun hst₁
  refine inStep_bind_into (T := counting sym counts spare running) (fun _ => id) id
    (fun _ _ hends => hends) ((symbolData_keeps a).inStep s₁ t₁ hst₁) ?_
  rintro y _ s₂ t₂ rfl _ hst₂
  refine .inr ⟨rfl, hst₂.1, hst₂.2.change (f := (·.updateSymbol a f)) fun hcounts => ?_⟩
  by_cases heq : a = sym
  · have hone := hspare hcounts s₁ (heq ▸ hrun)
    have hle := (s₂.store.updateSymbol a f).pending_le_one sym
    omega
  · exact Nat.add_le_add (Store.pending_updateSymbol_le fun _ h => absurd h heq) (Nat.zero_le _)

end Counting

/-! ### Commands under watch -/

/-- The watch has nothing to do but to note the calls that give the symbol a completer, if it counts
them. -/
structure Watch.Counts (watch : Watch) (sym : SymbolId) (counts : Prop) : Prop where
  still : ∀ stack point, Along Eq (watch stack point)
  silent : ∀ stack point (s : Session), s.store.inFlight = stack.length →
    (counts → point.installs sym s = false) → watch stack point s = .ok () s
  marks : counts → ∀ stack point (s : Session), point.installs sym s = true →
    ∃ mark, watch stack point s = .ok () { s with trace := mark :: s.trace }

theorem Watch.balance_counts (alarm : Stop) (sym : SymbolId) : (balance alarm).Counts sym False where
  still stack point := along_get.bind fun s => by
    split
    · exact along_pure _
    · exact along_throw _
  silent stack point s hbalanced _ := by
    rw [balance, bind_run (get_run s), if_pos hbalanced]
    rfl
  marks := False.elim

theorem Watch.installs_counts (sym : SymbolId) (mark : TraceEntry) :
    (Watch.installs sym mark).Counts sym True where
  still stack point := along_get.bind fun s => by
    split
    · exact note_still mark
    · exact along_pure _
  silent stack point s _ hnot := by
    rw [Watch.installs, bind_run (get_run s), hnot trivial]
    rfl
  marks _ stack point s hinstalls := by
    refine ⟨mark, ?_⟩
    rw [Watch.installs, bind_run (get_run s), hinstalls]
    rfl

theorem Point.installs_starts {command : Command} (h : command.installs = false) (sym : SymbolId)
    (s : Session) : (Point.starts command).installs sym s = false := by
  cases command with
  | setCompleter => cases h
  | _ => rfl

theorem lookupSymbol_of_names {s s' t : Session} (hnames : t.names = s.names)
    (h : lookupSymbol ref s = .ok a s') : lookupSymbol ref t = .ok a t := by
  have hresolve := (eq_of_lookupSymbol h).2
  cases ref with
  | handle sym =>
    obtain rfl : sym = a := Option.some.inj hresolve
    rfl
  | named label =>
    have hfound : t.names.symbols.lookup label = some a := by rw [hnames]; exact hresolve
    rw [lookupSymbol, bind_run (get_run t), hfound]
    rfl

variable {watch : Watch} {sym : SymbolId} {counts : Prop}

theorem Watch.Counts.around_along (hwatch : watch.Counts sym counts) {α : Type} {action : Run α}
    {R : Store → Store → Prop} [IsPreorder Store R] (h : Along R action) (stack : List SymbolId)
    (before after : Point) : Along R (watch.around stack before after action) :=
  (hwatch.still stack before).of_eq.bind fun _ => h.bind fun _ =>
    (hwatch.still stack after).of_eq.bind fun _ => along_pure _

/-- Something that takes the same course in both runs does so under watch. -/
theorem Watch.Counts.around_pairs (hwatch : watch.Counts sym counts) {α : Type} {action action' : Run α}
    {stack : List SymbolId} (h : (counting sym counts 0 stack.length).Pairs action action')
    {before after : Point} (hbefore : ∀ s, before.installs sym s = false)
    (hafter : ∀ s, after.installs sym s = false) :
    (counting sym counts 0 stack.length).Pairs (watch.around stack before after action) action' where
  along := hwatch.around_along h.along stack before after
  alongSecond := h.alongSecond
  inStep s t hst :=
    .watched (fun _ => id) (hwatch.silent stack before s hst.1 fun _ => hbefore s) (h.inStep s t hst)
      fun s' _ hst' => hwatch.silent stack after s' hst'.1 fun _ => hafter s'

/-- The command that gives a symbol a completer.  Where the calls are counted it is noted first. -/
theorem Watch.Counts.setCompleter_inStep (hwatch : watch.Counts sym counts) {load load' : Loader}
    {depth : Nat} {stack : List SymbolId} {script : List Step} {propagate : Bool} {failure : Option String}
    {s t : Session} (hst : (counting sym counts 0 stack.length).Holds s t) :
    (counting sym counts 0 stack.length).InStep Eq
      (watch.around stack (.starts (.setCompleter ref script propagate failure))
        (.returned (.setCompleter ref script propagate failure))
        (execute load depth (.setCompleter ref script propagate failure)))
      (execute load' depth (.setCompleter ref script propagate failure)) s t := by
  have hafter : ∀ s' t', (counting sym counts 0 stack.length).Holds s' t' →
      watch stack (.returned (.setCompleter ref script propagate failure)) s' = .ok () s' :=
    fun s' _ hst' => hwatch.silent stack _ s' hst'.1 fun _ => rfl
  have hfinds : ∀ s₁ s', s₁.names = s.names → lookupSymbol ref s₁ = .ok sym s' →
      (Point.starts (.setCompleter ref script propagate failure)).installs sym s = true := by
    intro s₁ s' hnames hrun
    rw [Point.installs, lookupSymbol_of_names hnames.symm hrun]
    exact beq_self_eq_true sym
  by_cases hmarks : counts ∧
      (Point.starts (.setCompleter ref script propagate failure)).installs sym s = true
  · obtain ⟨mark, hbefore⟩ := hwatch.marks hmarks.1 stack _ s hmarks.2
    have hmarked : (counting sym counts 1 stack.length).Holds
        { s with trace := mark :: s.trace } t := ⟨hst.1, hst.2.mark hmarks.1 mark⟩
    exact .watched (fun _ => id) hbefore (setCompleter_counting hmarked fun _ _ _ => le_rfl) hafter
  · have hbefore := hwatch.silent stack (.starts (.setCompleter ref script propagate failure)) s hst.1
      fun hcounts => Bool.eq_false_of_not_eq_true fun h => hmarks ⟨hcounts, h⟩
    refine .watched (fun _ => id) hbefore (setCompleter_counting hst fun hcounts s' hrun => ?_) hafter
    exact absurd ⟨hcounts, hfinds s s' rfl hrun⟩ hmarks

/-- **Every command takes the same course under watch.** -/
theorem performWatched_pairs (hwatch : watch.Counts sym counts) (stack : List SymbolId) (depth : Nat)
    (command : Command) :
    (counting sym counts 0 stack.length).Pairs (performWatched watch stack depth command)
      (perform depth command) := by
  induction depth generalizing stack command with
  | zero => exact keeps_tooDeep
  | succ depth ih =>
    have hload : (watchedLoader watch stack depth).Tied (completerLoader depth)
        (counting sym counts 0 stack.length) :=
      ⟨fun _ _ h => .single (.routine h.routine), fun a => hwatch.around_pairs
        (completeSymbol_counting (fun command => ih (a :: stack) command) a) (fun _ => rfl) fun _ => rfl⟩
    have hkeeps : (watchedLoader watch stack depth).Keeps (completerLoader depth)
        (counting sym counts 0 stack.length) :=
      ⟨hload.asks, fun _ _ h => .single (.routine h)⟩
    cases hinstalls : command.installs with
    | false =>
      refine hwatch.around_pairs ?_ (Point.installs_starts hinstalls sym) fun _ => rfl
      refine execute_keeps_exact hkeeps depth command (fun _ _ h => .single h.change) fun h => ?_
      exact absurd (hinstalls.symm.trans h) Bool.false_ne_true
    | true =>
      have hfollows : (watchedLoader watch stack depth).Follows Store.Later :=
        ⟨fun _ _ h => .single (.routine h), fun a => (hload.load a).along⟩
      refine ⟨hwatch.around_along (execute_along hfollows depth command fun _ _ h => .single h.change)
        stack _ _, perform_later (depth + 1) command, fun s t hst => ?_⟩
      cases command with
      | setCompleter => exact hwatch.setCompleter_inStep hst
      | _ => cases hinstalls

/-! ### Whole runs -/

section Outcomes

variable {α : Type} {action action' : Run α} {running : Nat} {s t : Session}

/-- However the two runs end, what is in common is. -/
theorem Tie.InStep.noted (h : (counting sym counts 0 running).InStep Eq action action' s t) :
    Session.Noted sym counts 0 (action.after s) (action'.after t) := by
  rcases h.cases (fun _ => id) id with
    ⟨a, b, s', t', hrun, hrun', -, hst⟩ | ⟨stop, s', t', hrun, hrun', hends⟩
  · rw [after_of_ok hrun, after_of_ok hrun']
    exact hst.2.mono fun _ => Nat.zero_le _
  · rw [after_of_error hrun, after_of_error hrun']
    exact hends

theorem Tie.InStep.eq_of_counting (h : (counting sym False 0 running).InStep Eq action action' s t) :
    action s = action' t := by
  rcases h.cases (fun _ => id) id with
    ⟨a, b, s', t', hrun, hrun', rfl, hst⟩ | ⟨stop, s', t', hrun, hrun', hends⟩
  · rw [hrun, hrun', hst.2.eq id]
  · rw [hrun, hrun', hends.eq id]

end Outcomes

theorem Store.initial_pending (options : DisplayOptions) (sym : SymbolId) :
    (initial options).pending sym = 0 := by
  rw [pending, if_neg]
  intro hsome
  obtain ⟨completer, hcompleter⟩ := Option.isSome_iff_exists.1 hsome
  obtain ⟨y, hy, hpending⟩ := Option.bind_eq_some_iff.1 hcompleter
  have hnone : ∀ y ∈ initialSymbols, y.completer.isSome = false := by decide
  have hnot := hnone y (mem_initialSymbols hy)
  rw [hpending] at hnot
  cases hnot

/-- **The books of completion.**

* At every point of a run, at the start and the end of each command and of each request to load a class,
  the store counts as running as many completers as are on the stack: a watch that would stop the run
  otherwise makes no difference.
* Between steps, after completers that succeeded and after completers that failed, no completer is
  counted as running and no symbol is marked as being completed.
* Over a whole run, however it ends, the completer of a symbol is started no more often than the symbol
  was given one: the trace gets at least as many entries longer if each of these calls is noted. -/
theorem completion_bookkeeping :
    (∀ (s : Session) (depth : Nat) (step : Step) (alarm : Stop), s.TopLevel →
      makeStep (performWatched (.balance alarm) [] depth) step s = makeStep (perform depth) step s) ∧
    (∀ s : Session, s.TopLevel → s.store.inFlight = 0 ∧ ∀ sym, ¬ s.store.IsCompleting sym) ∧
    ∀ (options : DisplayOptions) (audience : Log.Filter) (depth : Nat) (steps : List Step)
        (sym : SymbolId) (mark : TraceEntry),
      let first := Session.initial options audience
      let last := (runScript (perform depth) false steps).after first
      let noted := (runScript (performWatched (.installs sym mark) [] depth) false steps).after first
      last.store = noted.store ∧ last.names = noted.names ∧ last.trace.Sublist noted.trace ∧
        ∃ calls, noted.trace.length = last.trace.length + calls ∧ last.starts sym ≤ calls := by
  refine ⟨fun s depth step alarm hs => ?_, fun s hs => ⟨hs.idle.inFlight, hs.idle.completing⟩, ?_⟩
  · have hpairs := performWatched_pairs (Watch.balance_counts alarm ⟨0⟩) [] depth step.2
    refine ((makeStep_keeps hpairs).inStep s s ⟨hs.idle.inFlight, ?_⟩).eq_of_counting
    exact ⟨rfl, rfl, rfl, List.Sublist.refl _, fun _ => rfl, False.elim⟩
  · intro options audience depth steps sym mark first last noted
    have hscript : (counting sym True 0 0).Pairs
        (runScript (performWatched (.installs sym mark) [] depth) false steps)
        (runScript (perform depth) false steps) :=
      runScript_keeps (fun step _ =>
        performWatched_pairs (Watch.installs_counts sym mark) [] depth step.2) false
    have hnoted : Session.Noted sym True 0 noted last := by
      refine (hscript.inStep first first ⟨rfl, ?_⟩).noted
      refine ⟨rfl, rfl, rfl, List.Sublist.refl _, fun _ => rfl, fun _ => ?_⟩
      show 0 + ((Store.initial options).pending sym + 0) + 0 ≤ 0
      rw [Store.initial_pending]
    refine ⟨hnoted.store, hnoted.names, hnoted.sublist, noted.trace.length - last.trace.length, ?_, ?_⟩
    · have hle := hnoted.sublist.length_le
      omega
    · have hle := hnoted.counted trivial
      omega

/-- A class whose completer asks about the class and fails.  It is given a completer twice and loaded as
often as that is tried. -/
theorem completion_bookkeeping_reentry :
    let question : Step := (none, .ask .typeArguments (.handle ⟨12⟩))
    let install : Step := (none, .setCompleter (.handle ⟨11⟩) [question] false (some "not found"))
    let load : Step := (none, .completeSymbol (.handle ⟨11⟩))
    let first := Session.initial {} .empty
    let declared := (makeStep (perform 9) (none, .declareClass "C" none .none none)).after first
    let lazy := (makeStep (perform 9) install).after declared
    let steps : List Step :=
      [(none, .declareClass "C" none .none none), install, question, load, install, load, load]
    let last := (runScript (perform 9) false steps).after first
    let noted := (runScript (performWatched (.installs ⟨11⟩ (.began ⟨11⟩)) [] 9) false steps).after first
    lazy.TopLevel ∧ makeStep (performWatched (.balance .tooDeep) [] 9) question lazy =
        makeStep (perform 9) question lazy ∧
      lazy.store.inFlight = 0 ∧ last.starts ⟨11⟩ = 2 ∧
      ∃ calls, noted.trace.length = last.trace.length + calls ∧ last.starts ⟨11⟩ ≤ calls := by
  intro question install load first declared lazy steps last noted
  have hs : lazy.TopLevel := .after_step (.after_step (.initial {} .empty) rfl) rfl
  obtain ⟨hbalance, hidle, hcalls⟩ := completion_bookkeeping
  obtain ⟨-, -, -, hnoted⟩ := hcalls {} .empty 9 steps ⟨11⟩ (.began ⟨11⟩)
  exact ⟨hs, hbalance lazy 9 question .tooDeep hs, (hidle lazy hs).1, by decide +kernel, hnoted⟩

end RegionTypes

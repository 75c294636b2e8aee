import RegionTypes.Proofs.Loading.Asking

/-!
# Completers at work

A completer may ask about any type, its own class and classes with pending completers among them, so
completers start each other in any order.  What carries the proof is that a running completer is no
longer pending: each one that starts leaves fewer that can start.

* `Store.Lags.startLoading`, `Store.Lags.define`, `Store.Lags.stopLoading` — **the three changes of
  the store while a class is loaded keep the invariant**.
* `Completer.run_returns` — a completer asks its questions and then defines its class.
* `completeSymbol_loads` — so loading does what the questions rely on.
* `perform_asks` — **a command that asks is answered**, however completers nest.
-/

namespace RegionTypes

open Run

/-! ### The store before and after -/

namespace Store

variable {r s : Store} {b : Nat} {ty a : TypeId} {sym sym' : SymbolId} {y : Symbol} {sig : ClassSignature}

theorem symbol?_startLoading (a : SymbolId) : (s.startLoading sym).symbol? a =
    if sym = a then (s.symbol? a).map fun y => { y with completer := none, completing := true }
    else s.symbol? a := by
  show ((s.updateSymbol sym _).updateSymbol sym _).symbol? a = _
  rw [symbol?_updateSymbol, symbol?_updateSymbol]
  by_cases h : sym = a
  · rw [if_pos h, if_pos h, if_pos h, Option.map_map]
    rfl
  · rw [if_neg h, if_neg h, if_neg h]

theorem Blank.unique (h : s.Blank sym ty) (h' : s.Blank sym' ty) : sym = sym' := by
  obtain ⟨data, _, hdata, hsym, -⟩ := h
  obtain ⟨data', _, hdata', hsym', -⟩ := h'
  obtain rfl := Option.mem_unique hdata hdata'
  exact Option.mem_unique hsym hsym'

theorem not_blank_define : ¬ (s.updateClass ty (ClassInfo.define sig)).Blank sym ty := by
  rintro ⟨data, info, hdata, -, hkind, hblank⟩
  obtain ⟨_, info', -, -, -, hinfo⟩ := class_of_updateClass hdata hkind
  rw [hinfo, if_pos rfl, ClassInfo.declaration_define] at hblank
  cases hblank

theorem Blank.define (h : s.Blank sym a) (hne : ty ≠ a) :
    (s.updateClass ty (ClassInfo.define sig)).Blank sym a := by
  rwa [Blank, type?_updateClass_of_ne hne]

/-! ### The invariant while a class is loaded -/

/-- A completer that starts is no longer pending, but it runs. -/
theorem Lags.startLoading (h : r.Lags b s) : r.Lags b (s.startLoading sym) where
  types := h.types
  symbols a := by
    rw [← h.symbols a, symbol?_startLoading]
    split
    · rw [Option.map_map]
      rfl
    · rfl
  waiting ty data info hdata hkind hblank := by
    obtain ⟨a, y, hsymbol, hy, htype, hwaits⟩ := h.waiting ty data info hdata hkind hblank
    by_cases heq : sym = a
    · refine ⟨a, { y with completer := none, completing := true }, hsymbol, ?_, htype, .inr rfl⟩
      rw [symbol?_startLoading, if_pos heq, hy, Option.map_some]
    · refine ⟨a, y, hsymbol, ?_, htype, hwaits⟩
      rw [symbol?_startLoading, if_neg heq, hy]
  pending a y completer hy hcompleter := by
    rw [symbol?_startLoading] at hy
    split at hy
    · obtain ⟨_, -, rfl⟩ := Option.map_eq_some_iff.1 hy
      cases hcompleter
    · exact h.pending a y completer hy hcompleter
  idle hflight := absurd hflight (Nat.succ_ne_zero _)

theorem Lags.define (h : r.Lags b s) (hblank : s.Blank sym ty) (hy : s.symbol? sym = some y)
    (hrunning : y.completing = true) (hsig : r.Declares ty sig) :
    r.Lags b (s.updateClass ty (ClassInfo.define sig)) where
  types a full hfull := by
    obtain ⟨data, hdata, hlags⟩ := h.types a full hfull
    by_cases heq : ty = a
    · obtain rfl := heq
      refine ⟨_, type?_updateClass_self hdata, ?_⟩
      obtain ⟨data', info, hdata', hkind, hdecl⟩ := hsig
      obtain rfl := Option.mem_unique hfull hdata'
      cases hlags with
      | classType hlags =>
        obtain rfl := Kind.classType.inj hkind
        exact .classType { hlags with declaration := .inr hdecl.symm }
      | other kind =>
        rw [hkind] at kind
        cases kind
    · exact ⟨data, by rw [type?_updateClass_of_ne heq, hdata], hlags⟩
  symbols := h.symbols
  waiting a data info hdata hkind hblank' := by
    obtain ⟨data', info', hdata', hsymbol, hkind', hinfo⟩ := class_of_updateClass hdata hkind
    have hne : ty ≠ a := by
      rintro rfl
      rw [hinfo, if_pos rfl, ClassInfo.declaration_define] at hblank'
      cases hblank'
    rw [if_neg hne] at hinfo
    rw [← hsymbol]
    exact h.waiting a data' info' hdata' hkind' (hinfo ▸ hblank')
  pending a x completer hx hcompleter := by
    obtain ⟨hidle, b, htype, hfulfils, hblank'⟩ := h.pending a x completer hx hcompleter
    refine ⟨hidle, b, htype, hfulfils, hblank'.define ?_⟩
    rintro rfl
    -- the symbol of the class is running, not pending
    obtain rfl := hblank.unique hblank'
    obtain rfl := Option.mem_unique hy hx
    rw [hidle] at hrunning
    cases hrunning
  idle := h.idle

/-- When the completer has run, its class is defined, so nothing waits for it. -/
theorem Lags.stopLoading (h : r.Lags b s) (hy : s.symbol? sym = some y)
    (hrunning : y.completing = true) (hdefined : ∀ ty, y.type = some ty → ¬ s.Blank sym ty)
    (hothers : s.inFlight - 1 = 0 → ∀ a x, s.symbol? a = some x → sym ≠ a → x.completing = false) :
    r.Lags b (s.stopLoading sym) where
  types := h.types
  symbols a := by
    rw [← h.symbols a, symbol?_stopLoading]
    split
    · rw [Option.map_map]
      rfl
    · rfl
  waiting ty data info hdata hkind hblank := by
    obtain ⟨a, x, hsymbol, hx, htype, hwaits⟩ := h.waiting ty data info hdata hkind hblank
    have hne : sym ≠ a := by
      rintro rfl
      obtain rfl := Option.mem_unique hy hx
      exact hdefined ty htype ⟨data, info, hdata, hsymbol, hkind, hblank⟩
    refine ⟨a, x, hsymbol, ?_, htype, hwaits⟩
    rw [symbol?_stopLoading, if_neg hne, hx]
  pending a x completer hx hcompleter := by
    rw [symbol?_stopLoading] at hx
    split at hx
    · next heq =>
      obtain rfl := heq
      obtain ⟨x', hx', rfl⟩ := Option.map_eq_some_iff.1 hx
      obtain rfl := Option.mem_unique hy hx'
      rw [(h.pending sym y completer hy hcompleter).1] at hrunning
      cases hrunning
    · exact h.pending a x completer hx hcompleter
  idle hflight a x hx := by
    rw [symbol?_stopLoading] at hx
    split at hx
    · obtain ⟨_, -, rfl⟩ := Option.map_eq_some_iff.1 hx
      rfl
    · next hne => exact hothers hflight a x hx hne

theorem PendingIn.startLoading {P : Finset SymbolId} (h : s.PendingIn P) :
    (s.startLoading sym).PendingIn (P.erase sym) := by
  intro a y hy hcompleter
  rw [symbol?_startLoading] at hy
  split at hy
  · obtain ⟨_, -, rfl⟩ := Option.map_eq_some_iff.1 hy
    cases hcompleter
  · next hne => exact Finset.mem_erase.2 ⟨Ne.symm hne, h a y hy hcompleter⟩

end Store

variable {r : Store} {b : Nat} {P : Finset SymbolId} {top : Prop} {s s' : Session} {ty : TypeId}
  {sym : SymbolId} {y : Symbol} {sig : ClassSignature} {d : Nat}

/-! ### The steps of a completer -/

theorem note_asks {entry : TraceEntry} (h : entry.succeeded) :
    Asks r b P top (note entry) fun _ => True := by
  intro s hs
  refine ⟨(), _, rfl, trivial, hs.lags, .of_store_eq rfl [entry] rfl ?_⟩
  exact List.forall_mem_singleton.2 h

theorem makeStep_asks {perform : Command → Run Outcome} {step : Step}
    (h : Asks r b P top (perform step.2) fun out => ∃ a, out = .ok a) :
    Asks r b P top (makeStep perform step) fun out => ∃ a, out = .ok a := by
  refine h.bind fun out ⟨answer, hout⟩ => ?_
  subst hout
  obtain ⟨label, command⟩ := step
  cases label with
  | none => exact .pure ⟨answer, rfl⟩
  | some label =>
    intro s hs
    obtain ⟨hstore, htrace⟩ := s.bind_store label answer
    refine ⟨.ok answer, s.bind label answer, rfl, ⟨answer, rfl⟩, by rw [hstore]; exact hs.lags, ?_⟩
    exact .of_store_eq hstore [] htrace (List.forall_mem_nil _)

/-- **Questions at the start of a script** only make the session evolve. -/
theorem runScript_append {perform : Command → Run Outcome} {propagate : Bool} {rest : List Step}
    {post : Option Failure → Session → Prop} {steps : List Step}
    (hsteps : ∀ step ∈ steps, Asks r b P top (perform step.2) fun out => ∃ a, out = .ok a) :
    ∀ s : Session, s.Ready r b P top →
      (∀ s', r.Lags b s'.store → s.Evolves s' → (runScript perform propagate rest).Returns s' post) →
        (runScript perform propagate (steps ++ rest)).Returns s post := by
  induction steps with
  | nil => exact fun s hs hrest => hrest s hs.lags (.refl s)
  | cons step steps ih =>
    intro s hs hrest
    have hstep := makeStep_asks (hsteps step List.mem_cons_self)
    refine (hstep s hs).bind fun out s₁ ⟨⟨answer, hout⟩, hlags₁, hevolves₁⟩ => ?_
    subst hout
    have hs₁ := hs.evolve hlags₁ hevolves₁
    refine (note_asks rfl s₁ hs₁).bind fun _ s₂ ⟨_, hlags₂, hevolves₂⟩ => ?_
    refine ih (fun x hx => hsteps x (List.mem_cons_of_mem step hx)) s₂ (hs₁.evolve hlags₂ hevolves₂)
      fun s₃ hlags₃ hevolves₃ => ?_
    exact hrest s₃ hlags₃ ((hevolves₁.trans hevolves₂).trans hevolves₃)

theorem lookupType_handle (ty : TypeId) (s : Session) : lookupType (.handle ty) s = .ok ty s := rfl

theorem lookupTypes_handles (types : List TypeId) (s : Session) :
    lookupTypes (types.map .handle) s = .ok types s := by
  induction types with
  | nil => rfl
  | cons ty types ih =>
    rw [lookupTypes, List.map_cons, List.mapM_cons, bind_run (lookupType_handle ty s)]
    exact bind_run ih

theorem lookupType?_handle (ty : Option TypeId) (s : Session) :
    lookupType? (ty.map .handle) s = .ok ty s := by
  cases ty with
  | none | some => rfl

theorem perform_define (hblank : s.store.Blank sym ty) (sig : ClassSignature) (d : Nat) :
    perform (d + 1) (sig.command ty) s =
      .ok (.ok .nothing) { s with store := s.store.updateClass ty (ClassInfo.define sig) } := by
  obtain ⟨data, info, hdata, -, hkind, hinfo⟩ := hblank
  have hfree : info.takenField? = none := by
    obtain ⟨outer, typeArgs, regionArgs, effectArgs, supertype, interfaces⟩ := info
    injection hinfo with h₁ h₂ h₃ h₄ h₅
    subst h₁ h₂ h₃ h₄ h₅
    rfl
  have hdefine : ∀ load depth, defineClass load depth ty sig s =
      .ok (.ok ()) { s with store := s.store.updateClass ty (ClassInfo.define sig) } := by
    intro load depth
    rw [defineClass, bind_run (kindOf_run hdata), hkind]
    dsimp only
    rw [hfree]
    rfl
  rw [perform, ClassSignature.command, execute, bind_run (lookupType_handle ty s),
    bind_run (lookupTypes_handles sig.typeParams s), bind_run (lookupType?_handle sig.supertype s),
    bind_run (lookupTypes_handles sig.interfaces s)]
  exact bind_run (hdefine _ _)

/-! ### Loading a class -/

/-- Between the two sessions a completer has asked its questions and then defined its class. -/
def Session.Defines (r : Store) (b : Nat) (ty : TypeId) (s s' : Session) : Prop :=
  ∃ (mid : Session) (sig : ClassSignature), r.Lags b mid.store ∧ s.Evolves mid ∧ r.Declares ty sig ∧
    s'.store = mid.store.updateClass ty (ClassInfo.define sig) ∧
      ∃ new, s'.trace = new ++ mid.trace ∧ ∀ entry ∈ new, entry.succeeded

theorem Session.Defines.note (h : s.Defines r b ty s') {entry : TraceEntry}
    (hentry : entry.succeeded) :
    s.Defines r b ty { s' with trace := entry :: s'.trace } := by
  obtain ⟨mid, sig, hlags, hevolves, hsig, hstore, new, htrace, hnew⟩ := h
  refine ⟨mid, sig, hlags, hevolves, hsig, hstore, entry :: new, ?_, ?_⟩
  · show entry :: s'.trace = entry :: new ++ mid.trace
    rw [htrace, List.cons_append]
  · exact List.forall_mem_cons.2 ⟨hentry, hnew⟩

theorem Session.Defines.symbol? (h : s.Defines r b ty s') (hy : s.store.symbol? sym = some y) :
    ∃ y', s'.store.symbol? sym = some y' := by
  obtain ⟨mid, sig, -, hevolves, -, hstore, -⟩ := h
  have hmap := hevolves.completing sym
  rw [hy, Option.map_some, Option.map_eq_some_iff] at hmap
  obtain ⟨y', hy', -⟩ := hmap
  exact ⟨y', by rw [hstore]; exact hy'⟩

/-- **A completer asks its questions and then defines its class**, which is still blank by then. -/
theorem Completer.run_returns {completer : Completer} (hfulfils : completer.Fulfils r b ty)
    (hasks : ∀ command : Command, command.isQuestion r b →
      Asks r b P top (perform (d + 1) command) fun out => ∃ a, out = .ok a)
    (hs : s.Ready r b P top) (hy : s.store.symbol? sym = some y) (hrunning : y.completing = true)
    (hblank : s.store.Blank sym ty) :
    (completer.run (perform (d + 1)) sym).Returns s fun _ s' => s.Defines r b ty s' := by
  obtain ⟨steps, label, sig, hscript, hquestions, hsig⟩ := hfulfils
  refine (note_asks rfl s hs).bind fun _ s₁ ⟨_, hlags₁, hevolves₁⟩ => ?_
  have hscriptRun : (runScript (perform (d + 1)) completer.propagate completer.script).Returns s₁
      fun _ s' => s.Defines r b ty s' := by
    rw [hscript]
    refine runScript_append (fun step hstep => hasks step.2 (hquestions step hstep)) s₁
      (hs.evolve hlags₁ hevolves₁) fun s₂ hlags₂ hevolves₂ => ?_
    have hevolves := hevolves₁.trans hevolves₂
    have hdefine := perform_define (hevolves.blank sym y ty hy hrunning hblank) sig d
    have hstep : makeStep (perform (d + 1)) (label, sig.command ty) s₂ = .ok (.ok .nothing)
        { s₂ with store := s₂.store.updateClass ty (ClassInfo.define sig) } := by
      cases label with
      | none | some => exact bind_run hdefine
    refine .step hstep ⟨none, _, rfl, s₂, sig, hlags₂, hevolves, hsig, rfl,
      [.stepped (.ok .nothing)], rfl, ?_⟩
    exact List.forall_mem_singleton.2 rfl
  refine hscriptRun.bind fun ending s₂ hdefines => ?_
  obtain ⟨y', hy'⟩ := hdefines.symbol? hy
  refine .step (symbolData_run hy') ?_
  cases (ending.map Failure.message).or completer.failure with
  | none | some => exact ⟨_, _, rfl, hdefines.note rfl⟩

/-- The session in which a class is loaded, with the sessions at the start and at the end of the
completer. -/
structure Session.Loading (r : Store) (b : Nat) (sym : SymbolId) (ty : TypeId) (y : Symbol)
    (s started ended : Session) : Prop where
  lags : r.Lags b s.store
  symbol : s.store.symbol? sym = some y
  type : y.type = some ty
  pending : y.completing = false
  blank : s.store.Blank sym ty
  store : started.store = s.store.startLoading sym
  trace : ∃ new, started.trace = new ++ s.trace ∧ ∀ entry ∈ new, entry.succeeded
  defines : started.Defines r b ty ended

namespace Session.Loading

variable {started ended : Session}

section

variable (h : Session.Loading r b sym ty y s started ended)

include h

theorem running : started.store.symbol? sym =
    some { y with completer := none, completing := true } := by
  rw [h.store, Store.symbol?_startLoading, if_pos rfl, h.symbol, Option.map_some]

/-- While a completer runs, other completers may run too, but none is left running. -/
theorem completing {a : SymbolId} (hne : sym ≠ a) :
    (ended.store.symbol? a).map Symbol.completing = (s.store.symbol? a).map Symbol.completing := by
  obtain ⟨mid, sig, -, hevolves, -, hstore, -⟩ := h.defines
  have hmid := hevolves.completing a
  rw [h.store, Store.symbol?_startLoading, if_neg hne] at hmid
  rw [hstore, ← hmid]
  rfl

theorem defined : r.Lags b ended.store ∧
    ended.store.inFlight = s.store.inFlight + 1 ∧ (∀ sym', ¬ ended.store.Blank sym' ty) ∧
      ∃ y', ended.store.symbol? sym = some y' ∧ y'.completing = true ∧ y'.type = some ty := by
  obtain ⟨mid, sig, hlags, hevolves, hsig, hstore, -⟩ := h.defines
  have hcompleting := hevolves.completing sym
  rw [h.running, Option.map_some, Option.map_eq_some_iff] at hcompleting
  obtain ⟨y', hy', hrunning⟩ := hcompleting
  have hface : (mid.store.symbol? sym).map Symbol.face = (s.store.symbol? sym).map Symbol.face := by
    rw [hlags.symbols, h.lags.symbols]
  rw [hy', h.symbol, Option.map_some, Option.map_some] at hface
  have htype : y'.type = y.type := (congrArg Symbol.type (Option.some.inj hface) :)
  have hblank : mid.store.Blank sym ty := by
    refine hevolves.blank sym _ ty h.running rfl ?_
    rw [h.store]
    exact h.blank
  rw [hstore]
  refine ⟨hlags.define hblank hy' hrunning hsig, ?_, fun _ => Store.not_blank_define,
    y', hy', hrunning, htype.trans h.type⟩
  show mid.store.inFlight = _
  rw [hevolves.flight, h.store]
  rfl

/-- So the store lags behind the same store. -/
theorem stop_lags : r.Lags b (ended.store.stopLoading sym) := by
  obtain ⟨hlags, hflight, hdefined, y', hy', hrunning, htype⟩ := h.defined
  refine hlags.stopLoading hy' hrunning (fun ty' htype' => ?_) fun hidle a x hx hne => ?_
  · obtain rfl := Option.mem_unique htype htype'
    exact hdefined sym
  · have hmap := h.completing hne
    rw [hx, Option.map_some, eq_comm, Option.map_eq_some_iff] at hmap
    obtain ⟨x', hx', hsame⟩ := hmap
    rw [← hsame]
    exact h.lags.idle (by omega) a x' hx'

theorem stop_pending (hP : s.store.PendingIn P) :
    (ended.store.stopLoading sym).PendingIn (P.erase sym) := by
  obtain ⟨mid, sig, -, hevolves, -, hstore, -⟩ := h.defines
  have hstarted : started.store.PendingIn (P.erase sym) := by
    rw [h.store]
    exact hP.startLoading
  intro a x hx hcompleter
  rw [Store.symbol?_stopLoading, hstore] at hx
  split at hx
  · obtain ⟨x', hx', rfl⟩ := Option.map_eq_some_iff.1 hx
    exact hevolves.pending _ hstarted a x' hx' hcompleter
  · exact hevolves.pending _ hstarted a x hx hcompleter

/-- **Loading a class is an evolution of the session.** -/
theorem stop_evolves : s.Evolves { ended with store := ended.store.stopLoading sym } where
  flight := by
    show ended.store.inFlight - 1 = s.store.inFlight
    rw [h.defined.2.1, Nat.add_sub_cancel]
  completing a := by
    show ((ended.store.stopLoading sym).symbol? a).map _ = _
    rw [Store.symbol?_stopLoading]
    split
    · next heq =>
      obtain rfl := heq
      obtain ⟨-, -, -, y', hy', -⟩ := h.defined
      rw [hy', h.symbol, Option.map_some, Option.map_some, Option.map_some, h.pending]
    · next hne => exact h.completing hne
  pending P hP a x hx hcompleter := Finset.mem_of_mem_erase (h.stop_pending hP a x hx hcompleter)
  blank a x ty' hx hrunning hblank := by
    have hne : sym ≠ a := by
      rintro rfl
      obtain rfl := Option.mem_unique h.symbol hx
      rw [h.pending] at hrunning
      cases hrunning
    have hne' : ty ≠ ty' := fun heq => hne (h.blank.unique (heq ▸ hblank))
    obtain ⟨mid, sig, -, hevolves, -, hstore, -⟩ := h.defines
    have hx' : started.store.symbol? a = some x := by
      rw [h.store, Store.symbol?_startLoading, if_neg hne, hx]
    have hblank' : mid.store.Blank a ty' := by
      refine hevolves.blank a x ty' hx' hrunning ?_
      rw [h.store]
      exact hblank
    show ended.store.Blank a ty'
    rw [hstore]
    exact hblank'.define hne'
  trace := by
    obtain ⟨mid, sig, -, hevolves, -, -, new₃, htrace₃, hnew₃⟩ := h.defines
    obtain ⟨new₂, htrace₂, hnew₂⟩ := hevolves.trace
    obtain ⟨new₁, htrace₁, hnew₁⟩ := h.trace
    refine ⟨new₃ ++ (new₂ ++ new₁), ?_, ?_⟩
    · show ended.trace = _
      rw [htrace₃, htrace₂, htrace₁, List.append_assoc, List.append_assoc]
    · exact List.forall_mem_append.2 ⟨hnew₃, List.forall_mem_append.2 ⟨hnew₂, hnew₁⟩⟩

end

end Session.Loading

/-- What happens before a completer runs. -/
theorem startLoading_returns {β : Type} {next : Run β} {post : β → Session → Prop}
    {fields : List (String × String)} (hy : s.store.symbol? sym = some y)
    (hnext : ∀ s', s'.store = s.store.startLoading sym →
      (∃ new, s'.trace = new ++ s.trace ∧ ∀ entry ∈ new, entry.succeeded) → next.Returns s' post) :
    Returns (do
      updateSymbol sym fun y => { y with completer := none }
      log .debug Log.typesTarget fields
      updateSymbol sym fun y => { y with completing := true }
      modifyStore fun s => { s with inFlight := s.inFlight + 1 }
      next) s post := by
  refine .step (updateSymbol_run hy) ?_
  refine (log_returns _ _ _ _).bind fun _ s₁ ⟨new, hs₁, hnew⟩ => ?_
  have hstore : s₁.store = s.store.updateSymbol sym fun y => { y with completer := none } := by rw [hs₁]
  have htrace : s₁.trace = new ++ s.trace := by rw [hs₁]
  have hy₁ : s₁.store.symbol? sym = some { y with completer := none } := by
    rw [hstore, Store.symbol?_updateSymbol, if_pos rfl, hy, Option.map_some]
  refine .step (updateSymbol_run hy₁) (.step rfl (hnext _ ?_ ⟨new, htrace, hnew⟩))
  show Store.mk _ _ _ _ = _
  rw [hstore]
  rfl

/-- **Loading a class does what the questions rely on.**  While its completer runs, one completer
less is pending, and this is where the questions of the completer are asked. -/
theorem completeSymbol_loads (hasks : ∀ sym ∈ P, ∀ command : Command, command.isQuestion r b →
      Asks r b (P.erase sym) False (perform (d + 1) command) fun out => ∃ a, out = .ok a) :
    Loads r b P top (completeSymbol fun completer sym => completer.run (perform (d + 1)) sym) := by
  intro sym full hfull s hs
  obtain ⟨y, hy, -⟩ := hs.lags.symbol hfull
  refine .step (symbolData_run hy) ?_
  cases hcompleter : y.completer with
  | none =>
    refine returns_pure ⟨⟨hs.lags, .refl s⟩, fun y' hy' => ?_⟩
    rw [← Option.mem_unique hy hy', hcompleter]
  | some completer =>
    obtain ⟨hpending, ty, htype, hfulfils, hblank⟩ := hs.lags.pending sym y completer hy hcompleter
    have hmem : sym ∈ P := hs.pending sym y hy (by rw [hcompleter]; rfl)
    refine startLoading_returns hy fun started hstore htrace => ?_
    have hready : started.Ready r b (P.erase sym) False := by
      refine ⟨?_, ?_, ?_⟩
      · rw [hstore]
        exact hs.lags.startLoading
      · rw [hstore]
        exact hs.pending.startLoading
      · rw [hstore]
        exact iff_of_false (Nat.succ_ne_zero _) id
    have hrunning : started.store.symbol? sym =
        some { y with completer := none, completing := true } := by
      rw [hstore, Store.symbol?_startLoading, if_pos rfl, hy, Option.map_some]
    have hblank' : started.store.Blank sym ty := by
      rw [hstore]
      exact hblank
    refine (Completer.run_returns hfulfils (hasks sym hmem) hready hrunning rfl hblank').bind
      fun result ended hdefines => ?_
    have h : Session.Loading r b sym ty y s started ended :=
      ⟨hs.lags, hy, htype, hpending, hblank, hstore, htrace, hdefines⟩
    obtain ⟨-, -, -, y', hy', -⟩ := h.defined
    refine .step rfl (.step (updateSymbol_run hy') (returns_pure ?_))
    refine ⟨⟨h.stop_lags, h.stop_evolves⟩, fun x hx => ?_⟩
    by_contra hsome
    have hin := h.stop_pending hs.pending sym x hx (Option.isSome_iff_ne_none.2 hsome)
    exact Finset.notMem_erase sym P hin

/-- **A command that asks is answered**, however completers nest: how deep this goes is bounded by how
deep one question is nested and by the number of pending completers. -/
theorem perform_asks (hr : r.Complete) (hthrown : r.ThrowsOlder) (hunsolved : r.Unsolved)
    (hb : r.types.size ≤ b) {n : Nat} : ∀ {P : Finset SymbolId} {top : Prop} {d : Nat},
    P.card ≤ n → b + n + 1 < d → ∀ command : Command, command.isQuestion r b →
      Asks r b P top (perform d command) fun out =>
        ∃ a, out = .ok a ∧ (top → ∀ b ∈ command.answerIn r, a = b) := by
  induction n with
  | zero =>
    intro P top d hcard hd command hquestion
    obtain ⟨d, rfl⟩ : ∃ d', d = d' + 2 := ⟨d - 2, by omega⟩
    have hload : Loads r b P top (completerLoader (d + 1)) := completeSymbol_loads fun sym hsym => by
      rw [Finset.card_eq_zero.1 (Nat.le_zero.1 hcard)] at hsym
      exact absurd hsym (Finset.notMem_empty sym)
    exact execute_asks (Asks.survey hr hload) hthrown hunsolved hb (by omega) hquestion
  | succ n ih =>
    intro P top d hcard hd command hquestion
    obtain ⟨d, rfl⟩ : ∃ d', d = d' + 2 := ⟨d - 2, by omega⟩
    have hload : Loads r b P top (completerLoader (d + 1)) :=
      completeSymbol_loads fun sym hsym command' hquestion' => by
        have hcard' : (P.erase sym).card ≤ n := by
          rw [Finset.card_erase_of_mem hsym]
          omega
        exact (ih hcard' (by omega) command' hquestion').imp fun out ⟨a, ha, _⟩ => ⟨a, ha⟩
    exact execute_asks (Asks.survey hr hload) hthrown hunsolved hb (by omega) hquestion

end RegionTypes

import RegionTypes.Proofs.Lockstep.Exact

/-!
# What operations change

Questions, texts, mappings and updates make only the changes of `Store.Routine`, for any loader that
does so.  Every command, whatever completers it starts, makes only those of `Store.Change`.  The
statements are about any relation that allows these changes, so that an invariant of the changes is an
invariant of the operations.

* `declaredList_along`, `contains_along`, ... — questions.
* `mapType_along` — **any mapping that makes such changes only**.
* `execute_along` — every command, for any loader.
* `perform_along` — **every command with the completers of the store**, by induction on how deeply
  they start each other.
* `Session.Reachable` — the sessions that scripts lead to.
* `Session.Reachable.invariant` — **what a new store has and every change keeps, every store has**.
-/

namespace RegionTypes

open Run

variable {R : Store → Store → Prop} [IsPreorder Store R] {load : Loader} {s : Session}

/-! ### Questions and mappings -/

theorem declaredList_along {β : Type} {slot : Slot β} (h : load.Follows R) (hslot : slot.Declared)
    (ty : TypeId) (symbol : Option SymbolId) : Along R (declaredList load slot ty symbol) :=
  (declaredList_keeps h.keeps.toTied hslot ty symbol).along

theorem isErroneous_along (h : load.Follows R) (depth : Nat) (ty : TypeId) :
    Along R (isErroneous load depth ty) :=
  (isErroneous_keeps h.keeps.toAsks depth ty).along

theorem contains_along (h : load.Follows R) (depth : Nat) (ty elem : TypeId) :
    Along R (contains load depth ty elem) :=
  (contains_keeps h.keeps.toAsks depth ty elem).along

section Mappings

variable {σ : Type} {f : Mapping σ}

theorem mapList_along (hf : ∀ ty, AlongState R (f ty)) (types : List TypeId) :
    AlongState R (mapList f types) := fun u =>
  (mapList_keeps (fun ty u => Tie.keeps_ofMoves (hf ty u)) types u).along

theorem mapType_along (h : load.Follows R) (hf : ∀ ty, AlongState R (f ty)) (depth : Nat)
    (ty : TypeId) : AlongState R (mapType load depth f ty) := fun u =>
  (mapType_keeps h.keeps (fun ty u => Tie.keeps_ofMoves (hf ty u)) depth ty u).along

end Mappings

theorem apply_along (h : load.Follows R) (table : Table) (depth : Nat) (ty : TypeId) :
    AlongState R (table.apply load depth ty) := fun u =>
  (apply_keeps h.keeps table depth ty u).along

/-! ### Commands -/

theorem execute_along (h : load.Follows R) (depth : Nat) (command : Command)
    (hmakes : ∀ s t, command.Makes s t → R s t) : Along R (execute load depth command) :=
  (execute_keeps h.keeps depth command hmakes fun _ => trivial).along

/-! ### Completers -/

theorem makeStep_along {perform : Command → Run Outcome} {step : Step}
    (h : Along R (perform step.2)) : Along R (makeStep perform step) :=
  (makeStep_keeps (Tie.keeps_ofMoves (V := Outcome.Agrees) h)).along

theorem Completer.run_along {perform : Command → Run Outcome} {completer : Completer}
    (h : ∀ step ∈ completer.script, Along R (perform step.2)) (sym : SymbolId) :
    Along R (completer.run perform sym) :=
  (Completer.run_keeps (fun step hstep =>
    Tie.keeps_ofMoves (V := Outcome.Agrees) (h step hstep)) sym).along

theorem updateSymbol_along {sym : SymbolId} {f : Symbol → Symbol}
    (h : ∀ s : Store, R s (s.updateSymbol sym f)) : Along R (updateSymbol sym f) :=
  (symbolData_still sym).of_eq.bind fun _ => along_modifyStore h

/-- Carries out something with the symbol marked and counted as being completed. -/
def whileLoading {α : Type} (sym : SymbolId) (action : Run α) : Run α := do
  updateSymbol sym fun y => { y with completing := true }
  modifyStore fun s => { s with inFlight := s.inFlight + 1 }
  let result ← action
  modifyStore fun s => { s with inFlight := s.inFlight - 1 }
  updateSymbol sym fun y => { y with completing := false }
  return result

theorem completeSymbol_eq (start : Completer → Loader)
    (sym : SymbolId) : completeSymbol start sym = (do
      let symbol ← symbolData sym
      match symbol.completer with
      | none => return .ok ()
      | some completer =>
        updateSymbol sym fun y => { y with completer := none }
        log .debug Log.typesTarget [("message", "completing symbol"), ("symbol", symbol.name)]
        whileLoading sym (start completer sym)) :=
  rfl

theorem whileLoading_along {α : Type} {action : Run α} {sym : SymbolId}
    (hR : ∀ s t, Store.Marks s t → R s t) (h : Along R action) : Along R (whileLoading sym action) := by
  refine (updateSymbol_along fun s => hR _ _ (.completing sym true)).bind fun _ => ?_
  refine (along_modifyStore fun s => hR _ _ (.inFlight _)).bind fun _ => ?_
  refine h.bind fun result => ?_
  refine (along_modifyStore fun s => hR _ _ (.inFlight _)).bind fun _ => ?_
  exact (updateSymbol_along fun s => hR _ _ (.completing sym false)).bind fun _ => along_pure result

/-- The completer of a symbol that was not started. -/
def Store.completer? (s : Store) (sym : SymbolId) : Option Completer :=
  (s.symbol? sym).bind Symbol.completer

section Starting

variable {start : Completer → Loader} {sym : SymbolId}

/-- Starting the completer that a symbol has in the session: the symbol first loses it. -/
theorem completeSymbol_detaches (hR : ∀ s t, Store.Marks s t → R s t)
    (h : ∀ y completer, s.store.symbol? sym = some y → y.completer = some completer →
      Along R (start completer sym)) :
    ∃ u : Store, R s.store u ∧ u.completer? sym = none ∧
      R u ((completeSymbol start sym).after s).store := by
  cases hy : s.store.symbol? sym with
  | none =>
    refine ⟨s.store, refl_of R _, by rw [Store.completer?, hy]; rfl, ?_⟩
    refine along_of_still (symbolData_still sym) fun y s₁ hrun _ => ?_
    exact absurd ((eq_of_symbolData hrun).2.symm.trans hy) (Option.some_ne_none _)
  | some y =>
    rw [completeSymbol_eq, after_bind (symbolData_run hy)]
    cases hcompleter : y.completer with
    | none =>
      exact ⟨s.store, refl_of R _, by rw [Store.completer?, hy]; exact hcompleter, along_pure _ s⟩
    | some completer =>
      refine ⟨_, hR _ _ (.detach sym), ?_, ?_⟩
      · rw [Store.completer?, Store.symbol?_updateSymbol, if_pos rfl, hy]
        rfl
      · simp only
        rw [after_bind (updateSymbol_run hy)]
        refine ((log_still _ _ _).of_eq.bind fun _ => ?_) { s with store := _ }
        exact whileLoading_along hR (h y completer hy hcompleter)

theorem completeSymbol_along (hR : ∀ s t, Store.Marks s t → R s t)
    (h : ∀ y completer, s.store.symbol? sym = some y → y.completer = some completer →
      Along R (start completer sym)) :
    R s.store ((completeSymbol start sym).after s).store := by
  obtain ⟨u, hsu, -, hut⟩ := completeSymbol_detaches hR h
  exact trans_of R hsu hut

end Starting

/-- The loader that runs the completers of the store. -/
def completerLoader (depth : Nat) : Loader :=
  completeSymbol fun completer sym => completer.run (perform depth) sym

theorem completerLoader_follows {depth : Nat} (hR : ∀ s t, Store.Routine s t → R s t)
    (h : ∀ command, Along R (perform depth command)) : (completerLoader depth).Follows R where
  change := hR
  load sym _ := completeSymbol_along (fun s t h => hR s t h.routine) fun _ _ _ _ =>
    Completer.run_along (fun step _ => h step.2) sym

/-- **Every command makes listed changes only**, whatever completers it starts and however it
ends. -/
theorem perform_along (hR : ∀ s t, Store.Change s t → R s t) (depth : Nat) (command : Command) :
    Along R (perform depth command) := by
  induction depth generalizing command with
  | zero => exact tooDeep_still.of_eq
  | succ depth ih =>
    have hload : (completerLoader depth).Follows R :=
      completerLoader_follows (fun s t h => hR s t (.routine h)) ih
    exact execute_along hload depth command fun s t h => hR s t h.change

/-! ### Reachable sessions -/

/-- The sessions that a new one becomes by steps of scripts. -/
inductive Session.Reachable : Session → Prop
  | initial (options : DisplayOptions) (audience : Log.Filter) :
    Reachable (Session.initial options audience)
  | step {s : Session} (depth : Nat) (step : Step) (h : Reachable s) :
    Reachable ((makeStep (perform depth) step).after s)
  /-- What was noted is put away. -/
  | report {s : Session} (h : Reachable s) : Reachable { s with trace := [] }

/-- **What a new store has and every change keeps, every store has.** -/
theorem Session.Reachable.invariant {P : Store → Prop}
    (hinitial : ∀ options, P (Store.initial options)) (hchange : ∀ s t, Store.Change s t → P s → P t)
    (hs : s.Reachable) : P s.store := by
  have hpreorder : IsPreorder Store (fun s t => P s → P t) :=
    { refl := fun _ h => h, trans := fun _ _ _ hst htu h => htu (hst h) }
  induction hs with
  | initial options => exact hinitial options
  | step depth step _ ih => exact makeStep_along (perform_along hchange depth step.2) _ ih
  | report _ ih => exact ih

end RegionTypes

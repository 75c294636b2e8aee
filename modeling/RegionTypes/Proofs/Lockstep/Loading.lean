import RegionTypes.Proofs.Store.Evolution

/-!
# Loading in both runs

The completer of a symbol runs between two changes of the store that no other operation makes.  Inside,
the runs may be tied in another way than outside.

* `Store.startLoading`, `Store.stopLoading` — what happens to the store before and after a completer
  runs.
* `whileLoading_inStep` — **into an inner tie and back**.
* `completeSymbol_keeps` — only what happens in between is left to be shown.
-/

namespace RegionTypes

open Run Tie

/-- The store with a symbol's completer detached and running. -/
def Store.startLoading (s : Store) (sym : SymbolId) : Store :=
  let detached := s.updateSymbol sym fun y => { y with completer := none }
  let running := detached.updateSymbol sym fun y => { y with completing := true }
  { running with inFlight := s.inFlight + 1 }

/-- The store after the completer of a symbol has run. -/
def Store.stopLoading (s : Store) (sym : SymbolId) : Store :=
  updateSymbol { s with inFlight := s.inFlight - 1 } sym fun y => { y with completing := false }

theorem Store.symbol?_stopLoading (s : Store) (sym a : SymbolId) : (s.stopLoading sym).symbol? a =
    if sym = a then (s.symbol? a).map fun y => { y with completing := false } else s.symbol? a :=
  symbol?_updateSymbol _ sym a _

/-- The store while a completer of the symbol runs. -/
def Store.enterLoading (s : Store) (sym : SymbolId) : Store :=
  { s.updateSymbol sym fun y => { y with completing := true } with inFlight := s.inFlight + 1 }

theorem Store.symbol?_enterLoading (s : Store) (sym a : SymbolId) :
    (s.enterLoading sym).symbol? a =
      if sym = a then (s.symbol? a).map fun y => { y with completing := true } else s.symbol? a :=
  symbol?_updateSymbol s sym a _

theorem Store.later_enterLoading (s : Store) (sym : SymbolId) : s.Later (s.enterLoading sym) :=
  .tail (.single (.routine (.completing sym true))) (.routine (.inFlight _))

theorem Store.later_stopLoading (s : Store) (sym : SymbolId) : s.Later (s.stopLoading sym) :=
  .tail (.single (.routine (.inFlight _))) (.routine (.completing sym false))

theorem Store.Twin.enterLoading {s t : Store} (h : s.Twin t) (sym : SymbolId) :
    (s.enterLoading sym).Twin (t.enterLoading sym) where
  symbols := (h.updateSymbol fun y => { y with completing := true }).symbols
  options := h.options
  inFlight := congrArg (· + 1) h.inFlight
  size := h.size
  types := h.types

theorem Store.Twin.stopLoading {s t : Store} (h : s.Twin t) (sym : SymbolId) :
    (s.stopLoading sym).Twin (t.stopLoading sym) where
  symbols := (h.updateSymbol fun y => { y with completing := false }).symbols
  options := h.options
  inFlight := congrArg (· - 1) h.inFlight
  size := h.size
  types := h.types

variable {α : Type} {T T' : Tie} {sym : SymbolId} {action action' : Run α} {s t : Session} {y : Symbol}

/-- The session in which the computation starts. -/
def Session.entering (s : Session) (sym : SymbolId) : Session :=
  { s with store := s.store.enterLoading sym }

/-- The session in which the mark has been taken away again. -/
def Session.leaving (s : Session) (sym : SymbolId) : Session :=
  { s with store := s.store.stopLoading sym }

theorem whileLoading_run_ok {y' : Symbol} {a : α} {s' : Session} (hy : s.store.symbol? sym = some y)
    (hrun : action (s.entering sym) = .ok a s') (hy' : s'.store.symbol? sym = some y') :
    whileLoading sym action s = .ok a (s'.leaving sym) := by
  rw [whileLoading, bind_run (updateSymbol_run hy)]
  refine (bind_run rfl).trans ((bind_run hrun).trans ?_)
  exact bind_run (updateSymbol_run (s := { s' with store := { s'.store with
    inFlight := s'.store.inFlight - 1 } }) hy')

theorem whileLoading_run_error {stop : Stop} {s' : Session} (hy : s.store.symbol? sym = some y)
    (hrun : action (s.entering sym) = .error stop s') :
    whileLoading sym action s = .error stop s' := by
  rw [whileLoading, bind_run (updateSymbol_run hy)]
  exact (bind_run rfl).trans (bind_run_error hrun)

/-- **Into an inner tie and back.**  What has come to a stop inside has come to a stop outside. -/
theorem whileLoading_inStep [T.Lawful] [T'.Lawful] (hst : T.Holds s t) (hy : s.store.symbol? sym = some y)
    (hin : T'.InStep Eq action action' (s.entering sym) (t.entering sym))
    (hmoves : Store.Precedes (s.entering sym).store (action.after (s.entering sym)).store)
    (hout : ∀ a s' t', action (s.entering sym) = .ok a s' → T'.Holds s' t' →
      T.Holds (s'.leaving sym) (t'.leaving sym))
    (hends : ∀ s' t', T'.Ends s' t' → T.Ends s' t')
    (hvoid : ∀ u, T'.Void u → T.Void u ∧ T.Void (u.stopLoading sym)) (hlax : T'.Lax → T.Lax) :
    T.InStep Eq (whileLoading sym action) (whileLoading sym action') s t := by
  have hy' : t.store.symbol? sym = some y := by
    rw [(Lawful.twin hst).store.symbol?, hy]
  unfold InStep at hin ⊢
  cases hrun : action (s.entering sym) with
  | error stop s' =>
    rw [whileLoading_run_error hy hrun]
    rw [hrun] at hin
    refine Or.imp (Or.imp (fun h => (hvoid _ h).1) fun h => ⟨hlax h.1, h.2⟩) (fun hagrees => ?_) hin
    cases hrun' : action' (t.entering sym) with
    | ok =>
      rw [hrun'] at hagrees
      exact hagrees.elim
    | error stop' t' =>
      rw [hrun'] at hagrees
      rw [whileLoading_run_error hy' hrun']
      exact ⟨hagrees.1, hends s' t' hagrees.2⟩
  | ok a s' =>
    rw [after_of_ok hrun] at hmoves
    obtain ⟨after, hafter, _⟩ := hmoves.symbols sym { y with completing := true } (by
      show (s.store.enterLoading sym).symbol? sym = _
      rw [Store.symbol?_enterLoading, if_pos rfl, hy, Option.map_some])
    rw [whileLoading_run_ok hy hrun hafter]
    rw [hrun] at hin
    refine Or.imp (fun h => (hvoid _ h).2) (fun hagrees => ?_) hin
    cases hrun' : action' (t.entering sym) with
    | error =>
      rw [hrun'] at hagrees
      exact hagrees.elim
    | ok b t' =>
      rw [hrun'] at hagrees
      have hafter' : t'.store.symbol? sym = some after := by
        rw [(Lawful.twin hagrees.2).store.symbol?, hafter]
      rw [whileLoading_run_ok hy' hrun' hafter']
      exact ⟨hagrees.1, hout a s' t' hrun hagrees.2⟩

/-- Loading a class keeps the tie if what its completer does, between the two changes, does. -/
theorem completeSymbol_keeps [T.Lawful]
    {start start' : Completer → Loader}
    (hroutine : ∀ s t, Store.Routine s t → T.Moves s t)
    (halong : ∀ completer, Along T.Moves (start completer sym) ∧ Along T.Moves (start' completer sym))
    (hstart : ∀ completer s t y, T.Holds s t → s.store.symbol? sym = some y →
      T.InStep Eq (whileLoading sym (start completer sym))
        (whileLoading sym (start' completer sym)) s t) :
    T.Pairs (completeSymbol start sym) (completeSymbol start' sym) := by
  have hmarks : ∀ s t, Store.Marks s t → T.Moves s t := fun s t h => hroutine s t h.routine
  have hwhile : ∀ completer, T.Pairs (whileLoading sym (start completer sym))
      (whileLoading sym (start' completer sym)) := by
    intro completer
    refine ⟨whileLoading_along hmarks (halong completer).1,
      whileLoading_along hmarks (halong completer).2, fun s t hst => ?_⟩
    cases hy : s.store.symbol? sym with
    | some y => exact hstart completer s t y hst hy
    | none =>
      -- the symbol is not there in either run
      have hstep := (symbolData_keeps sym).inStep s t hst
      cases hrun : symbolData sym s with
      | ok =>
        obtain ⟨rfl, hfound⟩ := eq_of_symbolData hrun
        rw [hy] at hfound
        cases hfound
      | error =>
        simp only [whileLoading, updateSymbol, bind_assoc]
        exact inStep_bind_of_stop hstep hrun
  have hdetach : T.Keeps (updateSymbol sym fun y => { y with completer := none }) :=
    updateSymbol_keeps (fun _ => ⟨rfl, rfl, by simp⟩) fun s => hroutine _ _ (.detach sym)
  rw [completeSymbol_eq, completeSymbol_eq]
  refine (symbolData_keeps sym).bind fun symbol => ?_
  split
  · exact keeps_pure _
  · exact hdetach.bind fun _ => (log_keeps _ _ _).bind fun _ => hwhile _

end RegionTypes

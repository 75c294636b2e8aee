import RegionTypes.Proofs.Completion.Frame

/-!
# Runs under watch

A run can be looked at while it goes on: at the start and the end of every command, and of every request
to load a class, whether it comes from a script or from the completer of a class that is being loaded.

* `Point` — where a run is looked at.
* `Watch` — what is done there, with the symbols whose completers are running at hand.
* `performWatched`, `watchedLoader` — carries out a command, and loads a class, under watch.
* `Tie.InStep.watched` — **a watch that has nothing to do makes no difference**.
-/

namespace RegionTypes

open Run Tie

/-- Where a run is looked at: before and after a command, before and after a request to load a
class. -/
inductive Point where
  | starts (command : Command)
  | returned (command : Command)
  | loading (symbol : SymbolId)
  | loaded (symbol : SymbolId)

/-- What is done at the points of a run.  The symbols are those whose completers are running, the
latest first. -/
abbrev Watch := List SymbolId → Point → Run Unit

/-- Something done between two points. -/
def Watch.around {α : Type} (watch : Watch) (stack : List SymbolId) (before after : Point)
    (action : Run α) : Run α := do
  watch stack before
  let result ← action
  watch stack after
  return result

/-- Carries out a command under watch.  Each completer that is started is put on the stack for as long
as it runs. -/
def performWatched (watch : Watch) : List SymbolId → Nat → Command → Run Outcome
  | _, 0, _ => tooDeep
  | stack, depth + 1, command =>
    watch.around stack (.starts command) (.returned command) <|
      execute (fun sym => watch.around stack (.loading sym) (.loaded sym) <|
        completeSymbol (fun completer sym =>
          completer.run (performWatched watch (sym :: stack) depth) sym) sym) depth command

/-- Loads a class under watch. -/
def watchedLoader (watch : Watch) (stack : List SymbolId) (depth : Nat) : Loader := fun sym =>
  watch.around stack (.loading sym) (.loaded sym) <|
    completeSymbol (fun completer sym =>
      completer.run (performWatched watch (sym :: stack) depth) sym) sym

/-- **A watch that has nothing to do makes no difference.**  Before the action it may have changed the
session to one that goes together with that of the other run. -/
theorem Tie.InStep.watched {α : Type} {T : Tie} {V : α → α → Prop} {action action' : Run α}
    {watch : Watch} {stack : List SymbolId} {before after : Point} {s s₁ t : Session}
    (hvoid : ∀ u, ¬ T.Void u) (hbefore : watch stack before s = .ok () s₁)
    (h : T.InStep V action action' s₁ t)
    (hafter : ∀ s' t', T.Holds s' t' → watch stack after s' = .ok () s') :
    T.InStep V (watch.around stack before after action) action' s t := by
  have hrest : T.InStep V (action >>= fun result => watch stack after >>= fun _ => pure result)
      (action' >>= pure) s₁ t := by
    refine inStep_bind_of_not_void hvoid h fun a b s' t' hab _ hst' => ?_
    unfold InStep
    rw [bind_run (hafter s' t' hst')]
    exact inStep_pure hst' hab
  unfold InStep at hrest ⊢
  rw [bind_pure] at hrest
  rwa [Watch.around, bind_run hbefore]

end RegionTypes

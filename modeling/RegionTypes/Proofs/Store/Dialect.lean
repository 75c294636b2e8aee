import RegionTypes.Proofs.Store.Commands

/-!
# Runs in a part of the language

What holds of every run that keeps to certain commands is shown from what these commands change.  A
command may install a completer, whose script runs later, so the commands have to be closed under the
scripts that they install.

* `Dialect` — a set of commands that is closed in this way.
* `Store.LoadsIn` — the completers of the store keep to the dialect.
* `Dialect.perform_along` — **a command of the dialect makes routine changes and those that commands of
  the dialect make**, whatever completers it starts.
* `Session.ReachableIn` — the sessions that scripts of the dialect lead to.
-/

namespace RegionTypes

open Run

/-- A set of commands that contains the scripts which its commands install. -/
structure Dialect where
  Allows : Command → Prop
  script : ∀ symbol script propagate failure,
    Allows (.setCompleter symbol script propagate failure) → ∀ step ∈ script, Allows step.2

namespace Store

variable {s t : Store} {dialect : Dialect}

/-- The completers of the store keep to the dialect. -/
def LoadsIn (s : Store) (dialect : Dialect) : Prop :=
  ∀ sym y completer, s.symbol? sym = some y → y.completer = some completer →
    ∀ step ∈ completer.script, dialect.Allows step.2

theorem initial_loadsIn (options : DisplayOptions) (dialect : Dialect) :
    (initial options).LoadsIn dialect := by
  intro sym y completer hy hcompleter
  have hnone : ∀ y ∈ initialSymbols, y.completer.isNone := by decide
  have hy' := hnone y (mem_initialSymbols hy)
  rw [hcompleter] at hy'
  cases hy'

variable {sym : SymbolId} {completer : Completer}

theorem completer?_updateSymbol {a : SymbolId} {f : Symbol → Symbol}
    (h : (s.updateSymbol a f).completer? sym = some completer) : s.completer? sym = some completer ∨
      ∃ y, s.symbol? sym = some y ∧ (f y).completer = some completer := by
  rw [completer?, symbol?_updateSymbol] at h
  split at h
  · obtain ⟨_, hy', hcompleter⟩ := Option.bind_eq_some_iff.1 h
    obtain ⟨y, hy, rfl⟩ := Option.map_eq_some_iff.1 hy'
    exact .inr ⟨y, hy, hcompleter⟩
  · exact .inl h

/-- **Routine changes install no completer.** -/
theorem Routine.completer? (hst : s.Routine t) (h : t.completer? sym = some completer) :
    s.completer? sym = some completer := by
  cases hst with
  | declare =>
    rw [Store.completer?, symbol?_pushSymbol] at h
    split at h
    · cases h
    · exact h
  | attach | flags | enter | completing =>
    exact (completer?_updateSymbol h).elim id Option.bind_eq_some_iff.2
  | damage | detach =>
    rcases completer?_updateSymbol h with hold | ⟨y, hy, hnone⟩
    · exact hold
    · cases hnone
  | _ => exact h

theorem LoadsIn.step (h : s.LoadsIn dialect)
    (hst : ∀ sym completer, t.completer? sym = some completer → s.completer? sym = some completer ∨
      ∀ step ∈ completer.script, dialect.Allows step.2) : t.LoadsIn dialect := by
  intro sym y completer hy hcompleter
  rcases hst sym completer (Option.bind_eq_some_iff.2 ⟨y, hy, hcompleter⟩) with hold | hallowed
  · obtain ⟨old, hold, hkept⟩ := Option.bind_eq_some_iff.1 hold
    exact h sym old completer hold hkept
  · exact hallowed

theorem Routine.loadsIn (hst : s.Routine t) (h : s.LoadsIn dialect) : t.LoadsIn dialect :=
  h.step fun _ _ hcompleter => .inl (hst.completer? hcompleter)

theorem LoadsIn.makes {command : Command} (h : s.LoadsIn dialect)
    (hcommand : dialect.Allows command) (hst : command.Makes s t) : t.LoadsIn dialect := by
  cases hst with
  | install symbol completer =>
    refine h.step fun _ installed hinstalled => (completer?_updateSymbol hinstalled).imp_right ?_
    rintro ⟨y, -, hnew⟩
    obtain rfl := Option.some.inj hnew
    exact dialect.script symbol completer.script completer.propagate completer.failure hcommand
  | prototyped | thrown => exact h

end Store

namespace Dialect

variable {dialect : Dialect} {R : Store → Store → Prop}

/-- The relation, between stores whose completers keep to the dialect. -/
def Along (dialect : Dialect) (R : Store → Store → Prop) (s t : Store) : Prop :=
  s.LoadsIn dialect → t.LoadsIn dialect ∧ R s t

theorem along_of_routine (hroutine : ∀ s t, Store.Routine s t → R s t) (s t : Store)
    (h : s.Routine t) : dialect.Along R s t :=
  fun hs => ⟨h.loadsIn hs, hroutine s t h⟩

variable [IsPreorder Store R]

instance : IsPreorder Store (dialect.Along R) where
  refl s hs := ⟨hs, refl_of R s⟩
  trans _ _ _ hst htu hs := by
    obtain ⟨ht, hR⟩ := hst hs
    obtain ⟨hu, hR'⟩ := htu ht
    exact ⟨hu, trans_of R hR hR'⟩

/-- The completers that the store holds keep to the dialect. -/
theorem completerLoader_detaches (hmarks : ∀ s t, Store.Marks s t → R s t) {depth : Nat}
    (h : ∀ command, dialect.Allows command → Run.Along (dialect.Along R) (perform depth command))
    {s : Session} (hs : s.store.LoadsIn dialect) (sym : SymbolId) :
    ∃ u : Store, dialect.Along R s.store u ∧ u.completer? sym = none ∧
      dialect.Along R u ((completerLoader depth sym).after s).store :=
  completeSymbol_detaches (fun s t h hs => ⟨h.routine.loadsIn hs, hmarks s t h⟩)
    fun y completer hy hcompleter => Completer.run_along (fun step hstep =>
      h step.2 (hs sym y completer hy hcompleter step hstep)) sym

theorem completerLoader_along (hmarks : ∀ s t, Store.Marks s t → R s t) {depth : Nat}
    (h : ∀ command, dialect.Allows command → Run.Along (dialect.Along R) (perform depth command))
    (sym : SymbolId) : Run.Along (dialect.Along R) (completerLoader depth sym) := by
  intro s hs
  obtain ⟨u, hsu, -, hut⟩ := completerLoader_detaches hmarks h hs sym
  exact trans_of (dialect.Along R) hsu hut hs

theorem completerLoader_follows (hroutine : ∀ s t, Store.Routine s t → R s t) {depth : Nat}
    (h : ∀ command, dialect.Allows command → Run.Along (dialect.Along R) (perform depth command)) :
    (completerLoader depth).Follows (dialect.Along R) :=
  ⟨along_of_routine hroutine, completerLoader_along (fun s t h => hroutine s t h.routine) h⟩

/-- **A command of the dialect**, whatever completers it starts and however it ends. -/
theorem perform_along (hroutine : ∀ s t, Store.Routine s t → R s t)
    (hmakes : ∀ command, dialect.Allows command → ∀ s t, command.Makes s t → R s t) (depth : Nat)
    (command : Command) (hcommand : dialect.Allows command) :
    Run.Along (dialect.Along R) (perform depth command) := by
  induction depth generalizing command with
  | zero => exact tooDeep_still.of_eq
  | succ depth ih =>
    refine execute_along (completerLoader_follows hroutine ih) depth command fun s t h hs => ?_
    exact ⟨hs.makes hcommand h, hmakes command hcommand s t h⟩

end Dialect

/-- The sessions that a new one becomes by steps of scripts of a dialect. -/
inductive Session.ReachableIn (dialect : Dialect) : Session → Prop
  | initial (options : DisplayOptions) (audience : Log.Filter) :
    ReachableIn dialect (Session.initial options audience)
  | step {s : Session} (depth : Nat) (step : Step) (hstep : dialect.Allows step.2)
      (h : ReachableIn dialect s) : ReachableIn dialect ((makeStep (perform depth) step).after s)
  /-- What was noted is put away. -/
  | report {s : Session} (h : ReachableIn dialect s) : ReachableIn dialect { s with trace := [] }

/-- Where the scripts of a dialect lead to. -/
theorem Session.ReachableIn.along {dialect : Dialect} {R : Store → Store → Prop}
    [IsPreorder Store R] {s : Session} (hroutine : ∀ s t, Store.Routine s t → R s t)
    (hmakes : ∀ command, dialect.Allows command → ∀ s t, command.Makes s t → R s t)
    (hs : s.ReachableIn dialect) :
    s.store.LoadsIn dialect ∧ ∃ options, R (Store.initial options) s.store := by
  induction hs with
  | initial options =>
    exact ⟨Store.initial_loadsIn options dialect, options, refl_of R _⟩
  | step depth step hstep _ ih =>
    obtain ⟨hloads, options, hR⟩ := ih
    have hperform := Dialect.perform_along hroutine hmakes depth step.2 hstep
    obtain ⟨hloads', hR'⟩ := makeStep_along hperform _ hloads
    exact ⟨hloads', options, trans_of R hR hR'⟩
  | report _ ih => exact ih

end RegionTypes

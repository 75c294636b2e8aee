import RegionTypes.Proofs.Completion.Watched
import RegionTypes.Proofs.Store.IssuedCommands

/-!
# Stores that are worked with through their own handles

A handle counts for the store that has issued it.  A run that names only such handles, in its own steps
and in those of the completers that it starts, finds a consistent store at every moment.

* `Watch.Guards` — a watch that looks on, and stops a run before it names a handle of no type of the
  store; `Watch.issued` does nothing else.
* `performWatched_upholds` — **what such a watch lets pass leaves the store consistent**.
* `Session.Leads` — the sessions that one becomes by such steps, and by mappings of any kind.
* `Session.Leads.upholds` — the run lemma.
* `store_consistent` — so every store is consistent, and no class has supertypes without its lists.
-/

namespace RegionTypes

open Run

/-! ### Guarded runs -/

instance (s : Session) (ref : TypeRef) : Decidable (ref.Issued s) :=
  inferInstanceAs (Decidable (∀ ty ∈ ref.resolve? s.names, s.store.Has ty))

instance (s : Session) (ref : SymbolRef) : Decidable (ref.Issued s) :=
  inferInstanceAs (Decidable (∀ sym ∈ ref.resolve? s.names, sym.index < s.store.symbols.size))

instance (s : Session) (command : Command) : Decidable (command.Issued s) :=
  decidable_of_iff ((∀ ref ∈ command.typeRefs, ref.Issued s) ∧ ∀ ref ∈ command.symbolRefs, ref.Issued s)
    ⟨fun h => ⟨h.1, h.2⟩, fun h => ⟨h.types, h.symbols⟩⟩

/-- The watch changes nothing, and no command starts under it that names something which the store has
not issued.  It may stop the run wherever it is asked, so it can be made to stop at any moment. -/
structure Watch.Guards (watch : Watch) : Prop where
  looks : ∀ stack point s, (watch stack point).after s = s
  guards : ∀ stack command s s', watch stack (.starts command) s = .ok () s' → command.Issued s

/-- Raises an alarm before a command that names something which the store has not issued. -/
def Watch.issued (alarm : Stop) : Watch := fun _ point =>
  match point with
  | .starts command => do if command.Issued (← get) then pure () else throw alarm
  | _ => pure ()

theorem Watch.issued_guards (alarm : Stop) : (Watch.issued alarm).Guards where
  looks stack point s := by
    cases point with
    | starts command =>
      show Run.after (do if command.Issued (← get) then pure () else throw alarm) s = s
      rw [after_bind (get_run s)]
      split <;> rfl
    | _ => rfl
  guards stack command s s' hrun := by
    by_contra hforeign
    rw [issued, bind_run (get_run s), if_neg hforeign] at hrun
    cases hrun

theorem Store.Marks.upholds {s t : Store} (h : s.Marks t) : s.Upholds t := by
  cases h with
  | inFlight => exact upholds_of_eq rfl rfl
  | detach | completing => exact upholds_updateSymbol (fun _ => rfl) fun _ => rfl

variable {watch : Watch} {s : Session} {depth : Nat}

theorem Watch.Guards.still (hwatch : watch.Guards) (stack : List SymbolId) (point : Point) :
    Along Eq (watch stack point) := by
  intro s
  rw [hwatch.looks]

/-- What is done between two points need only be looked at where the watch lets it start. -/
theorem Watch.Guards.around (hwatch : watch.Guards) {α : Type} {action : Run α} {stack : List SymbolId}
    {before after : Point} (h : watch stack before s = .ok () s → s.store.Upholds (action.after s).store) :
    s.store.Upholds ((watch.around stack before after action).after s).store := by
  refine along_of_bind ((hwatch.still stack before).of_eq s) fun _ s' hrun => ?_
  obtain rfl := (after_of_ok hrun).symm.trans (hwatch.looks stack before s)
  exact along_of_bind (h hrun) fun result s₁ _ =>
    ((hwatch.still stack after).of_eq.bind fun _ => along_pure result) s₁

theorem watchedLoader_upholds (hwatch : watch.Guards)
    (h : ∀ stack command, Along Store.Upholds (performWatched watch stack depth command))
    (stack : List SymbolId) : (watchedLoader watch stack depth).Upholds :=
  Loader.upholds_of fun sym _ => hwatch.around fun _ =>
    completeSymbol_along (fun _ _ hmarks => hmarks.upholds) fun _ _ _ _ =>
      Completer.run_along (fun step _ => h (sym :: stack) step.2) sym

/-- **What a guarding watch lets pass leaves the store consistent**, whatever completers it starts and
however it ends. -/
theorem performWatched_upholds (hwatch : watch.Guards) (stack : List SymbolId) (depth : Nat)
    (command : Command) : Along Store.Upholds (performWatched watch stack depth command) := by
  induction depth generalizing stack command with
  | zero => exact tooDeep_still.of_eq
  | succ depth ih =>
    intro s
    rw [performWatched]
    refine hwatch.around fun hstarts => ?_
    exact (execute_upheld (watchedLoader_upholds hwatch ih stack) depth
      (hwatch.guards stack command s s hstarts)).upholds

/-! ### Whole runs -/

/-- The two ways to apply a mapping: to the components of a type, and to the types of a list. -/
inductive Mapping.Applied {σ : Type} (load : Loader) (depth : Nat) (f : Mapping σ) (t : Store) :
    {α : Type} → StateT σ Run α → Prop
  | type (ty : TypeId) : Applied load depth f t (mapType load depth f ty)
  | list (types : List TypeId) (h : ∀ ty ∈ types, t.Has ty) : Applied load depth f t (mapList f types)

theorem Mapping.Applied.upholds {σ α : Type} {load : Loader} {f : Mapping σ} {action : StateT σ Run α}
    (h : f.Applied load depth s.store action) (hload : load.Upholds) (hf : f.IssuesFrom s.store) (u : σ) :
    s.store.Upholds ((action.run u).after s).store := by
  cases h with
  | type ty => exact (mapType_issues hload hf (.refl _) depth ty u).upholds
  | list types htypes => exact (mapList_issues hf (.refl _) htypes u).upholds

/-- The sessions that one becomes by steps of scripts and by mappings, all with handles that the store
has issued.  Since a watch may stop a run, these are also the sessions in the middle of a run. -/
inductive Session.Leads : Session → Session → Prop
  | refl (s : Session) : Leads s s
  | step {s t : Session} {watch : Watch} (h : Leads s t) (hwatch : watch.Guards) (depth : Nat)
      (step : Step) : Leads s ((makeStep (performWatched watch [] depth) step).after t)
  /-- What the mapping does is of this kind, and its results are issued; it need not be so for stores
  that are not consistent or have not grown out of the present one. -/
  | mapping {s t : Session} {watch : Watch} {σ α : Type} (h : Leads s t) (hwatch : watch.Guards)
      (depth : Nat) (f : Mapping σ) (u : σ) (action : StateT σ Run α)
      (happlied : f.Applied (watchedLoader watch [] depth) depth t.store action)
      (hleads : ∀ ty v r, t.store.Expands r.store → r.store.Consistent → r.store.Has ty →
        Leads r (((f ty).run v).after r))
      (hissued : ∀ ty v r image v' r', t.store.Expands r.store → r.store.Consistent → r.store.Has ty →
        (f ty).run v r = .ok (image, v') r' → r'.store.Has image) :
    Leads s ((action.run u).after t)
  /-- What was noted is put away. -/
  | report {s t : Session} (h : Leads s t) : Leads s { t with trace := [] }

/-- **A consistent store stays consistent.** -/
theorem Session.Leads.upholds {t : Session} (h : s.Leads t) : s.store.Upholds t.store := by
  induction h with
  | refl s => exact refl_of Store.Upholds s.store
  | step h hwatch depth step ih =>
    exact trans_of Store.Upholds ih
      (makeStep_along (performWatched_upholds hwatch [] depth step.2) _)
  | mapping h hwatch depth f u action happlied hleads hissued ih ihleads =>
    have hload := watchedLoader_upholds hwatch
      (fun stack command => performWatched_upholds hwatch stack depth command) []
    refine trans_of Store.Upholds ih (happlied.upholds hload (fun ty r hgrows hty v hr => ?_) u)
    obtain ⟨hgrows', hafter⟩ := ihleads ty v r hgrows hr hty hr
    exact ⟨hgrows', hafter, fun ⟨image, v'⟩ r' hrun => hissued ty v r image v' r' hgrows hr hty hrun⟩
  | report h ih => exact ih

theorem Session.Leads.consistent {options : DisplayOptions} {audience : Log.Filter}
    (h : (Session.initial options audience).Leads s) : s.store.Consistent :=
  (h.upholds (Store.initial_consistent options)).2

/-- A step that names only what the store has issued, in all commands that it gives rise to. -/
theorem Session.Leads.perform {t : Session} (h : s.Leads t) {step : Step} {alarm : Stop}
    (hissued : makeStep (performWatched (.issued alarm) [] depth) step t = makeStep (perform depth) step t) :
    s.Leads ((makeStep (perform depth) step).after t) := by
  have hstep := h.step (Watch.issued_guards alarm) depth step
  rwa [after, hissued] at hstep

theorem Session.Leads.after_step (t : Session) (step : Step) (h : s.Leads t)
    (hissued : makeStep (performWatched (.issued .tooDeep) [] depth) step t =
      makeStep (RegionTypes.perform depth) step t) :
    s.Leads ((makeStep (RegionTypes.perform depth) step).after t) :=
  h.perform hissued

theorem Store.Consistent.after_step (hs : s.store.Consistent) {step : Step}
    (hissued : makeStep (performWatched (.issued .tooDeep) [] depth) step s =
      makeStep (perform depth) step s) : ((makeStep (perform depth) step).after s).store.Consistent :=
  ((Session.Leads.refl s).perform hissued).upholds hs |>.2

/-- A signature that is refused is not refused for the supertypes alone. -/
theorem defineClass_ne_supertypes {load : Loader} {ty : TypeId} {sig : ClassSignature} {text : String}
    {s' : Session} (hs : s.store.Consistent) :
    defineClass load depth ty sig s ≠ .ok (.error (.alreadySet .supertypes text)) s' := by
  intro hrun
  obtain ⟨kind, s₁, hkind, hrun⟩ := exists_of_bind hrun
  obtain ⟨rfl, data, hdata, rfl⟩ := eq_of_kindOf hkind
  cases hkind : data.kind with
  | classType info =>
    rw [hkind] at hrun
    cases htaken : info.takenField? with
    | none =>
      simp only [htaken] at hrun
      obtain ⟨_, s₂, -, hpure⟩ := exists_of_bind hrun
      cases hpure
    | some =>
      simp only [htaken] at hrun
      obtain ⟨found, s₂, -, hpure⟩ := exists_of_bind hrun
      injection hpure with herror
      injection herror with herror
      injection herror with hfield
      have hsupplied := (hs.types ty data hdata).supplied info hkind
      exact hsupplied.takenField?_ne (hfield ▸ htaken)
  | _ =>
    rw [hkind] at hrun
    obtain ⟨found, s₂, -, hpure⟩ := exists_of_bind hrun
    cases hpure

/-- **Every store is consistent** that has grown out of a new one by operations on handles of its own:
by steps of scripts with the completers that they start, and by mappings of any kind.  Symbols and their
types belong together, supertypes come with the lists of a class, variables have symbols, literals and
erasure stand where they may, and types and symbols are made of older ones.  A step that is made without
a watch is one of these operations wherever a watch would have raised no alarm. -/
theorem store_consistent {options : DisplayOptions} {audience : Log.Filter} {s : Session}
    (h : (Session.initial options audience).Leads s) :
    s.store.Consistent ∧
    (∀ load depth ty sig text s',
      defineClass load depth ty sig s ≠ .ok (.error (.alreadySet .supertypes text)) s') ∧
    ∀ depth step alarm, makeStep (performWatched (.issued alarm) [] depth) step s =
      makeStep (perform depth) step s →
        (Session.initial options audience).Leads ((makeStep (perform depth) step).after s) ∧
        ((makeStep (perform depth) step).after s).store.Consistent := by
  refine ⟨h.consistent, fun _ _ _ _ _ _ => defineClass_ne_supertypes h.consistent,
    fun depth step alarm hissued => ?_⟩
  have hleads := h.perform hissued
  exact ⟨hleads, hleads.consistent⟩

/-- A class that is loaded when a literal is given its type, an array of it, and a mapping that takes the
elements of the array to `int`. -/
theorem store_consistent_loaded :
    let signature : Step := (none, .defineClass (.named "C") [] [] [] none [])
    let steps : List Step := [(some "C", .declareClass "C" none .none none),
      (none, .setCompleter (.named "C") [signature] true none),
      (none, .constType (.named "C") (.int 7)), (none, .arrayType (.named "C") none none)]
    let first := Session.initial {} .empty
    let loaded := steps.foldl (fun s step =>
      (makeStep (performWatched (.issued .tooDeep) [] 9) step).after s) first
    let toInt : Mapping Unit := fun _ => pure WellKnown.int
    let mapped := ((mapType (watchedLoader (.issued .tooDeep) [] 9) 9 toInt ⟨14⟩).run ()).after loaded
    first.Leads mapped ∧ mapped.store.types.size = 16 ∧ mapped.store.Consistent := by
  intro signature steps first loaded toInt mapped
  have hguards := Watch.issued_guards .tooDeep
  have hsteps : ∀ (steps : List Step) (t : Session), first.Leads t → first.Leads (steps.foldl
      (fun s step => (makeStep (performWatched (.issued .tooDeep) [] 9) step).after s) t) := by
    intro steps
    induction steps with
    | nil => exact fun _ h => h
    | cons step rest ih => exact fun t h => ih _ (h.step hguards 9 step)
  have hmap : ∀ t, first.Leads t → first.Leads
      (((mapType (watchedLoader (.issued .tooDeep) [] 9) 9 toInt ⟨14⟩).run ()).after t) := by
    refine fun t h => h.mapping hguards 9 toInt () _ (.type ⟨14⟩) (fun _ _ r _ _ _ => .refl r) ?_
    intro ty v r image v' r' _ hr _ hrun
    obtain ⟨hresult, rfl⟩ := EStateM.Result.ok.inj hrun
    obtain rfl : WellKnown.int = image := congrArg Prod.fst hresult
    exact hr.wellKnown WellKnown.int (by decide)
  have hmapped : first.Leads mapped := hmap loaded (hsteps steps first (.refl first))
  exact ⟨hmapped, by decide +kernel, (store_consistent hmapped).1⟩

end RegionTypes

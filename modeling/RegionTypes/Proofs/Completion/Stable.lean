import RegionTypes.Proofs.Completion.Listing

/-!
# Answers are stable

A question that is answered with a list and asked while no completer is running leaves its answer in
the store.  From then on it is answered in the same way, whatever happens to the store: classes may be
loaded or damaged, operations may fail, a run may be cut short.

* `Session.TopLevel` — the sessions between the steps of a script.
* `Session.TopLevel.idle` — no completer is running there.
* `Session.LeadsTo` — what any steps lead to.
* `list_answers_stable` — **the same question has the same answer**.
-/

namespace RegionTypes

open Run

/-- The sessions between the steps of a script: each step has returned, with an answer or with a
failure. -/
inductive Session.TopLevel : Session → Prop
  | initial (options : DisplayOptions) (audience : Log.Filter) :
    TopLevel (Session.initial options audience)
  | step {s s' : Session} {outcome : Outcome} (depth : Nat) (step : Step) (h : TopLevel s)
      (hrun : makeStep (perform depth) step s = .ok outcome s') : TopLevel s'
  /-- What was noted is put away. -/
  | report {s : Session} (h : TopLevel s) : TopLevel { s with trace := [] }

/-- The sessions that a session becomes by steps of scripts, also by steps that come to a stop. -/
inductive Session.LeadsTo (s : Session) : Session → Prop
  | refl : LeadsTo s s
  | step {t : Session} (depth : Nat) (step : Step) (h : LeadsTo s t) :
    LeadsTo s ((makeStep (perform depth) step).after t)
  | report {t : Session} (h : LeadsTo s t) : LeadsTo s { t with trace := [] }

variable {s s' t : Session} {ty : TypeId} {depth : Nat}

theorem Session.LeadsTo.later (h : s.LeadsTo t) : s.store.Later t.store := by
  induction h with
  | refl => exact refl_of Store.Later _
  | step depth step _ ih =>
    exact trans_of Store.Later ih (makeStep_along (perform_later depth step.2) _)
  | report _ ih => exact ih

namespace Store

theorem initial_idle (options : DisplayOptions) : (initial options).Idle where
  inFlight := rfl
  completing sym := by
    rintro ⟨y, hy, hcompleting⟩
    have hnone : ∀ y ∈ initialSymbols, y.completing = false := by decide
    rw [hnone y (mem_initialSymbols hy)] at hcompleting
    cases hcompleting

theorem Balanced.idle {b s : Store} (h : b.Balanced s) (hb : b.Idle) : s.Idle where
  inFlight := h.inFlight.trans hb.inFlight
  completing sym hsym := hb.completing sym (h.completing sym hsym)

theorem Balanced.idle_of_rest {b s : Store} (h : b.Balanced s) (hb : b.inFlight = 0 → b.Idle)
    (hrest : s.inFlight = 0) : s.Idle := h.idle (hb (h.inFlight.symm.trans hrest))

end Store

theorem Session.TopLevel.after_step {step : Step} {outcome : Outcome} (hs : s.TopLevel)
    (hrun : makeStep (perform depth) step s = .ok outcome s') :
    ((makeStep (perform depth) step).after s).TopLevel := by
  rw [after_of_ok hrun]
  exact .step depth step hs hrun

/-- What is done by a step without a name for its answer. -/
theorem Session.TopLevel.perform {command : Command} {outcome : Outcome} (hs : s.TopLevel)
    (hrun : perform depth command s = .ok outcome s') : s'.TopLevel := by
  have hstep : makeStep (RegionTypes.perform depth) (none, command) s = .ok outcome s' := by
    refine (bind_run hrun).trans ?_
    cases outcome <;> rfl
  exact .step depth (none, command) hs hstep

/-- **Between steps no completer is running.** -/
theorem Session.TopLevel.idle (h : s.TopLevel) : s.store.Idle := by
  induction h with
  | initial options => exact Store.initial_idle options
  | @step s s' outcome depth step _ hrun ih =>
    exact ((makeStep_keeps (perform_frame depth step.2 s)).balanced hrun).idle ih
  | report _ ih => exact ih

/-- The questions that are answered with a list. -/
def Query.listings : List Query :=
  [.typeArguments, .regionArguments, .effectArguments, .allTypeParams, .allRegionParams,
    .allEffectParams]

theorem perform_ask (depth : Nat) (query : Query) (ty : TypeId) :
    perform (depth + 1) (.ask query (.handle ty)) =
      (do return .ok (← inquire (completerLoader depth) depth ty query)) :=
  rfl

/-- A question for type arguments between the steps of a script. -/
theorem Session.TopLevel.typeArguments {args : List TypeId} (hs : s.TopLevel)
    (hrun : typeArguments (completerLoader depth) depth ty s = .ok args t) : t.TopLevel := by
  have hask : RegionTypes.perform (depth + 1) (.ask .typeArguments (.handle ty)) s =
      .ok (.ok (.types args)) t := by
    rw [perform_ask, inquire, bind_assoc, bind_run hrun]
    rfl
  exact hs.perform hask

theorem Listing.perform_stable {β : Type} {q : Listing β} [q.Lawful] {query : Query}
    {wrap : List β → Answer} {answer : Answer}
    (hquery : ∀ load depth ty, inquire load depth ty query = (do return wrap (← q.ask load depth ty)))
    (hs : s.store.Idle) (hrun : perform depth (.ask query (.handle ty)) s = .ok (.ok answer) s')
    (ht : s'.store.Later t.store) :
    perform depth (.ask query (.handle ty)) t = .ok (.ok answer) t := by
  have hidle : s'.store.Idle := ((perform_frame depth _ s).balanced hrun).idle hs
  cases depth with
  | zero => cases hrun
  | succ depth =>
    rw [perform_ask, hquery, bind_assoc] at hrun
    obtain ⟨list, u, hask, hrest⟩ := exists_of_bind hrun
    obtain ⟨hanswer, rfl⟩ := EStateM.Result.ok.inj hrest
    have hheld := q.held_of_ask (completerLoader_later depth) hask hidle
    rw [perform_ask, hquery, bind_assoc, bind_run (q.ask_of_held (ht.precedes.held hheld))]
    exact congrArg (EStateM.Result.ok · t) hanswer

/-- **Answers are stable.**  A question that is answered with a list, asked between the steps of a
script, has the same answer after any further steps: after loading and damage, after operations that
fail, and also where a run was cut short. -/
theorem list_answers_stable {query : Query} {answer : Answer} (hs : s.TopLevel)
    (hquery : query ∈ Query.listings)
    (hrun : perform depth (.ask query (.handle ty)) s = .ok (.ok answer) s') (ht : s'.LeadsTo t) :
    perform depth (.ask query (.handle ty)) t = .ok (.ok answer) t := by
  have hlater := ht.later
  simp only [Query.listings, List.mem_cons, List.not_mem_nil, or_false] at hquery
  rcases hquery with rfl | rfl | rfl | rfl | rfl | rfl
  · exact Listing.typeArguments.perform_stable (fun _ _ _ => rfl) hs.idle hrun hlater
  · exact Listing.regionArguments.perform_stable (fun _ _ _ => rfl) hs.idle hrun hlater
  · exact Listing.effectArguments.perform_stable (fun _ _ _ => rfl) hs.idle hrun hlater
  · exact Listing.allTypeParams.perform_stable (fun _ _ _ => rfl) hs.idle hrun hlater
  · exact Listing.allRegionParams.perform_stable (fun _ _ _ => rfl) hs.idle hrun hlater
  · exact Listing.allEffectParams.perform_stable (fun _ _ _ => rfl) hs.idle hrun hlater

/-- The omitted region argument of a class that its completer defines, asked for before and after the
class is damaged. -/
theorem list_answers_stable_damaged :
    let declared := (makeStep (perform 9) (none, .declareClass "C" none .none none)).after
      (.initial {} .empty)
    let lazy := (makeStep (perform 9) (none, .setCompleter (.handle ⟨11⟩)
      [(none, .defineClass (.handle ⟨12⟩) [] [⟨[.param "P"]⟩] [] none [])] false none)).after declared
    let s := (makeStep (perform 9)
      (none, .classType (.handle ⟨11⟩) none [] [] [] none false)).after lazy
    ∃ s', perform 9 (.ask .regionArguments (.handle ⟨13⟩)) s = .ok (.ok (.regions [Path.root])) s' ∧
      let t := (makeStep (perform 9) (none, .errorTypeForClass (.handle ⟨11⟩))).after s'
      t.store.canonical? (some ⟨11⟩) = some ⟨14⟩ ∧
      perform 9 (.ask .regionArguments (.handle ⟨13⟩)) t = .ok (.ok (.regions [Path.root])) t := by
  intro declared lazy s
  have hdeclared : declared.TopLevel := .after_step (.initial {} .empty) rfl
  have hlazy : lazy.TopLevel := .after_step hdeclared rfl
  have hs : s.TopLevel := .after_step hlazy rfl
  refine ⟨_, rfl, by decide +kernel, ?_⟩
  exact list_answers_stable hs (by decide) rfl (.step 9 _ .refl)

end RegionTypes

import RegionTypes.Proofs.Completion.Frame
import RegionTypes.Proofs.Store.Refusal

/-!
# A completer can define its class

A completer may look around before it defines its class: as long as no completer of the symbol has
ended, nothing that happens to the store stands in the way of the definition, and nothing that was
worked out from the unfinished class is kept.

A symbol that is being completed may be given another completer, and that one may be started too.
When it ends, the symbol no longer counts as being completed, although its first completer is still
running: a list that is asked for then is settled, and the class cannot be defined any more.

* `completer_can_define` — **what a completer finds after any script**, however that ends.
* `reentered_completer_cannot_define` — a completer that runs another completer of its symbol.
-/

namespace RegionTypes

open Run Tie

variable {b u : Session} {sym : SymbolId} {ty : TypeId}

/-- The lists and the supertype of a class that has no signature are unset as long as nothing but a
definition supplies them. -/
theorem Store.Frame.takenField?_eq_none {s t : Store} {ended : SymbolId → Prop} {info info' : ClassInfo}
    (h : s.Frame t ended) (hsym : s.IsCompleting sym) (hrunning : ¬ ended sym)
    (hty : s.Owns ty (some sym)) (hinfo : s.class? ty = some info) (hfree : info.takenField? = none)
    (hinfo' : t.class? ty = some info') (hundefined : ¬ t.IsDefined ty) :
    info'.takenField? = none := by
  obtain ⟨htypes, hregions, heffects, hsupertype, -⟩ := ClassInfo.takenField?_eq_none.1 hfree
  have hlist : ∀ {β : Type} (slot : Slot β), slot.Declared → slot.read info = none →
      slot.read info' = none := by
    intro β slot hslot hunset
    have hlasts := h.declared sym hsym hrunning slot hslot ty hty (by rw [list?, hinfo]; exact hunset)
    rw [list?, hinfo'] at hlasts
    exact hlasts.resolve_right hundefined
  have hsupertype' : info'.supertype = none := by
    obtain ⟨data, hdata, _⟩ := hty
    have hlasts := h.supertype ty (has_iff.2 ⟨data, hdata⟩) (by rw [hinfo]; exact hsupertype)
    rw [hinfo'] at hlasts
    exact hlasts.resolve_right hundefined
  have hinterfaces' : info'.interfaces = none := by
    rw [← Option.not_isSome_iff_eq_none]
    exact fun hset => hundefined ⟨info', hinfo', hset⟩
  exact ClassInfo.takenField?_eq_none.2 ⟨hlist .typeArgs .typeArgs htypes,
    hlist .regionArgs .regionArgs hregions, hlist .effectArgs .effectArgs heffects, hsupertype',
    hinterfaces'⟩

theorem defineClass_run {load : Loader} {depth : Nat} {sig : ClassSignature} {info : ClassInfo}
    (hinfo : u.store.class? ty = some info) (hfree : info.takenField? = none) :
    defineClass load depth ty sig u =
      .ok (.ok ()) { u with store := u.store.reviseType ty (·.mapClass (ClassInfo.define sig)) } := by
  obtain ⟨data, hdata, hkind⟩ := Store.class?_eq_some.1 hinfo
  rw [defineClass, bind_run (kindOf_run hdata), hkind]
  simp only [hfree]
  rfl

/-- **A completer can still define its class.**  Take any session in which a completer of the symbol is
running and any script that is carried out from there, however it ends.

* No list that is worked out from others was kept for any type.
* As long as no completer of the symbol has ended, a declared list of one of its class types that was
  unset is unset, unless the type has been given a signature.
* A class type of the symbol that had nothing set can be given a signature, unless it has been given one
  already. -/
theorem completer_can_define (hsym : b.store.IsCompleting sym) (hflight : 0 < b.store.inFlight)
    (depth : Nat) (propagate : Bool) (script : List Step) :
    let u := (runScript (perform depth) propagate script).after b
    (∀ {β : Type} (slot : Slot β), slot.Derived → ∀ ty,
        u.store.list? slot ty = b.store.list? slot ty) ∧
      ∃ new, u.trace = new ++ b.trace ∧
        ((∀ ok, .ended sym ok ∉ new) → ∀ ty, b.store.Owns ty (some sym) →
          (∀ {β : Type} (slot : Slot β), slot.Declared → b.store.list? slot ty = none →
            u.store.list? slot ty = none ∨ u.store.IsDefined ty) ∧
          ∀ info, b.store.class? ty = some info → info.takenField? = none →
            ¬ u.store.IsDefined ty → ∀ load depth sig, defineClass load depth ty sig u =
              .ok (.ok ())
                { u with store := u.store.reviseType ty (·.mapClass (ClassInfo.define sig)) }) := by
  intro u
  have hkeeps : b.frame.Keeps (runScript (perform depth) propagate script) :=
    runScript_keeps (fun step _ => perform_frame depth step.2 b) propagate
  obtain ⟨new, htrace, hframe⟩ := hkeeps.frame
  refine ⟨fun slot hslot ty => hframe.derived hflight slot hslot ty, new, htrace, ?_⟩
  intro hrunning ty hty
  have hnot : ¬ ∃ ok, .ended sym ok ∈ new := fun ⟨ok, hok⟩ => hrunning ok hok
  refine ⟨fun slot hslot hunset => hframe.declared sym hsym hnot slot hslot ty hty hunset, ?_⟩
  intro info hinfo hfree hundefined load depth sig
  obtain ⟨info', hinfo', -⟩ := hframe.precedes.exists_class? hinfo
  exact defineClass_run hinfo'
    (hframe.takenField?_eq_none hsym hnot hty hinfo hfree hinfo' hundefined)

/-- A completer that asks about its class, and starts the completer of another class, which asks about
it too. -/
theorem completer_can_define_after_questions :
    let s := Session.afterCommands
      [.declareClass "C" none .none none, .declareClass "D" none .none none,
        .setCompleter (.handle ⟨12⟩) [(none, .ask .allTypeParams (.handle ⟨12⟩))] false none]
    let b : Session := { s with store := s.store.startLoading ⟨11⟩ }
    let u := (runScript (perform 9) false
      [(none, .ask .allRegionParams (.handle ⟨12⟩)), (none, .completeSymbol (.handle ⟨12⟩))]).after b
    u.store.list? .allRegionParams ⟨12⟩ = none ∧ u.store.list? .regionArgs ⟨12⟩ = none ∧
      defineClass (completerLoader 9) 9 ⟨12⟩ ⟨[], [], [], none, []⟩ u =
        .ok (.ok ()) { u with
          store := u.store.reviseType ⟨12⟩ (·.mapClass (.define ⟨[], [], [], none, []⟩)) } := by
  intro s b u
  have hsym : b.store.IsCompleting ⟨11⟩ := ⟨_, rfl, rfl⟩
  obtain ⟨hderived, new, htrace, hdeclared⟩ := completer_can_define hsym (by decide +kernel) 9 false
    [(none, .ask .allRegionParams (.handle ⟨12⟩)), (none, .completeSymbol (.handle ⟨12⟩))]
  have hempty : b.trace = [] := rfl
  have hother : u.trace.all (fun
      | .ended sym _ => sym ≠ ⟨11⟩
      | _ => true) = true := by decide +kernel
  have hrunning : ∀ ok, .ended ⟨11⟩ ok ∉ new := by
    intro ok hmem
    rw [htrace, hempty, List.append_nil, List.all_eq_true] at hother
    exact of_decide_eq_true (hother _ hmem) rfl
  have hundefined : ¬ u.store.IsDefined ⟨12⟩ := by decide +kernel
  have hty : b.store.Owns ⟨12⟩ (some ⟨11⟩) := ⟨_, rfl, rfl⟩
  obtain ⟨hlists, hdefine⟩ := hdeclared hrunning ⟨12⟩ hty
  refine ⟨?_, ?_, hdefine _ rfl rfl hundefined _ _ _⟩
  · exact hderived .allRegionParams .allRegionParams ⟨12⟩
  · exact (hlists .regionArgs .regionArgs rfl).resolve_right hundefined

/-- **A completer that starts another completer of its symbol** finds that the class cannot be defined
any more, although nobody has defined it: the question that it asks in between settles a list. -/
theorem reentered_completer_cannot_define :
    let s := Session.afterCommands
      [.declareClass "C" none .none none,
        .setCompleter (.handle ⟨11⟩)
          [(none, .setCompleter (.handle ⟨11⟩) [] false none),
            (none, .completeSymbol (.handle ⟨11⟩)),
            (none, .ask .typeArguments (.handle ⟨12⟩)),
            (none, .defineClass (.handle ⟨12⟩) [] [] [] none [])] false none]
    let u := (perform 9 (.completeSymbol (.handle ⟨11⟩))).after s
    s.Reachable ∧ s.store.list? .typeArgs ⟨12⟩ = none ∧ u.store.list? .typeArgs ⟨12⟩ = some [] ∧
      ¬ u.store.IsDefined ⟨12⟩ ∧ ∃ failure, .stepped (.error failure) ∈ u.trace := by
  intro s u
  have hrefused : u.trace.all TraceEntry.succeeded = false := by decide +kernel
  refine ⟨Session.afterCommands_reachable _, rfl, by decide +kernel, by decide +kernel, ?_⟩
  obtain ⟨entry, hmem, hentry⟩ := List.all_eq_false.1 hrefused
  unfold TraceEntry.succeeded at hentry
  split at hentry
  · exact ⟨_, hmem⟩
  · exact absurd rfl hentry

end RegionTypes

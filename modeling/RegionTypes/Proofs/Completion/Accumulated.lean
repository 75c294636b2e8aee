import RegionTypes.Proofs.Completion.Derived

/-!
# Lists along the enclosing types

The lists that a class type keeps of the parameters of all types around it are worked out from its own
lists and from the type that encloses it.  Neither changes once it is known, so a list that was kept
between the steps of a script goes on to follow from them, also when classes are damaged later.  Region
arguments that were filled in are not among these lists: they are worked out from the canonical type of
a class, which damage replaces.

* `Store.Accumulated` — **every such list that is kept follows** from what the store holds.
* `Session.TopLevel.accumulated` — so it is between the steps of every script.
-/

namespace RegionTypes

open Run Tie

namespace Store

variable {s : Store}

/-- Every list along the enclosing types that is kept follows from what the store holds.  For these
lists it does not matter what the canonical types are. -/
structure Accumulated (s : Store) : Prop where
  idle : s.inFlight = 0 → s.Idle
  follows : ∀ {β : Type} (d : Derivation β) ty list, s.list? d.slot ty = some list → d.Accumulates →
    d.Follows (fun _ => none) s ty list

/-- Lists that are kept along the enclosing types have to follow. -/
def accumulatedPolicy : Policy where
  Holds := Accumulated
  Rests := Idle
  Tracks _ _ d _ := d.Accumulates
  canonical _ _ := none

instance : accumulatedPolicy.Lawful where
  change {s _ _} h hf hmoves := by
    refine ⟨((Balanced.refl s).permits hf).idle_of_rest h.idle, fun d ty list hlist hd => ?_⟩
    rw [hf.list?_derived d.slot_derived] at hlist
    exact hmoves.follows (h.follows d ty list hlist hd)
  keep h hrest hlist hmoves := by
    refine ⟨fun hrest => ⟨hrest, (h.idle hrest).completing⟩, ?_⟩
    exact forall_list?_fill (Q := fun e a list' => e.Accumulates → e.Follows (fun _ => none) _ a list')
      (fun hd => hmoves.follows (hlist (h.idle hrest) hd))
      fun e a list' hlist' hd => hmoves.follows (h.follows e a list' hlist' hd)
  enter {s} sym h :=
    ⟨fun hrest => absurd hrest (Nat.succ_ne_zero _), fun d ty list hlist hd =>
      (s.later_enterLoading sym).precedes.follows (h.follows d ty list hlist hd)⟩
  stop {_ s'} sym h h' _ hbalanced :=
    ⟨hbalanced.idle_of_rest h.idle, fun d ty list hlist hd =>
      (s'.later_stopLoading sym).precedes.follows (h'.follows d ty list hlist hd)⟩
  idle h := h
  before h _ hbalanced hrests := h.idle (hbalanced.inFlight.symm.trans hrests.inFlight)
  canonical _ h := h.elim
  lasts _ _ _ _ h := h.elim

theorem initial_list? {β : Type} (options : DisplayOptions) (slot : Slot β) (ty : TypeId) :
    (initial options).list? slot ty = none := by
  refine Option.eq_none_iff_forall_ne_some.2 fun list hlist => ?_
  obtain ⟨info, hinfo, -⟩ := Option.bind_eq_some_iff.1 hlist
  obtain ⟨data, hdata, hkind⟩ := class?_eq_some.1 hinfo
  have hnone : ∀ data ∈ initialTypes, data.kind.class? = none := by decide
  have hclass := hnone data (mem_initialTypes hdata)
  rw [hkind] at hclass
  cases hclass

theorem initial_accumulated (options : DisplayOptions) : (initial options).Accumulated where
  idle _ := initial_idle options
  follows d ty list hlist _ := by
    rw [initial_list?] at hlist
    cases hlist

end Store

/-- What a policy asks for holds between the steps of a script, if it holds of a new store. -/
theorem Session.TopLevel.observes {P : Policy} [P.Lawful] {s : Session}
    (hinitial : ∀ options, P.Holds (Store.initial options)) (h : s.TopLevel) : P.Holds s.store := by
  induction h with
  | initial options => exact hinitial options
  | @step s s' outcome depth step _ hrun ih =>
    have hstep := (makeStep_keeps (perform_observes (P := P) depth step.2)).inStep s s ⟨rfl, rfl, rfl, ih⟩
    unfold InStep at hstep
    rw [hrun] at hstep
    exact (hstep.resolve_left id).2.2.2.2
  | report _ ih => exact ih

/-- **Between the steps of a script** every list that is kept along the enclosing types follows. -/
theorem Session.TopLevel.accumulated {s : Session} (h : s.TopLevel) : s.store.Accumulated :=
  h.observes (P := Store.accumulatedPolicy) Store.initial_accumulated

end RegionTypes

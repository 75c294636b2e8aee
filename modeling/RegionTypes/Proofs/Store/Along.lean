import Mathlib.Order.Defs.Unbundled
import RegionTypes.Proofs.Store.Returns
import RegionTypes.Store.Program

/-!
# Where a run takes the store

A computation on a session ends with a store, whether it returns, fails or comes to a stop.  Here is
how to say that it takes the store along a relation, whatever the session is, and how to show it
along the text of the computation.

* `Run.after` — the session in which a computation ends.
* `Run.Along` — **a computation takes the store along a relation** that is reflexive and transitive.
  With equality as the relation, the computation leaves the store alone.
* `Run.Along.bind`, `Run.Along.mapM`, ... — sequencing and loops.  `Run.along_of_bind` is for a second
  part that relies on what the first part has found out.
* `Run.AlongState` — the same for mappings, which carry a state of their own.
* `Session.afterCommands` — the session in which a list of commands ends.
-/

namespace RegionTypes

namespace Run

variable {α β σ : Type} {R : Store → Store → Prop} {s s' : Session} {action : Run α} {a : α}
  {next : α → Run β}

/-- The session in which a computation ends. -/
def after (action : Run α) (s : Session) : Session :=
  match action s with
  | .ok _ s' => s'
  | .error _ s' => s'

theorem after_of_ok (h : action s = .ok a s') : action.after s = s' := by
  rw [after, h]

theorem after_of_error {stop : Stop} (h : action s = .error stop s') :
    action.after s = s' := by
  rw [after, h]

theorem bind_run_error {stop : Stop} (h : action s = .error stop s') :
    (action >>= next) s = .error stop s' := by
  show EStateM.bind action next s = .error stop s'
  rw [EStateM.bind, h]

/-- What comes next matters only where the first part returns. -/
theorem bind_run_congr {first second : Run α} {next' : α → Run β} (h : first s = second s)
    (hnext : ∀ a s', first s = .ok a s' → next a s' = next' a s') :
    (first >>= next) s = (second >>= next') s := by
  cases hrun : first s with
  | ok a s' => rw [bind_run hrun, bind_run (h.symm.trans hrun), hnext a s' hrun]
  | error => rw [bind_run_error hrun, bind_run_error (h.symm.trans hrun)]

theorem after_bind (h : action s = .ok a s') :
    (action >>= next).after s = (next a).after s' := by
  rw [after, after, bind_run h]

/-- From every session, the computation takes the store along the relation. -/
def Along (R : Store → Store → Prop) (action : Run α) : Prop :=
  ∀ s, R s.store (action.after s).store

theorem Along.of_ok (h : Along R action) (hrun : action s = .ok a s') :
    R s.store s'.store := by
  have hafter := h s
  rwa [after_of_ok hrun] at hafter

theorem along_modifyStore {f : Store → Store} (h : ∀ s, R s (f s)) : Along R (modifyStore f) :=
  fun s => h s.store

section Preorder

variable [IsPreorder Store R]

theorem Along.of_eq (h : Along Eq action) : Along R action := by
  intro s
  rw [← h s]
  exact refl_of R s.store

theorem along_pure (a : α) : Along R (pure a : Run α) := fun s => refl_of R s.store

theorem along_get : Along R (get : Run Session) := fun s => refl_of R s.store

theorem along_throw (stop : Stop) : Along R (throw stop : Run α) := fun s => refl_of R s.store

/-- **Sequencing**, from one session: the second part starts where the first one has returned. -/
theorem along_of_bind (h : R s.store (action.after s).store)
    (hnext : ∀ a s', action s = .ok a s' → R s'.store ((next a).after s').store) :
    R s.store ((action >>= next).after s).store := by
  cases hrun : action s with
  | ok a s' =>
    rw [after_of_ok hrun] at h
    rw [after_bind hrun]
    exact trans_of R h (hnext a s' hrun)
  | error =>
    rw [after_of_error hrun] at h
    rw [after_of_error (bind_run_error hrun)]
    exact h

theorem along_of_still (h : Along Eq action)
    (hnext : ∀ a s', action s = .ok a s' → s'.store = s.store → R s'.store ((next a).after s').store) :
    R s.store ((action >>= next).after s).store := by
  refine along_of_bind (h.of_eq s) fun a s' hrun => hnext a s' hrun ?_
  rw [h s, after_of_ok hrun]

/-- **Sequencing.** -/
theorem Along.bind (h : Along R action) (hnext : ∀ a, Along R (next a)) : Along R (action >>= next) :=
  fun s => along_of_bind (h s) fun a s' _ => hnext a s'

theorem Along.map {f : α → β} (h : Along R action) :
    Along R (do return f (← action)) :=
  h.bind fun a => along_pure (f a)

/-! ### Loops -/

theorem Along.mapM {f : α → Run β} (h : ∀ a, Along R (f a)) (l : List α) : Along R (l.mapM f) := by
  induction l with
  | nil => exact along_pure []
  | cons a l ih =>
    rw [List.mapM_cons]
    exact (h a).bind fun b => ih.bind fun bs => along_pure (b :: bs)

theorem Along.anyM {f : α → Run Bool} (h : ∀ a, Along R (f a)) (l : List α) :
    Along R (l.anyM f) := by
  induction l with
  | nil => exact along_pure false
  | cons a l ih =>
    refine (h a).bind fun b => ?_
    cases b with
    | true => exact along_pure true
    | false => exact ih

end Preorder

/-! ### Mappings -/

/-- From every session and every state of its own, the computation takes the store along the
relation. -/
def AlongState (R : Store → Store → Prop) (action : StateT σ Run α) : Prop :=
  ∀ u, Along R (action.run u)

end Run

/-- A new session that has carried out some commands. -/
def Session.afterCommands (commands : List Command) : Session :=
  commands.foldl (fun s command => (makeStep (perform 9) (none, command)).after s)
    (.initial {} .empty)

end RegionTypes

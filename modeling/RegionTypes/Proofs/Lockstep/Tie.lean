import RegionTypes.Proofs.Lockstep.Twin

/-!
# Two runs in step

A computation that is run from two sessions that are twins takes the same course in both, and so do two
computations that differ in the loader only.  What else the two sessions have in common is left open: a
**tie** says it, and the rules below show along the text of the computations that it is kept.  With the
same session and the same computation on both sides, a tie is about one run.

* `Tie` — what holds of two runs as long as they go on, and when both have come to a stop.
* `Tie.Lawful` — the tie is kept by the changes that operations make to both stores; `Tie.Named` — and
  along scripts; `Tie.Begins` — and where completers start.
* `Tie.Pairs` — **two computations keep the tie**: from tied sessions both have the same outcome, in
  tied sessions.  Excused are first runs that have left what the two have in common.  `Tie.Keeps` — the
  same computation twice.
* `Tie.Joins.bind`, `Tie.Pairs.mapM`, ... — sequencing and loops.
* `Tie.keeps_typeData`, `Tie.keeps_kindOf` — what follows on reading a type may use all but its derived
  lists.
* `Tie.owning` — the tie while a type has a given symbol.
* `Tie.KeepsState` — the same for mappings, which carry a state of their own.
-/

namespace RegionTypes

open Run

/-- The type has the symbol. -/
def Store.Owns (s : Store) (ty : TypeId) (symbol : Option SymbolId) : Prop :=
  ∃ data, s.type? ty = some data ∧ data.symbol = symbol

theorem Run.bind_congr_of_stop {α β : Type} {action : Run α} {next next' : α → Run β} {s : Session}
    (h : ∀ a s', action s ≠ .ok a s') : (action >>= next) s = (action >>= next') s :=
  bind_run_congr rfl fun a s' hrun => absurd hrun (h a s')

/-- How two runs of a computation go together. -/
structure Tie where
  /-- Where a run takes the store. -/
  Moves : Store → Store → Prop
  /-- The sessions of the two runs as long as both go on. -/
  Holds : Session → Session → Prop
  /-- The sessions in which both have come to the same stop. -/
  Ends : Session → Session → Prop
  /-- The first run is past the point up to which the two are compared. -/
  Void : Store → Prop
  /-- The first run may be nested too deeply where the second is not. -/
  Lax : Prop
  /-- Completers may be installed. -/
  Installs : Prop

namespace Tie

variable {α β σ : Type} {T : Tie} {s t : Session} {V V' : α → α → Prop} {W : β → β → Prop}
  {action action' first second : Run α} {next next' : α → Run β} {ty : TypeId} {k : TypeData → Run β}
  {data : TypeData}

/-- What a tie has to be closed under. -/
class Lawful (T : Tie) : Prop where
  preorder : IsPreorder Store T.Moves
  void : ∀ {s t}, T.Moves s t → T.Void s → T.Void t
  twin : ∀ {s t}, T.Holds s t → s.Twin t
  ends : ∀ {s t}, T.Holds s t → T.Ends s t
  log : ∀ {s t} (event : Log.Event), T.Holds s t →
    T.Holds { s with trace := .log event :: s.trace } { t with trace := .log event :: t.trace }
  /-- The same change to both stores. -/
  change : ∀ {s t f}, T.Holds s t → s.store.Permits T.Installs f → T.Moves s.store (f s.store) →
    T.Moves t.store (f t.store) →
      T.Holds { s with store := f s.store } { t with store := f t.store }
  /-- Types keep their symbols. -/
  owns : ∀ {s t u ty symbol}, T.Holds s t → T.Moves s.store u → s.store.Owns ty symbol →
    u.Owns ty symbol

/-- Scripts whose steps have outcomes that go together: names may be given, and the steps and the end
of a completer noted. -/
class Named (T : Tie) (V : Outcome → Outcome → Prop) : Prop extends T.Lawful where
  agrees : ∀ {a b}, V a b → a.Agrees b
  names : ∀ {s t} (names : Names), T.Holds s t → T.Holds { s with names } { t with names }
  stepped : ∀ {s t a b}, V a b → T.Holds s t →
    T.Holds { s with trace := .stepped a :: s.trace } { t with trace := .stepped b :: t.trace }
  ended : ∀ {s t} (sym : SymbolId) (ok : Bool), T.Holds s t →
    T.Holds { s with trace := .ended sym ok :: s.trace } { t with trace := .ended sym ok :: t.trace }

/-- The start of a completer may be noted too. -/
class Begins (T : Tie) (V : Outcome → Outcome → Prop) : Prop extends T.Named V where
  began : ∀ {s t} (sym : SymbolId), T.Holds s t →
    T.Holds { s with trace := .began sym :: s.trace } { t with trace := .began sym :: t.trace }

instance [T.Lawful] : IsPreorder Store T.Moves := Lawful.preorder

/-! ### Outcomes -/

/-- The outcome of the first run is not compared with anything. -/
def Excused (T : Tie) : EStateM.Result Stop Session α → Prop
  | .ok _ s => T.Void s.store
  | .error stop s => T.Void s.store ∨ T.Lax ∧ stop = .tooDeep

/-- Both runs return, with results that go together, or both come to the same stop. -/
def Agrees (T : Tie) (V : α → α → Prop) :
    EStateM.Result Stop Session α → EStateM.Result Stop Session α → Prop
  | .ok a s, .ok b t => V a b ∧ T.Holds s t
  | .error stop s, .error stop' t => stop' = stop ∧ T.Ends s t
  | _, _ => False

/-- Two computations, each from a session of its own, have outcomes that go together. -/
def InStep (T : Tie) (V : α → α → Prop) (first second : Run α) (s t : Session) : Prop :=
  T.Excused (first s) ∨ T.Agrees V (first s) (second t)

/-- The two computations keep the tie, up to a relation between the results. -/
structure Joins (T : Tie) (V : α → α → Prop) (first second : Run α) : Prop where
  along : Along T.Moves first
  alongSecond : Along T.Moves second
  inStep : ∀ s t, T.Holds s t → T.InStep V first second s t

/-- The two computations keep the tie, with the same result. -/
abbrev Pairs (T : Tie) (first second : Run α) : Prop := T.Joins Eq first second

/-- The computation keeps the tie, up to a relation between the results. -/
abbrev KeepsBy (T : Tie) (V : α → α → Prop) (action : Run α) : Prop := T.Joins V action action

/-- The computation keeps the tie, with the same result in both runs. -/
abbrev Keeps (T : Tie) (action : Run α) : Prop := T.KeepsBy Eq action

theorem keepsBy_of (halong : Along T.Moves action) (h : ∀ s t, T.Holds s t → T.InStep V action action s t) :
    T.KeepsBy V action :=
  ⟨halong, halong, h⟩

theorem Agrees.imp {T' : Tie} {r r' : EStateM.Result Stop Session α} (h : T.Agrees V r r')
    (hok : ∀ a b s t, r = .ok a s → V a b → T.Holds s t → V' a b ∧ T'.Holds s t)
    (hstop : ∀ s t, T.Ends s t → T'.Ends s t) : T'.Agrees V' r r' := by
  cases r with
  | ok a s =>
    cases r' with
    | ok b t => exact hok a b s t rfl h.1 h.2
    | error => exact h
  | error stop s =>
    cases r' with
    | ok => exact h
    | error stop' t => exact ⟨h.1, hstop s t h.2⟩

theorem InStep.imp (h : T.InStep V first second s t) (hV : ∀ a b, V a b → V' a b) :
    T.InStep V' first second s t :=
  Or.imp_right (fun hagrees =>
    hagrees.imp (fun a b _ _ _ hab hst => ⟨hV a b hab, hst⟩) fun _ _ hst => hst) h

theorem Joins.imp (h : T.Joins V first second) (hV : ∀ a b, V a b → V' a b) : T.Joins V' first second :=
  ⟨h.along, h.alongSecond, fun s t hst => (h.inStep s t hst).imp hV⟩

/-- Both runs return or both come to the same stop, where no run is excused. -/
theorem InStep.cases (h : T.InStep V first second s t) (hvoid : ∀ u, ¬ T.Void u) (hlax : ¬ T.Lax) :
    (∃ a b s' t', first s = .ok a s' ∧ second t = .ok b t' ∧ V a b ∧ T.Holds s' t') ∨
    ∃ stop s' t', first s = .error stop s' ∧ second t = .error stop t' ∧ T.Ends s' t' := by
  unfold InStep at h
  cases hrun : first s with
  | ok a s' =>
    rw [hrun] at h
    have hagrees := h.resolve_left (hvoid _)
    cases hrun' : second t with
    | ok b t' =>
      rw [hrun'] at hagrees
      exact .inl ⟨a, b, s', t', rfl, rfl, hagrees⟩
    | error =>
      rw [hrun'] at hagrees
      exact hagrees.elim
  | error stop s' =>
    rw [hrun] at h
    have hagrees := h.resolve_left (Or.rec (hvoid _) fun h => hlax h.1)
    cases hrun' : second t with
    | ok =>
      rw [hrun'] at hagrees
      exact hagrees.elim
    | error stop' t' =>
      rw [hrun'] at hagrees
      obtain ⟨rfl, hends⟩ := hagrees
      exact .inr ⟨stop', s', t', rfl, rfl, hends⟩

theorem inStep_bind_of_stop {stop : Stop} {s' : Session} (h : T.InStep V action action' s t)
    (hrun : action s = .error stop s') : T.InStep W (action >>= next) (action' >>= next') s t := by
  unfold InStep at h ⊢
  rw [bind_run_error hrun]
  rw [hrun] at h
  refine h.imp_right fun hagrees => ?_
  cases hrun' : action' t with
  | ok =>
    rw [hrun'] at hagrees
    exact hagrees.elim
  | error =>
    rw [hrun'] at hagrees
    rw [bind_run_error hrun']
    exact hagrees

/-- Sequencing where the first run never leaves what the two have in common.  What follows may go
together in another way. -/
theorem inStep_bind_into {T' : Tie} (hvoid : ∀ u, ¬ T.Void u) (hlax : T.Lax → T'.Lax)
    (hends : ∀ s t, T.Ends s t → T'.Ends s t) (h : T.InStep V action action' s t)
    (hstep : ∀ a b s' t', V a b → action s = .ok a s' → T.Holds s' t' →
      T'.InStep W (next a) (next' b) s' t') :
    T'.InStep W (action >>= next) (action' >>= next') s t := by
  unfold InStep at h ⊢
  cases hrun : action s with
  | error stop s' =>
    rw [bind_run_error hrun]
    rw [hrun] at h
    refine Or.imp (Or.imp (fun h => (hvoid _ h).elim) (And.imp_left hlax)) (fun hagrees => ?_) h
    cases hrun' : action' t with
    | ok =>
      rw [hrun'] at hagrees
      exact hagrees.elim
    | error stop' t' =>
      rw [hrun'] at hagrees
      rw [bind_run_error hrun']
      exact ⟨hagrees.1, hends s' t' hagrees.2⟩
  | ok a s' =>
    rw [bind_run hrun]
    rw [hrun] at h
    have hagrees := h.resolve_left (hvoid _)
    cases hrun' : action' t with
    | ok b t' =>
      rw [hrun'] at hagrees
      rw [bind_run hrun']
      exact hstep a b s' t' hagrees.1 hrun hagrees.2
    | error =>
      rw [hrun'] at hagrees
      exact hagrees.elim

theorem inStep_bind_of_not_void (hvoid : ∀ u, ¬ T.Void u) (h : T.InStep V action action' s t)
    (hstep : ∀ a b s' t', V a b → action s = .ok a s' → T.Holds s' t' →
      T.InStep W (next a) (next' b) s' t') : T.InStep W (action >>= next) (action' >>= next') s t :=
  inStep_bind_into hvoid id (fun _ _ hends => hends) h hstep

theorem inStep_pure {a b : α} (hst : T.Holds s t) (hV : V a b) :
    T.InStep V (pure a) (pure b) s t := .inr ⟨hV, hst⟩

theorem inStep_congr {first second : Run α} (h : action s = first s) (h' : action' t = second t)
    (hstep : T.InStep V first second s t) : T.InStep V action action' s t := by
  unfold InStep
  rwa [h, h']

theorem kindOf_bind {k : Kind → Run β} :
    kindOf ty >>= k = typeData ty >>= fun data => k data.kind := by
  rw [kindOf, bind_assoc]
  rfl

/-- What comes of the data of a type does not depend on derived lists. -/
abbrev IgnoresLists {γ : Type} (k : TypeData → γ) : Prop :=
  ∀ symbol erased literal info, k ⟨symbol, erased, literal, .classType info⟩ =
    k ⟨symbol, erased, literal, .classType info.plain⟩

/-- What ignores derived lists does not tell the types of twins apart. -/
theorem same_of_plain (hplain : IgnoresLists k) (h : s.Twin t) {data' : TypeData}
    (hdata : s.store.type? ty = some data) (hdata' : t.store.type? ty = some data') :
    k data' = k data := by
  rcases h.store.type?_cases hdata hdata' with
    rfl | ⟨symbol, erased, literal, info, info', rfl, rfl, hinfo⟩
  · rfl
  · rw [hplain, hplain _ _ _ info, hinfo]

theorem typeData_bind_of_twin (hplain : IgnoresLists k) (h : s.Twin t)
    (hdata : s.store.type? ty = some data) : (typeData ty >>= k) t = k data t := by
  obtain ⟨data', hdata', _⟩ := h.store.exists_type? hdata
  rw [bind_run (typeData_run hdata'), same_of_plain hplain h hdata hdata']

/-- What two actions do in twins of a session: they make **one change** to both stores, or what they
do keeps the tie. -/
inductive Local (T : Tie) (s : Session) (action action' : Run α) : Prop
  | change (f : Store → Store) (a : α) (permits : ∀ t, T.Holds s t → s.store.Permits T.Installs f)
      (moves : T.Moves s.store (f s.store))
      (run : ∀ t, s.Twin t → action t = .ok a { t with store := f t.store } ∧
        action' t = .ok a { t with store := f t.store })
  | other (other other' : Run α) (pairs : T.Pairs other other')
      (run : ∀ t, s.Twin t → action t = other t ∧ action' t = other' t)

theorem Local.congr (hsame : ∀ t, s.Twin t → first t = action t ∧ second t = action' t)
    (h : T.Local s action action') : T.Local s first second := by
  have htrans {r r' : Run α} (hrun : ∀ t, s.Twin t → action t = r t ∧ action' t = r' t) (t : Session)
      (hst : s.Twin t) : first t = r t ∧ second t = r' t :=
    ⟨(hsame t hst).1.trans (hrun t hst).1, (hsame t hst).2.trans (hrun t hst).2⟩
  rcases h with ⟨f, a, hf, hmoves, hrun⟩ | ⟨other, other', hother, hrun⟩
  · exact .change f a hf hmoves (htrans hrun)
  · exact .other other other' hother (htrans hrun)

theorem Joins.here (h : T.Pairs action action') : T.Local s action action' :=
  .other _ _ h fun _ _ => ⟨rfl, rfl⟩

theorem local_of_stop {read : Run β} {k k' : β → Run α}
    (hkeeps : T.Keeps (do let _ ← read; tooDeep : Run α))
    (hstop : ∀ t, s.Twin t → ∀ b t', read t ≠ .ok b t') : T.Local s (read >>= k) (read >>= k') :=
  .other _ _ hkeeps fun t hst =>
    ⟨bind_congr_of_stop (hstop t hst), bind_congr_of_stop (hstop t hst)⟩

section Lawful

variable [T.Lawful] {k' : TypeData → Run β}

/-- A first run that has left what the two have in common stays away from it. -/
theorem excused_of_void (h : T.Moves s.store (action.after s).store) (hs : T.Void s.store) :
    T.Excused (action s) := by
  have hvoid := Lawful.void h hs
  unfold Run.after at hvoid
  cases hrun : action s with
  | ok =>
    rw [hrun] at hvoid
    exact hvoid
  | error =>
    rw [hrun] at hvoid
    exact .inl hvoid

/-- **Sequencing** from tied sessions: the second part starts where the first one has returned in both
runs. -/
theorem inStep_bind (h : T.InStep V action action' s t)
    (hnext : ∀ a s', action s = .ok a s' → T.Moves s'.store ((next a).after s').store)
    (hstep : ∀ a b s' t', V a b → action s = .ok a s' → T.Holds s' t' →
      T.InStep W (next a) (next' b) s' t') :
    T.InStep W (action >>= next) (action' >>= next') s t := by
  cases hrun : action s with
  | ok a s' =>
    unfold InStep at h ⊢
    rw [bind_run hrun]
    rw [hrun] at h
    rcases h with hvoid | hagrees
    · exact .inl (excused_of_void (hnext a s' hrun) hvoid)
    · cases hrun' : action' t with
      | ok b t' =>
        rw [hrun'] at hagrees
        rw [bind_run hrun']
        exact hstep a b s' t' hagrees.1 hrun hagrees.2
      | error =>
        rw [hrun'] at hagrees
        exact hagrees.elim
  | error => exact inStep_bind_of_stop h hrun

/-- Sequencing in the first run only, where the second has the result of the first part already. -/
theorem inStep_bind_pure {second : Run β} {a : α} (h : T.InStep Eq action (pure a) s t)
    (hnext : ∀ a, Along T.Moves (next a)) (hstep : ∀ s', T.Holds s' t → T.InStep W (next a) second s' t) :
    T.InStep W (action >>= next) second s t := by
  unfold InStep at h ⊢
  cases hrun : action s with
  | ok a' s' =>
    rw [bind_run hrun]
    rw [hrun] at h
    rcases h with hvoid | ⟨rfl, hst⟩
    · exact .inl (excused_of_void (hnext a' s') hvoid)
    · exact hstep s' hst
  | error =>
    rw [bind_run_error hrun]
    rw [hrun] at h
    exact .inl (h.resolve_right id)

theorem keeps_pure (a : α) : T.Keeps (pure a : Run α) :=
  keepsBy_of (along_pure a) fun _ _ hst => inStep_pure hst rfl

theorem keeps_throw (stop : Stop) : T.Keeps (throw stop : Run α) :=
  keepsBy_of (along_throw stop) fun _ _ hst => .inr ⟨rfl, Lawful.ends hst⟩

theorem keeps_tooDeep : T.Keeps (tooDeep : Run α) := keeps_throw .tooDeep

/-- **Sequencing.** -/
theorem Joins.bind (h : T.Pairs action action') (hnext : ∀ a, T.Joins W (next a) (next' a)) :
    T.Joins W (action >>= next) (action' >>= next') where
  along := h.along.bind fun a => (hnext a).along
  alongSecond := h.alongSecond.bind fun a => (hnext a).alongSecond
  inStep s t hst := inStep_bind (h.inStep s t hst) (fun a s' _ => (hnext a).along s') <| by
    rintro a _ s' t' rfl _ hst'
    exact (hnext a).inStep s' t' hst'

/-- Sequencing after results that only go together. -/
theorem Joins.bindBy (h : T.Joins V action action')
    (halong : ∀ a, Along T.Moves (next a) ∧ Along T.Moves (next' a))
    (hnext : ∀ a b s t, V a b → T.Holds s t → T.InStep W (next a) (next' b) s t) :
    T.Joins W (action >>= next) (action' >>= next') where
  along := h.along.bind fun a => (halong a).1
  alongSecond := h.alongSecond.bind fun a => (halong a).2
  inStep s t hst := inStep_bind (h.inStep s t hst) (fun a s' _ => (halong a).1 s')
    fun a b s' t' hab _ hst' => hnext a b s' t' hab hst'

theorem Joins.map {f : α → β} (h : T.Pairs action action') :
    T.Pairs (do return f (← action)) (do return f (← action')) :=
  h.bind fun a => keeps_pure (f a)

/-! ### Loops -/

theorem Pairs.mapM {f f' : α → Run β} (h : ∀ a, T.Pairs (f a) (f' a)) (l : List α) :
    T.Pairs (l.mapM f) (l.mapM f') := by
  induction l with
  | nil => exact keeps_pure []
  | cons a l ih =>
    rw [List.mapM_cons, List.mapM_cons]
    exact (h a).bind fun b => ih.bind fun bs => keeps_pure (b :: bs)

theorem Pairs.anyM {f f' : α → Run Bool} (h : ∀ a, T.Pairs (f a) (f' a)) (l : List α) :
    T.Pairs (l.anyM f) (l.anyM f') := by
  induction l with
  | nil => exact keeps_pure false
  | cons a l ih =>
    refine (h a).bind fun b => ?_
    cases b with
    | true => exact keeps_pure true
    | false => exact ih

theorem Pairs.foldlM {f f' : β → α → Run β} (h : ∀ b a, T.Pairs (f b a) (f' b a)) (l : List α) :
    ∀ b, T.Pairs (l.foldlM f b) (l.foldlM f' b) := by
  induction l with
  | nil => exact fun b => keeps_pure b
  | cons a l ih =>
    intro b
    rw [List.foldlM_cons, List.foldlM_cons]
    exact (h b a).bind ih

theorem Keeps.filterM {p : α → Run Bool} (h : ∀ a, T.Keeps (p a)) (l : List α) :
    T.Keeps (l.filterM p) := by
  have haux : ∀ l acc : List α, T.Keeps (l.filterAuxM p acc) := by
    intro l
    induction l with
    | nil => exact fun acc => keeps_pure acc
    | cons a l ih =>
      intro acc
      rw [List.filterAuxM]
      exact (h a).bind fun b => ih _
  exact (haux l []).bind fun kept => keeps_pure kept.reverse

/-! ### Sessions -/

theorem keeps_get {k k' : Session → Run β} (hsame : ∀ s t : Session, s.Twin t → k' t = k' s)
    (hk : ∀ s, T.Joins W (k s) (k' s)) : T.Joins W (get >>= k) (get >>= k') where
  along := along_get.bind fun s => (hk s).along
  alongSecond := along_get.bind fun s => (hk s).alongSecond
  inStep s t hst := by
    show T.Excused (k s s) ∨ T.Agrees W (k s s) (k' t t)
    rw [hsame s t (Lawful.twin hst)]
    exact (hk s).inStep s t hst

theorem noteLog_keeps (event : Log.Event) : T.Keeps (note (.log event)) :=
  keepsBy_of (note_still _).of_eq fun _ _ hst => .inr ⟨rfl, Lawful.log event hst⟩

theorem log_keeps (level : Log.Level) (target : String) (fields : List (String × String)) :
    T.Keeps (log level target fields) := by
  refine keeps_get (fun s t h => by simp only [h.audience]) fun s => ?_
  split
  · exact noteLog_keeps _
  · exact keeps_pure ()

/-- Ending the run does what working out its detail does. -/
theorem Joins.violation {detail detail' : Run String} (h : T.Pairs detail detail') :
    T.Pairs (violation detail : Run α) (violation detail') := by
  have hrest : T.Pairs (do
      let text ← detail
      throw (.violation text) : Run α) (do
      let text ← detail'
      throw (.violation text)) := h.bind fun text => keeps_throw _
  refine keeps_get (fun s t hst => by simp only [hst.audience]) fun s => ?_
  split
  · refine h.bind fun text => ?_
    exact (noteLog_keeps _).bind fun _ => hrest
  · exact hrest

theorem pairs_of_local (h : ∀ s, T.Local s action action') : T.Pairs action action' := by
  have halong : Along T.Moves action ∧ Along T.Moves action' := by
    refine forall_and.mp fun s => ?_
    rcases h s with ⟨f, a, _, hmoves, hrun⟩ | ⟨other, other', hother, hrun⟩
    · rw [after_of_ok (hrun s (.refl s)).1, after_of_ok (hrun s (.refl s)).2]
      exact ⟨hmoves, hmoves⟩
    · have hsame : action.after s = other.after s ∧ action'.after s = other'.after s := by
        rw [after, after, (hrun s (.refl s)).1, after, after, (hrun s (.refl s)).2]
        exact ⟨rfl, rfl⟩
      rw [hsame.1, hsame.2]
      exact ⟨hother.along s, hother.alongSecond s⟩
  refine ⟨halong.1, halong.2, fun s t hst => ?_⟩
  have hmoves' := halong.2 t
  unfold InStep
  rcases h s with ⟨f, a, hf, hmoves, hrun⟩ | ⟨other, other', hother, hrun⟩
  · have ht := (hrun t (Lawful.twin hst)).2
    rw [after_of_ok ht] at hmoves'
    rw [(hrun s (.refl s)).1, ht]
    exact .inr ⟨rfl, Lawful.change hst (hf t hst) hmoves hmoves'⟩
  · rw [(hrun s (.refl s)).1, (hrun t (Lawful.twin hst)).2]
    exact hother.inStep s t hst

theorem keeps_modifyStore {f : Store → Store} (hf : ∀ s : Store, s.Permits T.Installs f)
    (hmoves : ∀ s, T.Moves s (f s)) : T.Keeps (modifyStore f) :=
  pairs_of_local fun s => .change f () (fun _ _ => hf s.store) (hmoves s.store) fun _ _ => ⟨rfl, rfl⟩

theorem pushType_keeps (hplain : data.plain = data) (hmoves : ∀ s, T.Moves s (s.pushType data)) :
    T.Keeps (pushType data) := by
  refine pairs_of_local fun s => .change _ s.store.nextType (fun _ _ => .allocate data hplain)
    (hmoves s.store) fun t h => and_self_iff.2 ?_
  show EStateM.Result.ok t.store.nextType _ = _
  rw [h.store.nextType]

theorem pushSymbol_keeps (name : String) (owner : Option SymbolId) (kind : SymbolKind) (flags : Flags)
    (hmoves : ∀ s : Store, T.Moves s (s.pushSymbol { name, owner, kind, flags })) :
    T.Keeps (pushSymbol { name, owner, kind, flags }) := by
  refine pairs_of_local fun s => .change _ s.store.nextSymbol
    (fun _ _ => .declare name owner kind flags) (hmoves s.store) fun t h => and_self_iff.2 ?_
  show EStateM.Result.ok t.store.nextSymbol _ = _
  rw [h.store.nextSymbol]

/-! ### Types and symbols -/

theorem symbolData_keeps (sym : SymbolId) : T.Keeps (symbolData sym) := by
  refine keeps_get (fun s t h => by simp only [h.store.symbol? sym]) fun s => ?_
  split
  · exact keeps_pure _
  · exact (keeps_pure _).violation

theorem inStep_typeData_of_none (hst : T.Holds s t) (hnone : s.store.type? ty = none) :
    T.InStep W (typeData ty >>= k) (typeData ty >>= k') s t := by
  have hread : ∀ r : Session, r.store.type? ty = none → typeData ty r =
      violation (pure (ty.text ++ " does not belong to this store")) r := by
    intro r hr
    rw [typeData, bind_run (get_run r), hr]
  have hnone' := (Lawful.twin hst).store.type?_eq_none hnone
  have hstops : T.InStep Eq (typeData ty) (typeData ty) s t := by
    unfold InStep
    rw [hread s hnone, hread t hnone']
    exact (keeps_pure _).violation.inStep s t hst
  cases hrun : typeData ty s with
  | ok => exact absurd ((hread s hnone).symm.trans hrun) violation_ne_ok
  | error => exact inStep_bind_of_stop hstops hrun

/-- **Reading a type**, from tied sessions in which what follows is the same. -/
theorem inStep_typeData (hst : T.Holds s t)
    (hsame : ∀ data data', s.store.type? ty = some data → t.store.type? ty = some data' →
      k' data' = k' data)
    (hk : ∀ data, s.store.type? ty = some data → T.InStep W (k data) (k' data) s t) :
    T.InStep W (typeData ty >>= k) (typeData ty >>= k') s t := by
  cases hdata : s.store.type? ty with
  | none => exact inStep_typeData_of_none hst hdata
  | some data =>
    obtain ⟨data', hdata', _⟩ := (Lawful.twin hst).store.exists_type? hdata
    have hstep := hk data hdata
    unfold InStep at hstep ⊢
    rw [bind_run (typeData_run hdata), bind_run (typeData_run hdata'), hsame data data' hdata hdata']
    exact hstep

/-- What follows on reading a type may use all but derived lists. -/
theorem keeps_typeData (hplain : IgnoresLists k') (hk : ∀ data, T.Joins W (k data) (k' data)) :
    T.Joins W (typeData ty >>= k) (typeData ty >>= k') where
  along := (typeData_still ty).of_eq.bind fun data => (hk data).along
  alongSecond := (typeData_still ty).of_eq.bind fun data => (hk data).alongSecond
  inStep s t hst := inStep_typeData hst (fun _ _ => same_of_plain hplain (Lawful.twin hst))
    fun data _ => (hk data).inStep s t hst

theorem keeps_kindOf {k k' : Kind → Run β}
    (hplain : ∀ info, k' (.classType info) = k' (.classType info.plain))
    (hk : ∀ kind, T.Joins W (k kind) (k' kind)) :
    T.Joins W (kindOf ty >>= k) (kindOf ty >>= k') := by
  rw [kindOf_bind, kindOf_bind]
  exact keeps_typeData (fun _ _ _ info => hplain info) fun data => hk data.kind

/-- **A change that depends on a type**, or what keeps the tie. -/
theorem local_typeData {k k' : TypeData → Run α} (hplain : IgnoresLists k) (hplain' : IgnoresLists k')
    (hk : ∀ data, s.store.type? ty = some data → T.Local s (k data) (k' data)) :
    T.Local s (typeData ty >>= k) (typeData ty >>= k') := by
  cases hdata : s.store.type? ty with
  | none =>
    refine local_of_stop (keeps_typeData (fun _ _ _ _ => rfl) fun _ => keeps_tooDeep)
      fun t hst data s' hrun => ?_
    have hfound := (eq_of_typeData hrun).2
    rw [hst.store.type?_eq_none hdata] at hfound
    cases hfound
  | some data =>
    exact .congr (fun t hst => ⟨typeData_bind_of_twin hplain hst hdata,
      typeData_bind_of_twin hplain' hst hdata⟩) (hk data hdata)

theorem local_symbolData {sym : SymbolId} {k k' : Symbol → Run α}
    (hk : ∀ y, s.store.symbol? sym = some y → T.Local s (k y) (k' y)) :
    T.Local s (symbolData sym >>= k) (symbolData sym >>= k') := by
  cases hy : s.store.symbol? sym with
  | none =>
    refine local_of_stop ((symbolData_keeps sym).bind fun _ => keeps_tooDeep)
      fun t hst y s' hrun => ?_
    rw [← hst.store.symbol? sym, (eq_of_symbolData hrun).2] at hy
    cases hy
  | some y =>
    have hread := fun t (hst : s.Twin t) => symbolData_run ((hst.store.symbol? sym).trans hy)
    exact .congr (fun t hst => ⟨bind_run (hread t hst), bind_run (hread t hst)⟩) (hk y hy)

theorem keeps_kindOf_change {k k' : Kind → Run α}
    (hplain : ∀ info, k (.classType info) = k (.classType info.plain))
    (hplain' : ∀ info, k' (.classType info) = k' (.classType info.plain))
    (hk : ∀ data (s : Session), s.store.type? ty = some data →
      T.Local s (k data.kind) (k' data.kind)) : T.Pairs (kindOf ty >>= k) (kindOf ty >>= k') := by
  rw [kindOf_bind, kindOf_bind]
  exact pairs_of_local fun s => local_typeData (fun _ _ _ info => hplain info)
    (fun _ _ _ info => hplain' info) fun data => hk data s

/-- A change to a symbol that keeps its type and whether it is being completed. -/
theorem updateSymbol_keeps {sym : SymbolId} {f : Symbol → Symbol}
    (hf : ∀ y, (f y).type = y.type ∧ (f y).completing = y.completing ∧
      ((f y).completer.isSome → y.completer.isSome ∨ T.Installs))
    (hmoves : ∀ s : Store, T.Moves s (s.updateSymbol sym f)) : T.Keeps (updateSymbol sym f) :=
  (symbolData_keeps sym).bind fun _ => keeps_modifyStore (fun _ => .symbol sym f hf) hmoves

theorem symbolType_keeps (sym : SymbolId) : T.Keeps (symbolType sym) := (symbolData_keeps sym).map

theorem canonicalType_keeps (symbol : Option SymbolId) : T.Keeps (canonicalType symbol) := by
  cases symbol with
  | none => exact keeps_pure none
  | some sym => exact symbolType_keeps sym

theorem storeOptions_keeps : T.Keeps storeOptions :=
  keeps_get (fun s t h => by simp only [h.store.options]) fun s => keeps_pure _

end Lawful

/-! ### While a type has its symbol -/

/-- The tie while a type has a symbol. -/
def owning (T : Tie) (ty : TypeId) (symbol : Option SymbolId) : Tie :=
  { T with Holds := fun s t => T.Holds s t ∧ s.store.Owns ty symbol }

theorem inStep_of_owning {symbol : Option SymbolId} (h : (T.owning ty symbol).Pairs action action')
    (hst : T.Holds s t) (howns : s.store.Owns ty symbol) : T.InStep Eq action action' s t :=
  Or.imp_right (fun hagrees => hagrees.imp (fun _ _ _ _ _ hab hst' => ⟨hab, hst'.1⟩)
    fun _ _ hends => hends) (h.inStep s t ⟨hst, howns⟩)

section Owning

variable {ty : TypeId} {symbol : Option SymbolId} [T.Lawful]

instance : (T.owning ty symbol).Lawful where
  preorder := inferInstanceAs (IsPreorder Store T.Moves)
  void := Lawful.void (T := T)
  twin h := Lawful.twin h.1
  ends h := Lawful.ends (T := T) h.1
  log event h := ⟨Lawful.log event h.1, h.2⟩
  change h hf hs ht := ⟨Lawful.change h.1 hf hs ht, Lawful.owns h.1 hs h.2⟩
  owns h := Lawful.owns (T := T) h.1

/-- What keeps the tie keeps it while a type has its symbol, since types keep their symbols. -/
theorem Joins.owning (h : T.Pairs action action') : (T.owning ty symbol).Pairs action action' where
  along := h.along
  alongSecond := h.alongSecond
  inStep s t hst := by
    refine Or.imp_right (fun hagrees => ?_) (h.inStep s t hst.1)
    refine hagrees.imp (fun a b s' t' hrun hab hst' => ⟨hab, hst', ?_⟩) fun _ _ hends => hends
    exact Lawful.owns hst.1 (h.along.of_ok hrun) hst.2

/-- Reading a type, after which it is known which symbol the type has. -/
theorem keeps_of_owning {k k' : TypeData → Run α}
    (hsame : ∀ s t data data', T.Holds s t → s.store.type? ty = some data →
      t.store.type? ty = some data' → k' data' = k' data)
    (hk : ∀ data, (T.owning ty data.symbol).Pairs (k data) (k' data)) :
    T.Pairs (typeData ty >>= k) (typeData ty >>= k') where
  along := (typeData_still ty).of_eq.bind fun data => (hk data).along
  alongSecond := (typeData_still ty).of_eq.bind fun data => (hk data).alongSecond
  inStep s t hst := inStep_typeData hst (fun data data' => hsame s t data data' hst)
    fun data hdata => inStep_of_owning (hk data) hst ⟨data, hdata, rfl⟩

theorem keeps_typeData_owning {k k' : TypeData → Run α} (hplain : IgnoresLists k')
    (hk : ∀ data, (T.owning ty data.symbol).Pairs (k data) (k' data)) :
    T.Pairs (typeData ty >>= k) (typeData ty >>= k') :=
  keeps_of_owning (fun _ _ _ _ hst => same_of_plain hplain (Lawful.twin hst)) hk

end Owning

/-! ### Mappings -/

/-- From every state of their own, the two computations keep the tie. -/
def PairsState (T : Tie) (action action' : StateT σ Run α) : Prop :=
  ∀ u, T.Pairs (action.run u) (action'.run u)

/-- From every state of its own, the computation keeps the tie. -/
abbrev KeepsState (T : Tie) (action : StateT σ Run α) : Prop := T.PairsState action action

section Lawful

variable [T.Lawful]

theorem PairsState.run' {action action' : StateT σ Run α} (h : T.PairsState action action') (u : σ) :
    T.Pairs (action.run' u) (action'.run' u) :=
  (h u).map

theorem keepsState_pure (a : α) : T.KeepsState (pure a : StateT σ Run α) :=
  fun u => keeps_pure (a, u)

theorem PairsState.bind {action action' : StateT σ Run α} {next next' : α → StateT σ Run β}
    (h : T.PairsState action action') (hnext : ∀ a, T.PairsState (next a) (next' a)) :
    T.PairsState (action >>= next) (action' >>= next') :=
  fun u => (h u).bind fun r => hnext r.1 r.2

/-- A computation on the session leaves the mapping's own state alone. -/
theorem Joins.lift (h : T.Pairs action action') :
    T.PairsState (liftM action : StateT σ Run α) (liftM action') :=
  fun u => h.bind fun a => keeps_pure (a, u)

theorem pairsState_typeData {k k' : TypeData → StateT σ Run α} (hplain : IgnoresLists k')
    (hk : ∀ data, T.PairsState (k data) (k' data)) :
    T.PairsState (do k (← (typeData ty : Run TypeData))) (do k' (← (typeData ty : Run TypeData))) := by
  intro u
  have hrun : ∀ k : TypeData → StateT σ Run α,
      (do k (← (typeData ty : Run TypeData)) : StateT σ Run α).run u =
        typeData ty >>= fun data => (k data).run u := by
    simp
  rw [hrun, hrun]
  refine keeps_typeData (fun symbol erased literal info => ?_) fun data => hk data u
  rw [hplain]

end Lawful

end Tie

end RegionTypes

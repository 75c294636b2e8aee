import RegionTypes.Store.Mapping

/-!
# Runs that return

A computation on a session may come to a stop.  `Returns` says that it does not: it returns a value
in a session, and the two are as described.  The rules below take a computation apart along its
`bind`s, so that the proofs about a question or an operation follow its text.

* `Run.Returns` — the computation returns, and its result satisfies a postcondition.
* `Run.Returns.bind` — **sequencing**: the postcondition of the first part is all that the second
  part may rely on.  `Run.Returns.step` is the case of a first part whose outcome is known.
* `Run.typeData_run`, `Run.symbolData_run`, ... — what each primitive of `Run` does.
* `Run.log_returns` — the log only adds to the trace.
* `ReturnsFrom`, `ReturnsFrom.bind` — the same for mappings, which carry a state of their own.
-/

namespace RegionTypes

/-- Whether an entry of the trace is not about a failed step. -/
def TraceEntry.succeeded : TraceEntry → Bool
  | stepped (.error _) => false
  | _ => true

namespace Run

variable {α β : Type} {s s' : Session} {p : α → Session → Prop} {next : α → Run β}

/-- The computation returns a value in a session such that the two satisfy `post`. -/
def Returns (action : Run α) (s : Session) (post : α → Session → Prop) : Prop :=
  ∃ a s', action s = .ok a s' ∧ post a s'

theorem Returns.imp {action : Run α} {q : α → Session → Prop} (h : action.Returns s p)
    (hpq : ∀ a s', p a s' → q a s') : action.Returns s q := by
  obtain ⟨a, s', hrun, hp⟩ := h
  exact ⟨a, s', hrun, hpq a s' hp⟩

/-- A computation returns one result only, which is as described by each description. -/
theorem Returns.and {action : Run α} {q : α → Session → Prop} (h : action.Returns s p)
    (h' : action.Returns s q) : action.Returns s fun a s' => p a s' ∧ q a s' := by
  obtain ⟨a, s', hrun, hp⟩ := h
  obtain ⟨a', s'', hrun', hq⟩ := h'
  obtain ⟨rfl, rfl⟩ := EStateM.Result.ok.inj (hrun.symm.trans hrun')
  exact ⟨a, s', hrun, hp, hq⟩

theorem Returns.step {action : Run α} {a : α} {q : β → Session → Prop} (h : action s = .ok a s')
    (hnext : (next a).Returns s' q) : (action >>= next).Returns s q := by
  obtain ⟨b, s'', hrun, hq⟩ := hnext
  refine ⟨b, s'', ?_, hq⟩
  show EStateM.bind action next s = .ok b s''
  rw [EStateM.bind, h]
  exact hrun

/-- **Sequencing.** -/
theorem Returns.bind {action : Run α} {q : β → Session → Prop} (h : action.Returns s p)
    (hnext : ∀ a s', p a s' → (next a).Returns s' q) : (action >>= next).Returns s q := by
  obtain ⟨a, s', hrun, hp⟩ := h
  exact .step hrun (hnext a s' hp)

theorem returns_pure {a : α} {q : α → Session → Prop} (h : q a s) :
    Returns (pure a : Run α) s q := ⟨a, s, rfl, h⟩

/-! ### The primitives of a session -/

theorem get_run (s : Session) : (get : Run Session) s = .ok s s := rfl

theorem bind_run {action : Run α} {a : α} (h : action s = .ok a s') :
    (action >>= next) s = next a s' := by
  show EStateM.bind action next s = next a s'
  rw [EStateM.bind, h]

theorem typeData_run {ty : TypeId} {data : TypeData} (h : s.store.type? ty = some data) :
    typeData ty s = .ok data s := by
  unfold typeData
  rw [bind_run (get_run s), h]
  rfl

theorem symbolData_run {sym : SymbolId} {symbol : Symbol}
    (h : s.store.symbol? sym = some symbol) : symbolData sym s = .ok symbol s := by
  unfold symbolData
  rw [bind_run (get_run s), h]
  rfl

theorem kindOf_run {ty : TypeId} {data : TypeData} (h : s.store.type? ty = some data) :
    kindOf ty s = .ok data.kind s := by
  unfold kindOf
  rw [bind_run (typeData_run h)]
  rfl

theorem pushType_run (data : TypeData) (s : Session) :
    pushType data s = .ok s.store.nextType { s with store := s.store.pushType data } := rfl

theorem updateSymbol_run {sym : SymbolId} {symbol : Symbol} {f : Symbol → Symbol}
    (h : s.store.symbol? sym = some symbol) :
    updateSymbol sym f s = .ok () { s with store := s.store.updateSymbol sym f } := by
  unfold updateSymbol
  rw [bind_run (symbolData_run h)]
  rfl

/-- **The log only adds to the trace.** -/
theorem log_returns (level : Log.Level) (target : String) (fields : List (String × String))
    (s : Session) : (log level target fields).Returns s fun _ s' =>
      ∃ new, s' = { s with trace := new ++ s.trace } ∧ ∀ entry ∈ new, entry.succeeded := by
  unfold log
  refine .step (get_run s) ?_
  cases s.audience.admits level target with
  | true => exact ⟨(), _, rfl, [.log ⟨level, target, fields⟩], rfl, by simp [TraceEntry.succeeded]⟩
  | false => exact returns_pure ⟨[], rfl, List.forall_mem_nil _⟩

/-! ### Lists of questions that leave the session alone -/

theorem filterAuxM_run {p : α → Run Bool} {q : α → Bool} {l acc : List α}
    (h : ∀ a ∈ l, p a s = .ok (q a) s) :
    l.filterAuxM p acc s = .ok ((l.filter q).reverse ++ acc) s := by
  induction l generalizing acc with
  | nil => rfl
  | cons a l ih =>
    rw [List.filterAuxM, bind_run (h a List.mem_cons_self),
      ih fun x hx => h x (List.mem_cons_of_mem a hx), List.filter_cons]
    cases q a with
    | true => simp
    | false => rfl

theorem filterM_run {p : α → Run Bool} {q : α → Bool} {l : List α}
    (h : ∀ a ∈ l, p a s = .ok (q a) s) : l.filterM p s = .ok (l.filter q) s := by
  rw [List.filterM, bind_run (filterAuxM_run h), List.append_nil, List.reverse_reverse]
  rfl

end Run

/-! ### Mappings -/

section

variable {σ α β : Type} {s : Session} {u : σ}

/-- The mapping's computation returns from a state of its own and a session, and the three results
satisfy `post`. -/
def ReturnsFrom (action : StateT σ Run α) (u : σ) (s : Session)
    (post : α → σ → Session → Prop) : Prop :=
  Run.Returns (action.run u) s fun r s' => post r.1 r.2 s'

theorem ReturnsFrom.bind {action : StateT σ Run α} {next : α → StateT σ Run β} {p : α → σ → Session → Prop}
    {q : β → σ → Session → Prop} (h : ReturnsFrom action u s p)
    (hnext : ∀ a u' s', p a u' s' → ReturnsFrom (next a) u' s' q) :
    ReturnsFrom (action >>= next) u s q :=
  Run.Returns.bind h fun r s' hr => hnext r.1 r.2 s' hr

theorem returnsFrom_pure {a : α} {q : α → σ → Session → Prop} (h : q a u s) :
    ReturnsFrom (pure a : StateT σ Run α) u s q := Run.returns_pure h

/-- A computation on the session leaves the mapping's own state alone. -/
theorem returnsFrom_lift {action : Run α} {q : α → σ → Session → Prop}
    (h : action.Returns s fun a s' => q a u s') :
    ReturnsFrom (liftM action : StateT σ Run α) u s q :=
  Run.Returns.bind h fun _ _ ha => Run.returns_pure ha

theorem ReturnsFrom.step {action : Run α} {next : α → StateT σ Run β} {a : α} {s' : Session}
    {q : β → σ → Session → Prop} (h : action s = .ok a s') (hnext : ReturnsFrom (next a) u s' q) :
    ReturnsFrom ((liftM action : StateT σ Run α) >>= next) u s q :=
  .bind (p := fun b v t => b = a ∧ v = u ∧ t = s') (returnsFrom_lift ⟨a, s', h, rfl, rfl, rfl⟩)
    fun _ _ _ ⟨hb, hv, ht⟩ => hb ▸ hv ▸ ht ▸ hnext

theorem ReturnsFrom.run' {action : StateT σ Run α} {q : α → Session → Prop}
    (h : ReturnsFrom action u s fun a _ s' => q a s') : (action.run' u).Returns s q := by
  obtain ⟨r, s', hrun, hq⟩ := h
  refine ⟨r.1, s', ?_, hq⟩
  show EStateM.map Prod.fst (action.run u) s = .ok r.1 s'
  rw [EStateM.map, hrun]

end

end RegionTypes

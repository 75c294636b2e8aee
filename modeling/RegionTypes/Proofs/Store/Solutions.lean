import RegionTypes.Proofs.Store.Evolution
import RegionTypes.Proofs.Store.Refusal

/-!
# Solutions of placeholders

A placeholder is solved by any type of the store, placeholders among them, and stripping solutions
follows them from one to the next.  The update that solves a placeholder looks at this placeholder
alone, so what keeps the chains of solutions from closing is what the callers do.

* `Store.Solved` — the graph of solutions; `Store.SolutionsEnd` — it has no cycles.
* `Store.Change.solution?_cases` — the one change that adds to the graph solves an open placeholder.
* `Store.IsOpen.solutionsEnd_solve` — **solving a placeholder closes a cycle exactly if the solution leads
  back to it**.
* `baseType_ne_tooDeep` — without cycles, the number of types bounds how far solutions are followed.
* `solutions_end_unless_closed` — a cycle has one cause, and nothing undoes it.
-/

namespace RegionTypes

open Relation Run

/-- What a placeholder is solved by. -/
def Kind.solution? : Kind → Option TypeId
  | placeholder info => info.solution
  | _ => none

/-- The kind with a placeholder's solution filled in. -/
def Kind.solve (solution : TypeId) : Kind → Kind :=
  Kind.mapPlaceholder fun info => { info with solution := some solution }

/-- Apart from solving a placeholder, no revision touches a solution. -/
theorem Kind.Revised.solution?_cases {n : Nat} {a b : Kind} (h : a.Revised n b) :
    b.solution? = a.solution? ∨
      ∃ info solution, a = .placeholder info ∧ info.solution = none ∧ b = a.solve solution := by
  cases h with
  | solve info solution hopen => exact .inr ⟨info, solution, rfl, hopen, rfl⟩
  | _ => exact .inl rfl

theorem Kind.IsNew.solution? {k : Kind} (h : k.IsNew) : k.solution? = none := by
  cases k with
  | placeholder info =>
    have hnew : info = { origin := info.origin } := h
    rw [hnew]
    rfl
  | _ => rfl

namespace Store

variable {s t : Store} {a b u w ty : TypeId}

/-- What a type of the store is solved by, if it is a solved placeholder. -/
def solution? (s : Store) (ty : TypeId) : Option TypeId :=
  (s.type? ty).bind fun data => data.kind.solution?

/-- The placeholder `a` is solved by `b`. -/
def Solved (s : Store) (a b : TypeId) : Prop := s.solution? a = some b

/-- Following solutions never comes back to where it has been. -/
def SolutionsEnd (s : Store) : Prop := ∀ ty, ¬ TransGen s.Solved ty ty

/-- The handle is that of a placeholder without solution. -/
def IsOpen (s : Store) (ty : TypeId) : Prop :=
  ∃ data info, s.type? ty = some data ∧ data.kind = .placeholder info ∧ info.solution = none

/-- The store with a placeholder solved. -/
def solve (s : Store) (u w : TypeId) : Store := s.reviseType u (Kind.solve w)

theorem IsOpen.solution? (h : s.IsOpen u) : s.solution? u = none := by
  obtain ⟨data, info, hdata, hkind, hopen⟩ := h
  simp [Store.solution?, hdata, hkind, Kind.solution?, hopen]

theorem IsOpen.solution?_solve (h : s.IsOpen u) (w a : TypeId) :
    (s.solve u w).solution? a = if u = a then some w else s.solution? a := by
  obtain ⟨data, info, hdata, hkind, -⟩ := h
  unfold solve reviseType Store.solution?
  rw [type?_updateType]
  split
  · next heq =>
    subst heq
    simp [hdata, hkind, Kind.solve, Kind.mapPlaceholder, Kind.solution?]
  · rfl

theorem reviseType_congr {f g : Kind → Kind} {data : TypeData} (hdata : s.type? ty = some data)
    (h : f data.kind = g data.kind) : s.reviseType ty f = s.reviseType ty g := by
  obtain ⟨hlt, hget⟩ := Array.getElem?_eq_some_iff.1 hdata
  have hmodify : s.types.modify ty.index (fun data => { data with kind := f data.kind }) =
      s.types.modify ty.index (fun data => { data with kind := g data.kind }) := by
    refine Array.ext_getElem? fun i => ?_
    rw [Array.getElem?_modify, Array.getElem?_modify]
    split
    · next heq =>
      subst heq
      have hdata' : s.types[ty.index]? = some data := hdata
      rw [hdata', Option.map_some, Option.map_some, h]
    · rfl
  show { s with types := _ } = { s with types := _ }
  rw [hmodify]

/-! ### What changes add to the graph -/

theorem solution?_pushType {data : TypeData} (h : data.kind.solution? = none) (a : TypeId) :
    (s.pushType data).solution? a = s.solution? a := by
  unfold solution?
  rw [type?_pushType]
  split
  · next heq =>
    have hnone : s.type? a = none := by
      cases hdata : s.type? a with
      | none => rfl
      | some found => exact absurd heq (ne_nextType (has_iff.2 ⟨found, hdata⟩))
    simp [hnone, h]
  · rfl

theorem solution?_reviseType {f : Kind → Kind}
    (h : ∀ data, s.type? ty = some data → (f data.kind).solution? = data.kind.solution?)
    (a : TypeId) : (s.reviseType ty f).solution? a = s.solution? a :=
  bind_type?_reviseType h a

theorem solution?_setBound (bound ty a : TypeId) :
    (s.setBound bound ty).solution? a = s.solution? a :=
  solution?_reviseType (fun data _ => by cases data.kind <;> rfl) a

/-- **The one change that adds to the graph of solutions solves an open placeholder.** -/
theorem Change.solution?_cases (h : s.Change t) :
    (∀ a, t.solution? a = s.solution? a) ∨ ∃ u w, s.IsOpen u ∧ t = s.solve u w := by
  cases h with
  | routine h =>
    cases h with
    | allocate data hnew => exact .inl (solution?_pushType hnew.solution?)
    | copy => exact .inl (solution?_pushType rfl)
    | bound => exact .inl (solution?_setBound _ _)
    | sharedBound =>
      exact .inl fun a => (solution?_setBound _ _ a).trans (solution?_setBound _ _ a)
    | revise ty f hrevised =>
      cases hdata : s.type? ty with
      | none =>
        refine .inl (solution?_reviseType fun data hdata' => ?_)
        rw [hdata] at hdata'
        cases hdata'
      | some data =>
        rcases (hrevised data hdata).solution?_cases with hsame | ⟨info, w, hkind, hopen, hf⟩
        · refine .inl (solution?_reviseType fun data' hdata' => ?_)
          obtain rfl : data = data' := Option.mem_unique hdata hdata'
          exact hsame
        · exact .inr ⟨ty, w, ⟨data, info, hdata, hkind, hopen⟩, reviseType_congr hdata hf⟩
    | _ => exact .inl fun _ => rfl
  | install => exact .inl fun _ => rfl
  | prototyped => exact .inl (solution?_pushType rfl)
  | thrown => exact .inl (solution?_reviseType fun data _ => by cases data.kind <;> rfl)

theorem Later.solved (h : s.Later t) (hab : s.Solved a b) : t.Solved a b := by
  obtain ⟨data, hdata, hsolution⟩ := Option.bind_eq_some_iff.1 hab
  obtain ⟨data', hdata', hkeeps⟩ := h.precedes.types a data hdata
  have hprecedes := hkeeps.kind
  cases hkind : data.kind with
  | placeholder =>
    rw [hkind] at hprecedes hsolution
    refine Option.bind_eq_some_iff.2 ⟨data', hdata', ?_⟩
    generalize data'.kind = kind' at hprecedes ⊢
    cases hprecedes with
    | same => exact hsolution
    | placeholder h => exact h.solution b hsolution
  | _ =>
    rw [hkind] at hsolution
    cases hsolution

/-! ### Solving a placeholder -/

/-- A way in the graph with one more solution is a way in the old graph, or it passes through the
new solution. -/
theorem IsOpen.of_solve (hu : s.IsOpen u) (h : TransGen (s.solve u w).Solved a b) :
    TransGen s.Solved a b ∨ ReflTransGen s.Solved a u ∧ ReflTransGen s.Solved w b := by
  have hedge : ∀ {c d}, (s.solve u w).Solved c d → u = c ∧ d = w ∨ s.Solved c d := by
    intro c d hcd
    unfold Solved at hcd
    rw [hu.solution?_solve] at hcd
    split at hcd
    · next heq => exact .inl ⟨heq, (Option.some.inj hcd).symm⟩
    · exact .inr hcd
  induction h with
  | single hab =>
    rcases hedge hab with ⟨rfl, rfl⟩ | hab
    · exact .inr ⟨.refl, .refl⟩
    · exact .inl (.single hab)
  | tail _ hbc ih =>
    rcases hedge hbc with ⟨rfl, rfl⟩ | hbc
    · rcases ih with hau | ⟨hau, _⟩
      · exact .inr ⟨hau.to_reflTransGen, .refl⟩
      · exact .inr ⟨hau, .refl⟩
    · rcases ih with hab | ⟨hau, hwb⟩
      · exact .inl (hab.tail hbc)
      · exact .inr ⟨hau, hwb.tail hbc⟩

/-- **Solving an open placeholder keeps the graph free of cycles exactly if the solution does not lead
back to the placeholder.** -/
theorem IsOpen.solutionsEnd_solve (hu : s.IsOpen u) :
    (s.solve u w).SolutionsEnd ↔ s.SolutionsEnd ∧ ¬ ReflTransGen s.Solved w u := by
  have hkept : ∀ a b, s.Solved a b → (s.solve u w).Solved a b := by
    intro a b hab
    unfold Solved
    rw [hu.solution?_solve]
    split
    · next heq =>
      rw [Solved, ← heq, hu.solution?] at hab
      cases hab
    · exact hab
  constructor
  · intro hends
    refine ⟨fun ty hcycle => hends ty (TransGen.mono hkept ty ty hcycle), fun hback => ?_⟩
    have hnew : (s.solve u w).Solved u w := by
      rw [Solved, hu.solution?_solve, if_pos rfl]
    exact hends u (TransGen.head' hnew (ReflTransGen.mono hkept w u hback))
  · rintro ⟨hends, hback⟩ ty hcycle
    rcases hu.of_solve hcycle with hold | ⟨hto, hfrom⟩
    · exact hends ty hold
    · exact hback (hfrom.trans hto)

/-- **A cycle has one cause.**  If solutions end now and do not end later, a placeholder was solved in
between by a type that led back to it. -/
theorem Later.exists_closing (h : s.Later t) (hs : s.SolutionsEnd) :
    t.SolutionsEnd ∨ ∃ m u w, s.Later m ∧ m.SolutionsEnd ∧ m.IsOpen u ∧
      ReflTransGen m.Solved w u ∧ (m.solve u w).Later t := by
  induction h with
  | refl => exact .inl hs
  | @tail m m' hsm hchange ih =>
    rcases ih with hends | ⟨r, u, w, hr, hrends, hopen, hback, hlater⟩
    · rcases hchange.solution?_cases with hsame | ⟨u, w, hopen, rfl⟩
      · have heq : m'.Solved = m.Solved := by
          funext a b
          rw [Solved, Solved, hsame]
        exact .inl fun ty hcycle => hends ty (heq ▸ hcycle)
      · by_cases hback : ReflTransGen m.Solved w u
        · exact .inr ⟨m, u, w, hsm, hends, hopen, hback, .refl⟩
        · exact .inl (hopen.solutionsEnd_solve.2 ⟨hends, hback⟩)
    · exact .inr ⟨r, u, w, hr, hrends, hopen, hback, hlater.tail hchange⟩

theorem eq_of_leads (h : ReflTransGen s.Solved a b) (ha : s.solution? a = none) : a = b := by
  rcases ReflTransGen.cases_head h with heq | ⟨next, hsolved, -⟩
  · exact heq
  · rw [Solved, ha] at hsolved
    cases hsolved

theorem solutionsEnd_of_none (h : ∀ data ∈ s.types, data.kind.solution? = none) :
    s.SolutionsEnd := by
  intro ty hcycle
  obtain ⟨next, hsolved, -⟩ := TransGen.head'_iff.1 hcycle
  obtain ⟨data, hdata, hsolution⟩ := Option.bind_eq_some_iff.1 hsolved
  rw [h data (Array.mem_of_getElem? hdata)] at hsolution
  cases hsolution

theorem initial_solutionsEnd (options : DisplayOptions) : (initial options).SolutionsEnd := by
  have hnone : ∀ data ∈ initialTypes, data.kind.solution? = none := by decide
  exact solutionsEnd_of_none fun data hdata => hnone data (by simpa [initial] using hdata)

end Store

/-! ### Following solutions -/

namespace Run

variable {α β : Type} {s s' : Session}

theorem violation_ne_tooDeep {text : String} :
    (violation (pure text) : Run α) s ≠ .error .tooDeep s' := by
  intro h
  rw [violation, bind_run (get_run s)] at h
  split at h <;> cases h

theorem typeData_ne_tooDeep {ty : TypeId} : typeData ty s ≠ .error .tooDeep s' := by
  rw [typeData, bind_run (get_run s)]
  cases s.store.type? ty with
  | some =>
    intro h
    cases h
  | none => exact violation_ne_tooDeep

theorem symbolData_ne_tooDeep {sym : SymbolId} : symbolData sym s ≠ .error .tooDeep s' := by
  rw [symbolData, bind_run (get_run s)]
  cases s.store.symbol? sym with
  | some =>
    intro h
    cases h
  | none => exact violation_ne_tooDeep

theorem ne_tooDeep_of_bind {action : Run α} {next : α → Run β}
    (h : action s ≠ .error .tooDeep s')
    (hnext : ∀ a t, action s = .ok a t → next a t ≠ .error .tooDeep s') :
    (action >>= next) s ≠ .error .tooDeep s' := by
  cases hrun : action s with
  | ok a t =>
    rw [bind_run hrun]
    exact hnext a t hrun
  | error =>
    rw [hrun] at h
    rw [bind_run_error hrun]
    exact fun heq => h (by injection heq with hstop ht; rw [hstop, ht])

theorem canonicalType_ne_tooDeep {symbol : Option SymbolId} :
    canonicalType symbol s ≠ .error .tooDeep s' := by
  cases symbol with
  | none => exact fun h => nomatch h
  | some => exact ne_tooDeep_of_bind symbolData_ne_tooDeep fun _ _ _ h => nomatch h

end Run

theorem Store.length_le_size {r : Store} {types : List TypeId} (hnodup : types.Nodup)
    (hhas : ∀ ty ∈ types, r.Has ty) : types.length ≤ r.types.size := by
  have hinj : (types.map TypeId.index).Nodup :=
    hnodup.map fun a b h => by cases a; cases b; exact congrArg TypeId.mk h
  have hsub : types.map TypeId.index ⊆ List.range r.types.size := by
    intro i hi
    obtain ⟨ty, hty, rfl⟩ := List.mem_map.1 hi
    exact List.mem_range.2 (Store.has_iff_lt.1 (hhas ty hty))
  simpa using (hinj.subperm hsub).length_le

variable {depth : Nat}

/-- Stripping solutions from a type on which others lead.  The types that were passed are all
different, so there is depth left for the ones still to come. -/
theorem baseType_ne_tooDeep_of_passed {s s' : Session} (hends : s.store.SolutionsEnd)
    {passed : List TypeId} {ty : TypeId} (hnodup : passed.Nodup) (hhas : ∀ a ∈ passed, s.store.Has a)
    (hlead : ∀ a ∈ passed, TransGen s.store.Solved a ty)
    (hdepth : s.store.types.size < depth + passed.length) :
    baseType depth ty s ≠ .error .tooDeep s' := by
  induction depth generalizing passed ty with
  | zero =>
    have hle := Store.length_le_size hnodup hhas
    omega
  | succ depth ih =>
    refine ne_tooDeep_of_bind typeData_ne_tooDeep fun data t hrun => ?_
    obtain ⟨rfl, hdata⟩ := eq_of_typeData hrun
    split
    · exact ne_tooDeep_of_bind canonicalType_ne_tooDeep fun _ _ _ h => nomatch h
    · cases hkind : data.kind with
      | placeholder info =>
        cases hsolution : info.solution with
        | none =>
          simp only [hsolution]
          exact fun h => nomatch h
        | some solution =>
          simp only [hsolution]
          have hsolved : t.store.Solved ty solution := by
            simp [Store.Solved, Store.solution?, hdata, hkind, Kind.solution?, hsolution]
          have hnew : ty ∉ passed := fun hmem => hends ty (hlead ty hmem)
          refine ih (hnodup.cons hnew) ?_ ?_ ?_
          · exact List.forall_mem_cons.2 ⟨Store.has_iff.2 ⟨data, hdata⟩, hhas⟩
          · exact List.forall_mem_cons.2 ⟨.single hsolved, fun a ha => (hlead a ha).tail hsolved⟩
          · simp only [List.length_cons]
            omega
      | _ => exact fun h => nomatch h

/-- **Without cycles, the number of types bounds how far solutions are followed.** -/
theorem baseType_ne_tooDeep {s s' : Session} (hends : s.store.SolutionsEnd) (ty : TypeId)
    (hdepth : s.store.types.size < depth) :
    baseType depth ty s ≠ .error .tooDeep s' :=
  baseType_ne_tooDeep_of_passed hends List.nodup_nil (by simp) (by simp) (by simpa using hdepth)

theorem setInstantiation_open {load : Loader} {u w : TypeId} {s : Session} (hu : s.store.IsOpen u) :
    setInstantiation load depth u w s = .ok (.ok ()) { s with store := s.store.solve u w } := by
  obtain ⟨data, info, hdata, hkind, hopen⟩ := hu
  rw [setInstantiation, bind_run (kindOf_run hdata), hkind]
  simp only [hopen]
  rfl

/-! ### Cycles -/

/-- The store of a reachable session is a later state of a new store. -/
theorem Session.Reachable.later {s : Session} (hs : s.Reachable) :
    ∃ options, (Store.initial options).Later s.store :=
  hs.invariant (P := fun r => ∃ options, (Store.initial options).Later r)
    (fun options => ⟨options, .refl⟩) fun _ _ hchange ⟨options, hlater⟩ =>
      ⟨options, hlater.tail hchange⟩

/-- **Solutions end unless a caller closes a cycle.**  In every reachable session following solutions
never comes back to where it has been, or on the way there a placeholder was solved by a type that led
back to it.  Solving an open placeholder always succeeds, and it keeps solutions ending exactly if the
given type does not lead back to the placeholder.  What is closed stays closed.  Where solutions end,
the number of types bounds how far they are followed. -/
theorem solutions_end_unless_closed :
    (∀ s : Session, s.Reachable → s.store.SolutionsEnd ∨ ∃ options m u w,
      (Store.initial options).Later m ∧ m.SolutionsEnd ∧ m.IsOpen u ∧
        ReflTransGen m.Solved w u ∧ (m.solve u w).Later s.store) ∧
    (∀ load depth u w (s : Session), s.store.IsOpen u → ∃ s',
      setInstantiation load depth u w s = .ok (.ok ()) s' ∧
        (s'.store.SolutionsEnd ↔ s.store.SolutionsEnd ∧ ¬ ReflTransGen s.store.Solved w u)) ∧
    (∀ s t : Store, s.Later t → t.SolutionsEnd → s.SolutionsEnd) ∧
    ∀ (s s' : Session) depth ty, s.store.SolutionsEnd → s.store.types.size < depth →
      baseType depth ty s ≠ .error .tooDeep s' := by
  refine ⟨fun s hs => ?_, fun load depth u w s hu => ?_, fun s t h ht ty hcycle => ?_,
    fun s s' depth ty hends hdepth => baseType_ne_tooDeep hends ty hdepth⟩
  · obtain ⟨options, hlater⟩ := hs.later
    rcases hlater.exists_closing (Store.initial_solutionsEnd options) with hends | hclosed
    · exact .inl hends
    · obtain ⟨m, u, w, hm⟩ := hclosed
      exact .inr ⟨options, m, u, w, hm⟩
  · exact ⟨_, setInstantiation_open hu, hu.solutionsEnd_solve⟩
  · -- a cycle stays
    exact ht ty (TransGen.mono (fun _ _ => h.solved) ty ty hcycle)

/-- Two placeholders that are solved by each other: both updates are made, and stripping the solutions
of either never ends. -/
theorem solutions_close_mutually :
    let s := Session.afterCommands
      [.placeholder (.handle WellKnown.int), .placeholder (.handle WellKnown.int),
        .setInstantiation (.handle ⟨12⟩) (.handle ⟨13⟩),
        .setInstantiation (.handle ⟨13⟩) (.handle ⟨12⟩)]
    s.Reachable ∧ s.store.Solved ⟨12⟩ ⟨13⟩ ∧ s.store.Solved ⟨13⟩ ⟨12⟩ ∧ ¬ s.store.SolutionsEnd ∧
      ∀ depth, baseType depth ⟨12⟩ s = .error .tooDeep s ∧
        baseType depth ⟨13⟩ s = .error .tooDeep s := by
  intro s
  have hfirst : s.store.Solved ⟨12⟩ ⟨13⟩ := by
    unfold Store.Solved
    decide +kernel
  have hsecond : s.store.Solved ⟨13⟩ ⟨12⟩ := by
    unfold Store.Solved
    decide +kernel
  refine ⟨Session.afterCommands_reachable _, hfirst, hsecond, ?_, fun depth => ?_⟩
  · exact fun hends => hends ⟨12⟩ (.tail (.single hfirst) hsecond)
  · induction depth with
    | zero => exact ⟨rfl, rfl⟩
    | succ depth ih => exact ⟨ih.2, ih.1⟩

/-- A placeholder that is solved by another one, before that one is solved by a primitive type. -/
theorem solutions_end_unless_closed_chain :
    let s := Session.afterCommands
      [.placeholder (.handle WellKnown.int), .placeholder (.handle WellKnown.int)]
    ∃ s₁ s₂, setInstantiation (completerLoader 8) 8 ⟨12⟩ ⟨13⟩ s = .ok (.ok ()) s₁ ∧
      setInstantiation (completerLoader 8) 8 ⟨13⟩ WellKnown.int s₁ = .ok (.ok ()) s₂ ∧
      s₂.store.Solved ⟨12⟩ ⟨13⟩ ∧ s₂.store.Solved ⟨13⟩ WellKnown.int ∧ s₂.store.SolutionsEnd ∧
      ∀ s', baseType 15 ⟨12⟩ s₂ ≠ .error .tooDeep s' := by
  intro s
  let s₁ : Session := { s with store := s.store.solve ⟨12⟩ ⟨13⟩ }
  let s₂ : Session := { s₁ with store := s₁.store.solve ⟨13⟩ WellKnown.int }
  obtain ⟨-, hsolve, -, hbase⟩ := solutions_end_unless_closed
  obtain ⟨_, hrun₁, hends₁⟩ := hsolve (completerLoader 8) 8 ⟨12⟩ ⟨13⟩ s ⟨_, _, rfl, rfl, rfl⟩
  obtain ⟨_, hrun₂, hends₂⟩ :=
    hsolve (completerLoader 8) 8 ⟨13⟩ WellKnown.int s₁ ⟨_, _, rfl, rfl, rfl⟩
  obtain rfl : _ = s₁ := by injection hrun₁.symm
  obtain rfl : _ = s₂ := by injection hrun₂.symm
  -- in both steps the solution is not solved itself, so it leads nowhere else
  have hends : s.store.SolutionsEnd := Store.solutionsEnd_of_none (by decide +kernel)
  have hends₁ := hends₁.2 ⟨hends, fun hback =>
    absurd (Store.eq_of_leads hback (by decide +kernel)) (by decide)⟩
  have hends₂ := hends₂.2 ⟨hends₁, fun hback =>
    absurd (Store.eq_of_leads hback (by decide +kernel)) (by decide)⟩
  have hsolved : s₂.store.solution? ⟨12⟩ = some ⟨13⟩ ∧
      s₂.store.solution? ⟨13⟩ = some WellKnown.int := by decide +kernel
  exact ⟨s₁, s₂, hrun₁, hrun₂, hsolved.1, hsolved.2, hends₂, fun s' =>
    hbase s₂ s' 15 ⟨12⟩ hends₂ (by decide +kernel)⟩

end RegionTypes

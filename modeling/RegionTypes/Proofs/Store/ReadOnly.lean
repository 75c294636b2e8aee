import RegionTypes.Proofs.Store.Along
import RegionTypes.Store.Program

/-!
# What leaves the store alone

The operations that load nothing and write nothing: they end with the store they started from, also
when they come to a stop.

* `Run.typeData_still`, `Run.symbolData_still`, ... — looking up types and symbols.
* `Run.eq_of_typeData`, ... — what a look-up that returns has found.
* `lookupType_still`, `lookupSymbol_still` — the names that commands use.
-/

namespace RegionTypes

namespace Run

variable {α β : Type} {R : Store → Store → Prop} {s s' : Session} {ty : TypeId} {sym : SymbolId}

/-! ### Sessions -/

theorem note_still (entry : TraceEntry) : Along Eq (note entry) := fun _ => rfl

theorem tooDeep_still : Along Eq (tooDeep : Run α) := along_throw .tooDeep

theorem log_still (level : Log.Level) (target : String) (fields : List (String × String)) :
    Along Eq (log level target fields) := by
  refine along_get.bind fun s => ?_
  split
  · exact note_still _
  · exact along_pure ()

/-- Ending the run does what working out its detail does. -/
theorem Along.violation [IsPreorder Store R] {detail : Run String} (h : Along R detail) :
    Along R (violation detail : Run α) := by
  refine along_get.bind fun s => ?_
  have hrest : Along R (do
      let text ← detail
      throw (.violation text) : Run α) := h.bind fun text => along_throw _
  split
  · exact h.bind fun text => (note_still _).of_eq.bind fun _ => hrest
  · exact hrest

theorem typeData_still (ty : TypeId) : Along Eq (typeData ty) := by
  refine along_get.bind fun s => ?_
  split
  · exact along_pure _
  · exact (along_pure _).violation

theorem symbolData_still (sym : SymbolId) : Along Eq (symbolData sym) := by
  refine along_get.bind fun s => ?_
  split
  · exact along_pure _
  · exact (along_pure _).violation

theorem kindOf_still (ty : TypeId) : Along Eq (kindOf ty) := (typeData_still ty).map

theorem storeOptions_still : Along Eq storeOptions := along_get.map

/-! ### What a look-up has found -/

theorem exists_of_bind {action : Run α} {next : α → Run β} {b : β}
    (h : (action >>= next) s = .ok b s') : ∃ a t, action s = .ok a t ∧ next a t = .ok b s' := by
  cases hrun : action s with
  | ok a t =>
    rw [bind_run hrun] at h
    exact ⟨a, t, rfl, h⟩
  | error =>
    rw [bind_run_error hrun] at h
    cases h

theorem violation_ne_ok {detail : Run String} {a : α} : violation detail s ≠ .ok a s' := by
  have hthrow : ∀ t, (do throw (.violation (← detail)) : Run α) t ≠ .ok a s' := by
    intro t h
    obtain ⟨text, u, -, hstop⟩ := exists_of_bind h
    cases hstop
  intro h
  rw [violation, bind_run (get_run s)] at h
  split at h
  · obtain ⟨text, u, -, h⟩ := exists_of_bind h
    obtain ⟨_, u', -, h⟩ := exists_of_bind h
    exact hthrow u' h
  · exact hthrow s h

theorem eq_of_typeData {data : TypeData} (h : typeData ty s = .ok data s') :
    s' = s ∧ s.store.type? ty = some data := by
  cases hdata : s.store.type? ty with
  | some =>
    rw [typeData_run hdata] at h
    injection h with hfound hs
    exact ⟨hs.symm, by rw [hfound]⟩
  | none =>
    rw [typeData, bind_run (get_run s), hdata] at h
    exact absurd h violation_ne_ok

theorem eq_of_symbolData {y : Symbol} (h : symbolData sym s = .ok y s') :
    s' = s ∧ s.store.symbol? sym = some y := by
  cases hy : s.store.symbol? sym with
  | some =>
    rw [symbolData_run hy] at h
    injection h with hfound hs
    exact ⟨hs.symm, by rw [hfound]⟩
  | none =>
    rw [symbolData, bind_run (get_run s), hy] at h
    exact absurd h violation_ne_ok

theorem eq_of_kindOf {kind : Kind} (h : kindOf ty s = .ok kind s') :
    s' = s ∧ ∃ data, s.store.type? ty = some data ∧ data.kind = kind := by
  obtain ⟨data, t, hdata, hpure⟩ := exists_of_bind h
  obtain ⟨rfl, hfound⟩ := eq_of_typeData hdata
  injection hpure with hkind hs
  exact ⟨hs.symm, data, hfound, hkind⟩

end Run

open Run

variable {s s' : Session}

/-- The prototype that was found is that of the variable, with the prototype's own data. -/
theorem eq_of_prototypeOf {info : VarInfo} {prototype : Option (TypeId × VarInfo)}
    (h : prototypeOf info s = .ok prototype s') :
    s' = s ∧ (info.prototype = none ∧ prototype = none ∨
      ∃ owner data, info.prototype = some owner ∧ s.store.type? owner = some data ∧
        prototype = data.kind.var?.map fun var => (owner, var)) := by
  unfold prototypeOf at h
  cases howner : info.prototype with
  | none =>
    rw [howner] at h
    injection h with hprototype hs
    exact ⟨hs.symm, .inl ⟨rfl, hprototype.symm⟩⟩
  | some owner =>
    rw [howner] at h
    obtain ⟨kind, t, hkind, hpure⟩ := exists_of_bind h
    obtain ⟨rfl, data, hdata, rfl⟩ := eq_of_kindOf hkind
    injection hpure with hprototype hs
    exact ⟨hs.symm, .inr ⟨owner, data, rfl, hdata, hprototype.symm⟩⟩

variable {β : Type}

theorem current_still (slot : Slot β) (ty : TypeId) : Along Eq (slot.current ty) := by
  refine (kindOf_still ty).bind fun kind => ?_
  split
  · exact along_pure _
  · exact along_pure _

variable {ty : TypeId} {slot : Slot β}

theorem Slot.current_bind_read {data : TypeData} (h : s.store.type? ty = some data) :
    slot.current ty s = .ok (data.kind.class?.bind slot.read) s := by
  rw [Slot.current, bind_run (kindOf_run h)]
  cases data.kind.class? <;> rfl

theorem Slot.eq_of_current {held : Option (List β)} (h : slot.current ty s = .ok held s') :
    s' = s ∧ ∃ data, s.store.type? ty = some data ∧ data.kind.class?.bind slot.read = held := by
  obtain ⟨kind, t, hkind, _⟩ := exists_of_bind h
  obtain ⟨rfl, data, hdata, rfl⟩ := eq_of_kindOf hkind
  rw [Slot.current_bind_read hdata] at h
  injection h with hheld hs
  exact ⟨hs.symm, data, hdata, hheld⟩

/-- The answer is empty, or it is what the class holds by then. -/
theorem declaredList_answer {load : Loader} {symbol : Option SymbolId} {list : List β}
    (h : declaredList load slot ty symbol s = .ok list s') :
    list = [] ∨ ∃ data, s'.store.type? ty = some data ∧
      data.kind.class?.bind slot.read = some list := by
  obtain ⟨held, s₁, hheld, h⟩ := exists_of_bind h
  cases held with
  | some =>
    injection h with hlist hs
    subst hlist hs
    obtain ⟨rfl, hkept⟩ := Slot.eq_of_current hheld
    exact .inr hkept
  | none =>
    obtain ⟨_, s₂, -, h⟩ := exists_of_bind h
    obtain ⟨held, s₃, hheld, h⟩ := exists_of_bind h
    cases held with
    | some =>
      injection h with hlist hs
      subst hlist hs
      obtain ⟨rfl, hkept⟩ := Slot.eq_of_current hheld
      exact .inr hkept
    | none =>
      -- the class has got nothing, so the answer is empty
      obtain ⟨completing, s₄, -, h⟩ := exists_of_bind h
      cases completing with
      | true =>
        injection h with hlist
        exact .inl hlist.symm
      | false =>
        obtain ⟨_, s₅, -, h⟩ := exists_of_bind h
        injection h with hlist
        exact .inl hlist.symm

/-! ### Names -/

theorem Session.bind_store (label : String) (answer : Answer) (s : Session) :
    (s.bind label answer).store = s.store ∧ (s.bind label answer).trace = s.trace := by
  unfold Session.bind
  split
  · exact ⟨rfl, rfl⟩
  · exact ⟨rfl, rfl⟩
  · exact ⟨rfl, rfl⟩
  · exact ⟨rfl, rfl⟩
  · dsimp only
    split
    · exact ⟨rfl, rfl⟩
    · exact ⟨rfl, rfl⟩
  · exact ⟨rfl, rfl⟩

/-- The handle that a reference stands for. -/
def TypeRef.resolve? (names : Names) : TypeRef → Option TypeId
  | handle ty => some ty
  | named label => names.types.lookup label

/-- The handle that a reference stands for. -/
def SymbolRef.resolve? (names : Names) : SymbolRef → Option SymbolId
  | handle sym => some sym
  | named label => names.symbols.lookup label

section Lookup

variable {s s' : Session}

theorem lookupType_still (ref : TypeRef) : Along Eq (lookupType ref) := by
  cases ref with
  | handle ty => exact along_pure ty
  | named =>
    refine along_get.bind fun s => ?_
    split
    · exact along_pure _
    · exact along_throw _

theorem lookupSymbol_still (ref : SymbolRef) : Along Eq (lookupSymbol ref) := by
  cases ref with
  | handle sym => exact along_pure sym
  | named =>
    refine along_get.bind fun s => ?_
    split
    · exact along_pure _
    · exact along_throw _

theorem eq_of_lookupType {ref : TypeRef} (h : lookupType ref s = .ok ty s') :
    s' = s ∧ ref.resolve? s.names = some ty := by
  cases ref with
  | handle =>
    injection h with hty hs
    exact ⟨hs.symm, by rw [← hty]; rfl⟩
  | named label =>
    rw [lookupType, bind_run (get_run s)] at h
    cases hfound : s.names.types.lookup label with
    | some =>
      rw [hfound] at h
      injection h with hty hs
      exact ⟨hs.symm, by rw [← hty]; exact hfound⟩
    | none =>
      rw [hfound] at h
      cases h

theorem eq_of_lookupSymbol {ref : SymbolRef} {sym : SymbolId} (h : lookupSymbol ref s = .ok sym s') :
    s' = s ∧ ref.resolve? s.names = some sym := by
  cases ref with
  | handle =>
    injection h with hsym hs
    exact ⟨hs.symm, by rw [← hsym]; rfl⟩
  | named label =>
    rw [lookupSymbol, bind_run (get_run s)] at h
    cases hfound : s.names.symbols.lookup label with
    | some =>
      rw [hfound] at h
      injection h with hsym hs
      exact ⟨hs.symm, by rw [← hsym]; exact hfound⟩
    | none =>
      rw [hfound] at h
      cases h

theorem eq_of_lookupTypes {refs : List TypeRef} {types : List TypeId}
    (h : lookupTypes refs s = .ok types s') :
    s' = s ∧ ∀ ty ∈ types, ∃ ref ∈ refs, ref.resolve? s.names = some ty := by
  induction refs generalizing types s' with
  | nil =>
    injection h with htypes hs
    subst htypes
    exact ⟨hs.symm, nofun⟩
  | cons ref refs ih =>
    rw [lookupTypes, List.mapM_cons] at h
    obtain ⟨ty, t, hty, hrest⟩ := exists_of_bind h
    obtain ⟨rfl, href⟩ := eq_of_lookupType hty
    obtain ⟨others, t', hothers, hpure⟩ := exists_of_bind hrest
    obtain ⟨rfl, hrefs⟩ := ih hothers
    injection hpure with htypes hs
    subst htypes
    refine ⟨hs.symm, fun c hc => ?_⟩
    rcases List.mem_cons.1 hc with rfl | hc
    · exact ⟨ref, List.mem_cons_self, href⟩
    · obtain ⟨other, hother, hresolve⟩ := hrefs c hc
      exact ⟨other, List.mem_cons_of_mem _ hother, hresolve⟩

end Lookup

end RegionTypes

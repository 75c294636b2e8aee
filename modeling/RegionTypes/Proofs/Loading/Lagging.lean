import RegionTypes.Proofs.Loading.Answers

/-!
# Stores that lag behind

A store whose classes are loaded on demand **lags behind** the store in which all of them are
defined: it has the same types, but some classes are still blank, and some derived lists are already
remembered.

* `Declaration` — what loading a class supplies; it is blank before.
* `Completer.Fulfils` — a completer asks questions and then defines its class.
* `Store.Lags` — **the invariant of loading on demand**: a blank class has a completer that is
  pending or running, a pending completer will supply what is missing, and what is remembered is
  right.
* `Session.Evolves` — what a question may do to a session: it may run completers that are pending,
  but it keeps its hands off the classes whose completers are running.
-/

namespace RegionTypes

/-! ### Declarations -/

/-- What loading a class supplies. -/
structure Declaration where
  typeArgs : Option (List TypeId) := none
  regionArgs : Option (List Path) := none
  effectArgs : Option (List Summary) := none
  supertype : Option TypeId := none
  interfaces : Option (List TypeId) := none
  deriving DecidableEq

/-- The declaration of a class that is not loaded. -/
def Declaration.blank : Declaration := {}

/-- What is known of the declaration of a class. -/
def ClassInfo.declaration (info : ClassInfo) : Declaration :=
  ⟨info.typeArgs, info.regionArgs, info.effectArgs, info.supertype, info.interfaces⟩

/-- The declaration with a signature. -/
def ClassSignature.declaration (sig : ClassSignature) : Declaration :=
  ⟨some sig.typeParams, some sig.regionParams, some sig.effectParams, sig.supertype,
    some sig.interfaces⟩

theorem ClassInfo.declaration_define (sig : ClassSignature) (info : ClassInfo) :
    (info.define sig).declaration = sig.declaration := rfl

/-! ### Completers that load a class -/

/-- The command that defines a class. -/
def ClassSignature.command (sig : ClassSignature) (ty : TypeId) : Command :=
  .defineClass (.handle ty) (sig.typeParams.map .handle) sig.regionParams sig.effectParams
    (sig.supertype.map .handle) (sig.interfaces.map .handle)

/-- The type is a class with the signature. -/
def Store.Declares (r : Store) (ty : TypeId) (sig : ClassSignature) : Prop :=
  ∃ data info, r.type? ty = some data ∧ data.kind = .classType info ∧
    info.declaration = sig.declaration

/-- The completer asks questions and then defines the class as it stands in `r`.  Its questions are
nested at most `b` deep. -/
def Completer.Fulfils (completer : Completer) (r : Store) (b : Nat) (ty : TypeId) : Prop :=
  ∃ (steps : List Step) (label : Option String) (sig : ClassSignature),
    completer.script = steps ++ [(label, sig.command ty)] ∧
      (∀ step ∈ steps, step.2.isQuestion r b) ∧ r.Declares ty sig

/-! ### Lagging behind -/

/-- A class as a lagging store has it: its declaration is blank or complete, and what is remembered
is right. -/
structure ClassInfo.Lags (r : Store) (ty : TypeId) (full info : ClassInfo) : Prop where
  outer : info.outer = full.outer
  declaration : info.declaration = .blank ∨ info.declaration = full.declaration
  resolvedRegions : ∀ l ∈ info.resolvedRegions, l = r.regionArgumentsOf ty
  allTypeParams : ∀ l ∈ info.allTypeParams, l = r.allTypeParamsOf ty
  allRegionParams : ∀ l ∈ info.allRegionParams, l = r.allRegionParamsOf ty
  allEffectParams : ∀ l ∈ info.allEffectParams, l = r.allEffectParamsOf ty

/-- A record as a lagging store has it: only classes may differ. -/
inductive TypeData.Lags (r : Store) (ty : TypeId) : TypeData → TypeData → Prop
  | classType {symbol : Option SymbolId} {erased : Bool} {literal : Option Literal}
      {full info : ClassInfo} (lags : ClassInfo.Lags r ty full info) :
      Lags r ty ⟨symbol, erased, literal, .classType full⟩
        ⟨symbol, erased, literal, .classType info⟩
  | other {data : TypeData} (kind : data.kind.class? = none) : Lags r ty data data

namespace Store

/-- The type is a class of the symbol and still blank. -/
def Blank (s : Store) (sym : SymbolId) (ty : TypeId) : Prop :=
  ∃ data info, s.type? ty = some data ∧ data.symbol = some sym ∧ data.kind = .classType info ∧
    info.declaration = .blank

/-- The store is one in which classes are loaded on demand, and `r` is the store that it would be
with all classes defined from the start. -/
structure Lags (r : Store) (b : Nat) (s : Store) : Prop where
  types : ∀ ty full, r.type? ty = some full → ∃ data, s.type? ty = some data ∧ full.Lags r ty data
  symbols : ∀ sym, (s.symbol? sym).map Symbol.face = (r.symbol? sym).map Symbol.face
  /-- A blank class waits for its completer. -/
  waiting : ∀ ty data info, s.type? ty = some data → data.kind = .classType info →
    info.declaration = .blank → ∃ sym symbol, data.symbol = some sym ∧ s.symbol? sym = some symbol ∧
      symbol.type = some ty ∧ (symbol.completer.isSome ∨ symbol.completing = true)
  /-- A pending completer will define its class, which is blank until then. -/
  pending : ∀ sym symbol completer, s.symbol? sym = some symbol →
    symbol.completer = some completer → symbol.completing = false ∧
      ∃ ty, symbol.type = some ty ∧ completer.Fulfils r b ty ∧ s.Blank sym ty
  /-- Nothing is being completed when no completer runs. -/
  idle : s.inFlight = 0 → ∀ sym symbol, s.symbol? sym = some symbol → symbol.completing = false

theorem Lags.symbol {r s : Store} {b : Nat} (h : r.Lags b s) {sym : SymbolId} {y : Symbol}
    (hy : r.symbol? sym = some y) : ∃ y', s.symbol? sym = some y' ∧ y'.face = y.face := by
  have hface := h.symbols sym
  rw [hy, Option.map_some] at hface
  exact Option.map_eq_some_iff.1 hface

/-- Only these symbols have completers pending. -/
def PendingIn (s : Store) (P : Finset SymbolId) : Prop :=
  ∀ sym symbol, s.symbol? sym = some symbol → symbol.completer.isSome → sym ∈ P

end Store

/-! ### Changing a class -/

/-- The store with the data of one class changed. -/
def Store.updateClass (s : Store) (ty : TypeId) (f : ClassInfo → ClassInfo) : Store :=
  s.reviseType ty (·.mapClass f)

namespace Store

variable {r s : Store} {b : Nat} {ty a : TypeId} {sym : SymbolId} {f : ClassInfo → ClassInfo}

theorem type?_updateClass_of_ne (h : ty ≠ a) : (s.updateClass ty f).type? a = s.type? a := by
  rw [updateClass, reviseType, type?_updateType, if_neg h]

theorem type?_updateClass_self {data : TypeData} (h : s.type? ty = some data) :
    (s.updateClass ty f).type? ty = some { data with kind := data.kind.mapClass f } := by
  rw [updateClass, reviseType, type?_updateType, if_pos rfl, h, Option.map_some]

theorem class_of_updateClass {data : TypeData} {info : ClassInfo}
    (h : (s.updateClass ty f).type? a = some data) (kind : data.kind = .classType info) :
    ∃ data' info', s.type? a = some data' ∧ data'.symbol = data.symbol ∧
      data'.kind = .classType info' ∧ info = if ty = a then f info' else info' := by
  by_cases heq : ty = a
  · obtain rfl := heq
    rw [updateClass, reviseType, type?_updateType, if_pos rfl, Option.map_eq_some_iff] at h
    obtain ⟨data', hdata', rfl⟩ := h
    cases hkind : data'.kind with
    | classType info' =>
      rw [hkind] at kind
      refine ⟨data', info', hdata', rfl, hkind, ?_⟩
      rw [if_pos rfl]
      exact (Kind.classType.inj kind).symm
    | _ =>
      rw [hkind] at kind
      cases kind
  · rw [type?_updateClass_of_ne heq] at h
    exact ⟨data, info, h, rfl, kind, by rw [if_neg heq]⟩

theorem Blank.updateClass (hdecl : ∀ info, (f info).declaration = info.declaration)
    (h : s.Blank sym a) : (s.updateClass ty f).Blank sym a := by
  obtain ⟨data, info, hdata, hsym, hkind, hblank⟩ := h
  by_cases heq : ty = a
  · obtain rfl := heq
    refine ⟨_, f info, type?_updateClass_self hdata, hsym, ?_, by rw [hdecl, hblank]⟩
    rw [hkind]
    rfl
  · exact ⟨data, info, by rw [type?_updateClass_of_ne heq, hdata], hsym, hkind, hblank⟩

/-- **Remembering keeps the invariant**: a change that leaves declarations alone and writes only
what is right. -/
theorem Lags.updateClass (h : r.Lags b s) (hdecl : ∀ info, (f info).declaration = info.declaration)
    (hf : ∀ full info, ClassInfo.Lags r ty full info → ClassInfo.Lags r ty full (f info)) :
    r.Lags b (s.updateClass ty f) where
  types a full hfull := by
    obtain ⟨data, hdata, hlags⟩ := h.types a full hfull
    by_cases heq : ty = a
    · obtain rfl := heq
      refine ⟨_, type?_updateClass_self hdata, ?_⟩
      cases hlags with
      | classType hlags => exact .classType (hf _ _ hlags)
      | other kind =>
        rw [Kind.mapClass_of_class?_eq_none kind]
        exact .other kind
    · exact ⟨data, by rw [type?_updateClass_of_ne heq, hdata], hlags⟩
  symbols := h.symbols
  waiting a data info hdata kind hblank := by
    obtain ⟨data', info', hdata', hsym, kind', rfl⟩ := class_of_updateClass hdata kind
    have hblank' : info'.declaration = .blank := by
      split at hblank
      · rwa [hdecl] at hblank
      · exact hblank
    rw [← hsym]
    exact h.waiting a data' info' hdata' kind' hblank'
  pending sym symbol completer hsym hcompleter := by
    obtain ⟨hrunning, a, htype, hfulfils, hblank⟩ := h.pending sym symbol completer hsym hcompleter
    exact ⟨hrunning, a, htype, hfulfils, hblank.updateClass hdecl⟩
  idle := h.idle

end Store

/-! ### Evolution -/

/-- What a question may do to a session. -/
structure Session.Evolves (s s' : Session) : Prop where
  flight : s'.store.inFlight = s.store.inFlight
  completing : ∀ sym, (s'.store.symbol? sym).map Symbol.completing =
    (s.store.symbol? sym).map Symbol.completing
  pending : ∀ P, s.store.PendingIn P → s'.store.PendingIn P
  /-- A class whose completer runs stays blank: only the completer itself defines it. -/
  blank : ∀ sym symbol ty, s.store.symbol? sym = some symbol → symbol.completing = true →
    s.store.Blank sym ty → s'.store.Blank sym ty
  trace : ∃ new, s'.trace = new ++ s.trace ∧ ∀ entry ∈ new, entry.succeeded

namespace Session

variable {s s' s'' : Session}

theorem Evolves.refl (s : Session) : s.Evolves s :=
  ⟨rfl, fun _ => rfl, fun _ h => h, fun _ _ _ _ _ h => h, [], rfl, List.forall_mem_nil _⟩

theorem Evolves.trans (h : s.Evolves s') (h' : s'.Evolves s'') : s.Evolves s'' where
  flight := h'.flight.trans h.flight
  completing sym := (h'.completing sym).trans (h.completing sym)
  pending P hP := h'.pending P (h.pending P hP)
  blank sym symbol ty hsym hrunning hblank := by
    have hmap := h.completing sym
    rw [hsym, Option.map_some, Option.map_eq_some_iff] at hmap
    obtain ⟨symbol', hsym', hrunning'⟩ := hmap
    exact h'.blank sym symbol' ty hsym' (hrunning'.trans hrunning)
      (h.blank sym symbol ty hsym hrunning hblank)
  trace := by
    obtain ⟨new, htrace, hnew⟩ := h.trace
    obtain ⟨new', htrace', hnew'⟩ := h'.trace
    refine ⟨new' ++ new, by rw [htrace', htrace, List.append_assoc], ?_⟩
    exact List.forall_mem_append.2 ⟨hnew', hnew⟩

/-- What does not touch the store is an evolution if it notes no failure. -/
theorem Evolves.of_store_eq (hstore : s'.store = s.store) (new : List TraceEntry)
    (htrace : s'.trace = new ++ s.trace) (hnew : ∀ entry ∈ new, entry.succeeded) :
    s.Evolves s' where
  flight := by rw [hstore]
  completing _ := by rw [hstore]
  pending P hP := by rwa [hstore]
  blank _ _ _ _ _ hblank := by rwa [hstore]
  trace := ⟨new, htrace, hnew⟩

end Session

end RegionTypes

import RegionTypes.Proofs.Loading.Completers

/-!
# The store with every class defined

A store in which no class has been loaded is **prepared** for loading on demand if each class that is
still blank has a completer that will define it.  Such a store has a **reference**: the same types under
the same handles, with all signatures defined at once and nothing left to load.

* `Command.definition?`, `Store.promises` — what the pending completers will define.
* `Store.reference` — the store with all of that defined.
* `Store.Unloaded`, `Store.Loadable` — no class has been loaded; each completer will define the class of
  its symbol, and each blank class has one.  Both can be decided.
* `Store.Prepared` — such a store, with what holds of all stores that have grown out of a new one.
* `Store.Prepared.complete`, `Store.Prepared.lags` — **a prepared store lags behind its reference**,
  in which every question has its meaning.
* `Store.Prepared.define_run` — the commands at the ends of the completers, carried out one after
  the other, make the reference.
-/

namespace RegionTypes

open Run

/-! ### Promises -/

/-- The handle that a command refers to. -/
def TypeRef.handle? : TypeRef → Option TypeId
  | handle ty => some ty
  | named _ => none

/-- The class that a command defines, and its signature. -/
def Command.definition? : Command → Option (TypeId × ClassSignature)
  | defineClass (.handle ty) typeParams regionParams effectParams supertype interfaces => do
    let typeParams ← typeParams.mapM TypeRef.handle?
    let supertype ← supertype.mapM TypeRef.handle?
    let interfaces ← interfaces.mapM TypeRef.handle?
    return (ty, { typeParams, regionParams, effectParams, supertype, interfaces })
  | _ => none

theorem handles_of_mapM {refs : List TypeRef} {types : List TypeId}
    (h : refs.mapM TypeRef.handle? = some types) : refs = types.map .handle := by
  induction refs generalizing types with
  | nil =>
    obtain rfl := Option.some.inj h
    rfl
  | cons ref refs ih =>
    rw [List.mapM_cons] at h
    obtain ⟨ty, hty, h⟩ := Option.bind_eq_some_iff.1 h
    obtain ⟨rest, hrest, h⟩ := Option.bind_eq_some_iff.1 h
    obtain rfl := Option.some.inj h
    cases ref with
    | named => cases hty
    | handle =>
      obtain rfl := Option.some.inj hty
      rw [ih hrest, List.map_cons]

variable {ty : TypeId}

theorem Command.eq_of_definition? {command : Command} {sig : ClassSignature}
    (h : command.definition? = some (ty, sig)) : command = sig.command ty := by
  unfold definition? at h
  split at h
  · next ty' typeParams regionParams effectParams supertype interfaces =>
    obtain ⟨params, hparams, h⟩ := Option.bind_eq_some_iff.1 h
    obtain ⟨super, hsuper, h⟩ := Option.bind_eq_some_iff.1 h
    obtain ⟨inter, hinter, h⟩ := Option.bind_eq_some_iff.1 h
    obtain ⟨rfl, rfl⟩ := Prod.mk.inj (Option.some.inj h)
    have hsupertype : supertype = super.map .handle := by
      cases supertype with
      | none =>
        obtain rfl := Option.some.inj hsuper
        rfl
      | some ref =>
        cases ref with
        | named => cases hsuper
        | handle =>
          obtain rfl := Option.some.inj hsuper
          rfl
    rw [handles_of_mapM hparams, handles_of_mapM hinter, hsupertype]
    rfl
  · cases h

/-- What a completer defines at the end of its script. -/
def Completer.definition? (completer : Completer) : Option (TypeId × ClassSignature) :=
  completer.script.getLast?.bind fun step => step.2.definition?

theorem Completer.script_of_definition? {completer : Completer} {sig : ClassSignature}
    (h : completer.definition? = some (ty, sig)) :
    ∃ label, completer.script = completer.script.dropLast ++ [(label, sig.command ty)] := by
  obtain ⟨⟨label, command⟩, hlast, hcommand⟩ := Option.bind_eq_some_iff.1 h
  obtain rfl := Command.eq_of_definition? hcommand
  refine ⟨label, ?_⟩
  exact (List.dropLast_append_getLast? _ hlast).symm

variable {l : List (TypeId × ClassSignature)}

namespace Store

variable {s : Store} {ty : TypeId} {sym : SymbolId} {sig : ClassSignature}

/-- What the pending completer of a symbol will define. -/
def promise? (s : Store) (sym : SymbolId) : Option (TypeId × ClassSignature) :=
  (s.symbol? sym).bind fun y => y.completer.bind Completer.definition?

/-- What the pending completers will define, in the order of their symbols. -/
def promises (s : Store) : List (TypeId × ClassSignature) :=
  (List.range s.symbols.size).filterMap fun i => s.promise? ⟨i⟩

theorem mem_promises {p : TypeId × ClassSignature} :
    p ∈ s.promises ↔ ∃ sym, s.promise? sym = some p := by
  rw [promises, List.mem_filterMap]
  constructor
  · rintro ⟨i, -, hi⟩
    exact ⟨⟨i⟩, hi⟩
  · rintro ⟨⟨i⟩, hi⟩
    obtain ⟨y, hy, -⟩ := Option.bind_eq_some_iff.1 hi
    exact ⟨i, List.mem_range.2 (symbol_lt hy), hi⟩

/-! ### The reference -/

/-- The store with nothing left to load. -/
def withoutCompleters (s : Store) : Store :=
  { s with symbols := s.symbols.map fun y => { y with completer := none } }

/-- The store with several classes defined. -/
def defineAll (s : Store) (promises : List (TypeId × ClassSignature)) : Store :=
  promises.foldl (fun s p => s.updateClass p.1 (ClassInfo.define p.2)) s

/-- The store that a store would be if all its classes had been defined from the start. -/
def reference (s : Store) : Store := s.withoutCompleters.defineAll s.promises

theorem symbol?_defineAll (a : SymbolId) :
    (s.defineAll l).symbol? a = s.symbol? a := by
  induction l generalizing s with
  | nil => rfl
  | cons p l ih =>
    rw [defineAll, List.foldl_cons, ← defineAll, ih]
    rfl

theorem size_defineAll :
    (s.defineAll l).types.size = s.types.size ∧ (s.defineAll l).inFlight = s.inFlight := by
  induction l generalizing s with
  | nil => exact ⟨rfl, rfl⟩
  | cons p l ih =>
    rw [defineAll, List.foldl_cons, ← defineAll, ih.1, ih.2]
    exact ⟨Array.size_modify, rfl⟩

theorem type?_defineAll_of_notMem (h : ty ∉ l.map Prod.fst) :
    (s.defineAll l).type? ty = s.type? ty := by
  induction l generalizing s with
  | nil => rfl
  | cons p l ih =>
    rw [List.map_cons, List.mem_cons, not_or] at h
    rw [defineAll, List.foldl_cons, ← defineAll, ih h.2, type?_updateClass_of_ne (Ne.symm h.1)]

theorem type?_defineAll_of_mem {data : TypeData} (hl : (l.map Prod.fst).Nodup) (h : (ty, sig) ∈ l)
    (hdata : s.type? ty = some data) :
    (s.defineAll l).type? ty =
      some { data with kind := data.kind.mapClass (ClassInfo.define sig) } := by
  induction l generalizing s with
  | nil => exact absurd h List.not_mem_nil
  | cons p l ih =>
    rw [List.map_cons, List.nodup_cons] at hl
    rw [defineAll, List.foldl_cons, ← defineAll]
    obtain rfl | h := List.mem_cons.1 h
    · rw [type?_defineAll_of_notMem hl.1, type?_updateClass_self hdata]
    · have hne : p.1 ≠ ty := by
        rintro rfl
        exact hl.1 (List.mem_map.2 ⟨_, h, rfl⟩)
      exact ih hl.2 h (by rw [type?_updateClass_of_ne hne, hdata])

theorem has_reference : s.reference.Has ty ↔ s.Has ty := by
  rw [has_iff_lt, has_iff_lt, reference, size_defineAll.1]
  rfl

theorem symbol?_withoutCompleters (a : SymbolId) :
    s.withoutCompleters.symbol? a = (s.symbol? a).map fun y => { y with completer := none } := by
  rw [symbol?, withoutCompleters, Array.getElem?_map]
  rfl

theorem symbol?_reference (a : SymbolId) :
    s.reference.symbol? a = (s.symbol? a).map fun y => { y with completer := none } := by
  rw [reference, symbol?_defineAll, symbol?_withoutCompleters]

theorem Consistent.withoutCompleters (hs : s.Consistent) : s.withoutCompleters.Consistent := by
  refine hs.of_expands ⟨Nat.le_refl _, by simp [Store.withoutCompleters]⟩ (fun _ _ h => h)
    (fun _ _ h => .inl h) fun sym y hy => .inr ?_
  rw [symbol?_withoutCompleters] at hy
  obtain ⟨y', hy', rfl⟩ := Option.map_eq_some_iff.1 hy
  exact ⟨(hs.symbols sym y' hy').owner, (hs.symbols sym y' hy').canonical⟩

theorem Anchored.withoutCompleters (hs : s.Anchored) : s.withoutCompleters.Anchored where
  names ty data hdata sym hsym := by
    simpa [Store.withoutCompleters] using hs.names ty data hdata sym hsym
  mentions := hs.mentions
  unnamed := hs.unnamed
  canonical sym y ty hy htype := by
    rw [symbol?_withoutCompleters] at hy
    obtain ⟨y', hy', rfl⟩ := Option.map_eq_some_iff.1 hy
    exact hs.canonical sym y' ty hy' htype

theorem upholds_defineAll (h : ∀ p ∈ l, ∀ c ∈ p.2.typeParams, s.Has c) :
    s.Upholds (s.defineAll l) := by
  induction l generalizing s with
  | nil => exact refl_of Upholds s
  | cons p l ih =>
    rw [defineAll, List.foldl_cons, ← defineAll]
    have hdefine : s.Upholds (s.updateClass p.1 (ClassInfo.define p.2)) :=
      upholds_define (h p List.mem_cons_self)
    refine trans_of Upholds hdefine (ih fun q hq c hc => ?_)
    exact (expands_reviseType s p.1 _).has (h q (List.mem_cons_of_mem p hq) c hc)

end Store

/-! ### Prepared stores -/

instance (s : Store) (sym : SymbolId) (ty : TypeId) : Decidable (s.Blank sym ty) :=
  decidable_of_iff (∃ data ∈ s.type? ty, data.symbol = some sym ∧
    ∃ info ∈ data.kind.class?, info.declaration = .blank) <| by
    constructor
    · rintro ⟨data, hdata, hsym, info, hinfo, hblank⟩
      exact ⟨data, info, hdata, hsym, Kind.class?_eq_some.1 hinfo, hblank⟩
    · rintro ⟨data, info, hdata, hsym, hkind, hblank⟩
      exact ⟨data, hdata, hsym, info, Kind.class?_eq_some.2 hkind, hblank⟩

/-- A completer that will load its symbol: it asks questions about the store, and then it defines the
class of the symbol. -/
def Completer.WillLoad (s : Store) (b : Nat) (sym : SymbolId) (y : Symbol) (completer : Completer) :
    Prop :=
  ∃ p ∈ completer.definition?, y.type = some p.1 ∧ s.Blank sym p.1 ∧
    ∀ step ∈ completer.script.dropLast, step.2.isQuestion s.reference b

/-- Every completer will load its symbol, and every class that is still blank has a completer.  The
questions of the completers are nested at most `b` deep. -/
def Store.Loadable (s : Store) (b : Nat) : Prop :=
  ∀ i < s.symbols.size, ∀ y ∈ s.symbol? ⟨i⟩,
    (∀ completer ∈ y.completer, completer.WillLoad s b ⟨i⟩ y) ∧
      ∀ ty ∈ y.type, s.Blank ⟨i⟩ ty → y.completer.isSome

instance (s : Store) (b : Nat) (sym : SymbolId) (y : Symbol) (completer : Completer) :
    Decidable (completer.WillLoad s b sym y) :=
  inferInstanceAs (Decidable (∃ p ∈ completer.definition?, y.type = some p.1 ∧ s.Blank sym p.1 ∧
    ∀ step ∈ completer.script.dropLast, step.2.isQuestion s.reference b = true))

instance (s : Store) (b : Nat) : Decidable (s.Loadable b) :=
  inferInstanceAs (Decidable (∀ i < s.symbols.size, ∀ y ∈ s.symbol? ⟨i⟩,
    (∀ completer ∈ y.completer, completer.WillLoad s b ⟨i⟩ y) ∧
      ∀ ty ∈ y.type, s.Blank ⟨i⟩ ty → y.completer.isSome = true))

/-- A class as declared or as written at a use site: nothing is remembered yet. -/
def ClassInfo.isFresh (info : ClassInfo) : Bool :=
  info.resolvedRegions.isNone && info.allTypeParams.isNone && info.allRegionParams.isNone &&
    info.allEffectParams.isNone

instance (info : ClassInfo) : Decidable info.hasLists :=
  inferInstanceAs (Decidable (info.typeArgs.isSome ∧ info.regionArgs.isSome ∧ info.effectArgs.isSome))

/-- Nothing has been loaded, and nothing is being loaded: a class has its lists, or it is blank and
canonical.  When every class is defined, type parameters are variables; methods throw older types, and
no placeholder is solved. -/
structure Store.Unloaded (s : Store) : Prop where
  inFlight : s.inFlight = 0
  quiet : ∀ y ∈ s.symbols, y.completing = false
  classes : ∀ i < s.types.size, ∀ data ∈ s.type? ⟨i⟩, ∀ info ∈ data.kind.class?, info.isFresh ∧
    (info.hasLists ∨ info.declaration = .blank ∧ s.canonical? data.symbol = some ⟨i⟩)
  parameters : s.reference.DeclaresVariables
  thrown : s.reference.ThrowsOlder
  unsolved : s.reference.Unsolved

instance (s : Store) : Decidable s.Unloaded :=
  decidable_of_iff (s.inFlight = 0 ∧ (∀ y ∈ s.symbols, y.completing = false) ∧
    (∀ i < s.types.size, ∀ data ∈ s.type? ⟨i⟩, ∀ info ∈ data.kind.class?, info.isFresh ∧
      (info.hasLists ∨ info.declaration = .blank ∧ s.canonical? data.symbol = some ⟨i⟩)) ∧
    s.reference.DeclaresVariables ∧ s.reference.ThrowsOlder ∧ s.reference.Unsolved) <| by
    constructor
    · rintro ⟨hflight, hquiet, hclasses, hparams, hthrown, hunsolved⟩
      exact ⟨hflight, hquiet, hclasses, hparams, hthrown, hunsolved⟩
    · intro h
      exact ⟨h.inFlight, h.quiet, h.classes, h.parameters, h.thrown, h.unsolved⟩

/-- A store in which classes will be loaded on demand and none has been loaded yet. -/
structure Store.Prepared (s : Store) (b : Nat) : Prop extends s.Unloaded where
  consistent : s.Consistent
  anchored : s.Anchored
  loadable : s.Loadable b

variable {info : ClassInfo}

theorem ClassInfo.lags_of_isFresh {r : Store} {full : ClassInfo} (hfresh : info.isFresh)
    (houter : info.outer = full.outer)
    (hdecl : info.declaration = .blank ∨ info.declaration = full.declaration) :
    ClassInfo.Lags r ty full info := by
  have hnone : ∀ {β : Type} {o : Option β} {p : β → Prop}, o.isNone → ∀ a ∈ o, p a := by
    intro β o p ho a ha
    rw [Option.mem_def.1 ha] at ho
    cases ho
  simp only [ClassInfo.isFresh, Bool.and_eq_true] at hfresh
  obtain ⟨⟨⟨h₁, h₂⟩, h₃⟩, h₄⟩ := hfresh
  exact ⟨houter, hdecl, hnone h₁, hnone h₂, hnone h₃, hnone h₄⟩

theorem TypeData.lags_refl {r : Store} {data : TypeData}
    (hfresh : ∀ info, data.kind = .classType info → info.isFresh) :
    TypeData.Lags r ty data data := by
  obtain ⟨symbol, erased, literal, kind⟩ := data
  cases kind with
  | classType info => exact .classType (ClassInfo.lags_of_isFresh (hfresh info rfl) rfl (.inr rfl))
  | _ => exact .other rfl

theorem ClassInfo.declaration_ne_blank (h : info.typeArgs.isSome) :
    info.declaration ≠ .blank := by
  intro hblank
  rw [show info.typeArgs = none from congrArg Declaration.typeArgs hblank] at h
  cases h

/-! ### The records of the reference -/

namespace Store

variable {s : Store} {ty : TypeId} {data full : TypeData} {sym : SymbolId} {y : Symbol}
  {sig : ClassSignature}

/-- A record and what becomes of it in the reference. -/
inductive Completed (s : Store) (ty : TypeId) : TypeData → TypeData → Prop
  | kept {data : TypeData} (lists : ∀ info, data.kind = .classType info → info.hasLists) :
      Completed s ty data data
  | defined {sym : SymbolId} {erased : Bool} {literal : Option Literal} {info : ClassInfo}
      {sig : ClassSignature} (promise : s.promise? sym = some (ty, sig))
      (blank : info.declaration = .blank) :
      Completed s ty ⟨some sym, erased, literal, .classType info⟩
        ⟨some sym, erased, literal, .classType (info.define sig)⟩

namespace Prepared

section

variable {b : Nat} (hs : s.Prepared b)

include hs

theorem classType (h : s.type? ty = some data) (hkind : data.kind = .classType info) : info.isFresh ∧
    (info.hasLists ∨ info.declaration = .blank ∧ s.canonical? data.symbol = some ty) :=
  hs.classes ty.index (has_iff_lt.1 (has_iff.2 ⟨data, h⟩)) data h info (Kind.class?_eq_some.2 hkind)

theorem completer (h : s.symbol? sym = some y) :
    (∀ completer ∈ y.completer, completer.WillLoad s b sym y) ∧
      ∀ ty ∈ y.type, s.Blank sym ty → y.completer.isSome :=
  hs.loadable sym.index (symbol_lt h) y h

/-- A promise is made by a completer of the symbol, which is still blank. -/
theorem promise (h : s.promise? sym = some (ty, sig)) :
    ∃ y, s.symbol? sym = some y ∧ y.completer.isSome ∧ y.type = some ty ∧ s.Blank sym ty := by
  obtain ⟨y, hy, h⟩ := Option.bind_eq_some_iff.1 h
  obtain ⟨completer, hcompleter, hdefinition⟩ := Option.bind_eq_some_iff.1 h
  obtain ⟨p, hp, htype, hblank, -⟩ := (hs.completer hy).1 completer hcompleter
  obtain rfl := Option.mem_unique hdefinition hp
  exact ⟨y, hy, by rw [hcompleter]; rfl, htype, hblank⟩

theorem lists_or_promise (h : s.type? ty = some data) (hkind : data.kind = .classType info) :
    info.hasLists ∨ ∃ sym sig, data.symbol = some sym ∧ s.promise? sym = some (ty, sig) := by
  obtain hlists | ⟨hblank, hcanonical⟩ := (hs.classType h hkind).2
  · exact .inl hlists
  · obtain ⟨sym, hsym, hcanonical⟩ := Option.bind_eq_some_iff.1 hcanonical
    obtain ⟨y, hy, htype⟩ := Option.bind_eq_some_iff.1 hcanonical
    have hwaits := (hs.completer hy).2 ty htype ⟨data, info, h, hsym, hkind, hblank⟩
    obtain ⟨completer, hcompleter⟩ := Option.isSome_iff_exists.1 hwaits
    obtain ⟨⟨ty', sig⟩, hdefinition, htype', -⟩ := (hs.completer hy).1 completer hcompleter
    obtain rfl : ty = ty' := Option.mem_unique htype htype'
    refine .inr ⟨sym, sig, hsym, ?_⟩
    rw [promise?, hy, Option.bind_some, hcompleter]
    exact hdefinition

theorem nodup_promises : (s.promises.map Prod.fst).Nodup := by
  rw [promises, List.map_filterMap]
  refine List.nodup_range.filterMap fun i j ty hi hj => ?_
  obtain ⟨⟨ty, sig⟩, hsig, rfl⟩ := Option.map_eq_some_iff.1 hi
  obtain ⟨⟨ty', sig'⟩, hsig', rfl⟩ := Option.map_eq_some_iff.1 hj
  obtain ⟨-, -, -, -, hblank⟩ := hs.promise hsig
  obtain ⟨-, -, -, -, hblank'⟩ := hs.promise hsig'
  exact congrArg SymbolId.index (hblank.unique hblank')

/-- **The records of the reference.** -/
theorem type?_reference (h : s.type? ty = some data) :
    ∃ full, s.reference.type? ty = some full ∧ s.Completed ty data full := by
  by_cases hmem : ty ∈ s.promises.map Prod.fst
  · obtain ⟨⟨ty', sig⟩, hp, rfl⟩ := List.mem_map.1 hmem
    obtain ⟨sym, hsym⟩ := mem_promises.1 hp
    obtain ⟨-, -, -, -, data', info, hdata', hsymbol, hkind, hblank⟩ := hs.promise hsym
    obtain rfl := Option.mem_unique h hdata'
    refine ⟨_, type?_defineAll_of_mem hs.nodup_promises hp h, ?_⟩
    obtain ⟨symbol, erased, literal, kind⟩ := data
    obtain rfl : symbol = some sym := hsymbol
    obtain rfl : kind = .classType info := hkind
    exact .defined hsym hblank
  · refine ⟨data, (type?_defineAll_of_notMem hmem).trans h, .kept fun info hkind => ?_⟩
    obtain hlists | ⟨sym, sig, -, hp⟩ := hs.lists_or_promise h hkind
    · exact hlists
    · exact absurd (List.mem_map_of_mem (mem_promises.2 ⟨sym, hp⟩)) hmem

theorem of_type?_reference (h : s.reference.type? ty = some full) :
    ∃ data, s.type? ty = some data ∧ s.Completed ty data full := by
  obtain ⟨data, hdata⟩ := has_iff.1 (has_reference.1 (has_iff.2 ⟨full, h⟩))
  obtain ⟨full', hfull', hcompleted⟩ := hs.type?_reference hdata
  obtain rfl := Option.mem_unique h hfull'
  exact ⟨data, hdata, hcompleted⟩

theorem isFresh_reference (h : s.reference.type? ty = some full)
    (hkind : full.kind = .classType info) :
    info.isFresh := by
  obtain ⟨data, hdata, hcompleted⟩ := hs.of_type?_reference h
  cases hcompleted with
  | kept => exact (hs.classType hdata hkind).1
  | defined =>
    obtain rfl := Kind.classType.inj hkind
    exact (hs.classType hdata rfl).1

/-- A pending completer will define its class as it is in the reference. -/
theorem definition (h : s.promise? sym = some (ty, sig)) :
    ∃ (data : TypeData) (info : ClassInfo), s.reference.type? ty = some data ∧
      data.kind = .classType (info.define sig) := by
  obtain ⟨-, -, -, -, data, info, hdata, hsymbol, hkind, hblank⟩ := hs.promise h
  obtain ⟨full, hfull, hcompleted⟩ := hs.type?_reference hdata
  cases hcompleted with
  | kept hlists => exact absurd hblank (ClassInfo.declaration_ne_blank (hlists info hkind).1)
  | defined hpromise =>
    obtain rfl := Option.some.inj hsymbol
    obtain ⟨-, rfl⟩ := Prod.mk.inj (Option.mem_unique h hpromise)
    exact ⟨_, _, hfull, rfl⟩

theorem declares_reference (h : s.promise? sym = some (ty, sig)) : s.reference.Declares ty sig := by
  obtain ⟨data, info, hdata, hkind⟩ := hs.definition h
  exact ⟨data, _, hdata, hkind, rfl⟩

/-- The promised type parameters belong to the store, since they are variables in the reference. -/
theorem upholds_reference : s.withoutCompleters.Upholds s.reference := by
  refine upholds_defineAll fun p hp c hc => ?_
  obtain ⟨sym, hpromise⟩ := mem_promises.1 hp
  obtain ⟨data, info, hdata, hkind⟩ := hs.definition hpromise
  have hvar := hs.parameters data (mem_types hdata) c (by rw [hkind]; exact hc)
  obtain ⟨kind, hkind, -⟩ := Option.map_eq_some_iff.1 hvar
  obtain ⟨data', hdata', -⟩ := Option.map_eq_some_iff.1 hkind
  show s.Has c
  exact has_reference.1 (has_iff.2 ⟨data', hdata'⟩)

/-- **In the reference every class is defined and every descent ends.** -/
theorem complete : s.reference.Complete where
  consistent := (hs.upholds_reference hs.consistent.withoutCompleters).2
  anchored :=
    hs.anchored.withoutCompleters.of_develops (hs.upholds_reference hs.consistent.withoutCompleters).1
  pending y hy := by
    obtain ⟨i, hi⟩ := Array.mem_iff_getElem?.1 hy
    have hy' : s.reference.symbol? ⟨i⟩ = some y := hi
    rw [symbol?_reference] at hy'
    obtain ⟨_, -, rfl⟩ := Option.map_eq_some_iff.1 hy'
    rfl
  parameters := hs.parameters
  lists ty full info hfull hkind := by
    obtain ⟨data, hdata, hcompleted⟩ := hs.of_type?_reference hfull
    cases hcompleted with
    | kept hlists => exact hlists info hkind
    | defined =>
      obtain rfl := Kind.classType.inj hkind
      exact ⟨rfl, rfl, rfl⟩

/-! ### Lagging behind the reference -/

/-- **A prepared store lags behind its reference.** -/
theorem lags : s.reference.Lags b s where
  types ty full hfull := by
    obtain ⟨data, hdata, hcompleted⟩ := hs.of_type?_reference hfull
    refine ⟨data, hdata, ?_⟩
    cases hcompleted with
    | kept => exact TypeData.lags_refl fun info hkind => (hs.classType hdata hkind).1
    | defined hpromise hblank =>
      exact .classType (ClassInfo.lags_of_isFresh (hs.classType hdata rfl).1 rfl (.inl hblank))
  symbols a := by
    rw [symbol?_reference, Option.map_map]
    rfl
  waiting ty data info hdata hkind hblank := by
    obtain hlists | ⟨sym, sig, hsymbol, hpromise⟩ := hs.lists_or_promise hdata hkind
    · exact absurd hblank (ClassInfo.declaration_ne_blank hlists.1)
    · obtain ⟨y, hy, hcompleter, htype, -⟩ := hs.promise hpromise
      exact ⟨sym, y, hsymbol, hy, htype, .inl hcompleter⟩
  pending sym y completer hy hcompleter := by
    obtain ⟨⟨ty, sig⟩, hdefinition, htype, hblank, hquestions⟩ :=
      (hs.completer hy).1 completer hcompleter
    obtain ⟨label, hscript⟩ := Completer.script_of_definition? hdefinition
    have hpromise : s.promise? sym = some (ty, sig) := by
      rw [promise?, hy, Option.bind_some, hcompleter]
      exact hdefinition
    exact ⟨hs.quiet y (Array.mem_of_getElem? hy), ty, htype,
      ⟨_, label, sig, hscript, hquestions, hs.declares_reference hpromise⟩, hblank⟩
  idle _ sym y hy := hs.quiet y (Array.mem_of_getElem? hy)

/-- So does the reference itself: there is nothing left to load in it. -/
theorem reference_lags : s.reference.Lags b s.reference where
  types ty full hfull :=
    ⟨full, hfull, TypeData.lags_refl fun _ hkind => hs.isFresh_reference hfull hkind⟩
  symbols _ := rfl
  waiting ty full info hfull hkind hblank :=
    absurd hblank (ClassInfo.declaration_ne_blank (hs.complete.lists ty full info hfull hkind).1)
  pending sym y completer hy hcompleter := by
    rw [symbol?_reference] at hy
    obtain ⟨y', -, rfl⟩ := Option.map_eq_some_iff.1 hy
    cases hcompleter
  idle _ sym y hy := by
    rw [symbol?_reference] at hy
    obtain ⟨y', hy', rfl⟩ := Option.map_eq_some_iff.1 hy
    exact hs.quiet y' (Array.mem_of_getElem? hy')

end

end Prepared

end Store

/-! ### Making the reference -/

/-- The command that keeps a promise. -/
def definitionCommand (promise : TypeId × ClassSignature) : Command := promise.2.command promise.1

/-- Blank classes can be defined one after the other. -/
theorem define_all_run {d : Nat} (hl : (l.map Prod.fst).Nodup) :
    ∀ s : Session, (∀ p ∈ l, ∃ sym, s.store.Blank sym p.1) →
      (l.map definitionCommand).mapM (perform (d + 1)) s =
        .ok (l.map fun _ => .ok .nothing) { s with store := s.store.defineAll l } := by
  induction l with
  | nil => exact fun _ _ => rfl
  | cons p l ih =>
    intro s hblank
    rw [List.map_cons, List.nodup_cons] at hl
    obtain ⟨sym, hp⟩ := hblank p List.mem_cons_self
    rw [List.map_cons, List.mapM_cons, definitionCommand, bind_run (perform_define hp p.2 d)]
    refine bind_run (ih hl.2 _ fun q hq => ?_)
    obtain ⟨sym', hq'⟩ := hblank q (List.mem_cons_of_mem p hq)
    refine ⟨sym', hq'.define fun heq => hl.1 ?_⟩
    rw [heq]
    exact List.mem_map_of_mem hq

/-- **The commands at the ends of the completers make the reference** from the store without
completers. -/
theorem Store.Prepared.define_run {s : Session} {b d : Nat} (hs : s.store.Prepared b) :
    (s.store.promises.map definitionCommand).mapM (perform (d + 1))
        { s with store := s.store.withoutCompleters } =
      .ok (s.store.promises.map fun _ => .ok .nothing) { s with store := s.store.reference } := by
  refine define_all_run hs.nodup_promises _ fun p hp => ?_
  obtain ⟨sym, hpromise⟩ := Store.mem_promises.1 hp
  obtain ⟨-, -, -, -, hblank⟩ := hs.promise hpromise
  exact ⟨sym, hblank⟩

end RegionTypes

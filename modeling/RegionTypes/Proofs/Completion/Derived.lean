import RegionTypes.Proofs.Completion.Stable
import RegionTypes.Proofs.Store.Faults

/-!
# What derived lists are derived from

Four lists of a class type are worked out from other lists and kept.  What is kept while nothing is
being loaded follows from lists that the store holds and from the canonical types of symbols.

* `Derivation` — the four lists.
* `Derivation.Follows` — **the list follows from what the store holds**; what follows goes on to do so.
* `Store.Calm`, `Store.Enriched` — since some store nothing was allocated or declared, and all that was
  kept follows; or something was.
* `Policy`, `perform_observes` — a property of stores that is kept by all changes, and by keeping lists
  that follow, **is kept by every command**.
* `Store.calm`, `perform_calm` — so a command that declares nothing keeps only what follows.
-/

namespace RegionTypes

open Run Tie

/-- The lists of a class type that are worked out from others. -/
inductive Derivation : Type → Type 1
  | regions : Derivation Path
  | allTypes : Derivation TypeId
  | allRegions : Derivation Path
  | allEffects : Derivation Summary

namespace Derivation

variable {β γ : Type}

/-- The question that is answered with the list. -/
def listing : Derivation β → Listing β
  | regions => .regionArguments
  | allTypes => .allTypeParams
  | allRegions => .allRegionParams
  | allEffects => .allEffectParams

instance (d : Derivation β) : d.listing.Lawful := by
  cases d with
  | regions => exact inferInstanceAs Listing.regionArguments.Lawful
  | allTypes => exact inferInstanceAs Listing.allTypeParams.Lawful
  | allRegions => exact inferInstanceAs Listing.allRegionParams.Lawful
  | allEffects => exact inferInstanceAs Listing.allEffectParams.Lawful

/-- Where the list is kept. -/
abbrev slot (d : Derivation β) : Slot β := d.listing.slot

theorem slot_derived (d : Derivation β) : d.slot.Derived := by
  cases d with
  | regions => exact .resolvedRegions
  | allTypes => exact .allTypeParams
  | allRegions => exact .allRegionParams
  | allEffects => exact .allEffectParams

theorem same_or_untouched (d : Derivation β) (e : Derivation γ) :
    (⟨γ, e⟩ : (γ : Type) × Derivation γ) = ⟨β, d⟩ ∨
      ∀ list info, e.slot.read (d.slot.write list info) = e.slot.read info := by
  cases d <;> cases e <;>
    first
    | exact .inl rfl
    | exact .inr fun _ _ => rfl

/-- The region arguments of a class type: those that are given, or a root for each formal parameter of
its class. -/
inductive RegionsFollow (canonical : Option SymbolId → Option TypeId) (s : Store) (ty : TypeId) :
    List Path → Prop
  | given {data : TypeData} {declared : List Path} (hdata : s.type? ty = some data)
      (hdeclared : s.list? .regionArgs ty = some declared)
      (hgiven : (data.erased || !declared.isEmpty) = true) : RegionsFollow canonical s ty declared
  | own {data : TypeData} (hdata : s.type? ty = some data)
      (hdeclared : s.list? .regionArgs ty = some [])
      (hsymbol : ∀ sym, data.symbol = some sym → ∃ y, s.symbol? sym = some y)
      (hown : ∀ c, canonical data.symbol = some c → c = ty) : RegionsFollow canonical s ty []
  | omitted {data : TypeData} {c : TypeId} {formals : List Path} {depth : Nat}
      (hdata : s.type? ty = some data) (hdeclared : s.list? .regionArgs ty = some [])
      (herased : data.erased = false) (hcanonical : canonical data.symbol = some c) (hne : c ≠ ty)
      (hformals : s.held .regionArguments depth c = some formals) :
    RegionsFollow canonical s ty (List.replicate formals.length Path.root)

/-- **The list follows from what the store holds** and from the canonical types of symbols. -/
def Follows (canonical : Option SymbolId → Option TypeId) (s : Store) :
    Derivation β → TypeId → List β → Prop
  | regions, ty, list => RegionsFollow canonical s ty list
  | allTypes, ty, list => ∃ info own around depth, s.class? ty = some info ∧
      s.list? .typeArgs ty = some own ∧ s.held .allTypeParams depth info.outer = some around ∧
      list = around ++ own
  | allRegions, ty, list => ∃ info own around depth, s.class? ty = some info ∧
      s.list? .resolvedRegions ty = some own ∧
      s.held .allRegionParams depth info.outer = some around ∧ list = around ++ own
  | allEffects, ty, list => ∃ info own, s.class? ty = some info ∧
      s.list? .effectArgs ty = some own ∧
      (info.outer = ty ∧ list = own ∨ info.outer ≠ ty ∧ ∃ around depth,
        s.held .allEffectParams depth info.outer = some around ∧ list = around ++ own)

/-! ### Lists along the enclosing types -/

/-- The lists along the enclosing types. -/
def Accumulates : Derivation β → Prop
  | regions => False
  | allTypes | allRegions | allEffects => True

/-- The question for what a class type itself contributes. -/
def part : Derivation β → Listing β
  | regions => .regionArguments
  | allTypes => .typeArguments
  | allRegions => .regionArguments
  | allEffects => .effectArguments

instance (d : Derivation β) : d.part.Lawful := by
  cases d with
  | regions | allRegions => exact inferInstanceAs Listing.regionArguments.Lawful
  | allTypes => exact inferInstanceAs Listing.typeArguments.Lawful
  | allEffects => exact inferInstanceAs Listing.effectArguments.Lawful

/-- Whether the type around a class is passed over.  Only for effects it matters that a class encloses
itself. -/
def Alone : Derivation β → TypeId → TypeId → Prop
  | allEffects, outer, ty => outer = ty
  | regions, _, _ | allTypes, _, _ | allRegions, _, _ => False

instance (d : Derivation β) (outer ty : TypeId) : Decidable (d.Alone outer ty) :=
  match d with
  | allEffects => inferInstanceAs (Decidable (outer = ty))
  | regions | allTypes | allRegions => inferInstanceAs (Decidable False)

/-- How such a list is worked out for a class type: its own part comes after what is around. -/
def gather (d : Derivation β) (load : Loader) (depth : Nat) (ty outer : TypeId) : Run (List β) := do
  let own ← d.part.ask load (depth + 1) ty
  if d.Alone outer ty then remember d.slot ty own
  else
    let around ← d.listing.ask load depth outer
    remember d.slot ty (around ++ own)

variable {d : Derivation β} {ty outer : TypeId} {list : List β}

theorem Alone.eq (h : d.Alone outer ty) : outer = ty := by
  cases d with
  | allEffects => exact h
  | _ => cases h

theorem Accumulates.work_eq (hd : d.Accumulates) {load : Loader} {depth : Nat} {erased : Bool}
    {s : Session} {data : TypeData} {info : ClassInfo} (hdata : s.store.type? ty = some data)
    (hkind : data.kind = .classType info) :
    d.listing.work load depth ty data.symbol erased outer s = d.gather load depth ty outer s := by
  cases d with
  | regions => cases hd
  | allTypes =>
    have hown : RegionTypes.typeArguments load (depth + 1) ty s =
        declaredList load .typeArgs ty data.symbol s := by
      rw [RegionTypes.typeArguments, declaredArguments, bind_run (typeData_run hdata), hkind]
    exact bind_run_congr hown.symm fun own s' _ => rfl
  | allRegions | allEffects => rfl

theorem Accumulates.follows_iff (hd : d.Accumulates) {s : Store}
    {canonical : Option SymbolId → Option TypeId} :
    d.Follows canonical s ty list ↔ ∃ info own, s.class? ty = some info ∧
      s.list? d.part.slot ty = some own ∧ (d.Alone info.outer ty ∧ list = own ∨
        ¬ d.Alone info.outer ty ∧ ∃ around depth,
          s.held d.listing depth info.outer = some around ∧ list = around ++ own) := by
  cases d with
  | regions => cases hd
  | allTypes | allRegions =>
    constructor
    · rintro ⟨info, own, around, depth, hinfo, hown, haround, heq⟩
      exact ⟨info, own, hinfo, hown, .inr ⟨id, around, depth, haround, heq⟩⟩
    · rintro ⟨info, own, hinfo, hown, ⟨⟨⟩, -⟩ | ⟨-, around, depth, haround, heq⟩⟩
      exact ⟨info, own, around, depth, hinfo, hown, haround, heq⟩
  | allEffects => exact Iff.rfl

end Derivation

theorem Slot.Declared.kept {β : Type} {slot : Slot β} {a b : ClassInfo} (h : slot.Declared)
    (hab : a.Precedes b) : Kept (slot.read a) (slot.read b) := by
  cases h with
  | typeArgs => exact hab.typeArgs
  | regionArgs => exact hab.regionArgs
  | effectArgs => exact hab.effectArgs

namespace Store

variable {β : Type} {slot : Slot β} {s t : Store} {ty : TypeId} {list : List β}
  {canonical : Option SymbolId → Option TypeId} {d : Derivation β}

theorem list?_fill_self (s : Store) (d : Derivation β) (ty a : TypeId) (list : List β) :
    (s.setList d.slot ty list).list? d.slot a =
      if ty = a then (s.class? a).map fun _ => list else s.list? d.slot a := by
  rw [list?, list?, class?_mapClass]
  split
  · cases s.class? a with
    | none => rfl
    | some info => exact d.slot_derived.read_write list info
  · rfl

theorem list?_fill_of_untouched {γ : Type} {e : Derivation γ}
    (h : ∀ list info, e.slot.read (d.slot.write list info) = e.slot.read info) (a : TypeId) :
    (s.setList d.slot ty list).list? e.slot a = s.list? e.slot a := by
  rw [list?, list?, class?_mapClass]
  split
  · cases s.class? a with
    | none => rfl
    | some info => exact h list info
  · rfl

/-- After a list has been kept, what holds of it and held of all lists before holds of all lists. -/
theorem forall_list?_fill {Q : {γ : Type} → Derivation γ → TypeId → List γ → Prop} (hd : Q d ty list)
    (h : ∀ {γ : Type} (e : Derivation γ) a list, s.list? e.slot a = some list → Q e a list) {γ : Type}
    (e : Derivation γ) (a : TypeId) (list' : List γ)
    (hlist : (s.setList d.slot ty list).list? e.slot a = some list') :
    Q e a list' := by
  rcases d.same_or_untouched e with heq | huntouched
  · cases heq
    rw [list?_fill_self] at hlist
    split at hlist
    · next ha =>
      subst ha
      obtain ⟨info, -, rfl⟩ := Option.map_eq_some_iff.1 hlist
      exact hd
    · exact h d a list' hlist
  · rw [list?_fill_of_untouched huntouched] at hlist
    exact h e a list' hlist

theorem Precedes.list?_declared (h : s.Precedes t) (hslot : slot.Declared)
    (hlist : s.list? slot ty = some list) : t.list? slot ty = some list := by
  obtain ⟨info, hinfo, hread⟩ := Option.bind_eq_some_iff.1 hlist
  obtain ⟨info', hinfo', hlater⟩ := h.exists_class? hinfo
  rw [Store.list?, hinfo']
  exact hslot.kept hlater list hread

theorem Precedes.regionsFollow {list : List Path} (h : s.Precedes t)
    (hs : Derivation.RegionsFollow canonical s ty list) :
    Derivation.RegionsFollow canonical t ty list := by
  cases hs with
  | given hdata hdeclared hgiven =>
    obtain ⟨data', hdata', hlater⟩ := h.types ty _ hdata
    refine .given hdata' (h.list?_declared .regionArgs hdeclared) ?_
    rw [hlater.erased]
    exact hgiven
  | own hdata hdeclared hsymbol hown =>
    obtain ⟨data', hdata', hlater⟩ := h.types ty _ hdata
    refine .own hdata' (h.list?_declared .regionArgs hdeclared) (fun sym hsym => ?_) ?_
    · obtain ⟨y, hy⟩ := hsymbol sym (hlater.symbol.symm.trans hsym)
      obtain ⟨y', hy', _⟩ := h.symbols sym y hy
      exact ⟨y', hy'⟩
    · rw [hlater.symbol]
      exact hown
  | omitted hdata hdeclared herased hcanonical hne hformals =>
    obtain ⟨data', hdata', hlater⟩ := h.types ty _ hdata
    exact .omitted hdata' (h.list?_declared .regionArgs hdeclared) (hlater.erased.trans herased)
      (by rw [hlater.symbol]; exact hcanonical) hne (h.held hformals)

theorem Precedes.follows (h : s.Precedes t) (hs : d.Follows canonical s ty list) :
    d.Follows canonical t ty list := by
  by_cases hd : d.Accumulates
  · rw [hd.follows_iff] at hs ⊢
    obtain ⟨info, own, hinfo, hown, hrest⟩ := hs
    obtain ⟨info', hinfo', hlater⟩ := h.exists_class? hinfo
    refine ⟨info', own, hinfo', h.list? (q := d.part) hown, ?_⟩
    rw [hlater.outer]
    refine hrest.imp id fun ⟨hne, around, depth, haround, heq⟩ => ?_
    exact ⟨hne, around, depth, h.held haround, heq⟩
  · cases d with
    | regions => exact h.regionsFollow hs
    | _ => exact absurd trivial hd

theorem Precedes.size_le (h : s.Precedes t) : s.types.size ≤ t.types.size := by
  by_contra hlt
  have hty : s.Has ⟨t.types.size⟩ := has_iff_lt.2 (Nat.lt_of_not_le hlt)
  exact Nat.lt_irrefl _ (has_iff_lt.1 (h.has hty))

/-! ### Declarations -/

/-- A declared list that was unset is set. -/
def DeclaresMore (s t : Store) : Prop :=
  ∃ (β : Type) (slot : Slot β) (ty : TypeId) (list : List β),
    slot.Declared ∧ s.list? slot ty = none ∧ t.list? slot ty = some list

/-- The types are the same, and so are their declared lists and the canonical types of symbols. -/
structure SameDeclarations (s t : Store) : Prop where
  size : t.types.size = s.types.size
  canonical : ∀ symbol, t.canonical? symbol = s.canonical? symbol
  declared : ∀ {β : Type} (slot : Slot β), slot.Declared → ∀ ty, t.list? slot ty = s.list? slot ty

theorem DeclaresMore.precedes {u : Store} (h : s.DeclaresMore t) (htu : t.Precedes u) : s.DeclaresMore u := by
  obtain ⟨β, slot, ty, list, hslot, hunset, hset⟩ := h
  exact ⟨β, slot, ty, list, hslot, hunset, htu.list?_declared hslot hset⟩

namespace SameDeclarations

variable {u : Store}

protected theorem refl (s : Store) : s.SameDeclarations s := ⟨rfl, fun _ => rfl, fun _ _ _ => rfl⟩

protected theorem trans (h : s.SameDeclarations t) (h' : t.SameDeclarations u) :
    s.SameDeclarations u where
  size := h'.size.trans h.size
  canonical symbol := (h'.canonical symbol).trans (h.canonical symbol)
  declared slot hslot ty := (h'.declared slot hslot ty).trans (h.declared slot hslot ty)

end SameDeclarations

theorem canonical?_updateSymbol {sym : SymbolId} {f : Symbol → Symbol} (hf : ∀ y, (f y).type = y.type)
    (symbol : Option SymbolId) : (s.updateSymbol sym f).canonical? symbol = s.canonical? symbol := by
  cases symbol with
  | none => rfl
  | some a =>
    show ((s.updateSymbol sym f).symbol? a).bind Symbol.type = (s.symbol? a).bind Symbol.type
    rw [symbol?_updateSymbol]
    split
    · cases s.symbol? a with
      | none => rfl
      | some y => exact hf y
    · rfl

theorem canonical?_enterLoading (s : Store) (sym : SymbolId) (symbol : Option SymbolId) :
    (s.enterLoading sym).canonical? symbol = s.canonical? symbol := by
  show (s.updateSymbol sym fun y => { y with completing := true }).canonical? symbol = _
  rw [canonical?_updateSymbol]
  exact fun _ => rfl

theorem canonical?_stopLoading (s : Store) (sym : SymbolId) (symbol : Option SymbolId) :
    (s.stopLoading sym).canonical? symbol = s.canonical? symbol := by
  show (s.updateSymbol sym fun y => { y with completing := false }).canonical? symbol = _
  rw [canonical?_updateSymbol]
  exact fun _ => rfl

theorem canonical?_pushSymbol {y : Symbol} (hy : y.type = none) (symbol : Option SymbolId) :
    (s.pushSymbol y).canonical? symbol = s.canonical? symbol := by
  cases symbol with
  | none => rfl
  | some a =>
    show ((s.pushSymbol y).symbol? a).bind Symbol.type = (s.symbol? a).bind Symbol.type
    rw [symbol?_pushSymbol]
    split
    · next heq =>
      subst heq
      rw [symbol?_nextSymbol]
      exact hy
    · rfl

theorem size_reviseType (s : Store) (ty : TypeId) (f : Kind → Kind) :
    (s.reviseType ty f).types.size = s.types.size := by
  simp [reviseType, updateType]

/-- A change allocates a type, or supplies a declared list, or leaves all this alone. -/
theorem Permits.sameDeclarations {installs : Prop} {f : Store → Store} (hf : s.Permits installs f) :
    s.types.size < (f s).types.size ∨ s.DeclaresMore (f s) ∨ s.SameDeclarations (f s) := by
  have hsame : ∀ ty f, (∀ k : Kind, (f k).class? = k.class?) →
      s.SameDeclarations (s.reviseType ty f) := fun ty f hf =>
    ⟨size_reviseType s ty f, fun _ => rfl, fun slot _ a => by
      rw [Store.list?, Store.list?, class?_reviseType hf]⟩
  cases hf with
  | options => exact .inr (.inr ⟨rfl, fun _ => rfl, fun _ _ _ => rfl⟩)
  | declare =>
    exact .inr (.inr ⟨rfl, canonical?_pushSymbol rfl, fun _ _ _ => rfl⟩)
  | declareTyped | damage | allocate =>
    left
    show s.types.size < (s.types.push _).size
    rw [Array.size_push]
    exact Nat.lt_succ_self _
  | symbol sym f hf =>
    exact .inr (.inr ⟨rfl, canonical?_updateSymbol fun y => (hf y).1, fun _ _ _ => rfl⟩)
  | revise ty f hf => exact .inr (.inr (hsame ty f hf))
  | reviseBoth a b f hf =>
    refine .inr (.inr ⟨?_, fun _ => rfl, fun slot _ ty => ?_⟩)
    · rw [size_reviseType, size_reviseType]
    · rw [Store.list?, Store.list?, class?_reviseType hf, class?_reviseType hf]
  | cell ty =>
    refine .inr (.inr ⟨size_reviseType s ty _, fun _ => rfl, fun slot hslot a => ?_⟩)
    rw [Store.list?, Store.list?, class?_mapClass]
    split
    · cases s.class? a with
      | none => rfl
      | some => cases hslot <;> rfl
    · rfl
  | define ty sig data info hdata hkind htaken =>
    have hinfo : s.class? ty = some info := class?_eq_some.2 ⟨data, hdata, hkind⟩
    refine .inr (.inl ⟨_, .typeArgs, ty, sig.typeParams, .typeArgs, ?_, ?_⟩)
    · rw [Store.list?, hinfo]
      exact (ClassInfo.takenField?_eq_none.1 htaken).1
    · rw [Store.list?, class?_mapClass, if_pos rfl, hinfo]
      rfl
  | settle slot ty data info hslot hdata hkind hunset =>
    have hinfo : s.class? ty = some info := class?_eq_some.2 ⟨data, hdata, hkind⟩
    refine .inr (.inl ⟨_, slot, ty, [], hslot, ?_, list?_fill (hslot.read_write [] info) hinfo⟩)
    rw [Store.list?, hinfo]
    exact hunset

/-- A type was allocated, or a declared list supplied. -/
def Enriched (b s : Store) : Prop := b.types.size < s.types.size ∨ b.DeclaresMore s

theorem Enriched.precedes {u : Store} (h : s.Enriched t) (htu : t.Precedes u) : s.Enriched u :=
  h.imp (fun hsize => hsize.trans_le htu.size_le) fun hdeclares => hdeclares.precedes htu

/-- The same cannot be said of stores with the same declarations. -/
theorem SameDeclarations.not_enriched (h : s.SameDeclarations t) : ¬ s.Enriched t := by
  rintro (hsize | ⟨β, slot, ty, list, hslot, hunset, hset⟩)
  · rw [h.size] at hsize
    exact Nat.lt_irrefl _ hsize
  · rw [h.declared slot hslot, hunset] at hset
    cases hset

/-! ### Stores in which nothing was declared -/

/-- Nothing was declared, and what was kept follows from what the store holds. -/
structure Calm (b s : Store) : Prop where
  idle : s.inFlight = 0 → s.Idle
  same : b.SameDeclarations s
  derived : ∀ {β : Type} (d : Derivation β) ty list, s.list? d.slot ty = some list →
    b.list? d.slot ty = some list ∨ d.Follows b.canonical? s ty list

namespace Calm

variable {b : Store}

protected theorem refl (hidle : s.Idle) : s.Calm s :=
  ⟨fun _ => hidle, .refl _, fun _ _ _ h => .inl h⟩

theorem permits {installs : Prop} {f : Store → Store} (h : b.Calm s) (hf : s.Permits installs f)
    (hmoves : s.Precedes (f s)) : b.Enriched (f s) ∨ b.Calm (f s) := by
  rcases hf.sameDeclarations with henriched | ⟨β, slot, ty, list, hslot, hunset, hset⟩ | hsame
  · left
    left
    rw [← h.same.size]
    exact henriched
  · rw [h.same.declared slot hslot] at hunset
    exact .inl (.inr ⟨β, slot, ty, list, hslot, hunset, hset⟩)
  · right
    refine ⟨((Balanced.refl s).permits hf).idle_of_rest h.idle, h.same.trans hsame,
      fun d ty list hlist => ?_⟩
    rw [hf.list?_derived d.slot_derived] at hlist
    exact (h.derived d ty list hlist).imp id hmoves.follows

theorem remember (h : b.Calm s) (hlist : d.Follows b.canonical? s ty list)
    (hmoves : s.Precedes (s.setList d.slot ty list)) :
    b.Calm (s.setList d.slot ty list) where
  idle hrest := ⟨hrest, (h.idle hrest).completing⟩
  same := by
    refine ⟨(size_reviseType _ _ _).trans h.same.size, h.same.canonical, ?_⟩
    intro γ slot hslot a
    rw [← h.same.declared slot hslot, list?, list?, class?_mapClass]
    split
    · cases s.class? a with
      | none => rfl
      | some => cases d <;> cases hslot <;> rfl
    · rfl
  derived := forall_list?_fill (.inr (hmoves.follows hlist)) fun e a list' hlist' =>
    (h.derived e a list' hlist').imp id hmoves.follows

theorem enterLoading (h : b.Calm s) (sym : SymbolId) : b.Calm (s.enterLoading sym) where
  idle hrest := absurd hrest (Nat.succ_ne_zero _)
  same := ⟨h.same.size, fun symbol => (canonical?_enterLoading s sym symbol).trans (h.same.canonical symbol),
    h.same.declared⟩
  derived d ty list hlist := (h.derived d ty list hlist).imp id (s.later_enterLoading sym).precedes.follows

theorem stopLoading (h : b.Calm s) (sym : SymbolId)
    (hidle : (s.stopLoading sym).inFlight = 0 → (s.stopLoading sym).Idle) :
    b.Calm (s.stopLoading sym) where
  idle := hidle
  same := ⟨h.same.size, fun symbol => (canonical?_stopLoading s sym symbol).trans (h.same.canonical symbol),
    h.same.declared⟩
  derived d ty list hlist := (h.derived d ty list hlist).imp id (s.later_stopLoading sym).precedes.follows

end Calm

end Store

/-! ### Policies for what is kept -/

/-- What is to hold of every store of a run, and where lists that are kept have to follow: in which
stores, which lists of which types, and from which canonical types. -/
structure Policy where
  Holds : Store → Prop
  Rests : Store → Prop
  Tracks : Store → {β : Type} → Derivation β → TypeId → Prop
  canonical : Store → Option SymbolId → Option TypeId

/-- A policy that all operations observe, given that what is kept follows. -/
class Policy.Lawful (P : Policy) : Prop where
  change : ∀ {s : Store} {installs : Prop} {f : Store → Store}, P.Holds s → s.Permits installs f →
    s.Precedes (f s) → P.Holds (f s)
  keep : ∀ {s : Store} {β : Type} {d : Derivation β} {ty : TypeId} {list : List β}, P.Holds s →
    s.inFlight = 0 → (P.Rests s → P.Tracks s d ty → d.Follows (P.canonical s) s ty list) →
      s.Precedes (s.setList d.slot ty list) →
        P.Holds (s.setList d.slot ty list)
  enter : ∀ {s : Store} (sym : SymbolId), P.Holds s → P.Holds (s.enterLoading sym)
  stop : ∀ {s s' : Store} (sym : SymbolId), P.Holds s → P.Holds s' →
    s.Precedes (s'.stopLoading sym) → s.Balanced (s'.stopLoading sym) → P.Holds (s'.stopLoading sym)
  idle : ∀ {s : Store}, P.Rests s → s.Idle
  /-- What rests in the end rested before. -/
  before : ∀ {s s' : Store}, P.Holds s → s.Precedes s' → s.Balanced s' → P.Rests s' → P.Rests s
  canonical : ∀ {s : Store} {ty : TypeId} {data : TypeData}, P.Rests s → P.Tracks s .regions ty →
    s.type? ty = some data → P.canonical s data.symbol = s.canonical? data.symbol
  /-- What was the canonical type before is so in the end. -/
  lasts : ∀ {s s' : Store} {ty c : TypeId} {data : TypeData}, P.Holds s → s.Precedes s' →
    s.Balanced s' → P.Rests s' → P.Tracks s' .regions ty → s'.type? ty = some data →
      s.canonical? data.symbol = some c → P.canonical s' data.symbol = some c

/-- One run that observes a policy. -/
def Policy.tie (P : Policy) : Tie where
  Moves := Store.Later
  Holds s t := t.store = s.store ∧ t.names = s.names ∧ t.audience = s.audience ∧ P.Holds s.store
  Ends _ _ := True
  Void _ := False
  Lax := False
  Installs := True

variable {P : Policy} [P.Lawful] {s t : Session} {load : Loader}

instance : P.tie.Begins Outcome.Agrees where
  preorder := inferInstanceAs (IsPreorder Store Store.Later)
  void _ := id
  twin h := ⟨by rw [h.1]; exact .refl _, h.2.1, h.2.2.1⟩
  ends _ := trivial
  log _ h := h
  agrees h := h
  stepped _ h := h
  ended _ _ h := h
  began _ h := h
  names _ h := ⟨h.1, rfl, h.2.2⟩
  change h hf hs _ :=
    ⟨by rw [h.1], h.2.1, h.2.2.1, Policy.Lawful.change h.2.2.2 hf (Store.Later.precedes hs)⟩
  owns _ hmoves := (Store.Later.precedes hmoves).owns

/-- Loading a class.  While its completer runs nothing is kept. -/
theorem completerLoader_observes {depth : Nat}
    (h : ∀ command, P.tie.KeepsBy Outcome.Agrees (perform depth command)) (sym : SymbolId) :
    P.tie.Keeps (completerLoader depth sym) := by
  have hkeeps : ∀ completer : Completer, P.tie.Keeps (completer.run (perform depth) sym) :=
    fun completer => Completer.run_keeps (fun step _ => h step.2) sym
  refine completeSymbol_keeps (fun _ _ hroutine => .single (.routine hroutine))
    (fun completer => ⟨(hkeeps completer).along, (hkeeps completer).along⟩)
    fun completer s t y hst hy => ?_
  have henter : P.tie.Holds (s.entering sym) (t.entering sym) := by
    refine ⟨?_, hst.2.1, hst.2.2.1, Policy.Lawful.enter sym hst.2.2.2⟩
    show t.store.enterLoading sym = s.store.enterLoading sym
    rw [hst.1]
  refine whileLoading_inStep hst hy ((hkeeps completer).inStep _ _ henter)
    (Store.Later.precedes ((hkeeps completer).along _)) (fun result s' t' hrun hst' => ?_)
    (fun _ _ _ => trivial) (fun _ h => h.elim) id
  refine ⟨?_, hst'.2.1, hst'.2.2.1, ?_⟩
  · show t'.store.stopLoading sym = s'.store.stopLoading sym
    rw [hst'.1]
  · have hframe : (s.entering sym).frame.Keeps (completer.run (perform depth) sym) :=
      Completer.run_keeps (fun step _ => perform_frame depth step.2 _) sym
    have hrun' : (s.store.enterLoading sym).Later s'.store := (hkeeps completer).along.of_ok hrun
    exact Policy.Lawful.stop sym hst.2.2.2 hst'.2.2.2
      (((s.store.later_enterLoading sym).precedes.trans hrun'.precedes).trans
        (s'.store.later_stopLoading sym).precedes)
      ((Store.Balanced.refl s.store).loading (hframe.balanced hrun))

theorem Policy.rests_of_run {α : Type} {a : α} {V : α → α → Prop} {action : Run α} {s' : Session}
    (h : P.Rests s'.store) (hst : P.tie.Holds s t) (hkeeps : s.frame.KeepsBy V action)
    (hrun : action s = .ok a s') : P.Rests s.store := by
  obtain ⟨_, -, hframe⟩ := hkeeps.frame
  rw [after_of_ok hrun] at hframe
  exact Policy.Lawful.before hst.2.2.2 hframe.precedes (hkeeps.balanced hrun) h

/-! ### Questions -/

section Questions

variable {β : Type} {d : Derivation β} {ty : TypeId} {info : ClassInfo} {list : List β}

theorem remember_run {slot : Slot β} (hinfo : s.store.class? ty = some info) :
    remember slot ty list s =
      if s.store.inFlight = 0 then
        match slot.read info with
        | some kept => .ok kept s
        | none => .ok list (s.setList slot ty list)
      else .ok list s := by
  obtain ⟨data, hdata, hkind⟩ := Store.class?_eq_some.1 hinfo
  rw [remember, bind_run (get_run s)]
  split
  · rw [bind_run (Slot.current_bind_read hdata), hkind]
    show (match slot.read info with
      | some kept => pure kept
      | none => do slot.fill ty list; return list : Run (List β)) s = _
    cases slot.read info <;> rfl
  · rfl

theorem Store.later_remember {s : Store} (hinfo : s.class? ty = some info)
    (hunset : d.slot.read info = none) (hrest : s.inFlight = 0) :
    s.Later (s.setList d.slot ty list) := by
  refine .single (.routine (.revise ty _ fun data hdata => ?_))
  obtain ⟨data', hdata', hkind⟩ := class?_eq_some.1 hinfo
  obtain rfl : data' = data := Option.mem_unique hdata' hdata
  rw [hkind]
  exact .remember d.slot info list d.slot_derived hunset hrest

theorem remember_observes (hst : P.tie.Holds s t) (hinfo : s.store.class? ty = some info)
    (hlist : P.Rests s.store → P.Tracks s.store d ty →
      d.Follows (P.canonical s.store) s.store ty list) :
    P.tie.InStep Eq (remember d.slot ty list) (remember d.slot ty list) s t := by
  obtain ⟨hstore, hnames, haudience, hholds⟩ := id hst
  have hinfo' : t.store.class? ty = some info := by rw [hstore, hinfo]
  unfold InStep
  rw [remember_run hinfo, remember_run hinfo', hstore]
  by_cases hrest : s.store.inFlight = 0
  · rw [if_pos hrest, if_pos hrest]
    cases hunset : d.slot.read info with
    | some => exact .inr ⟨rfl, hst⟩
    | none =>
      have hlater : s.store.Later (s.store.setList d.slot ty list) :=
        Store.later_remember hinfo hunset hrest
      exact .inr ⟨rfl, congrArg (Store.setList · _ _ _) hstore, hnames, haudience,
        Policy.Lawful.keep hholds hrest hlist hlater.precedes⟩
  · rw [if_neg hrest, if_neg hrest]
    exact .inr ⟨rfl, hst⟩

/-- Asking follows the plan of the question: what is left to be shown is how the list is worked out. -/
theorem ask_observes {q : Listing β} [q.Lawful] {depth : Nat}
    (halong : Along Store.Later (q.ask load (depth + 1) ty))
    (hinstead : ∀ ty, P.tie.Keeps (q.ask load depth ty))
    (hwork : ∀ s t data info, P.tie.Holds s t → s.store.type? ty = some data →
      data.kind = .classType info →
        P.tie.InStep Eq (q.work load depth ty data.symbol data.erased info.outer)
          (q.work load depth ty data.symbol data.erased info.outer) s t) :
    P.tie.Keeps (q.ask load (depth + 1) ty) := by
  refine keepsBy_of halong fun s t hst => ?_
  rw [Listing.Lawful.succ]
  refine inStep_typeData hst (fun data data' hdata hdata' => ?_) fun data hdata => ?_
  · rw [hst.1, hdata] at hdata'
    rw [Option.some.inj hdata']
  · cases hclass : data.kind.class? with
    | none =>
      cases q.other data.kind with
      | inl => exact inStep_pure hst rfl
      | inr instead => exact (hinstead instead).inStep s t hst
    | some info =>
      have hworked := hwork s t data info hst hdata (Kind.class?_eq_some.1 hclass)
      cases hslot : q.slot.read info with
      | some =>
        simp only [hslot]
        exact inStep_pure hst rfl
      | none =>
        simp only [hslot]
        exact hworked

theorem Loader.Asks.derivation {T : Tie} (h : load.Asks load T) (d : Derivation β) (depth : Nat)
    (ty : TypeId) : T.Keeps (d.listing.ask load depth ty) := by
  cases d with
  | regions => exact h.regionArguments depth ty
  | allTypes => exact h.allTypeParams depth ty
  | allRegions => exact h.allRegionParams depth ty
  | allEffects => exact h.allEffectParams depth ty

variable {n : Nat} (hload : (completerLoader n).Tied (completerLoader n) P.tie)

include hload

theorem regionArguments_observes (depth : Nat) (ty : TypeId) :
    P.tie.Keeps (regionArguments (completerLoader n) depth ty) := by
  have hlater := completerLoader_later n
  induction depth generalizing ty with
  | zero => exact keeps_tooDeep
  | succ depth ih =>
    refine ask_observes (q := .regionArguments) (hlater.keeps.regionArguments _ _).along ih ?_
    intro s t data info hst hdata hkind
    have hinfo : s.store.class? ty = some info := Store.class?_eq_some.2 ⟨data, hdata, hkind⟩
    have hlist := declaredList_keeps hload .regionArgs ty data.symbol
    refine inStep_bind_of_not_void (fun _ => id)
      (inStep_of_owning hlist hst ⟨data, hdata, rfl⟩) ?_
    rintro declared _ s₁ t₁ rfl hrun₁ hst₁
    have hlater₁ : s.store.Later s₁.store := hlist.along.of_ok hrun₁
    obtain ⟨data₁, hdata₁, hsame₁⟩ := hlater₁.precedes.types ty data hdata
    obtain ⟨info₁, hinfo₁, _⟩ := hlater₁.precedes.exists_class? hinfo
    have hdeclared : s₁.store.Idle → s₁.store.list? .regionArgs ty = some declared :=
      fun hidle₁ => declaredList_fills (completerLoader_later n) .regionArgs ty _ _ _ _ ⟨info, hinfo⟩
        hidle₁ hrun₁
    by_cases hgiven : (data.erased || !declared.isEmpty) = true
    · rw [if_pos hgiven]
      refine remember_observes (d := .regions) hst₁ hinfo₁ fun hrests _ => ?_
      exact .given hdata₁ (hdeclared (Policy.Lawful.idle hrests)) (by rw [hsame₁.erased]; exact hgiven)
    · rw [if_neg hgiven]
      obtain ⟨herased, rfl⟩ : data.erased = false ∧ declared = [] := by
        simpa using hgiven
      refine inStep_bind_of_not_void (fun _ => id)
        ((canonicalType_keeps data.symbol).inStep s₁ t₁ hst₁) ?_
      rintro canonical _ s₂ t₂ rfl hrun₂ hst₂
      obtain ⟨rfl, hcanonical⟩ := eq_of_canonicalType hrun₂
      have hcanonical' : P.Rests s₂.store → P.Tracks s₂.store .regions ty →
          P.canonical s₂.store data₁.symbol = canonical := fun hrests htracks => by
        rw [Policy.Lawful.canonical hrests htracks hdata₁, hsame₁.symbol, hcanonical]
      have hsymbol : ∀ sym, data₁.symbol = some sym → ∃ y, s₂.store.symbol? sym = some y := by
        intro sym hsym
        rw [hsame₁.symbol] at hsym
        rw [hsym] at hrun₂
        obtain ⟨y, u, hread, _⟩ := exists_of_bind hrun₂
        exact ⟨y, (eq_of_symbolData hread).2⟩
      cases canonical with
      | none =>
        refine remember_observes (d := .regions) hst₂ hinfo₁ fun hrests htracks => ?_
        refine .own hdata₁ (hdeclared (Policy.Lawful.idle hrests)) hsymbol fun c hc => ?_
        rw [hcanonical' hrests htracks] at hc
        cases hc
      | some c =>
        by_cases hc : c = ty
        · simp only [if_pos hc]
          refine remember_observes (d := .regions) hst₂ hinfo₁ fun hrests htracks => ?_
          refine .own hdata₁ (hdeclared (Policy.Lawful.idle hrests)) hsymbol fun c' hc' => ?_
          rw [hcanonical' hrests htracks] at hc'
          exact (Option.some.inj hc').symm.trans hc
        · simp only [if_neg hc]
          refine inStep_bind_of_not_void (fun _ => id) ((ih c).inStep s₂ t₂ hst₂) ?_
          rintro formals _ s₃ t₃ rfl hrun₃ hst₃
          have hlater₃ : s₂.store.Later s₃.store := (ih c).along.of_ok hrun₃
          obtain ⟨data₃, hdata₃, hsame₃⟩ := hlater₃.precedes.types ty data₁ hdata₁
          obtain ⟨info₃, hinfo₃, _⟩ := hlater₃.precedes.exists_class? hinfo₁
          refine remember_observes (d := .regions) hst₃ hinfo₃ fun hrests htracks => ?_
          have hframe := (completerLoader_framed n s₂).regionArguments depth c
          have hrests₂ := Policy.rests_of_run hrests hst₂ hframe hrun₃
          refine .omitted hdata₃
            (hlater₃.precedes.list?_declared .regionArgs (hdeclared (Policy.Lawful.idle hrests₂)))
            ((hsame₃.erased.trans hsame₁.erased).trans herased) ?_ hc
            (Listing.regionArguments.held_of_ask hlater hrun₃ (Policy.Lawful.idle hrests))
          refine Policy.Lawful.lasts hst₂.2.2.2 hlater₃.precedes (hframe.balanced hrun₃) hrests htracks
            hdata₃ ?_
          rw [hsame₃.symbol, hsame₁.symbol, hcanonical]

theorem part_observes (d : Derivation β) (depth : Nat) (ty : TypeId) :
    P.tie.Keeps (d.part.ask (completerLoader n) depth ty) := by
  cases d with
  | regions | allRegions => exact regionArguments_observes hload depth ty
  | allTypes => exact typeArguments_keeps hload depth ty
  | allEffects => exact effectArguments_keeps hload depth ty

/-- A list along the enclosing types.  What is around is worked out after the class's own part, which is
then still there. -/
theorem Derivation.Accumulates.observes (hd : d.Accumulates) (depth : Nat) (ty : TypeId) :
    P.tie.Keeps (d.listing.ask (completerLoader n) depth ty) := by
  have hlater := completerLoader_later n
  induction depth generalizing ty with
  | zero =>
    rw [Listing.Lawful.zero]
    exact keeps_tooDeep
  | succ depth ih =>
    refine ask_observes (Listing.Lawful.later hlater _ _) ih ?_
    intro s t data info hst hdata hkind
    have hinfo : s.store.class? ty = some info := Store.class?_eq_some.2 ⟨data, hdata, hkind⟩
    have hdata' : t.store.type? ty = some data := by rw [hst.1, hdata]
    refine inStep_congr (hd.work_eq hdata hkind) (hd.work_eq hdata' hkind) ?_
    refine inStep_bind_of_not_void (fun _ => id)
      ((part_observes hload d (depth + 1) ty).inStep s t hst) ?_
    rintro own _ s₁ t₁ rfl hrun₁ hst₁
    have hlater₁ : s.store.Later s₁.store := (Listing.Lawful.later hlater _ _).of_ok hrun₁
    obtain ⟨info₁, hinfo₁, hsame₁⟩ := hlater₁.precedes.exists_class? hinfo
    have hown (hidle : s₁.store.Idle) : s₁.store.list? d.part.slot ty = some own :=
      Listing.list?_of_ask hlater depth hrun₁ hidle hinfo₁
    split
    · next halone =>
      refine remember_observes hst₁ hinfo₁ fun hrests _ => hd.follows_iff.2 ?_
      exact ⟨info₁, own, hinfo₁, hown (Policy.Lawful.idle hrests),
        .inl ⟨by rwa [hsame₁.outer], rfl⟩⟩
    · next halone =>
      refine inStep_bind_of_not_void (fun _ => id) ((ih info.outer).inStep s₁ t₁ hst₁) ?_
      rintro around _ s₂ t₂ rfl hrun₂ hst₂
      have hlater₂ : s₁.store.Later s₂.store := (ih info.outer).along.of_ok hrun₂
      obtain ⟨info₂, hinfo₂, hsame₂⟩ := hlater₂.precedes.exists_class? hinfo₁
      have houter : info₂.outer = info.outer := hsame₂.outer.trans hsame₁.outer
      refine remember_observes hst₂ hinfo₂ fun hrests _ => hd.follows_iff.2 ?_
      have hrests₁ := Policy.rests_of_run hrests hst₁
        ((completerLoader_framed n s₁).derivation d depth _) hrun₂
      refine ⟨info₂, own, hinfo₂,
        hlater₂.precedes.list? (q := d.part) (hown (Policy.Lawful.idle hrests₁)),
        .inr ⟨by rwa [houter], around, depth, ?_, rfl⟩⟩
      rw [houter]
      exact Listing.held_of_ask hlater hrun₂ (Policy.Lawful.idle hrests)

end Questions

/-- **Every command** observes the policy. -/
theorem perform_observes (depth : Nat) (command : Command) :
    P.tie.KeepsBy Outcome.Agrees (perform depth command) := by
  induction depth generalizing command with
  | zero => exact (keeps_tooDeep (T := P.tie)).imp fun _ _ hab => by rw [hab, Outcome.Agrees]
  | succ depth ih =>
    have htied : (completerLoader depth).Tied (completerLoader depth) P.tie :=
      ⟨fun _ _ h => .single (.routine h.routine), completerLoader_observes ih⟩
    have hload : (completerLoader depth).Keeps (completerLoader depth) P.tie :=
      { toTied := htied
        regionArguments := regionArguments_observes htied
        allTypeParams := Derivation.Accumulates.observes htied (d := .allTypes) trivial
        allRegionParams := Derivation.Accumulates.observes htied (d := .allRegions) trivial
        allEffectParams := Derivation.Accumulates.observes htied (d := .allEffects) trivial
        routine := fun _ _ h => .single (.routine h) }
    exact execute_keeps hload depth command (fun _ _ h => .single h.change) fun _ => trivial

/-! ### The policy of calm stores -/

/-- One run from a store, with what is kept as long as nothing is declared. -/
def Store.calm (b : Store) : Tie where
  Moves := Store.Later
  Holds s t := t.store = s.store ∧ t.names = s.names ∧ t.audience = s.audience ∧
    (b.Enriched s.store ∨ b.Calm s.store)
  Ends _ _ := True
  Void _ := False
  Lax := False
  Installs := True

/-- Nothing was declared and what was kept follows, or something was declared. -/
def Store.calmPolicy (b : Store) : Policy where
  Holds s := b.Enriched s ∨ b.Calm s
  Rests s := b.Calm s ∧ s.Idle
  Tracks _ _ _ _ := True
  canonical _ := b.canonical?

/-- Before a calm store, nothing had been declared. -/
theorem Store.calm_of_precedes {b s t : Store} (h : b.Enriched s ∨ b.Calm s) (hst : s.Precedes t)
    (ht : b.Calm t) : b.Calm s :=
  h.resolve_left fun henriched => ht.same.not_enriched (henriched.precedes hst)

instance (b : Store) : b.calmPolicy.Lawful where
  change h hf hmoves := h.elim (fun henriched => .inl (henriched.precedes hmoves))
    fun hcalm => hcalm.permits hf hmoves
  keep h hrest hlist hmoves := h.imp (fun henriched => henriched.precedes hmoves)
    fun hcalm => hcalm.remember (hlist ⟨hcalm, hcalm.idle hrest⟩ trivial) hmoves
  enter {s} sym h := h.imp (fun henriched => henriched.precedes (s.later_enterLoading sym).precedes)
    fun hcalm => hcalm.enterLoading sym
  stop {s s'} sym h h' hmoves hbalanced := by
    rcases h with henriched | hcalm
    · exact .inl (henriched.precedes hmoves)
    · refine h'.imp (fun henriched => henriched.precedes (s'.later_stopLoading sym).precedes)
        fun hcalm' => hcalm'.stopLoading sym fun hrest => ?_
      rw [hbalanced.inFlight] at hrest
      exact hbalanced.idle (hcalm.idle hrest)
  idle h := h.2
  before h hmoves hbalanced hrests := by
    have hcalm := Store.calm_of_precedes h hmoves hrests.1
    exact ⟨hcalm, hcalm.idle (hbalanced.inFlight.symm.trans hrests.2.inFlight)⟩
  canonical hrests _ _ := (hrests.1.same.canonical _).symm
  lasts h hmoves _ hrests _ _ hcanonical := by
    have hcalm := Store.calm_of_precedes h hmoves hrests.1
    exact (hcalm.same.canonical _).symm.trans hcanonical

/-- **Every command** keeps only what follows, unless it declares something. -/
theorem perform_calm {b : Store} (depth : Nat) (command : Command) :
    b.calm.KeepsBy Outcome.Agrees (perform depth command) :=
  perform_observes (P := b.calmPolicy) depth command

end RegionTypes

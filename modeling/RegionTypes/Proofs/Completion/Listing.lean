import RegionTypes.Proofs.Completion.Frame

/-!
# Questions that are answered with a list

Six questions are answered with a list.  They follow one plan: a class type keeps the answer in one of
its slots once it has been worked out; for any other type the answer is part of the type, or another
type is asked instead.

* `Listing` — such a question, with the slot and with what is answered for other types.
* `Store.held` — the answer that is kept in the store.
* `Store.Idle` — no completer is running.
* `Listing.Lawful` — what the six questions have in common.
* `Listing.ask_of_held` — **what is held is answered** at once.
* `Listing.held_of_ask` — **what is answered is held**, unless a completer is running.
* `Store.Precedes.held` — what is held stays.
-/

namespace RegionTypes

open Run

/-- A question that is answered with a list. -/
structure Listing (β : Type) where
  ask : Loader → Nat → TypeId → Run (List β)
  /-- Where a class type keeps the answer. -/
  slot : Slot β
  /-- How the answer is worked out for a class type, from its symbol, from whether it is erased, and
  from the type around it. -/
  work : Loader → Nat → TypeId → Option SymbolId → Bool → TypeId → Run (List β)
  /-- The answer for any other type, or the type that is asked instead. -/
  other : Kind → List β ⊕ TypeId

variable {info : ClassInfo}

namespace Store

variable {β : Type} {s t : Store} {ty : TypeId}

/-- The answer that is kept in the store. -/
def held (s : Store) (q : Listing β) : Nat → TypeId → Option (List β)
  | 0, _ => none
  | depth + 1, ty => (s.kind? ty).bind fun kind =>
    match kind.class? with
    | some info => q.slot.read info
    | none =>
      match q.other kind with
      | .inl list => some list
      | .inr ty' => s.held q depth ty'

/-- No completer is running. -/
structure Idle (s : Store) : Prop where
  inFlight : s.inFlight = 0
  completing : ∀ sym, ¬ s.IsCompleting sym

end Store

variable {β : Type} {slot : Slot β} {ty : TypeId} {s s' : Session} {load : Loader} {list : List β}

/-! ### Computations that fill a slot -/

/-- Where no completer is running afterwards, the class type keeps what the computation returns. -/
def Run.Fills (slot : Slot β) (ty : TypeId) (action : Run (List β)) : Prop :=
  ∀ s list s', (∃ info, s.store.class? ty = some info) → s'.store.Idle →
    action s = .ok list s' → s'.store.list? slot ty = some list

theorem Run.fills_of_bind {α : Type} {action : Run α} {next : α → Run (List β)}
    (h : Along Store.Later action) (hnext : ∀ a, Fills slot ty (next a)) :
    Fills slot ty (action >>= next) := by
  rintro s list s' ⟨info, hinfo⟩ hidle hrun
  obtain ⟨a, t, hfirst, hrest⟩ := exists_of_bind hrun
  have hlater : s.store.Later t.store := h.of_ok hfirst
  obtain ⟨info', hinfo', _⟩ := hlater.precedes.exists_class? hinfo
  exact hnext a t list s' ⟨info', hinfo'⟩ hidle hrest

theorem Slot.Derived.read_write (h : slot.Derived) (list : List β) (info : ClassInfo) :
    slot.read (slot.write list info) = some list := by
  cases h <;> rfl

theorem Slot.Declared.read_write (h : slot.Declared) (list : List β) (info : ClassInfo) :
    slot.read (slot.write list info) = some list := by
  cases h <;> rfl

theorem Slot.list?_of_current {held : Option (List β)} (h : slot.current ty s = .ok held s') :
    s' = s ∧ s.store.list? slot ty = held := by
  obtain ⟨rfl, data, hdata, hheld⟩ := Slot.eq_of_current h
  refine ⟨rfl, ?_⟩
  rw [Store.list?, Store.class?, Store.kind?, hdata]
  exact hheld

theorem Store.list?_fill {s : Store} (hslot : slot.read (slot.write list info) = some list)
    (hinfo : s.class? ty = some info) :
    (s.setList slot ty list).list? slot ty = some list := by
  rw [list?, class?_mapClass, if_pos rfl, hinfo]
  exact hslot

theorem remember_fills (hslot : slot.Derived) (ty : TypeId) (list : List β) :
    Fills slot ty (remember slot ty list) := by
  rintro s result s' ⟨info, hinfo⟩ hidle hrun
  rw [remember, bind_run (get_run s)] at hrun
  split at hrun
  · obtain ⟨held, t, hcurrent, hrest⟩ := exists_of_bind hrun
    obtain ⟨rfl, hheld⟩ := Slot.list?_of_current hcurrent
    cases held with
    | some =>
      obtain ⟨rfl, rfl⟩ := EStateM.Result.ok.inj hrest
      exact hheld
    | none =>
      obtain ⟨rfl, rfl⟩ := EStateM.Result.ok.inj hrest
      exact Store.list?_fill (hslot.read_write list info) hinfo
  · next hbusy =>
    obtain ⟨rfl, rfl⟩ := EStateM.Result.ok.inj hrun
    exact absurd hidle.inFlight hbusy

theorem settleList_fills (hslot : slot.Declared) (ty : TypeId) (symbol : Option SymbolId) :
    Fills slot ty (settleList slot ty symbol) := by
  rintro s result s' ⟨info, hinfo⟩ hidle hrun
  obtain ⟨held, t, hcurrent, hrest⟩ := exists_of_bind hrun
  obtain ⟨rfl, hheld⟩ := Slot.list?_of_current hcurrent
  cases held with
  | some =>
    obtain ⟨rfl, rfl⟩ := EStateM.Result.ok.inj hrest
    exact hheld
  | none =>
    obtain ⟨completing, u, hcompleting, hend⟩ := exists_of_bind hrest
    cases symbol with
    | none =>
      obtain ⟨rfl, rfl⟩ := EStateM.Result.ok.inj hcompleting
      obtain ⟨rfl, rfl⟩ := EStateM.Result.ok.inj hend
      exact Store.list?_fill (hslot.read_write [] info) hinfo
    | some sym =>
      obtain ⟨y, v, hsymbol, hread⟩ := exists_of_bind hcompleting
      obtain ⟨rfl, hy⟩ := eq_of_symbolData hsymbol
      obtain ⟨rfl, rfl⟩ := EStateM.Result.ok.inj hread
      cases hmark : y.completing with
      | true =>
        rw [hmark] at hend
        obtain ⟨rfl, rfl⟩ := EStateM.Result.ok.inj hend
        exact absurd ⟨y, hy, hmark⟩ (hidle.completing sym)
      | false =>
        rw [hmark] at hend
        obtain ⟨rfl, rfl⟩ := EStateM.Result.ok.inj hend
        exact Store.list?_fill (hslot.read_write [] info) hinfo

theorem completeLazily_later (h : load.Follows Store.Later) (symbol : Option SymbolId) :
    Along Store.Later (completeLazily load symbol) :=
  (completeLazily_keeps h.keeps.toTied symbol).along

theorem canonicalType_later (symbol : Option SymbolId) : Along Store.Later (canonicalType symbol) :=
  (Tie.canonicalType_keeps (T := Tie.ofMoves Store.Later) symbol).along

theorem declaredList_fills (h : load.Follows Store.Later) (hslot : slot.Declared) (ty : TypeId)
    (symbol : Option SymbolId) : Fills slot ty (declaredList load slot ty symbol) := by
  intro s result s' hclass hidle hrun
  obtain ⟨held, t, hcurrent, hrest⟩ := exists_of_bind hrun
  obtain ⟨rfl, hheld⟩ := Slot.list?_of_current hcurrent
  cases held with
  | some =>
    obtain ⟨rfl, rfl⟩ := EStateM.Result.ok.inj hrest
    exact hheld
  | none =>
    exact fills_of_bind (completeLazily_later h symbol)
      (fun _ => settleList_fills hslot ty symbol) t result s' hclass hidle hrest

/-! ### What the questions have in common -/

namespace Listing

variable {q : Listing β} {depth : Nat} {list : List β}

/-- The plan that a question follows. -/
class Lawful (q : Listing β) : Prop where
  zero : ∀ load ty, q.ask load 0 ty = tooDeep
  /-- A class type that keeps the answer gives it, otherwise the answer is worked out. -/
  succ : ∀ load depth ty, q.ask load (depth + 1) ty = typeData ty >>= fun data =>
    match data.kind.class? with
    | some info =>
      match q.slot.read info with
      | some list => pure list
      | none => q.work load depth ty data.symbol data.erased info.outer
    | none => Sum.elim pure (q.ask load depth) (q.other data.kind)
  fills : ∀ {load : Loader}, load.Follows Store.Later → ∀ depth ty symbol erased outer,
    Fills q.slot ty (q.work load depth ty symbol erased outer)
  later : ∀ {load : Loader}, load.Follows Store.Later → ∀ depth ty,
    Along Store.Later (q.ask load depth ty)
  slot : ∀ {a b : ClassInfo}, a.Precedes b → Kept (q.slot.read a) (q.slot.read b)
  stays : ∀ {k k' : Kind}, k.Precedes k' → k.class? = none → q.other k' = q.other k

variable [q.Lawful] {data : TypeData} {info : ClassInfo}

theorem ask_class (hdata : s.store.type? ty = some data) (hkind : data.kind = .classType info)
    (hunset : q.slot.read info = none) : q.ask load (depth + 1) ty s =
      q.work load depth ty data.symbol data.erased info.outer s := by
  rw [Lawful.succ, bind_run (typeData_run hdata), hkind]
  simp only [Kind.class?, hunset]

theorem ask_other (hdata : s.store.type? ty = some data) (hclass : data.kind.class? = none) :
    q.ask load (depth + 1) ty s = Sum.elim pure (q.ask load depth) (q.other data.kind) s := by
  rw [Lawful.succ, bind_run (typeData_run hdata), hclass]

theorem ask_of_list? (h : s.store.list? q.slot ty = some list) :
    q.ask load (depth + 1) ty s = .ok list s := by
  obtain ⟨info, hinfo, hread⟩ := Option.bind_eq_some_iff.1 h
  obtain ⟨data, hdata, hkind⟩ := Store.class?_eq_some.1 hinfo
  rw [Lawful.succ, bind_run (typeData_run hdata), hkind]
  simp only [Kind.class?, hread]
  rfl

end Listing

theorem Kind.Precedes.class?_eq_none {k k' : Kind} (h : k.Precedes k') (hk : k.class? = none) :
    k'.class? = none := by
  cases h with
  | same => exact hk
  | classType => cases hk
  | _ => rfl

namespace Store

variable {s t : Store} {q : Listing β} {depth : Nat} {list : List β} {data : TypeData}

theorem held_class (h : s.class? ty = some info) :
    s.held q (depth + 1) ty = q.slot.read info := by
  obtain ⟨data, hdata, hkind⟩ := class?_eq_some.1 h
  rw [held, kind?, hdata, Option.map_some, Option.bind_some, hkind]
  rfl

theorem held_other (hdata : s.type? ty = some data) (hclass : data.kind.class? = none) :
    s.held q (depth + 1) ty = Sum.elim some (s.held q depth) (q.other data.kind) := by
  rw [held, kind?, hdata, Option.map_some, Option.bind_some, hclass]
  cases q.other data.kind <;> rfl

/-- A type that holds an answer is a class type that keeps it, or of another kind. -/
theorem held_cases (h : s.held q depth ty = some list) :
    ∃ d, depth = d + 1 ∧ (s.list? q.slot ty = some list ∨
      ∃ data, s.type? ty = some data ∧ data.kind.class? = none ∧
        Sum.elim some (s.held q d) (q.other data.kind) = some list) := by
  cases depth with
  | zero => cases h
  | succ d =>
    refine ⟨d, rfl, ?_⟩
    cases hdata : s.type? ty with
    | none =>
      rw [held, kind?, hdata] at h
      cases h
    | some data =>
      cases hclass : data.kind.class? with
      | some info =>
        have hinfo : s.class? ty = some info :=
          class?_eq_some.2 ⟨data, hdata, Kind.class?_eq_some.1 hclass⟩
        rw [held_class hinfo] at h
        left
        rw [list?, hinfo]
        exact h
      | none =>
        rw [held_other hdata hclass] at h
        exact .inr ⟨data, rfl, hclass, h⟩

theorem held_of_list? (h : s.list? q.slot ty = some list) : s.held q (depth + 1) ty = some list := by
  obtain ⟨info, hinfo, hread⟩ := Option.bind_eq_some_iff.1 h
  rw [held_class hinfo, hread]

theorem Precedes.list? [q.Lawful] (h : s.Precedes t) (hlist : s.list? q.slot ty = some list) :
    t.list? q.slot ty = some list := by
  obtain ⟨info, hinfo, hread⟩ := Option.bind_eq_some_iff.1 hlist
  obtain ⟨info', hinfo', hlater⟩ := h.exists_class? hinfo
  rw [Store.list?, hinfo']
  exact Listing.Lawful.slot (q := q) hlater list hread

/-- **What is held stays.** -/
theorem Precedes.held [q.Lawful] (h : s.Precedes t) (hheld : s.held q depth ty = some list) :
    t.held q depth ty = some list := by
  induction depth generalizing ty with
  | zero => cases hheld
  | succ depth ih =>
    obtain ⟨_, ⟨⟩, hlist | ⟨data, hdata, hclass, hother⟩⟩ := held_cases hheld
    · exact held_of_list? (h.list? hlist)
    · obtain ⟨data', hdata', hlater⟩ := h.types ty data hdata
      rw [held_other hdata' (hlater.kind.class?_eq_none hclass),
        Listing.Lawful.stays (q := q) hlater.kind hclass]
      cases hinstead : q.other data.kind with
      | inl =>
        rw [hinstead] at hother
        exact hother
      | inr =>
        rw [hinstead] at hother
        exact ih hother

end Store

namespace Listing

variable {q : Listing β} [q.Lawful] {depth : Nat} {list : List β}

/-- **What is held is answered** at once. -/
theorem ask_of_held (h : s.store.held q depth ty = some list) :
    q.ask load depth ty s = .ok list s := by
  induction depth generalizing ty with
  | zero => cases h
  | succ depth ih =>
    obtain ⟨_, ⟨⟩, hlist | ⟨data, hdata, hclass, hother⟩⟩ := Store.held_cases h
    · exact ask_of_list? hlist
    · rw [ask_other hdata hclass]
      cases hinstead : q.other data.kind with
      | inl =>
        rw [hinstead] at hother
        obtain rfl := Option.some.inj hother
        rfl
      | inr =>
        rw [hinstead] at hother
        exact ih hother

/-- **What is answered is held**, unless a completer is running. -/
theorem held_of_ask (hload : load.Follows Store.Later) (h : q.ask load depth ty s = .ok list s')
    (hidle : s'.store.Idle) : s'.store.held q depth ty = some list := by
  induction depth generalizing ty with
  | zero =>
    rw [Lawful.zero] at h
    cases h
  | succ depth ih =>
    rw [Lawful.succ] at h
    obtain ⟨data, t, hread, hrest⟩ := exists_of_bind h
    obtain ⟨rfl, hdata⟩ := eq_of_typeData hread
    cases hclass : data.kind.class? with
    | some info =>
      have hinfo : t.store.class? ty = some info :=
        Store.class?_eq_some.2 ⟨data, hdata, Kind.class?_eq_some.1 hclass⟩
      cases hslot : q.slot.read info with
      | some =>
        simp only [hclass, hslot] at hrest
        obtain ⟨rfl, rfl⟩ := EStateM.Result.ok.inj hrest
        rw [Store.held_class hinfo, hslot]
      | none =>
        simp only [hclass, hslot] at hrest
        exact Store.held_of_list?
          (Lawful.fills hload depth ty _ _ _ t list s' ⟨info, hinfo⟩ hidle hrest)
    | none =>
      rw [hclass] at hrest
      cases hinstead : q.other data.kind with
      | inl =>
        rw [hinstead] at hrest
        obtain ⟨rfl, rfl⟩ := EStateM.Result.ok.inj hrest
        rw [Store.held_other hdata hclass, hinstead]
        rfl
      | inr instead =>
        rw [hinstead] at hrest
        have hlater : t.store.Later s'.store := (Lawful.later hload depth instead).of_ok hrest
        obtain ⟨data', hdata', hprecedes⟩ := hlater.precedes.types ty data hdata
        rw [Store.held_other hdata' (hprecedes.kind.class?_eq_none hclass),
          Lawful.stays (q := q) hprecedes.kind hclass, hinstead]
        exact ih hrest

theorem list?_of_ask (hload : load.Follows Store.Later) (depth : Nat)
    (h : q.ask load (depth + 1) ty s = .ok list s') (hidle : s'.store.Idle)
    (hinfo : s'.store.class? ty = some info) : s'.store.list? q.slot ty = some list := by
  have hheld := q.held_of_ask hload h hidle
  rw [Store.held_class hinfo] at hheld
  rw [Store.list?, hinfo]
  exact hheld

end Listing

/-! ### The six questions -/

theorem Slot.current_of_list? (h : s.store.list? slot ty = some list) :
    slot.current ty s = .ok (some list) s := by
  obtain ⟨info, hinfo, hread⟩ := Option.bind_eq_some_iff.1 h
  obtain ⟨data, hdata, hkind⟩ := Store.class?_eq_some.1 hinfo
  rw [Slot.current_bind_read hdata, hkind]
  exact congrArg (EStateM.Result.ok · s) hread

theorem declaredList_of_list? {symbol : Option SymbolId} (h : s.store.list? slot ty = some list) :
    declaredList load slot ty symbol s = .ok list s := by
  rw [declaredList, bind_run (Slot.current_of_list? h)]
  rfl

/-- A declared list is asked for after looking whether it is set, or right away. -/
theorem declaredList_plan (load : Loader) (slot : Slot β) (ty : TypeId) {k : TypeData → Run (List β)}
    (hk : ∀ data info, data.kind = .classType info → k data = declaredList load slot ty data.symbol) :
    typeData ty >>= k = typeData ty >>= fun data =>
      match data.kind.class? with
      | some info =>
        match slot.read info with
        | some list => pure list
        | none => declaredList load slot ty data.symbol
      | none => k data := by
  funext s
  cases hread : typeData ty s with
  | error => rw [bind_run_error hread, bind_run_error hread]
  | ok data =>
    obtain ⟨rfl, hdata⟩ := eq_of_typeData hread
    rw [bind_run hread, bind_run hread]
    cases hclass : data.kind.class? with
    | none => rfl
    | some info =>
      have hkind := Kind.class?_eq_some.1 hclass
      rw [hk data info hkind]
      cases hslot : slot.read info with
      | none => simp only [hslot]
      | some =>
        simp only [hslot]
        refine declaredList_of_list? ?_
        rw [Store.list?, Store.class?_eq_some.2 ⟨data, hdata, hkind⟩]
        exact hslot

namespace Listing

/-- The type arguments. -/
def typeArguments : Listing TypeId where
  ask := RegionTypes.typeArguments
  slot := .typeArgs
  work load _ ty symbol _ _ := declaredList load .typeArgs ty symbol
  other
    | .forAll info => .inl info.typeVars
    | .placeholder info => .inr info.origin
    | _ => .inl []

/-- The effect arguments. -/
def effectArguments : Listing Summary where
  ask := RegionTypes.effectArguments
  slot := .effectArgs
  work load _ ty symbol _ _ := declaredList load .effectArgs ty symbol
  other
    | .forAll info => .inl info.effectVars
    | .placeholder info => .inr info.origin
    | _ => .inl []

/-- The region arguments, with omitted ones filled in. -/
def regionArguments : Listing Path where
  ask := RegionTypes.regionArguments
  slot := .resolvedRegions
  work load depth ty symbol erased _ := do
    let declared ← declaredList load .regionArgs ty symbol
    if erased || !declared.isEmpty then remember .resolvedRegions ty declared
    else
      match ← canonicalType symbol with
      | none => remember .resolvedRegions ty declared
      | some canonical =>
        if canonical = ty then remember .resolvedRegions ty declared
        else
          let formals ← RegionTypes.regionArguments load depth canonical
          remember .resolvedRegions ty (List.replicate formals.length Path.root)
  other
    | .forAll info => .inl info.regionVars
    | .typeVar info | .captured info _ => .inl info.regions
    | _ => .inl []

/-- The type parameters of a class and of the types around it. -/
def allTypeParams : Listing TypeId where
  ask := RegionTypes.allTypeParams
  slot := .allTypeParams
  work load depth ty symbol _ outer := do
    let own ← declaredList load .typeArgs ty symbol
    let around ← RegionTypes.allTypeParams load depth outer
    remember .allTypeParams ty (around ++ own)
  other
    | .array info => .inr info.elem
    | .forAll info => .inr info.body
    | .placeholder info => .inr info.origin
    | _ => .inl []

/-- The region parameters of a class and of the classes around it. -/
def allRegionParams : Listing Path where
  ask := RegionTypes.allRegionParams
  slot := .allRegionParams
  work load depth ty _ _ outer := do
    let own ← RegionTypes.regionArguments load (depth + 1) ty
    let around ← RegionTypes.allRegionParams load depth outer
    remember .allRegionParams ty (around ++ own)
  other _ := .inl []

/-- The effect parameters of a class and of the classes around it. -/
def allEffectParams : Listing Summary where
  ask := RegionTypes.allEffectParams
  slot := .allEffectParams
  work load depth ty _ _ outer := do
    let own ← RegionTypes.effectArguments load (depth + 1) ty
    if outer = ty then remember .allEffectParams ty own
    else
      let around ← RegionTypes.allEffectParams load depth outer
      remember .allEffectParams ty (around ++ own)
  other _ := .inl []

instance : typeArguments.Lawful where
  zero _ _ := rfl
  succ load depth ty := by
    refine (declaredList_plan load .typeArgs ty fun data info hkind => ?_).trans
      (bind_congr fun data => ?_)
    · rw [hkind]
    · cases data.kind <;> rfl
  fills h _ ty symbol _ _ := declaredList_fills h .typeArgs ty symbol
  later h depth ty := (typeArguments_keeps h.keeps.toTied depth ty).along
  slot h := h.typeArgs
  stays h hclass := by
    cases h with
    | classType => cases hclass
    | placeholder h => exact congrArg Sum.inr h.origin
    | _ => rfl

instance : effectArguments.Lawful where
  zero _ _ := rfl
  succ load depth ty := by
    refine (declaredList_plan load .effectArgs ty fun data info hkind => ?_).trans
      (bind_congr fun data => ?_)
    · rw [hkind]
    · cases data.kind <;> rfl
  fills h _ ty symbol _ _ := declaredList_fills h .effectArgs ty symbol
  later h depth ty := (effectArguments_keeps h.keeps.toTied depth ty).along
  slot h := h.effectArgs
  stays h hclass := by
    cases h with
    | classType => cases hclass
    | placeholder h => exact congrArg Sum.inr h.origin
    | _ => rfl

instance : regionArguments.Lawful where
  zero _ _ := rfl
  succ load depth ty := by
    refine bind_congr fun data => ?_
    cases data.kind with
    | classType info =>
      obtain ⟨_, _, _, _, _, _, _, kept, _, _, _⟩ := info
      cases kept <;> rfl
    | _ => rfl
  fills h depth ty symbol erased outer := by
    have hkeep : ∀ list, Fills .resolvedRegions ty (remember .resolvedRegions ty list) :=
      remember_fills .resolvedRegions ty
    refine fills_of_bind (declaredList_along h .regionArgs ty symbol) fun declared => ?_
    split
    · exact hkeep declared
    · refine fills_of_bind (canonicalType_later symbol) fun canonical => ?_
      split
      · exact hkeep declared
      · split
        · exact hkeep declared
        · exact fills_of_bind (h.keeps.regionArguments depth _).along fun formals => hkeep _
  later h depth ty := (h.keeps.regionArguments depth ty).along
  slot h := h.resolvedRegions
  stays h hclass := by
    cases h with
    | classType => cases hclass
    | typeVar h | captured h =>
      show Sum.inl (VarInfo.regions _) = Sum.inl (VarInfo.regions _)
      rw [VarInfo.regions, VarInfo.regions, h.regionArgs, h.regionParams]
    | _ => rfl

instance : allTypeParams.Lawful where
  zero _ _ := rfl
  succ load depth ty := by
    refine bind_congr fun data => ?_
    cases data.kind with
    | classType info =>
      obtain ⟨_, _, _, _, _, _, _, _, kept, _, _⟩ := info
      cases kept <;> rfl
    | _ => rfl
  fills h depth ty symbol erased outer := by
    refine fills_of_bind (declaredList_along h .typeArgs ty symbol) fun own => ?_
    refine fills_of_bind (h.keeps.allTypeParams depth outer).along fun around => ?_
    exact remember_fills .allTypeParams ty _
  later h depth ty := (h.keeps.allTypeParams depth ty).along
  slot h := h.allTypeParams
  stays h hclass := by
    cases h with
    | classType => cases hclass
    | placeholder h => exact congrArg Sum.inr h.origin
    | _ => rfl

instance : allRegionParams.Lawful where
  zero _ _ := rfl
  succ load depth ty := by
    refine Tie.kindOf_bind.trans (bind_congr fun data => ?_)
    cases data.kind with
    | classType info =>
      obtain ⟨_, _, _, _, _, _, _, _, _, kept, _⟩ := info
      cases kept <;> rfl
    | _ => rfl
  fills h depth ty symbol erased outer := by
    refine fills_of_bind (h.keeps.regionArguments (depth + 1) ty).along fun own => ?_
    refine fills_of_bind (h.keeps.allRegionParams depth outer).along fun around => ?_
    exact remember_fills .allRegionParams ty _
  later h depth ty := (h.keeps.allRegionParams depth ty).along
  slot h := h.allRegionParams
  stays _ _ := rfl

instance : allEffectParams.Lawful where
  zero _ _ := rfl
  succ load depth ty := by
    refine Tie.kindOf_bind.trans (bind_congr fun data => ?_)
    cases data.kind with
    | classType info =>
      obtain ⟨_, _, _, _, _, _, _, _, _, _, kept⟩ := info
      cases kept <;> rfl
    | _ => rfl
  fills h depth ty symbol erased outer := by
    refine fills_of_bind (effectArguments_keeps h.keeps.toTied (depth + 1) ty).along fun own => ?_
    split
    · exact remember_fills .allEffectParams ty own
    · refine fills_of_bind (h.keeps.allEffectParams depth outer).along fun around => ?_
      exact remember_fills .allEffectParams ty _
  later h depth ty := (h.keeps.allEffectParams depth ty).along
  slot h := h.allEffectParams
  stays _ _ := rfl

end Listing

end RegionTypes

import RegionTypes.Proofs.Store.Nesting

/-!
# Surveys of a store

The questions about types are followed along their texts once, for all the situations in which it is
shown that they are answered.  What such a situation has to offer is a **survey** of a settled store: a
logic for computations that return, and what is found of records, symbols and lists.

* `Run.Logic` — computations that return, with rules for sequencing and for loops.
* `TypeData.Found` — a record as it is found: only the lists of classes may differ.
* `Survey` — what questions rely on, over a store in which their answers have a meaning;
  `Survey.Answers` — a question that is answered everywhere.
* `Survey.part` — **going on to a part** of a type.
-/

namespace RegionTypes

open Run

/-! ### Computations that return -/

/-- A way to show that computations return. -/
structure Run.Logic where
  /-- The computation returns, and what it returns is as described. -/
  Asks : ∀ {α : Type}, Run α → (α → Prop) → Prop
  pure : ∀ {α : Type} {a : α} {q : α → Prop}, q a → Asks (Pure.pure a) q
  bind : ∀ {α β : Type} {action : Run α} {next : α → Run β} {p : α → Prop} {q : β → Prop},
    Asks action p → (∀ a, p a → Asks (next a) q) → Asks (action >>= next) q

namespace Run.Logic.Asks

variable {L : Logic} {α β : Type} {action : Run α} {p q : α → Prop} {l : List α} {sure : Prop}

theorem pure {a : α} (h : q a) : L.Asks (Pure.pure a) q := L.pure h

theorem bind {next : α → Run β} {q : β → Prop} (h : L.Asks action p)
    (hnext : ∀ a, p a → L.Asks (next a) q) : L.Asks (action >>= next) q := L.bind h hnext

theorem imp (h : L.Asks action p) (hpq : ∀ a, p a → q a) : L.Asks action q := by
  rw [← bind_pure action]
  exact h.bind fun a ha => .pure (hpq a ha)

theorem map {f : α → β} {q : β → Prop} (h : L.Asks action p) (hf : ∀ a, p a → q (f a)) :
    L.Asks (do return f (← action)) q :=
  h.bind fun a ha => .pure (hf a ha)

theorem anyM {f : α → Run Bool} {g : α → Bool} (h : ∀ a ∈ l, L.Asks (f a) fun b => sure → b = g a) :
    L.Asks (l.anyM f) fun b => sure → b = l.any g := by
  induction l with
  | nil => exact .pure fun _ => rfl
  | cons a l ih =>
    refine (h a List.mem_cons_self).bind fun b hb => ?_
    cases b with
    | true => exact .pure fun hsure => by rw [List.any_cons, ← hb hsure, Bool.true_or]
    | false =>
      refine (ih fun x hx => h x (List.mem_cons_of_mem a hx)).imp fun c hc hsure => ?_
      rw [List.any_cons, ← hb hsure, Bool.false_or, hc hsure]

theorem foldlM {f : β → α → Run β} {g : β → α → β}
    (h : ∀ a ∈ l, ∀ b c, (sure → b = c) → L.Asks (f b a) fun b' => sure → b' = g c a) :
    ∀ b c, (sure → b = c) → L.Asks (l.foldlM f b) fun b' => sure → b' = l.foldl g c := by
  induction l with
  | nil => exact fun b c hbc => .pure hbc
  | cons a l ih =>
    intro b c hbc
    rw [List.foldlM_cons]
    exact (h a List.mem_cons_self b c hbc).bind fun b' hb' =>
      ih (fun x hx => h x (List.mem_cons_of_mem a hx)) b' (g c a) hb'

/-- A loop of which no more is needed than that it ends. -/
theorem loop {f : β → α → Run β} (h : ∀ a ∈ l, ∀ b, L.Asks (f b a) fun _ => True) (b : β) :
    L.Asks (l.foldlM f b) fun _ => True :=
  (foldlM (fun a ha b _ _ => (h a ha b).imp fun _ _ => False.elim) b b fun _ => rfl).imp
    (p := fun b' => False → b' = l.foldl (fun b _ => b) b) fun _ _ => trivial

theorem mapM {f : α → Run β} {p : β → Prop} (h : ∀ a ∈ l, L.Asks (f a) p) :
    L.Asks (l.mapM f) fun bs => ∀ b ∈ bs, p b := by
  induction l with
  | nil => exact .pure (List.forall_mem_nil p)
  | cons a l ih =>
    rw [List.mapM_cons]
    refine (h a List.mem_cons_self).bind fun b hb => ?_
    refine (ih fun x hx => h x (List.mem_cons_of_mem a hx)).bind fun bs hbs => ?_
    exact .pure (List.forall_mem_cons.2 ⟨hb, hbs⟩)

theorem filterAuxM {f : α → Run Bool} {acc : List α} (h : ∀ a ∈ l, L.Asks (f a) fun _ => True) :
    L.Asks (l.filterAuxM f acc) (· ⊆ l ++ acc) := by
  induction l generalizing acc with
  | nil => exact .pure (List.Subset.refl acc)
  | cons a l ih =>
    rw [List.filterAuxM]
    refine (h a List.mem_cons_self).bind fun keep _ => ?_
    refine (ih fun x hx => h x (List.mem_cons_of_mem a hx)).imp fun kept hkept x hx => ?_
    have hmem := hkept hx
    cases keep <;> grind

theorem filterM {f : α → Run Bool} (h : ∀ a ∈ l, L.Asks (f a) fun _ => True) :
    L.Asks (l.filterM f) (· ⊆ l) := by
  refine (filterAuxM h).bind fun kept hkept => .pure fun x hx => ?_
  simpa using hkept (List.mem_reverse.1 hx)

end Run.Logic.Asks

/-! ### What is found -/

/-- The slot is for a derived list, and these are the lists in `r`. -/
inductive Slot.Means (r : Store) : {β : Type} → Slot β → (TypeId → List β) → Prop
  | resolvedRegions : Means r .resolvedRegions r.regionArgumentsOf
  | allTypeParams : Means r .allTypeParams r.allTypeParamsOf
  | allRegionParams : Means r .allRegionParams r.allRegionParamsOf
  | allEffectParams : Means r .allEffectParams r.allEffectParamsOf

/-- A record as it is found: only classes may differ, and if answers are sure, the derived lists that
they keep are right.  A class without supertypes shows none. -/
inductive TypeData.Found (r : Store) (sure : Prop) (ty : TypeId) : TypeData → TypeData → Prop
  | classType {symbol : Option SymbolId} {erased : Bool} {literal : Option Literal}
      {full info : ClassInfo} (outer : info.outer = full.outer)
      (kept : ∀ {β : Type} {slot : Slot β} {value : TypeId → List β}, slot.Means r value →
        ∀ l, slot.read info = some l → sure → l = value ty)
      (bare : full.supertype = none → full.interfaces = none →
        info.supertype = none ∧ info.interfaces = none) :
      Found r sure ty ⟨symbol, erased, literal, .classType full⟩
        ⟨symbol, erased, literal, .classType info⟩
  | other {symbol : Option SymbolId} {erased : Bool} {literal : Option Literal} {kind : Kind}
      (class? : kind.class? = none) :
      Found r sure ty ⟨symbol, erased, literal, kind⟩ ⟨symbol, erased, literal, kind⟩

/-- What questions about the types of `r` rely on.  The answers are those in `r` if they are sure. -/
structure Survey (r : Store) (load : Loader) extends Run.Logic where
  settled : r.Settled
  sure : Prop
  session : Asks get fun _ => True
  logging : ∀ (level : Log.Level) (target : String) (fields : List (String × String)),
    Asks (log level target fields) fun _ => True
  typeData : ∀ {ty : TypeId}, r.Has ty → Asks (typeData ty) fun data =>
    ∃ full, r.type? ty = some full ∧ full.Found r sure ty data
  symbolData : ∀ {sym : SymbolId} {y : Symbol}, r.symbol? sym = some y →
    Asks (symbolData sym) fun y' => y'.face = y.face
  completeLazily : ∀ {sym : SymbolId} {y : Symbol}, r.symbol? sym = some y →
    Asks (completeLazily load (some sym)) fun _ => True
  /-- A list that loading supplies may be missing where answers are not sure. -/
  declaredList : ∀ {β : Type} {slot : Slot β} {ty : TypeId} {symbol : Option SymbolId} {erased : Bool}
    {literal : Option Literal} {full : ClassInfo}, slot.Declared →
    r.type? ty = some ⟨symbol, erased, literal, .classType full⟩ →
    Asks (declaredList load slot ty symbol) fun l =>
      (l = (slot.read full).getD [] ∨ l = []) ∧ (sure → l = (slot.read full).getD [])
  remember : ∀ {β : Type} {slot : Slot β} {value : TypeId → List β} {ty : TypeId}
    {symbol : Option SymbolId} {erased : Bool} {literal : Option Literal} {full : ClassInfo}
    {list : List β}, slot.Means r value →
    r.type? ty = some ⟨symbol, erased, literal, .classType full⟩ → (sure → list = value ty) →
    Asks (remember slot ty list) fun l => sure → l = value ty
  supertype : ∀ {ty : TypeId}, r.Has ty → Asks (supertype load ty) fun t =>
    (t = r.supertypeOf ty ∨ t = none) ∧ (sure → t = r.supertypeOf ty)
  interfaces : ∀ {ty : TypeId}, r.Has ty → Asks (interfaces load ty) fun l =>
    (l = r.interfacesOf ty ∨ l = []) ∧ (sure → l = r.interfacesOf ty)

namespace Survey

variable {r : Store} {load : Loader} {V : Survey r load} {ty c : TypeId} {d : Nat} {data : TypeData}
  {β : Type}

theorem kindOf (V : Survey r load) (hty : r.Has ty) : V.Asks (kindOf ty) fun kind =>
    ∃ full data, r.type? ty = some full ∧ full.Found r V.sure ty data ∧ data.kind = kind :=
  (V.typeData hty).map fun data ⟨full, hfull, hfound⟩ => ⟨full, data, hfull, hfound, rfl⟩

theorem canonicalType (V : Survey r load) (hdata : r.type? ty = some data) :
    V.Asks (canonicalType data.symbol) fun c => c = r.canonical? data.symbol := by
  cases hsym : data.symbol with
  | none => exact .pure rfl
  | some sym =>
    obtain ⟨y, hy⟩ := V.settled.known hdata hsym
    refine (V.symbolData hy).map fun y' hface => ?_
    rw [Store.canonical?, Option.bind_some, hy, Option.bind_some]
    exact (congrArg Symbol.type hface :)

/-- At every type of the store the question is answered if the depth is above the level, and where
answers are sure with the value. -/
def Answers (V : Survey r load) (f : Nat → TypeId → Run β) (value : TypeId → β) : Prop :=
  ∀ d ty, r.level ty < d → r.Has ty → V.Asks (f d ty) fun b => V.sure → b = value ty

/-- **Going on to a part**: what is answered there is what the meaning of the whole type refers to. -/
theorem part {f : TypeId → Run β} {otherwise : β} {step : (TypeId → β) → TypeId → β}
    (ih : ∀ c, r.level c < d → r.Has c → V.Asks (f c) fun b => V.sure → b = r.descend otherwise step c)
    (hd : r.level ty < d + 1) (hdata : r.type? ty = some data) (hc : c ∈ data.kind.inspected) :
    V.Asks (f c) fun b => V.sure → b = r.descendBelow otherwise step ty c := by
  obtain ⟨hhas, hlt⟩ := V.settled.inspected hdata hc
  refine (ih c (by omega) hhas).imp fun b hb hsure => ?_
  rw [Store.descendBelow_eq hlt, hb hsure]

end Survey

end RegionTypes

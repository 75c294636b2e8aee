import RegionTypes.Proofs.Completion.Profile

/-!
# The chain of enclosing types

The parameters of a class and of the types around it are the parameters along a chain: those of the
outermost class come first, those of the class itself last.  The lists that are kept for the types of a
chain are filled at different moments, and completers may run in between; still they fit together,
since a list is kept only after the list of the type around it.

* `Store.Chain` — the class types from a type outwards.
* `Derivation.Collects` — **the list is put together** from what the types of the chain contribute.
* `Store.Collected`, `Session.TopLevel.collected` — between the steps of every script each list that is
  kept along the enclosing types is put together in this way.
* `Session.Told` — a question that has been answered between the steps of a script.
* `parameters_along_chain` — **all parameters are those around and then those of the type itself**, in
  whatever order the questions are asked.
-/

namespace RegionTypes

open Run Tie

variable {β : Type}

/-- The class types from a type outwards, as far as the question goes: it may look through types of
other kinds, and it ends at a class that encloses itself. -/
inductive Store.Chain (s : Store) (q : Listing β) : TypeId → List TypeId → Prop
  | outside {ty : TypeId} {data : TypeData} (hdata : s.type? ty = some data)
      (hclass : data.kind.class? = none) (hother : q.other data.kind = .inl []) : Chain s q ty []
  | through {ty inner : TypeId} {data : TypeData} {chain : List TypeId}
      (hdata : s.type? ty = some data) (hclass : data.kind.class? = none)
      (hother : q.other data.kind = .inr inner) (h : Chain s q inner chain) : Chain s q ty chain
  | alone {ty : TypeId} {info : ClassInfo} (hinfo : s.class? ty = some info)
      (hself : info.outer = ty) : Chain s q ty [ty]
  | within {ty : TypeId} {info : ClassInfo} {chain : List TypeId} (hinfo : s.class? ty = some info)
      (hne : info.outer ≠ ty) (h : Chain s q info.outer chain) : Chain s q ty (ty :: chain)

namespace Derivation

/-- **The list is put together** from what the class types of the chain contribute, that of the outermost
one first. -/
def Collects (d : Derivation β) (s : Store) (ty : TypeId) (list : List β) : Prop :=
  ∃ chain owns, s.Chain d.listing ty chain ∧
    List.Forall₂ (fun c own => s.list? d.part.slot c = some own) chain owns ∧
      list = owns.reverse.flatten

variable {d : Derivation β} {s t : Store} {ty : TypeId} {list : List β}
  {canonical : Option SymbolId → Option TypeId}

theorem Accumulates.other_inl (hd : d.Accumulates) {k : Kind} (h : d.listing.other k = .inl list) :
    list = [] := by
  cases d with
  | regions => cases hd
  | allTypes => cases k <;> first | exact (Sum.inl.inj h).symm | cases h
  | allRegions | allEffects => exact (Sum.inl.inj h).symm

theorem Accumulates.collects_of_held (hd : d.Accumulates) {depth : Nat}
    (hs : ∀ ty list, s.list? d.slot ty = some list → d.Collects s ty list)
    (h : s.held d.listing depth ty = some list) : d.Collects s ty list := by
  induction depth generalizing ty with
  | zero => cases h
  | succ depth ih =>
    obtain ⟨_, ⟨⟩, hlist | ⟨data, hdata, hclass, hother⟩⟩ := Store.held_cases h
    · exact hs ty list hlist
    · cases hinstead : d.listing.other data.kind with
      | inl =>
        rw [hinstead] at hother
        obtain rfl := Option.some.inj hother
        obtain rfl := hd.other_inl hinstead
        exact ⟨[], [], .outside hdata hclass hinstead, .nil, rfl⟩
      | inr =>
        rw [hinstead] at hother
        obtain ⟨chain, owns, hchain, howns, heq⟩ := ih hother
        exact ⟨chain, owns, .through hdata hclass hinstead hchain, howns, heq⟩

/-- The step outwards: what follows is put together, if what is kept is. -/
theorem Accumulates.collects_of_follows (hd : d.Accumulates)
    (hs : ∀ ty list, s.list? d.slot ty = some list → d.Collects s ty list)
    (hkept : ∀ kept, s.list? d.slot ty = some kept → kept = list)
    (h : d.Follows canonical s ty list) : d.Collects s ty list := by
  obtain ⟨info, own, hinfo, hown, hcases⟩ := hd.follows_iff.1 h
  by_cases hself : info.outer = ty
  · rcases hcases with ⟨-, rfl⟩ | ⟨-, around, depth, haround, rfl⟩
    · exact ⟨[ty], [list], .alone hinfo hself, .cons hown .nil, by simp⟩
    · -- the list of the type around is that of the type, so it was kept before
      rw [hself] at haround
      have haround := Store.list?_of_held hinfo haround
      have hcollects := hs ty around haround
      rwa [hkept around haround] at hcollects
  · obtain ⟨-, around, depth, haround, rfl⟩ := hcases.resolve_left fun h => hself h.1.eq
    obtain ⟨chain, owns, hchain, howns, rfl⟩ := hd.collects_of_held hs haround
    exact ⟨ty :: chain, own :: owns, .within hinfo hself hchain, .cons hown howns, by simp⟩

end Derivation

namespace Store

variable {s t : Store} {ty : TypeId}

theorem Precedes.chain {q : Listing β} [q.Lawful] {chain : List TypeId} (h : s.Precedes t)
    (hs : s.Chain q ty chain) : t.Chain q ty chain := by
  induction hs with
  | @outside ty data hdata hclass hother =>
    obtain ⟨data', hdata', hlater⟩ := h.types ty data hdata
    refine .outside hdata' (hlater.kind.class?_eq_none hclass) ?_
    rw [Listing.Lawful.stays (q := q) hlater.kind hclass]
    exact hother
  | @through ty inner data chain hdata hclass hother _ ih =>
    obtain ⟨data', hdata', hlater⟩ := h.types ty data hdata
    refine .through hdata' (hlater.kind.class?_eq_none hclass) ?_ ih
    rw [Listing.Lawful.stays (q := q) hlater.kind hclass]
    exact hother
  | alone hinfo hself =>
    obtain ⟨info', hinfo', hlater⟩ := h.exists_class? hinfo
    exact .alone hinfo' (hlater.outer.trans hself)
  | within hinfo =>
    obtain ⟨info', hinfo', hlater⟩ := h.exists_class? hinfo
    refine .within hinfo' (by rwa [hlater.outer]) ?_
    rwa [hlater.outer]

theorem Precedes.collects {d : Derivation β} {list : List β} (h : s.Precedes t)
    (hs : d.Collects s ty list) : d.Collects t ty list := by
  obtain ⟨chain, owns, hchain, howns, heq⟩ := hs
  exact ⟨chain, owns, h.chain hchain, howns.imp fun _ _ hown => h.list? (q := d.part) hown, heq⟩

/-- Every list along the enclosing types that is kept is put together from what the types of the chain
contribute. -/
structure Collected (s : Store) : Prop extends s.Accumulated where
  collects : ∀ {β : Type} (d : Derivation β) ty list, s.list? d.slot ty = some list → d.Accumulates →
    d.Collects s ty list

/-- Lists that are kept along the enclosing types have to be put together. -/
def collectedPolicy : Policy where
  Holds := Collected
  Rests := Idle
  Tracks _ _ d _ := d.Accumulates
  canonical _ _ := none

instance : collectedPolicy.Lawful where
  change {s _ _} h hf hmoves := by
    refine ⟨Policy.Lawful.change (P := accumulatedPolicy) h.toAccumulated hf hmoves, ?_⟩
    intro β d ty list hlist hd
    rw [hf.list?_derived d.slot_derived] at hlist
    exact hmoves.collects (h.collects d ty list hlist hd)
  keep {s β d ty list} h hrest hlist hmoves := by
    refine ⟨Policy.Lawful.keep (P := accumulatedPolicy) h.toAccumulated hrest hlist hmoves, ?_⟩
    refine forall_list?_fill (Q := fun e a list' => e.Accumulates → e.Collects _ a list')
      (fun hd => hmoves.collects ?_)
      fun e a list' hlist' hd => hmoves.collects (h.collects e a list' hlist' hd)
    refine hd.collects_of_follows (fun a list' hlist' => h.collects d a list' hlist' hd) ?_
      (hlist (h.idle hrest) hd)
    intro kept hkept
    have hfilled := hmoves.list? (q := d.listing) hkept
    rw [list?_fill_self, if_pos rfl] at hfilled
    obtain ⟨info, hinfo, -⟩ := Option.bind_eq_some_iff.1 hkept
    rw [hinfo] at hfilled
    exact (Option.some.inj hfilled).symm
  enter {s} sym h :=
    ⟨Policy.Lawful.enter (P := accumulatedPolicy) sym h.toAccumulated, fun d ty list hlist hd =>
      (s.later_enterLoading sym).precedes.collects (h.collects d ty list hlist hd)⟩
  stop {_ s'} sym h h' hprecedes hbalanced :=
    ⟨Policy.Lawful.stop (P := accumulatedPolicy) sym h.toAccumulated h'.toAccumulated hprecedes
      hbalanced, fun d ty list hlist hd =>
        (s'.later_stopLoading sym).precedes.collects (h'.collects d ty list hlist hd)⟩
  idle h := h
  before h _ hbalanced hrests := h.idle (hbalanced.inFlight.symm.trans hrests.inFlight)
  canonical _ h := h.elim
  lasts _ _ _ _ h := h.elim

theorem initial_collected (options : DisplayOptions) : (initial options).Collected where
  toAccumulated := initial_accumulated options
  collects d ty list hlist _ := by
    rw [initial_list?] at hlist
    cases hlist

end Store

/-- **Between the steps of a script** every list that is kept along the enclosing types is put together
along the chain. -/
theorem Session.TopLevel.collected {s : Session} (h : s.TopLevel) : s.store.Collected :=
  h.observes (P := Store.collectedPolicy) Store.initial_collected

/-! ### Questions of scripts -/

/-- The question has been answered between the steps of a script, in this session or on the way to it. -/
def Session.Told (t : Session) (query : Query) (ty : TypeId) (answer : Answer) : Prop :=
  ∃ s s' depth, Session.TopLevel s ∧
    perform depth (.ask query (.handle ty)) s = .ok (.ok answer) s' ∧ s'.LeadsTo t

/-- The query of scripts that asks the question, and the answer that holds the list. -/
structure Listing.ServedBy (q : Listing β) (query : Query) (wrap : List β → Answer) : Prop where
  inquire : ∀ load depth ty, inquire load depth ty query = (do return wrap (← q.ask load depth ty))
  injective : ∀ list list', wrap list = wrap list' → list = list'

section Told

variable {q : Listing β} [q.Lawful] {query : Query} {wrap : List β → Answer} {t : Session}
  {ty : TypeId} {list : List β}

/-- What has been told is held. -/
theorem Listing.ServedBy.held (h : q.ServedBy query wrap) (htold : t.Told query ty (wrap list)) :
    ∃ depth, t.store.held q depth ty = some list := by
  obtain ⟨s, s', depth, hs, hrun, hlater⟩ := htold
  have hidle := (hs.perform hrun).idle
  cases depth with
  | zero => cases hrun
  | succ depth =>
    rw [perform_ask, h.inquire, bind_assoc] at hrun
    obtain ⟨list', u, hask, hrest⟩ := exists_of_bind hrun
    obtain ⟨hanswer, rfl⟩ := EStateM.Result.ok.inj hrest
    obtain rfl := h.injective _ _ (Except.ok.inj hanswer)
    exact ⟨depth, hlater.later.precedes.held (q.held_of_ask (completerLoader_later depth) hask hidle)⟩

/-- What is held is told when the question is asked. -/
theorem Listing.ServedBy.told (h : q.ServedBy query wrap) (ht : t.TopLevel) {depth : Nat}
    (hheld : t.store.held q depth ty = some list) : t.Told query ty (wrap list) := by
  refine ⟨t, t, depth + 1, ht, ?_, .refl⟩
  rw [perform_ask, h.inquire, bind_assoc, bind_run (q.ask_of_held hheld)]
  rfl

end Told

namespace Derivation

/-- The query for the list. -/
def query : Derivation β → Query
  | regions => .regionArguments
  | allTypes => .allTypeParams
  | allRegions => .allRegionParams
  | allEffects => .allEffectParams

/-- The query for what a class type itself contributes. -/
def partQuery : Derivation β → Query
  | regions => .regionArguments
  | allTypes => .typeArguments
  | allRegions => .regionArguments
  | allEffects => .effectArguments

/-- The answer that holds a list. -/
def answer : Derivation β → List β → Answer
  | regions => .regions
  | allTypes => .types
  | allRegions => .regions
  | allEffects => .effects

variable (d : Derivation β)

theorem answer_injective (list list' : List β) (h : d.answer list = d.answer list') : list = list' := by
  cases d <;> injection h

theorem served : d.listing.ServedBy d.query d.answer where
  inquire _ _ _ := by cases d <;> rfl
  injective := d.answer_injective

theorem part_served : d.part.ServedBy d.partQuery d.answer where
  inquire _ _ _ := by cases d <;> rfl
  injective := d.answer_injective

variable {d} {load : Loader} {depth : Nat} {s : Session} {ty outer : TypeId} {symbol : Option SymbolId}
  {erased : Bool} {around own : List β}

variable {t : Store} {info : ClassInfo} {all : List β}

/-- **What is kept is what is around and then what the type itself contributes.** -/
theorem Accumulates.eq_append (hd : d.Accumulates) (ht : t.Collected) (hinfo : t.class? ty = some info)
    (hne : info.outer ≠ ty) (hall : t.list? d.slot ty = some all) :
    ∃ own around depth, t.list? d.part.slot ty = some own ∧
      t.held d.listing depth info.outer = some around ∧ all = around ++ own := by
  obtain ⟨info', own, hinfo', hown, hcases⟩ := hd.follows_iff.1 (ht.follows d ty all hall hd)
  obtain rfl := Option.mem_unique hinfo hinfo'
  obtain ⟨-, around, depth, haround, heq⟩ := hcases.resolve_left fun h => hne h.1.eq
  exact ⟨own, around, depth, hown, haround, heq⟩

/-- Once what is around and what the type itself contributes is held, the question is answered. -/
theorem Accumulates.ask_returns (hd : d.Accumulates) (hs : s.store.Collected) (hidle : s.store.Idle)
    (hinfo : s.store.class? ty = some info) (hne : info.outer ≠ ty)
    (hown : s.store.list? d.part.slot ty = some own)
    (haround : s.store.held d.listing depth info.outer = some around) :
    (d.listing.ask load (depth + 1) ty).Returns s fun list _ => list = around ++ own := by
  obtain ⟨data, hdata, hkind⟩ := Store.class?_eq_some.1 hinfo
  cases hslot : d.slot.read info with
  | some all =>
    have hall : s.store.list? d.slot ty = some all := by rw [Store.list?, hinfo]; exact hslot
    refine ⟨all, s, d.listing.ask_of_list? hall, ?_⟩
    obtain ⟨own', around', depth', hown', haround', rfl⟩ := hd.eq_append hs hinfo hne hall
    obtain rfl := Option.mem_unique hown hown'
    rw [Store.held_unique haround haround']
  | none =>
    have hrun : d.listing.ask load (depth + 1) ty s = remember d.slot ty (around ++ own) s := by
      rw [Listing.ask_class hdata hkind hslot, hd.work_eq hdata hkind, gather,
        bind_run (Listing.ask_of_list? hown), if_neg fun h => hne h.eq,
        bind_run (Listing.ask_of_held haround)]
    rw [remember_run hinfo, if_pos hidle.inFlight, hslot] at hrun
    exact ⟨around ++ own, _, hrun, rfl⟩

end Derivation

/-- In a store that is worked with through its own handles no class encloses itself. -/
theorem Store.Consistent.outer_ne {s : Store} {ty : TypeId} {info : ClassInfo} (hs : s.Consistent)
    (hinfo : s.class? ty = some info) : info.outer ≠ ty := by
  obtain ⟨data, hdata, hkind⟩ := Store.class?_eq_some.1 hinfo
  have holder : info.outer.index < ty.index := hs.around_lt hdata (by rw [hkind]; rfl)
  intro heq
  rw [heq] at holder
  exact Nat.lt_irrefl _ holder

end RegionTypes

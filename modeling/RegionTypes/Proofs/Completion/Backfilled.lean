import RegionTypes.Proofs.Completion.Accumulated
import RegionTypes.Proofs.Completion.Ahead
import RegionTypes.Proofs.Store.Consistent

/-!
# Region arguments that were filled in

A class type that is written without region arguments gets a root for each formal parameter of its
class, and keeps them.  They are worked out from the canonical type of the class, in the middle of which
completers may run.  As long as the class is not damaged its canonical type is always the same, so what
is kept between the steps of a script goes on to follow from it.

* `Store.Attached` — the types of symbols belong to them, and only damaged symbols have error types.
* `Store.Intact` — the canonical type of a symbol is no error type; it is then the one of old
  (`Store.Precedes.canonical?_of_intact`).
* `Store.Backfilled` — **every derived list that is kept follows**, unless the class is damaged.
* `Session.TopLevel.backfilled` — so it is between the steps of every script.
-/

namespace RegionTypes

open Run Tie

namespace Store

variable {s t : Store} {sym : SymbolId} {symbol : Option SymbolId} {ty c : TypeId} {data : TypeData}
  {β : Type} {list : List β}

/-! ### The types of symbols -/

/-- The type of a symbol has the symbol, and it is an error type only if the symbol is damaged. -/
def Attached (s : Store) : Prop :=
  ∀ sym y ty, s.symbol? sym = some y → y.type = some ty →
    s.Owns ty (some sym) ∧ (s.IsErrorType ty → s.Damaged sym)

theorem exists_of_updateSymbol {a : SymbolId} {f : Symbol → Symbol} {y' : Symbol}
    (h : (s.updateSymbol a f).symbol? sym = some y') :
    ∃ y, s.symbol? sym = some y ∧ (y' = y ∨ a = sym ∧ y' = f y) := by
  rw [symbol?_updateSymbol] at h
  split at h
  · next ha =>
    obtain ⟨y, hy, rfl⟩ := Option.map_eq_some_iff.1 h
    exact ⟨y, hy, .inr ⟨ha, rfl⟩⟩
  · exact ⟨y', h, .inl rfl⟩

/-- Where a symbol has got its type from: it had it before, or the type was made for it. -/
theorem Change.type_cases (h : s.Change t) {y' : Symbol} (hy' : t.symbol? sym = some y')
    (htype : y'.type = some ty) :
    (∃ y, s.symbol? sym = some y ∧ y.type = some ty) ∨
      t.Owns ty (some sym) ∧ (t.IsErrorType ty → t.Damaged sym) := by
  have hupdate : ∀ {a : SymbolId} {f : Symbol → Symbol}, (s.updateSymbol a f).symbol? sym = some y' →
      (∀ y : Symbol, (f y).type = y.type) → ∃ y, s.symbol? sym = some y ∧ y.type = some ty := by
    intro a f hfound hf
    obtain ⟨y, hy, rfl | ⟨-, rfl⟩⟩ := exists_of_updateSymbol hfound
    · exact ⟨y', hy, htype⟩
    · exact ⟨y, hy, (hf y).symm.trans htype⟩
  cases h with
  | routine h =>
    cases h with
    | declare =>
      rw [symbol?_pushSymbol] at hy'
      split at hy'
      · obtain rfl := Option.some.inj hy'
        cases htype
      · exact .inl ⟨y', hy', htype⟩
    | attach a made y data hy hnone hdata hsym hkind =>
      obtain ⟨z, hz, rfl | ⟨rfl, rfl⟩⟩ := exists_of_updateSymbol hy'
      · exact .inl ⟨y', hz, htype⟩
      · obtain rfl := Option.some.inj htype
        refine .inr ⟨⟨data, hdata, hsym⟩, ?_⟩
        rintro ⟨found, hfound, outer, houter⟩
        obtain rfl := Option.mem_unique hdata hfound
        exact absurd houter (hkind outer)
    | damage a made data hdata hsym =>
      obtain ⟨z, hz, rfl | ⟨rfl, rfl⟩⟩ := exists_of_updateSymbol hy'
      · exact .inl ⟨y', hz, htype⟩
      · obtain rfl := Option.some.inj htype
        refine .inr ⟨⟨data, hdata, hsym⟩, fun herror => ?_⟩
        exact ⟨z.damaged made, made, hy', rfl, rfl, rfl, herror⟩
    | flags | enter | detach | completing => exact .inl (hupdate hy' fun _ => rfl)
    | _ => exact .inl ⟨y', hy', htype⟩
  | install => exact .inl (hupdate hy' fun _ => rfl)
  | prototyped | thrown => exact .inl ⟨y', hy', htype⟩

theorem Precedes.isErrorType_of_later (h : s.Precedes t) (hdata : s.type? ty = some data)
    (herror : t.IsErrorType ty) : s.IsErrorType ty := by
  obtain ⟨data', hdata', hkind'⟩ := herror
  obtain ⟨found, hfound, hkeeps⟩ := h.types ty data hdata
  obtain rfl := Option.mem_unique hdata' hfound
  exact ⟨data, hdata, hkeeps.kind.isError_of_later hkind'⟩

theorem Change.attached (h : s.Change t) (hs : s.Attached) : t.Attached := by
  have hst := h.evolves.precedes
  intro sym y' ty hy' htype
  rcases h.type_cases hy' htype with ⟨y, hy, hold⟩ | hnew
  · obtain ⟨howns, hdamaged⟩ := hs sym y ty hy hold
    obtain ⟨data, hdata, -⟩ := id howns
    exact ⟨hst.owns howns, fun herror => h.damaged (hdamaged (hst.isErrorType_of_later hdata herror))⟩
  · exact hnew

theorem Later.attached (h : s.Later t) (hs : s.Attached) : t.Attached := by
  induction h with
  | refl => exact hs
  | tail _ hchange ih => exact hchange.attached ih

theorem initial_attached (options : DisplayOptions) : (initial options).Attached := by
  intro sym y ty hy htype
  refine ⟨((initial_consistent options).symbols sym y hy).canonical ty htype, fun herror => ?_⟩
  have hall : ∀ y ∈ initialSymbols, ∀ ty ∈ y.type,
      (initialTypes[ty.index]?.any fun data => data.kind.tag = .error) →
        y.kind = .error ∧ y.members = .error := by
    decide
  obtain ⟨data, hdata, outer, hkind⟩ := id herror
  have hfound : initialTypes[ty.index]? = some data := (List.getElem?_toArray).symm.trans hdata
  obtain ⟨hsymbol, hmembers⟩ := hall y (mem_initialSymbols hy) ty htype (by simp [hfound, hkind, Kind.tag])
  exact ⟨y, ty, hy, hsymbol, hmembers, htype, herror⟩

/-! ### Classes that are not damaged -/

/-- The canonical type of the symbol is no error type. -/
def Intact (s : Store) (symbol : Option SymbolId) : Prop :=
  ∀ c, s.canonical? symbol = some c → ¬ s.IsErrorType c

theorem exists_of_canonical? (h : s.canonical? symbol = some c) :
    ∃ sym y, symbol = some sym ∧ s.symbol? sym = some y ∧ y.type = some c := by
  obtain ⟨sym, rfl, hsym⟩ := Option.bind_eq_some_iff.1 h
  obtain ⟨y, hy, htype⟩ := Option.bind_eq_some_iff.1 hsym
  exact ⟨sym, y, rfl, hy, htype⟩

theorem Attached.intact (h : s.Attached) (hsound : ∀ sym, symbol = some sym → ¬ s.Damaged sym) :
    s.Intact symbol := by
  intro c hc herror
  obtain ⟨sym, y, rfl, hy, htype⟩ := exists_of_canonical? hc
  exact hsound sym rfl ((h sym y c hy htype).2 herror)

theorem Intact.not_damaged (h : s.Intact (some sym)) : ¬ s.Damaged sym := by
  rintro ⟨y, c, hy, -, -, htype, herror⟩
  exact h c (canonical?_eq_some.2 ⟨y, hy, htype⟩) herror

/-- The canonical type of a class that is not damaged is the one of old. -/
theorem Precedes.canonical?_of_intact (h : s.Precedes t) (hintact : t.Intact symbol)
    (hc : s.canonical? symbol = some c) : t.canonical? symbol = some c := by
  obtain ⟨c', hc', rfl | herror⟩ := h.canonical? hc
  · exact hc'
  · exact absurd herror (hintact c' hc')

theorem Precedes.intact_of_later (h : s.Precedes t) (hintact : t.Intact symbol) : s.Intact symbol :=
  fun c hc herror => hintact c (h.canonical?_of_intact hintact hc) (h.isErrorType herror)

/-! ### Lists that are kept -/

/-- Apart from lists, a list follows from the canonical type of its own class only. -/
theorem follows_congr {d : Derivation β} (h : d.Follows s.canonical? s ty list)
    (hsame : ∀ sym y, s.Owns ty (some sym) → s.symbol? sym = some y →
      t.canonical? (some sym) = s.canonical? (some sym)) : d.Follows t.canonical? s ty list := by
  have hknown : ∀ data, s.type? ty = some data → (∀ sym, data.symbol = some sym →
      ∃ y, s.symbol? sym = some y) → t.canonical? data.symbol = s.canonical? data.symbol := by
    intro data hdata hsymbol
    cases hsym : data.symbol with
    | none => rfl
    | some sym =>
      obtain ⟨y, hy⟩ := hsymbol sym hsym
      exact hsame sym y ⟨data, hdata, hsym⟩ hy
  cases d with
  | regions =>
    cases h with
    | given hdata hdeclared hgiven => exact .given hdata hdeclared hgiven
    | own hdata hdeclared hsymbol hown =>
      refine .own hdata hdeclared hsymbol ?_
      rw [hknown _ hdata hsymbol]
      exact hown
    | omitted hdata hdeclared herased hcanonical hne hformals =>
      refine .omitted hdata hdeclared herased ((hknown _ hdata fun sym hsym => ?_).trans hcanonical) hne
        hformals
      -- a symbol that has a type is there
      obtain ⟨sym', y, hsym', hy, -⟩ := exists_of_canonical? hcanonical
      rw [Option.mem_unique hsym hsym']
      exact ⟨y, hy⟩
  | allTypes | allRegions | allEffects => exact h

/-- Every derived list that is kept follows from what the store holds, unless the canonical type of the
class is an error type. -/
structure Backfilled (s : Store) : Prop where
  idle : s.inFlight = 0 → s.Idle
  follows : ∀ {β : Type} (d : Derivation β) ty data list, s.list? d.slot ty = some list →
    s.type? ty = some data → s.Intact data.symbol → d.Follows s.canonical? s ty list

/-- A list that was kept before. -/
theorem Backfilled.follows_later {d : Derivation β} (h : s.Backfilled) (hmoves : s.Precedes t)
    (hsame : ∀ sym y, s.symbol? sym = some y → t.Intact (some sym) →
      t.canonical? (some sym) = s.canonical? (some sym))
    (hlist : s.list? d.slot ty = some list) (hdata : t.type? ty = some data)
    (hintact : t.Intact data.symbol) : d.Follows t.canonical? t ty list := by
  obtain ⟨info, hinfo, -⟩ := Option.bind_eq_some_iff.1 hlist
  obtain ⟨data₀, hdata₀, -⟩ := class?_eq_some.1 hinfo
  obtain ⟨data', hdata', hkeeps⟩ := hmoves.types ty data₀ hdata₀
  obtain rfl := Option.mem_unique hdata' hdata
  rw [hkeeps.symbol] at hintact
  have hfollows := h.follows d ty data₀ list hlist hdata₀ (hmoves.intact_of_later hintact)
  refine hmoves.follows (follows_congr hfollows fun sym y howns hy => ?_)
  obtain ⟨found, hfound, hsym⟩ := howns
  obtain rfl := Option.some.inj (hdata₀.symm.trans hfound)
  rw [hsym] at hintact
  exact hsame sym y hy hintact

/-- Lists that are kept have to follow, unless the class is damaged. -/
def backfilledPolicy : Policy where
  Holds := Backfilled
  Rests := Idle
  Tracks s _ _ ty := ∀ data, s.type? ty = some data → s.Intact data.symbol
  canonical := canonical?

instance : backfilledPolicy.Lawful where
  change {s _ f} h hf hmoves := by
    refine ⟨((Balanced.refl s).permits hf).idle_of_rest h.idle,
      fun d ty data list hlist hdata hintact => ?_⟩
    rw [hf.list?_derived d.slot_derived] at hlist
    refine h.follows_later hmoves (fun sym y hy hsound => ?_) hlist hdata hintact
    exact (hf.canonical?_cases hy).resolve_right hsound.not_damaged
  keep {s _ d ty list} h hrest hlist hmoves := by
    refine ⟨fun hrest => ⟨hrest, (h.idle hrest).completing⟩, fun e a data list' hlist' hdata hintact => ?_⟩
    refine forall_list?_fill
      (Q := fun e a list' => ∀ data, (s.setList d.slot ty list).type? a = some data →
        (s.setList d.slot ty list).Intact data.symbol →
          e.Follows s.canonical? (s.setList d.slot ty list) a list')
      (fun data hdata hintact => ?_) (fun e a list' hlist' data hdata hintact => ?_) e a list' hlist' data
      hdata hintact
    · refine hmoves.follows (hlist (h.idle hrest) fun data₀ hdata₀ => ?_)
      obtain ⟨data', hdata', hkeeps⟩ := hmoves.types ty data₀ hdata₀
      obtain rfl := Option.mem_unique hdata' hdata
      rw [hkeeps.symbol] at hintact
      exact hmoves.intact_of_later hintact
    · exact h.follows_later hmoves (fun _ _ _ _ => rfl) hlist' hdata hintact
  enter {s} sym h :=
    ⟨fun hrest => absurd hrest (Nat.succ_ne_zero _), fun d ty data list hlist hdata hintact =>
      h.follows_later (s.later_enterLoading sym).precedes
        (fun _ _ _ _ => canonical?_enterLoading s sym _) hlist hdata hintact⟩
  stop {_ s'} sym h h' _ hbalanced :=
    ⟨hbalanced.idle_of_rest h.idle, fun d ty data list hlist hdata hintact =>
      h'.follows_later (s'.later_stopLoading sym).precedes
        (fun _ _ _ _ => canonical?_stopLoading s' sym _) hlist hdata hintact⟩
  idle h := h
  before h _ hbalanced hrests := h.idle (hbalanced.inFlight.symm.trans hrests.inFlight)
  canonical _ _ _ := rfl
  lasts _ hmoves _ _ htracks hdata hcanonical :=
    hmoves.canonical?_of_intact (htracks _ hdata) hcanonical

theorem initial_backfilled (options : DisplayOptions) : (initial options).Backfilled where
  idle _ := initial_idle options
  follows d ty data list hlist _ _ := by
    rw [initial_list?] at hlist
    cases hlist

end Store

theorem Session.TopLevel.attached {s : Session} (h : s.TopLevel) : s.store.Attached := by
  induction h with
  | initial options => exact Store.initial_attached options
  | @step s s' outcome depth step _ hrun ih =>
    exact Store.Later.attached ((makeStep_along (perform_later depth step.2)).of_ok hrun) ih
  | report _ ih => exact ih

/-- **Between the steps of a script** every derived list that is kept follows, unless the class is
damaged. -/
theorem Session.TopLevel.backfilled {s : Session} (h : s.TopLevel) : s.store.Backfilled :=
  h.observes (P := Store.backfilledPolicy) Store.initial_backfilled

end RegionTypes

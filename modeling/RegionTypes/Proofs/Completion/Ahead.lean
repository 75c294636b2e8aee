import RegionTypes.Proofs.Completion.Derived
import RegionTypes.Proofs.Store.Damage

/-!
# A run that has kept more

Two runs start from stores that differ in derived lists only: the second has some that the first has
not, and they follow from what both hold.  The first run works them out when it needs them, and it
comes to the same lists, since nothing that they follow from changes, except for one thing: the
canonical type of a class that is damaged.  This matters where omitted region arguments were filled
in from the formal parameters of the class.

* `Store.Warms` — the second store, as it was at the start.
* `Store.Backfills` — a class of which omitted region arguments were filled in.
* `Store.Ahead` — the two stores later on.
* `Store.ahead` — the tie of the two runs, up to damage of such a class.
* `regionArguments_recalls`, `Derivation.Accumulates.recalls` — **what the second run has kept, the
  first works out**.
* `perform_ahead` — every command, by induction on how deeply completers start each other.
-/

namespace RegionTypes

open Run Tie

variable {c : TypeId} {y : Symbol}

namespace Store

variable {r w s t : Store} {β : Type} {d : Derivation β} {ty : TypeId} {sym : SymbolId} {list : List β}

/-! ### The two stores -/

/-- The second store has kept more, all of which follows. -/
structure Warms (r w : Store) : Prop where
  twin : r.Twin w
  later : r.Later w
  derived : ∀ {β : Type} (d : Derivation β) ty list, w.list? d.slot ty = some list →
    r.list? d.slot ty = some list ∨ d.Follows r.canonical? w ty list

/-- Omitted region arguments of a type of the class were filled in. -/
def Backfills (r w : Store) (sym : SymbolId) : Prop :=
  ∃ ty list, w.Owns ty (some sym) ∧ w.list? .regionArgs ty = some [] ∧
    r.list? .resolvedRegions ty = none ∧ w.list? .resolvedRegions ty = some list ∧ list ≠ []

/-- The stores of the two runs later on. -/
structure Ahead (r w s t : Store) : Prop where
  first : r.Later s
  second : w.Later t
  /-- A list that only the second run has kept was there from the start. -/
  lists : ∀ {β : Type} (d : Derivation β) ty, t.list? d.slot ty = s.list? d.slot ty ∨
    s.list? d.slot ty = none ∧ t.list? d.slot ty = w.list? d.slot ty
  /-- Canonical types stay, unless there is damage. -/
  canonical : ∀ sym y, r.symbol? sym = some y →
    s.canonical? (some sym) = r.canonical? (some sym) ∨ s.Damaged sym

/-! ### Changes to both stores -/

theorem Twin.class?_plain (h : s.Twin t) (ty : TypeId) :
    (t.class? ty).map ClassInfo.plain = (s.class? ty).map ClassInfo.plain := by
  have hplain : ∀ u : Store, (u.class? ty).map ClassInfo.plain =
      ((u.type? ty).map TypeData.plain).bind fun data => data.kind.class? := by
    intro u
    rw [class?, kind?]
    cases u.type? ty with
    | none => rfl
    | some data => exact (Kind.class?_plain data.kind).symm
  rw [hplain, hplain, h.types]

theorem Twin.exists_class? {info : ClassInfo} (h : s.Twin t) (hinfo : s.class? ty = some info) :
    ∃ info', t.class? ty = some info' ∧ info'.plain = info.plain :=
  Option.map_eq_some_iff.1 ((h.class?_plain ty).trans (congrArg (Option.map ClassInfo.plain) hinfo))

theorem canonical?_eq_some :
    s.canonical? (some sym) = some c ↔ ∃ y, s.symbol? sym = some y ∧ y.type = some c := by
  rw [canonical?, Option.bind_some, Option.bind_eq_some_iff]

theorem canonical?_updateSymbol_of_ne {a : SymbolId} {f : Symbol → Symbol} (h : a ≠ sym) :
    (s.updateSymbol a f).canonical? (some sym) = s.canonical? (some sym) := by
  show ((s.updateSymbol a f).symbol? sym).bind Symbol.type = (s.symbol? sym).bind Symbol.type
  rw [symbol?_updateSymbol, if_neg h]

theorem Permits.canonical?_cases {installs : Prop} {f : Store → Store} (hf : s.Permits installs f)
    (hy : s.symbol? sym = some y) :
    (f s).canonical? (some sym) = s.canonical? (some sym) ∨ (f s).Damaged sym := by
  cases hf with
  | declare => exact .inl (canonical?_pushSymbol rfl _)
  | declareTyped name owner kind flags =>
    left
    have hne : s.nextSymbol ≠ sym := (ne_nextSymbol (Option.isSome_iff_exists.2 ⟨y, hy⟩)).symm
    exact (canonical?_updateSymbol_of_ne hne).trans
      (canonical?_pushSymbol (s := s) (y := { name, owner, kind, flags }) rfl _)
  | symbol a f hf => exact .inl (canonical?_updateSymbol (fun y => (hf y).1) _)
  | damage a =>
    by_cases ha : a = sym
    · right
      subst ha
      refine ⟨y.damaged s.nextType, s.nextType, ?_, rfl, rfl, rfl, ?_⟩
      · show ((s.pushType _).updateSymbol a _).symbol? a = _
        rw [symbol?_updateSymbol, if_pos rfl]
        exact congrArg (Option.map _) hy
      · refine ⟨{ symbol := some a, kind := .error WellKnown.missing }, ?_, _, rfl⟩
        exact s.type?_nextType _
    · exact .inl (canonical?_updateSymbol_of_ne ha)
  | _ => exact .inl rfl

namespace Ahead

theorem change {installs : Prop} {f : Store → Store} (h : r.Ahead w s t) (hst : s.Twin t)
    (hf : s.Permits installs f) (hs : s.Later (f s)) (ht : t.Later (f t)) : r.Ahead w (f s) (f t) where
  first := h.first.trans hs
  second := h.second.trans ht
  lists d ty := by
    rw [hf.list?_derived d.slot_derived, (hst.permits hf).list?_derived d.slot_derived]
    exact h.lists d ty
  canonical sym y hy := by
    obtain ⟨y', hy', _⟩ := h.first.precedes.symbols sym y hy
    rcases h.canonical sym y hy with hsame | hdamaged
    · exact (hf.canonical?_cases hy').imp_left fun heq => heq.trans hsame
    · exact .inr (hs.damaged hdamaged)

theorem enterLoading (h : r.Ahead w s t) (sym : SymbolId) :
    r.Ahead w (s.enterLoading sym) (t.enterLoading sym) where
  first := h.first.trans (s.later_enterLoading sym)
  second := h.second.trans (t.later_enterLoading sym)
  lists := h.lists
  canonical a y hy := by
    rw [canonical?_enterLoading]
    exact (h.canonical a y hy).imp_right (s.later_enterLoading sym).damaged

theorem stopLoading (h : r.Ahead w s t) (sym : SymbolId) :
    r.Ahead w (s.stopLoading sym) (t.stopLoading sym) where
  first := h.first.trans (s.later_stopLoading sym)
  second := h.second.trans (t.later_stopLoading sym)
  lists := h.lists
  canonical a y hy := by
    rw [canonical?_stopLoading]
    exact (h.canonical a y hy).imp_right (s.later_stopLoading sym).damaged

/-- A list that was unset in both is kept in both. -/
theorem fill (h : r.Ahead w s t) (hst : s.Twin t)
    (hs : s.Later (s.setList d.slot ty list))
    (ht : t.Later (t.setList d.slot ty list)) :
    r.Ahead w (s.setList d.slot ty list) (t.setList d.slot ty list) where
  first := h.first.trans hs
  second := h.second.trans ht
  lists e a := by
    rcases d.same_or_untouched e with heq | huntouched
    · cases heq
      rw [list?_fill_self, list?_fill_self]
      split
      · left
        have hclass := congrArg (Option.map fun _ => list) (hst.class?_plain a)
        rwa [Option.map_map, Option.map_map] at hclass
      · exact h.lists d a
    · rw [list?_fill_of_untouched huntouched, list?_fill_of_untouched huntouched]
      exact h.lists e a
  canonical sym y hy := (h.canonical sym y hy).imp_right hs.damaged

/-- A list that the second run has is kept by the first. -/
theorem catchUp (h : r.Ahead w s t) (hlist : t.list? d.slot ty = some list)
    (hs : s.Later (s.setList d.slot ty list)) :
    r.Ahead w (s.setList d.slot ty list) t where
  first := h.first.trans hs
  second := h.second
  lists e a := by
    rcases d.same_or_untouched e with heq | huntouched
    · cases heq
      rw [list?_fill_self]
      split
      · next ha =>
        subst ha
        cases hinfo : s.class? ty with
        | none =>
          refine (h.lists d ty).imp (fun heq => ?_) fun hahead => ⟨rfl, hahead.2⟩
          rw [heq, list?, hinfo]
          rfl
        | some => exact .inl hlist
      · exact h.lists d a
    · rw [list?_fill_of_untouched huntouched]
      exact h.lists e a
  canonical sym y hy := (h.canonical sym y hy).imp_right hs.damaged

end Ahead

theorem Twin.list?_declared {slot : Slot β} (h : s.Twin t) (hslot : slot.Declared) (ty : TypeId) :
    t.list? slot ty = s.list? slot ty := by
  have hplain : ∀ u : Store, u.list? slot ty = ((u.class? ty).map ClassInfo.plain).bind slot.read := by
    intro u
    rw [list?]
    cases u.class? ty with
    | none => rfl
    | some info => exact (hslot.read_plain info).symm
  rw [hplain, hplain, h.class?_plain]

end Store

/-! ### The two runs -/

/-- The sessions of the two runs. -/
structure Session.Ahead (r w : Store) (s t : Session) : Prop where
  twin : s.Twin t
  trace : t.trace.map TraceEntry.plain = s.trace.map TraceEntry.plain
  store : r.Ahead w s.store t.store

theorem Session.Ahead.note {r w : Store} {s t : Session} {entry entry' : TraceEntry}
    (h : Session.Ahead r w s t) (hentry : entry'.plain = entry.plain) :
    Session.Ahead r w { s with trace := entry :: s.trace } { t with trace := entry' :: t.trace } :=
  ⟨⟨h.twin.store, h.twin.names, h.twin.audience⟩, by
    rw [List.map_cons, List.map_cons, hentry, h.trace], h.store⟩

/-- **The tie of the two runs**, up to damage of a class of which omitted region arguments were filled
in.  The first run, which has more to work out, may also be nested too deeply. -/
def Store.ahead (r w : Store) : Tie where
  Moves := Store.Later
  Holds := Session.Ahead r w
  Ends s t := t.trace.map TraceEntry.plain = s.trace.map TraceEntry.plain
  Void u := ∃ sym, r.Backfills w sym ∧ u.Damaged sym
  Lax := True
  Installs := True

variable {r w : Store} {s t : Session} {load : Loader} {β : Type} {d : Derivation β} {ty : TypeId}
  {list : List β} {depth : Nat}

instance (r w : Store) : (r.ahead w).Begins Outcome.Agrees where
  preorder := inferInstanceAs (IsPreorder Store Store.Later)
  void hmoves := fun ⟨sym, hfills, hdamaged⟩ => ⟨sym, hfills, Store.Later.damaged hmoves hdamaged⟩
  twin h := h.twin
  ends h := h.trace
  log _ h := h.note rfl
  agrees h := h
  stepped hab h := h.note (congrArg TraceEntry.stepped hab)
  ended _ _ h := h.note rfl
  began _ h := h.note rfl
  names _ h := ⟨⟨h.twin.store, rfl, h.twin.audience⟩, h.trace, h.store⟩
  change h hf hs ht := ⟨⟨h.twin.store.change hf, h.twin.names, h.twin.audience⟩, h.trace,
    h.store.change h.twin.store hf hs ht⟩
  owns _ hmoves := (Store.Later.precedes hmoves).owns

/-! ### Derived lists -/

theorem remember_later {slot : Slot β} (hslot : slot.Derived) (ty : TypeId) (list : List β) :
    Along Store.Later (remember slot ty list) :=
  (remember_keeps (T := Tie.ofMoves Store.Later) (fun _ _ h => .single (.routine h.routine)) hslot ty
    list).along

/-- A list that the second run did not have at the start is unset in both runs or the same. -/
theorem Store.Ahead.list?_eq {s t : Store} (h : r.Ahead w s t) (hw : w.list? d.slot ty = none) :
    t.list? d.slot ty = s.list? d.slot ty := by
  rcases h.lists d ty with heq | ⟨hunset, hkept⟩
  · exact heq
  · rw [hunset, hkept, hw]

theorem current_ahead (hw : w.list? d.slot ty = none) : (r.ahead w).Keeps (d.slot.current ty) := by
  refine keepsBy_of (current_still _ ty).of_eq fun s t hst => ?_
  cases hdata : s.store.type? ty with
  | none =>
    rw [Slot.current, kindOf_bind]
    exact inStep_typeData_of_none hst hdata
  | some =>
    obtain ⟨data', hdata', _⟩ := hst.twin.store.exists_type? hdata
    have heq := hst.store.list?_eq hw
    rw [Store.list?, Store.list?, Store.class?, Store.class?, Store.kind?, Store.kind?, hdata, hdata'] at heq
    unfold InStep
    rw [Slot.current_bind_read hdata, Slot.current_bind_read hdata']
    exact .inr ⟨heq.symm, hst⟩

/-- Keeping a list that the second run did not have at the start. -/
theorem remember_ahead (hw : w.list? d.slot ty = none) (list : List β) :
    (r.ahead w).Keeps (remember d.slot ty list) := by
  refine remember_keeps_of (fun _ _ h => .single (.routine h.routine)) d.slot_derived
    (current_ahead hw) ?_
  intro s t data info hst hdata hkind hunset hrest hmoves
  have hinfo : s.store.class? ty = some info := Store.class?_eq_some.2 ⟨data, hdata, hkind⟩
  have hmoves' : t.store.Later (t.store.setList d.slot ty list) := by
    obtain ⟨info', hinfo', _⟩ := hst.twin.store.exists_class? hinfo
    refine Store.later_remember hinfo' ?_ (hst.twin.store.inFlight.trans hrest)
    have heq := hst.store.list?_eq hw
    rw [Store.list?, Store.list?, hinfo, hinfo'] at heq
    exact heq.trans hunset
  have htwin : Store.Twin (s.store.setList d.slot ty list) (t.store.setList d.slot ty list) :=
    ((Store.Twin.fill d.slot_derived s.store ty list).symm.trans hst.twin.store).trans
      (Store.Twin.fill d.slot_derived t.store ty list)
  exact ⟨⟨htwin, hst.twin.names, hst.twin.audience⟩, hst.trace,
    hst.store.fill hst.twin.store hmoves hmoves'⟩

/-- A list that the second run has is kept by the first, or it is there already. -/
theorem remember_recalls (hst : (r.ahead w).Holds s t) (hlist : t.store.list? d.slot ty = some list) :
    (r.ahead w).InStep Eq (remember d.slot ty list) (pure list) s t := by
  obtain ⟨info', hinfo', _⟩ := Option.bind_eq_some_iff.1 hlist
  obtain ⟨info, hinfo, _⟩ := hst.twin.store.symm.exists_class? hinfo'
  unfold InStep
  rw [remember_run hinfo]
  split
  · next hrest =>
    cases hread : d.slot.read info with
    | some kept =>
      have hkept : s.store.list? d.slot ty = some kept := by
        rw [Store.list?, hinfo]
        exact hread
      rcases hst.store.lists d ty with heq | ⟨hunset, -⟩
      · rw [hlist, hkept] at heq
        exact .inr ⟨(Option.some.inj heq).symm, hst⟩
      · rw [hkept] at hunset
        cases hunset
    | none =>
      have hmoves : s.store.Later (s.store.setList d.slot ty list) :=
        Store.later_remember hinfo hread hrest
      have htwin : Store.Twin (s.store.setList d.slot ty list) t.store :=
        (Store.Twin.fill d.slot_derived s.store ty list).symm.trans hst.twin.store
      exact .inr ⟨rfl, ⟨htwin, hst.twin.names, hst.twin.audience⟩, hst.trace,
        hst.store.catchUp hlist hmoves⟩
  · exact .inr ⟨rfl, hst⟩

/-! ### What the second run has kept -/

/-- What the second run holds, the first works out. -/
def Recalls (r w : Store) (load : Loader) (d : Derivation β) (depth : Nat) : Prop :=
  ∀ s t ty e list, (r.ahead w).Holds s t → t.store.held d.listing e ty = some list →
    (r.ahead w).InStep Eq (d.listing.ask load depth ty) (pure list) s t

theorem recalls_zero : Recalls r w load d 0 := by
  intro s t ty e list hst hheld
  rw [Listing.Lawful.zero]
  exact .inl (.inr ⟨trivial, rfl⟩)

/-- Asking follows the plan of the question: what is left to be shown is how the list is worked out
again. -/
theorem recalls_succ (hw : r.Warms w) (ih : Recalls r w load d depth)
    (hwork : ∀ s t ty data info list, (r.ahead w).Holds s t → s.store.type? ty = some data →
      data.kind = .classType info → r.list? d.slot ty = none →
      w.list? d.slot ty = some list → t.store.list? d.slot ty = some list →
      d.Follows r.canonical? w ty list →
        (r.ahead w).InStep Eq (d.listing.work load depth ty data.symbol data.erased info.outer)
          (pure list) s t) : Recalls r w load d (depth + 1) := by
  intro s t ty e list hst hheld
  obtain ⟨e', rfl, hlist | ⟨data', hdata', hclass', hother⟩⟩ := Store.held_cases hheld
  · rcases hst.store.lists d ty with heq | ⟨hunset, hkept⟩
    · unfold InStep
      rw [Listing.ask_of_list? (heq.symm.trans hlist)]
      exact .inr ⟨rfl, hst⟩
    · obtain ⟨info', hinfo', _⟩ := Option.bind_eq_some_iff.1 hlist
      obtain ⟨info, hinfo, _⟩ := hst.twin.store.symm.exists_class? hinfo'
      obtain ⟨data, hdata, hkind⟩ := Store.class?_eq_some.1 hinfo
      have hread : d.slot.read info = none := by rwa [Store.list?, hinfo] at hunset
      have hwlist := hkept.symm.trans hlist
      unfold InStep
      rw [Listing.ask_class hdata hkind hread]
      have hr : r.list? d.slot ty = none := by
        by_contra hset
        obtain ⟨list', hlist'⟩ := Option.ne_none_iff_exists'.1 hset
        rw [hst.store.first.precedes.list? (q := d.listing) hlist'] at hunset
        cases hunset
      refine hwork s t ty data info list hst hdata hkind hr hwlist hlist ?_
      refine (hw.derived d ty list hwlist).resolve_left fun hlist' => ?_
      rw [hr] at hlist'
      cases hlist'
  · obtain ⟨data, hdata, hplain⟩ := hst.twin.store.symm.exists_type? hdata'
    have hkind : data.kind = data'.kind := by
      have hsame : data.kind.plain = data'.kind.plain := congrArg TypeData.kind hplain
      rcases Kind.plain_eq_cases hsame with heq | ⟨info, _, hinfo, _⟩
      · exact heq
      · rw [hinfo] at hclass'
        cases hclass'
    unfold InStep
    rw [Listing.ask_other hdata (hkind ▸ hclass'), hkind]
    cases hinstead : d.listing.other data'.kind with
    | inl =>
      rw [hinstead] at hother
      obtain rfl := Option.some.inj hother
      exact .inr ⟨rfl, hst⟩
    | inr instead =>
      rw [hinstead] at hother
      exact ih s t instead e' list hst hother

namespace Session.Ahead

variable (h : Session.Ahead r w s t)

include h

/-- What was declared at the start is declared in the first run. -/
theorem declared {slot : Slot β} (hslot : slot.Declared) (hlist : w.list? slot ty = some list) :
    s.store.list? slot ty = some list := by
  rw [← h.twin.store.list?_declared hslot]
  exact h.store.second.precedes.list?_declared hslot hlist

theorem data_eq {data data' : TypeData} (hdata : s.store.type? ty = some data)
    (hdata' : w.type? ty = some data') : data.symbol = data'.symbol ∧ data.erased = data'.erased := by
  obtain ⟨found, hfound, hlater⟩ := h.store.second.precedes.types ty data' hdata'
  obtain ⟨found', hfound', hplain⟩ := h.twin.store.exists_type? hdata
  obtain rfl : found = found' := Option.mem_unique hfound hfound'
  have hsymbol : found.plain.symbol = data.plain.symbol := by rw [hplain]
  have herased : found.plain.erased = data.plain.erased := by rw [hplain]
  exact ⟨hsymbol.symm.trans hlater.symbol, herased.symm.trans hlater.erased⟩

theorem outer_eq {info info' : ClassInfo} (hinfo : s.store.class? ty = some info)
    (hinfo' : w.class? ty = some info') : info.outer = info'.outer := by
  obtain ⟨found, hfound, hlater⟩ := h.store.second.precedes.exists_class? hinfo'
  have hplain := h.twin.store.class?_plain ty
  rw [hinfo, hfound] at hplain
  have houter : found.plain.outer = info.plain.outer := by rw [Option.some.inj hplain]
  exact houter.symm.trans hlater.outer

end Session.Ahead

variable {sym : SymbolId}

theorem Store.Ahead.canonicalType_run (h : r.Ahead w s.store t.store) (hy : r.symbol? sym = some y) :
    canonicalType (some sym) s = .ok (s.store.canonical? (some sym)) s := by
  obtain ⟨y', hy', -⟩ := h.first.precedes.symbols sym y hy
  exact RegionTypes.canonicalType_run fun _ hsym => ⟨y', Option.some.inj hsym ▸ hy'⟩

/-- Fills in the region arguments of a type for which none are given. -/
def fillRegions (load : Loader) (depth : Nat) (ty : TypeId) (symbol : Option SymbolId)
    (declared : List Path) : Run (List Path) := do
  match ← canonicalType symbol with
  | none => remember .resolvedRegions ty declared
  | some canonical =>
    if canonical = ty then remember .resolvedRegions ty declared
    else
      let formals ← regionArguments load depth canonical
      remember .resolvedRegions ty (List.replicate formals.length Path.root)

theorem fillRegions_later (hload : load.Follows Store.Later) (depth : Nat) (ty : TypeId)
    (symbol : Option SymbolId) (declared : List Path) :
    Along Store.Later (fillRegions load depth ty symbol declared) := by
  have hkeep : ∀ list, Along Store.Later (remember .resolvedRegions ty list) :=
    remember_later .resolvedRegions ty
  refine (canonicalType_later symbol).bind fun canonical => ?_
  split
  · exact hkeep declared
  · split
    · exact hkeep declared
    · exact (hload.keeps.regionArguments depth _).along.bind fun formals => hkeep _

theorem regionArguments_recalls_error (hst : (r.ahead w).Holds s t) (hc : s.store.IsErrorType c) :
    (r.ahead w).InStep Eq (regionArguments load depth c) (pure []) s t := by
  cases depth with
  | zero => exact .inl (.inr ⟨trivial, rfl⟩)
  | succ depth =>
    obtain ⟨data, hdata, outer, hkind⟩ := hc
    have hrun : regionArguments load (depth + 1) c s = .ok [] s := by
      rw [regionArguments, bind_run (typeData_run hdata), hkind]
      rfl
    unfold InStep
    rw [hrun]
    exact .inr ⟨rfl, hst⟩

theorem fillRegions_recalls_damaged (hst : (r.ahead w).Holds s t)
    (hlist : t.store.list? .resolvedRegions ty = some []) (hdamaged : s.store.Damaged sym) :
    (r.ahead w).InStep Eq (fillRegions load depth ty (some sym) []) (pure []) s t := by
  obtain ⟨y, c, hy, -, -, hc, herror⟩ := hdamaged
  have hcanonical : s.store.canonical? (some sym) = some c := Store.canonical?_eq_some.2 ⟨y, hy, hc⟩
  have hkeep : ∀ s', (r.ahead w).Holds s' t →
      (r.ahead w).InStep Eq (remember .resolvedRegions ty []) (pure []) s' t :=
    fun s' hst' => remember_recalls (d := .regions) hst' hlist
  unfold InStep
  rw [fillRegions, bind_run (canonicalType_run fun _ hsym => ⟨y, Option.some.inj hsym ▸ hy⟩), hcanonical]
  show (r.ahead w).InStep Eq (if c = ty then _ else _) (pure []) s t
  split
  · exact hkeep s hst
  · exact inStep_bind_pure (regionArguments_recalls_error hst herror)
      (fun formals => remember_later .resolvedRegions ty _) hkeep

/-- The type is the canonical one, or there is none. -/
theorem fillRegions_recalls_own {symbol : Option SymbolId} (hst : (r.ahead w).Holds s t)
    (hlist : t.store.list? .resolvedRegions ty = some [])
    (hsymbol : ∀ sym, symbol = some sym → ∃ y, r.symbol? sym = some y)
    (hown : ∀ c, r.canonical? symbol = some c → c = ty) :
    (r.ahead w).InStep Eq (fillRegions load depth ty symbol []) (pure []) s t := by
  have hkeep : (r.ahead w).InStep Eq (remember .resolvedRegions ty []) (pure []) s t :=
    remember_recalls (d := .regions) hst hlist
  cases symbol with
  | none => exact hkeep
  | some sym =>
    obtain ⟨y, hy⟩ := hsymbol sym rfl
    rcases hst.store.canonical sym y hy with hkept | hdamaged
    · unfold InStep
      rw [fillRegions, bind_run (hst.store.canonicalType_run hy), hkept]
      cases hc : r.canonical? (some sym) with
      | none => exact hkeep
      | some c =>
        show (r.ahead w).InStep Eq (if c = ty then _ else _) (pure []) s t
        rw [if_pos (hown c hc)]
        exact hkeep
    · exact fillRegions_recalls_damaged hst hlist hdamaged

/-- A root for each formal parameter of the class. -/
theorem fillRegions_recalls_kept {formals : List Path} (hst : (r.ahead w).Holds s t)
    (hlist : t.store.list? .resolvedRegions ty = some (List.replicate formals.length Path.root))
    (hy : r.symbol? sym = some y) (hcanonical : s.store.canonical? (some sym) = some c) (hne : c ≠ ty)
    (hformals : (r.ahead w).InStep Eq (regionArguments load depth c) (pure formals) s t) :
    (r.ahead w).InStep Eq (fillRegions load depth ty (some sym) [])
      (pure (List.replicate formals.length Path.root)) s t := by
  unfold InStep
  rw [fillRegions, bind_run (hst.store.canonicalType_run hy), hcanonical]
  show (r.ahead w).InStep Eq (if c = ty then _ else _) (pure _) s t
  rw [if_neg hne]
  exact inStep_bind_pure hformals (fun formals => remember_later .resolvedRegions ty _)
    fun s₁ hst₁ => remember_recalls (d := .regions) hst₁ hlist

section Recalls

variable (hw : r.Warms w) (hload : load.Follows Store.Later)

include hw hload

theorem regionArguments_recalls (depth : Nat) : Recalls r w load .regions depth := by
  induction depth with
  | zero => exact recalls_zero
  | succ depth ih =>
    refine recalls_succ hw ih ?_
    intro s t ty data info list hst hdata hkind hr hwlist hlist hfollows
    have hdeclare : ∀ declared, w.list? .regionArgs ty = some declared →
        (∀ s₁, (r.ahead w).Holds s₁ t → (r.ahead w).InStep Eq
          (if data.erased || !declared.isEmpty then remember .resolvedRegions ty declared
            else fillRegions load depth ty data.symbol declared) (pure list) s₁ t) →
        (r.ahead w).InStep Eq
          (Listing.regionArguments.work load depth ty data.symbol data.erased info.outer)
          (pure list) s t := by
      intro declared hdeclared hrest
      refine inStep_bind_pure ?_ (fun declared => ?_) hrest
      · unfold InStep
        rw [declaredList_of_list? (hst.declared .regionArgs hdeclared)]
        exact .inr ⟨rfl, hst⟩
      split
      · exact remember_later .resolvedRegions ty declared
      · exact fillRegions_later hload depth ty data.symbol declared
    cases hfollows with
    | given hdata' hdeclared hgiven =>
      refine hdeclare list hdeclared fun s₁ hst₁ => ?_
      rw [(hst.data_eq hdata hdata').2, if_pos hgiven]
      exact remember_recalls (d := .regions) hst₁ hlist
    | own hdata' hdeclared hsymbol hown =>
      refine hdeclare [] hdeclared fun s₁ hst₁ => ?_
      obtain ⟨hsame, herased⟩ := hst.data_eq hdata hdata'
      split
      · exact remember_recalls (d := .regions) hst₁ hlist
      · refine fillRegions_recalls_own hst₁ hlist ?_ ?_
        · intro sym hsym
          obtain ⟨y, hy⟩ := hsymbol sym (hsame.symm.trans hsym)
          exact ⟨y, (hw.twin.symbol? sym).symm.trans hy⟩
        · rw [hsame]
          exact hown
    | @omitted data' c formals e hdata' hdeclared herased hcanonical hne hformals =>
      refine hdeclare [] hdeclared fun s₁ hst₁ => ?_
      obtain ⟨hsame, herased'⟩ := hst.data_eq hdata hdata'
      have hnone : ¬ (data.erased || !([] : List Path).isEmpty) = true := by
        rw [herased', herased]
        exact Bool.false_ne_true
      rw [if_neg hnone, hsame]
      cases hsym : data'.symbol with
      | none =>
        rw [hsym] at hcanonical
        cases hcanonical
      | some sym =>
        rw [hsym] at hcanonical
        obtain ⟨y, hy, -⟩ := Store.canonical?_eq_some.1 hcanonical
        rcases hst₁.store.canonical sym y hy with hkept | hdamaged
        · refine fillRegions_recalls_kept hst₁ hlist hy (hkept.trans hcanonical) hne ?_
          exact ih s₁ t c e formals hst₁ (hst.store.second.precedes.held hformals)
        · cases formals with
          | nil => exact fillRegions_recalls_damaged hst₁ hlist hdamaged
          | cons =>
            -- here the two runs part
            have hfills : r.Backfills w sym :=
              ⟨ty, _, ⟨data', hdata', hsym⟩, hdeclared, hr, hwlist, List.cons_ne_nil _ _⟩
            exact .inl (excused_of_void (fillRegions_later hload depth ty _ [] s₁) ⟨sym, hfills, hdamaged⟩)

theorem part_recalls {own : List β} (hst : (r.ahead w).Holds s t)
    (hown : w.list? d.part.slot ty = some own) :
    (r.ahead w).InStep Eq (d.part.ask load (depth + 1) ty) (pure own) s t := by
  have hread (q : Listing β) [q.Lawful] (hslot : q.slot.Declared) (h : w.list? q.slot ty = some own) :
      (r.ahead w).InStep Eq (q.ask load (depth + 1) ty) (pure own) s t := by
    unfold InStep
    rw [Listing.ask_of_list? (hst.declared hslot h)]
    exact .inr ⟨rfl, hst⟩
  cases d with
  | regions | allRegions =>
    exact regionArguments_recalls hw hload (depth + 1) s t ty 1 own hst
      (hst.store.second.precedes.held (q := .regionArguments) (Store.held_of_list? hown))
  | allTypes => exact hread .typeArguments .typeArgs hown
  | allEffects => exact hread .effectArguments .effectArgs hown

theorem Derivation.Accumulates.recalls (hd : d.Accumulates) (depth : Nat) :
    Recalls r w load d depth := by
  induction depth with
  | zero => exact recalls_zero
  | succ depth ih =>
    refine recalls_succ hw ih ?_
    intro s t ty data info list hst hdata hkind _ _ hlist hfollows
    obtain ⟨info', own, hinfo', hown, hrest⟩ := hd.follows_iff.1 hfollows
    have hinfo : s.store.class? ty = some info := Store.class?_eq_some.2 ⟨data, hdata, hkind⟩
    have hkeep : ∀ list, Along Store.Later (remember d.slot ty list) :=
      remember_later d.slot_derived ty
    refine inStep_congr (hd.work_eq hdata hkind) rfl ?_
    refine inStep_bind_pure (part_recalls hw hload hst hown) (fun own => ?_) fun s₁ hst₁ => ?_
    · split
      · exact hkeep own
      · exact (Listing.Lawful.later hload depth _).bind fun around => hkeep _
    · rw [hst.outer_eq hinfo hinfo']
      rcases hrest with ⟨halone, rfl⟩ | ⟨halone, around, e, haround, rfl⟩
      · rw [if_pos halone]
        exact remember_recalls hst₁ hlist
      · rw [if_neg halone]
        exact inStep_bind_pure (ih s₁ t _ e around hst₁ (hst.store.second.precedes.held haround))
          (fun around => hkeep _) fun s₂ hst₂ => remember_recalls hst₂ hlist

end Recalls

/-! ### Questions in both runs -/

/-- Asking follows the plan of the question: what is left to be shown is how a list is worked out that
neither run has. -/
theorem ask_ahead (halong : Along Store.Later (d.listing.ask load (depth + 1) ty))
    (hrecalls : Recalls r w load d (depth + 1))
    (hinstead : ∀ ty, (r.ahead w).Keeps (d.listing.ask load depth ty))
    (hwork : w.list? d.slot ty = none → ∀ symbol erased outer,
      ((r.ahead w).owning ty symbol).Keeps (d.listing.work load depth ty symbol erased outer)) :
    (r.ahead w).Keeps (d.listing.ask load (depth + 1) ty) := by
  refine keepsBy_of halong fun s t hst => ?_
  cases hlist : t.store.list? d.slot ty with
  | some list =>
    have hrecall := hrecalls s t ty 1 list hst (Store.held_of_list? hlist)
    unfold InStep at hrecall ⊢
    rw [Listing.ask_of_list? hlist]
    exact hrecall
  | none =>
    have hw : w.list? d.slot ty = none := by
      by_contra hset
      obtain ⟨list, hset⟩ := Option.ne_none_iff_exists'.1 hset
      rw [hst.store.second.precedes.list? (q := d.listing) hset] at hlist
      cases hlist
    have hunset := (hst.store.list?_eq hw).symm.trans hlist
    have hread : ∀ (u : Session) data info, u.store.list? d.slot ty = none →
        u.store.type? ty = some data → data.kind = .classType info → d.slot.read info = none := by
      intro u data info hnone hdata hkind
      rwa [Store.list?, Store.class?_eq_some.2 ⟨data, hdata, hkind⟩] at hnone
    rw [Listing.Lawful.succ]
    refine inStep_typeData hst (fun data data' hdata hdata' => ?_) fun data hdata => ?_
    · rcases hst.twin.store.type?_cases hdata hdata' with
        rfl | ⟨symbol, erased, literal, info, info', rfl, rfl, hinfo⟩
      · rfl
      · have houter : info'.plain.outer = info.plain.outer := by rw [hinfo]
        have houter' : info'.outer = info.outer := houter
        simp only [Kind.class?, hread s _ info hunset hdata rfl, hread t _ info' hlist hdata' rfl, houter']
    · cases hclass : data.kind.class? with
      | none =>
        cases d.listing.other data.kind with
        | inl => exact inStep_pure hst rfl
        | inr instead => exact (hinstead instead).inStep s t hst
      | some info =>
        simp only [hread s data info hunset hdata (Kind.class?_eq_some.1 hclass)]
        exact inStep_of_owning (hwork hw data.symbol data.erased info.outer) hst ⟨data, hdata, rfl⟩

section Questions

variable (hw : r.Warms w) (hload : load.Follows Store.Later) (htied : load.Tied load (r.ahead w))

include hw hload htied

theorem regionArguments_ahead (depth : Nat) (ty : TypeId) :
    (r.ahead w).Keeps (regionArguments load depth ty) := by
  induction depth generalizing ty with
  | zero => exact keeps_tooDeep
  | succ depth ih =>
    refine ask_ahead (d := .regions) (hload.keeps.regionArguments (depth + 1) ty).along
      (regionArguments_recalls hw hload (depth + 1)) ih fun hfresh symbol erased outer => ?_
    have hkeep : ∀ list, ((r.ahead w).owning ty symbol).Keeps (remember .resolvedRegions ty list) :=
      fun list => (remember_ahead (d := .regions) hfresh list).owning
    refine (declaredList_keeps htied .regionArgs ty symbol).bind fun declared => ?_
    split
    · exact hkeep declared
    · refine (canonicalType_keeps symbol).bind fun canonical => ?_
      split
      · exact hkeep declared
      · split
        · exact hkeep declared
        · exact (ih _).owning.bind fun formals => hkeep _

theorem Derivation.Accumulates.ahead (hd : d.Accumulates) (depth : Nat) (ty : TypeId) :
    (r.ahead w).Keeps (d.listing.ask load depth ty) := by
  induction depth generalizing ty with
  | zero =>
    rw [Listing.Lawful.zero]
    exact keeps_tooDeep
  | succ depth ih =>
    refine ask_ahead (Listing.Lawful.later hload (depth + 1) ty)
      (hd.recalls hw hload (depth + 1)) ih fun hfresh symbol erased outer => ?_
    have hkeep : ∀ list, ((r.ahead w).owning ty symbol).Keeps (remember d.slot ty list) :=
      fun list => (remember_ahead hfresh list).owning
    have haround (own : List β) : ((r.ahead w).owning ty symbol).Keeps
        (d.listing.ask load depth outer >>= fun around => remember d.slot ty (around ++ own)) :=
      (ih outer).owning.bind fun around => hkeep _
    cases d with
    | regions => cases hd
    | allTypes => exact (declaredList_keeps htied .typeArgs ty symbol).bind haround
    | allRegions => exact (regionArguments_ahead hw hload htied (depth + 1) ty).owning.bind haround
    | allEffects =>
      refine (effectArguments_keeps htied (depth + 1) ty).owning.bind fun own => ?_
      split
      · exact hkeep own
      · exact haround own

theorem Loader.Tied.asks_ahead : load.Asks load (r.ahead w) where
  toTied := htied
  regionArguments := regionArguments_ahead hw hload htied
  allTypeParams := Derivation.Accumulates.ahead hw hload htied (d := .allTypes) trivial
  allRegionParams := Derivation.Accumulates.ahead hw hload htied (d := .allRegions) trivial
  allEffectParams := Derivation.Accumulates.ahead hw hload htied (d := .allEffects) trivial

end Questions

/-! ### Commands -/

theorem completerLoader_ahead
    (h : ∀ command, (r.ahead w).KeepsBy Outcome.Agrees (perform depth command)) (sym : SymbolId) :
    (r.ahead w).Keeps (completerLoader depth sym) := by
  have hrun : ∀ completer : Completer, (r.ahead w).Keeps (completer.run (perform depth) sym) :=
    fun completer => Completer.run_keeps (fun step _ => h step.2) sym
  refine completeSymbol_keeps (fun _ _ hroutine => .single (.routine hroutine))
    (fun completer => ⟨(hrun completer).along, (hrun completer).along⟩)
    fun completer s t y hst hy => ?_
  have henter : (r.ahead w).Holds (s.entering sym) (t.entering sym) :=
    ⟨⟨hst.twin.store.enterLoading sym, hst.twin.names, hst.twin.audience⟩, hst.trace,
      hst.store.enterLoading sym⟩
  refine whileLoading_inStep hst hy ((hrun completer).inStep _ _ henter)
    (Store.Later.precedes ((hrun completer).along _)) (fun result s' t' _ hst' => ?_)
    (fun _ _ hends => hends) (fun u hvoid => ⟨hvoid, ?_⟩) id
  · exact ⟨⟨hst'.twin.store.stopLoading sym, hst'.twin.names, hst'.twin.audience⟩, hst'.trace,
      hst'.store.stopLoading sym⟩
  · obtain ⟨a, hfills, hdamaged⟩ := hvoid
    exact ⟨a, hfills, (u.later_stopLoading sym).damaged hdamaged⟩

/-- **Every command** takes the same course in both runs. -/
theorem perform_ahead (hw : r.Warms w) (depth : Nat) (command : Command) :
    (r.ahead w).KeepsBy Outcome.Agrees (perform depth command) := by
  induction depth generalizing command with
  | zero => exact (keeps_tooDeep (T := r.ahead w)).imp fun _ _ hab => by rw [hab, Outcome.Agrees]
  | succ depth ih =>
    have htied : (completerLoader depth).Tied (completerLoader depth) (r.ahead w) :=
      ⟨fun _ _ h => .single (.routine h.routine), completerLoader_ahead ih⟩
    have hasks := htied.asks_ahead hw (completerLoader_later depth)
    exact execute_keeps ⟨hasks, fun _ _ h => .single (.routine h)⟩ depth command
      (fun _ _ h => .single h.change) fun _ => trivial

end RegionTypes

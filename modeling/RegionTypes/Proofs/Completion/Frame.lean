import RegionTypes.Proofs.Lockstep.Loading

/-!
# What a running completer can rely on

While a completer runs it may do anything: ask questions, render types, install completers and start
them, also its own again.  Whatever happens from some session on, as long as no completer of a symbol
that was being completed then has come to its end, the lists of the classes of that symbol stay unset
for the completer to define, and while any completer is running no derived list is kept.

* `Store.list?` — a list that a class type holds.
* `Store.IsCompleting`, `Store.IsDefined` — a completer of the symbol is running; the class has a
  signature.
* `Store.Frame`, `Session.Frame` — **what lasts from one session to a later one**, up to the completers
  that have ended in between.
* `Store.Balanced` — the same completers are running.
* `Session.frame` — the tie that says so of one run.
* `perform_frame` — **every command**, by induction on how deeply completers start each other.
-/

namespace RegionTypes

open Run Tie

namespace Store

variable {s t u b : Store} {β : Type} {slot : Slot β} {ty : TypeId} {sym : SymbolId} {installs : Prop}
  {f : Store → Store}

/-- The class data of a class type. -/
def class? (s : Store) (ty : TypeId) : Option ClassInfo := (s.kind? ty).bind Kind.class?

/-- The list that a class type holds. -/
def list? (s : Store) (slot : Slot β) (ty : TypeId) : Option (List β) :=
  (s.class? ty).bind slot.read

/-- A completer of the symbol is running. -/
def IsCompleting (s : Store) (sym : SymbolId) : Prop :=
  ∃ y, s.symbol? sym = some y ∧ y.completing = true

/-- The class has a signature: nothing else supplies the interfaces. -/
def IsDefined (s : Store) (ty : TypeId) : Prop :=
  ∃ info, s.class? ty = some info ∧ info.interfaces.isSome

instance (s : Store) (ty : TypeId) : Decidable (s.IsDefined ty) :=
  decidable_of_iff ((s.class? ty).any fun info => info.interfaces.isSome) (Option.any_eq_true _ _)

/-! ### What a change does to class types -/

theorem class?_eq_some {info : ClassInfo} :
    s.class? ty = some info ↔ ∃ data, s.type? ty = some data ∧ data.kind = .classType info := by
  simp only [class?, kind?, Option.bind_eq_some_iff, Option.map_eq_some_iff, Kind.class?_eq_some]
  constructor
  · rintro ⟨kind, ⟨data, hdata, rfl⟩, hkind⟩
    exact ⟨data, hdata, hkind⟩
  · rintro ⟨data, hdata, hkind⟩
    exact ⟨data.kind, ⟨data, hdata, rfl⟩, hkind⟩

theorem class?_of_type?_eq (h : t.type? ty = s.type? ty) : t.class? ty = s.class? ty := by
  rw [class?, class?, kind?, kind?, h]

theorem class?_pushType (data : TypeData) (h : s.Has ty) :
    (s.pushType data).class? ty = s.class? ty :=
  class?_of_type?_eq (by rw [type?_pushType, if_neg (ne_nextType h)])

theorem class?_reviseType {a : TypeId} {f : Kind → Kind} (hf : ∀ k, (f k).class? = k.class?) :
    (s.reviseType a f).class? ty = s.class? ty := by
  rw [class?, class?, kind?, kind?, Option.bind_map, Option.bind_map]
  exact bind_type?_reviseType (fun data _ => hf data.kind) ty

theorem class?_mapClass (s : Store) (a ty : TypeId) (g : ClassInfo → ClassInfo) :
    (s.reviseType a (·.mapClass g)).class? ty =
      if a = ty then (s.class? ty).map g else s.class? ty := by
  rw [class?, class?, kind?, kind?, reviseType, type?_updateType]
  split
  · cases s.type? ty with
    | none => rfl
    | some data => cases hkind : data.kind <;> simp [hkind, Kind.mapClass, Kind.class?]
  · rfl

/-- What a change may do to the data of a class type of the store. -/
inductive Revises (s : Store) (ty : TypeId) : (ClassInfo → ClassInfo) → Prop
  | same : Revises s ty id
  | cell (cell : Option TypeId) : Revises s ty fun info => { info with cellType := cell }
  | define (sig : ClassSignature) : Revises s ty (ClassInfo.define sig)
  | settle {β : Type} (slot : Slot β) (hslot : slot.Declared)
      (hidle : ∀ sym, s.Owns ty (some sym) → ¬ s.IsCompleting sym) : Revises s ty (slot.write [])

/-- A class type that was there before the change. -/
theorem Permits.exists_revises (hf : s.Permits installs f) (hty : s.Has ty) :
    ∃ g, s.Revises ty g ∧ (f s).class? ty = (s.class? ty).map g := by
  have hsame : (f s).class? ty = s.class? ty →
      ∃ g, s.Revises ty g ∧ (f s).class? ty = (s.class? ty).map g :=
    fun h => ⟨id, .same, by rw [h, Option.map_id_fun, id]⟩
  have hmap : ∀ a g, (a = ty → s.Revises ty g) →
      ∃ g', s.Revises ty g' ∧
        (s.reviseType a (·.mapClass g)).class? ty = (s.class? ty).map g' := by
    intro a g hg
    by_cases ha : a = ty
    · exact ⟨g, hg ha, by rw [class?_mapClass, if_pos ha]⟩
    · exact ⟨id, .same, by rw [class?_mapClass, if_neg ha, Option.map_id_fun, id]⟩
  cases hf with
  | options | declare | symbol => exact hsame rfl
  | declareTyped | damage => exact hsame (class?_pushType _ hty)
  | allocate data => exact hsame (class?_pushType data hty)
  | revise a f hf => exact hsame (class?_reviseType hf)
  | reviseBoth a b f hf => exact hsame ((class?_reviseType hf).trans (class?_reviseType hf))
  | cell a cell => exact hmap a _ fun _ => .cell cell
  | define a sig => exact hmap a _ fun _ => .define sig
  | settle slot a data info hslot hdata hkind hunset hidle =>
    refine hmap a _ fun ha => .settle slot hslot ?_
    subst ha
    rintro sym ⟨data', hdata', hsym⟩ ⟨y, hy, hcompleting⟩
    obtain rfl : data = data' := Option.mem_unique hdata hdata'
    rw [hidle sym y hsym hy] at hcompleting
    cases hcompleting

/-- A class type that was not there before the change holds no derived list. -/
theorem Permits.plain_of_new (hf : s.Permits installs f) (hty : ¬ s.Has ty) {info : ClassInfo}
    (h : (f s).class? ty = some info) : info.plain = info := by
  have hnone : s.class? ty = none := by
    rw [class?, kind?, Option.not_isSome_iff_eq_none.1 hty]
    rfl
  have hpush : ∀ (r : Store) (data : TypeData), r.type? ty = none → data.plain = data →
      (r.pushType data).class? ty = some info → info.plain = info := by
    intro r data hr hplain hinfo
    obtain ⟨found, hfound, hkind⟩ := class?_eq_some.1 hinfo
    rw [type?_pushType, hr] at hfound
    split at hfound
    · obtain rfl := Option.some.inj hfound
      have hkind' := congrArg TypeData.kind hplain
      rw [TypeData.plain, hkind] at hkind'
      exact Kind.classType.inj hkind'
    · cases hfound
  have hmap : ∀ a g, (s.reviseType a (·.mapClass g)).class? ty = some info → info.plain = info := by
    intro a g hinfo
    rw [class?_mapClass, hnone, Option.map_none, ite_self] at hinfo
    cases hinfo
  have hnone' : s.type? ty = none := Option.not_isSome_iff_eq_none.1 hty
  cases hf with
  | options | declare | symbol => cases hnone.symm.trans h
  | declareTyped name owner kind flags data hplain =>
    exact hpush (s.pushSymbol _) _ hnone' (hplain _) h
  | damage => exact hpush s _ hnone' rfl h
  | allocate data hplain => exact hpush s data hnone' hplain h
  | revise a f hf => cases hnone.symm.trans ((class?_reviseType hf).symm.trans h)
  | reviseBoth a b f hf =>
    cases hnone.symm.trans
      ((class?_reviseType hf).symm.trans ((class?_reviseType hf).symm.trans h))
  | cell a => exact hmap a _ h
  | define a => exact hmap a _ h
  | settle slot a => exact hmap a _ h

theorem Permits.list?_derived (hf : s.Permits installs f) (hslot : slot.Derived) (ty : TypeId) :
    (f s).list? slot ty = s.list? slot ty := by
  by_cases hty : s.Has ty
  · obtain ⟨g, hg, hclass⟩ := hf.exists_revises hty
    rw [list?, list?, hclass]
    cases hinfo : s.class? ty with
    | none => rfl
    | some info =>
      show slot.read (g info) = slot.read info
      cases hg with
      | same => rfl
      | cell | define => cases hslot <;> rfl
      | settle slot' hslot' => cases hslot' <;> cases hslot <;> rfl
  · have hnone : s.class? ty = none := by
      rw [class?, kind?, Option.not_isSome_iff_eq_none.1 hty]
      rfl
    rw [list?, list?, hnone]
    cases hinfo : (f s).class? ty with
    | none => rfl
    | some info =>
      show slot.read info = none
      rw [← hf.plain_of_new hty hinfo]
      cases hslot <;> rfl

/-- A declared list of a class that is being completed is left alone unless the class is defined. -/
theorem Permits.list?_declared (hf : s.Permits installs f) (hslot : slot.Declared)
    (hty : s.Owns ty (some sym)) (hsym : s.IsCompleting sym) :
    (f s).list? slot ty = s.list? slot ty ∨ (f s).IsDefined ty := by
  obtain ⟨data, hdata, _⟩ := id hty
  obtain ⟨g, hg, hclass⟩ := hf.exists_revises (has_iff.2 ⟨data, hdata⟩)
  rw [list?, list?, IsDefined, hclass]
  cases hinfo : s.class? ty with
  | none => exact .inl rfl
  | some =>
    cases hg with
    | same => exact .inl rfl
    | cell =>
      left
      cases hslot <;> rfl
    | define => exact .inr ⟨_, rfl, rfl⟩
    | settle slot' hslot' hidle => exact absurd hsym (hidle sym hty)

theorem Permits.supertype_eq (hf : s.Permits installs f) (hty : s.Has ty) :
    ((f s).class? ty).bind ClassInfo.supertype = (s.class? ty).bind ClassInfo.supertype ∨
      (f s).IsDefined ty := by
  obtain ⟨g, hg, hclass⟩ := hf.exists_revises hty
  rw [IsDefined, hclass]
  cases hinfo : s.class? ty with
  | none => exact .inl rfl
  | some =>
    cases hg with
    | same | cell => exact .inl rfl
    | define => exact .inr ⟨_, rfl, rfl⟩
    | settle slot hslot =>
      left
      cases hslot <;> rfl

theorem isCompleting_updateSymbol {a : SymbolId} {f : Symbol → Symbol}
    (hf : ∀ y, (f y).completing = y.completing) :
    (s.updateSymbol a f).IsCompleting sym ↔ s.IsCompleting sym := by
  unfold IsCompleting
  rw [symbol?_updateSymbol]
  split
  · cases s.symbol? sym with
    | none => exact Iff.rfl
    | some y => simp [hf y]
  · exact Iff.rfl

theorem isCompleting_pushSymbol {y : Symbol} (hy : y.completing = false) :
    (s.pushSymbol y).IsCompleting sym ↔ s.IsCompleting sym := by
  unfold IsCompleting
  rw [symbol?_pushSymbol]
  split
  · next heq =>
    subst heq
    simp [symbol?_nextSymbol, hy]
  · exact Iff.rfl

theorem Permits.isCompleting_iff (hf : s.Permits installs f) :
    (f s).IsCompleting sym ↔ s.IsCompleting sym := by
  cases hf with
  | declare => exact isCompleting_pushSymbol rfl
  | declareTyped =>
    refine (isCompleting_updateSymbol fun _ => ?_).trans (isCompleting_pushSymbol ?_)
    · rfl
    · rfl
  | symbol a f hf => exact isCompleting_updateSymbol fun y => (hf y).2.1
  | damage => exact isCompleting_updateSymbol fun _ => rfl
  | _ => exact Iff.rfl

theorem Permits.inFlight_eq (hf : s.Permits installs f) :
    (f s).inFlight = s.inFlight := by
  cases hf <;> rfl

/-! ### What lasts -/

theorem Precedes.exists_class? {info : ClassInfo} (h : s.Precedes t) (hinfo : s.class? ty = some info) :
    ∃ info', t.class? ty = some info' ∧ info.Precedes info' := by
  obtain ⟨data, hdata, hkind⟩ := class?_eq_some.1 hinfo
  obtain ⟨data', info', hdata', hkind', -, hprecedes⟩ := h.classType hdata hkind
  exact ⟨info', class?_eq_some.2 ⟨data', hdata', hkind'⟩, hprecedes⟩

theorem Precedes.isDefined (h : s.Precedes t) (hty : s.IsDefined ty) : t.IsDefined ty := by
  obtain ⟨info, hinfo, hinterfaces⟩ := hty
  obtain ⟨info', hinfo', hlater⟩ := h.exists_class? hinfo
  obtain ⟨interfaces, hset⟩ := Option.isSome_iff_exists.1 hinterfaces
  exact ⟨info', hinfo', Option.isSome_iff_exists.2 ⟨interfaces, hlater.interfaces interfaces hset⟩⟩

theorem Precedes.owns {symbol : Option SymbolId} (h : s.Precedes t) (hty : s.Owns ty symbol) :
    t.Owns ty symbol := by
  obtain ⟨data, hdata, hsymbol⟩ := hty
  obtain ⟨data', hdata', hkeeps⟩ := h.types ty data hdata
  exact ⟨data', hdata', hkeeps.symbol.trans hsymbol⟩

theorem Precedes.has (h : s.Precedes t) (hty : s.Has ty) : t.Has ty := by
  obtain ⟨data, hdata⟩ := has_iff.1 hty
  obtain ⟨data', hdata', _⟩ := h.types ty data hdata
  exact has_iff.2 ⟨data', hdata'⟩

/-- **What lasts** from one store to a later one, in between which completers of some symbols may have
ended. -/
structure Frame (b s : Store) (ended : SymbolId → Prop) : Prop where
  precedes : b.Precedes s
  inFlight : b.inFlight ≤ s.inFlight
  /-- While a completer is running no derived list is kept. -/
  derived : 0 < b.inFlight → ∀ {β : Type} (slot : Slot β), slot.Derived → ∀ ty,
    s.list? slot ty = b.list? slot ty
  completing : ∀ sym, b.IsCompleting sym → ¬ ended sym → s.IsCompleting sym
  /-- A class that is being completed has its lists unset until it is defined. -/
  declared : ∀ sym, b.IsCompleting sym → ¬ ended sym → ∀ {β : Type} (slot : Slot β), slot.Declared →
    ∀ ty, b.Owns ty (some sym) → b.list? slot ty = none → s.list? slot ty = none ∨ s.IsDefined ty
  supertype : ∀ ty, b.Has ty → (b.class? ty).bind ClassInfo.supertype = none →
    (s.class? ty).bind ClassInfo.supertype = none ∨ s.IsDefined ty

/-- The same completers are running, and no others. -/
structure Balanced (b s : Store) : Prop where
  inFlight : s.inFlight = b.inFlight
  completing : ∀ sym, s.IsCompleting sym → b.IsCompleting sym

variable {ended ended' : SymbolId → Prop}

namespace Frame

protected theorem refl (s : Store) : s.Frame s ended where
  precedes := precedes_of_eq rfl rfl
  inFlight := le_rfl
  derived _ _ _ _ _ := rfl
  completing _ h _ := h
  declared _ _ _ _ _ _ _ _ hunset := .inl hunset
  supertype _ _ hunset := .inl hunset

protected theorem trans (h : b.Frame s ended) (h' : s.Frame t ended) : b.Frame t ended where
  precedes := h.precedes.trans h'.precedes
  inFlight := h.inFlight.trans h'.inFlight
  derived hflight _ slot hslot ty :=
    (h'.derived (hflight.trans_le h.inFlight) slot hslot ty).trans (h.derived hflight slot hslot ty)
  completing sym hsym hnot := h'.completing sym (h.completing sym hsym hnot) hnot
  declared sym hsym hnot _ slot hslot ty hty hunset := by
    rcases h.declared sym hsym hnot slot hslot ty hty hunset with hunset' | hdefined
    · exact h'.declared sym (h.completing sym hsym hnot) hnot slot hslot ty (h.precedes.owns hty) hunset'
    · exact .inr (h'.precedes.isDefined hdefined)
  supertype ty hty hunset := by
    rcases h.supertype ty hty hunset with hunset' | hdefined
    · exact h'.supertype ty (h.precedes.has hty) hunset'
    · exact .inr (h'.precedes.isDefined hdefined)

theorem mono (h : b.Frame s ended) (hmono : ∀ sym, ended sym → ended' sym) : b.Frame s ended' where
  precedes := h.precedes
  inFlight := h.inFlight
  derived := h.derived
  completing sym hsym hnot := h.completing sym hsym (hnot ∘ hmono sym)
  declared sym hsym hnot := h.declared sym hsym (hnot ∘ hmono sym)
  supertype := h.supertype

theorem of_permits (hf : s.Permits installs f) (hmoves : s.Precedes (f s)) : s.Frame (f s) ended where
  precedes := hmoves
  inFlight := hf.inFlight_eq.ge
  derived _ _ _ hslot ty := hf.list?_derived hslot ty
  completing _ hsym _ := hf.isCompleting_iff.2 hsym
  declared sym hsym _ _ slot hslot ty hty hunset := by
    rcases hf.list?_declared hslot hty hsym with hsame | hdefined
    · exact .inl (hsame.trans hunset)
    · exact .inr hdefined
  supertype ty hty hunset := (hf.supertype_eq hty).imp_left fun hsame => hsame.trans hunset

theorem remember {list : List β} (hslot : slot.Derived) (hrest : s.inFlight = 0)
    (hmoves : s.Precedes (s.setList slot ty list)) :
    s.Frame (s.setList slot ty list) ended where
  precedes := hmoves
  inFlight := le_rfl
  derived hflight := absurd hrest hflight.ne'
  completing _ h _ := h
  declared sym hsym _ _ declared hdeclared a _ hunset := by
    left
    rw [← hunset, list?, list?, class?_mapClass]
    split
    · cases s.class? a with
      | none => rfl
      | some => cases hslot <;> cases hdeclared <;> rfl
    · rfl
  supertype a _ hunset := by
    left
    rw [← hunset, class?_mapClass]
    split
    · cases s.class? a with
      | none => rfl
      | some => cases hslot <;> rfl
    · rfl

theorem enterLoading (s : Store) (sym : SymbolId) : s.Frame (s.enterLoading sym) ended where
  precedes := (s.later_enterLoading sym).precedes
  inFlight := Nat.le_succ _
  derived _ _ _ _ _ := rfl
  completing a hsym _ := by
    obtain ⟨y, hy, hcompleting⟩ := hsym
    by_cases heq : sym = a
    · exact ⟨{ y with completing := true }, by rw [symbol?_enterLoading, if_pos heq, hy]; rfl, rfl⟩
    · exact ⟨y, by rw [symbol?_enterLoading, if_neg heq, hy], hcompleting⟩
  declared _ _ _ _ _ _ _ _ hunset := .inl hunset
  supertype _ _ hunset := .inl hunset

theorem stopLoading (h : b.Frame s ended) (hended : ended sym) (hflight : b.inFlight < s.inFlight) :
    b.Frame (s.stopLoading sym) ended where
  precedes := h.precedes.trans (s.later_stopLoading sym).precedes
  inFlight := Nat.le_sub_one_of_lt hflight
  derived := h.derived
  completing a hsym hnot := by
    obtain ⟨y, hy, hcompleting⟩ := h.completing a hsym hnot
    refine ⟨y, ?_, hcompleting⟩
    rw [symbol?_stopLoading, if_neg, hy]
    rintro rfl
    exact hnot hended
  declared := h.declared
  supertype := h.supertype

end Frame

namespace Balanced

protected theorem refl (s : Store) : s.Balanced s := ⟨rfl, fun _ h => h⟩

theorem permits (h : b.Balanced s) (hf : s.Permits installs f) : b.Balanced (f s) where
  inFlight := hf.inFlight_eq.trans h.inFlight
  completing sym hsym := h.completing sym (hf.isCompleting_iff.1 hsym)

theorem loading (h : b.Balanced s) (hin : (s.enterLoading sym).Balanced t) :
    b.Balanced (t.stopLoading sym) where
  inFlight := by
    show t.inFlight - 1 = b.inFlight
    rw [hin.inFlight, ← h.inFlight]
    rfl
  completing a hsym := by
    obtain ⟨y, hy, hcompleting⟩ := hsym
    rw [symbol?_stopLoading] at hy
    split at hy
    · obtain ⟨_, -, rfl⟩ := Option.map_eq_some_iff.1 hy
      cases hcompleting
    · next hne =>
      obtain ⟨x, hx, hcompleting'⟩ := hin.completing a ⟨y, hy, hcompleting⟩
      rw [symbol?_enterLoading, if_neg hne] at hx
      exact h.completing a ⟨x, hx, hcompleting'⟩

end Balanced

end Store

/-! ### Sessions -/

/-- **What lasts** from one session to a later one. -/
def Session.Frame (b s : Session) : Prop :=
  ∃ new, s.trace = new ++ b.trace ∧ b.store.Frame s.store fun sym => ∃ ok, .ended sym ok ∈ new

namespace Session.Frame

variable {b s t : Session}

protected theorem refl (s : Session) : s.Frame s := ⟨[], rfl, .refl _⟩

protected theorem trans (h : b.Frame s) (h' : s.Frame t) : b.Frame t := by
  obtain ⟨new, htrace, hframe⟩ := h
  obtain ⟨new', htrace', hframe'⟩ := h'
  refine ⟨new' ++ new, by rw [htrace', htrace, List.append_assoc], ?_⟩
  exact (hframe.mono fun _ ⟨ok, hok⟩ => ⟨ok, List.mem_append_right _ hok⟩).trans
    (hframe'.mono fun _ ⟨ok, hok⟩ => ⟨ok, List.mem_append_left _ hok⟩)

theorem of_store {u : Store} (h : ∀ ended, s.store.Frame u ended) : s.Frame { s with store := u } :=
  ⟨[], rfl, h _⟩

theorem note (s : Session) (entry : TraceEntry) : s.Frame { s with trace := entry :: s.trace } :=
  ⟨[entry], rfl, .refl _⟩

end Session.Frame

/-- One run from a session, in which what lasts lasts.  Where it goes on, the completers that were
running when it started are running. -/
def Session.frame (b : Session) : Tie where
  Moves := Store.Later
  Holds s t := t.store = s.store ∧ t.names = s.names ∧ t.audience = s.audience ∧
    b.Frame s ∧ b.store.Balanced s.store
  Ends s _ := b.Frame s
  Void _ := False
  Lax := False
  Installs := True

variable {b s t : Session}

theorem Session.frame_holds (s : Session) : s.frame.Holds s s :=
  ⟨rfl, rfl, rfl, .refl s, .refl _⟩

instance (b : Session) : b.frame.Exact where
  preorder := inferInstanceAs (IsPreorder Store Store.Later)
  void _ := id
  twin h := ⟨by rw [h.1]; exact .refl _, h.2.1, h.2.2.1⟩
  ends h := h.2.2.2.1
  log _ h := ⟨h.1, h.2.1, h.2.2.1, h.2.2.2.1.trans (.note _ _), h.2.2.2.2⟩
  change h hf hs _ :=
    ⟨by rw [h.1], h.2.1, h.2.2.1,
      h.2.2.2.1.trans (.of_store fun _ => .of_permits hf (Store.Later.precedes hs)),
      h.2.2.2.2.permits hf⟩
  owns _ hmoves := (Store.Later.precedes hmoves).owns
  store h := h.1
  remember h hslot _ _ _ hrest hmoves :=
    ⟨congrArg (Store.setList · _ _ _) h.1, h.2.1, h.2.2.1,
      h.2.2.2.1.trans (.of_store fun _ => .remember hslot hrest (Store.Later.precedes hmoves)),
      h.2.2.2.2.inFlight, h.2.2.2.2.completing⟩

instance (b : Session) : b.frame.Begins Outcome.Agrees where
  toLawful := inferInstance
  agrees h := h
  names _ h := ⟨h.1, rfl, h.2.2.1, h.2.2.2.1.trans ⟨[], rfl, .refl _⟩, h.2.2.2.2⟩
  stepped _ h := ⟨h.1, h.2.1, h.2.2.1, h.2.2.2.1.trans (.note _ _), h.2.2.2.2⟩
  ended _ _ h := ⟨h.1, h.2.1, h.2.2.1, h.2.2.2.1.trans (.note _ _), h.2.2.2.2⟩
  began _ h := ⟨h.1, h.2.1, h.2.2.1, h.2.2.2.1.trans (.note _ _), h.2.2.2.2⟩

section Outcomes

variable {α : Type} {V : α → α → Prop} {action : Run α}

/-- However the run ends, what lasts has lasted. -/
theorem Tie.Joins.frame (h : b.frame.KeepsBy V action) : b.Frame (action.after b) := by
  have hstep := h.inStep b b (Session.frame_holds b)
  unfold InStep at hstep
  cases hrun : action b with
  | ok =>
    rw [hrun] at hstep
    rw [after_of_ok hrun]
    exact hstep.elim False.elim fun hagrees => hagrees.2.2.2.2.1
  | error =>
    rw [hrun] at hstep
    rw [after_of_error hrun]
    exact hstep.elim (fun h => h.elim False.elim fun h => h.1.elim) fun hagrees => hagrees.2

theorem Tie.Joins.balanced {a : α} (h : b.frame.KeepsBy V action) (hrun : action b = .ok a s) :
    b.store.Balanced s.store := by
  have hstep := h.inStep b b (Session.frame_holds b)
  unfold InStep at hstep
  rw [hrun] at hstep
  exact hstep.elim False.elim fun hagrees => hagrees.2.2.2.2.2

end Outcomes

/-! ### Completers -/

/-- A completer that returns has noted its end. -/
theorem Completer.exists_of_run {perform : Command → Run Outcome} {completer : Completer}
    {sym : SymbolId} {result : Except CompletionError Unit}
    (h : completer.run perform sym s = .ok result t) :
    ∃ (ending : Option Failure) (t' : Session) (ok : Bool),
      (do note (.began sym); runScript perform completer.propagate completer.script) s =
        .ok ending t' ∧
      t = { t' with trace := .ended sym ok :: t'.trace } := by
  rw [Completer.run] at h
  obtain ⟨_, s₁, hnote, hrest⟩ := exists_of_bind h
  obtain ⟨ending, s₂, hscript, hnamed⟩ := exists_of_bind hrest
  obtain ⟨y, s₃, hsymbol, hend⟩ := exists_of_bind hnamed
  obtain ⟨rfl, -⟩ := eq_of_symbolData hsymbol
  refine ⟨ending, s₃, ?_⟩
  rw [bind_run hnote]
  cases hfailed : (ending.map Failure.message).or completer.failure with
  | some =>
    rw [hfailed] at hend
    exact ⟨false, hscript, (EStateM.Result.ok.inj hend).2.symm⟩
  | none =>
    rw [hfailed] at hend
    exact ⟨true, hscript, (EStateM.Result.ok.inj hend).2.symm⟩

/-- **Loading a class.**  When its completer returns it has noted its end, so nothing is said any more
about the lists of the class. -/
theorem completerLoader_frame {depth : Nat}
    (h : ∀ (b : Session) (command : Command), b.frame.KeepsBy Outcome.Agrees (perform depth command))
    (b : Session) (sym : SymbolId) : b.frame.Keeps (completerLoader depth sym) := by
  refine completeSymbol_keeps (fun _ _ hroutine => .single (.routine hroutine))
    (fun completer => ?_) fun completer s t y hst hy => ?_
  · have hrun : b.frame.Keeps (completer.run (perform depth) sym) :=
      Completer.run_keeps (fun step _ => h b step.2) sym
    exact ⟨hrun.along, hrun.along⟩
  · have hinner := h (s.entering sym)
    have hrun : (s.entering sym).frame.Keeps (completer.run (perform depth) sym) :=
      Completer.run_keeps (fun step _ => hinner step.2) sym
    have henter : (s.entering sym).frame.Holds (s.entering sym) (t.entering sym) := by
      refine ⟨?_, hst.2.1, hst.2.2.1, .refl _, .refl _⟩
      show t.store.enterLoading sym = s.store.enterLoading sym
      rw [hst.1]
    have hframe : s.Frame (s.entering sym) := .of_store fun _ => .enterLoading s.store sym
    refine whileLoading_inStep hst hy (hrun.inStep _ _ henter)
      (Store.Later.precedes (hrun.along _)) (fun result s' t' hrun' hst' => ?_)
      (fun s' t' hends => ?_) (fun _ h => h.elim) id
    · obtain ⟨ending, s₁, ok, hscript, rfl⟩ := Completer.exists_of_run hrun'
      have hbegan : (s.entering sym).frame.Keeps (note (.began sym)) :=
        keepsBy_of (note_still _).of_eq fun _ _ hst =>
          .inr ⟨rfl, Begins.began Outcome.Agrees sym hst⟩
      have hsteps : (s.entering sym).frame.Keeps
          (do note (.began sym); runScript (perform depth) completer.propagate completer.script) :=
        hbegan.bind fun _ => runScript_keeps (fun step _ => hinner step.2) completer.propagate
      obtain ⟨new, htrace, hinside⟩ := hsteps.frame
      rw [after_of_ok hscript] at htrace hinside
      have hbalanced := hst.2.2.2.2.loading (hsteps.balanced hscript)
      refine ⟨?_, hst'.2.1, hst'.2.2.1, ?_, hbalanced⟩
      · show t'.store.stopLoading sym = s₁.store.stopLoading sym
        rw [hst'.1]
      · refine hst.2.2.2.1.trans ⟨.ended sym ok :: new, congrArg _ htrace, ?_⟩
        refine Store.Frame.stopLoading (.trans (.enterLoading s.store sym) ?_)
          ⟨ok, List.mem_cons_self⟩ hinside.inFlight
        exact hinside.mono fun _ ⟨ok, hok⟩ => ⟨ok, List.mem_cons_of_mem _ hok⟩
    · exact hst.2.2.2.1.trans (hframe.trans hends)

/-- **Every command**, whatever completers it starts and however it ends. -/
theorem perform_frame (depth : Nat) (command : Command) (b : Session) :
    b.frame.KeepsBy Outcome.Agrees (perform depth command) := by
  induction depth generalizing command b with
  | zero => exact (keeps_tooDeep (T := b.frame)).imp fun _ _ hab => by rw [hab, Outcome.Agrees]
  | succ depth ih =>
    have hload : (completerLoader depth).Tied (completerLoader depth) b.frame :=
      ⟨fun _ _ h => .single (.routine h.routine),
        completerLoader_frame (fun b command => ih command b) b⟩
    exact execute_keeps ⟨hload.asks, fun _ _ h => .single (.routine h)⟩ depth command
      (fun _ _ h => .single h.change) fun _ => trivial

theorem completerLoader_framed (depth : Nat) (b : Session) :
    (completerLoader depth).Asks (completerLoader depth) b.frame :=
  Loader.Tied.asks ⟨fun _ _ h => .single (.routine h.routine),
    completerLoader_frame (fun b command => perform_frame depth command b) b⟩

end RegionTypes

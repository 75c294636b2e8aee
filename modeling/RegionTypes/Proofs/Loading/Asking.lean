import RegionTypes.Proofs.Loading.Lagging

/-!
# Asking a store that lags behind

The rules by which the proofs about questions go along the text of a question.

* `Asks` — from every session over a lagging store the computation returns, the store still lags
  behind the same store, and the session has only evolved.  What is shown of the answer may depend
  on whether the question is asked from outside or by a running completer.
* `Loads` — what a loader has to do for the questions to be right.
* `declaredList_asks` — **a list that loading supplies**: from outside the answer is complete; a
  completer may find nothing, and leaves no trace of that.
* `remember_asks` — **remembering**: what is remembered is right.
* `Asks.survey` — so **a lagging store can be surveyed**, and from outside the answers are sure.
-/

namespace RegionTypes

open Run

variable {α β : Type} {r : Store} {b : Nat} {P : Finset SymbolId} {top : Prop} {s s' : Session}

/-- A session in which questions may be asked: the store lags behind `r`, at most the completers of
`P` are pending, and `top` says whether none is running. -/
structure Session.Ready (s : Session) (r : Store) (b : Nat) (P : Finset SymbolId)
    (top : Prop) : Prop where
  lags : r.Lags b s.store
  pending : s.store.PendingIn P
  flight : s.store.inFlight = 0 ↔ top

theorem Session.Ready.evolve (h : s.Ready r b P top) (hlags : r.Lags b s'.store)
    (hevolves : s.Evolves s') : s'.Ready r b P top :=
  ⟨hlags, hevolves.pending P h.pending, by rw [hevolves.flight, h.flight]⟩

/-- The computation is a question about the types of `r`, with answers as described. -/
def Asks (r : Store) (b : Nat) (P : Finset SymbolId) (top : Prop) (action : Run α) (post : α → Prop) :
    Prop :=
  ∀ s : Session, s.Ready r b P top → action.Returns s fun a s' =>
    post a ∧ r.Lags b s'.store ∧ s.Evolves s'

namespace Asks

variable {action : Run α} {p q : α → Prop}

theorem imp (h : Asks r b P top action p) (hpq : ∀ a, p a → q a) : Asks r b P top action q :=
  fun s hs => (h s hs).imp fun a _ ⟨ha, hrest⟩ => ⟨hpq a ha, hrest⟩

theorem pure {a : α} (h : q a) : Asks r b P top (Pure.pure a) q :=
  fun s hs => returns_pure ⟨h, hs.lags, .refl s⟩

/-- A question that leaves the session as it is. -/
theorem read (h : ∀ s : Session, s.Ready r b P top → ∃ a, action s = .ok a s ∧ q a) :
    Asks r b P top action q := by
  intro s hs
  obtain ⟨a, hrun, ha⟩ := h s hs
  exact ⟨a, s, hrun, ha, hs.lags, .refl s⟩

/-- **Sequencing.** -/
theorem bind {next : α → Run β} {q : β → Prop} (h : Asks r b P top action p)
    (hnext : ∀ a, p a → Asks r b P top (next a) q) :
    Asks r b P top (action >>= next) q := by
  intro s hs
  refine (h s hs).bind fun a s₁ ⟨ha, hlags, hevolves⟩ => ?_
  refine (hnext a ha s₁ (hs.evolve hlags hevolves)).imp fun b s₂ ⟨hb, hlags', hevolves'⟩ => ?_
  exact ⟨hb, hlags', hevolves.trans hevolves'⟩

theorem map {f : α → β} {q : β → Prop} (h : Asks r b P top action p) (hf : ∀ a, p a → q (f a)) :
    Asks r b P top (do return f (← action)) q :=
  h.bind fun a ha => .pure (hf a ha)

end Asks

/-! ### Records and symbols -/

theorem typeData_asks {ty : TypeId} (hty : r.Has ty) : Asks r b P top (typeData ty) fun data =>
    ∃ full, r.type? ty = some full ∧ full.Lags r ty data := by
  refine .read fun s hs => ?_
  obtain ⟨full, hfull⟩ := Store.has_iff.1 hty
  obtain ⟨data, hdata, hlags⟩ := hs.lags.types ty full hfull
  exact ⟨data, typeData_run hdata, full, hfull, hlags⟩

theorem symbolData_asks {sym : SymbolId} {y : Symbol} (hy : r.symbol? sym = some y) :
    Asks r b P top (symbolData sym) fun y' => y'.face = y.face := by
  refine .read fun s hs => ?_
  obtain ⟨y', hy', hface⟩ := hs.lags.symbol hy
  exact ⟨y', symbolData_run hy', hface⟩

theorem log_asks (level : Log.Level) (target : String) (fields : List (String × String)) :
    Asks r b P top (log level target fields) fun _ => True := by
  intro s hs
  refine (log_returns level target fields s).imp fun _ s' ⟨new, hs', hnew⟩ => ⟨trivial, ?_, ?_⟩
  · rw [hs']
    exact hs.lags
  · exact .of_store_eq (by rw [hs']) new (by rw [hs']) hnew

/-! ### Loading -/

/-- The loader completes symbols as the questions need it: afterwards no completer is pending for
the symbol. -/
def Loads (r : Store) (b : Nat) (P : Finset SymbolId) (top : Prop) (load : Loader) : Prop :=
  ∀ sym y, r.symbol? sym = some y → ∀ s : Session, s.Ready r b P top → (load sym).Returns s
    fun _ s' => (r.Lags b s'.store ∧ s.Evolves s') ∧
      ∀ symbol, s'.store.symbol? sym = some symbol → symbol.completer = none

variable {load : Loader} {symbol : Option SymbolId}

/-- Loading on the way to something else. -/
theorem completeLazily_returns (hload : Loads r b P top load)
    (hsym : ∀ sym, symbol = some sym → ∃ y, r.symbol? sym = some y) (hs : s.Ready r b P top) :
    (completeLazily load symbol).Returns s fun _ s' => (r.Lags b s'.store ∧ s.Evolves s') ∧
      ∀ sym symbol', symbol = some sym → s'.store.symbol? sym = some symbol' →
        symbol'.completer = none := by
  cases symbol with
  | none => exact returns_pure ⟨⟨hs.lags, .refl s⟩, by simp⟩
  | some sym =>
    obtain ⟨y, hy⟩ := hsym sym rfl
    refine (hload sym y hy s hs).bind fun result s₁ ⟨⟨hlags, hevolves⟩, hnone⟩ => ?_
    have hnone' : ∀ sym' symbol', some sym = some sym' → s₁.store.symbol? sym' = some symbol' →
        symbol'.completer = none := fun _ symbol' heq => Option.some.inj heq ▸ hnone symbol'
    cases result with
    | ok => exact returns_pure ⟨⟨hlags, hevolves⟩, hnone'⟩
    | error =>
      refine (log_returns _ _ _ s₁).imp fun _ s₂ ⟨new, hs₂, hnew⟩ => ?_
      have hevolves' : s₁.Evolves s₂ := .of_store_eq (by rw [hs₂]) new (by rw [hs₂]) hnew
      rw [hs₂] at hevolves' ⊢
      exact ⟨⟨hlags, hevolves.trans hevolves'⟩, hnone'⟩

/-! ### Lists that loading supplies -/

theorem Slot.Declared.read_of_blank {slot : Slot β} (h : slot.Declared) {info : ClassInfo}
    (hblank : info.declaration = .blank) : slot.read info = none := by
  cases h with
  | typeArgs => exact congrArg Declaration.typeArgs hblank
  | regionArgs => exact congrArg Declaration.regionArgs hblank
  | effectArgs => exact congrArg Declaration.effectArgs hblank

theorem Slot.Declared.read_congr {slot : Slot β} (h : slot.Declared) {info info' : ClassInfo}
    (hsame : info.declaration = info'.declaration) : slot.read info = slot.read info' := by
  cases h with
  | typeArgs => exact congrArg Declaration.typeArgs hsame
  | regionArgs => exact congrArg Declaration.regionArgs hsame
  | effectArgs => exact congrArg Declaration.effectArgs hsame

/-- All lists of the class are there. -/
def ClassInfo.hasLists (info : ClassInfo) : Prop :=
  info.typeArgs.isSome ∧ info.regionArgs.isSome ∧ info.effectArgs.isSome

theorem ClassInfo.hasLists.read {slot : Slot β} {info : ClassInfo} (h : info.hasLists)
    (hslot : slot.Declared) : (slot.read info).isSome := by
  cases hslot with
  | typeArgs => exact h.1
  | regionArgs => exact h.2.1
  | effectArgs => exact h.2.2

/-- A settled store in which every class is defined. -/
structure Store.Complete (r : Store) : Prop extends r.Settled where
  lists : ∀ ty data info, r.type? ty = some data → data.kind = .classType info → info.hasLists

variable {ty : TypeId} {erased : Bool} {literal : Option Literal}
  {full info : ClassInfo}

/-- What the store holds for a class. -/
theorem Session.Ready.classRecord (hs : s.Ready r b P top)
    (hfull : r.type? ty = some ⟨symbol, erased, literal, .classType full⟩) :
    ∃ info, s.store.type? ty = some ⟨symbol, erased, literal, .classType info⟩ ∧
      ClassInfo.Lags r ty full info := by
  obtain ⟨data, hdata, hlags⟩ := hs.lags.types ty _ hfull
  cases hlags with
  | classType h => exact ⟨_, hdata, h⟩
  | other kind => cases kind

/-- A class that is blank and has no completer pending is being loaded. -/
theorem Session.Ready.running_of_blank (hs : s.Ready r b P top)
    (hinfo : s.store.type? ty = some ⟨symbol, erased, literal, .classType info⟩)
    (hblank : info.declaration = .blank)
    (hloaded : ∀ sym y, symbol = some sym → s.store.symbol? sym = some y → y.completer = none) :
    ∃ sym y, symbol = some sym ∧ s.store.symbol? sym = some y ∧ y.completing = true := by
  obtain ⟨sym, y, hsymbol, hy, -, hwaits⟩ := hs.lags.waiting ty _ info hinfo rfl hblank
  obtain rfl : symbol = some sym := hsymbol
  rw [hloaded sym y rfl hy] at hwaits
  exact ⟨sym, y, rfl, hy, hwaits.resolve_left nofun⟩

theorem Session.Ready.not_running (hs : s.Ready r b P top) (htop : top) {sym : SymbolId} {y : Symbol}
    (hy : s.store.symbol? sym = some y) : y.completing ≠ true := by
  rw [hs.lags.idle (hs.flight.2 htop) sym y hy]
  exact nofun

/-- **A list that loading supplies.**  A question from outside gets all of it.  A completer may get
nothing instead, if the class is being loaded. -/
theorem declaredList_asks {slot : Slot β} (hslot : slot.Declared) (hr : r.Complete)
    (hload : Loads r b P top load)
    (hfull : r.type? ty = some ⟨symbol, erased, literal, .classType full⟩) :
    Asks r b P top (declaredList load slot ty symbol) fun l =>
      (l = (slot.read full).getD [] ∨ l = []) ∧ (top → l = (slot.read full).getD []) := by
  intro s hs
  -- a list that is set is the right one, and an unset one means that the class is blank
  have hsome : ∀ info l, ClassInfo.Lags r ty full info → slot.read info = some l →
      l = (slot.read full).getD [] := by
    intro info l hlags hread
    obtain hblank | hsame := hlags.declaration
    · rw [hslot.read_of_blank hblank] at hread
      cases hread
    · rw [← hslot.read_congr hsame, hread]
      rfl
  have hnone : ∀ info, ClassInfo.Lags r ty full info → slot.read info = none →
      info.declaration = .blank := by
    intro info hlags hread
    obtain hblank | hsame := hlags.declaration
    · exact hblank
    · have hset := (hr.lists ty _ full hfull rfl).read hslot
      rw [← hslot.read_congr hsame, hread] at hset
      cases hset
  obtain ⟨info, hinfo, hlags⟩ := hs.classRecord hfull
  refine .step (slot.current_run hinfo rfl) ?_
  cases hread : slot.read info with
  | some l =>
    exact returns_pure ⟨⟨.inl (hsome info l hlags hread), fun _ => hsome info l hlags hread⟩,
      hs.lags, .refl s⟩
  | none =>
    refine (completeLazily_returns hload (fun _ => hr.known hfull) hs).bind
      fun _ s₁ ⟨⟨hlags₁, hevolves⟩, hloaded⟩ => ?_
    have hs₁ := hs.evolve hlags₁ hevolves
    obtain ⟨info₁, hinfo₁, hinfoLags₁⟩ := hs₁.classRecord hfull
    refine .step (slot.current_run hinfo₁ rfl) ?_
    cases hread₁ : slot.read info₁ with
    | some l =>
      exact returns_pure ⟨⟨.inl (hsome info₁ l hinfoLags₁ hread₁),
        fun _ => hsome info₁ l hinfoLags₁ hread₁⟩, hlags₁, hevolves⟩
    | none =>
      -- still blank after loading: the completer of the class is running
      obtain ⟨sym, y, rfl, hy, hrunning⟩ :=
        hs₁.running_of_blank hinfo₁ (hnone info₁ hinfoLags₁ hread₁) hloaded
      have hcompleting : isCompleting (some sym) s₁ = .ok true s₁ := by
        rw [← hrunning]
        exact bind_run (symbolData_run hy)
      refine .step hcompleting (returns_pure ⟨⟨.inr rfl, fun htop => ?_⟩, hlags₁, hevolves⟩)
      exact absurd hrunning (hs₁.not_running htop hy)

/-- Loading a class if something of it is missing.  What is then read off its declaration is right. -/
theorem loadMissing_returns {γ : Type} (hr : r.Complete) (hload : Loads r b P top load)
    (hs : s.Ready r b P top)
    (hfull : r.type? ty = some ⟨symbol, erased, literal, .classType full⟩)
    (hinfo : s.store.type? ty = some ⟨symbol, erased, literal, .classType info⟩) {missing : Bool}
    (hmissing : missing = false → info.declaration ≠ .blank) {rest : Run γ} {q : γ → Prop}
    (hrest : ∀ (s' : Session) (info' : ClassInfo),
      s'.store.type? ty = some ⟨symbol, erased, literal, .classType info'⟩ →
      ClassInfo.Lags r ty full info' → (top → info'.declaration = full.declaration) →
        ∃ a, rest s' = .ok a s' ∧ q a) :
    Run.Returns (if missing = true then completeLazily load symbol >>= fun _ => rest else rest) s
      fun a s' => q a ∧ r.Lags b s'.store ∧ s.Evolves s' := by
  cases missing with
  | true =>
    refine (completeLazily_returns hload (fun _ => hr.known hfull) hs).bind
      fun _ s₁ ⟨⟨hlags, hevolves⟩, hloaded⟩ => ?_
    have hs₁ := hs.evolve hlags hevolves
    obtain ⟨info₁, hinfo₁, hinfoLags⟩ := hs₁.classRecord hfull
    obtain ⟨a, hrun, ha⟩ := hrest s₁ info₁ hinfo₁ hinfoLags fun htop => by
      obtain hblank | hsame := hinfoLags.declaration
      · obtain ⟨sym, y, -, hy, hrunning⟩ := hs₁.running_of_blank hinfo₁ hblank hloaded
        exact absurd hrunning (hs₁.not_running htop hy)
      · exact hsame
    exact ⟨a, s₁, hrun, ha, hlags, hevolves⟩
  | false =>
    obtain ⟨info₀, hinfo₀, hlags⟩ := hs.classRecord hfull
    obtain ⟨rfl⟩ : info = info₀ := by
      have heq := hinfo.symm.trans hinfo₀
      simpa using heq
    obtain ⟨a, hrun, ha⟩ := hrest s info hinfo hlags fun _ =>
      hlags.declaration.resolve_left (hmissing rfl)
    exact ⟨a, s, hrun, ha, hs.lags, .refl s⟩

/-- **Something that is read off the declaration of a class** after loading it. -/
theorem suppliedPart_asks {read : ClassInfo → Option α} (hr : r.Complete) (hload : Loads r b P top load)
    (hblank : ∀ info, info.declaration = .blank → read info = none)
    (hread : ∀ info info' : ClassInfo, info.declaration = info'.declaration → read info = read info')
    (hty : r.Has ty) : Asks r b P top (suppliedPart load read ty) fun a =>
      (a = ((r.kind? ty).bind Kind.class?).bind read ∨ a = none) ∧
        (top → a = ((r.kind? ty).bind Kind.class?).bind read) := by
  intro s hs
  obtain ⟨data, hfull⟩ := Store.has_iff.1 hty
  obtain ⟨data', hdata, hlags⟩ := hs.lags.types ty data hfull
  rw [Store.kind?_eq hfull]
  refine .step (typeData_run hdata) ?_
  cases hlags with
  | @classType symbol erased literal full info hinfo =>
    refine loadMissing_returns hr hload hs hfull hdata (fun hpresent hnone => ?_)
      fun s' info' hinfo' hlags' hright => ?_
    · rw [hblank info hnone] at hpresent
      cases hpresent
    · refine ⟨read info', bind_run (kindOf_run hinfo'), ?_, fun htop => hread info' full (hright htop)⟩
      exact hlags'.declaration.symm.imp (hread info' full) (hblank info')
  | other hkind =>
    obtain ⟨symbol, erased, literal, kind⟩ := data
    cases kind with
    | classType => cases hkind
    | _ => exact returns_pure ⟨⟨.inl rfl, fun _ => rfl⟩, hs.lags, .refl s⟩

/-! ### Remembering -/

namespace Slot.Means

variable {slot : Slot β} {value : TypeId → List β}

theorem right (h : slot.Means r value) (hlags : ClassInfo.Lags r ty full info) :
    ∀ l, slot.read info = some l → l = value ty := by
  cases h with
  | resolvedRegions => exact hlags.resolvedRegions
  | allTypeParams => exact hlags.allTypeParams
  | allRegionParams => exact hlags.allRegionParams
  | allEffectParams => exact hlags.allEffectParams

theorem write (h : slot.Means r value) (hlags : ClassInfo.Lags r ty full info) :
    ClassInfo.Lags r ty full (slot.write (value ty) info) := by
  cases h with
  | resolvedRegions => exact { hlags with resolvedRegions := fun _ hl => (Option.some.inj hl).symm }
  | allTypeParams => exact { hlags with allTypeParams := fun _ hl => (Option.some.inj hl).symm }
  | allRegionParams => exact { hlags with allRegionParams := fun _ hl => (Option.some.inj hl).symm }
  | allEffectParams => exact { hlags with allEffectParams := fun _ hl => (Option.some.inj hl).symm }

theorem declaration (h : slot.Means r value) (l : List β) (info : ClassInfo) :
    (slot.write l info).declaration = info.declaration := by
  cases h <;> rfl

end Slot.Means

/-- **Remembering.**  From outside, the list is remembered, and it is the right one; a completer
remembers nothing. -/
theorem remember_asks {slot : Slot β} {value : TypeId → List β} (hslot : slot.Means r value)
    (hfull : r.type? ty = some ⟨symbol, erased, literal, .classType full⟩) {list : List β}
    (hlist : top → list = value ty) :
    Asks r b P top (remember slot ty list) fun l => top → l = value ty := by
  intro s hs
  refine .step (get_run s) ?_
  by_cases hflight : s.store.inFlight = 0
  · rw [if_pos hflight]
    obtain rfl := hlist (hs.flight.1 hflight)
    obtain ⟨info, hinfo, hlags⟩ := hs.classRecord hfull
    refine .step (slot.current_run hinfo rfl) ?_
    cases hread : slot.read info with
    | some kept =>
      have hkept := hslot.right hlags kept hread
      exact returns_pure ⟨fun _ => hkept, hs.lags, .refl s⟩
    | none =>
      have hdecl := hslot.declaration (value ty)
      refine ⟨value ty, { s with store := s.store.updateClass ty (slot.write (value ty)) }, rfl,
        fun _ => rfl, hs.lags.updateClass hdecl fun _ _ => hslot.write, ?_⟩
      exact ⟨rfl, fun _ => rfl, fun _ hP => hP, fun _ _ _ _ _ hblank => hblank.updateClass hdecl,
        [], rfl, List.forall_mem_nil _⟩
  · rw [if_neg hflight]
    exact returns_pure ⟨hlist, hs.lags, .refl s⟩

/-! ### Surveys -/

theorem TypeData.Lags.found {data data' : TypeData} (h : data.Lags r ty data') :
    data.Found r top ty data' := by
  cases h with
  | classType h =>
    refine .classType h.outer (fun hmeans l hl _ => hmeans.right h l hl) fun hsuper hinterfaces => ?_
    obtain hblank | hsame := h.declaration
    · exact ⟨congrArg Declaration.supertype hblank, congrArg Declaration.interfaces hblank⟩
    · exact ⟨(congrArg Declaration.supertype hsame).trans hsuper,
        (congrArg Declaration.interfaces hsame).trans hinterfaces⟩
  | other hkind => exact .other hkind

/-- **A lagging store can be surveyed.**  From outside the answers are sure. -/
def Asks.survey (hr : r.Complete) (hload : Loads r b P top load) : Survey r load where
  Asks := Asks r b P top
  pure := .pure
  bind := .bind
  settled := hr.toSettled
  sure := top
  session := .read fun s _ => ⟨s, rfl, trivial⟩
  logging := log_asks
  typeData hty := (typeData_asks hty).imp fun _ ⟨full, hfull, hlags⟩ => ⟨full, hfull, hlags.found⟩
  symbolData := symbolData_asks
  completeLazily hy s hs := by
    refine (completeLazily_returns hload (fun sym h => ?_) hs).imp fun _ _ h => ⟨trivial, h.1⟩
    obtain rfl := Option.some.inj h
    exact ⟨_, hy⟩
  declaredList hslot := declaredList_asks hslot hr hload
  remember hslot hfull := remember_asks hslot hfull
  supertype := suppliedPart_asks hr hload (fun _ => congrArg Declaration.supertype)
    (fun _ _ => congrArg Declaration.supertype)
  interfaces hty := (suppliedPart_asks hr hload (fun _ => congrArg Declaration.interfaces)
    (fun _ _ => congrArg Declaration.interfaces) hty).map fun _ ⟨hlist, hsure⟩ => by
      refine ⟨hlist.imp (congrArg (Option.getD · [])) (congrArg (Option.getD · [])), fun htop => ?_⟩
      exact congrArg (Option.getD · []) (hsure htop)

end RegionTypes

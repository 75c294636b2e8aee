import RegionTypes.Proofs.Completion.Backfilled
import RegionTypes.Proofs.Store.Containment

/-!
# Questions that are answered

A question may load classes, and what the completers of these do is not in its hands: they may name
handles that the store has not issued, or start each other too deeply.  Apart from that a question with
a list for an answer does not come to a stop, if enough nesting is allowed for it.

* `Session.LoadingStops` — a completer that was started after a session has come to a stop.
* `Run.Answers` — **the computation returns, unless a completer that it starts comes to a stop**.
* `declaredList_answers` — a list that loading supplies.
* `regionArguments_answers` — the region arguments, which are asked of three types at most: of a type, of
  the canonical type of its class, and of an error type if the class is damaged in between.
* `Derivation.Accumulates.answers` — the lists along the enclosing types, which are older and older.
-/

namespace RegionTypes

open Run

/-- A completer that was started after the session has come to the stop. -/
def Session.LoadingStops (s : Session) (n : Nat) (stop : Stop) (s' : Session) : Prop :=
  ∃ sym y completer, ∃ t : Session, s.store.Later t.store ∧ t.store.symbol? sym = some y ∧
    y.completer = some completer ∧ completerLoader n sym t = .error stop s'

/-- The symbol of a type, if it has one, belongs to the store. -/
def Store.Knows (s : Store) (symbol : Option SymbolId) : Prop :=
  ∀ sym, symbol = some sym → ∃ y, s.symbol? sym = some y

theorem Store.Precedes.knows {s t : Store} {symbol : Option SymbolId} (h : s.Precedes t)
    (hs : s.Knows symbol) : t.Knows symbol := by
  intro sym hsym
  obtain ⟨y, hy⟩ := hs sym hsym
  obtain ⟨y', hy', -⟩ := h.symbols sym y hy
  exact ⟨y', hy'⟩

/-- The symbols of all types belong to the store. -/
def Store.Named (s : Store) : Prop := ∀ ty data, s.type? ty = some data → s.Knows data.symbol

theorem Store.WellFormed.named {s : Store} (h : s.WellFormed) : s.Named := fun _ data hdata sym hsym =>
  Option.isSome_iff_exists.1 ((h data (Store.mem_types hdata)).symbols sym hsym)

namespace Run

variable {α β : Type} {n : Nat} {s s' : Session} {action : Run α}

/-- The computation returns, unless a completer that it starts comes to a stop. -/
def Answers (n : Nat) (action : Run α) (s : Session) : Prop :=
  ∀ stop s', action s = .error stop s' → s.LoadingStops n stop s'

theorem answers_of_ok {a : α} (h : action s = .ok a s') : action.Answers n s := by
  intro stop t hrun
  cases h.symm.trans hrun

theorem Answers.congr {first : Run α} (h : first.Answers n s) (heq : action s = first s) :
    action.Answers n s := fun stop s' hrun => h stop s' (heq.symm.trans hrun)

/-- **Sequencing.** -/
theorem Answers.bind {next : α → Run β} (h : action.Answers n s) (hlater : Along Store.Later action)
    (hnext : ∀ a s', action s = .ok a s' → s.store.Later s'.store → (next a).Answers n s') :
    (action >>= next).Answers n s := by
  intro stop t hrun
  cases hfirst : action s with
  | error =>
    rw [bind_run_error hfirst] at hrun
    cases hrun
    exact h stop t hfirst
  | ok a s' =>
    rw [bind_run hfirst] at hrun
    have hs' := hlater.of_ok hfirst
    obtain ⟨sym, y, completer, u, hu, hload⟩ := hnext a s' hfirst hs' stop t hrun
    exact ⟨sym, y, completer, u, hs'.trans hu, hload⟩

theorem Answers.map {f : α → β} (h : action.Answers n s) :
    (do return f (← action)).Answers n s := by
  intro stop t hrun
  cases hfirst : action s with
  | error =>
    rw [bind_run_error hfirst] at hrun
    cases hrun
    exact h stop t hfirst
  | ok =>
    rw [bind_run hfirst] at hrun
    cases hrun

/-- A first part that only reads is passed over. -/
theorem Answers.step {next : α → Run β} {a : α} (h : action s = .ok a s) (hnext : (next a).Answers n s) :
    (action >>= next).Answers n s := by
  intro stop t hrun
  rw [bind_run h] at hrun
  exact hnext stop t hrun

end Run

/-! ### Lists that loading supplies -/

section

variable {β : Type} {n : Nat} {s : Session} {ty : TypeId} {symbol : Option SymbolId} {slot : Slot β}
  {data : TypeData}

theorem completerLoader_answers {sym : SymbolId} {y : Symbol} (hy : s.store.symbol? sym = some y) :
    (completerLoader n sym).Answers n s := by
  intro stop s' hrun
  cases hcompleter : y.completer with
  | none =>
    rw [completerLoader, completeSymbol, bind_run (symbolData_run hy), hcompleter] at hrun
    cases hrun
  | some completer => exact ⟨sym, y, completer, s, .refl, hy, hcompleter, hrun⟩

theorem completeLazily_answers (hsymbol : s.store.Knows symbol) :
    (completeLazily (completerLoader n) symbol).Answers n s := by
  cases symbol with
  | none => exact answers_of_ok rfl
  | some sym =>
    obtain ⟨y, hy⟩ := hsymbol sym rfl
    refine (completerLoader_answers hy).bind ((completerLoader_later n).load sym) fun result t _ _ => ?_
    cases result with
    | ok => exact answers_of_ok rfl
    | error e =>
      obtain ⟨_, _, hrun, -⟩ := log_returns .warn Log.typesTarget
        [("message", "symbol completion failed"), ("symbol", e.symbol), ("error", e.message)] t
      exact answers_of_ok hrun

theorem settleList_answers (hdata : s.store.type? ty = some data) (hsymbol : s.store.Knows symbol) :
    (settleList slot ty symbol).Answers n s := by
  refine .step (Slot.current_bind_read hdata) ?_
  split
  · exact answers_of_ok rfl
  · obtain ⟨completing, hcompleting⟩ := isCompleting_run hsymbol
    refine .step hcompleting ?_
    cases completing <;> exact answers_of_ok rfl

theorem declaredList_answers (hdata : s.store.type? ty = some data) (hsymbol : s.store.Knows symbol) :
    (declaredList (completerLoader n) slot ty symbol).Answers n s := by
  refine .step (Slot.current_bind_read hdata) ?_
  split
  · exact answers_of_ok rfl
  · refine (completeLazily_answers hsymbol).bind (completeLazily_later (completerLoader_later n) symbol)
      fun _ t _ hlater => ?_
    obtain ⟨data', hdata', -⟩ := hlater.precedes.types ty data hdata
    exact settleList_answers hdata' (hlater.precedes.knows hsymbol)

theorem remember_answers {r : Session} {info : ClassInfo} {list : List β}
    (hinfo : r.store.class? ty = some info) (hlater : r.store.Later s.store) :
    (remember slot ty list).Answers n s := by
  obtain ⟨info', hinfo', -⟩ := hlater.precedes.exists_class? hinfo
  intro stop s' hrun
  rw [remember_run hinfo'] at hrun
  split at hrun
  · split at hrun <;> cases hrun
  · cases hrun

/-- A question that is answered with a list is answered if the list can be worked out. -/
theorem Listing.ask_answers {q : Listing β} [q.Lawful] {load : Loader} {depth : Nat}
    (hdata : s.store.type? ty = some data)
    (hwork : ∀ info, data.kind = .classType info →
      (q.work load depth ty data.symbol data.erased info.outer).Answers n s)
    (hother : ∀ next, data.kind.class? = none → q.other data.kind = .inr next →
      (q.ask load depth next).Answers n s) : (q.ask load (depth + 1) ty).Answers n s := by
  rw [Listing.Lawful.succ]
  refine .step (typeData_run hdata) ?_
  cases hclass : data.kind.class? with
  | some info =>
    cases hslot : q.slot.read info with
    | some =>
      simp only [hslot]
      exact answers_of_ok rfl
    | none =>
      simp only [hslot]
      exact hwork info (Kind.class?_eq_some.1 hclass)
  | none =>
    cases hnext : q.other data.kind with
    | inl => exact answers_of_ok rfl
    | inr next => exact hother next hclass hnext

theorem Listing.ask_answers_class {q : Listing β} [q.Lawful] {load : Loader} {depth : Nat}
    {info : ClassInfo} (hdata : s.store.type? ty = some data) (hkind : data.kind = .classType info)
    (hwork : (q.work load depth ty data.symbol data.erased info.outer).Answers n s) :
    (q.ask load (depth + 1) ty).Answers n s := by
  refine Listing.ask_answers hdata (fun info' hkind' => ?_) fun next hclass _ => ?_
  · obtain rfl := Kind.classType.inj (hkind.symm.trans hkind')
    exact hwork
  · rw [hkind] at hclass
    cases hclass

end

/-! ### Region arguments -/

section

variable {n depth : Nat} {s : Session} {ty : TypeId} {data : TypeData} {info : ClassInfo}

theorem regionArguments_answers_other (hdata : s.store.type? ty = some data)
    (hclass : data.kind.class? = none) :
    (regionArguments (completerLoader n) (depth + 1) ty).Answers n s := by
  refine Listing.ask_answers (q := .regionArguments) hdata (fun info hkind => ?_) fun next _ hnext => ?_
  · rw [hkind] at hclass
    cases hclass
  · cases hkind : data.kind <;> simp [hkind, Listing.regionArguments] at hnext

/-- A class type, provided that there is an answer for the canonical type of its class. -/
theorem regionArguments_answers_class (hdata : s.store.type? ty = some data)
    (hkind : data.kind = .classType info) (hsymbol : s.store.Knows data.symbol)
    (hcanonical : ∀ (t : Session) c, s.store.Later t.store → t.store.canonical? data.symbol = some c →
      c ≠ ty → (regionArguments (completerLoader n) depth c).Answers n t) :
    (regionArguments (completerLoader n) (depth + 1) ty).Answers n s := by
  have hload := completerLoader_later n
  have hinfo : s.store.class? ty = some info := Store.class?_eq_some.2 ⟨data, hdata, hkind⟩
  refine Listing.ask_answers_class (q := .regionArguments) hdata hkind ?_
  refine (declaredList_answers hdata hsymbol).bind (declaredList_along hload .regionArgs ty data.symbol)
    fun declared t _ hlater => ?_
  split
  · exact remember_answers hinfo hlater
  · refine .step (canonicalType_run (hlater.precedes.knows hsymbol)) ?_
    split
    · exact remember_answers hinfo hlater
    · next c hc =>
      split
      · exact remember_answers hinfo hlater
      · next hne =>
        refine (hcanonical t c hlater hc hne).bind (hload.keeps.regionArguments depth c).along
          fun formals u _ hu => ?_
        exact remember_answers hinfo (hlater.trans hu)

/-- The canonical type of a class.  If the class is damaged on the way, its error type is asked. -/
theorem regionArguments_answers_canonical (hdata : s.store.type? ty = some data)
    (hsymbol : s.store.Knows data.symbol) (hcanonical : s.store.canonical? data.symbol = some ty) :
    (regionArguments (completerLoader n) (depth + 2) ty).Answers n s := by
  cases hclass : data.kind.class? with
  | none => exact regionArguments_answers_other hdata hclass
  | some =>
    refine regionArguments_answers_class hdata (Kind.class?_eq_some.1 hclass) hsymbol
      fun t c hlater hc hne => ?_
    obtain ⟨c', hc', hsame⟩ := hlater.precedes.canonical? hcanonical
    obtain rfl := Option.mem_unique hc hc'
    obtain ⟨found, hfound, outer, houter⟩ := hsame.resolve_left hne
    exact regionArguments_answers_other hfound (by rw [houter]; rfl)

/-- **The region arguments of every type**, where types of symbols belong to them. -/
theorem regionArguments_answers (hs : s.store.Attached) (hdata : s.store.type? ty = some data)
    (hsymbol : s.store.Knows data.symbol) :
    (regionArguments (completerLoader n) (depth + 3) ty).Answers n s := by
  cases hclass : data.kind.class? with
  | none => exact regionArguments_answers_other hdata hclass
  | some =>
    refine regionArguments_answers_class hdata (Kind.class?_eq_some.1 hclass) hsymbol
      fun t c hlater hc hne => ?_
    have hsymbol' := hlater.precedes.knows hsymbol
    obtain ⟨sym, y, hsym, hy, htype⟩ := Store.exists_of_canonical? hc
    obtain ⟨⟨found, hfound, howner⟩, -⟩ := hlater.attached hs sym y c hy htype
    rw [hsym, ← howner] at hc hsymbol'
    exact regionArguments_answers_canonical hfound hsymbol' hc

end

/-! ### Lists along the enclosing types -/

theorem Kind.Precedes.around {k k' : Kind} (h : k.Precedes k') : k'.around = k.around := by
  cases h with
  | same => rfl
  | classType h => exact congrArg some h.outer
  | placeholder h => exact congrArg some h.origin
  | _ => rfl

section

variable {n depth : Nat} {r : Store} {s : Session} {ty : TypeId} {data : TypeData} {info : ClassInfo}

theorem typeArguments_answers_class (hdata : s.store.type? ty = some data)
    (hkind : data.kind = .classType info) (hsymbol : s.store.Knows data.symbol) :
    (typeArguments (completerLoader n) (depth + 1) ty).Answers n s :=
  Listing.ask_answers_class (q := .typeArguments) hdata hkind (declaredList_answers hdata hsymbol)

theorem effectArguments_answers_class (hdata : s.store.type? ty = some data)
    (hkind : data.kind = .classType info) (hsymbol : s.store.Knows data.symbol) :
    (effectArguments (completerLoader n) (depth + 1) ty).Answers n s :=
  Listing.ask_answers_class (q := .effectArguments) hdata hkind (declaredList_answers hdata hsymbol)

namespace Derivation.Accumulates

variable {β : Type} {d : Derivation β} (hd : d.Accumulates)

include hd

/-- The list of a class type, provided that there is an answer for the type around it. -/
theorem work_answers (hs : s.store.Attached) (hdata : s.store.type? ty = some data)
    (hkind : data.kind = .classType info) (hsymbol : s.store.Knows data.symbol)
    (houter : ∀ t : Session, s.store.Later t.store →
      (d.listing.ask (completerLoader n) (depth + 2) info.outer).Answers n t) :
    (d.listing.work (completerLoader n) (depth + 2) ty data.symbol data.erased info.outer).Answers n
      s := by
  have hload := completerLoader_later n
  have hinfo : s.store.class? ty = some info := Store.class?_eq_some.2 ⟨data, hdata, hkind⟩
  have hpart : (d.part.ask (completerLoader n) (depth + 3) ty).Answers n s := by
    cases d with
    | regions | allRegions => exact regionArguments_answers hs hdata hsymbol
    | allTypes => exact typeArguments_answers_class hdata hkind hsymbol
    | allEffects => exact effectArguments_answers_class hdata hkind hsymbol
  refine Answers.congr ?_ (hd.work_eq hdata hkind)
  refine hpart.bind (Listing.Lawful.later hload _ _) fun own t _ hlater => ?_
  split
  · exact remember_answers hinfo hlater
  · refine (houter t hlater).bind (Listing.Lawful.later hload _ _) fun around u _ hu => ?_
    exact remember_answers hinfo (hlater.trans hu)

theorem around {kind : Kind} {next : TypeId} (hclass : kind.class? = none)
    (h : d.listing.other kind = .inr next) : kind.around = some next := by
  cases d with
  | regions => cases hd
  | allTypes =>
    cases kind with
    | classType => cases hclass
    | array | forAll | placeholder => exact congrArg some (Sum.inr.inj h)
    | _ => cases h
  | allRegions | allEffects => cases h

/-- **Along the enclosing types** there are answers for every type.  Types around a type are older, so
the induction is on the depth. -/
theorem answers (hr : r.Consistent) (hnamed : r.Named) (hattached : r.Attached)
    (hlater : r.Later s.store) (hty : r.Has ty) (hdepth : ty.index + 2 < depth) :
    (d.listing.ask (completerLoader n) depth ty).Answers n s := by
  induction depth generalizing s ty with
  | zero => omega
  | succ depth ih =>
    obtain ⟨data, hdata⟩ := Store.has_iff.1 hty
    obtain ⟨data', hdata', hkeeps⟩ := hlater.precedes.types ty data hdata
    have haround : ∀ {t : Session} {next}, data'.kind.around = some next → r.Later t.store →
        (d.listing.ask (completerLoader n) depth next).Answers n t := by
      intro t next hnext ht
      rw [hkeeps.kind.around] at hnext
      have hlt : next.index < ty.index := hr.around_lt hdata hnext
      refine ih ht (Store.has_iff_lt.2 ?_) (by omega)
      exact Nat.lt_trans hlt (Store.has_iff_lt.1 hty)
    refine Listing.ask_answers hdata' (fun info hkind => ?_) fun next hclass hnext =>
      haround (hd.around hclass hnext) hlater
    obtain ⟨k, rfl⟩ : ∃ k, depth = k + 2 := ⟨depth - 2, by omega⟩
    refine hd.work_answers (hlater.attached hattached) hdata' hkind ?_ fun t ht =>
      haround ?_ (hlater.trans ht)
    · rw [hkeeps.symbol]
      exact hlater.precedes.knows (hnamed ty data hdata)
    · rw [hkind]
      rfl

end Derivation.Accumulates

end

end RegionTypes

import RegionTypes.Proofs.Store.Faults

/-!
# Damage

A class that could not be loaded is damaged: its symbol gets an error type and a scope that stays
empty.  No later operation repairs it, and the types that involve the class are erroneous from then
on.

* `Store.Damaged`, `Store.Later.damaged` — a damaged symbol, which **stays one**.
* `Store.Damaged.faulty` — every class type of a damaged class is faulty.
* `damaged_of_damage` — damaging a symbol leaves it damaged.
-/

namespace RegionTypes

open Run

namespace Store

variable {s t : Store} {sym : SymbolId} {ty : TypeId} {data : TypeData} {info : ClassInfo}

/-! ### Damaged symbols -/

/-- The symbol of a class that could not be loaded. -/
def Damaged (s : Store) (sym : SymbolId) : Prop :=
  ∃ y ty, s.symbol? sym = some y ∧ y.kind = .error ∧ y.members = .error ∧ y.type = some ty ∧
    s.IsErrorType ty

theorem eq_or_of_updateSymbol {a : SymbolId} {f : Symbol → Symbol} {y y' : Symbol}
    (hy : s.symbol? sym = some y) (hy' : (s.updateSymbol a f).symbol? sym = some y') :
    y' = y ∨ y' = f y := by
  rw [symbol?_updateSymbol, hy] at hy'
  split at hy'
  · exact .inr (Option.some.inj hy').symm
  · exact .inl (Option.some.inj hy').symm

/-- A change keeps the kind of a symbol, and the emptiness of a scope that stays empty, unless it
damages the symbol. -/
theorem Change.kind_or_damage (h : s.Change t) {y y' : Symbol} (hy : s.symbol? sym = some y)
    (hy' : t.symbol? sym = some y') :
    (y'.kind = y.kind ∧ (y.members = .error → y'.members = .error)) ∨
      (y'.kind = .error ∧ y'.members = .error) := by
  have hsame : t.symbol? sym = s.symbol? sym → y' = y := fun hsame =>
    Option.some.inj (hy'.symm.trans (hsame.trans hy))
  suffices hcases : y' = y ∨ (y'.kind = y.kind ∧ (y.members = .error → y'.members = .error)) ∨
      (y'.kind = .error ∧ y'.members = .error) by
    rcases hcases with rfl | hcases
    · exact .inl ⟨rfl, id⟩
    · exact hcases
  cases h with
  | routine h =>
    cases h with
    | declare =>
      have hne : sym ≠ s.nextSymbol := ne_nextSymbol (Option.isSome_iff_exists.2 ⟨y, hy⟩)
      exact .inl (hsame (by rw [symbol?_pushSymbol, if_neg hne]))
    | attach | flags | detach | completing =>
      rcases eq_or_of_updateSymbol hy hy' with heq | rfl
      · exact .inl heq
      · exact .inr (.inl ⟨rfl, id⟩)
    | damage =>
      rcases eq_or_of_updateSymbol hy hy' with heq | rfl
      · exact .inl heq
      · exact .inr (.inr ⟨rfl, rfl⟩)
    | enter =>
      rcases eq_or_of_updateSymbol hy hy' with heq | rfl
      · exact .inl heq
      · exact .inr (.inl ⟨rfl, fun hmembers => by rw [hmembers]; rfl⟩)
    | _ => exact .inl (hsame rfl)
  | install =>
    rcases eq_or_of_updateSymbol hy hy' with heq | rfl
    · exact .inl heq
    · exact .inr (.inl ⟨rfl, id⟩)
  | prototyped | thrown => exact .inl (hsame rfl)

theorem Change.damaged (h : s.Change t) (hs : s.Damaged sym) : t.Damaged sym := by
  have hst := h.evolves.precedes
  obtain ⟨y, ty, hy, hkind, hmembers, htype, herror⟩ := hs
  obtain ⟨y', hy', hkeeps⟩ := hst.symbols sym y hy
  have hdamaged : y'.kind = .error ∧ y'.members = .error := by
    rcases h.kind_or_damage hy hy' with hkept | hdamaged
    · exact ⟨hkept.1.trans hkind, hkept.2 hmembers⟩
    · exact hdamaged
  obtain ⟨ty', htype', rfl | herror'⟩ := hkeeps.type ty htype
  · exact ⟨y', ty', hy', hdamaged.1, hdamaged.2, htype', hst.isErrorType herror⟩
  · exact ⟨y', ty', hy', hdamaged.1, hdamaged.2, htype', herror'⟩

/-- **A damaged symbol stays one.** -/
theorem Later.damaged (h : s.Later t) (hs : s.Damaged sym) : t.Damaged sym := by
  induction h with
  | refl => exact hs
  | tail _ hchange ih => exact hchange.damaged ih

/-- Every class type of a damaged class is faulty. -/
theorem Damaged.faulty (h : s.Damaged sym) (hdata : s.type? ty = some data)
    (hkind : data.kind = .classType info) (hsym : data.symbol = some sym) : s.Faulty ty := by
  obtain ⟨y, error, hy, -, -, htype, herror⟩ := h
  have hcanonical : s.canonical? data.symbol = some error := by
    simp [Store.canonical?, hsym, hy, htype]
  have hmem : error ∈ s.consulted ty :=
    (mem_consulted hdata).2 (.inr ⟨info, hkind, hcanonical, herror.ne hdata hkind⟩)
  exact .consulted hmem (.error herror)

end Store

theorem damaged_of_damage {sym : SymbolId} {ty : TypeId} {s s' : Session}
    (h : damage sym s = .ok ty s') : s'.store.Damaged sym := by
  obtain ⟨error, s₁, herror, hrest⟩ := exists_of_bind h
  obtain ⟨_, s₂, hupdate, hpure⟩ := exists_of_bind hrest
  obtain ⟨y, s₃, hfound, hmodify⟩ := exists_of_bind hupdate
  obtain ⟨rfl, hy⟩ := eq_of_symbolData hfound
  injection herror with herror hs₁
  injection hmodify with _ hs₂
  injection hpure with _ hs'
  subst hs₁ hs₂ hs' herror
  let data : TypeData := { symbol := some sym, kind := .error WellKnown.missing }
  have hnew : (s.store.pushType data).IsErrorType s.store.nextType :=
    ⟨data, by simp, WellKnown.missing, rfl⟩
  refine ⟨y.damaged s.store.nextType, s.store.nextType, ?_, rfl, rfl, rfl, hnew⟩
  show Store.symbol? (Store.updateSymbol _ sym _) sym = _
  rw [Store.symbol?_updateSymbol, if_pos rfl, hy]
  rfl

/-- The answer to a question, if there is one. -/
def Run.answer? (question : Run Bool) (s : Session) : Option Bool :=
  match question s with
  | .ok answer _ => some answer
  | .error .. => none

theorem Run.ok_of_answer? {question : Run Bool} {s : Session} {answer : Bool}
    (h : question.answer? s = some answer) : question s = .ok answer (question.after s) := by
  cases hrun : question s with
  | ok =>
    rw [answer?, hrun] at h
    rw [after_of_ok hrun, Option.some.inj h]
  | error =>
    rw [answer?, hrun] at h
    cases h

end RegionTypes

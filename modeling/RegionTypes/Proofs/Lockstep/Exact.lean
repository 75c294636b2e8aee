import RegionTypes.Proofs.Lockstep.Commands

/-!
# One run

With the same store in both runs a tie is about one run.  Derived lists may then be looked at too, so
the questions with derived lists keep such a tie whenever loading does.

* `Tie.Exact` — the stores are the same, and the tie is kept when a derived list is kept.
* `remember_keeps` — keeping a derived list.
* `Loader.Tied.asks` — **only loading is left to be shown** for such a tie.
* `Tie.ofMoves` — the tie that says nothing but where runs take the store.
-/

namespace RegionTypes

open Run

/-- The session with a list of a class type written. -/
abbrev Session.setList {β : Type} (s : Session) (slot : Slot β) (ty : TypeId) (list : List β) :
    Session :=
  { s with store := s.store.setList slot ty list }

namespace Tie

/-- The same store in both runs. -/
class Exact (T : Tie) : Prop extends T.Lawful where
  store : ∀ {s t}, T.Holds s t → t.store = s.store
  /-- A derived list is kept while no completer is running. -/
  remember : ∀ {s t : Session} {β : Type} {slot : Slot β} {ty : TypeId} {data : TypeData}
    {info : ClassInfo} {list : List β}, T.Holds s t → slot.Derived → s.store.type? ty = some data →
    data.kind = .classType info → slot.read info = none → s.store.inFlight = 0 →
    T.Moves s.store (s.store.setList slot ty list) →
      T.Holds (s.setList slot ty list) (t.setList slot ty list)

section Exact

variable {T : Tie} [T.Exact] {α β : Type} {W : β → β → Prop} {ty : TypeId}
  {symbol : Option SymbolId}

theorem same_of_exact {k : TypeData → Run α} {s t : Session} {data data' : TypeData}
    (hst : T.Holds s t) (hdata : s.store.type? ty = some data)
    (hdata' : t.store.type? ty = some data') : k data' = k data := by
  rw [Exact.store hst, hdata] at hdata'
  rw [Option.some.inj hdata']

/-- What follows on reading a type may use all of it. -/
theorem keeps_typeData_exact {k k' : TypeData → Run β} (hk : ∀ data, T.Joins W (k data) (k' data)) :
    T.Joins W (typeData ty >>= k) (typeData ty >>= k') where
  along := (typeData_still ty).of_eq.bind fun data => (hk data).along
  alongSecond := (typeData_still ty).of_eq.bind fun data => (hk data).alongSecond
  inStep s t hst := inStep_typeData hst (fun _ _ => same_of_exact hst) fun data _ =>
    (hk data).inStep s t hst

theorem keeps_kindOf_exact {k k' : Kind → Run β} (hk : ∀ kind, T.Joins W (k kind) (k' kind)) :
    T.Joins W (kindOf ty >>= k) (kindOf ty >>= k') := by
  rw [kindOf_bind, kindOf_bind]
  exact keeps_typeData_exact fun data => hk data.kind

theorem keeps_owning_exact {k k' : TypeData → Run α}
    (hk : ∀ data, (T.owning ty data.symbol).Pairs (k data) (k' data)) :
    T.Pairs (typeData ty >>= k) (typeData ty >>= k') :=
  keeps_of_owning (fun _ _ _ _ hst hdata hdata' => same_of_exact hst hdata hdata') hk

end Exact

end Tie

open Tie

variable {T : Tie} [T.Exact] {load load' : Loader} {β : Type} {slot : Slot β}

theorem current_keeps (slot : Slot β) (ty : TypeId) : T.Keeps (slot.current ty) := by
  refine keeps_kindOf_exact fun kind => ?_
  split
  · exact keeps_pure _
  · exact keeps_pure _

theorem remember_keeps_of {T : Tie} [T.Lawful] {ty : TypeId} {list : List β}
    (h : ∀ s t, Store.SetsList s t → T.Moves s t) (hslot : slot.Derived)
    (hcurrent : T.Keeps (slot.current ty))
    (hfill : ∀ (s t : Session) data info, T.Holds s t → s.store.type? ty = some data →
      data.kind = .classType info → slot.read info = none → s.store.inFlight = 0 →
      T.Moves s.store (s.store.setList slot ty list) →
        T.Holds (s.setList slot ty list) (t.setList slot ty list)) :
    T.Keeps (remember slot ty list) := by
  have hfilled : ∀ s s' : Session, slot.current ty s = .ok none s' → s.store.inFlight = 0 →
      T.Moves s.store (s.store.setList slot ty list) ∧
      ∀ t, T.Holds s t → T.Holds (s.setList slot ty list) (t.setList slot ty list) := by
    intro s s' hunset hrest
    obtain ⟨rfl, data, hdata, hheld⟩ := Slot.eq_of_current hunset
    cases hclass : data.kind.class? with
    | none =>
      have hself : s'.store.setList slot ty list = s'.store :=
        (Store.Twin.refl _).setList_eq_self hdata hclass
      refine ⟨?_, fun t hst => ?_⟩
      · rw [hself]
        exact refl_of T.Moves _
      · rw [Session.setList, Session.setList, hself, (Lawful.twin hst).store.setList_eq_self hdata hclass]
        exact hst
    | some info =>
      have hkind := Kind.class?_eq_some.1 hclass
      have hread : slot.read info = none := by rwa [hclass] at hheld
      have hmoves := h _ _ (.remember slot ty list data info hslot hdata hkind hread hrest)
      exact ⟨hmoves, fun t hst => hfill s' t data info hst hdata hkind hread hrest hmoves⟩
  have hrest : ∀ (s s' : Session) held, s.store.inFlight = 0 → slot.current ty s = .ok held s' →
      T.Moves s'.store (Run.after (held.elim (do slot.fill ty list; return list) pure) s').store := by
    intro s s' held hrest hrun
    cases held with
    | some => exact along_pure _ s'
    | none =>
      obtain ⟨rfl, _⟩ := Slot.eq_of_current hrun
      exact (hfilled s' s' hrun hrest).1
  refine keepsBy_of (fun s => ?_) fun s t hst => ?_
  · rw [remember, after_bind (get_run s)]
    split
    · next hzero =>
      refine along_of_bind ((current_still slot ty).of_eq s) fun held s' hrun => ?_
      cases held <;> exact hrest s s' _ hzero hrun
    · exact along_pure _ s
  · unfold InStep
    rw [remember, bind_run (get_run s), bind_run (get_run t), (Lawful.twin hst).store.inFlight]
    split
    · next hzero =>
      refine inStep_bind (hcurrent.inStep s t hst) (fun held s' hrun => ?_) ?_
      · cases held <;> exact hrest s s' _ hzero hrun
      · rintro held _ s' t' rfl hrun hst'
        cases held with
        | some => exact inStep_pure hst' rfl
        | none =>
          obtain ⟨rfl, _⟩ := Slot.eq_of_current hrun
          exact .inr ⟨rfl, (hfilled s' s' hrun hzero).2 t' hst'⟩
    · exact inStep_pure hst rfl

theorem remember_keeps (h : ∀ s t, Store.SetsList s t → T.Moves s t) (hslot : slot.Derived)
    (ty : TypeId) (list : List β) : T.Keeps (remember slot ty list) :=
  remember_keeps_of h hslot (current_keeps slot ty)
    fun _ _ _ _ hst hdata hkind hunset hrest hmoves =>
      Exact.remember hst hslot hdata hkind hunset hrest hmoves

/-! ### The questions with derived lists -/

section

variable (h : load.Tied load' T) (depth : Nat) (ty : TypeId)

include h

theorem regionArguments_keeps :
    T.Pairs (regionArguments load depth ty) (regionArguments load' depth ty) := by
  induction depth generalizing ty with
  | zero => exact keeps_tooDeep
  | succ depth ih =>
    refine keeps_owning_exact fun data => ?_
    have hkeep : ∀ list, (T.owning ty data.symbol).Keeps (remember .resolvedRegions ty list) :=
      fun list => (remember_keeps h.sets .resolvedRegions ty list).owning
    split
    · split
      · exact keeps_pure _
      · refine (declaredList_keeps h .regionArgs ty data.symbol).bind fun declared => ?_
        split
        · exact hkeep declared
        · refine (canonicalType_keeps data.symbol).bind fun canonical => ?_
          split
          · exact hkeep declared
          · split
            · exact hkeep declared
            · exact (ih _).owning.bind fun formals => hkeep _
    · exact keeps_pure _
    · exact keeps_pure _
    · exact keeps_pure _
    · exact keeps_pure _

theorem allTypeParams_keeps :
    T.Pairs (allTypeParams load depth ty) (allTypeParams load' depth ty) := by
  induction depth generalizing ty with
  | zero => exact keeps_tooDeep
  | succ depth ih =>
    refine keeps_owning_exact fun data => ?_
    split
    · split
      · exact keeps_pure _
      · exact (declaredList_keeps h .typeArgs ty data.symbol).bind fun own =>
          (ih _).owning.bind fun outer => (remember_keeps h.sets .allTypeParams ty _).owning
    · exact (ih _).owning
    · exact (ih _).owning
    · exact (ih _).owning
    · exact keeps_pure _

theorem allRegionParams_keeps :
    T.Pairs (allRegionParams load depth ty) (allRegionParams load' depth ty) := by
  induction depth generalizing ty with
  | zero => exact keeps_tooDeep
  | succ depth ih =>
    refine keeps_kindOf_exact fun kind => ?_
    split
    · split
      · exact keeps_pure _
      · exact (regionArguments_keeps h (depth + 1) ty).bind fun own =>
          (ih _).bind fun outer => remember_keeps h.sets .allRegionParams ty _
    · exact keeps_pure _

theorem allEffectParams_keeps :
    T.Pairs (allEffectParams load depth ty) (allEffectParams load' depth ty) := by
  induction depth generalizing ty with
  | zero => exact keeps_tooDeep
  | succ depth ih =>
    refine keeps_kindOf_exact fun kind => ?_
    split
    · split
      · exact keeps_pure _
      · refine (effectArguments_keeps h (depth + 1) ty).bind fun own => ?_
        split
        · exact remember_keeps h.sets .allEffectParams ty _
        · exact (ih _).bind fun outer => remember_keeps h.sets .allEffectParams ty _
    · exact keeps_pure _

/-- **Only loading is left to be shown** where both runs have the same store. -/
theorem Loader.Tied.asks : load.Asks load' T where
  toTied := h
  regionArguments := regionArguments_keeps h
  allTypeParams := allTypeParams_keeps h
  allRegionParams := allRegionParams_keeps h
  allEffectParams := allEffectParams_keeps h

end

theorem execute_question_exact (h : load.Asks load' T) (depth : Nat) {command : Command}
    (hasks : command.changes = false) :
    T.Pairs (execute load depth command) (execute load' depth command) := by
  by_cases hdata : ∃ type, command = .data type
  · obtain ⟨type, rfl⟩ := hdata
    have hread : ∀ ty, T.Keeps (do return Answer.data (← typeData ty)) := fun ty =>
      keeps_typeData_exact fun data => keeps_pure _
    exact ((lookupType_keeps type).bind hread).map
  · exact execute_question_keeps h depth hasks fun type heq => hdata ⟨type, heq⟩

theorem execute_keeps_exact (h : load.Keeps load' T) (depth : Nat) (command : Command)
    (hmakes : ∀ s t, command.Makes s t → T.Moves s t)
    (hinstalls : command.installs = true → T.Installs) :
    T.Pairs (execute load depth command) (execute load' depth command) := by
  cases hchanges : command.changes with
  | false => exact execute_question_exact h.toAsks depth hchanges
  | true =>
    refine execute_keeps_of_ne_data h depth command hmakes hinstalls fun type heq => ?_
    rw [heq] at hchanges
    cases hchanges

/-! ### Where a run takes the store -/

/-- The tie that says nothing but where a run takes the store. -/
def Tie.ofMoves (R : Store → Store → Prop) : Tie where
  Moves := R
  Holds _ _ := False
  Ends _ _ := True
  Void _ := False
  Lax := False
  Installs := True

instance {R : Store → Store → Prop} [IsPreorder Store R] : (Tie.ofMoves R).Exact where
  preorder := ‹_›
  void _ := id
  twin := False.elim
  ends := False.elim
  log _ h := h
  change h := h.elim
  owns h := h.elim
  store := False.elim
  remember h := h.elim

instance {R : Store → Store → Prop} [IsPreorder Store R] :
    (Tie.ofMoves R).Begins Outcome.Agrees where
  toLawful := inferInstance
  agrees h := h
  names _ h := h
  stepped _ h := h
  ended _ _ h := h
  began _ h := h

theorem Tie.keeps_ofMoves {R : Store → Store → Prop} {α : Type} {V : α → α → Prop} {action : Run α}
    (h : Along R action) : (Tie.ofMoves R).KeepsBy V action :=
  keepsBy_of h fun _ _ hst => hst.elim

theorem Loader.Follows.keeps {R : Store → Store → Prop} [IsPreorder Store R] (h : load.Follows R) :
    load.Keeps load (Tie.ofMoves R) :=
  ⟨Loader.Tied.asks ⟨fun s t hst => h.change s t hst.routine, fun sym => Tie.keeps_ofMoves (h.load sym)⟩,
    h.change⟩

end RegionTypes

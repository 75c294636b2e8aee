import RegionTypes.Proofs.Store.Dialect
import RegionTypes.Proofs.Store.Evolution
import RegionTypes.Proofs.Store.Refusal

/-!
# What completing a type loads

Completing a type loads the class of a class type.  From other types it goes on: to the elements of an
array, to the parameters, the result and the thrown types of a method, and to the body and the bounds of
the variables of a quantified type.  It looks neither at the enclosing type nor at the arguments of a
class.

* `Store.Reaches` — the classes on this way.
* `Store.Steady` — a later state, in which the way is the same and no completer is new.
* `Dialect.steady` — the commands that lead to such states.
* `Settles` — what holds from then on if a computation succeeds.
* `complete_settles` — **completing a type leaves no completer on the way**.
-/

namespace RegionTypes

open Run

/-- What completing a type looks at: its class, the components and the variables that it goes on to. -/
structure Way where
  symbol : Option SymbolId := none
  onward : List TypeId := []
  vars : List TypeId := []

def TypeData.way (data : TypeData) : Way :=
  match data.kind with
  | .classType _ => { symbol := data.symbol }
  | .array info => { onward := [info.elem] }
  | .method info => { onward := info.params ++ info.result :: info.thrown }
  | .forAll info => { onward := [info.body], vars := info.typeVars }
  | _ => {}

theorem Kind.Precedes.exists_var {a b : Kind} {info : VarInfo} (h : a.Precedes b)
    (hvar : a.var? = some info) : ∃ info', b.var? = some info' ∧ info.Precedes info' := by
  cases h with
  | same => exact ⟨info, hvar, .refl _, rfl, rfl, rfl, rfl⟩
  | typeVar h | captured h =>
    obtain rfl := Option.some.inj hvar
    exact ⟨_, rfl, h⟩
  | _ => cases hvar

theorem Kind.Revised.way {n : Nat} {a b : Kind} (h : a.Revised n b) (data : TypeData) :
    TypeData.way { data with kind := b } = TypeData.way { data with kind := a } := by
  cases h <;> rfl

namespace Store

/-! ### The way through a type -/

def way (s : Store) (ty : TypeId) : Option Way := (s.type? ty).map TypeData.way

variable {s t : Store} {ty v b : TypeId} {data : TypeData} {way : Way}

/-- The classes that completing a type comes to.  A variable whose bound differs from that of its
prototype has no bound to go on to. -/
inductive Reaches (s : Store) : TypeId → SymbolId → Prop
  | symbol {ty : TypeId} {way : Way} {sym : SymbolId} (hway : s.way ty = some way)
      (hsym : way.symbol = some sym) : Reaches s ty sym
  | component {ty c : TypeId} {way : Way} {sym : SymbolId} (hway : s.way ty = some way)
      (hc : c ∈ way.onward) (h : Reaches s c sym) : Reaches s ty sym
  | bound {ty v b : TypeId} {way : Way} {sym : SymbolId} (hway : s.way ty = some way)
      (hv : v ∈ way.vars) (hb : s.BoundOf v b) (hone : ∀ c, s.BoundOf v c → c = b)
      (h : Reaches s b sym) : Reaches s ty sym

/-- No class on the way through a type has a completer. -/
def LoadedThrough (s : Store) (ty : TypeId) : Prop := ∀ sym, s.Reaches ty sym → s.completer? sym = none

/-- A later state in which the way through the types that were there is the same, and every completer
was there already. -/
structure Steady (s t : Store) : Prop where
  precedes : s.Precedes t
  way : ∀ ty way, s.way ty = some way → t.way ty = some way
  completers : ∀ sym completer, t.completer? sym = some completer → s.completer? sym = some completer

instance : IsPreorder Store Steady where
  refl _ := ⟨precedes_of_eq rfl rfl, fun _ _ => id, fun _ _ => id⟩
  trans _ _ _ hst htu := ⟨hst.precedes.trans htu.precedes,
    fun ty way h => htu.way ty way (hst.way ty way h),
    fun sym completer h => hst.completers sym completer (htu.completers sym completer h)⟩

theorem Precedes.exists_var {info : VarInfo} (hst : s.Precedes t) (hdata : s.type? v = some data)
    (hvar : data.kind.var? = some info) :
    ∃ data' info', t.type? v = some data' ∧ data'.kind.var? = some info' ∧ info.Precedes info' := by
  obtain ⟨data', hdata', hkeeps⟩ := hst.types v data hdata
  obtain ⟨info', hvar', hprecedes⟩ := hkeeps.kind.exists_var hvar
  exact ⟨data', info', hdata', hvar', hprecedes⟩

theorem Precedes.boundOf (hst : s.Precedes t) (h : s.BoundOf v b) : t.BoundOf v b := by
  induction h with
  | var hdata hvar hbound =>
    obtain ⟨data', info', hdata', hvar', hprecedes⟩ := hst.exists_var hdata hvar
    exact .var hdata' hvar' (hprecedes.bound _ hbound)
  | prototype hdata hvar howner hownerData hownerVar hbound =>
    obtain ⟨data', info', hdata', hvar', hprecedes⟩ := hst.exists_var hdata hvar
    obtain ⟨_, _, hownerData', hownerVar', hkept⟩ := hst.exists_var hownerData hownerVar
    exact .prototype hdata' hvar' (hprecedes.prototype.trans howner) hownerData' hownerVar'
      (hkept.bound _ hbound)
  | forAll hdata hkind _ ih =>
    obtain ⟨⟨_, _, _, kind⟩, hdata', -, -, -, hkeeps⟩ := hst.types _ _ hdata
    rw [hkind] at hkeeps
    cases hkeeps with
    | same => exact .forAll hdata' rfl ih
  | placeholder hdata hkind _ ih =>
    obtain ⟨⟨_, _, _, kind⟩, hdata', -, -, -, hkeeps⟩ := hst.types _ _ hdata
    rw [hkind] at hkeeps
    cases hkeeps with
    | same => exact .placeholder hdata' rfl ih
    | placeholder h => exact .placeholder hdata' rfl (h.origin ▸ ih)

/-- The class at the beginning of the way is loaded, and all that the way goes on to. -/
def WayLoaded (s : Store) (way : Way) : Prop :=
  (∀ sym, way.symbol = some sym → s.completer? sym = none) ∧ (∀ c ∈ way.onward, s.LoadedThrough c) ∧
    ∀ v ∈ way.vars, ∀ b, (∀ c, s.BoundOf v c → c = b) → s.LoadedThrough b

theorem WayLoaded.loaded (h : s.WayLoaded way) (hway : s.way ty = some way) : s.LoadedThrough ty := by
  obtain ⟨hsymbol, honward, hvars⟩ := h
  intro sym hsym
  cases hsym with
  | symbol hfound hsym =>
    obtain rfl := Option.mem_unique hfound hway
    exact hsymbol sym hsym
  | component hfound hc h =>
    obtain rfl := Option.mem_unique hfound hway
    exact honward _ hc sym h
  | bound hfound hv hb hone h =>
    obtain rfl := Option.mem_unique hfound hway
    exact hvars _ hv _ hone sym h

/-! ### Changes -/

theorem way_pushType (new : TypeData) (hway : s.way ty = some way) :
    (s.pushType new).way ty = some way := by
  obtain ⟨data, hdata, rfl⟩ := Option.map_eq_some_iff.1 hway
  rw [Store.way, type?_pushType_of_some hdata]
  rfl

theorem way_reviseType {a : TypeId} {f : Kind → Kind} (h : ∀ data, s.type? a = some data →
    TypeData.way { data with kind := f data.kind } = data.way) (ty : TypeId) :
    (s.reviseType a f).way ty = s.way ty := by
  rw [Store.way, Store.way, Option.map_eq_bind, Option.map_eq_bind]
  exact bind_type?_reviseType (g := some ∘ TypeData.way)
    (fun data hdata => congrArg some (h data hdata)) ty

theorem way_setBound (s : Store) (bound a ty : TypeId) : (s.setBound bound a).way ty = s.way ty :=
  way_reviseType (fun data _ => by obtain ⟨_, _, _, kind⟩ := data; cases kind <;> rfl) ty

theorem Routine.steady (h : s.Routine t) : s.Steady t := by
  refine ⟨h.evolves.precedes, fun ty way hway => ?_, fun sym completer => h.completer?⟩
  cases h with
  | allocate new => exact way_pushType new hway
  | copy => exact way_pushType _ hway
  | revise a f hrevised =>
    rw [way_reviseType (fun data hdata => (hrevised data hdata).way data), hway]
  | bound => rw [way_setBound, hway]
  | sharedBound => rw [way_setBound, way_setBound, hway]
  | _ => exact hway

end Store

/-- Whether a command neither installs a completer nor replaces what a method throws. -/
def Command.isSteady : Command → Bool
  | .setCompleter .. | .setThrown .. => false
  | _ => true

/-- The commands that do neither. -/
def Dialect.steady : Dialect where
  Allows command := command.isSteady
  script _ _ _ _ h := nomatch h

theorem Command.Makes.steady {command : Command} (h : command.isSteady) {s t : Store}
    (hst : command.Makes s t) : s.Steady t := by
  cases hst with
  | install | thrown => cases h
  | prototyped =>
    exact ⟨s.precedes_pushType _, fun _ _ => Store.way_pushType _, fun _ _ => id⟩

/-! ### Completing -/

section Completing

variable {α : Type} {action : Run (Except CompletionError Unit)} {r : Store} {post post' : Store → Prop}
  {next : Except CompletionError Unit → Run (Except CompletionError Unit)}

/-- If the computation succeeds in a state that the store `r` has led to, then the condition holds from
then on. -/
def Settles (r : Store) (action : Run (Except CompletionError Unit)) (post : Store → Prop) : Prop :=
  ∀ s t, s.store.LoadsIn .steady → r.Steady s.store → action s = .ok (.ok ()) t →
    t.store.LoadsIn .steady ∧ s.store.Steady t.store ∧ ∀ u, t.store.Steady u → post u

theorem settles_pure (h : ∀ u, post u) : Settles r (pure (.ok ())) post := by
  intro s t hs _ hrun
  obtain ⟨-, rfl⟩ := EStateM.Result.ok.inj hrun
  exact ⟨hs, refl_of Store.Steady _, fun u _ => h u⟩

theorem Settles.imp (h : Settles r action post) (hpost : ∀ u, post u → post' u) :
    Settles r action post' := by
  intro s t hs hrs hrun
  obtain ⟨ht, hsteady, hu⟩ := h s t hs hrs hrun
  exact ⟨ht, hsteady, fun u htu => hpost u (hu u htu)⟩

/-- **Sequencing.** -/
theorem Settles.bind (h : Settles r action post) (herror : ∀ e, next (.error e) = pure (.error e))
    (hnext : Settles r (next (.ok ())) post') :
    Settles r (action >>= next) fun u => post u ∧ post' u := by
  intro s t hs hrs hrun
  obtain ⟨result, s₁, haction, hrun⟩ := exists_of_bind hrun
  cases result with
  | error =>
    rw [herror] at hrun
    cases hrun
  | ok =>
    obtain ⟨hs₁, hsteady, hpost⟩ := h s s₁ hs hrs haction
    obtain ⟨ht, hsteady', hpost'⟩ := hnext s₁ t hs₁ (trans_of Store.Steady hrs hsteady) hrun
    exact ⟨ht, trans_of Store.Steady hsteady hsteady', fun u htu =>
      ⟨hpost u (trans_of Store.Steady hsteady' htu), hpost' u htu⟩⟩

theorem forEach_settles {f : α → Run (Except CompletionError Unit)} {post : α → Store → Prop}
    (h : ∀ a, Settles r (f a) (post a)) (l : List α) :
    Settles r (forEach f l) fun u => ∀ a ∈ l, post a u := by
  induction l with
  | nil => exact settles_pure fun _ => List.forall_mem_nil _
  | cons a rest ih =>
    have hall : Settles r (forEach f (a :: rest)) fun u => post a u ∧ ∀ a ∈ rest, post a u :=
      (h a).bind (fun _ => rfl) ih
    simpa only [List.forall_mem_cons] using hall

theorem completerLoader_settles (n : Nat) (sym : SymbolId) :
    Settles r (completerLoader n sym) (·.completer? sym = none) := by
  intro s t hs _ hrun
  have hperform : ∀ command, Dialect.steady.Allows command →
      Along (Dialect.steady.Along Store.Steady) (perform n command) :=
    Dialect.perform_along (fun _ _ h => h.steady) (fun _ h _ _ hst => hst.steady h) n
  obtain ⟨u, hsu, hnone, hut⟩ :=
    Dialect.completerLoader_detaches (fun _ _ h => h.routine.steady) hperform hs sym
  rw [after_of_ok hrun] at hut
  obtain ⟨hu, hsu⟩ := hsu hs
  obtain ⟨ht, hut⟩ := hut hu
  refine ⟨ht, trans_of Store.Steady hsu hut, fun v htv => ?_⟩
  refine Option.eq_none_iff_forall_ne_some.2 fun completer hsome => ?_
  have hold := (trans_of Store.Steady hut htv).completers sym completer hsome
  cases hnone.symm.trans hold

variable {load : Loader} {depth : Nat} {ty : TypeId}

theorem bound_settles (h : ∀ ty, Settles r (complete load depth ty) (·.LoadedThrough ty)) (v : TypeId) :
    Settles r (do complete load depth (← typeVarBound load (depth + 1) v)) fun u =>
      ∀ b, (∀ c, u.BoundOf v c → c = b) → u.LoadedThrough b := by
  intro s t hs hrs hrun
  obtain ⟨bound, s₁, hread, hrun⟩ := exists_of_bind hrun
  obtain ⟨found, s₂, hupper, hread⟩ := exists_of_bind hread
  obtain ⟨hstore, hbound⟩ := upperBound_leaves (r := s.store) (depth + 1) v s rfl
  rw [after_of_ok hupper] at hstore
  cases found with
  | none =>
    obtain ⟨options, s₃, -, hread⟩ := exists_of_bind hread
    exact absurd hread violation_ne_ok
  | some found =>
    obtain ⟨rfl, rfl⟩ := EStateM.Result.ok.inj hread
    obtain ⟨ht, hsteady, hpost⟩ := h found s₂ t (hstore.symm ▸ hs) (hstore.symm ▸ hrs) hrun
    rw [hstore] at hsteady
    refine ⟨ht, hsteady, fun u htu b hone => ?_⟩
    have hkept := (trans_of Store.Steady hsteady htu).precedes.boundOf (hbound _ _ hupper _ rfl)
    exact hone _ hkept ▸ hpost u htu

/-- Completing what a method throws, which is read after the rest of the method was completed. -/
theorem thrown_settles {data : TypeData} {info : MethodInfo} (hdata : r.type? ty = some data)
    (hkind : data.kind = .method info)
    (h : ∀ ty, Settles r (complete load depth ty) (·.LoadedThrough ty)) :
    Settles r (do forEach (complete load depth) (← thrownTypes 1 ty)) fun u =>
      ∀ c ∈ info.thrown, u.LoadedThrough c := by
  intro s t hs hrs hrun
  obtain ⟨later, hlater, hkeeps⟩ := hrs.precedes.types ty data hdata
  obtain ⟨info', hkind', hparams, hresult⟩ := Kind.Precedes.of_method (hkind ▸ hkeeps.kind)
  have hthrown : info'.thrown = info.thrown := by
    have hway := hrs.way ty data.way (by rw [Store.way, hdata]; rfl)
    simpa [Store.way, hlater, TypeData.way, hkind, hkind', hparams, hresult] using hway
  have hread : thrownTypes 1 ty s = .ok info.thrown s := by
    rw [thrownTypes, followed, bind_run (kindOf_run hlater), hkind', ← hthrown]
    rfl
  rw [bind_run hread] at hrun
  exact forEach_settles h info.thrown s t hs hrs hrun

/-- **Completing a type leaves no completer on the way.** -/
theorem complete_settles (n depth : Nat) (r : Store) (ty : TypeId) :
    Settles r (complete (completerLoader n) depth ty) (·.LoadedThrough ty) := by
  induction depth generalizing r ty with
  | zero =>
    intro _ _ _ _ hrun
    cases hrun
  | succ depth ih =>
    intro s t hs _ hrun
    obtain ⟨data, s₁, hread, hbody⟩ := exists_of_bind hrun
    obtain ⟨rfl, hdata⟩ := eq_of_typeData hread
    replace ih := ih s₁.store
    suffices h : Settles s₁.store _ (·.WayLoaded data.way) by
      obtain ⟨ht, hsteady, hparts⟩ := h s₁ t hs (refl_of Store.Steady _) hbody
      have hway : s₁.store.way ty = some data.way := by rw [Store.way, hdata]; rfl
      exact ⟨ht, hsteady, fun u htu => (hparts u htu).loaded (htu.way _ _ (hsteady.way _ _ hway))⟩
    simp only [Store.WayLoaded, TypeData.way]
    cases hkind : data.kind with
    | classType =>
      cases hsymbol : data.symbol with
      | none => exact settles_pure (by simp)
      | some sym => simpa using completerLoader_settles n sym
    | array info => simpa using ih info.elem
    | method info =>
      refine .imp (.bind (forEach_settles ih info.params) (fun _ => by rfl) (.bind (ih info.result)
        (fun _ => by rfl) (thrown_settles hdata hkind ih))) fun u hparts => ?_
      simpa [or_imp, forall_and] using hparts
    | forAll info =>
      refine .imp (.bind (forEach_settles (bound_settles ih) info.typeVars) (fun _ => by rfl)
        (ih info.body)) fun u hparts => ?_
      simpa using hparts.symm
    | _ => exact settles_pure (by simp)

end Completing

/-- **After a type was completed, every class on the way through it is loaded**, if the completers in
the store neither install completers nor replace what methods throw. -/
theorem complete_loads {n depth : Nat} {s t : Session} {ty : TypeId}
    (hloads : s.store.LoadsIn .steady) (hrun : complete (completerLoader n) depth ty s = .ok (.ok ()) t)
    {sym : SymbolId} (hsym : t.store.Reaches ty sym) : t.store.completer? sym = none := by
  have hrefl := refl_of Store.Steady
  obtain ⟨-, -, hloaded⟩ := complete_settles n depth s.store ty s t hloads (hrefl _) hrun
  exact hloaded t.store (hrefl _) sym hsym

/-- Two classes that are not loaded, and the type of methods `int m(C[]) throws D`. -/
def pendingMethod : Session :=
  .afterCommands
    [.declareClass "C" none .none none, .declareClass "D" none .none none,
      .setCompleter (.handle ⟨11⟩) [(none, .declareClass "E" none .none none)] true none,
      .setCompleter (.handle ⟨12⟩) [] true none, .arrayType (.handle ⟨12⟩) none none,
      .methodType [.handle ⟨14⟩] (.handle WellKnown.int) [.handle ⟨13⟩]]

/-- Both classes are loaded with the type. -/
theorem complete_loads_method :
    let t := (complete (completerLoader 9) 9 ⟨15⟩).after pendingMethod
    ∀ sym ∈ [⟨11⟩, ⟨12⟩], (pendingMethod.store.completer? sym).isSome ∧
      t.store.Reaches ⟨15⟩ sym ∧ t.store.completer? sym = none := by
  intro t
  have hscripts : ∀ y ∈ pendingMethod.store.symbols, ∀ completer ∈ y.completer,
      ∀ step ∈ completer.script, step.2.isSteady := by decide +kernel
  have hrun : complete (completerLoader 9) 9 ⟨15⟩ pendingMethod = .ok (.ok ()) t := rfl
  have hpending : ∀ sym ∈ [⟨11⟩, ⟨12⟩], (pendingMethod.store.completer? sym).isSome := by
    decide +kernel
  have hparam : t.store.Reaches ⟨15⟩ ⟨11⟩ :=
    .component (c := ⟨14⟩) rfl (by decide) (.component (c := ⟨12⟩) rfl (by decide) (.symbol rfl rfl))
  have hthrown : t.store.Reaches ⟨15⟩ ⟨12⟩ :=
    .component (c := ⟨13⟩) rfl (by decide) (.symbol rfl rfl)
  have hreaches : ∀ sym ∈ [⟨11⟩, ⟨12⟩], t.store.Reaches ⟨15⟩ sym :=
    List.forall_mem_cons.2 ⟨hparam, List.forall_mem_singleton.2 hthrown⟩
  exact fun sym hsym => ⟨hpending sym hsym, hreaches sym hsym,
    complete_loads (fun _ y completer hy => hscripts y (Array.mem_of_getElem? hy) completer) hrun
      (hreaches sym hsym)⟩

/-- Completing `List<C>` leaves `C` as it is. -/
theorem complete_skips_arguments :
    let s := Session.afterCommands
      [.declareClass "List" none .none none, .declareClass "C" none .none none,
        .setCompleter (.handle ⟨12⟩) [] true none,
        .classType (.handle ⟨11⟩) none [.handle ⟨13⟩] [] [] none false]
    (s.store.type? ⟨14⟩).map (·.kind.components) = some [WellKnown.missing, ⟨13⟩] ∧
      (s.store.type? ⟨13⟩).bind TypeData.symbol = some ⟨12⟩ ∧
      ∃ t, complete (completerLoader 9) 9 ⟨14⟩ s = .ok (.ok ()) t ∧ (t.store.completer? ⟨12⟩).isSome := by
  refine ⟨rfl, rfl, _, rfl, rfl⟩

end RegionTypes

import RegionTypes.Proofs.Store.Dialogue

/-!
# Questions, texts and mappings in both runs

Whatever is asked, rendered or mapped takes the same course in two runs that are tied, as long as
loading and the questions that look at derived lists do.  The two runs need not have the same loader.

* `Loader.Tied`, `Loader.Asks`, `Loader.Keeps` — what is assumed of the loader, of the four questions
  with derived lists, and of other changes.
* `declaredList_keeps` — **a list that loading supplies**; it is settled in both runs or in none.
* `typeArguments_keeps`, `contains_keeps`, ... — the other questions.
* `render_keeps` — texts, which ask questions.
* `mapType_keeps` — **any mapping that keeps the tie**; `substitute_keeps`, `apply_keeps`.
-/

namespace RegionTypes

open Run Tie

/-- The tie allows that lists are set, and loading keeps it. -/
structure Loader.Tied (first second : Loader) (T : Tie) : Prop where
  sets : ∀ s t, Store.SetsList s t → T.Moves s t
  load : ∀ sym, T.Pairs (first sym) (second sym)

/-- The questions that look at derived lists keep the tie too. -/
structure Loader.Asks (first second : Loader) (T : Tie) : Prop extends first.Tied second T where
  regionArguments : ∀ depth ty,
    T.Pairs (regionArguments first depth ty) (regionArguments second depth ty)
  allTypeParams : ∀ depth ty, T.Pairs (allTypeParams first depth ty) (allTypeParams second depth ty)
  allRegionParams : ∀ depth ty,
    T.Pairs (allRegionParams first depth ty) (allRegionParams second depth ty)
  allEffectParams : ∀ depth ty,
    T.Pairs (allEffectParams first depth ty) (allEffectParams second depth ty)

/-- The tie allows every routine change. -/
structure Loader.Keeps (first second : Loader) (T : Tie) : Prop extends first.Asks second T where
  routine : ∀ s t, Store.Routine s t → T.Moves s t

variable {T : Tie} {load load' : Loader} {s : Session} {β : Type} {slot : Slot β} {ty : TypeId}

/-! ### Slots -/

theorem Slot.Declared.read_of_plain_eq (h : slot.Declared) {k k' : Kind} (hk : k'.plain = k.plain) :
    k'.class?.bind slot.read = k.class?.bind slot.read := by
  rcases Kind.plain_eq_cases hk with rfl | ⟨info, info', rfl, rfl, hinfo⟩
  · rfl
  · show slot.read info' = slot.read info
    rw [← h.read_plain, hinfo, h.read_plain]

theorem Slot.current_ne_ok (h : s.store.type? ty = none) (held : Option (List β)) (s' : Session) :
    slot.current ty s ≠ .ok held s' := by
  intro hrun
  obtain ⟨kind, t, hkind, _⟩ := exists_of_bind hrun
  obtain ⟨_, data, hdata, _⟩ := eq_of_kindOf hkind
  rw [h] at hdata
  cases hdata

/-- What remains to be done for a declared list after loading. -/
def settleList (slot : Slot β) (ty : TypeId) (symbol : Option SymbolId) : Run (List β) := do
  match ← slot.current ty with
  | some list => return list
  | none =>
    if ← isCompleting symbol then return []
    else
      slot.fill ty []
      return []

variable [T.Lawful]

theorem Slot.Declared.current_keeps (h : slot.Declared) (ty : TypeId) : T.Keeps (slot.current ty) := by
  refine keeps_kindOf (fun info => ?_) fun kind => ?_
  · show pure (slot.read info) = pure (slot.read info.plain)
    rw [h.read_plain]
  · split
    · exact keeps_pure _
    · exact keeps_pure _

/-! ### Loading and the lists of a class -/

theorem completeLazily_keeps (h : load.Tied load' T) (symbol : Option SymbolId) :
    T.Pairs (completeLazily load symbol) (completeLazily load' symbol) := by
  cases symbol with
  | none => exact keeps_pure ()
  | some sym =>
    refine (h.load sym).bind fun result => ?_
    cases result with
    | ok => exact keeps_pure ()
    | error => exact log_keeps _ _ _

theorem Slot.Declared.local_current {α : Type} {k k' : Option (List β) → Run α} (h : slot.Declared)
    (hk : ∀ data, s.store.type? ty = some data →
      T.Local s (k (data.kind.class?.bind slot.read)) (k' (data.kind.class?.bind slot.read))) :
    T.Local s (slot.current ty >>= k) (slot.current ty >>= k') := by
  cases hdata : s.store.type? ty with
  | none =>
    exact local_of_stop ((h.current_keeps ty).bind fun _ => keeps_tooDeep)
      fun t hst => Slot.current_ne_ok (hst.store.type?_eq_none hdata)
  | some data =>
    have hread : ∀ t : Session, s.Twin t →
        slot.current ty t = .ok (data.kind.class?.bind slot.read) t := by
      intro t hst
      obtain ⟨data', hdata', hplain⟩ := hst.store.exists_type? hdata
      rw [Slot.current_bind_read hdata', h.read_of_plain_eq (congrArg TypeData.kind hplain)]
    exact .congr (fun t hst => ⟨bind_run (hread t hst), bind_run (hread t hst)⟩) (hk data hdata)

theorem local_isCompleting {α : Type} {symbol : Option SymbolId} {k k' : Bool → Run α}
    (hk : ∀ b, (∀ sym y, symbol = some sym → s.store.symbol? sym = some y → y.completing = b) →
      T.Local s (k b) (k' b)) :
    T.Local s (isCompleting symbol >>= k) (isCompleting symbol >>= k') := by
  cases symbol with
  | none => exact hk false (by rintro _ _ ⟨⟩)
  | some sym =>
    unfold isCompleting
    simp only [bind_assoc]
    refine local_symbolData fun y hy => hk y.completing ?_
    rintro _ y' ⟨⟩ hy'
    rw [Option.mem_unique hy hy']

/-- A list that is unset and whose class is not being loaded is settled in both runs. -/
theorem settleList_keeps (h : ∀ s t, Store.SetsList s t → T.Moves s t) (hslot : slot.Declared)
    (ty : TypeId) (symbol : Option SymbolId) :
    (T.owning ty symbol).Keeps (settleList slot ty symbol) := by
  refine pairs_of_local fun s => hslot.local_current fun data hdata => ?_
  cases hheld : data.kind.class?.bind slot.read with
  | some list => exact (keeps_pure list).here
  | none =>
    refine local_isCompleting fun completing hidle => ?_
    cases completing with
    | true => exact (keeps_pure []).here
    | false =>
      cases hclass : data.kind.class? with
      | none =>
        refine .other _ _ (keeps_pure []) fun t hst => and_self_iff.2 ?_
        show EStateM.Result.ok [] { t with store := t.store.setList slot ty [] } = _
        rw [hst.store.setList_eq_self hdata hclass]
        rfl
      | some info =>
        have hkind := Kind.class?_eq_some.1 hclass
        have hunset : slot.read info = none := by rwa [hclass] at hheld
        refine .change (·.setList slot ty []) [] (fun t hst => ?_)
          (h _ _ (.settle slot ty data info hslot hdata hkind hunset)) fun _ _ => ⟨rfl, rfl⟩
        obtain ⟨_, data', hdata', hsymbol⟩ := hst
        obtain rfl : data = data' := Option.mem_unique hdata hdata'
        refine .settle slot ty data info hslot hdata hkind hunset fun sym y hsym hy => ?_
        exact hidle sym y (hsymbol.symm.trans hsym) hy

theorem declaredList_keeps (h : load.Tied load' T) (hslot : slot.Declared) (ty : TypeId)
    (symbol : Option SymbolId) : (T.owning ty symbol).Pairs (declaredList load slot ty symbol)
      (declaredList load' slot ty symbol) := by
  refine (hslot.current_keeps ty).bind fun held => ?_
  cases held with
  | some list => exact keeps_pure list
  | none =>
    exact (completeLazily_keeps h symbol).owning.bind fun _ =>
      settleList_keeps h.sets hslot ty symbol

/-! ### Arguments and components -/

section

variable (h : load.Tied load' T) (depth : Nat) (ty : TypeId)

include h

theorem declaredArguments_keeps (hslot : slot.Declared) (vars : ForAllInfo → List β) :
    T.Pairs (declaredArguments load slot vars depth ty)
      (declaredArguments load' slot vars depth ty) := by
  induction depth generalizing ty with
  | zero => exact keeps_tooDeep
  | succ depth ih =>
    refine keeps_typeData_owning (fun _ _ _ _ => rfl) fun data => ?_
    split
    · exact declaredList_keeps h hslot ty data.symbol
    · exact keeps_pure _
    · exact (ih _).owning
    · exact keeps_pure _

theorem typeArguments_keeps : T.Pairs (typeArguments load depth ty) (typeArguments load' depth ty) :=
  declaredArguments_keeps h depth ty .typeArgs _

theorem effectArguments_keeps :
    T.Pairs (effectArguments load depth ty) (effectArguments load' depth ty) :=
  declaredArguments_keeps h depth ty .effectArgs _

theorem suppliedPart_keeps {read : ClassInfo → Option β} (hread : ∀ info, read info.plain = read info) :
    T.Pairs (suppliedPart load read ty) (suppliedPart load' read ty) := by
  have hlast : T.Keeps (do return (← kindOf ty).class?.bind read) :=
    keeps_of_kind ty (fun info => by simp [Kind.class?, hread]) fun _ => ⟨_, rfl⟩
  refine keeps_typeData (fun _ _ _ info => by simp only [hread]) fun data => ?_
  split
  · split
    · exact (completeLazily_keeps h data.symbol).bind fun _ => hlast
    · exact hlast
  · exact keeps_pure _

end

theorem supertype_keeps (h : load.Asks load' T) (ty : TypeId) :
    T.Pairs (supertype load ty) (supertype load' ty) :=
  suppliedPart_keeps h.toTied ty fun _ => rfl

theorem interfaces_keeps (h : load.Asks load' T) (ty : TypeId) :
    T.Pairs (interfaces load ty) (interfaces load' ty) :=
  (suppliedPart_keeps h.toTied ty fun _ => rfl).map

/-! ### Structural questions -/

section

variable (h : load.Asks load' T) (depth : Nat) (ty : TypeId)

include h

theorem isErroneous_keeps : T.Pairs (isErroneous load depth ty) (isErroneous load' depth ty) := by
  induction depth generalizing ty with
  | zero => exact keeps_tooDeep
  | succ depth ih =>
    refine keeps_typeData_owning (fun _ _ _ _ => rfl) fun data => ?_
    cases data.kind with
    | classType info =>
      refine (ih info.outer).owning.bind fun bad => ?_
      split
      · exact keeps_pure _
      · refine (declaredList_keeps h.toTied .typeArgs ty data.symbol).bind fun args => ?_
        refine (Pairs.anyM ih args).owning.bind fun bad => ?_
        split
        · exact keeps_pure _
        · refine (canonicalType_keeps data.symbol).bind fun canonical => ?_
          split
          · exact keeps_pure _
          · split
            · exact keeps_pure _
            · exact (ih _).owning
    | array info => exact (ih info.elem).owning
    | method info =>
      refine (Pairs.anyM ih info.params).owning.bind fun bad => ?_
      split
      · exact keeps_pure _
      · exact (ih info.result).owning
    | forAll info => exact (ih info.body).owning
    | placeholder info => exact (ih info.origin).owning
    | _ => exact keeps_pure _

theorem isParameterized_keeps :
    T.Pairs (isParameterized load depth ty) (isParameterized load' depth ty) := by
  induction depth generalizing ty with
  | zero => exact keeps_tooDeep
  | succ depth ih =>
    refine keeps_kindOf (fun _ => rfl) fun kind => ?_
    split
    · exact (h.allTypeParams (depth + 1) ty).map
    · exact ih _
    · exact keeps_pure _

theorem hasRegionParams_keeps :
    T.Pairs (hasRegionParams load depth ty) (hasRegionParams load' depth ty) := by
  refine keeps_kindOf (fun _ => rfl) fun kind => ?_
  split
  · exact (h.allRegionParams depth ty).map
  · exact keeps_pure _

theorem hasEffectParams_keeps :
    T.Pairs (hasEffectParams load depth ty) (hasEffectParams load' depth ty) := by
  refine keeps_kindOf (fun _ => rfl) fun kind => ?_
  split
  · exact (h.allEffectParams depth ty).map
  · exact keeps_pure _

theorem isRaw_keeps : T.Pairs (isRaw load depth ty) (isRaw load' depth ty) := by
  induction depth generalizing ty with
  | zero => exact keeps_tooDeep
  | succ depth ih =>
    refine keeps_typeData (fun _ _ _ _ => rfl) fun data => ?_
    split
    · refine (canonicalType_keeps data.symbol).bind fun canonical => ?_
      split
      · exact keeps_pure _
      · split
        · exact keeps_pure _
        · refine (h.allTypeParams (depth + 1) _).bind fun params => ?_
          split
          · exact keeps_pure _
          · exact (h.allTypeParams (depth + 1) ty).map
    · exact ih _
    · exact keeps_pure _

theorem symbolFlags_keeps (sym : SymbolId) :
    T.Pairs (symbolFlags load sym) (symbolFlags load' sym) :=
  (completeLazily_keeps h.toTied (some sym)).bind fun _ => (symbolData_keeps sym).map

theorem isInterface_keeps : T.Pairs (isInterface load ty) (isInterface load' ty) := by
  refine keeps_typeData (fun symbol _ _ _ => by cases symbol <;> rfl) fun data => ?_
  split
  · exact keeps_pure _
  · exact keeps_pure _
  · exact (symbolFlags_keeps h _).map

theorem contains_keeps (elem : TypeId) :
    T.Pairs (contains load depth ty elem) (contains load' depth ty elem) := by
  induction depth generalizing ty with
  | zero => exact keeps_tooDeep
  | succ depth ih =>
    unfold contains
    split
    · exact keeps_pure _
    · refine keeps_typeData_owning (fun _ _ _ _ => rfl) fun data => ?_
      cases data.kind with
      | classType info =>
        refine (isParameterized_keeps h (depth + 1) ty).owning.bind fun parameterized => ?_
        split
        · refine (ih info.outer).owning.bind fun found => ?_
          split
          · exact keeps_pure _
          · exact (declaredList_keeps h.toTied .typeArgs ty data.symbol).bind fun args =>
              (Pairs.anyM ih args).owning
        · exact keeps_pure _
      | array info => exact (ih info.elem).owning
      | method info =>
        refine (Pairs.anyM ih info.params).owning.bind fun found => ?_
        split
        · exact keeps_pure _
        · exact (ih info.result).owning
      | forAll info => exact (ih info.body).owning
      | _ => exact keeps_pure _

theorem collectFree_keeps (bound found : List TypeId)
    (ty : TypeId) : T.Pairs (collectFree load depth bound found ty)
      (collectFree load' depth bound found ty) := by
  induction depth generalizing bound found ty with
  | zero => exact keeps_tooDeep
  | succ depth ih =>
    have hall : ∀ types found : List TypeId,
        T.Pairs (types.foldlM (collectFree load depth bound) found)
          (types.foldlM (collectFree load' depth bound) found) :=
      fun types => Pairs.foldlM (ih bound) types
    refine keeps_kindOf (fun _ => rfl) fun kind => ?_
    cases kind with
    | classType info =>
      exact (ih bound found info.outer).bind fun found =>
        (typeArguments_keeps h.toTied (depth + 1) ty).bind fun args => hall args found
    | wildcard info => exact ih bound found info.bound
    | array info => exact ih bound found info.elem
    | method info =>
      exact (hall info.params found).bind fun found => (ih bound found info.result).bind fun found =>
        (thrownTypes_keeps (depth + 1) ty).bind fun thrown => hall thrown found
    | forAll info => exact ih _ found info.body
    | _ => exact keeps_pure _

/-! ### Rendering -/

theorem Question.ask_keeps {γ : Type} (question : Question γ) :
    T.Pairs (question.ask load) (question.ask load') := by
  cases question with
  | read lookup => exact lookup.keeps
  | tooDeep => exact keeps_tooDeep
  | supertype ty => exact supertype_keeps h ty
  | interfaces ty => exact interfaces_keeps h ty
  | typeArguments depth ty => exact typeArguments_keeps h.toTied depth ty
  | regionArguments depth ty => exact h.regionArguments depth ty
  | effectArguments depth ty => exact effectArguments_keeps h.toTied depth ty

theorem Dialogue.run_keeps {α : Type} (d : Dialogue α) : T.Pairs (d.run load) (d.run load') := by
  induction d with
  | done a => exact keeps_pure a
  | ask question next ih => exact (question.ask_keeps h).bind ih

theorem render_keeps (options : DisplayOptions) (ty : TypeId) :
    T.Pairs (render load depth options ty) (render load' depth options ty) := by
  rw [← Dialogue.run_text, ← Dialogue.run_text]
  exact Dialogue.run_keeps h _

theorem display_keeps : T.Pairs (display load depth ty) (display load' depth ty) :=
  storeOptions_keeps.bind fun options => render_keeps h depth options ty

theorem violationAt_keeps {α : Type} (before : String)
    (ty : TypeId) (after : String) : T.Pairs (violationAt load depth before ty after : Run α)
      (violationAt load' depth before ty after) :=
  storeOptions_keeps.bind fun options => (render_keeps h depth options ty).map.violation

theorem renderList_keeps (types : List TypeId) :
    T.Pairs (renderList load depth types) (renderList load' depth types) :=
  (Pairs.mapM (display_keeps h depth) types).map

theorem renderArgTypes_keeps (varargs : Bool) :
    T.Pairs (renderArgTypes load depth ty varargs) (renderArgTypes load' depth ty varargs) := by
  refine (parameterTypes_keeps depth ty).bind fun params => ?_
  split
  · exact renderList_keeps h depth params
  · split
    · refine (Pairs.mapM (display_keeps h depth) _).bind fun texts => Joins.map ?_
      refine keeps_kindOf (fun _ => rfl) fun kind => ?_
      split
      · exact (display_keeps h depth _).map
      · exact display_keeps h depth _
    · exact renderList_keeps h depth params

end

/-! ### Mappings -/

section Mappings

variable {σ : Type} {f f' : Mapping σ}

theorem mapEach_keeps (hf : ∀ ty, T.PairsState (f ty) (f' ty)) (types : List TypeId) :
    T.PairsState (mapEach f types) (mapEach f' types) := by
  induction types with
  | nil => exact keepsState_pure []
  | cons ty rest ih =>
    exact ih.bind fun images => (hf ty).bind fun image => keepsState_pure (image :: images)

theorem mapList_keeps (hf : ∀ ty, T.PairsState (f ty) (f' ty)) (types : List TypeId) :
    T.PairsState (mapList f types) (mapList f' types) := by
  rw [mapList_eq, mapList_eq]
  exact (mapEach_keeps hf types).bind fun images => keepsState_pure (images, images != types)

end Mappings

section

variable (h : load.Keeps load' T)

include h

theorem Loader.Keeps.pushType {data : TypeData} (hplain : data.plain = data)
    (hnew : data.kind.IsNew) : T.Keeps (pushType data) :=
  pushType_keeps hplain fun _ => h.routine _ _ (.allocate data hnew)

theorem rebuildClass_keeps (ty : TypeId) (data : TypeData) (outer : TypeId)
    (args : List TypeId) : T.Keeps (rebuildClass ty data outer args) := by
  refine keeps_kindOf (fun _ => rfl) fun kind => ?_
  cases kind.class? with
  | none | some => exact h.pushType rfl rfl

theorem quantify_keeps (info : ForAllInfo) : T.Keeps (quantify info) :=
  keeps_typeData (fun _ _ _ _ => rfl) fun _ => h.pushType rfl trivial

theorem mapType_keeps {σ : Type} {f f' : Mapping σ}
    (hf : ∀ ty, T.PairsState (f ty) (f' ty)) (depth : Nat) (ty : TypeId) :
    T.PairsState (mapType load depth f ty) (mapType load' depth f' ty) := by
  refine pairsState_typeData (fun _ _ _ _ => rfl) fun data => ?_
  cases data.kind with
  | classType info =>
    refine (typeArguments_keeps h.toTied depth ty).lift.bind fun args => ?_
    refine (hf info.outer).bind fun outer => (mapList_keeps hf args).bind fun ⟨images, changed⟩ => ?_
    show T.PairsState (if _ then _ else _) (if _ then _ else _)
    split
    · exact keepsState_pure ty
    · exact (rebuildClass_keeps h ty data outer images).lift
  | array info =>
    refine (hf info.elem).bind fun elem => ?_
    split
    · exact keepsState_pure ty
    · have hpush : T.Keeps (pushType { symbol := none, kind := .array ⟨elem, Path.root, none⟩ }) :=
        h.pushType rfl trivial
      exact hpush.lift
  | method info =>
    refine (mapList_keeps hf info.params).bind fun ⟨params, paramsChanged⟩ => ?_
    refine (hf info.result).bind fun result => ?_
    refine (thrownTypes_keeps 1 ty).lift.bind fun thrown => ?_
    refine (mapList_keeps hf thrown).bind fun ⟨images, thrownChanged⟩ => ?_
    show T.PairsState (if _ then _ else _) (if _ then _ else _)
    split
    · exact keepsState_pure ty
    · exact Joins.lift (keeps_kindOf (fun _ => rfl) fun _ => h.pushType rfl trivial)
  | forAll info =>
    refine (hf info.body).bind fun body => ?_
    split
    · exact keepsState_pure ty
    · exact (quantify_keeps h _).lift
  | wildcard info =>
    refine (hf info.bound).bind fun bound => ?_
    split
    · exact keepsState_pure ty
    · exact Joins.lift ((wildcard?_reads ty).keeps.bind fun _ => h.pushType rfl trivial)
  | _ => exact keepsState_pure ty

theorem substitute_keeps (depth : Nat) (s : Substitution) (ty : TypeId) :
    T.Pairs (substitute load depth s ty) (substitute load' depth s ty) := by
  induction depth generalizing s ty with
  | zero => exact keeps_tooDeep
  | succ depth ih =>
    have hmap : ∀ s : Substitution, T.Pairs
        ((mapType load (depth + 1) (stateless (substitute load depth s)) ty).run' ())
        ((mapType load' (depth + 1) (stateless (substitute load' depth s)) ty).run' ()) :=
      fun s => (mapType_keeps h (fun ty => (ih s ty).lift) (depth + 1) ty).run' ()
    unfold substitute
    split
    · exact keeps_pure ty
    · refine keeps_kindOf (fun _ => rfl) fun kind => ?_
      cases kind with
      | typeVar | captured => exact s.replacement_keeps ty
      | forAll info =>
        refine (s.without_keeps info.typeVars).bind fun inner => ?_
        split
        · exact keeps_pure ty
        · exact hmap inner
      | _ => exact hmap s

theorem substituteList_keeps (depth : Nat) (s : Substitution) (types : List TypeId) :
    T.Pairs (substituteList load depth s types) (substituteList load' depth s types) :=
  (mapList_keeps (fun ty => (substitute_keeps h depth s ty).lift) types).run' ()

theorem apply_keeps (table : Table) (depth : Nat) (ty : TypeId) :
    T.PairsState (table.apply load depth ty) (table.apply load' depth ty) := by
  induction depth generalizing ty with
  | zero => exact keeps_tooDeep.lift
  | succ depth ih =>
    refine PairsState.bind (fun _ => keeps_pure _) fun _ => ?_
    split
    · exact keepsState_pure _
    · split
      · exact mapType_keeps h ih (depth + 1) ty
      · exact keepsState_pure ty

end

end RegionTypes

import RegionTypes.Proofs.Lockstep.Tie

/-!
# What is read in both runs

The operations that load nothing and write nothing.  None of them looks at a derived list, so they
find the same in stores that are twins.  Most of those that are part of a text look at nothing that
loading supplies, so they find the same at a later time too.

* `Store.skeleton` — what is left of a store without what loading supplies.
* `Run.Reads` — **a computation that finds the same in all stores with one skeleton.**
* `followed_reads` — questions that follow one part of a type after another.
* `Tie.keeps_of_kind` — questions about the kind of a type.
* `enclosingType_keeps`, `upperBound_keeps`, ... — the components of types.
* `typesEqual_keeps`, `keyReport_keeps` — structural equality.
* `qualifiedName_reads`, `dimensions_reads`, ... — the parts of rendering that load nothing.
* `lookupTypes_keeps`, ... — the names that commands use.
-/

namespace RegionTypes

open Run Tie

/-! ### What loading leaves alone -/

/-- The record of a type up to what loading its class supplies. -/
def TypeData.frame (data : TypeData) : TypeData :=
  { data with kind := data.kind.mapClass fun info => { outer := info.outer } }

/-- The store up to what loading supplies. -/
def Store.skeleton (s : Store) : Array TypeData × Array Symbol :=
  (s.types.map TypeData.frame, s.symbols.map Symbol.face)

namespace Store

variable {s t : Store}

theorem exists_of_skeleton (h : t.skeleton = s.skeleton) {ty : TypeId} {data : TypeData}
    (hdata : s.type? ty = some data) : ∃ data', t.type? ty = some data' ∧ data'.frame = data.frame := by
  have hframe := congrArg (·.1[ty.index]?) h
  simp only [skeleton, Array.getElem?_map] at hframe
  exact Option.map_eq_some_iff.1 (hframe.trans (congrArg _ hdata))

theorem exists_symbol_of_skeleton (h : t.skeleton = s.skeleton) {sym : SymbolId} {y : Symbol}
    (hy : s.symbol? sym = some y) : ∃ y', t.symbol? sym = some y' ∧ y'.face = y.face := by
  have hface := congrArg (·.2[sym.index]?) h
  simp only [skeleton, Array.getElem?_map] at hface
  exact Option.map_eq_some_iff.1 (hface.trans (congrArg _ hy))

end Store

/-- The computation changes nothing, and what it finds depends on the skeleton of the store only. -/
structure Run.Reads {α : Type} (action : Run α) : Prop where
  keeps : ∀ {T : Tie} [T.Lawful], T.Keeps action
  again : ∀ {s t s' : Session} {a : α}, t.store.skeleton = s.store.skeleton → action s = .ok a s' →
    s' = s ∧ action t = .ok a t

section Reads

variable {α β : Type} {action : Run α}

theorem reads_pure (a : α) : Reads (pure a : Run α) where
  keeps := keeps_pure a
  again _ hrun := by
    obtain ⟨rfl, rfl⟩ := EStateM.Result.ok.inj hrun
    exact ⟨rfl, rfl⟩

theorem reads_tooDeep : Reads (tooDeep : Run α) := ⟨keeps_tooDeep, fun _ hrun => by cases hrun⟩

theorem Run.Reads.bind {next : α → Run β} (h : Reads action) (hnext : ∀ a, Reads (next a)) :
    Reads (action >>= next) where
  keeps := h.keeps.bind fun a => (hnext a).keeps
  again hst hrun := by
    obtain ⟨a, s₁, hfirst, hrest⟩ := exists_of_bind hrun
    obtain ⟨rfl, ha⟩ := h.again hst hfirst
    obtain ⟨rfl, hb⟩ := (hnext a).again hst hrest
    exact ⟨rfl, (bind_run ha).trans hb⟩

theorem Run.Reads.map {f : α → β} (h : Reads action) : Reads (do return f (← action)) :=
  h.bind fun a => reads_pure (f a)

/-- What follows may use all of a symbol but its completer. -/
theorem reads_symbolData {sym : SymbolId} {next : Symbol → Run β} (hface : ∀ y, next y.face = next y)
    (h : ∀ y, Reads (next y)) : Reads (symbolData sym >>= next) where
  keeps := (symbolData_keeps sym).bind fun y => (h y).keeps
  again hst hrun := by
    obtain ⟨y, s₁, hread, hrest⟩ := exists_of_bind hrun
    obtain ⟨rfl, hy⟩ := eq_of_symbolData hread
    obtain ⟨y', hy', hsame⟩ := Store.exists_symbol_of_skeleton hst hy
    rw [bind_run (symbolData_run hy'), ← hface y', hsame, hface]
    exact (h y).again hst hrest

/-- What follows may use all of a record but what loading supplies. -/
theorem reads_typeData {ty : TypeId} {next : TypeData → Run β}
    (hframe : ∀ symbol erased literal info, next ⟨symbol, erased, literal, .classType info⟩ =
      next ⟨symbol, erased, literal, .classType { outer := info.outer }⟩)
    (h : ∀ data, Reads (next data)) : Reads (typeData ty >>= next) where
  keeps := keeps_typeData (fun _ _ _ info => (hframe _ _ _ info).trans (hframe _ _ _ info.plain).symm)
    fun data => (h data).keeps
  again hst hrun := by
    have hsame : ∀ data : TypeData, next data.frame = next data := by
      rintro ⟨symbol, erased, literal, kind⟩
      cases kind with
      | classType info => exact (hframe symbol erased literal info).symm
      | _ => rfl
    obtain ⟨data, s₁, hread, hrest⟩ := exists_of_bind hrun
    obtain ⟨rfl, hdata⟩ := eq_of_typeData hread
    obtain ⟨data', hdata', heq⟩ := Store.exists_of_skeleton hst hdata
    rw [bind_run (typeData_run hdata'), ← hsame data', heq, hsame]
    exact (h data).again hst hrest

theorem reads_kindOf {ty : TypeId} {next : Kind → Run β}
    (hframe : ∀ info, next (.classType info) = next (.classType { outer := info.outer }))
    (h : ∀ kind, Reads (next kind)) : Reads (kindOf ty >>= next) := by
  rw [Tie.kindOf_bind]
  exact reads_typeData (fun _ _ _ info => hframe info) fun data => h data.kind

end Reads

variable {T : Tie} [T.Lawful]

/-! ### Components of types -/

section

variable (depth : Nat) (ty : TypeId)

/-- A question that follows one part of a type after another. -/
theorem followed_reads {α : Type} {next : Kind → Option TypeId} {last : TypeId → Kind → Run α}
    (hnext : ∀ info, next (.classType info) = none)
    (hframe : ∀ ty info, last ty (.classType info) = last ty (.classType { outer := info.outer }))
    (hlast : ∀ ty kind, Reads (last ty kind)) : Reads (followed next last depth ty) := by
  induction depth generalizing ty with
  | zero => exact reads_tooDeep
  | succ depth ih =>
    refine reads_kindOf (fun info => ?_) fun kind => ?_
    · rw [hnext, hnext]
      exact hframe ty info
    · cases next kind with
      | some part => exact ih part
      | none => exact hlast ty kind

theorem enclosingType_keeps : T.Keeps (enclosingType depth ty) :=
  (followed_reads depth ty (fun _ => rfl) (fun _ _ => rfl) fun _ kind => by
    cases kind <;> exact reads_pure _).keeps

theorem parameterTypes_keeps : T.Keeps (parameterTypes depth ty) :=
  (followed_reads depth ty (fun _ => rfl) (fun _ _ => rfl) fun _ _ => reads_pure _).keeps

theorem returnType_keeps : T.Keeps (returnType depth ty) :=
  (followed_reads depth ty (fun _ => rfl) (fun _ _ => rfl) fun _ kind => by
    cases kind <;> exact reads_pure _).keeps

theorem thrownTypes_keeps : T.Keeps (thrownTypes depth ty) :=
  (followed_reads depth ty (fun _ => rfl) (fun _ _ => rfl) fun _ _ => reads_pure _).keeps

theorem callActuals_keeps : T.Keeps (callActuals depth ty) :=
  (followed_reads depth ty (fun _ => rfl) (fun _ _ => rfl) fun _ _ => reads_pure _).keeps

theorem methodType?_keeps : T.Keeps (methodType? depth ty) :=
  (followed_reads depth ty (fun _ => rfl) (fun _ _ => rfl) fun _ _ => reads_pure _).keeps

theorem Tie.keeps_of_kind {α : Type} {next : Kind → Run α}
    (hplain : ∀ info, next (.classType info) = next (.classType info.plain))
    (h : ∀ kind, ∃ a, next kind = pure a) : T.Keeps (kindOf ty >>= next) := by
  refine keeps_kindOf hplain fun kind => ?_
  obtain ⟨a, ha⟩ := h kind
  rw [ha]
  exact keeps_pure a

theorem wildcard?_reads : Reads (wildcard? ty) :=
  reads_kindOf (fun _ => rfl) fun kind => by cases kind <;> exact reads_pure _

theorem cellType_keeps : T.Keeps (cellType ty) :=
  keeps_of_kind ty (fun _ => rfl) fun kind => by cases kind <;> exact ⟨_, rfl⟩

theorem typeVariables_keeps : T.Keeps (typeVariables ty) :=
  keeps_of_kind ty (fun _ => rfl) fun kind => by cases kind <;> exact ⟨_, rfl⟩

theorem effectVariables_keeps : T.Keeps (effectVariables ty) :=
  keeps_of_kind ty (fun _ => rfl) fun kind => by cases kind <;> exact ⟨_, rfl⟩

theorem lowerBound_keeps : T.Keeps (lowerBound ty) :=
  keeps_of_kind ty (fun _ => rfl) fun _ => ⟨_, rfl⟩

theorem varBound_reads (info : VarInfo) : Reads (varBound info) := by
  unfold varBound
  split
  · exact reads_pure _
  · exact reads_pure _
  · exact reads_kindOf (fun _ => rfl) fun _ => reads_pure _

theorem upperBound_reads : Reads (upperBound depth ty) := by
  refine followed_reads depth ty (fun _ => rfl) (fun _ _ => rfl) fun _ kind => ?_
  cases kind.var? with
  | some info => exact varBound_reads info
  | none => exact reads_pure _

theorem isCompound_keeps : T.Keeps (isCompound ty) := by
  refine keeps_typeData (fun symbol _ _ _ => by cases symbol <;> rfl) fun data => ?_
  split
  · exact keeps_pure _
  · exact keeps_pure _
  · exact (symbolData_keeps _).map

theorem baseType_keeps : T.Keeps (baseType depth ty) := by
  induction depth generalizing ty with
  | zero => exact keeps_tooDeep
  | succ depth ih =>
    refine keeps_typeData (fun _ _ _ _ => rfl) fun data => ?_
    split
    · exact (canonicalType_keeps _).map
    · split
      · split
        · exact ih _
        · exact keeps_pure _
      · exact keeps_pure _

theorem booleanValue?_keeps : T.Keeps (booleanValue? ty) := by
  refine keeps_typeData (fun _ _ _ _ => rfl) fun data => ?_
  split
  · exact keeps_pure _
  · exact keeps_pure _

/-! ### Structural equality -/

theorem allPairsM_keeps {p : TypeId → TypeId → Run Bool} (h : ∀ a b, T.Keeps (p a b))
    (as bs : List TypeId) : T.Keeps (allPairsM p as bs) := by
  induction as generalizing bs with
  | nil => cases bs <;> exact keeps_pure _
  | cons a as ih =>
    cases bs with
    | nil => exact keeps_pure _
    | cons b bs =>
      refine (h a b).bind fun equal => ?_
      split
      · exact ih bs
      · exact keeps_pure _

theorem typesEqual_keeps (a b : TypeId) : T.Keeps (typesEqual depth a b) := by
  induction depth generalizing a b with
  | zero => exact keeps_tooDeep
  | succ depth ih =>
    unfold typesEqual
    split
    · exact keeps_pure _
    · refine keeps_kindOf (fun _ => rfl) fun left => keeps_kindOf (fun info => ?_) fun right => ?_
      · cases left <;> rfl
      · split
        · exact ih _ _
        · split
          · exact keeps_pure _
          · refine (allPairsM_keeps ih _ _).bind fun equal => ?_
            split
            · exact ih _ _
            · exact keeps_pure _
        · exact keeps_pure _

theorem typeHash_keeps : T.Keeps (typeHash depth ty) := by
  induction depth generalizing ty with
  | zero => exact keeps_tooDeep
  | succ depth ih =>
    refine keeps_kindOf (fun _ => rfl) fun kind => ?_
    cases kind with
    | array info => exact (ih info.elem).map
    | method info =>
      have hparams := Pairs.foldlM (T := T) (f := fun hash param => do
        return mixHash hash (← typeHash depth param)) (fun _ param => (ih param).map) info.params
      exact (hparams _).bind fun hash => (ih info.result).map
    | _ => exact keeps_pure _

theorem firstEqual_keeps (types : List TypeId) : T.Keeps (firstEqual depth ty types) := by
  induction types with
  | nil => exact keeps_pure _
  | cons candidate rest ih =>
    refine (typesEqual_keeps depth candidate ty).bind fun equal => ?_
    split
    · exact keeps_pure _
    · exact ih.map

theorem keyReport_keeps (types : List TypeId) : T.Keeps (keyReport depth types) :=
  (Pairs.mapM (typeHash_keeps depth) types).bind fun _ =>
    (Pairs.mapM (fun ty => firstEqual_keeps depth ty types) types).map

end

/-! ### Substitutions -/

namespace Substitution

theorem symbolOf_keeps (ty : TypeId) : T.Keeps (symbolOf ty) :=
  keeps_typeData (fun _ _ _ _ => rfl) fun _ => keeps_pure _

theorem stands_keeps (var : TypeId) (symbol : Option SymbolId) (source : TypeId) :
    T.Keeps (stands var symbol source) := by
  unfold stands
  split
  · exact keeps_pure _
  · split
    · exact keeps_pure _
    · exact (symbolOf_keeps _).map

theorem find?_keeps (var : TypeId) (symbol : Option SymbolId) (pairs : List (TypeId × TypeId)) :
    T.Keeps (find? var symbol pairs) := by
  induction pairs with
  | nil => exact keeps_pure _
  | cons pair rest ih =>
    refine (stands_keeps var symbol pair.1).bind fun found => ?_
    split
    · exact keeps_pure _
    · exact ih

theorem replacement_keeps (s : Substitution) (var : TypeId) : T.Keeps (s.replacement var) :=
  (symbolOf_keeps var).bind fun symbol => (find?_keeps var symbol s.pairs).map

theorem without_keeps (s : Substitution) (vars : List TypeId) : T.Keeps (s.without vars) := by
  refine (Pairs.mapM symbolOf_keeps vars).bind fun symbols => (Keeps.filterM (fun pair => ?_) _).map
  refine Joins.map ?_
  unfold isHidden
  split
  · exact keeps_pure _
  · exact (symbolOf_keeps _).map

end Substitution

/-! ### Parts of rendering -/

theorem described?_keeps (y : Symbol) : T.Keeps (described? y) := by
  unfold described?
  split
  · exact keeps_pure _
  · exact keeps_of_kind _ (fun _ => rfl) fun _ => ⟨_, rfl⟩

theorem qualifiedName_reads (depth : Nat) (sym : SymbolId) : Reads (qualifiedName depth sym) := by
  induction depth generalizing sym with
  | zero => exact reads_tooDeep
  | succ depth ih =>
    refine reads_symbolData (fun _ => rfl) fun y => ?_
    split
    · exact reads_pure _
    · refine reads_symbolData (fun _ => rfl) fun owner => ?_
      split
      · exact (ih _).map
      · exact reads_pure _

theorem symbolText_reads (symbol : Option SymbolId) : Reads (symbolText symbol) := by
  cases symbol with
  | none => exact reads_pure _
  | some => exact reads_symbolData (fun _ => rfl) fun _ => reads_pure _

theorem qualifiedText_reads (depth : Nat) (symbol : Option SymbolId) (otherwise : String) :
    Reads (qualifiedText depth symbol otherwise) := by
  cases symbol with
  | none => exact reads_pure _
  | some sym => exact qualifiedName_reads depth sym

theorem isMemberOfType_reads (symbol : Option SymbolId) : Reads (isMemberOfType symbol) := by
  cases symbol with
  | none => exact reads_pure _
  | some =>
    refine reads_symbolData (fun _ => rfl) fun y => ?_
    split
    · exact reads_pure _
    · exact reads_symbolData (fun _ => rfl) fun _ => reads_pure _

theorem dimensionText_reads (dimension : Path × Option SymbolId) : Reads (dimensionText dimension) := by
  obtain ⟨region, var⟩ := dimension
  cases var with
  | none => exact reads_pure _
  | some => exact reads_symbolData (fun _ => rfl) fun _ => reads_pure _

theorem dimensions_reads (depth : Nat) (ty : TypeId) : Reads (dimensions depth ty) := by
  induction depth generalizing ty with
  | zero => exact reads_tooDeep
  | succ depth ih =>
    refine reads_kindOf (fun _ => rfl) fun kind => ?_
    cases kind with
    | array info => exact (ih info.elem).map
    | _ => exact reads_pure _

/-! ### Names -/

theorem lookupType_keeps (ref : TypeRef) : T.Keeps (lookupType ref) := by
  cases ref with
  | handle ty => exact keeps_pure ty
  | named =>
    refine keeps_get (fun s t h => by simp only [h.names]) fun s => ?_
    split
    · exact keeps_pure _
    · exact keeps_throw _

theorem lookupSymbol_keeps (ref : SymbolRef) : T.Keeps (lookupSymbol ref) := by
  cases ref with
  | handle sym => exact keeps_pure sym
  | named =>
    refine keeps_get (fun s t h => by simp only [h.names]) fun s => ?_
    split
    · exact keeps_pure _
    · exact keeps_throw _

theorem lookupTypes_keeps (refs : List TypeRef) : T.Keeps (lookupTypes refs) :=
  Pairs.mapM lookupType_keeps refs

theorem lookupType?_keeps (ref : Option TypeRef) : T.Keeps (lookupType? ref) := by
  cases ref with
  | none => exact keeps_pure none
  | some ref => exact (lookupType_keeps ref).map

theorem lookupSymbol?_keeps (ref : Option SymbolRef) : T.Keeps (lookupSymbol? ref) := by
  cases ref with
  | none => exact keeps_pure none
  | some ref => exact (lookupSymbol_keeps ref).map

theorem chosenOptions_keeps (options : Option DisplayOptions) : T.Keeps (chosenOptions options) := by
  cases options with
  | none => exact storeOptions_keeps
  | some options => exact keeps_pure options

/-- What a command looks up before it does anything. -/
class LooksUp {α : Type} (action : Run α) : Prop where
  keeps : ∀ {T : Tie} [T.Lawful], T.Keeps action

instance (ref : TypeRef) : LooksUp (lookupType ref) := ⟨lookupType_keeps ref⟩
instance (ref : SymbolRef) : LooksUp (lookupSymbol ref) := ⟨lookupSymbol_keeps ref⟩
instance (refs : List TypeRef) : LooksUp (lookupTypes refs) := ⟨lookupTypes_keeps refs⟩
instance (ref : Option TypeRef) : LooksUp (lookupType? ref) := ⟨lookupType?_keeps ref⟩
instance (ref : Option SymbolRef) : LooksUp (lookupSymbol? ref) := ⟨lookupSymbol?_keeps ref⟩
instance (options : Option DisplayOptions) : LooksUp (chosenOptions options) :=
  ⟨chosenOptions_keeps options⟩

/-- What follows on looking something up. -/
theorem looking {α β : Type} {W : β → β → Prop} {action : Run α} [LooksUp action]
    {next next' : α → Run β} (h : ∀ a, T.Joins W (next a) (next' a)) :
    T.Joins W (action >>= next) (action >>= next') :=
  LooksUp.keeps.bind h

end RegionTypes

import RegionTypes.Proofs.Store.Along
import RegionTypes.Proofs.Store.Replacement

/-!
# Substitution in the store is substitution on trees

Substitution in the store rebuilds only what changed, and allocates while it goes through a type.
What it returns reads as the tree that substitution on trees gives.

* `Computes` — a mapping that does so for all types of a certain depth.
* `mapType_array`, `mapType_method`, ... — one level, for each kind of type with components.
* `substitute_step`, `substitute_computes` — **substitution in depth**, by induction on the depth.
* `Store.NonePending` — no class mentioned by a type has a completer pending.
-/

namespace RegionTypes

open Run

variable {s s' : Session} {ty : TypeId} {t : Tree} {pairs : List (TypeId × TypeId)} {ρ : List Replacement}
  {start : Completer → Loader} {data : TypeData} {info : ClassInfo} {d : Nat}

/-! ### Mapping lists -/

/-- The mapping computes substitution for all types of the given depth, at whatever point of the run
from a store on. -/
def Computes (f : TypeId → Run TypeId) (s₀ : Store) (n : Nat) (ρ : List Replacement) : Prop :=
  ∀ (s : Session) (ty : TypeId) (t : Tree), s₀.Grows s.store → s.store.ReadsIn n ty t →
    s.store.Loaded t.classes → (f ty).Returns s (ImageOf s ty t ρ)

/-- What a mapping does to the types of a list. -/
structure ImagesOf (s : Session) (types : List TypeId) (ts : List Tree) (ρ : List Replacement)
    (images : List TypeId) (s' : Session) : Prop where
  grows : s.store.Grows s'.store
  reads : List.Forall₂ s'.store.Reads images (Tree.substAll ts ρ)
  same : images = types ↔ Tree.changesAny ts ρ = false

section

variable {f : TypeId → Run TypeId} {n : Nat} {types : List TypeId} {ts : List Tree} {load : Loader}

theorem Computes.image (hf : Computes f s.store n ρ) (hgrows : s.store.Grows s'.store)
    (h : s.store.ReadsIn n ty t) (hloaded : s.store.Loaded t.classes) :
    ReturnsFrom (stateless f ty) () s' fun image _ s'' => ImageOf s' ty t ρ image s'' :=
  returnsFrom_lift (hf s' ty t hgrows (h.grows hgrows) (hloaded.grows hgrows))

section

variable (hf : Computes f s.store n ρ) (hgrows : s.store.Grows s'.store)
  (h : List.Forall₂ (s.store.ReadsIn n) types ts) (hloaded : s.store.Loaded (Tree.classesAll ts))

include hf hgrows h hloaded

theorem Computes.images : ReturnsFrom (mapEach (stateless f) types) () s' fun images _ s'' =>
      ImagesOf s' types ts ρ images s'' := by
  induction h with
  | nil => exact returnsFrom_pure ⟨.refl _, .nil, by simp [Tree.changesAny]⟩
  | @cons a t types ts hread _ ih =>
    obtain ⟨hhead, htail⟩ := List.forall_mem_append.1 hloaded
    refine .bind (ih htail) fun images _ s₁ himages => ?_
    refine .bind (hf.image (hgrows.trans himages.grows) hread hhead) fun image _ s₂ himage => ?_
    refine returnsFrom_pure ⟨himages.grows.trans himage.grows, ?_, ?_⟩
    · exact .cons himage.reads (himages.reads.imp fun _ _ hr => hr.grows himage.grows)
    · rw [List.cons.injEq, himage.same, himages.same, Tree.changesAny, Bool.or_eq_false_iff]

theorem Computes.mapList : ReturnsFrom (mapList (stateless f) types) () s' fun r _ s'' =>
      ImagesOf s' types ts ρ r.1 s'' ∧ r.2 = Tree.changesAny ts ρ := by
  rw [mapList_eq]
  refine .bind (hf.images hgrows h hloaded) fun images _ s₁ himages => returnsFrom_pure ⟨himages, ?_⟩
  show (images != types) = Tree.changesAny ts ρ
  have hsame := himages.same
  cases hchanges : Tree.changesAny ts ρ with
  | false => simp [hsame.2 hchanges]
  | true =>
    have hne : images ≠ types := fun heq => by simp [hsame.1 heq] at hchanges
    simp [hne]

end

/-! ### Rebuilding a type -/

/-- A new record whose components read as trees reads as a tree under a handle that is new. -/
theorem pushType_returns
    (h : (s.store.pushType data).Node s.store.Reads s.store.nextType t) :
    (pushType data).Returns s fun image s' =>
      s.store.Grows s'.store ∧ s'.store.Reads image t ∧ ¬ s.store.Has image := by
  have hgrows := Store.grows_pushType s.store data
  exact ⟨_, _, pushType_run data s, hgrows,
    (h.imp fun _ _ hr => hr.grows hgrows).reads, s.store.not_has_nextType⟩

theorem ImageOf.decide_same {image : TypeId} (h : ImageOf s ty t ρ image s') :
    decide (image = ty) = !t.changes ρ := by
  rw [Bool.eq_iff_iff, decide_eq_true_eq, h.same, Bool.not_eq_true']

theorem ImageOf.changes_of_ne {image : TypeId} (h : ImageOf s ty t ρ image s') (hne : image ≠ ty) :
    t.changes ρ = true := by
  rwa [Ne, h.same, Bool.not_eq_false] at hne

theorem ImageOf.kept (hgrows : s.store.Grows s'.store) (hreads : s'.store.Reads ty (t.subst ρ))
    (hchanges : t.changes ρ = false) : ImageOf s ty t ρ ty s' :=
  ⟨hgrows, hreads, by rw [hchanges]; exact ⟨fun _ => rfl, fun _ => rfl⟩⟩

theorem ImageOf.rebuilt {action : Run TypeId} (hty : s.store.Has ty)
    (hgrows : s.store.Grows s'.store) (hchanges : t.changes ρ = true)
    (h : action.Returns s' fun image s'' =>
      s'.store.Grows s''.store ∧ s''.store.Reads image (t.subst ρ) ∧ ¬ s'.store.Has image) :
    action.Returns s' (ImageOf s ty t ρ) := by
  refine h.imp fun image s'' ⟨hgrows', hreads, hnew⟩ => ⟨hgrows.trans hgrows', hreads, ?_⟩
  rw [hchanges]
  exact ⟨fun heq => absurd (heq ▸ hgrows.has hty) hnew, nofun⟩

theorem mapType_array {info : ArrayInfo} {elem : Tree}
    (record : s.store.type? ty = some { symbol := none, kind := .array info })
    (holds : s.store.ReadsIn n info.elem elem) (hloaded : s.store.Loaded elem.classes)
    (hf : Computes f s.store n ρ) :
    ReturnsFrom (mapType load d (stateless f) ty) () s fun image _ s' =>
      ImageOf s ty (.array elem info.region info.indexVar) ρ image s' := by
  have hty : s.store.Has ty := Store.has_iff.2 ⟨_, record⟩
  refine .step (typeData_run record) ?_
  refine .bind (hf.image (.refl _) holds hloaded) fun image _ s₁ himage => ?_
  by_cases heq : image = info.elem
  · have hchanges := himage.same.1 heq
    rw [if_pos heq]
    refine returnsFrom_pure (.kept himage.grows ?_ hchanges)
    have hreads := himage.reads
    rw [heq] at hreads
    rw [Tree.subst, hchanges]
    exact Store.Node.reads (.array (himage.grows.record record nofun) hreads)
  · have hchanges := himage.changes_of_ne heq
    rw [if_neg (by simpa using heq)]
    refine returnsFrom_lift (ImageOf.rebuilt hty himage.grows hchanges (pushType_returns ?_))
    rw [Tree.subst, hchanges]
    exact .array (Store.type?_nextType _ _) himage.reads

theorem mapType_wildcard {info : WildcardInfo} {bound : Tree}
    (record : s.store.type? ty = some { symbol := none, kind := .wildcard info })
    (holds : s.store.ReadsIn n info.bound bound) (hloaded : s.store.Loaded bound.classes)
    (hf : Computes f s.store n ρ) :
    ReturnsFrom (mapType load d (stateless f) ty) () s fun image _ s' =>
      ImageOf s ty (.wildcard bound info.kind info.formal) ρ image s' := by
  have hty : s.store.Has ty := Store.has_iff.2 ⟨_, record⟩
  refine .step (typeData_run record) ?_
  refine .bind (hf.image (.refl _) holds hloaded) fun image _ s₁ himage => ?_
  have record₁ := himage.grows.record record nofun
  by_cases heq : image = info.bound
  · rw [if_pos heq]
    refine returnsFrom_pure (.kept himage.grows ?_ (himage.same.1 heq))
    have hreads := himage.reads
    rw [heq] at hreads
    exact Store.Node.reads (.wildcard record₁ hreads)
  · have hchanges := himage.changes_of_ne heq
    rw [if_neg (by simpa using heq)]
    have hinfo : wildcard? ty s₁ = .ok (some info) s₁ := bind_run (kindOf_run record₁)
    refine returnsFrom_lift (ImageOf.rebuilt hty himage.grows hchanges (.step hinfo (pushType_returns ?_)))
    have hrecord := s₁.store.type?_nextType
      { symbol := none, kind := .wildcard ⟨image, info.kind, info.formal⟩ }
    have hnode := Store.Node.wildcard hrecord himage.reads
    exact hnode

/-- A quantified type: the mapping of its body knows only the replacements that are not hidden. -/
theorem mapType_forAll {symbol : Option SymbolId} {info : ForAllInfo} {vars : List Occurrence}
    {body : Tree} (record : s.store.type? ty = some { symbol, kind := .forAll info })
    (binds : List.Forall₂ s.store.Binds info.typeVars vars) (holds : s.store.ReadsIn n info.body body)
    (hloaded : s.store.Loaded body.classes) (hf : Computes f s.store n (Replacement.outside ρ vars)) :
    ReturnsFrom (mapType load d (stateless f) ty) () s fun image _ s' =>
      ImageOf s ty (.forAll symbol vars info.regionVars info.effectVars body) ρ image s' := by
  have hty : s.store.Has ty := Store.has_iff.2 ⟨_, record⟩
  refine .step (typeData_run record) ?_
  refine .bind (hf.image (.refl _) holds hloaded) fun image _ s₁ himage => ?_
  by_cases heq : image = info.body
  · have hchanges := himage.same.1 heq
    rw [if_pos heq]
    refine returnsFrom_pure (.kept himage.grows ?_ hchanges)
    have hreads := himage.reads
    rw [heq] at hreads
    rw [Tree.subst, hchanges]
    exact Store.Node.reads (.forAll (himage.grows.record record nofun)
      (binds.imp fun _ _ => himage.grows.binds) hreads)
  · have hchanges := himage.changes_of_ne heq
    rw [if_neg heq]
    obtain ⟨data, hdata, hsymbol⟩ := himage.reads.symbol
    refine returnsFrom_lift (ImageOf.rebuilt hty himage.grows hchanges
      (.step (typeData_run hdata) (pushType_returns ?_)))
    rw [Tree.subst, hchanges, ← hsymbol]
    let image' : TypeData := { symbol := data.symbol, kind := .forAll { info with body := image } }
    have hgrows := himage.grows.trans (s₁.store.grows_pushType image')
    have hnode := Store.Node.forAll (s₁.store.type?_nextType image')
      (binds.imp fun _ _ => hgrows.binds) himage.reads
    exact hnode

theorem mapType_method {info : MethodInfo} {params thrown : List Tree} {result : Tree}
    (record : s.store.type? ty = some { symbol := none, kind := .method info })
    (takes : List.Forall₂ (s.store.ReadsIn n) info.params params)
    (gives : s.store.ReadsIn n info.result result)
    (throws : List.Forall₂ (s.store.ReadsIn n) info.thrown thrown)
    (hloaded : s.store.Loaded (Tree.method params result thrown info.actuals).classes)
    (hf : Computes f s.store n ρ) :
    ReturnsFrom (mapType load d (stateless f) ty) () s fun image _ s' =>
      ImageOf s ty (.method params result thrown info.actuals) ρ image s' := by
  have hty : s.store.Has ty := Store.has_iff.2 ⟨_, record⟩
  obtain ⟨hloaded, hthrown⟩ := List.forall_mem_append.1 hloaded
  obtain ⟨hparams, hresult⟩ := List.forall_mem_append.1 hloaded
  refine .step (typeData_run record) ?_
  refine .bind (hf.mapList (.refl _) takes hparams) fun r₁ _ s₁ ⟨himages₁, hr₁⟩ => ?_
  obtain ⟨params', changed₁⟩ := r₁
  obtain rfl : changed₁ = _ := hr₁
  refine .bind (hf.image himages₁.grows gives hresult) fun image _ s₂ himage => ?_
  have hgrows₂ := himages₁.grows.trans himage.grows
  have record₂ := hgrows₂.record record nofun
  refine .step (bind_run (kindOf_run record₂)) ?_
  refine .bind (hf.mapList hgrows₂ throws hthrown) fun r₃ _ s₃ ⟨himages₃, hr₃⟩ => ?_
  obtain ⟨thrown', changed₃⟩ := r₃
  obtain rfl : changed₃ = _ := hr₃
  have hgrows₃ := hgrows₂.trans himages₃.grows
  have record₃ := hgrows₃.record record nofun
  have hto₃ := himage.grows.trans himages₃.grows
  have hparams := himages₁.reads.imp fun _ _ (hr : s₁.store.Reads _ _) => hr.grows hto₃
  have hresult := himage.reads.grows himages₃.grows
  have hsame : (!Tree.changesAny params ρ && decide (image = info.result) &&
      !Tree.changesAny thrown ρ) = !(Tree.method params result thrown info.actuals).changes ρ := by
    rw [himage.decide_same, Tree.changes, Bool.not_or, Bool.not_or]
  dsimp only
  rw [hsame]
  cases hchanges : (Tree.method params result thrown info.actuals).changes ρ with
  | false =>
    rw [Tree.changes, Bool.or_eq_false_iff, Bool.or_eq_false_iff] at hchanges
    obtain ⟨⟨hsame₁, hsame₂⟩, hsame₃⟩ := hchanges
    refine returnsFrom_pure (.kept hgrows₃ ?_ ?_)
    · have hthrown := himages₃.reads
      rw [himages₁.same.2 hsame₁] at hparams
      rw [himage.same.2 hsame₂] at hresult
      rw [himages₃.same.2 hsame₃] at hthrown
      exact Store.Node.reads (.method record₃ hparams hresult hthrown)
    · rw [Tree.changes, hsame₁, hsame₂, hsame₃]
      rfl
  | true =>
    refine returnsFrom_lift (ImageOf.rebuilt hty hgrows₃ hchanges
      (.step (kindOf_run record₃) (pushType_returns ?_)))
    have hrecord := s₃.store.type?_nextType
      { symbol := none, kind := .method ⟨params', image, thrown', info.actuals⟩ }
    have hnode := Store.Node.method hrecord hparams hresult himages₃.reads
    exact hnode

/-- A class type: its arguments are read first, and the record may be settled on the way. -/
theorem mapType_classType {outer : Tree} {args : List Tree} (record : s.store.type? ty = some data)
    (kind : data.kind = .classType info) (encloses : s.store.ReadsIn n info.outer outer)
    (takes : List.Forall₂ (s.store.ReadsIn n) (info.typeArgs.getD []) args)
    (hloaded : s.store.Loaded (Tree.classType data.head outer args info.regionArgs info.effectArgs
      info.cellType).classes)
    (hf : Computes f s.store n ρ) :
    ReturnsFrom (mapType (completeSymbol start) (d + 1) (stateless f) ty) () s fun image _ s' =>
      ImageOf s ty (.classType data.head outer args info.regionArgs info.effectArgs info.cellType) ρ
        image s' := by
  have hty : s.store.Has ty := Store.has_iff.2 ⟨_, record⟩
  obtain ⟨hloaded, hargs⟩ := List.forall_mem_append.1 hloaded
  obtain ⟨hsymbol, houter⟩ := List.forall_mem_append.1 hloaded
  refine .step (typeData_run record) ?_
  rw [kind]
  obtain ⟨_, s₁, hread, rfl, hgrows₁, -⟩ := typeArguments_returns start d record kind hsymbol
  refine .step hread ?_
  refine .bind (hf.image hgrows₁ encloses houter) fun image _ s₂ himage => ?_
  have hgrows₂ := hgrows₁.trans himage.grows
  refine .bind (hf.mapList hgrows₂ takes hargs) fun r _ s₃ ⟨himages, hr⟩ => ?_
  obtain ⟨images, changed⟩ := r
  obtain rfl : changed = _ := hr
  have hgrows₃ := hgrows₂.trans himages.grows
  have houter := himage.reads.grows himages.grows
  obtain ⟨given, hgiven, record₃⟩ := hgrows₃.classRecord record kind
  let t := Tree.classType data.head outer args info.regionArgs info.effectArgs info.cellType
  have hsame : (decide (image = info.outer) && !Tree.changesAny args ρ) = !t.changes ρ := by
    rw [himage.decide_same, Tree.changes, Bool.not_or]
  dsimp only
  rw [hsame]
  cases hchanges : t.changes ρ with
  | false =>
    refine returnsFrom_pure (.kept hgrows₃ ?_ hchanges)
    rw [Tree.changes, Bool.or_eq_false_iff] at hchanges
    have hargs := himages.reads
    rw [himages.same.2 hchanges.2, ← hgiven] at hargs
    rw [himage.same.2 hchanges.1] at houter
    have hnode := Store.Node.classType record₃ rfl houter hargs
    exact Store.Node.reads hnode
  | true =>
    refine returnsFrom_lift (ImageOf.rebuilt hty hgrows₃ hchanges
      (.step (kindOf_run record₃) (pushType_returns ?_)))
    have hrecord := s₃.store.type?_nextType
      { data with
        kind := .classType
          { outer := image, typeArgs := some images, regionArgs := info.regionArgs,
            effectArgs := info.effectArgs, cellType := info.cellType } }
    have hnode := Store.Node.classType hrecord rfl houter himages.reads
    exact hnode

theorem mapType_leaf (record : s.store.type? ty = some data) (kind : data.kind.shape = .leaf) :
    ReturnsFrom (mapType load d (stateless f) ty) () s fun image _ s' =>
      ImageOf s ty (.leaf ty data) ρ image s' := by
  have himage : ImageOf s ty (.leaf ty data) ρ ty s := .kept (.refl _) ⟨1, .leaf record kind⟩ rfl
  refine .step (typeData_run record) ?_
  cases hkind : data.kind with
  | classType | array | method | forAll | wildcard =>
    rw [hkind] at kind
    cases kind
  | _ => exact returnsFrom_pure himage

end

/-! ### Substitution in depth -/

/-- **One level of substitution**: if the components are substituted correctly, for all choices of
pairs, so is the type. -/
theorem substitute_step {n : Nat}
    (ih : ∀ {pairs ρ}, s.store.Describes pairs ρ →
      Computes (substitute (completeSymbol start) d ⟨pairs⟩) s.store n ρ)
    (hdesc : s.store.Describes pairs ρ) (h : s.store.Node (s.store.ReadsIn n) ty t)
    (hloaded : s.store.Loaded t.classes) :
    (substitute (completeSymbol start) (d + 1) ⟨pairs⟩ ty).Returns s (ImageOf s ty t ρ) := by
  have hreads : s.store.Reads ty t := ⟨n + 1, h⟩
  cases hpairs : pairs with
  | nil =>
    subst hpairs
    obtain rfl := List.forall₂_nil_left_iff.1 hdesc
    exact returns_pure (.kept (.refl _) (by rwa [Tree.subst_nil]) (Tree.changes_nil _))
  | cons =>
    rw [← hpairs]
    have hnonempty : (Substitution.isEmpty ⟨pairs⟩) = false := by rw [hpairs]; rfl
    unfold substitute
    rw [hnonempty]
    cases h with
    | @leaf data record kind =>
      refine .step (kindOf_run record) ?_
      cases hkind : data.kind with
      | typeVar | captured | forAll =>
        rw [hkind] at kind
        cases kind
      | _ => exact (mapType_leaf record kind).run'
    | @var data record kind =>
      refine .step (kindOf_run record) ?_
      cases hkind : data.kind with
      | typeVar | captured => exact Substitution.replacement_returns record kind hdesc
      | _ =>
        rw [hkind] at kind
        cases kind
    | classType record kind encloses takes =>
      refine .step (kindOf_run record) ?_
      rw [kind]
      exact (mapType_classType record kind encloses takes hloaded (ih hdesc)).run'
    | array record holds =>
      exact .step (kindOf_run record) (mapType_array record holds hloaded (ih hdesc)).run'
    | method record takes gives throws =>
      exact .step (kindOf_run record)
        (mapType_method record takes gives throws hloaded (ih hdesc)).run'
    | forAll record binds holds =>
      obtain ⟨inner, hwithout, hinner⟩ := Substitution.without_run binds hdesc
      refine .step (kindOf_run record) (.step hwithout ?_)
      cases inner with
      | nil =>
        have houtside := List.forall₂_nil_left_iff.1 hinner
        refine returns_pure (.kept (.refl _) ?_ ?_)
        · rw [Tree.subst, houtside, Tree.changes_nil, Tree.subst_nil]
          exact hreads
        · rw [Tree.changes, houtside, Tree.changes_nil]
      | cons =>
        exact (mapType_forAll record binds holds hloaded (ih hinner)).run'
    | wildcard record holds =>
      exact .step (kindOf_run record) (mapType_wildcard record holds hloaded (ih hdesc)).run'

/-- **Substitution in the store computes substitution on trees**, by induction on the depth of the
type. -/
theorem substitute_computes (n : Nat) : ∀ {depth : Nat} {s₀ : Store} {pairs ρ}, n ≤ depth →
    s₀.Describes pairs ρ → Computes (substitute (completeSymbol start) depth ⟨pairs⟩) s₀ n ρ := by
  induction n with
  | zero => exact fun _ _ _ _ _ _ hread => hread.elim
  | succ n ih =>
    intro depth s₀ pairs ρ hdepth hdesc s ty t hgrows hread hloaded
    obtain ⟨d, rfl⟩ : ∃ d, depth = d + 1 := ⟨depth - 1, by omega⟩
    exact substitute_step (fun hdesc => ih (Nat.le_of_succ_le_succ hdepth) hdesc)
      (hdesc.grows hgrows) hread hloaded

/-! ### Whole stores -/

namespace Store

variable {s : Store} {c : TypeId} {n : Nat}

/-- No class type that can be reached from a type has a completer pending. -/
def NonePending (s : Store) (ty : TypeId) : Prop :=
  ∀ a data sym symbol, Relation.ReflTransGen s.Edge ty a → s.type? a = some data →
    data.kind.shape = .classType → data.symbol = some sym → s.symbol? sym = some symbol →
      symbol.completer = none

theorem NonePending.component (h : s.NonePending ty) (hedge : s.Edge ty c) : s.NonePending c :=
  fun a d sym symbol hreach => h a d sym symbol (.head hedge hreach)

theorem loaded_classesAll {types : List TypeId} {ts : List Tree}
    (h : List.Forall₂ (s.ReadsIn n) types ts)
    (ih : ∀ c ∈ types, ∀ t, s.ReadsIn n c t → s.Loaded t.classes) :
    s.Loaded (Tree.classesAll ts) := by
  induction h with
  | nil => exact nofun
  | cons hread _ ih' =>
    exact List.forall_mem_append.2 ⟨ih _ List.mem_cons_self _ hread,
      ih' fun c hc => ih c (List.mem_cons_of_mem _ hc)⟩

theorem NonePending.loaded_class (h : s.NonePending ty) (hwf : s.WellFormed)
    (record : s.type? ty = some data) (kind : data.kind = .classType info) :
    s.Loaded data.symbol.toList := by
  intro sym hsym
  have hsym : data.symbol = some sym := Option.mem_toList.1 hsym
  obtain ⟨symbol, hsymbol⟩ := Option.isSome_iff_exists.1 ((hwf data (mem_types record)).symbols sym hsym)
  exact ⟨symbol, hsymbol, h ty data sym symbol .refl record (by rw [kind]; rfl) hsym hsymbol⟩

/-- The classes of a tree are those that can be reached from the type it is read from. -/
theorem NonePending.loaded (hwf : s.WellFormed) (n : Nat) : ∀ ty t, s.NonePending ty →
    s.ReadsIn n ty t → s.Loaded t.classes := by
  induction n with
  | zero => exact fun _ _ _ h => h.elim
  | succ n ih =>
    intro ty t hpending hread
    have hcomponent : ∀ {data}, s.type? ty = some data → ∀ c ∈ data.kind.components,
        ∀ t, s.ReadsIn n c t → s.Loaded t.classes := fun hdata c hc t =>
      ih c t (hpending.component ⟨_, hdata, hc⟩)
    cases hread with
    | leaf | var => exact nofun
    | classType record kind encloses takes =>
      have hparts := hcomponent record
      rw [kind] at hparts
      refine List.forall_mem_append.2 ⟨List.forall_mem_append.2
        ⟨hpending.loaded_class hwf record kind, ?_⟩, ?_⟩
      · exact hparts _ List.mem_cons_self _ encloses
      · exact loaded_classesAll takes fun c hc => hparts c (List.mem_cons_of_mem _ hc)
    | array record holds =>
      have helem := hcomponent record _ List.mem_cons_self _ holds
      exact helem
    | method record takes gives throws =>
      have hparts := hcomponent record
      refine List.forall_mem_append.2 ⟨List.forall_mem_append.2 ⟨?_, ?_⟩, ?_⟩
      · exact loaded_classesAll takes fun c hc => hparts c (List.mem_append_left _ hc)
      · exact hparts _ (List.mem_append_right _ List.mem_cons_self) _ gives
      · exact loaded_classesAll throws fun c hc =>
          hparts c (List.mem_append_right _ (List.mem_cons_of_mem _ hc))
    | forAll record _ holds =>
      have hbody := hcomponent record _ List.mem_cons_self _ holds
      exact hbody
    | wildcard record holds =>
      have hbound := hcomponent record _ List.mem_cons_self _ holds
      exact hbound

/-- Pairs of handles of a well-formed acyclic store can be read as replacements. -/
theorem WellFormed.exists_describes (hwf : s.WellFormed) (hac : s.Acyclic)
    (hpairs : ∀ p ∈ pairs, s.Has p.1 ∧ s.Has p.2) : ∃ ρ, s.Describes pairs ρ := by
  refine exists_forall₂ fun p hp => ?_
  obtain ⟨hsource, htarget⟩ := hpairs p hp
  obtain ⟨data, hdata⟩ := has_iff.1 hsource
  obtain ⟨image, himage⟩ := hwf.exists_readsIn_size hac htarget
  exact ⟨⟨⟨p.1, data.symbol⟩, p.2, image⟩, ⟨data, hdata, rfl⟩, rfl, _, himage⟩

theorem nonePending_of_symbols (h : ∀ symbol ∈ s.symbols, symbol.completer.isNone) :
    s.NonePending ty := by
  intro _ _ _ symbol _ _ _ _ hsymbol
  exact Option.isNone_iff_eq_none.1 (h symbol (Array.mem_of_getElem? hsymbol))

end Store

/-- **Substitution in the store refines substitution on trees.**  In a well-formed store without
cycles, if no class that a type mentions is still to be loaded, the handle that substitution returns
reads as the substituted tree; it is the old handle exactly if nothing in the tree changes; and
every other handle reads as before. -/
theorem substitution_refines (start : Completer → SymbolId → Run (Except CompletionError Unit))
    (s : Session) (ty : TypeId) (sources targets : List TypeId) (depth : Nat)
    (hwf : s.store.WellFormed) (hac : s.store.Acyclic) (hty : s.store.Has ty)
    (hpairs : ∀ p ∈ sources.zip targets, s.store.Has p.1 ∧ s.store.Has p.2)
    (hpending : s.store.NonePending ty) (hdepth : s.store.types.size ≤ depth) :
    (∃ t, s.store.Reads ty t) ∧ (∃ ρ, s.store.Describes (sources.zip targets) ρ) ∧
      ∀ t ρ, s.store.Reads ty t → s.store.Describes (sources.zip targets) ρ →
        (substitute (completeSymbol start) depth (.ofLists sources targets) ty).Returns s
          fun image s' => s'.store.Reads image (t.subst ρ) ∧ (image = ty ↔ t.changes ρ = false) ∧
            ∀ a u, s.store.Reads a u → s'.store.Reads a u := by
  obtain ⟨t₀, ht₀⟩ := hwf.exists_readsIn_size hac hty
  refine ⟨⟨t₀, _, ht₀⟩, hwf.exists_describes hac hpairs, fun t ρ ht hρ => ?_⟩
  -- the number of types is depth enough for the one tree that the handle reads as
  obtain rfl := ht.unique ⟨_, ht₀⟩
  have hloaded := hpending.loaded hwf _ ty t ht₀
  refine Returns.imp (substitute_computes _ hdepth hρ s ty t (.refl _) ht₀ hloaded) ?_
  exact fun image s' h => ⟨h.reads, h.same, fun a u hu => hu.grows h.grows⟩

/-- A store with a class `Box` of one parameter `T`, a type variable `U`, another occurrence of `T`,
and a method type `(Box<T>, U[]) T` quantified over `T`. -/
def boxStore : Store :=
  (Session.afterCommands
    [.newTypeVar "T" none none, .newTypeVar "U" none none, .copyTypeVar (.handle ⟨12⟩) [],
      .declareClass "Box" none .none none, .defineClass (.handle ⟨15⟩) [.handle ⟨12⟩] [] [] none [],
      .classType (.handle ⟨13⟩) none [.handle ⟨14⟩] [] [] none false,
      .arrayType (.handle ⟨13⟩) (some (.named "A")) none,
      .methodType [.handle ⟨16⟩, .handle ⟨17⟩] (.handle ⟨12⟩) [],
      .forAll [.handle ⟨12⟩] [] [] (.handle ⟨18⟩)]).store

/-- A session over a store, with nothing named and nobody reading the log. -/
def Session.ofStore (store : Store) : Session := ⟨store, ⟨[], []⟩, .empty, []⟩

/-- Under the quantifier both occurrences of `T` stay, while the array of `U` is rebuilt. -/
theorem substitution_refines_under_quantifier :
    (boxStore.WellFormed ∧ boxStore.Acyclic ∧ boxStore.NonePending ⟨19⟩) ∧
      ∃ t ρ, boxStore.Reads ⟨19⟩ t ∧ boxStore.Describes [(⟨12⟩, ⟨3⟩), (⟨13⟩, ⟨15⟩)] ρ ∧
        (substitute (completeSymbol fun _ _ => pure (.ok ())) 20
          (.ofLists [⟨12⟩, ⟨13⟩] [⟨3⟩, ⟨15⟩]) ⟨19⟩).Returns (.ofStore boxStore)
          fun image s' => s'.store.Reads image (t.subst ρ) ∧ (image = ⟨19⟩ ↔ t.changes ρ = false) ∧
            ∀ a u, boxStore.Reads a u → s'.store.Reads a u := by
  have hwf : boxStore.WellFormed := by decide
  have hac : boxStore.Acyclic := Store.Layered.acyclic (by decide)
  have hpending : boxStore.NonePending ⟨19⟩ := Store.nonePending_of_symbols (by decide)
  obtain ⟨⟨t, ht⟩, ⟨ρ, hρ⟩, hreturns⟩ := substitution_refines (fun _ _ => pure (.ok ()))
    (.ofStore boxStore) ⟨19⟩ [⟨12⟩, ⟨13⟩] [⟨3⟩, ⟨15⟩] 20 hwf hac (by decide) (by decide) hpending
    (by decide)
  exact ⟨⟨hwf, hac, hpending⟩, t, ρ, ht, hρ, hreturns t ρ ht hρ⟩

/-- A store with a type variable `T` and a type quantified over nothing whose body is `T`. -/
def emptyQuantifierStore : Store :=
  (Session.afterCommands [.newTypeVar "T" none none, .forAll [] [] [] (.handle ⟨12⟩)]).store

/-- A quantified type shares the symbol of its body, so it does not keep its symbol when another
body is put in: here the symbol of `T` gives way to that of `int`. -/
theorem quantified_symbol_not_kept :
    (emptyQuantifierStore.WellFormed ∧ emptyQuantifierStore.Acyclic ∧
        emptyQuantifierStore.NonePending ⟨13⟩) ∧
      (substitute (completeSymbol fun _ _ => pure (.ok ())) 14
        (.ofLists [⟨12⟩] [WellKnown.int]) ⟨13⟩).Returns (.ofStore emptyQuantifierStore)
        fun image s' => ∃ before after, emptyQuantifierStore.type? ⟨13⟩ = some before ∧
          s'.store.type? image = some after ∧ before.symbol = some ⟨11⟩ ∧ after.symbol = some ⟨3⟩ := by
  refine ⟨⟨by decide, Store.Layered.acyclic (by decide), Store.nonePending_of_symbols (by decide)⟩, ?_⟩
  exact ⟨_, _, rfl, _, _, rfl, rfl, rfl, rfl⟩

end RegionTypes

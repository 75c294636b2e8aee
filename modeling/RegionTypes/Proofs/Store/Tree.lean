import Mathlib.Data.List.Forall2
import RegionTypes.Proofs.Store.Components

/-!
# Types as trees

A handle, with everything that can be reached from it through components, read as a **tree**.  Trees
say what a type is without saying where it stands in the store; only variables and types without
components keep their handles, since these are what a variable is recognised by.

* `Tree` — the syntax of types.
* `Store.Node`, `Store.ReadsIn`, `Store.Reads` — a handle reads as a tree: one rule for each kind,
  applied to a given depth or to any depth.
* `Store.Reads.unique` — a handle reads as one tree only.
* `Store.WellFormed.exists_readsIn` — **in a well-formed store without cycles every handle reads as
  a tree**, and the number of types bounds its depth.
* `Store.Reads.readsIn_size` — no tree is deeper than the store has types, cycles elsewhere or not.
* `Store.Grows`, `Store.Reads.grows` — a store that only grows keeps what its handles read as.
-/

namespace RegionTypes

/-- What a class type records besides its class data. -/
structure Head where
  symbol : Option SymbolId
  erased : Bool
  literal : Option Literal
  deriving DecidableEq

/-- The head of a recorded type. -/
def TypeData.head (data : TypeData) : Head := ⟨data.symbol, data.erased, data.literal⟩

/-- A type variable as it is recognised: by its handle or by its symbol. -/
structure Occurrence where
  ty : TypeId
  symbol : Option SymbolId
  deriving DecidableEq

/-- The syntax of types. -/
inductive Tree where
  /-- A type without components. -/
  | leaf (ty : TypeId) (data : TypeData)
  /-- A type variable, captured or not. -/
  | var (ty : TypeId) (data : TypeData)
  | classType (head : Head) (outer : Tree) (args : List Tree) (regionArgs : Option (List Path))
      (effectArgs : Option (List Summary)) (cellType : Option TypeId)
  | array (elem : Tree) (region : Path) (indexVar : Option SymbolId)
  | method (params : List Tree) (result : Tree) (thrown : List Tree) (actuals : Option CallActuals)
  | forAll (symbol : Option SymbolId) (typeVars : List Occurrence) (regionVars : List Path)
      (effectVars : List Summary) (body : Tree)
  | wildcard (bound : Tree) (kind : BoundKind) (formal : Option TypeId)

/-- The symbol of a type. -/
def Tree.symbol : Tree → Option SymbolId
  | leaf _ data | var _ data => data.symbol
  | classType head .. => head.symbol
  | forAll symbol .. => symbol
  | array .. | method .. | wildcard .. => none

/-- The forms that a tree can have. -/
inductive Shape where
  | leaf | var | classType | array | method | forAll | wildcard
  deriving DecidableEq, Repr

/-- The forms of types that have no symbol. -/
def Shape.unnamed : Shape → Bool
  | array | method | wildcard => true
  | _ => false

/-- The forms of types that are never erased and carry no literal. -/
def Shape.plain : Shape → Bool
  | array | method | wildcard | forAll => true
  | _ => false

/-- The form of the trees that types of this kind read as. -/
def Kind.shape : Kind → Shape
  | primitive _ | void | missing | bottom | package | error _ | placeholder _ => .leaf
  | typeVar _ | captured .. => .var
  | classType _ => .classType
  | array _ => .array
  | method _ => .method
  | forAll _ => .forAll
  | wildcard _ => .wildcard

theorem Kind.components_of_shape {k : Kind} (h : k.shape = .leaf ∨ k.shape = .var) :
    k.components = [] := by
  cases k <;> simp_all [Kind.shape, Kind.components]

/-- The form of a tree. -/
def Tree.shape : Tree → Shape
  | leaf .. => .leaf
  | var .. => .var
  | classType .. => .classType
  | array .. => .array
  | method .. => .method
  | forAll .. => .forAll
  | wildcard .. => .wildcard

/-- A quantified variable as the store records it. -/
def Store.Binds (s : Store) (ty : TypeId) (v : Occurrence) : Prop :=
  ∃ data, s.type? ty = some data ∧ v = ⟨ty, data.symbol⟩

/-- The record behind a handle reads as a tree, given what its components read as.  Arrays, methods
and wildcards have no symbol, and only class types are erased or carry a literal. -/
inductive Store.Node (s : Store) (reads : TypeId → Tree → Prop) (ty : TypeId) : Tree → Prop
  | leaf {data : TypeData} (record : s.type? ty = some data) (kind : data.kind.shape = .leaf) :
      Node s reads ty (.leaf ty data)
  | var {data : TypeData} (record : s.type? ty = some data) (kind : data.kind.shape = .var) :
      Node s reads ty (.var ty data)
  | classType {data : TypeData} {info : ClassInfo} {outer : Tree} {args : List Tree}
      (record : s.type? ty = some data) (kind : data.kind = .classType info)
      (encloses : reads info.outer outer) (takes : List.Forall₂ reads (info.typeArgs.getD []) args) :
      Node s reads ty
        (.classType data.head outer args info.regionArgs info.effectArgs info.cellType)
  | array {info : ArrayInfo} {elem : Tree}
      (record : s.type? ty = some { symbol := none, kind := .array info })
      (holds : reads info.elem elem) : Node s reads ty (.array elem info.region info.indexVar)
  | method {info : MethodInfo} {params thrown : List Tree} {result : Tree}
      (record : s.type? ty = some { symbol := none, kind := .method info })
      (takes : List.Forall₂ reads info.params params) (gives : reads info.result result)
      (throws : List.Forall₂ reads info.thrown thrown) :
      Node s reads ty (.method params result thrown info.actuals)
  | forAll {symbol : Option SymbolId} {info : ForAllInfo} {vars : List Occurrence} {body : Tree}
      (record : s.type? ty = some { symbol, kind := .forAll info })
      (binds : List.Forall₂ s.Binds info.typeVars vars) (holds : reads info.body body) :
      Node s reads ty (.forAll symbol vars info.regionVars info.effectVars body)
  | wildcard {info : WildcardInfo} {bound : Tree}
      (record : s.type? ty = some { symbol := none, kind := .wildcard info })
      (holds : reads info.bound bound) : Node s reads ty (.wildcard bound info.kind info.formal)

variable {p q : TypeId → Tree → Prop} {data : TypeData}

namespace Store

variable {s s' : Store} {ty : TypeId} {t u : Tree} {m n : Nat}

/-- A handle reads as a tree of at most the given depth. -/
def ReadsIn (s : Store) : Nat → TypeId → Tree → Prop
  | 0, _, _ => False
  | n + 1, ty, t => s.Node (s.ReadsIn n) ty t

/-- A handle reads as a tree. -/
def Reads (s : Store) (ty : TypeId) (t : Tree) : Prop := ∃ n, s.ReadsIn n ty t

/-- A node stays one if what its components read as does. -/
theorem Node.imp_of_edge (h : s.Node p ty t) (hpq : ∀ a u, s.Edge ty a → p a u → q a u) :
    s.Node q ty t := by
  have hlist {data : TypeData} {types : List TypeId} {ts : List Tree}
      (record : s.type? ty = some data) (hsub : ∀ a ∈ types, a ∈ data.kind.components)
      (h : List.Forall₂ p types ts) : List.Forall₂ q types ts := by
    refine ((List.forall₂_and_left _ _).2 ⟨hsub, h⟩).imp ?_
    rintro a u ⟨ha, hu⟩
    exact hpq a u ⟨data, record, ha⟩ hu
  cases h with
  | leaf record kind => exact .leaf record kind
  | var record kind => exact .var record kind
  | classType record kind encloses takes =>
    refine .classType record kind (hpq _ _ ⟨_, record, ?_⟩ encloses) (hlist record ?_ takes)
    · rw [kind]
      exact List.mem_cons_self
    · rw [kind]
      exact fun a ha => List.mem_cons_of_mem _ ha
  | array record holds => exact .array record (hpq _ _ ⟨_, record, List.mem_cons_self⟩ holds)
  | method record takes gives throws =>
    refine .method record (hlist record ?_ takes) (hpq _ _ ⟨_, record, ?_⟩ gives)
      (hlist record ?_ throws)
    · exact fun a ha => List.mem_append_left _ ha
    · exact List.mem_append_right _ List.mem_cons_self
    · exact fun a ha => List.mem_append_right _ (List.mem_cons_of_mem _ ha)
  | forAll record binds holds =>
    exact .forAll record binds (hpq _ _ ⟨_, record, List.mem_cons_self⟩ holds)
  | wildcard record holds =>
    exact .wildcard record (hpq _ _ ⟨_, record, List.mem_cons_self⟩ holds)

theorem Node.imp (h : s.Node p ty t) (hpq : ∀ a u, p a u → q a u) :
    s.Node q ty t :=
  h.imp_of_edge fun a u _ => hpq a u

theorem ReadsIn.succ : ∀ {n : Nat} {ty : TypeId} {t : Tree}, s.ReadsIn n ty t → s.ReadsIn (n + 1) ty t
  | 0, _, _, h => h.elim
  | _ + 1, _, _, h => Node.imp h fun _ _ => ReadsIn.succ

theorem ReadsIn.mono (h : s.ReadsIn m ty t) (hmn : m ≤ n) : s.ReadsIn n ty t := by
  induction hmn with
  | refl => exact h
  | step _ ih => exact ih.succ

/-! ### A handle reads as one tree -/

theorem Binds.unique {v w : Occurrence} (hv : s.Binds ty v) (hw : s.Binds ty w) : v = w := by
  obtain ⟨data, hdata, rfl⟩ := hv
  obtain ⟨data', hdata', rfl⟩ := hw
  rw [Option.mem_unique hdata hdata']

theorem Node.exists_record (h : s.Node p ty t) :
    ∃ data, s.type? ty = some data ∧ t.shape = data.kind.shape ∧ data.symbol = t.symbol := by
  cases h with
  | leaf record kind | var record kind => exact ⟨_, record, kind.symm, rfl⟩
  | classType record kind => exact ⟨_, record, by rw [kind]; rfl, rfl⟩
  | array record | method record | forAll record | wildcard record => exact ⟨_, record, rfl, rfl⟩

theorem Node.shape (h : s.Node p ty t) (record : s.type? ty = some data) :
    t.shape = data.kind.shape := by
  obtain ⟨data', record', hshape, -⟩ := h.exists_record
  rwa [Option.mem_unique record record']

theorem Node.unique (hp : Relator.RightUnique p) (h : s.Node p ty t) (h' : s.Node p ty u) : t = u := by
  have hlists : Relator.RightUnique (List.Forall₂ p) := hp.forall₂
  have hbinds : Relator.RightUnique (List.Forall₂ s.Binds) :=
    Relator.RightUnique.forall₂ fun _ _ _ => Binds.unique
  obtain ⟨data, hdata, ht, -⟩ := h.exists_record
  have hshape : t.shape = u.shape := ht.trans (h'.shape hdata).symm
  cases h with
  | leaf record =>
    cases h' with
    | leaf record' => rw [Option.mem_unique record record']
    | _ => cases hshape
  | var record =>
    cases h' with
    | var record' => rw [Option.mem_unique record record']
    | _ => cases hshape
  | classType record kind encloses takes =>
    cases h' with
    | classType record' kind' encloses' takes' =>
      obtain rfl := Option.mem_unique record record'
      obtain rfl := Kind.classType.inj (kind.symm.trans kind')
      rw [hp encloses encloses', hlists takes takes']
    | _ => cases hshape
  | array record holds =>
    cases h' with
    | array record' holds' =>
      obtain rfl : _ = _ := by simpa using record.symm.trans record'
      rw [hp holds holds']
    | _ => cases hshape
  | method record takes gives throws =>
    cases h' with
    | method record' takes' gives' throws' =>
      obtain rfl : _ = _ := by simpa using record.symm.trans record'
      rw [hlists takes takes', hp gives gives', hlists throws throws']
    | _ => cases hshape
  | forAll record binds holds =>
    cases h' with
    | forAll record' binds' holds' =>
      obtain ⟨rfl, rfl⟩ : _ = _ ∧ _ = _ := by simpa using record.symm.trans record'
      rw [hbinds binds binds', hp holds holds']
    | _ => cases hshape
  | wildcard record holds =>
    cases h' with
    | wildcard record' holds' =>
      obtain rfl : _ = _ := by simpa using record.symm.trans record'
      rw [hp holds holds']
    | _ => cases hshape

theorem ReadsIn.unique : ∀ n, Relator.RightUnique (s.ReadsIn n)
  | 0, _, _, _, h, _ => h.elim
  | n + 1, _, _, _, h, h' => Node.unique (ReadsIn.unique n) h h'

/-- **Reading is a function.** -/
theorem Reads.unique (h : s.Reads ty t) (h' : s.Reads ty u) : t = u := by
  obtain ⟨m, hm⟩ := h
  obtain ⟨n, hn⟩ := h'
  exact ReadsIn.unique (max m n) (hm.mono (Nat.le_max_left ..)) (hn.mono (Nat.le_max_right ..))

theorem Reads.symbol (h : s.Reads ty t) : ∃ data, s.type? ty = some data ∧ data.symbol = t.symbol := by
  obtain ⟨n, hn⟩ := h
  cases n with
  | zero => exact hn.elim
  | succ =>
    obtain ⟨data, hdata, -, hsymbol⟩ := Node.exists_record hn
    exact ⟨data, hdata, hsymbol⟩

/-! ### Every handle reads as a tree -/

/-- What the constructors of types see to when they add a record: components, quantified variables
and the symbol belong to the store; arrays, methods and wildcards have no symbol; only class types
and types without components are erased or carry a literal. -/
structure Accepts (s : Store) (data : TypeData) : Prop where
  components : ∀ c ∈ data.kind.components, s.Has c
  binders : ∀ v ∈ data.kind.binders, s.Has v
  symbols : ∀ sym ∈ data.symbol, (s.symbol? sym).isSome
  unnamed : data.kind.shape.unnamed → data.symbol = none
  plain : data.kind.shape.plain → data.erased = false ∧ data.literal = none

instance (s : Store) (data : TypeData) : Decidable (s.Accepts data) :=
  decidable_of_iff
    ((∀ c ∈ data.kind.components, s.Has c) ∧ (∀ v ∈ data.kind.binders, s.Has v) ∧
      (∀ sym ∈ data.symbol, (s.symbol? sym).isSome) ∧
      (data.kind.shape.unnamed → data.symbol = none) ∧
      (data.kind.shape.plain → data.erased = false ∧ data.literal = none))
    ⟨fun ⟨h₁, h₂, h₃, h₄, h₅⟩ => ⟨h₁, h₂, h₃, h₄, h₅⟩,
      fun h => ⟨h.components, h.binders, h.symbols, h.unnamed, h.plain⟩⟩

/-- Every record of the store is as the constructors make them. -/
def WellFormed (s : Store) : Prop := ∀ data ∈ s.types, s.Accepts data

instance (s : Store) : Decidable s.WellFormed :=
  inferInstanceAs (Decidable (∀ data ∈ s.types, s.Accepts data))

theorem mem_types (h : s.type? ty = some data) : data ∈ s.types :=
  Array.mem_of_getElem? h

theorem exists_forall₂ {α β : Type} {r : α → β → Prop} :
    ∀ {l : List α}, (∀ a ∈ l, ∃ b, r a b) → ∃ l', List.Forall₂ r l l'
  | [], _ => ⟨[], .nil⟩
  | a :: l, h => by
    obtain ⟨b, hb⟩ := h a List.mem_cons_self
    obtain ⟨l', hl⟩ := exists_forall₂ fun x hx => h x (List.mem_cons_of_mem a hx)
    exact ⟨b :: l', .cons hb hl⟩

/-- A record reads as a tree if its components do. -/
theorem WellFormed.exists_node (hwf : s.WellFormed) (hty : s.type? ty = some data)
    (hp : ∀ c ∈ data.kind.components, ∃ u, p c u) :
    ∃ t, s.Node p ty t := by
  obtain ⟨-, hbinders, -, hunnamed, hplain⟩ := hwf data (mem_types hty)
  obtain ⟨symbol, erased, literal, kind⟩ := data
  cases kind with
  | classType info =>
    obtain ⟨outer, houter⟩ := hp info.outer List.mem_cons_self
    obtain ⟨args, hargs⟩ := exists_forall₂ fun c hc => hp c (List.mem_cons_of_mem _ hc)
    exact ⟨_, .classType hty rfl houter hargs⟩
  | array info =>
    obtain ⟨rfl, rfl⟩ := hplain rfl
    obtain rfl := hunnamed rfl
    obtain ⟨elem, helem⟩ := hp info.elem List.mem_cons_self
    exact ⟨_, .array hty helem⟩
  | method info =>
    obtain ⟨rfl, rfl⟩ := hplain rfl
    obtain rfl := hunnamed rfl
    obtain ⟨params, hparams⟩ := exists_forall₂ fun c hc => hp c (List.mem_append_left _ hc)
    obtain ⟨result, hresult⟩ := hp info.result (List.mem_append_right _ List.mem_cons_self)
    obtain ⟨thrown, hthrown⟩ := exists_forall₂ fun c hc =>
      hp c (List.mem_append_right _ (List.mem_cons_of_mem _ hc))
    exact ⟨_, .method hty hparams hresult hthrown⟩
  | forAll info =>
    obtain ⟨rfl, rfl⟩ := hplain rfl
    have hvars : ∀ v ∈ info.typeVars, ∃ w, s.Binds v w := by
      intro v hv
      obtain ⟨data, hdata⟩ := has_iff.1 (hbinders v hv)
      exact ⟨_, data, hdata, rfl⟩
    obtain ⟨vars, hbinds⟩ := exists_forall₂ hvars
    obtain ⟨body, hbody⟩ := hp info.body List.mem_cons_self
    exact ⟨_, .forAll hty hbinds hbody⟩
  | wildcard info =>
    obtain ⟨rfl, rfl⟩ := hplain rfl
    obtain rfl := hunnamed rfl
    obtain ⟨bound, hbound⟩ := hp info.bound List.mem_cons_self
    exact ⟨_, .wildcard hty hbound⟩
  | typeVar | captured => exact ⟨_, .var hty rfl⟩
  | _ => exact ⟨_, .leaf hty rfl⟩

/-- **Every handle reads as a tree**, in a depth that exceeds the number of types below it. -/
theorem WellFormed.exists_readsIn (hwf : s.WellFormed) (hac : s.Acyclic) :
    ∀ n ty, s.Has ty → s.height ty < n → ∃ t, s.ReadsIn n ty t := by
  intro n
  induction n with
  | zero => intro ty _ hn; omega
  | succ n ih =>
    intro ty hty hn
    obtain ⟨data, hdata⟩ := has_iff.1 hty
    refine hwf.exists_node hdata fun c hc => ?_
    have hedge : s.Edge ty c := ⟨data, hdata, hc⟩
    have hc' := (hwf data (mem_types hdata)).components c hc
    have hlower := height_lt_of_edge hac hc' hedge
    exact ih c hc' (by omega)

/-- The number of types is depth enough. -/
theorem WellFormed.exists_readsIn_size (hwf : s.WellFormed) (hac : s.Acyclic) (hty : s.Has ty) :
    ∃ t, s.ReadsIn s.types.size ty t :=
  hwf.exists_readsIn hac _ ty hty (height_lt_size hac hty)

/-! ### The depth of trees -/

theorem exists_of_forall₂ {α β : Type} {r : α → β → Prop} {a : α} {l : List α} {l' : List β}
    (h : List.Forall₂ r l l') (ha : a ∈ l) : ∃ b, r a b := by
  induction h with
  | nil => cases ha
  | cons hab _ ih =>
    obtain rfl | ha := List.mem_cons.1 ha
    · exact ⟨_, hab⟩
    · exact ih ha

theorem Node.exists_of_edge {c : TypeId} (h : s.Node p ty t) (hedge : s.Edge ty c) : ∃ u, p c u := by
  obtain ⟨data, hdata, hc⟩ := hedge
  have hmem {d : TypeData} (hd : s.type? ty = some d) : c ∈ d.kind.components :=
    Option.mem_unique hdata hd ▸ hc
  cases h with
  | leaf record kind =>
    have hc := hmem record
    rw [Kind.components_of_shape (.inl kind)] at hc
    cases hc
  | var record kind =>
    have hc := hmem record
    rw [Kind.components_of_shape (.inr kind)] at hc
    cases hc
  | classType record kind encloses takes =>
    have hc := hmem record
    rw [kind] at hc
    obtain rfl | hc := List.mem_cons.1 hc
    · exact ⟨_, encloses⟩
    · exact exists_of_forall₂ takes hc
  | array record holds => exact ⟨_, List.mem_singleton.1 (hmem record) ▸ holds⟩
  | method record takes gives throws =>
    obtain hc | hc := List.mem_append.1 (hmem record)
    · exact exists_of_forall₂ takes hc
    · obtain rfl | hc := List.mem_cons.1 hc
      · exact ⟨_, gives⟩
      · exact exists_of_forall₂ throws hc
  | forAll record _ holds => exact ⟨_, List.mem_singleton.1 (hmem record) ▸ holds⟩
  | wildcard record holds => exact ⟨_, List.mem_singleton.1 (hmem record) ▸ holds⟩

theorem ReadsIn.has (h : s.ReadsIn n ty t) : s.Has ty := by
  cases n with
  | zero => exact h.elim
  | succ =>
    obtain ⟨data, hdata, -⟩ := Node.exists_record h
    exact has_iff.2 ⟨data, hdata⟩

/-- A type that reads as a tree is no part of itself. -/
theorem ReadsIn.not_cyclic (n : Nat) : ∀ {ty : TypeId} {t : Tree}, s.ReadsIn n ty t →
    ¬ Relation.TransGen s.Edge ty ty := by
  induction n with
  | zero => exact fun h => h.elim
  | succ n ih =>
    intro ty t h hcycle
    -- the cycle goes through a component, which reads as a tree of smaller depth
    obtain ⟨c, hedge, hback⟩ := Relation.TransGen.head'_iff.1 hcycle
    obtain ⟨u, hu⟩ := Node.exists_of_edge h hedge
    exact ih hu (.tail' hback hedge)

theorem ReadsIn.of_height (m : Nat) : ∀ {n : Nat} {ty : TypeId} {t : Tree}, s.ReadsIn n ty t →
    s.height ty < m → s.ReadsIn m ty t := by
  induction m with
  | zero => intro _ _ _ _ hm; omega
  | succ m ih =>
    intro n ty t h hm
    cases n with
    | zero => exact h.elim
    | succ n =>
      refine Node.imp_of_edge h fun a u hedge hu => ih hu ?_
      have hlower := height_lt_of_not_cyclic (hu.not_cyclic n) hu.has hedge
      omega

/-- **No tree is deeper than the store has types.** -/
theorem Reads.readsIn_size (h : s.Reads ty t) : s.ReadsIn s.types.size ty t := by
  obtain ⟨n, hn⟩ := h
  exact hn.of_height _ (height_lt_size_of_not_cyclic (hn.not_cyclic n) hn.has)

end Store

/-! ### Growing stores -/

/-- A record after a look at its type arguments: those of a class that never got any are settled as
empty. -/
inductive TypeData.Settles : TypeData → TypeData → Prop
  | same (data : TypeData) : Settles data data
  | emptied {data : TypeData} {info : ClassInfo} (kind : data.kind = .classType info)
      (unset : info.typeArgs = none) :
      Settles data { data with kind := .classType { info with typeArgs := some [] } }

variable {d e : TypeData}

theorem TypeData.Settles.eq_of_shape_ne (h : d.Settles e) (hd : d.kind.shape ≠ .classType) : e = d := by
  cases h with
  | same => rfl
  | emptied kind =>
    rw [kind] at hd
    exact absurd rfl hd

theorem TypeData.Settles.trans {f : TypeData} (h : d.Settles e) (h' : e.Settles f) :
    d.Settles f := by
  cases h with
  | same => exact h'
  | emptied kind unset =>
    cases h' with
    | same => exact .emptied kind unset
    | emptied kind' unset' =>
      obtain rfl := Kind.classType.inj kind'
      cases unset'

/-- The store has at most new types, and classes whose missing type arguments were settled. -/
structure Store.Grows (s s' : Store) : Prop where
  types : ∀ ty data, s.type? ty = some data → ∃ data', s'.type? ty = some data' ∧ data.Settles data'
  symbols : ∀ sym, s'.symbol? sym = s.symbol? sym

namespace Store

variable {s s' s'' : Store} {ty : TypeId} {t : Tree} {n : Nat}

theorem Grows.refl (s : Store) : s.Grows s :=
  ⟨fun _ data h => ⟨data, h, .same data⟩, fun _ => rfl⟩

theorem Grows.trans (h : s.Grows s') (h' : s'.Grows s'') : s.Grows s'' where
  types ty data hty := by
    obtain ⟨data', hty', hset⟩ := h.types ty data hty
    obtain ⟨data'', hty'', hset'⟩ := h'.types ty data' hty'
    exact ⟨data'', hty'', hset.trans hset'⟩
  symbols sym := (h'.symbols sym).trans (h.symbols sym)

theorem Grows.has (h : s.Grows s') (hty : s.Has ty) : s'.Has ty := by
  obtain ⟨data, hdata⟩ := has_iff.1 hty
  obtain ⟨data', hdata', -⟩ := h.types ty data hdata
  exact has_iff.2 ⟨data', hdata'⟩

theorem Grows.record (h : s.Grows s') (hty : s.type? ty = some data)
    (hshape : data.kind.shape ≠ .classType) : s'.type? ty = some data := by
  obtain ⟨data', hty', hset⟩ := h.types ty data hty
  rwa [hset.eq_of_shape_ne hshape] at hty'

/-- The record of a class type stays one, with at most its missing type arguments settled. -/
theorem Grows.classRecord (h : s.Grows s') {info : ClassInfo} (hty : s.type? ty = some data)
    (kind : data.kind = .classType info) :
    ∃ args, args.getD [] = info.typeArgs.getD [] ∧
      s'.type? ty = some { data with kind := .classType { info with typeArgs := args } } := by
  obtain ⟨data', hty', hset⟩ := h.types ty data hty
  cases hset with
  | same => exact ⟨info.typeArgs, rfl, by rw [hty', ← kind]⟩
  | emptied kind' unset =>
    obtain rfl := Kind.classType.inj (kind.symm.trans kind')
    exact ⟨some [], by rw [unset]; rfl, hty'⟩

theorem Grows.binds (h : s.Grows s') {v : Occurrence} (hv : s.Binds ty v) : s'.Binds ty v := by
  obtain ⟨data, hdata, rfl⟩ := hv
  obtain ⟨data', hdata', hset⟩ := h.types ty data hdata
  exact ⟨data', hdata', by cases hset <;> rfl⟩

theorem not_has_nextType (s : Store) : ¬ s.Has s.nextType := by
  rw [has_iff_lt]
  exact Nat.lt_irrefl _

theorem grows_pushType (s : Store) (data : TypeData) : s.Grows (s.pushType data) where
  types _ d hty := ⟨d, type?_pushType_of_some hty data, .same d⟩
  symbols sym := symbol?_pushType s data sym

theorem Node.grows (hgrows : s.Grows s') (h : s.Node p ty t) (hpq : ∀ a u, p a u → q a u) :
    s'.Node q ty t := by
  cases h with
  | leaf record kind =>
    exact .leaf (hgrows.record record (by rw [kind]; decide)) kind
  | var record kind =>
    exact .var (hgrows.record record (by rw [kind]; decide)) kind
  | classType record kind encloses takes =>
    obtain ⟨args, hargs, record'⟩ := hgrows.classRecord record kind
    rw [← hargs] at takes
    have hnode := Node.classType record' rfl (hpq _ _ encloses) (takes.imp hpq)
    exact hnode
  | array record holds => exact .array (hgrows.record record nofun) (hpq _ _ holds)
  | method record takes gives throws =>
    exact .method (hgrows.record record nofun) (takes.imp hpq) (hpq _ _ gives)
      (throws.imp hpq)
  | forAll record binds holds =>
    exact .forAll (hgrows.record record nofun) (binds.imp fun _ _ => hgrows.binds)
      (hpq _ _ holds)
  | wildcard record holds => exact .wildcard (hgrows.record record nofun) (hpq _ _ holds)

theorem ReadsIn.grows (hgrows : s.Grows s') :
    ∀ {n : Nat} {ty : TypeId} {t : Tree}, s.ReadsIn n ty t → s'.ReadsIn n ty t
  | 0, _, _, h => h.elim
  | _ + 1, _, _, h => Node.grows hgrows h fun _ _ => ReadsIn.grows hgrows

/-- **What a handle reads as never changes.** -/
theorem Reads.grows (hgrows : s.Grows s') (h : s.Reads ty t) : s'.Reads ty t :=
  h.imp fun _ => ReadsIn.grows hgrows

theorem Node.reads (h : s.Node s.Reads ty t) : s.Reads ty t :=
  ⟨s.types.size + 1, h.imp fun _ _ => Reads.readsIn_size⟩

end Store

end RegionTypes

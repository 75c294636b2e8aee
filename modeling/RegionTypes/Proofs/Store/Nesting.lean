import RegionTypes.Proofs.Completion.Anchored

/-!
# How deep structural questions go

The types of a store refer to each other in circles, through symbols, bounds, supertypes, cell types and
solutions.  Structural questions do not follow these.  They go from a type to its components, from a
placeholder to its origin and from a use of a class to the canonical type of the class, and each such step
leads to a type with a smaller handle or to one that is made of no others.

* `Store.DeclaresVariables`, `Store.ThrowsOlder`, `Store.Unsolved`, `Store.NothingPending` — what is asked
  of a store; all of this can be decided.
* `Store.Settled` — what questions rely on, besides what holds of every store that has grown out of a new
  one.
* `Store.Settled.inspected`, `Store.Settled.canonical` — **every step of a structural question leads to a
  lower level**.
* `Store.Settled.edge_lower` — so do the steps to components, if methods throw older types.
-/

namespace RegionTypes

variable {c : TypeId} {k : Kind}

/-! ### What a type may be told -/

/-- The type parameters of a class that has got its signature. -/
def ClassInfo.parameters (info : ClassInfo) : List TypeId :=
  if info.interfaces.isSome then info.typeArgs.getD [] else []

/-- The type parameters that a type was told when its class was defined. -/
def Kind.parameters : Kind → List TypeId
  | classType info => info.parameters
  | _ => []

/-- The types that a method type throws. -/
def Kind.thrown : Kind → List TypeId
  | method info => info.thrown
  | _ => []

/-- Whether a placeholder of the kind is solved. -/
def Kind.isSolved : Kind → Bool
  | placeholder info => info.solution.isSome
  | _ => false

theorem ClassInfo.mem_written_or_parameters {info : ClassInfo} (h : c ∈ info.typeArgs.getD []) :
    c ∈ info.written ∨ c ∈ info.parameters := by
  cases hset : info.interfaces with
  | none => simp [written, hset, h]
  | some => simp [parameters, hset, h]

/-- Where errors are looked for in a type of some kind. -/
theorem Kind.of_mem_inspected (h : c ∈ k.inspected) :
    k.tag.atomic = false ∧ (c ∈ k.ingredients ∨ c ∈ k.parameters) := by
  cases k with
  | classType =>
    refine ⟨rfl, ?_⟩
    rcases List.mem_cons.1 h with rfl | harg
    · exact .inl List.mem_cons_self
    · exact (ClassInfo.mem_written_or_parameters harg).imp (List.mem_cons_of_mem _) id
  | array | forAll | placeholder =>
    obtain rfl := List.mem_singleton.1 h
    exact ⟨rfl, .inl List.mem_cons_self⟩
  | method =>
    refine ⟨rfl, .inl ?_⟩
    simp only [inspected] at h
    simp only [ingredients]
    grind
  | _ => cases h

theorem Kind.of_mem_components (h : c ∈ k.components) :
    k.tag.atomic = false ∧ ((c ∈ k.ingredients ∨ c ∈ k.parameters) ∨ c ∈ k.thrown) := by
  cases k with
  | classType | array | forAll => exact (of_mem_inspected h).imp id .inl
  | method =>
    refine ⟨rfl, ?_⟩
    simp only [components] at h
    simp only [ingredients, thrown]
    grind
  | wildcard =>
    obtain rfl := List.mem_singleton.1 h
    exact ⟨rfl, .inl (.inl List.mem_cons_self)⟩
  | _ => cases h

namespace Store

variable {s : Store} {ty a b c : TypeId} {data : TypeData} {sym : SymbolId}

/-- The type parameters of classes are type variables. -/
def DeclaresVariables (s : Store) : Prop :=
  ∀ data ∈ s.types, ∀ c ∈ data.kind.parameters, (s.kind? c).map Kind.tag = some .typeVar

instance (s : Store) : Decidable s.DeclaresVariables :=
  inferInstanceAs (Decidable
    (∀ data ∈ s.types, ∀ c ∈ data.kind.parameters, (s.kind? c).map Kind.tag = some .typeVar))

/-- The types that a method throws are older than the method. -/
def ThrowsOlder (s : Store) : Prop :=
  ∀ ty data, s.type? ty = some data → ∀ c ∈ data.kind.thrown, c.index < ty.index

instance (s : Store) : Decidable s.ThrowsOlder :=
  decidable_of_iff (∀ p ∈ s.types.zipIdx, ∀ c ∈ p.1.kind.thrown, c.index < p.2) <| by
    constructor
    · intro h ty data record
      exact h (data, ty.index) (Array.mem_zipIdx_iff_getElem?.2 record)
    · intro h p hp
      exact h ⟨p.2⟩ p.1 (Array.mem_zipIdx_iff_getElem?.1 hp)

/-- No placeholder is solved. -/
def Unsolved (s : Store) : Prop := ∀ data ∈ s.types, data.kind.isSolved = false

instance (s : Store) : Decidable s.Unsolved :=
  inferInstanceAs (Decidable (∀ data ∈ s.types, data.kind.isSolved = false))

/-- No class is left to be loaded. -/
def NothingPending (s : Store) : Prop := ∀ y ∈ s.symbols, y.completer = none

instance (s : Store) : Decidable s.NothingPending :=
  inferInstanceAs (Decidable (∀ y ∈ s.symbols, y.completer = none))

/-! ### Steps -/

theorem Consistent.index_pos (hs : s.Consistent) (record : s.type? ty = some data)
    (htag : data.kind.tag.atomic = false) : 0 < ty.index := by
  have hsome : ∃ c, c ∈ data.kind.ingredients := by
    cases hkind : data.kind with
    | classType | array | method | forAll | wildcard | placeholder => simp [Kind.ingredients]
    | primitive p =>
      rw [hkind] at htag
      cases p <;> cases htag
    | _ =>
      rw [hkind] at htag
      cases htag
  obtain ⟨c, hc⟩ := hsome
  have hlt := (hs.types ty data record).older c hc
  omega

/-- An ingredient of a type, or a type parameter, has a lower level than the type. -/
theorem Consistent.lower (hs : s.Consistent) (hparams : s.DeclaresVariables)
    (record : s.type? a = some data) (htag : data.kind.tag.atomic = false)
    (hb : b ∈ data.kind.ingredients ∨ b ∈ data.kind.parameters) :
    s.Has b ∧ s.level b < s.level a := by
  rw [level_of_not_atomic record htag]
  rcases hb with hmem | hmem
  · exact ⟨hs.has_ingredient record hmem,
      Nat.lt_of_le_of_lt (s.level_le b) ((hs.types a data record).older b hmem)⟩
  · obtain ⟨kind, hkind, hvar⟩ := Option.map_eq_some_iff.1 (hparams data (mem_types record) b hmem)
    obtain ⟨data', record', rfl⟩ := Option.map_eq_some_iff.1 hkind
    rw [level_of_atomic record' (by rw [hvar]; rfl)]
    exact ⟨has_iff.2 ⟨data', record'⟩, hs.index_pos record htag⟩

/-- What questions about the types of a store rely on. -/
structure Settled (s : Store) : Prop where
  consistent : s.Consistent
  anchored : s.Anchored
  pending : s.NothingPending
  parameters : s.DeclaresVariables

namespace Settled

variable (h : s.Settled) (record : s.type? ty = some data)

include h record

/-- **What errors are looked for in is lower**; most structural questions go that way. -/
theorem inspected (hc : c ∈ data.kind.inspected) : s.Has c ∧ s.level c < s.level ty := by
  obtain ⟨htag, hpart⟩ := Kind.of_mem_inspected hc
  exact h.consistent.lower h.parameters record htag hpart

/-- **So is the canonical type** of a class: it is the first of the types of the class, or an error. -/
theorem canonical {info : ClassInfo} (hkind : data.kind = .classType info)
    (hcanonical : s.canonical? data.symbol = some c) (hne : c ≠ ty) :
    s.Has c ∧ s.level c < s.level ty := by
  have htag : data.kind.tag.atomic = false := by rw [hkind]; rfl
  rw [level_of_not_atomic record htag]
  obtain ⟨sym, hsym, hy⟩ := Option.bind_eq_some_iff.1 hcanonical
  obtain ⟨y, hy, htype⟩ := Option.bind_eq_some_iff.1 hy
  obtain ⟨data', record', -, hatomic | ⟨-, hfirst⟩⟩ := h.anchored.canonical sym y c hy htype
  · rw [level_of_atomic record' hatomic]
    exact ⟨has_iff.2 ⟨data', record'⟩, h.consistent.index_pos record htag⟩
  · have hle := hfirst ty data record hsym (by rw [hkind]; rfl)
    have hlt : c.index < ty.index :=
      Nat.lt_of_le_of_ne hle fun heq => hne (congrArg TypeId.mk heq)
    exact ⟨has_iff.2 ⟨data', record'⟩, Nat.lt_of_le_of_lt (s.level_le c) hlt⟩

theorem known (hsym : data.symbol = some sym) : ∃ y, s.symbol? sym = some y :=
  exists_symbol (h.anchored.names ty data record sym (by simp [TypeData.names, hsym]))

theorem loaded : s.Loaded data.symbol.toList := by
  intro sym hsym
  obtain ⟨y, hy⟩ := h.known record (Option.mem_toList.1 hsym)
  exact ⟨y, hy, h.pending y (Array.mem_of_getElem? hy)⟩

theorem binders (hc : c ∈ data.kind.binders) : s.Has c := by
  refine h.consistent.has_ingredient record ?_
  cases hkind : data.kind with
  | forAll =>
    rw [hkind] at hc
    exact List.mem_cons_of_mem _ hc
  | _ => simp [hkind, Kind.binders] at hc

/-- The bound that a variable has been told belongs to the store, and so does its prototype. -/
theorem of_var? {info : VarInfo} (hvar : data.kind.var? = some info) :
    (∀ b ∈ info.bound, s.Has b) ∧ ∀ p ∈ info.prototype, s.Has p := by
  have hmentions := h.anchored.mentions ty data record
  have hingredients := fun p => h.consistent.has_ingredient record (c := p)
  cases hkind : data.kind with
  | typeVar info' | captured info' =>
    obtain rfl : info' = info := by simpa [hkind, Kind.var?] using hvar
    rw [hkind] at hmentions hingredients
    refine ⟨fun b hb => hmentions b (Option.mem_toList.2 hb), fun p hp => hingredients p ?_⟩
    simp [Kind.ingredients, Option.mem_def.1 hp]
  | _ => simp [hkind, Kind.var?] at hvar

/-- Steps to components, also to those that methods throw. -/
theorem edge_lower (hthrown : s.ThrowsOlder) (hc : c ∈ data.kind.components) :
    s.Has c ∧ s.level c < s.level ty := by
  obtain ⟨htag, hpart | hthrows⟩ := Kind.of_mem_components hc
  · exact h.consistent.lower h.parameters record htag hpart
  · rw [level_of_not_atomic record htag]
    exact ⟨(h.consistent.types ty data record).closed c hc,
      Nat.lt_of_le_of_lt (s.level_le c) (hthrown ty data record c hthrows)⟩

end Settled

end Store

end RegionTypes

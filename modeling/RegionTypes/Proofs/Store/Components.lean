import Mathlib.Data.Fintype.Card
import Mathlib.Logic.Relation
import RegionTypes.Store.Basic

/-!
# Components of types

The types that a type is built from, and stores in which no type is built from itself.

* `Kind.components` — enclosing type and type arguments of a class, element of an array, parameters,
  result and thrown types of a method, body of a quantified type, bound of a wildcard.
* `Store.Edge`, `Store.Acyclic` — the graph of components and the absence of cycles in it.
* `Store.reached`, `Store.card_reached_lt` — the types that are reached from a type by steps of a
  relation; they get fewer along the steps, wherever there is no cycle.
* `Store.height` — how many types lie below a type.  In an acyclic store it gets smaller from a type
  to its components (`Store.height_lt_of_edge`) and stays below the number of types
  (`Store.height_lt_size`), so every descent through components ends.
-/

namespace RegionTypes

/-- The types that a type is built from. -/
def Kind.components : Kind → List TypeId
  | classType info => info.outer :: info.typeArgs.getD []
  | array info => [info.elem]
  | method info => info.params ++ info.result :: info.thrown
  | forAll info => [info.body]
  | wildcard info => [info.bound]
  | _ => []

/-- The type variables that a type binds. -/
def Kind.binders : Kind → List TypeId
  | forAll info => info.typeVars
  | _ => []

namespace Store

variable {s : Store} {a b ty : TypeId}

/-- The handle belongs to the store. -/
def Has (s : Store) (ty : TypeId) : Prop := (s.type? ty).isSome

instance (s : Store) (ty : TypeId) : Decidable (s.Has ty) :=
  inferInstanceAs (Decidable ((s.type? ty).isSome = true))

theorem has_iff : s.Has ty ↔ ∃ data, s.type? ty = some data := Option.isSome_iff_exists

theorem has_iff_lt : s.Has ty ↔ ty.index < s.types.size := by
  simp [Has, type?]

theorem symbol_lt {sym : SymbolId} {y : Symbol} (h : s.symbol? sym = some y) :
    sym.index < s.symbols.size :=
  (Array.getElem?_eq_some_iff.1 h).1

theorem exists_symbol {sym : SymbolId} (h : sym.index < s.symbols.size) :
    ∃ y, s.symbol? sym = some y :=
  ⟨_, Array.getElem?_eq_getElem h⟩

theorem ne_nextType (hty : s.Has ty) : ty ≠ s.nextType := by
  rintro rfl
  exact Nat.lt_irrefl _ (has_iff_lt.1 hty)

theorem type?_pushType_of_some {data : TypeData} (h : s.type? ty = some data) (new : TypeData) :
    (s.pushType new).type? ty = some data := by
  rw [type?_pushType, if_neg (ne_nextType (has_iff.2 ⟨data, h⟩)), h]

theorem type?_nextType (s : Store) (new : TypeData) : (s.pushType new).type? s.nextType = some new := by
  rw [type?_pushType, if_pos rfl]

theorem mem_initialTypes {data : TypeData} {options : DisplayOptions}
    (h : (initial options).type? ty = some data) : data ∈ initialTypes :=
  List.mem_toArray.1 (Array.mem_of_getElem? h)

theorem mem_initialSymbols {y : Symbol} {sym : SymbolId} {options : DisplayOptions}
    (h : (initial options).symbol? sym = some y) : y ∈ initialSymbols :=
  List.mem_toArray.1 (Array.mem_of_getElem? h)

theorem symbol?_nextSymbol (s : Store) : s.symbol? s.nextSymbol = none :=
  Array.getElem?_eq_none le_rfl

theorem ne_nextSymbol {sym : SymbolId} (hsym : (s.symbol? sym).isSome) : sym ≠ s.nextSymbol := by
  rintro rfl
  obtain ⟨y, hy⟩ := Option.isSome_iff_exists.1 hsym
  exact Nat.lt_irrefl _ (symbol_lt hy)

/-- `b` is a component of `a`. -/
def Edge (s : Store) (a b : TypeId) : Prop := ∃ data, s.type? a = some data ∧ b ∈ data.kind.components

/-- No type is, directly or through others, a component of itself. -/
def Acyclic (s : Store) : Prop := ∀ ty, ¬ Relation.TransGen s.Edge ty ty

/-- Every component of a type is older than the type. -/
def Layered (s : Store) : Prop :=
  ∀ i : Fin s.types.size, ∀ c ∈ s.types[i].kind.components, c.index < i

instance (s : Store) : Decidable s.Layered :=
  inferInstanceAs (Decidable (∀ i : Fin s.types.size, ∀ c ∈ s.types[i].kind.components, c.index < i))

theorem not_transGen_self {r : TypeId → TypeId → Prop} (rank : TypeId → Nat)
    (h : ∀ a b, r a b → rank b < rank a) (a : TypeId) : ¬ Relation.TransGen r a a := by
  have hlt : ∀ b, Relation.TransGen r a b → rank b < rank a := by
    intro b hab
    induction hab with
    | single hstep => exact h _ _ hstep
    | tail _ hstep ih => exact Nat.lt_trans (h _ _ hstep) ih
  exact fun hcycle => Nat.lt_irrefl _ (hlt a hcycle)

/-- Types are never built from themselves if a rank goes down from each type to its components. -/
theorem acyclic_of_rank (rank : TypeId → Nat)
    (h : ∀ i : Fin s.types.size, ∀ c ∈ s.types[i].kind.components, rank c < rank ⟨i⟩) : s.Acyclic := by
  refine not_transGen_self rank fun a b hedge => ?_
  obtain ⟨data, hdata, hb⟩ := hedge
  obtain ⟨hlt, rfl⟩ := Array.getElem?_eq_some_iff.1 hdata
  exact h ⟨a.index, hlt⟩ b hb

/-- Types built from older types only are never built from themselves. -/
theorem Layered.acyclic (h : s.Layered) : s.Acyclic := acyclic_of_rank TypeId.index h

/-! ### Descents end -/

open Classical in
/-- The types of the store that are reached from a type by one step or more. -/
noncomputable def reached (s : Store) (r : TypeId → TypeId → Prop) (ty : TypeId) :
    Finset (Fin s.types.size) :=
  Finset.univ.filter fun i => Relation.TransGen r ty ⟨i⟩

section Reached

variable {r : TypeId → TypeId → Prop}

theorem mem_reached {i : Fin s.types.size} : i ∈ s.reached r ty ↔ Relation.TransGen r ty ⟨i⟩ := by
  simp [reached]

theorem card_reached_lt (hcycle : ¬ Relation.TransGen r b b) (hb : s.Has b) (h : r a b) :
    (s.reached r b).card < (s.reached r a).card := by
  have hlt := has_iff_lt.1 hb
  refine Finset.card_lt_card ⟨fun i hi => ?_, fun hsub => ?_⟩
  · exact mem_reached.2 (Relation.TransGen.head h (mem_reached.1 hi))
  · -- `b` itself is reached from `a` but not from `b`
    have hmem : (⟨b.index, hlt⟩ : Fin s.types.size) ∈ s.reached r a :=
      mem_reached.2 (Relation.TransGen.single h)
    exact hcycle (mem_reached.1 (hsub hmem))

theorem card_reached_lt_size (hcycle : ¬ Relation.TransGen r ty ty) (hty : s.Has ty) :
    (s.reached r ty).card < s.types.size := by
  have hlt := has_iff_lt.1 hty
  have hself : (⟨ty.index, hlt⟩ : Fin s.types.size) ∉ s.reached r ty := fun h =>
    hcycle (mem_reached.1 h)
  have hcard := Finset.card_lt_univ_of_notMem hself
  rwa [Fintype.card_fin] at hcard

end Reached

open Classical in
/-- The types of the store that lie properly below a type. -/
noncomputable def below (s : Store) (ty : TypeId) : Finset (Fin s.types.size) :=
  Finset.univ.filter fun i => Relation.TransGen s.Edge ty ⟨i⟩

/-- How many types of the store lie properly below a type. -/
noncomputable def height (s : Store) (ty : TypeId) : Nat := (s.below ty).card

/-- Components lie lower, wherever there is no cycle. -/
theorem height_lt_of_not_cyclic (hcycle : ¬ Relation.TransGen s.Edge b b) (hb : s.Has b)
    (h : s.Edge a b) : s.height b < s.height a :=
  card_reached_lt hcycle hb h

/-- **Components lie lower.** -/
theorem height_lt_of_edge (hac : s.Acyclic) (hb : s.Has b) (h : s.Edge a b) :
    s.height b < s.height a :=
  height_lt_of_not_cyclic (hac b) hb h

theorem height_lt_size_of_not_cyclic (hcycle : ¬ Relation.TransGen s.Edge ty ty) (hty : s.Has ty) :
    s.height ty < s.types.size :=
  card_reached_lt_size hcycle hty

theorem height_lt_size (hac : s.Acyclic) (hty : s.Has ty) : s.height ty < s.types.size :=
  height_lt_size_of_not_cyclic (hac ty) hty

end Store

end RegionTypes

import RegionTypes.Proofs.Completion.Anchored
import RegionTypes.Proofs.Store.Delegation
import RegionTypes.Proofs.Store.Faults
import RegionTypes.Proofs.Store.Solutions

/-!
# Base types

The base type of a type is what is left of it without the solution of a placeholder and without its
literal.  Canonical types have neither, so nothing is left to strip from a base type, except where a
literal has no canonical type to go back to.

* `Store.SolvedIn` — a type from which so many solutions lead to a type that is not solved.
* `Store.IsBase` — a type from which there is nothing to strip.
* `baseType_of_solvedIn` — following solutions ends at such a type, in a store that is anchored.
* `base_types_project` — **taking base types is a projection**, for types and for lists of them.
-/

namespace RegionTypes

open Run

namespace Store

variable {s : Store} {ty : TypeId} {data : TypeData}

/-- So many solutions lead from the type to a type of the store that is not solved. -/
def SolvedIn (s : Store) (ty : TypeId) (n : Nat) : Prop :=
  ∃ last data, s.PassesOn Kind.solution? ty n last ∧ s.type? last = some data ∧
    data.kind.solution? = none

/-- The type is not solved, and if it has a literal then its symbol has no canonical type. -/
def IsBase (s : Store) (ty : TypeId) : Prop :=
  ∃ data, s.type? ty = some data ∧ data.kind.solution? = none ∧
    (data.literal.isSome → s.canonical? data.symbol = none)

/-- What is left of a type that is not solved. -/
def withoutLiteral (s : Store) (ty : TypeId) (data : TypeData) : TypeId :=
  if data.literal.isSome then (s.canonical? data.symbol).getD ty else ty

theorem Anchored.known (hs : s.Anchored) (hdata : s.type? ty = some data) (sym : SymbolId)
    (hsym : data.symbol = some sym) : ∃ y, s.symbol? sym = some y :=
  exists_symbol (hs.names ty data hdata sym (by simp [TypeData.names, hsym]))

/-- Canonical types are classes or have no parts, so they are no placeholders, and they have no
literals. -/
theorem Anchored.isBase_canonical (hs : s.Anchored) {symbol : Option SymbolId} {c : TypeId}
    (h : s.canonical? symbol = some c) : s.IsBase c := by
  obtain ⟨sym, -, hy⟩ := Option.bind_eq_some_iff.1 h
  obtain ⟨y, hy, htype⟩ := Option.bind_eq_some_iff.1 hy
  obtain ⟨data, hdata, hliteral, htag⟩ := hs.canonical sym y c hy htype
  refine ⟨data, hdata, ?_, fun hsome => by simp [hliteral] at hsome⟩
  cases hkind : data.kind with
  | placeholder => simp [hkind, Kind.tag, Tag.atomic] at htag
  | _ => rfl

theorem Anchored.isBase_withoutLiteral (hs : s.Anchored) (hdata : s.type? ty = some data)
    (hopen : data.kind.solution? = none) : s.IsBase (s.withoutLiteral ty data) := by
  unfold withoutLiteral
  split
  · cases hcanonical : s.canonical? data.symbol with
    | some => exact hs.isBase_canonical hcanonical
    | none => exact ⟨data, hdata, hopen, fun _ => hcanonical⟩
  · next hnone => exact ⟨data, hdata, hopen, fun hsome => absurd hsome hnone⟩

end Store

section

variable {s : Session} {ty : TypeId} {data : TypeData}

theorem baseType_of_open (hs : s.store.Anchored) (hdata : s.store.type? ty = some data)
    (hopen : data.kind.solution? = none) (depth : Nat) :
    baseType (depth + 1) ty s = .ok (s.store.withoutLiteral ty data) s := by
  rw [baseType, bind_run (typeData_run hdata), Store.withoutLiteral]
  split
  · exact bind_run (canonicalType_run (hs.known hdata))
  · cases hkind : data.kind with
    | placeholder info =>
      have hnone : info.solution = none := by simpa [hkind, Kind.solution?] using hopen
      simp only [hnone]
      rfl
    | _ => rfl

theorem baseType_of_isBase (hs : s.store.Anchored) (h : s.store.IsBase ty) (depth : Nat) :
    baseType (depth + 1) ty s = .ok ty s := by
  obtain ⟨data, hdata, hopen, hliteral⟩ := h
  rw [baseType_of_open hs hdata hopen, Store.withoutLiteral]
  split
  · next hsome => rw [hliteral hsome, Option.getD_none]
  · rfl

/-- **Following solutions ends at a base type.**  A placeholder has no literal, so each one that is
solved passes the question on. -/
theorem baseType_of_solvedIn (hconsistent : s.store.Consistent) (hs : s.store.Anchored) {n : Nat}
    (h : s.store.SolvedIn ty n) :
    ∃ base, s.store.IsBase base ∧ ∀ depth, n < depth → baseType depth ty s = .ok base s := by
  obtain ⟨last, data, hchain, hdata, hopen⟩ := h
  refine ⟨_, hs.isBase_withoutLiteral hdata hopen, fun depth hdepth => ?_⟩
  obtain ⟨d, rfl⟩ : ∃ d, depth = d + 1 + n := ⟨depth - n - 1, by omega⟩
  rw [hchain.along baseType ?_ (d + 1), baseType_of_open hs hdata hopen]
  intro depth ty next data hdata hnext
  have hliteral := (hconsistent.types ty data hdata).literal
  cases hkind : data.kind with
  | placeholder info =>
    rw [hkind] at hliteral
    have hnone : data.literal = none :=
      Option.not_isSome_iff_eq_none.1 fun hsome => (hliteral hsome).elim nofun nofun
    have hsolution : info.solution = some next := by simpa [hkind, Kind.solution?] using hnext
    rw [baseType, bind_run (typeData_run hdata), hnone, hkind]
    simp [hsolution]
  | _ => simp [hkind, Kind.solution?] at hnext

theorem mapM_run {f : TypeId → Run TypeId} {types bases : List TypeId}
    (h : List.Forall₂ (fun ty base => f ty s = .ok base s) types bases) :
    types.mapM f s = .ok bases s := by
  induction h with
  | nil => rfl
  | cons hhead _ ih => rw [List.mapM_cons, bind_run hhead, bind_run ih]; rfl

theorem eq_of_forall₂ {f : TypeId → Run TypeId} {types bases : List TypeId}
    (h : List.Forall₂ (fun ty base => f ty s = .ok base s) types bases) :
    bases = types ↔ ∀ ty ∈ types, f ty s = .ok ty s := by
  induction h with
  | nil => simp
  | cons hhead _ ih =>
    rw [List.cons.injEq, ih, List.forall_mem_cons, hhead]
    exact and_congr_left fun _ => ⟨fun h => by rw [h], fun h => (EStateM.Result.ok.inj h).1⟩

end

/-- **Taking base types is a projection.**  Let solutions lead from a type to one that is not solved, in
a store that has grown out of a new one by operations on handles of its own.  Then the type has a base
type, which is its own base type.  That one is not solved, and it has a literal only if its symbol has
no canonical type.  The base types of a list are those of its elements, and the list is reported as the
same exactly if each element is its own base type. -/
theorem base_types_project {options : DisplayOptions} {audience : Log.Filter} {s : Session}
    (hs : (Session.initial options audience).Leads s) :
    (∀ ty n, s.store.SolvedIn ty n → ∃ base, s.store.IsBase base ∧ ∀ depth, n < depth →
      baseType depth ty s = .ok base s ∧ baseType depth base s = .ok base s) ∧
    ∀ types n, (∀ ty ∈ types, ∃ m ≤ n, s.store.SolvedIn ty m) →
      ∃ bases changed, ∀ depth, n < depth → baseTypes depth types s = .ok (bases, changed) s ∧
        List.Forall₂ (fun ty base => baseType depth ty s = .ok base s) types bases ∧
        (changed = false ↔ ∀ ty ∈ types, baseType depth ty s = .ok ty s) := by
  have hconsistent := hs.consistent
  have hanchored := hs.anchored
  refine ⟨fun ty n h => ?_, fun types n h => ?_⟩
  · obtain ⟨base, hbase, hrun⟩ := baseType_of_solvedIn hconsistent hanchored h
    refine ⟨base, hbase, fun depth hdepth => ⟨hrun depth hdepth, ?_⟩⟩
    obtain ⟨d, rfl⟩ : ∃ d, depth = d + 1 := ⟨depth - 1, by omega⟩
    exact baseType_of_isBase hanchored hbase d
  · have hbases : ∃ bases, ∀ depth, n < depth →
        List.Forall₂ (fun ty base => baseType depth ty s = .ok base s) types bases := by
      induction types with
      | nil => exact ⟨[], fun _ _ => .nil⟩
      | cons ty types ih =>
        obtain ⟨hty, htypes⟩ := List.forall_mem_cons.1 h
        obtain ⟨m, hm, hsolved⟩ := hty
        obtain ⟨base, -, hrun⟩ := baseType_of_solvedIn hconsistent hanchored hsolved
        obtain ⟨bases, hbases⟩ := ih htypes
        exact ⟨base :: bases, fun depth hdepth => .cons (hrun depth (by omega)) (hbases depth hdepth)⟩
    obtain ⟨bases, hbases⟩ := hbases
    refine ⟨bases, bases != types, fun depth hdepth => ?_⟩
    have hall := hbases depth hdepth
    refine ⟨bind_run (mapM_run hall), hall, ?_⟩
    rw [← eq_of_forall₂ hall, bne_eq_false_iff_eq]

/-- A session with a literal of a class `C` that could not be loaded afterwards, and with a placeholder
that is solved by another one, which is solved by the literal. -/
def solvedLiteral : Session :=
  .afterCommands
    [.declareClass "C" none .none none, .constType (.handle ⟨12⟩) (.int 7),
      .placeholder (.handle ⟨12⟩), .placeholder (.handle ⟨12⟩),
      .setInstantiation (.handle ⟨14⟩) (.handle ⟨15⟩), .setInstantiation (.handle ⟨15⟩) (.handle ⟨13⟩),
      .errorTypeForClass (.handle ⟨11⟩)]

/-- The base type of the first placeholder is the error type of `C`. -/
theorem base_types_project_damaged :
    (Session.initial {} .empty).Leads solvedLiteral ∧ solvedLiteral.store.SolvedIn ⟨14⟩ 2 ∧
      solvedLiteral.store.IsBase ⟨16⟩ ∧ baseType 3 ⟨14⟩ solvedLiteral = .ok ⟨16⟩ solvedLiteral ∧
      baseTypes 3 [⟨14⟩, WellKnown.int] solvedLiteral =
        .ok ([⟨16⟩, WellKnown.int], true) solvedLiteral := by
  have hleads : (Session.initial {} .empty).Leads solvedLiteral := by
    simp only [solvedLiteral, Session.afterCommands, List.foldl_cons, List.foldl_nil]
    exact .after_step _ _ (.after_step _ _ (.after_step _ _ (.after_step _ _ (.after_step _ _
      (.after_step _ _ (.after_step _ _ (.refl _) rfl) rfl) rfl) rfl) rfl) rfl) rfl
  have hsolved : solvedLiteral.store.SolvedIn ⟨14⟩ 2 :=
    ⟨⟨13⟩, _, .there rfl rfl (.there rfl rfl (.here _)), rfl, rfl⟩
  obtain ⟨base, hbase, hrun⟩ := (base_types_project hleads).1 ⟨14⟩ 2 hsolved
  have hbaseType : baseType 3 ⟨14⟩ solvedLiteral = .ok ⟨16⟩ solvedLiteral := rfl
  obtain rfl : base = ⟨16⟩ := by
    have hsame := (hrun 3 (by decide)).1.symm.trans hbaseType
    exact (EStateM.Result.ok.inj hsame).1
  exact ⟨hleads, hsolved, hbase, hbaseType, rfl⟩

end RegionTypes

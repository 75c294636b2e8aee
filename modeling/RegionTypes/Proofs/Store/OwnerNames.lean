import Mathlib.Data.List.TakeWhile
import RegionTypes.Proofs.Completion.Issued
import RegionTypes.Proofs.Store.Damage

/-!
# Names of owners

The qualified name of a symbol is made of the names of its owners.  Names and owners are settled when a
symbol is declared.  A kind may still change, by damage: a class that could not be loaded lends its name
to nothing any more.

* `Store.Owners` — the owners of a symbol, the nearest first.
* `Store.Later.kept` — what a later state keeps of a symbol.
* `qualifiedName_until_damage` — **a qualified name changes by damage only**.
-/

namespace RegionTypes

open Run

namespace Store

variable {s t : Store} {sym : SymbolId} {owners : List SymbolId} {y : Symbol}

/-- The owners of a symbol, the nearest first. -/
inductive Owners (s : Store) : SymbolId → List SymbolId → Prop
  | top {sym : SymbolId} {y : Symbol} (hy : s.symbol? sym = some y) (howner : y.owner = none) :
    Owners s sym []
  | under {sym owner : SymbolId} {y : Symbol} {owners : List SymbolId}
      (hy : s.symbol? sym = some y) (howner : y.owner = some owner) (h : Owners s owner owners) :
    Owners s sym (owner :: owners)

/-- Owners are older than what they own, so there is a topmost one. -/
theorem Consistent.exists_owners (hs : s.Consistent) (hy : s.symbol? sym = some y) :
    ∃ owners, s.Owners sym owners := by
  generalize hindex : sym.index = n
  induction n using Nat.strong_induction_on generalizing sym y with
  | _ n ih =>
    cases howner : y.owner with
    | none => exact ⟨[], .top hy howner⟩
    | some owner =>
      obtain ⟨holder, z, hz⟩ := hs.exists_owner hy howner
      obtain ⟨owners, howners⟩ := ih owner.index (hindex ▸ holder) hz rfl
      exact ⟨owner :: owners, .under hy howner howners⟩

theorem Later.kept (h : s.Later t) (hy : s.symbol? sym = some y) :
    ∃ y', t.symbol? sym = some y' ∧ y'.name = y.name ∧ y'.owner = y.owner ∧
      (y'.kind = y.kind ∨ y'.kind = .error) := by
  obtain ⟨y', hy', hkeeps⟩ := h.precedes.symbols sym y hy
  refine ⟨y', hy', hkeeps.name, hkeeps.owner, ?_⟩
  clear hkeeps
  induction h generalizing y' with
  | refl => exact .inl (congrArg Symbol.kind (Option.mem_unique hy' hy))
  | tail hlater hchange ih =>
    obtain ⟨z, hz, -⟩ := Later.precedes hlater |>.symbols sym y hy
    rcases hchange.kind_or_damage hz hy' with hkept | hdamaged
    · rw [hkept.1]
      exact ih z hz
    · exact .inr hdamaged.1

def nameOf (s : Store) (sym : SymbolId) : String := (s.symbol? sym).elim "" Symbol.name

def lendsName (s : Store) (sym : SymbolId) : Bool := (s.symbol? sym).any Symbol.qualifies

def isDamaged (s : Store) (sym : SymbolId) : Bool := (s.symbol? sym).any (·.kind == .error)

/-- The names of some owners, the nearest first, and of the symbol, from the top down. -/
def dotted (s : Store) (owners : List SymbolId) (sym : SymbolId) : String :=
  ".".intercalate ((sym :: owners).reverse.map s.nameOf)

theorem dotted_nil (hy : s.symbol? sym = some y) : s.dotted [] sym = y.name := by
  simp [dotted, nameOf, hy]

theorem dotted_cons (hy : s.symbol? sym = some y) (owner : SymbolId) :
    s.dotted (owner :: owners) sym = s.dotted owners owner ++ "." ++ y.name := by
  rw [dotted, List.reverse_cons, List.map_append,
    String.intercalate_append_of_ne_nil (by simp) (by simp)]
  simp [dotted, nameOf, hy]

/-- What lent its name still does so if it has not been damaged. -/
theorem Later.qualifies_eq (h : s.Later t) {y' : Symbol} (hy : s.symbol? sym = some y)
    (hy' : t.symbol? sym = some y') :
    y'.qualifies = (s.lendsName sym && !t.isDamaged sym) := by
  obtain ⟨z, hz, hname, -, hkind⟩ := h.kept hy
  obtain rfl : y' = z := Option.mem_unique hy' hz
  simp only [lendsName, isDamaged, hy, hy', Option.any_some, Symbol.qualifies, hname]
  rcases hkind with hkind | hkind
  · rw [hkind]
    cases y.kind <;> simp
  · simp [hkind]

theorem Owners.qualifiedName_eq (hs : s.Consistent) {t : Session} (hlater : s.Later t.store)
    (h : s.Owners sym owners) : ∀ depth, sym.index < depth → qualifiedName depth sym t = .ok
      (s.dotted (owners.takeWhile fun owner => s.lendsName owner && !t.store.isDamaged owner) sym)
      t := by
  induction h with
  | @top sym y hy howner =>
    intro depth hdepth
    obtain ⟨y', hy', hname, howner', -⟩ := hlater.kept hy
    cases depth with
    | zero => omega
    | succ =>
      rw [qualifiedName, bind_run (symbolData_run hy'), howner', howner, List.takeWhile_nil,
        dotted_nil hy, ← hname]
      rfl
  | @under sym owner y owners hy howner h ih =>
    intro depth hdepth
    obtain ⟨y', hy', hname, howner', -⟩ := hlater.kept hy
    obtain ⟨holder, z, hz⟩ := hs.exists_owner hy howner
    obtain ⟨z', hz', -⟩ := hlater.kept hz
    cases depth with
    | zero => omega
    | succ depth =>
      simp only [qualifiedName, bind_run (symbolData_run hy'), howner', howner,
        bind_run (symbolData_run hz'), List.takeWhile_cons, hlater.qualifies_eq hz hz']
      split
      · rw [bind_run (ih depth (by omega)), dotted_cons hy, ← hname]
        rfl
      · rw [dotted_nil hy, ← hname]
        rfl

end Store

/-- **A qualified name changes by damage only.**  In a store that has grown out of a new one by operations
on its own handles, every symbol has a topmost owner.  In that state and in every later one, its qualified
name is made of its name and those of its owners, the topmost first, from just below the nearest owner that is
unnamed, is neither package nor type, or has been damaged since.  So it stays as it is until one
of the owners whose names are in it is damaged.  Every command leads to a later state. -/
theorem qualifiedName_until_damage {options : DisplayOptions} {audience : Log.Filter} {s : Session}
    (hleads : (Session.initial options audience).Leads s) {sym : SymbolId} {y : Symbol}
    (hy : s.store.symbol? sym = some y) :
    (∃ owners, s.store.Owners sym owners) ∧
    (∀ owners, s.store.Owners sym owners → ∀ t : Session, s.store.Later t.store →
      ∀ depth, sym.index < depth →
        qualifiedName depth sym t = .ok (s.store.dotted (owners.takeWhile fun owner =>
          s.store.lendsName owner && !t.store.isDamaged owner) sym) t ∧
        ((∀ owner ∈ owners.takeWhile s.store.lendsName, t.store.isDamaged owner = false) →
          qualifiedName depth sym t =
            .ok (s.store.dotted (owners.takeWhile s.store.lendsName) sym) t)) ∧
    ∀ (t : Session) depth command, t.store.Later ((perform depth command).after t).store := by
  have hs := hleads.consistent
  refine ⟨hs.exists_owners hy, fun owners howners t hlater depth hdepth => ?_,
    fun t depth command => perform_later depth command t⟩
  have hname := howners.qualifiedName_eq hs hlater depth hdepth
  refine ⟨hname, fun hsound => ?_⟩
  have hall : (owners.takeWhile fun owner => s.store.lendsName owner && !t.store.isDamaged owner) =
      owners.takeWhile s.store.lendsName := by
    have hboth := List.takeWhile_takeWhile (fun owner => !t.store.isDamaged owner)
      s.store.lendsName owners
    rw [List.takeWhile_eq_self_iff.2 fun owner hmem => by simp [hsound owner hmem]] at hboth
    simpa [Bool.and_comm] using hboth.symm
  rw [hname, hall]

/-- A session with a package `p`, a class `A` in it, a class `B` in that and a method `m` of `B`. -/
def nested : Session :=
  let run (s : Session) (command : Command) := (makeStep (perform 9) (none, command)).after s
  let package := run (.initial {} .empty) (.declarePackage "p" none)
  let outer := run package (.declareClass "A" (some (.handle ⟨11⟩)) .none none)
  let inner := run outer (.declareClass "B" (some (.handle ⟨12⟩)) .none none)
  run inner (.newSymbol .method "m" (some (.handle ⟨13⟩)) .none)

theorem nested_leads : (Session.initial {} .empty).Leads nested := by
  unfold nested
  exact .after_step _ _ (.after_step _ _ (.after_step _ _ (.after_step _ _ (.refl _) rfl) rfl) rfl)
    rfl

/-- The same after `A` could not be loaded. -/
def nestedDamaged : Session := (perform 9 (.errorTypeForClass (.handle ⟨12⟩))).after nested

/-- The qualified name of the method before and after. -/
theorem qualifiedName_until_damage_nested :
    nested.store.Later nestedDamaged.store ∧
      qualifiedName 15 ⟨14⟩ nested = .ok "p.A.B.m" nested ∧
      qualifiedName 15 ⟨14⟩ nestedDamaged = .ok "B.m" nestedDamaged := by
  have howners : nested.store.Owners ⟨14⟩ [⟨13⟩, ⟨12⟩, ⟨11⟩] :=
    .under rfl rfl (.under rfl rfl (.under rfl rfl (.top rfl rfl)))
  have hmethod : nested.store.symbol? ⟨14⟩ =
      some { name := "m", owner := some ⟨13⟩, kind := .method, flags := .none } := rfl
  obtain ⟨-, hnames, hlater⟩ := qualifiedName_until_damage nested_leads hmethod
  have hdamaged := hlater nested 9 (.errorTypeForClass (.handle ⟨12⟩))
  refine ⟨hdamaged, ((hnames _ howners nested .refl 15 (by decide)).2 (by decide +kernel)).trans ?_,
    (hnames _ howners nestedDamaged hdamaged 15 (by decide)).1.trans ?_⟩
  · rfl
  · rfl

theorem qualifiedName_lost_by_damage :
    (Session.initial {} .empty).Leads nested ∧ nested.store.Later nestedDamaged.store ∧
      qualifiedName 15 ⟨14⟩ nested = .ok "p.A.B.m" nested ∧
      qualifiedName 15 ⟨14⟩ nestedDamaged ≠ .ok "p.A.B.m" nestedDamaged := by
  refine ⟨nested_leads, perform_later 9 _ nested, rfl, fun h => ?_⟩
  injection h with h
  exact absurd h (by decide)

end RegionTypes

import Mathlib.Logic.Relation
import RegionTypes.Proofs.Lockstep.Exact

/-!
# Texts of settled types

Rendering a type asks for the lists of the classes that the text shows, so it may load classes and
settle lists.  It does neither where these lists are set already.

* `Run.Leaves` — in every session with a given store, a computation leaves the store alone, and what
  it returns is as described.
* `Store.Shows` — one type appears in the text of another, under the options it is rendered with.
* `Store.TextSettled` — everything that the text of a type shows is settled.
* `render_leaves` — **the text of a settled type is worked out without any change to the store**.
-/

namespace RegionTypes

variable {data : TypeData}

namespace Run

variable {α β : Type} {r : Store} {action : Run α} {next : α → Run β} {p : α → Prop} {q : β → Prop}

/-- With the store `r` the computation leaves the store alone, and what it returns satisfies
`post`. -/
def Leaves (r : Store) (action : Run α) (post : α → Prop) : Prop :=
  ∀ s, s.store = r → (action.after s).store = r ∧ ∀ a s', action s = .ok a s' → post a

theorem leaves_of_still (h : Along Eq action) : Leaves r action fun _ => True :=
  fun s hs => ⟨(h s).symm.trans hs, fun _ _ _ => trivial⟩

theorem leaves_pure {a : α} (h : p a) : Leaves r (pure a : Run α) p := by
  intro s hs
  refine ⟨hs, fun a' s' hrun => ?_⟩
  injection hrun with ha
  exact ha ▸ h

theorem leaves_tooDeep : Leaves r (tooDeep : Run α) p := fun _ hs => ⟨hs, fun _ _ h => nomatch h⟩

/-- **Sequencing.** -/
theorem Leaves.bind (h : Leaves r action p) (hnext : ∀ a, p a → Leaves r (next a) q) :
    Leaves r (action >>= next) q := by
  intro s hs
  obtain ⟨hstore, hpost⟩ := h s hs
  cases hrun : action s with
  | ok a s' =>
    rw [after_of_ok hrun] at hstore
    rw [after_bind hrun, bind_run hrun]
    exact hnext a (hpost a s' hrun) s' hstore
  | error =>
    rw [after_of_error hrun] at hstore
    rw [after_of_error (bind_run_error hrun), bind_run_error hrun]
    exact ⟨hstore, fun _ _ h => nomatch h⟩

theorem Leaves.imp {p' : α → Prop} (h : Leaves r action p) (hp : ∀ a, p a → p' a) :
    Leaves r action p' :=
  fun s hs => ⟨(h s hs).1, fun a s' hrun => hp a ((h s hs).2 a s' hrun)⟩

/-! ### Look-ups -/

theorem typeData_leaves (ty : TypeId) :
    Leaves r (typeData ty) fun data => r.type? ty = some data := by
  intro s hs
  refine ⟨(typeData_still ty s).symm.trans hs, fun data s' hrun => ?_⟩
  rw [← hs]
  exact (eq_of_typeData hrun).2

theorem symbolData_leaves (sym : SymbolId) :
    Leaves r (symbolData sym) fun y => r.symbol? sym = some y := by
  intro s hs
  refine ⟨(symbolData_still sym s).symm.trans hs, fun y s' hrun => ?_⟩
  rw [← hs]
  exact (eq_of_symbolData hrun).2

theorem kindOf_leaves (ty : TypeId) :
    Leaves r (kindOf ty) fun kind => ∃ data, r.type? ty = some data ∧ data.kind = kind :=
  (typeData_leaves ty).bind fun data hdata => leaves_pure ⟨data, hdata, rfl⟩

theorem typeData_leaves_eq {ty : TypeId} (hdata : r.type? ty = some data) :
    Leaves r (typeData ty) fun found => found = data :=
  (typeData_leaves ty).imp fun _ hfound => Option.mem_unique hfound hdata

theorem kindOf_leaves_eq {ty : TypeId} (hdata : r.type? ty = some data) :
    Leaves r (kindOf ty) fun kind => kind = data.kind :=
  (typeData_leaves_eq hdata).bind fun _ hfound => leaves_pure (by rw [hfound])

end Run

open Run

/-! ### What a text shows -/

namespace Store

/-- The type variable, seen through quantifiers and placeholders, has the bound, or its prototype
has it. -/
inductive BoundOf (r : Store) : TypeId → TypeId → Prop
  | var {ty bound : TypeId} {data : TypeData} {info : VarInfo} (hdata : r.type? ty = some data)
      (hvar : data.kind.var? = some info) (hbound : info.bound = some bound) : BoundOf r ty bound
  | prototype {ty owner bound : TypeId} {data ownerData : TypeData} {info ownerInfo : VarInfo}
      (hdata : r.type? ty = some data) (hvar : data.kind.var? = some info)
      (howner : info.prototype = some owner) (hownerData : r.type? owner = some ownerData)
      (hownerVar : ownerData.kind.var? = some ownerInfo) (hbound : ownerInfo.bound = some bound) :
    BoundOf r ty bound
  | forAll {ty bound : TypeId} {data : TypeData} {info : ForAllInfo}
      (hdata : r.type? ty = some data) (hkind : data.kind = .forAll info)
      (hbody : BoundOf r info.body bound) : BoundOf r ty bound
  | placeholder {ty bound : TypeId} {data : TypeData} {info : PlaceholderInfo}
      (hdata : r.type? ty = some data) (hkind : data.kind = .placeholder info)
      (horigin : BoundOf r info.origin bound) : BoundOf r ty bound

/-- The type that an anonymous class is described by. -/
def describedBy? (r : Store) (y : Symbol) : Option TypeId := do
  let data ← r.type? (← y.type)
  let info ← data.kind.class?
  (info.interfaces.bind List.head?).or info.supertype

/-- The types in the name of a class: none if it has a name of its own. -/
def nameParts (r : Store) (symbol : Option SymbolId) (info : ClassInfo) : List TypeId :=
  match symbol.bind r.symbol? with
  | none => []
  | some y =>
    if !y.name.isEmpty then []
    else if y.flags.has .compound then info.supertype.toList ++ info.interfaces.getD []
    else (r.describedBy? y).toList

/-- Whether a class is shown after the class that it is declared in. -/
def showsOuter (r : Store) (symbol : Option SymbolId) (outer : TypeId) : Bool :=
  ((symbol.bind r.symbol?).bind fun y => y.owner.bind r.symbol?).any (·.kind == .type) &&
    (r.kind? outer).any (·.tag = .classType)

/-- The types in the text of a type that are rendered under the same options. -/
def textParts (r : Store) (symbol : Option SymbolId) : Kind → List TypeId
  | .classType info => (if r.showsOuter symbol info.outer then [info.outer] else []) ++
      info.typeArgs.getD [] ++ r.nameParts symbol info
  | .array info => [info.elem]
  | .method info => info.params ++ [info.result]
  | .forAll info => info.typeVars ++ [info.body]
  | .captured _ wildcard => [wildcard]
  | .wildcard info => if info.kind = .unbounded then [] else [info.bound]
  | .placeholder info => [info.solution.getD info.origin]
  | _ => []

/-- One type, under the options it is rendered with, appears in the text of another. -/
inductive Shows (r : Store) : DisplayOptions × TypeId → DisplayOptions × TypeId → Prop
  | part {options : DisplayOptions} {ty inner : TypeId} {data : TypeData}
      (hdata : r.type? ty = some data) (hinner : inner ∈ r.textParts data.symbol data.kind) :
    Shows r (options, ty) (options, inner)
  /-- A verbose text shows the bound of a wildcard's formal, not verbosely. -/
  | formal {options : DisplayOptions} {ty formal bound : TypeId} {data : TypeData}
      {info : WildcardInfo} (hverbose : options.verbose = true) (hdata : r.type? ty = some data)
      (hkind : data.kind = .wildcard info) (hformal : info.formal = some formal)
      (hbound : r.BoundOf formal bound) :
    Shows r (options, ty) ({ options with verbose := false }, bound)

/-- The lists that the text of a class type asks for are set.  An intersection is named by its
supertypes, so its symbol has been loaded. -/
structure ClassSettled (r : Store) (options : DisplayOptions) (symbol : Option SymbolId)
    (info : ClassInfo) : Prop where
  types : info.typeArgs.isSome
  resolved : options.printRegions → info.resolvedRegions.isSome
  effects : options.printRegions → info.effectArgs.isSome
  loaded : ∀ sym ∈ symbol, ∀ y ∈ r.symbol? sym, y.name.isEmpty → y.flags.has .compound →
    y.completer.isNone

instance (r : Store) (options : DisplayOptions) (symbol : Option SymbolId) (info : ClassInfo) :
    Decidable (r.ClassSettled options symbol info) :=
  decidable_of_iff (info.typeArgs.isSome ∧ (options.printRegions → info.resolvedRegions.isSome) ∧
      (options.printRegions → info.effectArgs.isSome) ∧
      ∀ sym ∈ symbol, ∀ y ∈ r.symbol? sym, y.name.isEmpty → y.flags.has .compound →
        y.completer.isNone)
    ⟨fun ⟨types, resolved, effects, loaded⟩ => ⟨types, resolved, effects, loaded⟩,
      fun h => ⟨h.types, h.resolved, h.effects, h.loaded⟩⟩

/-- Every class that the text of a type shows is settled. -/
def TextSettled (r : Store) (options : DisplayOptions) (ty : TypeId) : Prop :=
  ∀ options' ty' data info, Relation.ReflTransGen r.Shows (options, ty) (options', ty') →
    r.type? ty' = some data → data.kind = .classType info → r.ClassSettled options' data.symbol info

variable {r : Store} {options options' : DisplayOptions} {ty ty' : TypeId}

theorem TextSettled.shown (h : r.TextSettled options ty)
    (hshows : r.Shows (options, ty) (options', ty')) :
    r.TextSettled options' ty' :=
  fun options'' ty'' data info hreach hdata hkind =>
    h options'' ty'' data info (.head hshows hreach) hdata hkind

theorem TextSettled.part {kind : Kind} {inner : TypeId} (h : r.TextSettled options ty)
    (hdata : r.type? ty = some data) (hkind : data.kind = kind)
    (hinner : inner ∈ r.textParts data.symbol kind) : r.TextSettled options inner :=
  h.shown (.part hdata (hkind ▸ hinner))

/-- Types that are closed under what their texts show, in texts that are not verbose. -/
theorem textSettled_of_closed (shown : List TypeId) (hquiet : options.verbose = false)
    (hclosed : ∀ ty ∈ shown, ∀ data ∈ r.type? ty, ∀ inner ∈ r.textParts data.symbol data.kind,
      inner ∈ shown)
    (hsettled : ∀ ty ∈ shown, ∀ data ∈ r.type? ty, ∀ info ∈ data.kind.class?,
      r.ClassSettled options data.symbol info) (hty : ty ∈ shown) : r.TextSettled options ty := by
  have hreach : ∀ p, Relation.ReflTransGen r.Shows (options, ty) p → p.1 = options ∧ p.2 ∈ shown := by
    intro p hp
    induction hp with
    | refl => exact ⟨rfl, hty⟩
    | tail _ hshows ih =>
      cases hshows with
      | part hdata hinner => exact ⟨ih.1, hclosed _ ih.2 _ hdata _ hinner⟩
      | formal hverbose =>
        obtain ⟨rfl, _⟩ := ih
        rw [hquiet] at hverbose
        cases hverbose
  intro options' ty' data info hp hdata hkind
  obtain ⟨rfl, hmem⟩ := hreach _ hp
  exact hsettled ty' hmem data hdata info (by rw [hkind]; rfl)

end Store

/-! ### Questions about settled types -/

section Questions

variable {r : Store} {ty : TypeId} {data : TypeData} {info : ClassInfo} {load : Loader}

theorem upperBound_leaves (depth : Nat) (ty : TypeId) :
    Leaves r (upperBound depth ty) fun b => ∀ bound, b = some bound → r.BoundOf ty bound := by
  have hvar : ∀ ty data info, r.type? ty = some data → data.kind.var? = some info →
      Leaves r (varBound info) fun b => ∀ bound, b = some bound → r.BoundOf ty bound := by
    intro ty data info hdata hinfo
    unfold varBound
    cases hbound : info.bound with
    | some => exact leaves_pure fun _ h => .var hdata hinfo (hbound.trans h)
    | none =>
      cases howner : info.prototype with
      | none => exact leaves_pure fun _ h => nomatch h
      | some owner =>
        refine (kindOf_leaves owner).bind fun kind hkind => leaves_pure fun bound hread => ?_
        obtain ⟨ownerData, hownerData, rfl⟩ := hkind
        obtain ⟨ownerInfo, hownerVar, hownerBound⟩ := Option.bind_eq_some_iff.1 hread
        exact .prototype hdata hinfo howner hownerData hownerVar hownerBound
  induction depth generalizing ty with
  | zero => exact leaves_tooDeep
  | succ depth ih =>
    refine (kindOf_leaves ty).bind fun kind hkind => ?_
    obtain ⟨data, hdata, rfl⟩ := hkind
    cases hkind : data.kind with
    | typeVar info | captured info => exact hvar ty data info hdata (by rw [hkind]; rfl)
    | forAll info => exact (ih info.body).imp fun b hb bound h => .forAll hdata hkind (hb bound h)
    | placeholder info =>
      exact (ih info.origin).imp fun b hb bound h => .placeholder hdata hkind (hb bound h)
    | _ => exact leaves_pure fun _ h => nomatch h

theorem completeLazily_leaves {start : Completer → Loader}
    {symbol : Option SymbolId}
    (h : ∀ sym y, symbol = some sym → r.symbol? sym = some y → y.completer = none) :
    Leaves r (completeLazily (completeSymbol start) symbol) fun _ => True := by
  cases symbol with
  | none => exact leaves_pure trivial
  | some sym =>
    have hload : Leaves r (completeSymbol start sym) fun result => result = .ok () := by
      refine (symbolData_leaves sym).bind fun y hy => ?_
      rw [h sym y rfl hy]
      exact leaves_pure rfl
    refine hload.bind fun result hresult => ?_
    rw [hresult]
    exact leaves_pure trivial

theorem declaredList_leaves {β : Type} {slot : Slot β} {list : List β} (symbol : Option SymbolId)
    (hdata : r.type? ty = some data) (hkind : data.kind = .classType info)
    (hlist : slot.read info = some list) :
    Leaves r (declaredList load slot ty symbol) fun found => found = list := by
  have hcurrent : Leaves r (slot.current ty) fun held => held = some list := by
    refine (kindOf_leaves_eq hdata).bind fun kind hfound => ?_
    rw [hfound, hkind]
    exact leaves_pure hlist
  refine hcurrent.bind fun held hheld => ?_
  rw [hheld]
  exact leaves_pure rfl

section

variable (depth : Nat) (hdata : r.type? ty = some data) (hkind : data.kind = .classType info)

include hdata hkind

/-- The arguments of a class type that holds them. -/
theorem declaredArguments_leaves {β : Type} {slot : Slot β} {list : List β}
    (hlist : slot.read info = some list) (vars : ForAllInfo → List β) :
    Leaves r (declaredArguments load slot vars depth ty) fun found => found = list := by
  cases depth with
  | zero => exact leaves_tooDeep
  | succ =>
    refine (typeData_leaves_eq hdata).bind fun found hfound => ?_
    rw [hfound, hkind]
    exact declaredList_leaves data.symbol hdata hkind hlist

theorem regionArguments_leaves (hset : info.resolvedRegions.isSome) :
    Leaves r (regionArguments load depth ty) fun _ => True := by
  cases depth with
  | zero => exact leaves_tooDeep
  | succ =>
    obtain ⟨list, hlist⟩ := Option.isSome_iff_exists.1 hset
    refine (typeData_leaves_eq hdata).bind fun found hfound => ?_
    rw [hfound, hkind]
    simp only [hlist]
    exact leaves_pure trivial

end

/-- What loading supplies to a class type that has nothing left to load. -/
theorem suppliedPart_leaves {α : Type} (read : ClassInfo → Option α)
    (hload : Leaves r (completeLazily load data.symbol) fun _ => True)
    (hdata : r.type? ty = some data) (hkind : data.kind = .classType info) :
    Leaves r (suppliedPart load read ty) fun found => found = read info := by
  have hread : Leaves r (do return (← kindOf ty).class?.bind read) fun found => found = read info := by
    refine (kindOf_leaves_eq hdata).bind fun kind hfound => ?_
    rw [hfound, hkind]
    exact leaves_pure rfl
  refine (typeData_leaves_eq hdata).bind fun found hfound => ?_
  rw [hfound, hkind]
  show Leaves r (if (read info).isNone then _ else _) _
  split
  · exact hload.bind fun _ _ => hread
  · exact hread

theorem described?_leaves (y : Symbol) :
    Leaves r (described? y) fun found => found = r.describedBy? y := by
  unfold described?
  cases hcanonical : y.type with
  | none => exact leaves_pure (by rw [Store.describedBy?, hcanonical]; rfl)
  | some canonical =>
    refine (kindOf_leaves canonical).bind fun kind hfound => leaves_pure ?_
    obtain ⟨data, hdata, rfl⟩ := hfound
    rw [Store.describedBy?, hcanonical]
    simp only [Option.bind_eq_bind, Option.bind_some, hdata]

end Questions

/-! ### Rendering settled types -/

section Parts

variable {r : Store} {options : DisplayOptions} {ty : TypeId} {data : TypeData} {depth : Nat}
  {start : Completer → Loader}

/-- What is answered without a change to the store. -/
def LeavesAsked (r : Store) (start : Completer → Loader) {β : Type}
    (question : Question β) (post : β → Prop) : Prop :=
  Leaves r (question.ask (completeSymbol start)) post

theorem Lookup.leaves {β : Type} (lookup : Lookup β) :
    LeavesAsked r start (.read lookup) fun _ => True :=
  leaves_of_still (lookup.keeps (T := Tie.ofMoves Eq)).along

theorem Dialogue.Meets.leaves {α : Type} {d : Dialogue α} (h : d.Meets (LeavesAsked r start)) :
    Leaves r (d.run (completeSymbol start)) fun _ => True := by
  induction d with
  | done => exact leaves_pure trivial
  | ask question next ih =>
    obtain ⟨P, hquestion, hnext⟩ := h
    exact hquestion.bind fun b hb => ih b (hnext b hb)

theorem inside_leaves (symbol : Option SymbolId) (outer : TypeId) :
    LeavesAsked r start (.read (.inside symbol outer)) fun inside => inside → r.showsOuter symbol outer := by
  have hmember : Leaves r (isMemberOfType symbol) fun member => member →
      ((symbol.bind r.symbol?).bind fun y => y.owner.bind r.symbol?).any (·.kind == .type) := by
    cases symbol with
    | none => exact leaves_pure (by simp)
    | some sym =>
      refine (symbolData_leaves sym).bind fun y hy => ?_
      cases howner : y.owner with
      | none => exact leaves_pure (by simp)
      | some owner =>
        refine (symbolData_leaves owner).bind fun z hz => leaves_pure fun hmember => ?_
        simpa [hy, howner, hz] using hmember
  refine hmember.bind fun member hmember => ?_
  split
  · next htrue =>
    refine (kindOf_leaves outer).bind fun kind hkind => leaves_pure fun hclass => ?_
    obtain ⟨data, hdata, rfl⟩ := hkind
    refine Bool.and_eq_true_iff.2 ⟨hmember htrue, ?_⟩
    rwa [Store.kind?, hdata, Option.map_some, Option.any_some]
  · exact leaves_pure (by simp)

theorem naming_leaves (h : r.TextSettled options ty) {info : ClassInfo}
    (hdata : r.type? ty = some data) (hkind : data.kind = .classType info) (qualified : Bool) :
    LeavesAsked r start (.read (.naming depth data.symbol qualified))
      (Dialogue.ServesName (LeavesAsked r start) r.TextSettled options ty) := by
  have hparts : ∀ inner ∈ r.nameParts data.symbol info, r.TextSettled options inner :=
    fun inner hinner => h.part hdata hkind (List.mem_append_right _ hinner)
  have hloaded := (h options ty data info .refl hdata hkind).loaded
  cases hsymbol : data.symbol with
  | none => exact leaves_pure trivial
  | some sym =>
    refine (symbolData_leaves sym).bind fun y hy => ?_
    rw [Store.nameParts, hsymbol, Option.bind_some, hy] at hparts
    cases hname : y.name.isEmpty with
    | false =>
      show Leaves r (if qualified then _ else _) _
      split
      · exact (leaves_of_still ((qualifiedName_reads depth sym).keeps (T := Tie.ofMoves Eq)).along).bind
          fun _ _ => leaves_pure trivial
      · exact leaves_pure trivial
    | true =>
      simp only [hname] at hparts
      cases hcompound : y.flags.has .compound with
      | true =>
        simp only [hcompound] at hparts
        have hload : Leaves r (completeLazily (completeSymbol start) data.symbol) fun _ => True := by
          refine completeLazily_leaves fun sym' y' hsym' hy' => ?_
          obtain rfl : sym = sym' := Option.mem_unique hsymbol hsym'
          obtain rfl : y = y' := Option.mem_unique hy hy'
          exact Option.isNone_iff_eq_none.1 (hloaded sym hsymbol y hy hname hcompound)
        refine leaves_pure ⟨(suppliedPart_leaves _ hload hdata hkind).imp fun found hfound c hc => ?_,
          (suppliedPart_leaves _ hload hdata hkind).bind fun found hfound => leaves_pure fun c hc => ?_⟩
        · rw [hfound] at hc
          exact hparts c (List.mem_append_left _ (Option.mem_toList.2 hc))
        · rw [hfound] at hc
          exact hparts c (List.mem_append_right _ hc)
      | false =>
        simp only [hcompound] at hparts
        refine (described?_leaves y).bind fun found hfound => leaves_pure fun c hc => ?_
        rw [hfound] at hc
        exact hparts c (Option.mem_toList.2 hc)

/-- The type of the innermost cells is settled with the array type. -/
theorem dimensions_leaves (depth : Nat) (ty : TypeId) (h : r.TextSettled options ty) :
    Leaves r (dimensions depth ty) fun result => r.TextSettled options result.2 := by
  induction depth generalizing ty with
  | zero => exact leaves_tooDeep
  | succ depth ih =>
    refine (kindOf_leaves ty).bind fun kind hfound => ?_
    obtain ⟨data, hdata, rfl⟩ := hfound
    cases hkind : data.kind with
    | array info =>
      have helem : r.TextSettled options info.elem := h.part hdata hkind (List.mem_singleton.2 rfl)
      exact (ih info.elem helem).bind fun _ hbase => leaves_pure hbase
    | _ => exact leaves_pure h

theorem formalBound_leaves (h : r.TextSettled options ty) {info : WildcardInfo}
    (hdata : r.type? ty = some data) (hkind : data.kind = .wildcard info) :
    LeavesAsked r start (.read (.formalBound depth options ty))
      (∀ c ∈ ·, r.TextSettled { options with verbose := false } c) := by
  have hwildcard : Leaves r (wildcard? ty) (· = some info) := by
    refine (kindOf_leaves_eq hdata).bind fun kind hfound => ?_
    rw [hfound, hkind]
    exact leaves_pure rfl
  have hnone : Leaves r (pure none : Run (Option TypeId))
      (∀ c ∈ ·, r.TextSettled { options with verbose := false } c) := leaves_pure (by simp)
  rw [LeavesAsked, Question.ask, Lookup.run]
  split
  · next hverbose =>
    refine hwildcard.bind fun found hfound => ?_
    rw [hfound, Option.bind_some]
    cases hformal : info.formal with
    | none => exact hnone
    | some formal =>
      exact (upperBound_leaves depth formal).imp fun bound hbound c hc =>
        h.shown (.formal hverbose hdata hkind hformal (hbound c hc))
  · exact hnone

/-- What a text asks of a settled type is answered without a change, and it shows settled types. -/
theorem textSettled_serves (h : r.TextSettled options ty) (hdata : r.type? ty = some data) :
    Dialogue.Serves (LeavesAsked r start) r.TextSettled depth options ty data.symbol data.kind.shown := by
  have hpart : ∀ {kind inner}, data.kind = kind → inner ∈ r.textParts data.symbol kind →
      r.TextSettled options inner := fun hkind hinner => h.part hdata hkind hinner
  cases hkind : data.kind with
  | package | error => exact fun _ => Lookup.leaves _
  | classType info =>
    have hsettled := h options ty data info .refl hdata hkind
    obtain ⟨args, hargs⟩ := Option.isSome_iff_exists.1 hsettled.types
    refine ⟨(inside_leaves data.symbol info.outer).imp fun inside hinside htrue => hpart hkind ?_,
      naming_leaves h hdata hkind, ?_, fun hregions => ?_⟩
    · rw [Store.textParts, if_pos (hinside htrue)]
      exact List.mem_append_left _ (List.mem_append_left _ (List.mem_singleton.2 rfl))
    · have hread : Slot.read .typeArgs info = some args := hargs
      refine (declaredArguments_leaves depth hdata hkind hread _).imp
        fun types htypes c hc => hpart hkind ?_
      rw [Store.textParts, hargs, ← htypes]
      exact List.mem_append_left _ (List.mem_append_right _ hc)
    · obtain ⟨effects, heffects⟩ := Option.isSome_iff_exists.1 (hsettled.effects hregions)
      have hread : Slot.read .effectArgs info = some effects := heffects
      exact ⟨regionArguments_leaves depth hdata hkind (hsettled.resolved hregions),
        (declaredArguments_leaves depth hdata hkind hread _).imp fun _ _ => trivial⟩
  | array info =>
    have helem : r.TextSettled options info.elem := hpart hkind (List.mem_singleton.2 rfl)
    exact ⟨helem, fun _ => (dimensions_leaves depth info.elem helem).imp fun _ hbase =>
      ⟨hbase, fun _ _ => Lookup.leaves _⟩⟩
  | method | forAll =>
    exact ⟨fun c hc => hpart hkind (List.mem_append_left _ hc),
      hpart hkind (List.mem_append_right _ (List.mem_singleton.2 rfl))⟩
  | captured | placeholder => exact hpart hkind (List.mem_singleton.2 rfl)
  | wildcard =>
    refine ⟨fun hbounded => hpart hkind ?_, formalBound_leaves h hdata hkind⟩
    rw [Store.textParts, if_neg hbounded]
    exact List.mem_singleton.2 rfl
  | _ => exact Lookup.leaves _

end Parts

/-- **The text of a settled type is worked out without any change to the store.** -/
theorem render_leaves {r : Store} {start : Completer → Loader}
    (depth : Nat) (options : DisplayOptions) (ty : TypeId) (h : r.TextSettled options ty) :
    Leaves r (render (completeSymbol start) depth options ty) fun _ => True := by
  have hmeets : ∀ (depth : Nat) (options : DisplayOptions) (ty : TypeId), r.TextSettled options ty →
      (Dialogue.text depth options ty).Meets (LeavesAsked r start) := by
    intro depth
    induction depth with
    | zero => exact fun _ _ _ => Dialogue.meets_put (P := fun _ => True) leaves_tooDeep
    | succ depth ih =>
      intro options ty h
      have hrecord : Leaves r (Lookup.record ty).run fun record =>
          ∃ data, r.type? ty = some data ∧ record = (data.symbol, data.kind.shown) :=
        (typeData_leaves ty).bind fun data hdata => leaves_pure ⟨data, hdata, rfl⟩
      refine ⟨_, hrecord, fun record hfound => ?_⟩
      obtain ⟨data, hdata, rfl⟩ := hfound
      exact Dialogue.step_meets ih (textSettled_serves h hdata)
  rw [← Dialogue.run_text]
  exact (hmeets depth options ty h).leaves

end RegionTypes

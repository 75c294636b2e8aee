import RegionTypes.Proofs.Loading.Reading
import RegionTypes.Proofs.Store.Dialogue

/-!
# Texts of types

The text of a type holds the texts of the types that it is made of, which are older.  Two steps go
elsewhere.  The parameters of a class may be younger, but they are variables, and the text of a variable
is its name.  And in verbose texts a wildcard shows the bound of its formal, which may be any type and
may even hold the wildcard again; but that bound is not shown in verbose form, so this happens once.

* `Store.Legible` — what rendering relies on.
* `Store.textLevel`, `Store.weight` — the handle of a type unless it is a variable, and how much is left
  to be shown: a verbose text weighs more than any other.
* `naming_asks`, `dimensions_asks`, `formalBound_asks`, ... — the questions that a text asks.
* `text_serves` — all that one step of rendering needs; `text_meets` — every text can be had, by
  induction on the depth.
* `render_asks` — **rendering any type ends, under all options**.
-/

namespace RegionTypes

open Run

/-! ### Legible stores -/

/-- Whether the kind is that of a type variable that is not captured. -/
def Kind.isTypeVar : Kind → Bool
  | typeVar _ => true
  | _ => false

/-- Whether the class has been given supertypes. -/
def ClassInfo.hasSupertypes (info : ClassInfo) : Bool := info.supertype.isSome || info.interfaces.isSome

namespace Store

variable {r s : Store} {ty c : TypeId} {sym : SymbolId} {data : TypeData} {info : ClassInfo}

/-- The type parameters of classes are type variables, and none of them is captured. -/
def DeclaresTypeVars (s : Store) : Prop :=
  ∀ data ∈ s.types, ∀ c ∈ data.kind.parameters, (s.kind? c).any Kind.isTypeVar

instance (s : Store) : Decidable s.DeclaresTypeVars :=
  inferInstanceAs (Decidable
    (∀ data ∈ s.types, ∀ c ∈ data.kind.parameters, (s.kind? c).any Kind.isTypeVar))

/-- The classes that have been given supertypes have names. -/
def NamesClasses (s : Store) : Prop :=
  ∀ data ∈ s.types, (data.kind.class?.any ClassInfo.hasSupertypes) →
    (data.symbol.bind s.symbol?).all fun y => !y.name.isEmpty

instance (s : Store) : Decidable s.NamesClasses :=
  inferInstanceAs (Decidable
    (∀ data ∈ s.types, (data.kind.class?.any ClassInfo.hasSupertypes) →
      (data.symbol.bind s.symbol?).all fun y => !y.name.isEmpty))

/-- What rendering relies on, besides what other questions do. -/
structure Legible (s : Store) : Prop where
  declares : s.DeclaresTypeVars
  named : s.NamesClasses
  unsolved : s.Unsolved

instance (s : Store) : Decidable s.Legible :=
  decidable_of_iff (s.DeclaresTypeVars ∧ s.NamesClasses ∧ s.Unsolved)
    ⟨fun h => ⟨h.1, h.2.1, h.2.2⟩, fun h => ⟨h.declares, h.named, h.unsolved⟩⟩

theorem DeclaresTypeVars.declaresVariables (h : s.DeclaresTypeVars) : s.DeclaresVariables := by
  intro data hdata c hc
  obtain ⟨kind, hkind, hvar⟩ := (Option.any_eq_true _ _).1 (h data hdata c hc)
  cases kind with
  | typeVar => rw [hkind]; rfl
  | _ => cases hvar

theorem NamesClasses.no_supertypes (h : r.NamesClasses) (record : r.type? ty = some data)
    (kind : data.kind = .classType info) (hsym : data.symbol = some sym) {y : Symbol}
    (hy : r.symbol? sym = some y) (hname : y.name.isEmpty = true) :
    info.supertype = none ∧ info.interfaces = none := by
  have hnamed := h data (mem_types record)
  simpa [kind, Kind.class?, hsym, hy, hname, ClassInfo.hasSupertypes] using hnamed

/-! ### Weights -/

/-- The handle of a type, or nothing for a type variable. -/
def textLevel (s : Store) (ty : TypeId) : Nat :=
  if ((s.kind? ty).any Kind.isTypeVar) then 0 else ty.index

/-- How much of a text is left to be shown.  What is not verbose weighs less than what is. -/
def weight (s : Store) (options : DisplayOptions) (ty : TypeId) : Nat :=
  s.textLevel ty + if options.verbose then s.types.size else 0

theorem textLevel_le (s : Store) (ty : TypeId) : s.textLevel ty ≤ ty.index := by
  rw [textLevel]
  split
  · exact Nat.zero_le _
  · exact Nat.le_refl _

theorem textLevel_eq (record : s.type? ty = some data) (hvar : data.kind.isTypeVar = false) :
    s.textLevel ty = ty.index := by
  simp [textLevel, kind?, record, hvar]

/-- **What a type is made of, and what its class was declared with, is lower.** -/
theorem Consistent.textLevel_lt (hs : r.Consistent) (hdeclares : r.DeclaresTypeVars)
    (record : r.type? ty = some data) (hvar : data.kind.isTypeVar = false)
    (hc : c ∈ data.kind.ingredients ∨ c ∈ data.kind.parameters) :
    r.Has c ∧ r.textLevel c < r.textLevel ty := by
  rw [textLevel_eq record hvar]
  rcases hc with hmem | hmem
  · exact ⟨hs.has_ingredient record hmem,
      Nat.lt_of_le_of_lt (r.textLevel_le c) ((hs.types ty data record).older c hmem)⟩
  · have hany := hdeclares data (mem_types record) c hmem
    have htag : data.kind.tag.atomic = false := by
      cases hkind : data.kind with
      | classType => rfl
      | _ => simp [hkind, Kind.parameters] at hmem
    rw [textLevel, if_pos hany]
    obtain ⟨kind, hkind, -⟩ := (Option.any_eq_true _ _).1 hany
    obtain ⟨data', record', -⟩ := Option.map_eq_some_iff.1 hkind
    exact ⟨has_iff.2 ⟨data', record'⟩, hs.index_pos record htag⟩

end Store

/-! ### Questions -/

section Questions

variable {r : Store} {load : Loader} {ty : TypeId} {data : TypeData} {depth : Nat}
  {options : DisplayOptions} {Shown : DisplayOptions → TypeId → Prop} (V : Survey r load)

/-- A question of rendering. -/
def Survey.Puts {β : Type} (question : Question β) (post : β → Prop) : Prop :=
  V.Asks (question.ask load) post

theorem qualifiedName_asks (depth : Nat) :
    ∀ sym, sym.index < r.symbols.size → sym.index < depth →
      V.Asks (qualifiedName depth sym) fun _ => True := by
  induction depth with
  | zero => intro sym _ hlt; omega
  | succ depth ih =>
    intro sym hsym hlt
    obtain ⟨y, hy⟩ := Store.exists_symbol hsym
    refine (V.symbolData hy).bind fun y' hface => ?_
    have howner : y'.owner = y.owner := (congrArg Symbol.owner hface :)
    rw [howner]
    cases howner : y.owner with
    | none => exact .pure trivial
    | some owner =>
      obtain ⟨holder, z, hz⟩ := V.settled.consistent.exists_owner hy howner
      refine (V.symbolData hz).bind fun z' _ => ?_
      split
      · exact (ih owner (by omega) (by omega)).map fun _ _ => trivial
      · exact .pure trivial

/-- The dimensions of nested arrays end at an older type, and their index variables are known. -/
theorem dimensions_asks (depth : Nat) : ∀ ty, r.Has ty → ty.index < depth →
    V.Asks (dimensions depth ty) fun found => (r.Has found.2 ∧ found.2.index ≤ ty.index) ∧
      ∀ dim ∈ found.1, ∀ var, dim.2 = some var → var.index < r.symbols.size := by
  induction depth with
  | zero => intro ty _ hlt; omega
  | succ depth ih =>
    intro ty hty hlt
    have hstop : (r.Has ty ∧ ty.index ≤ ty.index) ∧
        ∀ dim ∈ ([] : List (Path × Option SymbolId)), ∀ var, dim.2 = some var →
          var.index < r.symbols.size := ⟨⟨hty, Nat.le_refl _⟩, by simp⟩
    refine (V.kindOf hty).bind fun _ ⟨data, _, record, hfound, hkind⟩ => ?_
    subst hkind
    have hold := (V.settled.consistent.types ty data record).older
    have hnames := V.settled.anchored.names ty data record
    cases hfound with
    | classType => exact .pure hstop
    | @other _ _ _ kind =>
      cases kind with
      | array info =>
        have holder := hold info.elem List.mem_cons_self
        have helem := V.settled.consistent.has_ingredient record (c := info.elem) List.mem_cons_self
        refine (ih info.elem helem (by omega)).bind fun found ⟨⟨hbase, hle⟩, hrest⟩ => ?_
        refine .pure ⟨⟨hbase, Nat.le_trans hle (Nat.le_of_lt holder)⟩,
          List.forall_mem_cons.2 ⟨fun var hvar => ?_, hrest⟩⟩
        have hvar : info.indexVar = some var := hvar
        exact hnames var (by simp [TypeData.names, Kind.indexVars, hvar])
      | _ => exact .pure hstop

theorem dimensionText_asks {dim : Path × Option SymbolId}
    (hknown : ∀ var, dim.2 = some var → var.index < r.symbols.size) :
    V.Asks (dimensionText dim) fun _ => True := by
  obtain ⟨region, indexVar⟩ := dim
  cases indexVar with
  | none => exact .pure trivial
  | some var =>
    obtain ⟨y, hy⟩ := Store.exists_symbol (hknown var rfl)
    exact (V.symbolData hy).map fun _ _ => trivial

theorem described?_asks (hnamed : r.NamesClasses) {sym : SymbolId} {y y' : Symbol}
    (hy : r.symbol? sym = some y) (hface : y'.face = y.face) (hname : y.name.isEmpty = true) :
    V.Asks (described? y') fun found => found = none := by
  have htype : y'.type = y.type := (congrArg Symbol.type hface :)
  rw [described?.eq_def, htype]
  cases htype : y.type with
  | none => exact .pure rfl
  | some canonical =>
    obtain ⟨data, record, hsym⟩ := (V.settled.consistent.symbols sym y hy).canonical canonical htype
    refine (V.kindOf (Store.has_iff.2 ⟨data, record⟩)).map fun _ ⟨full, data', hfull, hfound, hkind⟩ => ?_
    subst hkind
    obtain rfl := Option.mem_unique record hfull
    cases hfound with
    | classType outer kept bare =>
      obtain ⟨hsuper, hinterfaces⟩ := hnamed.no_supertypes record rfl hsym hy hname
      obtain ⟨hsuper', hinterfaces'⟩ := bare hsuper hinterfaces
      simp [Kind.class?, hsuper', hinterfaces']
    | other hclass => rw [hclass]; rfl

variable (record : r.type? ty = some data)

include record

theorem symbolText_asks : V.Asks (symbolText data.symbol) fun _ => True := by
  cases hsym : data.symbol with
  | none => exact .pure trivial
  | some =>
    obtain ⟨y, hy⟩ := V.settled.known record hsym
    exact (V.symbolData hy).map fun _ _ => trivial

theorem qualifiedText_asks (hdepth : r.symbols.size ≤ depth) (otherwise : String) :
    V.Asks (qualifiedText depth data.symbol otherwise) fun _ => True := by
  cases hsym : data.symbol with
  | none => exact .pure trivial
  | some sym =>
    obtain ⟨y, hy⟩ := V.settled.known record hsym
    have hlt := Store.symbol_lt hy
    exact qualifiedName_asks V depth sym hlt (by omega)

/-- No name shows a type: a class without a name has no supertypes. -/
theorem naming_asks (hnamed : r.NamesClasses) {info : ClassInfo} (kind : data.kind = .classType info)
    (hdepth : r.symbols.size ≤ depth) (qualified : Bool) :
    V.Puts (.read (.naming depth data.symbol qualified))
      (Dialogue.ServesName V.Puts Shown options ty) := by
  have hty : r.Has ty := Store.has_iff.2 ⟨data, record⟩
  cases hsym : data.symbol with
  | none => exact .pure trivial
  | some sym =>
    obtain ⟨y, hy⟩ := V.settled.known record hsym
    have hlt := Store.symbol_lt hy
    refine (V.symbolData hy).bind fun y' hface => ?_
    split
    · split
      · exact (qualifiedName_asks V depth sym hlt (by omega)).map fun _ _ => trivial
      · exact .pure trivial
    · next hempty =>
      have hname' : y'.name = y.name := (congrArg Symbol.name hface :)
      have hname : y.name.isEmpty = true := by simpa [hname'] using hempty
      obtain ⟨hsuper, hinterfaces⟩ := hnamed.no_supertypes record kind hsym hy hname
      split
      · have hclass : (r.kind? ty).bind Kind.class? = some info := by
          rw [Store.kind?_eq record, kind]
          rfl
        refine .pure ⟨(V.supertype hty).imp fun found hfound => ?_,
          (V.interfaces hty).imp fun found hfound => ?_⟩
        · rw [Store.supertypeOf, hclass, Option.bind_some, hsuper, or_self] at hfound
          simp [hfound.1]
        · rw [Store.interfacesOf, hclass, Option.bind_some, hinterfaces, Option.getD_none, or_self] at hfound
          simp [hfound.1]
      · refine (described?_asks V hnamed hy hface hname).map fun found hfound => ?_
        simp [Dialogue.ServesName, hfound]

theorem inside_asks {outer : TypeId} (houter : r.Has outer) :
    V.Asks (Lookup.inside data.symbol outer).run fun _ => True := by
  have hmember : V.Asks (isMemberOfType data.symbol) fun _ => True := by
    cases hsym : data.symbol with
    | none => exact .pure trivial
    | some =>
      obtain ⟨y, hy⟩ := V.settled.known record hsym
      refine (V.symbolData hy).bind fun y' hface => ?_
      have howner : y'.owner = y.owner := (congrArg Symbol.owner hface :)
      rw [howner]
      cases howner : y.owner with
      | none => exact .pure trivial
      | some =>
        obtain ⟨-, z, hz⟩ := V.settled.consistent.exists_owner hy howner
        exact (V.symbolData hz).map fun _ _ => trivial
  refine hmember.bind fun member _ => ?_
  split
  · exact (V.kindOf houter).map fun _ _ => trivial
  · exact .pure trivial

theorem formalBound_asks {info : WildcardInfo} (kind : data.kind = .wildcard info)
    (hdepth : r.types.size ≤ depth) :
    V.Puts (.read (.formalBound depth options ty))
      fun bound => ∀ c ∈ bound, options.verbose = true ∧ r.Has c := by
  rw [Survey.Puts, Question.ask, Lookup.run]
  split
  · next hverbose =>
    have hwildcard : V.Asks (wildcard? ty) fun found => found = some info := by
      refine (V.kindOf (Store.has_iff.2 ⟨data, record⟩)).bind fun _ hread => ?_
      obtain ⟨full, data', hfull, hfound, rfl⟩ := hread
      obtain rfl := Option.mem_unique record hfull
      cases hfound with
      | classType => cases kind
      | other =>
        obtain rfl : _ = Kind.wildcard info := kind
        exact .pure rfl
    refine hwildcard.bind fun found hfound => ?_
    rw [hfound, Option.bind_some]
    cases hformal : info.formal with
    | none => exact .pure (by simp)
    | some formal =>
      have hhas : r.Has formal :=
        V.settled.anchored.mentions ty data record formal (by simp [kind, Kind.mentions, hformal])
      have hlt := Store.has_iff_lt.1 hhas
      have hlevel : r.level formal < depth := Nat.lt_of_le_of_lt (r.level_le formal) (by omega)
      exact (upperBound_asks V hlevel hhas).imp fun bound hbound c hc => ⟨hverbose, hbound.2 c hc⟩
  · exact .pure (by simp)

/-! ### Whole texts -/

/-- What a text asks is answered, and it shows lower types, or in verbose texts others that are not to be
shown in verbose form. -/
theorem text_serves (h : r.Legible) (hdepth : r.types.size + r.symbols.size ≤ depth)
    (hlower : ∀ c, r.Has c → r.textLevel c < r.textLevel ty → Shown options c)
    (hquiet : options.verbose = true → ∀ c, r.Has c → Shown { options with verbose := false } c) :
    Dialogue.Serves V.Puts Shown depth options ty data.symbol data.kind.shown := by
  have hs := V.settled.consistent
  have hty : r.Has ty := Store.has_iff.2 ⟨data, record⟩
  have hpart (hvar : data.kind.isTypeVar = false) (c : TypeId)
      (hc : c ∈ data.kind.ingredients ∨ c ∈ data.kind.parameters) : Shown options c := by
    obtain ⟨hhas, hlt⟩ := hs.textLevel_lt h.declares record hvar hc
    exact hlower c hhas hlt
  have hunsolved := h.unsolved data (Store.mem_types record)
  have hnames := V.settled.anchored.names ty data record
  have hsize := Store.has_iff_lt.1 hty
  cases hkind : data.kind with
  | package | error => exact qualifiedText_asks V record (by omega)
  | classType info =>
    have hinner (c : TypeId) (hc : c ∈ (Kind.classType info).inspected) : Shown options c := by
      rw [← hkind] at hc
      exact hpart (by rw [hkind]; rfl) c (Kind.of_mem_inspected hc).2
    have houter := (hs.types ty data record).closed info.outer
      (by rw [hkind]; exact List.mem_cons_self)
    have hlevel : r.level ty < depth := Nat.lt_of_le_of_lt (r.level_le ty) (by omega)
    obtain ⟨d, rfl⟩ : ∃ d, depth = d + 1 := ⟨depth - 1, by omega⟩
    refine ⟨(inside_asks V record houter).imp fun _ _ _ => hinner _ List.mem_cons_self,
      naming_asks V record h.named hkind (by omega), ?_, fun _ =>
        ⟨(regionArguments_asks V (d + 1) ty hlevel hty).imp fun _ _ => trivial,
          (effectArguments_asks V (d + 1) ty hlevel hty).imp fun _ _ => trivial⟩⟩
    obtain ⟨symbol, erased, literal, kind⟩ := data
    obtain rfl : kind = .classType info := hkind
    exact (typeArguments_class_asks V record).imp fun types htypes c hc =>
      hinner c (V.mem_inspected htypes c hc)
  | array info =>
    rw [hkind] at hpart
    have helem := hs.has_ingredient record (by rw [hkind]; exact List.mem_cons_self)
    have holder := (hs.types ty data record).older info.elem
      (by rw [hkind]; exact List.mem_cons_self)
    refine ⟨hpart rfl _ (.inl List.mem_cons_self), fun _ => ?_⟩
    refine (dimensions_asks V depth info.elem helem (by omega)).imp fun found hfound => ⟨?_, ?_⟩
    · refine hlower _ hfound.1.1 (Nat.lt_of_le_of_lt (r.textLevel_le _) ?_)
      rw [Store.textLevel_eq record (by rw [hkind]; rfl)]
      exact Nat.lt_of_le_of_lt hfound.1.2 holder
    · refine List.forall_mem_cons.2 ⟨dimensionText_asks V fun var hvar => ?_,
        fun dim hdim => dimensionText_asks V (hfound.2 dim hdim)⟩
      have hvar : info.indexVar = some var := hvar
      exact hnames var (by simp [TypeData.names, hkind, Kind.indexVars, hvar])
  | method info | forAll info =>
    rw [hkind] at hpart
    exact ⟨fun c hc => hpart rfl c (.inl (List.mem_cons_of_mem _ hc)),
      hpart rfl _ (.inl List.mem_cons_self)⟩
  | captured info w =>
    rw [hkind] at hpart
    exact hpart rfl w (.inl List.mem_cons_self)
  | wildcard =>
    rw [hkind] at hpart
    refine ⟨fun _ => hpart rfl _ (.inl List.mem_cons_self), ?_⟩
    have hdepth' : r.types.size ≤ depth := by omega
    exact (formalBound_asks V record hkind hdepth').imp fun bound hbound c hc =>
      hquiet (hbound c hc).1 c (hbound c hc).2
  | placeholder info =>
    have hnone : info.solution = none := by simpa [hkind, Kind.isSolved] using hunsolved
    rw [hkind] at hpart
    show Shown options (info.solution.getD info.origin)
    rw [hnone]
    exact hpart rfl _ (.inl List.mem_cons_self)
  | _ => exact symbolText_asks V record

omit record in
theorem Dialogue.Meets.asks {α : Type} {d : Dialogue α} (h : d.Meets V.Puts) :
    V.Asks (d.run load) fun _ => True := by
  induction d with
  | done => exact .pure trivial
  | ask question next ih =>
    obtain ⟨P, hquestion, hnext⟩ := h
    exact hquestion.bind fun b hb => ih b (hnext b hb)

omit record in
/-- **Every text can be had**, by induction on the depth.  The texts inside are lighter: those of what a
type is made of because it is lower, and that of the bound of a formal because it is not verbose. -/
theorem text_meets (h : r.Legible) (depth : Nat) : ∀ options ty,
    r.Has ty ∧ r.weight options ty + (r.types.size + r.symbols.size) < depth →
      (Dialogue.text depth options ty).Meets V.Puts := by
  induction depth with
  | zero => intro _ _ hlt; omega
  | succ depth ih =>
    rintro options ty ⟨hty, hlt⟩
    obtain ⟨data, record⟩ := Store.has_iff.1 hty
    have hrecord : V.Asks (Lookup.record ty).run fun found => found = (data.symbol, data.kind.shown) := by
      refine (V.typeData hty).map fun data' ⟨full, hfull, hfound⟩ => ?_
      obtain rfl := Option.mem_unique record hfull
      cases hfound with
      | classType outer => simp only [Kind.shown, outer]
      | other => rfl
    refine ⟨_, hrecord, fun found hfound => ?_⟩
    subst hfound
    refine Dialogue.step_meets ih (text_serves V record h (by omega) (fun c hc hlower => ⟨hc, ?_⟩)
      fun hverbose c hc => ⟨hc, ?_⟩)
    · simp only [Store.weight] at hlt ⊢
      omega
    · have hle := r.textLevel_le c
      have hindex := Store.has_iff_lt.1 hc
      simp only [Store.weight, hverbose, if_true] at hlt
      simp only [Store.weight, Bool.false_eq_true, if_false]
      omega

omit record in
/-- **Rendering any type ends, under all options.** -/
theorem render_asks (h : r.Legible) (hty : r.Has ty)
    (hdepth : 3 * r.types.size + r.symbols.size ≤ depth) (options : DisplayOptions) :
    V.Asks (render load depth options ty) fun _ => True := by
  rw [← Dialogue.run_text]
  refine (text_meets V h depth options ty ⟨hty, ?_⟩).asks
  have hle := r.textLevel_le ty
  have hlt := Store.has_iff_lt.1 hty
  simp only [Store.weight]
  split <;> omega

end Questions

end RegionTypes

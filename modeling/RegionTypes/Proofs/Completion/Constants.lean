import RegionTypes.Proofs.Completion.Profile

/-!
# Types with a literal

A primitive type or a class type with a literal is a type of its own, made from another one.  It has the
profile of its origin, so it answers as its origin does, apart from the literal.

* `constType_fits` — a type that is made from one with a profile has the profile.
* `exists_fits_of_constType` — the class is loaded through its type arguments first; from then on the
  origin has a profile.
* `Session.IsConstant`, `Session.Agree` — what is answered for a type with a literal, and how two types
  agree.
* `literals_agree_with_origin` — **a type with a literal agrees with its origin**, and so do types that
  are made from either of them with another literal.
* `literal_after_damage` — but not where the class is damaged between one answer and the other.
-/

namespace RegionTypes

open Run

namespace Store

variable {s : Store} {ty : TypeId} {data : TypeData}

/-- The cell type that is recorded of a type. -/
def cell? (s : Store) (ty : TypeId) : Option TypeId := (s.class? ty).bind ClassInfo.cellType

/-- The type has the literal. -/
def Carries (s : Store) (ty : TypeId) (value : Literal) : Prop :=
  ∃ data, s.type? ty = some data ∧ data.literal = some value

theorem cell?_pushType (made : TypeData) (hty : s.Has ty) : (s.pushType made).cell? ty = s.cell? ty :=
  congrArg (Option.bind · ClassInfo.cellType) (class?_pushType made hty)

theorem cell?_of_record (hdata : s.type? ty = some data) :
    s.cell? ty = data.kind.class?.bind ClassInfo.cellType := by
  rw [cell?, class?, kind?, hdata]
  rfl

theorem Carries.later {t : Store} {value : Literal} (h : s.Carries ty value) (hlater : s.Later t) :
    t.Carries ty value := by
  obtain ⟨data, hdata, hliteral⟩ := h
  obtain ⟨data', hdata', hkeeps⟩ := hlater.precedes.types ty data hdata
  exact ⟨data', hdata', hkeeps.literal.trans hliteral⟩

theorem Fits.has {profile : TypeData} (h : s.Fits ty profile) : s.Has ty := by
  obtain ⟨data, hdata, -⟩ := h.record
  exact has_iff.2 ⟨data, hdata⟩

theorem later_pushType {made : TypeData} (hnew : made.kind.IsNew) : s.Later (s.pushType made) :=
  .single (.routine (.allocate made hnew))

end Store

section

variable {s t : Session} {ty a b : TypeId} {data profile : TypeData} {value : Literal} {depth : Nat}

/-! ### Making a type with a literal -/

/-- **A type that is made from one with a profile** has the profile and the cell type. -/
theorem constType_fits (load : Loader) (h : s.store.Fits a profile) (depth : Nat) (value : Literal)
    (houter : ∀ info, profile.kind = .classType info → s.store.Has info.outer) :
    (constType load (depth + 1) a value).Returns s fun c s' => ¬ s.store.Has c ∧
      s.store.Later s'.store ∧ s'.store.Fits c profile ∧ s'.store.Carries c value ∧
      s'.store.cell? c = s.store.cell? a ∧ ∀ b, s.store.Has b → s'.store.cell? b = s.store.cell? b := by
  have hpush := s.store.type?_nextType
  cases h with
  | @primitive data p record kind same =>
    refine .step (typeData_run record) ?_
    rw [kind]
    refine ⟨_, _, rfl, s.store.not_has_nextType, Store.later_pushType trivial,
      .primitive (hpush _) rfl ?_, ⟨_, hpush _, rfl⟩, ?_, fun b hb => Store.cell?_pushType _ hb⟩
    · rw [← same, TypeData.profile, TypeData.profile, kind]
    · rw [Store.cell?_of_record (hpush _), Store.cell?_of_record record, kind]
  | @classType data info record kind same args outer =>
    have hinfo : s.store.class? a = some info := Store.class?_eq_some.2 ⟨data, record, kind⟩
    obtain ⟨list, hlist⟩ := Option.isSome_iff_exists.1 args
    have hargs : typeArguments load (depth + 1) a s = .ok list s := by
      refine Listing.ask_of_list? (q := .typeArguments) ?_
      rw [Store.list?, hinfo]
      exact hlist
    refine .step (typeData_run record) ?_
    rw [kind]
    refine .step hargs ⟨_, _, rebuildClass_run hinfo, s.store.not_has_nextType,
      Store.later_pushType rfl, .classType (hpush _) rfl ?_ rfl ?_, ⟨_, hpush _, rfl⟩, ?_,
      fun b hb => Store.cell?_pushType _ hb⟩
    · rw [← same, TypeData.profile, TypeData.profile, kind]
      simp only [Kind.mapClass, ClassInfo.arguments, ClassInfo.signature, ClassInfo.rebuilt, hlist]
    · intro heq
      have hhas := houter info.arguments (by rw [← same, TypeData.profile, kind]; rfl)
      exact s.store.not_has_nextType (heq ▸ hhas)
    · rw [Store.cell?_of_record (hpush _), Store.cell?_of_record record, kind]
      rfl

/-- **The origin gets its profile** before the type is made: its class is loaded through its type
arguments if these are not set.  With them, it is made again in the same way. -/
theorem exists_fits_of_constType {c : TypeId} {s' : Session} (hs : s.TopLevel)
    (hdata : s.store.type? ty = some data)
    (hkind : (∃ p, data.kind = .primitive p) ∨ ∃ info, data.kind = .classType info)
    (houter : ∀ info, data.kind = .classType info → info.outer ≠ ty)
    (hrun : constType (completerLoader (depth + 1)) (depth + 1) ty value s = .ok c s') :
    ∃ t : Session, ∃ profile, s.store.Later t.store ∧ t.store.Fits ty profile ∧
      profile.symbol = data.symbol ∧
      (∀ info, profile.kind = .classType info →
        ∃ own, data.kind = .classType own ∧ info.outer = own.outer) ∧
      constType (completerLoader (depth + 1)) (depth + 1) ty value t = .ok c s' := by
  have hload := completerLoader_later (depth + 1)
  rcases hkind with ⟨p, hkind⟩ | ⟨info, hkind⟩
  · refine ⟨s, data.profile, .refl, .primitive hdata hkind rfl, rfl, fun info hinfo => ?_, hrun⟩
    rw [TypeData.profile, hkind] at hinfo
    cases hinfo
  · rw [constType, bind_run (typeData_run hdata), hkind] at hrun
    obtain ⟨args, t, hargs, hrebuild⟩ := exists_of_bind hrun
    have hlater : s.store.Later t.store := (typeArguments_keeps hload.keeps.toTied _ ty).along.of_ok hargs
    obtain ⟨data', info', hdata', hkind', hkeeps, hprecedes⟩ := hlater.precedes.classType hdata hkind
    have hinfo' : t.store.class? ty = some info' := Store.class?_eq_some.2 ⟨data', hdata', hkind'⟩
    have hlist := Listing.list?_of_ask (q := .typeArguments) hload depth hargs
      (hs.typeArguments hargs).idle hinfo'
    have htypeArgs : info'.typeArgs = some args := by
      rw [Store.list?, hinfo'] at hlist
      exact hlist
    have hagain : typeArguments (completerLoader (depth + 1)) (depth + 1) ty t = .ok args t :=
      Listing.ask_of_list? (q := .typeArguments) hlist
    refine ⟨t, data'.profile, hlater, .classType hdata' hkind' rfl (by rw [htypeArgs]; rfl) ?_,
      hkeeps.symbol, fun found hfound => ⟨info, hkind, ?_⟩, ?_⟩
    · rw [hprecedes.outer]
      exact houter info hkind
    · rw [TypeData.profile, hkind'] at hfound
      obtain rfl := Kind.classType.inj hfound
      exact hprecedes.outer
    · rw [constType, bind_run (typeData_run hdata'), hkind']
      dsimp only
      rw [bind_run hagain, rebuildClass_run hinfo', hkeeps.symbol, hkeeps.erased, hprecedes.outer]
      rw [rebuildClass_run hinfo'] at hrebuild
      exact hrebuild

/-- A type with a literal is made unless a completer comes to a stop. -/
theorem constType_answers (hdata : s.store.type? ty = some data)
    (hkind : (∃ p, data.kind = .primitive p) ∨ ∃ info, data.kind = .classType info)
    (hsymbol : s.store.Knows data.symbol) {n : Nat} :
    (constType (completerLoader n) (depth + 1) ty value).Answers n s := by
  have hload := completerLoader_later n
  refine .step (typeData_run hdata) ?_
  rcases hkind with ⟨p, hkind⟩ | ⟨info, hkind⟩
  · rw [hkind]
    exact answers_of_ok rfl
  · rw [hkind]
    refine (typeArguments_answers_class hdata hkind hsymbol).bind
      (typeArguments_keeps hload.keeps.toTied _ ty).along fun args t _ hlater => ?_
    obtain ⟨info', hinfo', -⟩ := hlater.precedes.exists_class?
      (Store.class?_eq_some.2 ⟨data, hdata, hkind⟩)
    exact answers_of_ok (rebuildClass_run hinfo')

/-! ### What is answered -/

/-- The type answers that it has the literal, and its base type is the canonical type of the symbol, or
itself if there is none. -/
structure Session.IsConstant (s : Session) (depth : Nat) (c : TypeId) (symbol : Option SymbolId)
    (value : Literal) : Prop where
  value : perform (depth + 1) (.ask .constValue (.handle c)) s = .ok (.ok (.literal (some value))) s
  base : perform (depth + 1) (.ask .baseType (.handle c)) s =
    .ok (.ok (.type (some ((s.store.canonical? symbol).getD c)))) s

/-- The questions that are answered at once and always in the same way. -/
def Query.marks : List Query := [.tag, .asElement, .isErased, .enclosingType]

/-- The two types agree: they have the same marks from now on and the same cell type now, and asking
for their lists gives the same answers. -/
structure Session.Agree (s : Session) (depth : Nat) (symbol : Option SymbolId) (a b : TypeId) : Prop where
  marks : ∀ query ∈ Query.marks, ∀ t : Session, s.store.Later t.store → ∃ answer,
    perform (depth + 1) (.ask query (.handle a)) t = .ok (.ok answer) t ∧
      perform (depth + 1) (.ask query (.handle b)) t = .ok (.ok answer) t
  cell : ∃ answer, perform (depth + 1) (.ask .cellType (.handle a)) s = .ok (.ok answer) s ∧
    perform (depth + 1) (.ask .cellType (.handle b)) s = .ok (.ok answer) s
  lists : ∀ query ∈ Query.listings, s.AgreeOn depth query symbol a b ∧ s.AgreeOn depth query symbol b a

theorem perform_of_inquire {query : Query} {answer : Answer}
    (h : inquire (completerLoader depth) depth ty query s = .ok answer s) :
    perform (depth + 1) (.ask query (.handle ty)) s = .ok (.ok answer) s := by
  rw [perform_ask, bind_run h]
  rfl

theorem isConstant_of_carries {c : TypeId} (hfits : s.store.Fits c profile)
    (hcarries : s.store.Carries c value) (hsymbol : s.store.Knows profile.symbol) (depth : Nat) :
    s.IsConstant (depth + 1) c profile.symbol value := by
  obtain ⟨data, hdata, hliteral⟩ := hcarries
  obtain ⟨found, hfound, rfl⟩ := hfits.record
  obtain rfl := Option.mem_unique hdata hfound
  refine ⟨perform_of_inquire ?_, perform_of_inquire ?_⟩
  · rw [inquire, bind_run (typeData_run hdata), hliteral]
    rfl
  · have hbase : baseType (depth + 1) c s = .ok ((s.store.canonical? data.symbol).getD c) s := by
      rw [baseType, bind_run (typeData_run hdata), hliteral]
      exact bind_run (canonicalType_run hsymbol)
    rw [inquire, bind_run hbase]
    rfl

theorem exists_mark {query : Query} (hquery : query ∈ Query.marks) (profile : TypeData) :
    ∃ answer, ∀ (t : Session) (ty : TypeId) (depth : Nat), t.store.Fits ty profile →
      perform (depth + 2) (.ask query (.handle ty)) t = .ok (.ok answer) t := by
  simp only [Query.marks, List.mem_cons, List.not_mem_nil, or_false] at hquery
  rcases hquery with rfl | rfl | rfl | rfl
  · refine ⟨.tag profile.kind.tag, fun t ty depth h => perform_of_inquire ?_⟩
    obtain ⟨data, hdata, rfl⟩ := h.record
    rw [inquire, bind_run (kindOf_run hdata), TypeData.profile, Kind.tag_mapClass]
    rfl
  · refine ⟨.symbol profile.symbol, fun t ty depth h => perform_of_inquire ?_⟩
    obtain ⟨data, hdata, rfl⟩ := h.record
    rw [inquire, bind_run (typeData_run hdata)]
    rfl
  · refine ⟨.truth profile.erased, fun t ty depth h => perform_of_inquire ?_⟩
    obtain ⟨data, hdata, rfl⟩ := h.record
    rw [inquire, bind_run (typeData_run hdata)]
    rfl
  · refine ⟨.type (profile.kind.class?.map ClassInfo.outer), fun t ty depth h => perform_of_inquire ?_⟩
    have henclosing : enclosingType (depth + 1) ty t =
        .ok (profile.kind.class?.map ClassInfo.outer) t := by
      cases h with
      | primitive record kind same | classType record kind same =>
        rw [enclosingType, followed, bind_run (kindOf_run record), ← same, TypeData.profile, kind]
        rfl
    exact bind_run henclosing

/-- **Types with one profile agree.** -/
theorem agree_of_fits {r : Store} (hr : r.Consistent) (hnamed : r.Named) (hattached : r.Attached)
    (hlater : r.Later s.store) (ha : s.store.Fits a profile) (hb : s.store.Fits b profile)
    (hcell : s.store.cell? b = s.store.cell? a) (hsymbol : r.Knows profile.symbol)
    (houter : ∀ info, profile.kind = .classType info → r.Has info.outer ∧ info.outer.index < depth) :
    s.Agree (depth + 3) profile.symbol a b where
  marks query hquery t ht := by
    obtain ⟨answer, hanswer⟩ := exists_mark hquery profile
    exact ⟨answer, hanswer t a (depth + 2) (ha.later ht), hanswer t b (depth + 2) (hb.later ht)⟩
  cell := by
    have hask : ∀ ty, s.store.Fits ty profile →
        perform (depth + 3 + 1) (.ask .cellType (.handle ty)) s =
          .ok (.ok (.type (s.store.cell? ty))) s := by
      intro ty h
      obtain ⟨data, hdata, -⟩ := h.record
      have hrun : cellType ty s = .ok (s.store.cell? ty) s := by
        rw [cellType, bind_run (kindOf_run hdata), Store.cell?_of_record hdata]
        cases data.kind <;> rfl
      exact perform_of_inquire (bind_run hrun)
    exact ⟨_, hask a ha, hcell ▸ hask b hb⟩
  lists query hquery := by
    have hagree : ∀ {β : Type} {q : Listing β} [q.Lawful] {wrap : List β → Answer},
        q.OfProfile (query ∈ Query.regional) →
        (∀ load depth ty, inquire load depth ty query = (do return wrap (← q.ask load depth ty))) →
        s.AgreeOn (depth + 3) query profile.symbol a b ∧
          s.AgreeOn (depth + 3) query profile.symbol b a :=
      fun hq hask => ⟨hq.agreeOn hask hr hnamed hattached hlater ha hb hsymbol houter,
        hq.agreeOn hask hr hnamed hattached hlater hb ha hsymbol houter⟩
    simp only [Query.listings, List.mem_cons, List.not_mem_nil, or_false] at hquery
    rcases hquery with rfl | rfl | rfl | rfl | rfl | rfl
    · exact hagree typeArguments_ofProfile fun _ _ _ => rfl
    · exact hagree (regionArguments_ofProfile (by decide)) fun _ _ _ => rfl
    · exact hagree effectArguments_ofProfile fun _ _ _ => rfl
    · exact hagree (Derivation.Accumulates.ofProfile (d := .allTypes) trivial
        typeArguments_ofProfile) fun _ _ _ => rfl
    · exact hagree (Derivation.Accumulates.ofProfile (d := .allRegions) trivial
        (regionArguments_ofProfile (by decide))) fun _ _ _ => rfl
    · exact hagree (Derivation.Accumulates.ofProfile (d := .allEffects) trivial
        effectArguments_ofProfile) fun _ _ _ => rfl

theorem perform_constType (depth : Nat) (ty : TypeId) (value : Literal) :
    perform (depth + 1) (.constType (.handle ty) value) =
      (do return .ok (.type (some (← constType (completerLoader depth) depth ty value)))) :=
  rfl

/-- Two types with a literal, made one after the other from types with one profile. -/
theorem exists_constants {r : Store} (hr : r.Consistent) (hnamed : r.Named) (hattached : r.Attached)
    (hlater : r.Later s.store) (ha : s.store.Fits a profile) (hb : s.store.Fits b profile)
    (hcell : s.store.cell? b = s.store.cell? a) (hsymbol : r.Knows profile.symbol)
    (houter : ∀ info, profile.kind = .classType info → r.Has info.outer ∧ info.outer.index < depth)
    (w : Literal) :
    ∃ a' s₁ b' s₂,
      perform (depth + 4) (.constType (.handle a) w) s = .ok (.ok (.type (some a'))) s₁ ∧
      perform (depth + 4) (.constType (.handle b) w) s₁ = .ok (.ok (.type (some b'))) s₂ ∧
      a' ≠ b' ∧ s₂.IsConstant (depth + 3) a' profile.symbol w ∧
      s₂.IsConstant (depth + 3) b' profile.symbol w ∧ s₂.Agree (depth + 3) profile.symbol a' b' := by
  have houter' : ∀ t : Session, r.Later t.store → ∀ info, profile.kind = .classType info →
      t.store.Has info.outer := fun t ht info hclass => ht.precedes.has (houter info hclass).1
  obtain ⟨a', s₁, hrun, -, hs₁, hfits, hcarries, hcella, hcells⟩ :=
    constType_fits (completerLoader (depth + 3)) ha (depth + 2) w (houter' s hlater)
  obtain ⟨b', s₂, hrun', hnew', hs₂, hfits', hcarries', hcellb, hcells'⟩ :=
    constType_fits (completerLoader (depth + 3)) (hb.later hs₁) (depth + 2) w
      (houter' s₁ (hlater.trans hs₁))
  have hend : r.Later s₂.store := hlater.trans (hs₁.trans hs₂)
  have hsymbol' : s₂.store.Knows profile.symbol := hend.precedes.knows hsymbol
  have hsameCell : s₂.store.cell? b' = s₂.store.cell? a' :=
    calc s₂.store.cell? b' = s.store.cell? b := hcellb.trans (hcells b hb.has)
      _ = s₂.store.cell? a' := hcell.trans (hcella.symm.trans (hcells' a' hfits.has).symm)
  refine ⟨a', s₁, b', s₂, bind_run hrun, bind_run hrun', ?_,
    isConstant_of_carries (hfits.later hs₂) (hcarries.later hs₂) hsymbol' (depth + 2),
    isConstant_of_carries hfits' hcarries' hsymbol' (depth + 2),
    agree_of_fits hr hnamed hattached hend (hfits.later hs₂) hfits' hsameCell hsymbol houter⟩
  rintro rfl
  exact hnew' hfits.has

end

/-- **A type with a literal agrees with its origin.**  Between the steps of a script, a type with a
literal is made from every primitive type and every class type, unless a completer that is started for
it comes to a stop.  It is new, has the literal, and agrees with its origin: in its marks, in its cell
type, and in its lists, whichever of the two is asked first and whatever has been loaded or settled
before or is loaded in between; for lists of regions this is so unless the symbol is damaged by the time
that both have been asked.  Types that are made with another literal, from the type or from its origin,
agree with each other in the same way. -/
theorem literals_agree_with_origin {s : Session} {ty : TypeId} {data : TypeData} {depth : Nat}
    (hs : s.TopLevel) (hconsistent : s.store.Consistent) (hnamed : s.store.Named)
    (hdata : s.store.type? ty = some data)
    (hkind : (∃ p, data.kind = .primitive p) ∨ ∃ info, data.kind = .classType info)
    (hdepth : ty.index ≤ depth) (v : Literal) :
    (perform (depth + 4) (.constType (.handle ty) v)).Answers (depth + 3) s ∧
    ∀ outcome s', perform (depth + 4) (.constType (.handle ty) v) s = .ok outcome s' →
      ∃ c, outcome = .ok (.type (some c)) ∧ ¬ s.store.Has c ∧
        s'.IsConstant (depth + 3) c data.symbol v ∧ s'.Agree (depth + 3) data.symbol ty c ∧
        ∀ w, ∀ a ∈ [ty, c], ∀ b ∈ [ty, c], ∃ a' s₁ b' s₂,
          perform (depth + 4) (.constType (.handle a) w) s' = .ok (.ok (.type (some a'))) s₁ ∧
          perform (depth + 4) (.constType (.handle b) w) s₁ = .ok (.ok (.type (some b'))) s₂ ∧
          a' ≠ b' ∧ s₂.IsConstant (depth + 3) a' data.symbol w ∧
          s₂.IsConstant (depth + 3) b' data.symbol w ∧ s₂.Agree (depth + 3) data.symbol a' b' := by
  have houter : ∀ info, data.kind = .classType info → info.outer.index < ty.index := by
    intro info hclass
    exact hconsistent.around_lt hdata (by rw [hclass]; rfl)
  have hsymbol : s.store.Knows data.symbol := hnamed ty data hdata
  refine ⟨?_, fun outcome s' hrun => ?_⟩
  · rw [perform_constType]
    exact (constType_answers hdata hkind hsymbol).map
  · rw [perform_constType] at hrun
    obtain ⟨c, u, hmake, hrest⟩ := exists_of_bind hrun
    obtain ⟨rfl, rfl⟩ := EStateM.Result.ok.inj hrest
    obtain ⟨t, profile, hst, hfits, hsame, hinside, hagain⟩ := exists_fits_of_constType hs hdata hkind
      (fun info hclass heq => Nat.lt_irrefl _ (heq ▸ houter info hclass)) hmake
    rw [← hsame] at hsymbol ⊢
    have houter' : ∀ info, profile.kind = .classType info →
        s.store.Has info.outer ∧ info.outer.index < depth := by
      intro info hclass
      obtain ⟨own, hown, heq⟩ := hinside info hclass
      have hlt := houter own hown
      rw [heq]
      exact ⟨Store.has_iff_lt.2 (Nat.lt_trans hlt (Store.has_iff_lt.1 (Store.has_iff.2 ⟨data, hdata⟩))),
        by omega⟩
    obtain ⟨c', u', hmake', hnew, htu, hfits', hcarries, hcell, hcells⟩ :=
      constType_fits (completerLoader (depth + 3)) hfits (depth + 2) v
        fun info hclass => hst.precedes.has (houter' info hclass).1
    obtain ⟨rfl, rfl⟩ := EStateM.Result.ok.inj (hmake'.symm.trans hagain)
    have hsu : s.store.Later u'.store := hst.trans htu
    have hattached := hs.attached
    have hfitsOrigin : u'.store.Fits ty profile := hfits.later htu
    have hcell' : u'.store.cell? c' = u'.store.cell? ty := hcell.trans (hcells ty hfits.has).symm
    refine ⟨c', rfl, fun hhas => hnew (hst.precedes.has hhas),
      isConstant_of_carries hfits' hcarries (hsu.precedes.knows hsymbol) (depth + 2),
      agree_of_fits hconsistent hnamed hattached hsu hfitsOrigin hfits' hcell' hsymbol houter',
      fun w a ha b hb => ?_⟩
    -- both types have the profile and the cell type
    have hboth : ∀ x ∈ [ty, c'], u'.store.Fits x profile ∧ u'.store.cell? x = u'.store.cell? ty := by
      intro x hx
      rcases List.mem_pair.1 hx with rfl | rfl
      · exact ⟨hfitsOrigin, rfl⟩
      · exact ⟨hfits', hcell'⟩
    obtain ⟨hfitsA, hcellA⟩ := hboth a ha
    obtain ⟨hfitsB, hcellB⟩ := hboth b hb
    exact exists_constants hconsistent hnamed hattached hsu hfitsA hfitsB (hcellB.trans hcellA.symm)
      hsymbol houter' w

/-- A session with a class `C` that is not loaded and a use of it; loading gives `C` a region parameter
and then takes the further steps. -/
def pendingUse (further : List Step) : Session :=
  let declared := (makeStep (perform 9) (none, .declareClass "C" none .none none)).after
    (.initial {} .empty)
  let lazy := (makeStep (perform 9) (none, .setCompleter (.handle ⟨11⟩)
    ((none, .defineClass (.handle ⟨12⟩) [] [⟨[.param "P"]⟩] [] none []) :: further) false none)).after
    declared
  (makeStep (perform 9) (none, .classType (.handle ⟨11⟩) none [] [] [] none false)).after lazy

theorem pendingUse_topLevel (further : List Step) : (pendingUse further).TopLevel := by
  unfold pendingUse
  exact .after_step (.after_step (.after_step (.initial {} .empty) rfl) rfl) rfl

theorem pendingUse_consistent : (pendingUse []).store.Consistent := by
  unfold pendingUse
  exact .after_step (.after_step (.after_step (Store.initial_consistent {}) rfl) rfl) rfl

/-- The use of `C` and its literal have one region argument, a root.  The class is loaded when the first
of them is asked. -/
theorem literals_agree_with_origin_pending :
    let s := pendingUse []
    let s' := (perform 17 (.constType (.handle ⟨13⟩) (.text "a"))).after s
    let t := (perform 17 (.ask .regionArguments (.handle ⟨13⟩))).after s'
    s.TopLevel ∧ s.store.Consistent ∧ s.store.Named ∧
      perform 17 (.constType (.handle ⟨13⟩) (.text "a")) s = .ok (.ok (.type (some ⟨14⟩))) s' ∧
      s'.IsConstant 16 ⟨14⟩ (some ⟨11⟩) (.text "a") ∧
      perform 17 (.ask .regionArguments (.handle ⟨13⟩)) s' = .ok (.ok (.regions [Path.root])) t ∧
      ∃ u, perform 17 (.ask .regionArguments (.handle ⟨14⟩)) t = .ok (.ok (.regions [Path.root])) u := by
  intro s s' t
  have hs : s.TopLevel := pendingUse_topLevel []
  have hconsistent : s.store.Consistent := pendingUse_consistent
  have hwf : s.store.WellFormed := by decide +kernel
  have hrecord : ∃ data, s.store.type? ⟨13⟩ = some data ∧ data.symbol = some ⟨11⟩ ∧
      ∃ info, data.kind = .classType info := ⟨_, rfl, rfl, _, rfl⟩
  have hmake : perform 17 (.constType (.handle ⟨13⟩) (.text "a")) s = .ok (.ok (.type (some ⟨14⟩))) s' :=
    rfl
  have hfirst : perform 17 (.ask .regionArguments (.handle ⟨13⟩)) s' =
      .ok (.ok (.regions [Path.root])) t := Run.ok_of_regions? (by decide +kernel)
  have hsecond : ∃ list, (perform 17 (.ask .regionArguments (.handle ⟨14⟩))).regions? t = some list :=
    Option.isSome_iff_exists.1 (by decide +kernel)
  have hkind : (((perform 17 (.ask .regionArguments (.handle ⟨14⟩))).after t).store.symbol? ⟨11⟩).map
      Symbol.kind = some .type := by decide +kernel
  clear_value t s' s
  obtain ⟨data, hdata, hsymbol, hclass⟩ := hrecord
  obtain ⟨list, hlist⟩ := hsecond
  have hsecond := Run.ok_of_regions? hlist
  generalize (perform 17 (.ask .regionArguments (.handle ⟨14⟩))).after t = u at hsecond hkind
  have hsound : ∀ sym, data.symbol = some sym → ¬ u.store.Damaged sym := by
    rw [hsymbol]
    rintro sym ⟨⟩ ⟨y, _, hy, herror, -⟩
    rw [hy, Option.map_some, herror] at hkind
    cases hkind
  obtain ⟨-, h⟩ := literals_agree_with_origin hs hconsistent hwf.named hdata (.inr hclass)
    (Nat.le_refl 13) (.text "a")
  obtain ⟨c, hc, -, hconstant, hagree, -⟩ := h _ _ hmake
  obtain rfl : ⟨14⟩ = c := Option.some.inj (Answer.type.inj (Except.ok.inj hc))
  have htop' : s'.TopLevel := hs.perform hmake
  obtain ⟨-, hlists⟩ := (hagree.lists .regionArguments (by decide)).1 s' .refl htop'
  have hsame := hlists _ _ _ _ _ hfirst .refl (htop'.perform hfirst) hsecond fun _ => hsound
  rw [hsymbol] at hconstant
  exact ⟨hs, hconsistent, hwf.named, hmake, hconstant, hfirst, u, hsecond.trans (by rw [hsame])⟩

/-- **A class that is damaged between the answers.**  Making the literal leaves `C` as it is, with its
completer pending.  The first question for regions loads `C`, which damages it.  The use of `C` has got
its region argument from the canonical type by then and keeps it; its literal gets none from the error
type. -/
theorem literal_after_damage :
    let s := pendingUse [(none, .errorTypeForClass (.handle ⟨11⟩))]
    let s' := (perform 17 (.constType (.handle ⟨13⟩) (.text "a"))).after s
    let t := (perform 17 (.ask .regionArguments (.handle ⟨13⟩))).after s'
    let u := (perform 17 (.ask .regionArguments (.handle ⟨14⟩))).after t
    perform 17 (.constType (.handle ⟨13⟩) (.text "a")) s = .ok (.ok (.type (some ⟨14⟩))) s' ∧
      (s'.store.symbol? ⟨11⟩).map (fun y => (y.kind, y.completer.isSome)) = some (.type, true) ∧
      perform 17 (.ask .regionArguments (.handle ⟨13⟩)) s' = .ok (.ok (.regions [Path.root])) t ∧
      perform 17 (.ask .regionArguments (.handle ⟨14⟩)) t = .ok (.ok (.regions [])) u :=
  ⟨rfl, by decide +kernel, Run.ok_of_regions? (by decide +kernel),
    Run.ok_of_regions? (by decide +kernel)⟩

end RegionTypes

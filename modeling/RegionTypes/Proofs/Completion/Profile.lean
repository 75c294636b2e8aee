import RegionTypes.Proofs.Completion.OmittedRegions
import RegionTypes.Proofs.Store.Signature

/-!
# Types that were made with the same arguments

Two class types of one class that were made with the same lists of arguments may be in different states:
one has lists that were settled or kept, where the other has to load its class first.  What they answer
is the same all the same, whichever of them is asked first.

* `TypeData.profile` — a type without its literal, its cell type and what is supplied to it later.
* `Store.Fits` — the type is a primitive type, or a class type that has its type arguments, with the
  profile; it stays so (`Store.Fits.later`).
* `Listing.OfProfile` — **the answer is a matter of the profile**, unless the class is damaged: it exists,
  and two types with one profile that keep an answer keep the same one.
* `typeArguments_ofProfile`, ... — the six questions that are answered with a list.
* `Session.AgreeOn`, `Listing.OfProfile.agreeOn` — so asking one of two such types and then the other
  gives one answer.
-/

namespace RegionTypes

open Run

/-- What a class type was written with: its signature without the supertypes. -/
def ClassInfo.arguments (info : ClassInfo) : ClassInfo :=
  { info.signature with supertype := none, interfaces := none }

/-- The type without its literal and its cell type, and without what is supplied to it later. -/
def TypeData.profile (data : TypeData) : TypeData :=
  { data with literal := none, kind := data.kind.mapClass ClassInfo.arguments }

theorem Kind.tag_mapClass (f : ClassInfo → ClassInfo) (k : Kind) : (k.mapClass f).tag = k.tag := by
  cases k <;> rfl

theorem Kind.Precedes.eq_of_primitive {p : Primitive} {k : Kind} (h : Kind.Precedes (.primitive p) k) :
    k = .primitive p := by
  cases h
  rfl

variable {n : Nat}

namespace Store

variable {s t : Store} {ty a b : TypeId} {profile : TypeData}

/-- The type has the profile.  It is a primitive type, or a class type that has its type arguments and
does not enclose itself. -/
inductive Fits (s : Store) (ty : TypeId) (profile : TypeData) : Prop
  | primitive {data : TypeData} {p : Primitive} (record : s.type? ty = some data)
      (kind : data.kind = .primitive p) (same : data.profile = profile)
  | classType {data : TypeData} {info : ClassInfo} (record : s.type? ty = some data)
      (kind : data.kind = .classType info) (same : data.profile = profile)
      (args : info.typeArgs.isSome) (outer : info.outer ≠ ty)

theorem Fits.record (h : s.Fits ty profile) :
    ∃ data, s.type? ty = some data ∧ data.profile = profile := by
  cases h with
  | primitive record kind same => exact ⟨_, record, same⟩
  | classType record kind same => exact ⟨_, record, same⟩

theorem Fits.later (h : s.Fits ty profile) (hlater : s.Later t) : t.Fits ty profile := by
  cases h with
  | @primitive data p record kind same =>
    obtain ⟨data', record', hkeeps⟩ := hlater.precedes.types ty data record
    have kind' : data'.kind = .primitive p := by
      have hkind := hkeeps.kind
      rw [kind] at hkind
      exact hkind.eq_of_primitive
    refine .primitive record' kind' ?_
    rw [← same, TypeData.profile, TypeData.profile, hkeeps.symbol, hkeeps.erased, kind, kind']
  | @classType data info record kind same args outer =>
    obtain ⟨data', info', record', kind', hkeeps, hsignature⟩ := hlater.classRecord record kind args
    have hargs : info'.typeArgs = info.typeArgs := (congrArg ClassInfo.typeArgs hsignature :)
    have houter : info'.outer = info.outer := (congrArg ClassInfo.outer hsignature :)
    refine .classType record' kind' ?_ (by rwa [hargs]) (by rwa [houter])
    rw [← same, TypeData.profile, TypeData.profile, hkeeps.symbol, hkeeps.erased, kind, kind']
    simp only [Kind.mapClass, ClassInfo.arguments, hsignature]

/-! ### Class types with one profile -/

/-- Two class types with one profile, with their records. -/
structure Siblings (s : Store) (a b : TypeId) (da db : TypeData) (ia ib : ClassInfo) : Prop where
  recordA : s.type? a = some da
  recordB : s.type? b = some db
  kindA : da.kind = .classType ia
  kindB : db.kind = .classType ib
  symbol : db.symbol = da.symbol
  erased : db.erased = da.erased
  arguments : ib.arguments = ia.arguments
  outerA : ia.outer ≠ a
  outerB : ib.outer ≠ b

/-- Two types with one profile are of one kind. -/
theorem Fits.cases (ha : s.Fits a profile) (hb : s.Fits b profile) :
    (∃ da db p, s.type? a = some da ∧ s.type? b = some db ∧ da.kind = .primitive p ∧
      db.kind = .primitive p) ∨
    ∃ da db ia ib, da.symbol = profile.symbol ∧ s.Siblings a b da db ia ib := by
  have hkinds : ∀ {da db : TypeData}, da.profile = profile → db.profile = profile →
      db.kind.mapClass ClassInfo.arguments = da.kind.mapClass ClassInfo.arguments :=
    fun hda hdb => congrArg TypeData.kind (hdb.trans hda.symm)
  cases ha with
  | @primitive da p recordA kindA sameA =>
    cases hb with
    | @primitive db p' recordB kindB sameB =>
      have hkind := hkinds sameA sameB
      rw [kindA, kindB] at hkind
      exact .inl ⟨da, db, p, recordA, recordB, kindA, kindB.trans hkind⟩
    | classType _ kindB sameB =>
      have hkind := hkinds sameA sameB
      rw [kindA, kindB] at hkind
      cases hkind
  | @classType da ia recordA kindA sameA _ outerA =>
    cases hb with
    | primitive _ kindB sameB =>
      have hkind := hkinds sameA sameB
      rw [kindA, kindB] at hkind
      cases hkind
    | @classType db ib recordB kindB sameB _ outerB =>
      have hkind := hkinds sameA sameB
      rw [kindA, kindB] at hkind
      have hsame : db.profile = da.profile := sameB.trans sameA.symm
      exact .inr ⟨da, db, ia, ib, (congrArg TypeData.symbol sameA :), recordA, recordB, kindA, kindB,
        (congrArg TypeData.symbol hsame :), (congrArg TypeData.erased hsame :),
        Kind.classType.inj hkind, outerA, outerB⟩

section

variable {da db : TypeData} {ia ib : ClassInfo} {β : Type} {list : List β} {depth : Nat}

theorem Siblings.classA (h : s.Siblings a b da db ia ib) : s.class? a = some ia :=
  class?_eq_some.2 ⟨da, h.recordA, h.kindA⟩

theorem Siblings.classB (h : s.Siblings a b da db ia ib) : s.class? b = some ib :=
  class?_eq_some.2 ⟨db, h.recordB, h.kindB⟩

theorem Siblings.outer (h : s.Siblings a b da db ia ib) : ib.outer = ia.outer :=
  (congrArg ClassInfo.outer h.arguments :)

theorem Siblings.declared_eq {slot : Slot β} {la lb : List β} (h : s.Siblings a b da db ia ib)
    (hslot : slot.Declared) (ha : s.list? slot a = some la) (hb : s.list? slot b = some lb) :
    la = lb := by
  rw [list?, h.classA] at ha
  rw [list?, h.classB] at hb
  have ha : slot.read ia = some la := ha
  have hb : slot.read ib = some lb := hb
  have hread : (slot.read ib).getD [] = (slot.read ia).getD [] := by
    cases hslot with
    | typeArgs => exact congrArg (Option.getD · []) (congrArg ClassInfo.typeArgs h.arguments :)
    | regionArgs => exact Option.some.inj (congrArg ClassInfo.regionArgs h.arguments :)
    | effectArgs => exact Option.some.inj (congrArg ClassInfo.effectArgs h.arguments :)
  rw [ha, hb] at hread
  exact hread.symm

theorem held_of_le {q : Listing β} (h : s.held q depth ty = some list) (hn : depth ≤ n) :
    s.held q n ty = some list := by
  induction depth generalizing ty n with
  | zero => cases h
  | succ depth ih =>
    obtain ⟨n, rfl⟩ : ∃ k, n = k + 1 := ⟨n - 1, by omega⟩
    obtain ⟨_, ⟨⟩, hlist | ⟨data, hdata, hclass, hother⟩⟩ := held_cases h
    · exact held_of_list? hlist
    · rw [held_other hdata hclass]
      cases hinstead : q.other data.kind with
      | inl =>
        rw [hinstead] at hother
        exact hother
      | inr =>
        rw [hinstead] at hother
        exact ih hother (by omega)

theorem held_unique {q : Listing β} {list' : List β} (h : s.held q depth ty = some list)
    (h' : s.held q n ty = some list') : list = list' := by
  have hdepth := held_of_le h (Nat.le_max_left depth n)
  have hn := held_of_le h' (Nat.le_max_right depth n)
  exact Option.mem_unique hdepth hn

/-- **Region arguments that are kept** by two class types with one profile, unless the class is damaged. -/
theorem Siblings.regions_eq {la lb : List Path} (h : s.Siblings a b da db ia ib) (hs : s.Backfilled)
    (hintact : s.Intact da.symbol) (ha : s.list? .resolvedRegions a = some la)
    (hb : s.list? .resolvedRegions b = some lb) : la = lb := by
  obtain ⟨declared, hdeclared, hgivenA, homittedA⟩ := hs.regions_cases h.recordA hintact ha
  rw [← h.symbol] at hintact
  obtain ⟨declared', hdeclared', hgivenB, homittedB⟩ := hs.regions_cases h.recordB hintact hb
  obtain rfl := h.declared_eq .regionArgs hdeclared hdeclared'
  rw [h.symbol, h.erased] at hgivenB homittedB
  -- the lists are given, or they are worked out from the canonical type of the class
  by_cases hgiven : da.erased = true ∨ s.canonical? da.symbol = none ∨ declared ≠ []
  · rw [hgivenA (hgiven.imp_right .inr), hgivenB (hgiven.imp_right .inr)]
  · push Not at hgiven
    obtain ⟨herased, hcanonical, rfl⟩ := hgiven
    have herased : da.erased = false := by simpa using herased
    obtain ⟨c, hc⟩ := Option.ne_none_iff_exists'.1 hcanonical
    -- the canonical type itself has no region arguments
    have hself : ∀ {x : TypeId} {list formals : List Path} {depth : Nat}, c = x →
        (s.canonical? da.symbol = some x → list = []) → s.list? .resolvedRegions x = some list →
        s.held .regionArguments depth c = some formals → formals = [] := by
      rintro x list formals depth rfl hlist hkept hheld
      rw [hlist hc] at hkept
      have hnone : s.held .regionArguments 1 c = some [] := held_of_list? hkept
      exact held_unique hheld hnone
    by_cases hca : c = a
    · have hla : la = [] := hgivenA (.inr (.inl (hca ▸ hc)))
      by_cases hcb : c = b
      · rw [hla, hgivenB (.inr (.inl (hcb ▸ hc)))]
      · obtain ⟨formals, depth, hformals, rfl⟩ := homittedB herased rfl c hc hcb
        rw [hla, hself hca (fun _ => hla) ha hformals]
        rfl
    · obtain ⟨formals, depth, hformals, rfl⟩ := homittedA herased rfl c hc hca
      by_cases hcb : c = b
      · have hlb : lb = [] := hgivenB (.inr (.inl (hcb ▸ hc)))
        rw [hlb, hself hcb (fun _ => hlb) hb hformals]
        rfl
      · obtain ⟨formals', depth', hformals', rfl⟩ := homittedB herased rfl c hc hcb
        rw [held_unique hformals hformals']

theorem list?_of_held {q : Listing β} {info : ClassInfo} (hinfo : s.class? ty = some info)
    (h : s.held q depth ty = some list) :
    s.list? q.slot ty = some list := by
  cases depth with
  | zero => cases h
  | succ =>
    rw [held_class hinfo] at h
    rw [list?, hinfo]
    exact h

end

end Store

/-! ### Questions about the profile -/

/-- The answer to the question is a matter of the profile of a type, provided that the class is not
damaged if the question is about regions. -/
structure Listing.OfProfile {β : Type} (q : Listing β) (regional : Prop) : Prop where
  primitive : ∀ p, q.other (.primitive p) = .inl []
  /-- There is an answer for a class type inside an older store with the type around it. -/
  answers : ∀ {r : Store} {s : Session} {ty : TypeId} {data : TypeData} {info : ClassInfo} {n depth : Nat},
    r.Consistent → r.Named → r.Attached → r.Later s.store → s.store.type? ty = some data →
    data.kind = .classType info → s.store.Knows data.symbol → r.Has info.outer →
    info.outer.index < depth → (q.ask (completerLoader n) (depth + 3) ty).Answers n s
  /-- Lists that are kept are the same. -/
  agrees : ∀ {s : Store} {a b : TypeId} {da db : TypeData} {ia ib : ClassInfo} {la lb : List β},
    s.Accumulated → s.Backfilled → s.Siblings a b da db ia ib → (regional → s.Intact da.symbol) →
    s.list? q.slot a = some la → s.list? q.slot b = some lb → la = lb

section

variable {regional : Prop}

theorem typeArguments_ofProfile : Listing.typeArguments.OfProfile regional where
  primitive _ := rfl
  answers _ _ _ _ hdata hkind hsymbol _ _ := typeArguments_answers_class hdata hkind hsymbol
  agrees _ _ h _ ha hb := h.declared_eq .typeArgs ha hb

theorem effectArguments_ofProfile : Listing.effectArguments.OfProfile regional where
  primitive _ := rfl
  answers _ _ _ _ hdata hkind hsymbol _ _ := effectArguments_answers_class hdata hkind hsymbol
  agrees _ _ h _ ha hb := h.declared_eq .effectArgs ha hb

theorem regionArguments_ofProfile (hregional : regional) :
    Listing.regionArguments.OfProfile regional where
  primitive _ := rfl
  answers _ _ hattached hlater hdata _ hsymbol _ _ :=
    regionArguments_answers (hlater.attached hattached) hdata hsymbol
  agrees _ hs h hintact ha hb := h.regions_eq hs (hintact hregional) ha hb

/-- A list along the enclosing types is a matter of the profile if the class's own part is. -/
theorem Derivation.Accumulates.ofProfile {β : Type} {d : Derivation β} (hd : d.Accumulates)
    (hpart : d.part.OfProfile regional) : d.listing.OfProfile regional where
  primitive _ := by cases d <;> rfl
  answers hr hnamed hattached hlater hdata hkind hsymbol houter hdepth :=
    Listing.ask_answers_class hdata hkind (hd.work_answers (hlater.attached hattached) hdata hkind
      hsymbol fun _ ht => hd.answers hr hnamed hattached (hlater.trans ht) houter (by omega))
  agrees hs hs' h hintact ha hb := by
    obtain ⟨info, own, hinfo, hown, hcases⟩ := hd.follows_iff.1 (hs.follows d _ _ ha hd)
    obtain ⟨info', own', hinfo', hown', hcases'⟩ := hd.follows_iff.1 (hs.follows d _ _ hb hd)
    obtain rfl := Option.mem_unique hinfo h.classA
    obtain rfl := Option.mem_unique hinfo' h.classB
    obtain ⟨-, around, depth, haround, rfl⟩ := hcases.resolve_left fun hself => h.outerA hself.1.eq
    obtain ⟨-, around', depth', haround', rfl⟩ := hcases'.resolve_left fun hself => h.outerB hself.1.eq
    rw [h.outer] at haround'
    rw [hpart.agrees hs hs' h hintact hown hown', Store.held_unique haround haround']

end

/-- The questions about regions, whose answers may depend on the canonical type of a class. -/
def Query.regional : List Query := [.regionArguments, .allRegionParams]

/-- The question is asked of the first type and then, perhaps after other steps, of the second, between
the steps of a script at any later time.  There is an answer unless a completer that is started for it
comes to a stop, and it is the same for both; if it is about regions, this is so unless the symbol is
damaged by then. -/
def Session.AgreeOn (s : Session) (depth : Nat) (query : Query) (symbol : Option SymbolId)
    (a b : TypeId) : Prop :=
  ∀ t : Session, s.store.Later t.store → t.TopLevel →
    (perform (depth + 1) (.ask query (.handle a))).Answers depth t ∧
    ∀ outcome t' u outcome' u', perform (depth + 1) (.ask query (.handle a)) t = .ok outcome t' →
      t'.store.Later u.store → u.TopLevel →
      perform (depth + 1) (.ask query (.handle b)) u = .ok outcome' u' →
      (query ∈ Query.regional → ∀ sym, symbol = some sym → ¬ u'.store.Damaged sym) →
        outcome' = outcome

section

variable {r : Store} {s : Session} {a b : TypeId} {profile : TypeData} {depth : Nat} {query : Query}
  {β : Type}

theorem Listing.OfProfile.ask_answers {q : Listing β} [q.Lawful] {regional : Prop}
    (hq : q.OfProfile regional) (hr : r.Consistent) (hnamed : r.Named) (hattached : r.Attached)
    (hlater : r.Later s.store) (h : s.store.Fits a profile) (hsymbol : s.store.Knows profile.symbol)
    (houter : ∀ info, profile.kind = .classType info → r.Has info.outer ∧ info.outer.index < depth) :
    (q.ask (completerLoader n) (depth + 3) a).Answers n s := by
  cases h with
  | @primitive data p record kind same =>
    refine Listing.ask_answers record (fun info hclass => ?_) fun next _ hnext => ?_
    · rw [kind] at hclass
      cases hclass
    · rw [kind, hq.primitive p] at hnext
      cases hnext
  | @classType data info record kind same args outer =>
    obtain ⟨hhas, hlt⟩ := houter info.arguments (by rw [← same, TypeData.profile, kind]; rfl)
    rw [← same] at hsymbol
    exact hq.answers hr hnamed hattached hlater record kind hsymbol hhas hlt

theorem Listing.OfProfile.held_eq {q : Listing β} {regional : Prop} {la lb : List β}
    (hq : q.OfProfile regional) (hs : s.TopLevel) (ha : s.store.Fits a profile)
    (hb : s.store.Fits b profile) (hintact : regional → s.store.Intact profile.symbol)
    (hla : s.store.held q n a = some la) (hlb : s.store.held q n b = some lb) : la = lb := by
  rcases ha.cases hb with ⟨da, db, p, hda, hdb, hka, hkb⟩ | ⟨da, db, ia, ib, hsymbol, h⟩
  · have hnone : ∀ {ty : TypeId} {data : TypeData} {list : List β}, s.store.type? ty = some data →
        data.kind = .primitive p → s.store.held q n ty = some list → list = [] := by
      intro ty data list hdata hkind hheld
      obtain ⟨d, rfl, -⟩ := Store.held_cases hheld
      rw [Store.held_other hdata (by rw [hkind]; rfl), hkind, hq.primitive p] at hheld
      exact (Option.some.inj hheld).symm
    rw [hnone hda hka hla, hnone hdb hkb hlb]
  · refine hq.agrees hs.accumulated hs.backfilled h (fun hregional => ?_)
      (Store.list?_of_held h.classA hla) (Store.list?_of_held h.classB hlb)
    rw [hsymbol]
    exact hintact hregional

/-- **Two types with one profile have one answer**, whichever of them is asked first. -/
theorem Listing.OfProfile.agreeOn {q : Listing β} [q.Lawful] {wrap : List β → Answer}
    (hq : q.OfProfile (query ∈ Query.regional))
    (hquery : ∀ load depth ty, inquire load depth ty query = (do return wrap (← q.ask load depth ty)))
    (hr : r.Consistent) (hnamed : r.Named) (hattached : r.Attached) (hlater : r.Later s.store)
    (ha : s.store.Fits a profile) (hb : s.store.Fits b profile) (hsymbol : r.Knows profile.symbol)
    (houter : ∀ info, profile.kind = .classType info → r.Has info.outer ∧ info.outer.index < depth) :
    s.AgreeOn (depth + 3) query profile.symbol a b := by
  have hload := completerLoader_later (depth + 3)
  intro t ht htop
  have hrt : r.Later t.store := hlater.trans ht
  refine ⟨?_, fun outcome t' u outcome' u' hfirst hu hutop hsecond hsound => ?_⟩
  · rw [perform_ask, hquery]
    exact (hq.ask_answers hr hnamed hattached hrt (ha.later ht) (hrt.precedes.knows hsymbol)
      houter).map.map
  · have hidle := (htop.perform hfirst).idle
    have hutop' := hutop.perform hsecond
    rw [perform_ask, hquery, bind_assoc] at hfirst hsecond
    obtain ⟨la, t₁, hla, hrest⟩ := exists_of_bind hfirst
    obtain ⟨rfl, rfl⟩ := EStateM.Result.ok.inj hrest
    obtain ⟨lb, u₁, hlb, hrest'⟩ := exists_of_bind hsecond
    obtain ⟨rfl, rfl⟩ := EStateM.Result.ok.inj hrest'
    -- both lists are held in the end
    have ht₁ : t.store.Later t₁.store := (Listing.Lawful.later hload _ _).of_ok hla
    have hu₁ : u.store.Later u₁.store := (Listing.Lawful.later hload _ _).of_ok hlb
    have hend : s.store.Later u₁.store := ht.trans (ht₁.trans (hu.trans hu₁))
    have hheld := (hu.precedes.trans hu₁.precedes).held (q.held_of_ask hload hla hidle)
    have hheld' := q.held_of_ask hload hlb hutop'.idle
    rw [hq.held_eq hutop' (ha.later hend) (hb.later hend)
      (fun hregional => hutop'.attached.intact (hsound hregional)) hheld hheld']

end

end RegionTypes

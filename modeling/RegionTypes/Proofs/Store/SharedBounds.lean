import RegionTypes.Proofs.Store.Dialect
import RegionTypes.Proofs.Store.Evolution

/-!
# Bounds shared by the occurrences of a variable

A declared type variable occurs in many places, each a copy with region arguments of its own.  The
bound is kept twice, at the copy through which it was set and at the declared variable, and a copy
without a bound reads the declared one's.

* `Store.ByCopying` — later states, reached by operations that give a variable a prototype only by
  copying it.
* `Store.Sharing` — **the invariant**: a prototype is a declared variable, and a bound that a copy has
  is the bound of its prototype.
* `Store.OccurrenceOf` — the occurrences of a declared variable: itself, its copies, and their copies.
* `Command.GivesNoPrototype` — the commands that keep to this.
* `occurrences_share_bound` — **all occurrences of a declared variable share one bound**.
-/

namespace RegionTypes

open Run

theorem Kind.Revised.var? {n : Nat} {a b : Kind} (h : a.Revised n b) : b.var? = a.var? := by
  cases h <;> rfl

variable {info : VarInfo}

theorem Kind.IsNew.prototype {k : Kind} (h : k.IsNew) (hvar : k.var? = some info) :
    info.prototype = none := by
  cases k with
  | typeVar | captured =>
    obtain rfl := Option.some.inj hvar
    exact h
  | _ => cases hvar

theorem VarInfo.bound_setBound {bound : TypeId} (h : info.refuses bound = false) :
    (info.setBound bound).bound = some bound := by
  unfold refuses at h
  cases hbound : info.bound with
  | none => simp [setBound, hbound]
  | some old =>
    have hold : old = bound := by simpa [hbound] using h
    simp [setBound, hbound, hold]

variable {declared : VarInfo} {ty : TypeId}

namespace Store

variable {s t : Store} {m v bound : TypeId}

/-- The changes in which prototypes arise by copying only. -/
inductive CopyStep (s : Store) : Store → Prop
  | routine {t : Store} (h : s.Routine t) : CopyStep s t
  | install (sym : SymbolId) (completer : Completer) :
    CopyStep s (s.updateSymbol sym fun y => { y with completer := some completer })
  | thrown (thrown : List TypeId) (ty : TypeId) : CopyStep s (s.setThrown thrown ty)

theorem CopyStep.change (h : s.CopyStep t) : s.Change t := by
  cases h with
  | routine h => exact .routine h
  | install sym completer => exact .install sym completer
  | thrown thrown ty => exact .thrown thrown ty

/-- A later state, reached by changes in which prototypes arise by copying only. -/
def ByCopying : Store → Store → Prop := Relation.ReflTransGen CopyStep

instance : IsPreorder Store ByCopying where
  refl _ := .refl
  trans _ _ _ := .trans

theorem ByCopying.precedes (h : s.ByCopying t) : s.Precedes t := by
  induction h with
  | refl => exact precedes_of_eq rfl rfl
  | tail _ hstep ih => exact ih.trans hstep.change.evolves.precedes

/-! ### Variables -/

/-- The data of a variable. -/
def var? (s : Store) (ty : TypeId) : Option VarInfo := (s.type? ty).bind fun data => data.kind.var?

theorem var?_eq_some {data : TypeData} (hdata : s.type? m = some data)
    (hvar : data.kind.var? = some info) : s.var? m = some info := by
  rw [var?, hdata, Option.bind_some, hvar]

/-- The type is a declared variable: it has no prototype. -/
def DeclaresVar (s : Store) (ty : TypeId) (info : VarInfo) : Prop :=
  ∃ data, s.type? ty = some data ∧ data.kind = .typeVar info ∧ info.prototype = none

theorem DeclaresVar.prototype (h : s.DeclaresVar ty info) : info.prototype = none := by
  obtain ⟨_, _, _, hnone⟩ := h
  exact hnone

theorem var?_pushType (s : Store) (data : TypeData) (ty : TypeId) :
    (s.pushType data).var? ty = if ty = s.nextType then data.kind.var? else s.var? ty := by
  rw [var?, type?_pushType]
  split
  · rfl
  · rfl

theorem var?_setBound (s : Store) (bound ty m : TypeId) :
    (s.setBound bound ty).var? m =
      if ty = m then (s.var? m).map (VarInfo.setBound bound) else s.var? m := by
  rw [var?, setBound, reviseType, type?_updateType]
  split
  · rw [var?]
    cases s.type? m with
    | none => rfl
    | some data =>
      show (data.kind.mapVar (VarInfo.setBound bound)).var? =
        data.kind.var?.map (VarInfo.setBound bound)
      cases data.kind <;> rfl
  · rfl

theorem var?_reviseType {f : Kind → Kind}
    (h : ∀ data, s.type? ty = some data → (f data.kind).var? = data.kind.var?) (m : TypeId) :
    (s.reviseType ty f).var? m = s.var? m :=
  bind_type?_reviseType h m

theorem DeclaresVar.var? (h : s.DeclaresVar v info) : s.var? v = some info := by
  obtain ⟨data, hdata, hkind, _⟩ := h
  exact var?_eq_some hdata (hkind ▸ rfl)

theorem Precedes.declaresVar (hst : s.Precedes t) (h : s.DeclaresVar v info) :
    ∃ info', t.DeclaresVar v info' ∧ Kept info.bound info'.bound := by
  obtain ⟨data, hdata, hkind, hnone⟩ := h
  obtain ⟨data', hdata', hkept⟩ := hst.types v data hdata
  have hprecedes := hkept.kind
  rw [hkind] at hprecedes
  obtain ⟨info', hkind', hinfo⟩ := hprecedes.of_typeVar
  exact ⟨info', ⟨data', hdata', hkind', hinfo.prototype.trans hnone⟩, hinfo.bound⟩

/-! ### The invariant -/

/-- Prototypes are declared variables, and they have the bounds that their copies have. -/
def Sharing (s : Store) : Prop :=
  ∀ m info owner, s.var? m = some info → info.prototype = some owner →
    ∃ declared, s.DeclaresVar owner declared ∧ Kept info.bound declared.bound

theorem initial_sharing (options : DisplayOptions) : (initial options).Sharing := by
  intro m info owner hvar
  obtain ⟨data, hdata, hkind⟩ := Option.bind_eq_some_iff.1 hvar
  have hnone : ∀ data ∈ initialTypes, data.kind.var?.isNone := by decide
  have hdata' := hnone data (mem_initialTypes hdata)
  rw [hkind] at hdata'
  cases hdata'

/-- It is enough to look at the variables whose data is new. -/
theorem Sharing.step (h : s.Sharing) (hst : s.Precedes t)
    (hnew : ∀ m info owner, t.var? m = some info → info.prototype = some owner →
      s.var? m = some info ∨
        ∃ declared, t.DeclaresVar owner declared ∧ Kept info.bound declared.bound) :
    t.Sharing := by
  intro m info owner hvar howner
  rcases hnew m info owner hvar howner with hold | hshared
  · obtain ⟨declared, hdeclared, hkept⟩ := h m info owner hold howner
    obtain ⟨declared', hdeclared', hkept'⟩ := hst.declaresVar hdeclared
    exact ⟨declared', hdeclared', hkept.trans hkept'⟩
  · exact hshared

/-- The declared variable that a variable is an occurrence of. -/
theorem Sharing.exists_declared {data : TypeData} (h : s.Sharing) (hdata : s.type? m = some data)
    (hkind : data.kind = .typeVar info) :
    ∃ declared, s.DeclaresVar (info.prototype.getD m) declared ∧
      Kept info.bound declared.bound := by
  cases howner : info.prototype with
  | none => exact ⟨info, ⟨data, hdata, hkind, howner⟩, .refl _⟩
  | some owner => exact h m info owner (var?_eq_some hdata (hkind ▸ rfl)) howner

theorem Sharing.copy (h : s.Sharing) {declared : TypeId} {data : TypeData}
    (hdata : s.type? declared = some data) (hkind : data.kind = .typeVar info) (regionArgs : List Path) :
    (s.pushType { symbol := data.symbol,
                  kind := .typeVar (info.copy declared regionArgs) }).Sharing := by
  have hst := s.precedes_pushType
    { symbol := data.symbol, kind := .typeVar (info.copy declared regionArgs) }
  refine h.step hst fun m found owner hvar howner => ?_
  rw [var?_pushType] at hvar
  split at hvar
  · obtain rfl := Option.some.inj hvar
    obtain rfl := Option.some.inj howner
    obtain ⟨root, hroot, -⟩ := h.exists_declared hdata hkind
    obtain ⟨root', hroot', -⟩ := hst.declaresVar hroot
    exact .inr ⟨root', hroot', .of_none rfl⟩
  · exact .inl hvar

theorem Sharing.setBound (h : s.Sharing) (hvar : s.var? m = some info) (hnone : info.prototype = none) :
    (s.setBound bound m).Sharing := by
  refine h.step (s.evolves_setBound bound m).precedes fun n found owner hfound howner => ?_
  rw [var?_setBound] at hfound
  split at hfound
  · next hmn =>
    subst hmn
    rw [hvar] at hfound
    obtain rfl := Option.some.inj hfound
    rw [VarInfo.setBound, hnone] at howner
    cases howner
  · exact .inl hfound

theorem DeclaresVar.setBound_self (h : s.DeclaresVar v declared) (bound : TypeId) :
    (s.setBound bound v).DeclaresVar v (declared.setBound bound) := by
  obtain ⟨data, hdata, hkind, hnone⟩ := h
  refine ⟨{ data with kind := .typeVar (declared.setBound bound) }, ?_, rfl, hnone⟩
  rw [Store.setBound, reviseType, type?_updateType, if_pos rfl, hdata, Option.map_some, hkind]
  rfl

theorem DeclaresVar.setBound_of_ne (h : s.DeclaresVar v declared) (hne : m ≠ v) (bound : TypeId) :
    (s.setBound bound m).DeclaresVar v declared := by
  obtain ⟨data, hdata, hkind, hnone⟩ := h
  refine ⟨data, ?_, hkind, hnone⟩
  rw [Store.setBound, reviseType, type?_updateType, if_neg hne, hdata]

theorem DeclaresVar.ne (h : s.DeclaresVar v declared) (hvar : s.var? m = some info)
    (howner : info.prototype = some v) : m ≠ v := by
  rintro rfl
  obtain rfl := Option.mem_unique hvar h.var?
  rw [h.prototype] at howner
  cases howner

/-- A copy and its prototype get their bound together. -/
theorem Sharing.setBoth (h : s.Sharing) (hvar : s.var? m = some info) (howner : info.prototype = some v)
    (hdeclared : s.DeclaresVar v declared) (hfree : info.refuses bound = false)
    (hfree' : declared.refuses bound = false) :
    ((s.setBound bound m).setBound bound v).Sharing := by
  have hne := hdeclared.ne hvar howner
  have hroot := (hdeclared.setBound_of_ne hne bound).setBound_self bound
  have hst := (s.evolves_setBound bound m).precedes.trans
    ((s.setBound bound m).evolves_setBound bound v).precedes
  refine h.step hst fun n found owner hfound hprototype => ?_
  rw [var?_setBound] at hfound
  split at hfound
  · next hvn =>
    -- the prototype itself has none
    subst hvn
    rw [var?_setBound, if_neg hne, hdeclared.var?] at hfound
    obtain rfl := Option.some.inj hfound
    rw [VarInfo.setBound, hdeclared.prototype] at hprototype
    cases hprototype
  · rw [var?_setBound] at hfound
    split at hfound
    · next hmn =>
      subst hmn
      rw [hvar] at hfound
      obtain rfl := Option.some.inj hfound
      obtain rfl : v = owner := Option.mem_unique howner hprototype
      refine .inr ⟨_, hroot, ?_⟩
      rw [VarInfo.bound_setBound hfree, VarInfo.bound_setBound hfree']
      exact .refl _
    · exact .inl hfound

/-- **One change keeps the invariant.** -/
theorem CopyStep.sharing (hst : s.CopyStep t) (h : s.Sharing) : t.Sharing := by
  have hprecedes := hst.change.evolves.precedes
  cases hst with
  | install => exact h.step hprecedes fun _ _ _ hvar _ => .inl hvar
  | thrown =>
    refine h.step hprecedes fun m info owner hvar _ => .inl ?_
    rwa [setThrown, var?_reviseType fun data _ => by cases data.kind <;> rfl] at hvar
  | routine hst =>
    cases hst with
    | allocate data hnew =>
      refine h.step hprecedes fun m info owner hvar howner => ?_
      rw [var?_pushType] at hvar
      split at hvar
      · rw [hnew.prototype hvar] at howner
        cases howner
      · exact .inl hvar
    | copy declared data info regionArgs hdata hkind => exact h.copy hdata hkind regionArgs
    | revise ty f hrevised =>
      refine h.step hprecedes fun m info owner hvar _ => .inl ?_
      rwa [var?_reviseType fun data hdata => (hrevised data hdata).var?] at hvar
    | bound ty bound data info hdata hvar hfree hown =>
      have hvar' := var?_eq_some hdata hvar
      refine h.setBound hvar' ?_
      cases howner : info.prototype with
      | none => rfl
      | some owner =>
        obtain ⟨declared, ⟨ownerData, hownerData, hkind, -⟩, -⟩ := h ty info owner hvar' howner
        have hnone := hown owner ownerData howner hownerData
        rw [hkind] at hnone
        cases hnone
    | sharedBound ty owner bound data ownerData info ownerInfo hdata hvar hfree howner hownerData
        hownerVar hownerFree =>
      have hvar' := var?_eq_some hdata hvar
      obtain ⟨declared, hdeclared, -⟩ := h ty info owner hvar' howner
      obtain rfl := Option.mem_unique (var?_eq_some hownerData hownerVar) hdeclared.var?
      exact h.setBoth hvar' howner hdeclared hfree hownerFree
    | _ => exact h.step hprecedes fun _ _ _ hvar _ => .inl hvar

theorem ByCopying.sharing (hst : s.ByCopying t) (h : s.Sharing) : t.Sharing := by
  induction hst with
  | refl => exact h
  | tail _ hstep ih => exact hstep.sharing ih

/-! ### Occurrences -/

/-- The type is the declared variable `v`, a copy of it or a copy of a copy. -/
inductive OccurrenceOf (s : Store) (v : TypeId) : TypeId → Prop
  | declared {info : VarInfo} (h : s.DeclaresVar v info) : OccurrenceOf s v v
  | copy {m : TypeId} {data : TypeData} {info : VarInfo} (hdata : s.type? m = some data)
      (hkind : data.kind = .typeVar info) (hprototype : info.prototype = some v) :
    OccurrenceOf s v m

/-- The bound that the occurrences of a variable share. -/
def sharedBound (s : Store) (v : TypeId) : Option TypeId := (s.var? v).bind VarInfo.bound

theorem DeclaresVar.sharedBound (h : s.DeclaresVar v info) :
    s.sharedBound v = info.bound := by
  rw [Store.sharedBound, h.var?]
  rfl

theorem Precedes.occurrenceOf (hst : s.Precedes t) (h : s.OccurrenceOf v m) :
    t.OccurrenceOf v m := by
  cases h with
  | declared hdeclared =>
    obtain ⟨info', hdeclared', -⟩ := hst.declaresVar hdeclared
    exact .declared hdeclared'
  | @copy _ data info hdata hkind hprototype =>
    obtain ⟨data', hdata', hkept⟩ := hst.types m data hdata
    have hprecedes := hkept.kind
    rw [hkind] at hprecedes
    obtain ⟨info', hkind', hinfo⟩ := hprecedes.of_typeVar
    exact .copy hdata' hkind' (hinfo.prototype.trans hprototype)

/-- What is known about an occurrence. -/
theorem Sharing.exists_occurrence (h : s.Sharing) (hm : s.OccurrenceOf v m) :
    ∃ data info declared, s.type? m = some data ∧ data.kind = .typeVar info ∧
      s.DeclaresVar v declared ∧ Kept info.bound declared.bound ∧
      (m = v ∧ info = declared ∨ info.prototype = some v) := by
  cases hm with
  | declared hdeclared =>
    obtain ⟨data, hdata, hkind, hnone⟩ := hdeclared
    exact ⟨data, _, _, hdata, hkind, ⟨data, hdata, hkind, hnone⟩, .refl _, .inl ⟨rfl, rfl⟩⟩
  | @copy _ data info hdata hkind hprototype =>
    obtain ⟨declared, hdeclared, hkept⟩ := h m info v (var?_eq_some hdata (hkind ▸ rfl)) hprototype
    exact ⟨data, info, declared, hdata, hkind, hdeclared, hkept, .inr hprototype⟩

end Store

section Occurrences

variable {s s' : Session} {v m bound : TypeId} {depth : Nat} {load : Loader}

/-- **An occurrence answers with the shared bound.** -/
theorem upperBound_run (h : s.store.Sharing) (hm : s.store.OccurrenceOf v m) :
    upperBound (depth + 1) m s = .ok (s.store.sharedBound v) s := by
  obtain ⟨data, info, declared, hdata, hkind, hdeclared, hkept, hcases⟩ :=
    h.exists_occurrence hm
  rw [upperBound, followed, bind_run (kindOf_run hdata), hdeclared.sharedBound]
  simp only [hkind, Kind.leadsTo, Kind.var?]
  unfold varBound
  cases hbound : info.bound with
  | some own =>
    rw [hkept own hbound]
    rfl
  | none =>
    rcases hcases with ⟨rfl, rfl⟩ | hprototype
    · rw [hdeclared.prototype, hbound]
      rfl
    · obtain ⟨ownerData, hownerData, hownerKind, -⟩ := hdeclared
      rw [hprototype]
      refine (bind_run (kindOf_run hownerData)).trans ?_
      rw [hownerKind]
      rfl

theorem prototypeOf_none_run (h : info.prototype = none) :
    prototypeOf info s = .ok none s := by
  unfold prototypeOf
  rw [h]
  rfl

theorem prototypeOf_run (h : s.store.DeclaresVar v declared) (hprototype : info.prototype = some v) :
    prototypeOf info s = .ok (some (v, declared)) s := by
  obtain ⟨data, hdata, hkind, -⟩ := h
  unfold prototypeOf
  rw [hprototype]
  refine (bind_run (kindOf_run hdata)).trans ?_
  rw [hkind]
  rfl

/-- **A bound that is unset, or that is the given one, is set.** -/
theorem setUpperBound_run (load : Loader) (depth : Nat) (h : s.store.Sharing)
    (hm : s.store.OccurrenceOf v m)
    (hfree : s.store.sharedBound v = none ∨ s.store.sharedBound v = some bound) :
    ∃ s', setUpperBound load depth m bound s = .ok (.ok ()) s' ∧
      s'.store.sharedBound v = some bound ∧ s.store.ByCopying s'.store := by
  obtain ⟨data, info, declared, hdata, hkind, hdeclared, hkept, hcases⟩ :=
    h.exists_occurrence hm
  rw [hdeclared.sharedBound] at hfree
  have hfree' : declared.refuses bound = false := by
    rcases hfree with hnone | hsame
    · simp [VarInfo.refuses, hnone]
    · simp [VarInfo.refuses, hsame]
  have hown : info.refuses bound = false := by
    cases hbound : info.bound with
    | none => simp [VarInfo.refuses, hbound]
    | some own =>
      have hkept' := hkept own hbound
      rw [VarInfo.refuses, hkept'] at hfree'
      rw [VarInfo.refuses, hbound]
      exact hfree'
  rw [setUpperBound, bind_run (kindOf_run hdata)]
  simp only [hkind, Kind.var?]
  have hvar : data.kind.var? = some info := by rw [hkind]; rfl
  rcases hcases with ⟨rfl, rfl⟩ | hprototype
  · have hnone : info.prototype = none := hdeclared.prototype
    rw [bind_run (prototypeOf_none_run hnone)]
    simp only [hown]
    refine ⟨{ s with store := s.store.setBound bound m }, rfl, ?_, ?_⟩
    · show (s.store.setBound bound m).sharedBound m = some bound
      rw [(hdeclared.setBound_self bound).sharedBound, VarInfo.bound_setBound hown]
    · refine .single (.routine (.bound m bound data info hdata hvar hown fun owner _ howner => ?_))
      rw [hnone] at howner
      cases howner
  · have hne := hdeclared.ne (Store.var?_eq_some hdata hvar) hprototype
    rw [bind_run (prototypeOf_run hdeclared hprototype)]
    simp only [hown, hfree']
    refine ⟨{ s with store := (s.store.setBound bound m).setBound bound v }, rfl, ?_, ?_⟩
    · show ((s.store.setBound bound m).setBound bound v).sharedBound v = some bound
      rw [((hdeclared.setBound_of_ne hne bound).setBound_self bound).sharedBound,
        VarInfo.bound_setBound hfree']
    · obtain ⟨ownerData, hownerData, hownerKind, -⟩ := hdeclared
      have hownerVar : ownerData.kind.var? = some declared := by rw [hownerKind]; rfl
      exact .single (.routine (.sharedBound m v bound data ownerData info declared hdata hvar hown
        hprototype hownerData hownerVar hfree'))

/-- **Any other bound is refused**; the refusal names an occurrence. -/
theorem setUpperBound_refused (load : Loader) (depth : Nat) (h : s.store.Sharing)
    (hm : s.store.OccurrenceOf v m) {old : TypeId} (hold : s.store.sharedBound v = some old)
    (hne : old ≠ bound) :
    ∃ culprit, s.store.OccurrenceOf v culprit ∧
      setUpperBound load depth m bound s = alreadySet load depth .upperBound culprit s := by
  obtain ⟨data, info, declared, hdata, hkind, hdeclared, hkept, hcases⟩ :=
    h.exists_occurrence hm
  rw [hdeclared.sharedBound] at hold
  have hrefuses : declared.refuses bound = true := by simp [VarInfo.refuses, hold, hne]
  rw [setUpperBound, bind_run (kindOf_run hdata)]
  simp only [hkind, Kind.var?]
  rcases hcases with ⟨rfl, rfl⟩ | hprototype
  · refine ⟨m, hm, ?_⟩
    rw [bind_run (prototypeOf_none_run hdeclared.prototype)]
    simp only [hrefuses]
    rfl
  · rw [bind_run (prototypeOf_run hdeclared hprototype)]
    cases hown : info.refuses bound with
    | true => exact ⟨m, hm, rfl⟩
    | false =>
      refine ⟨v, .declared hdeclared, ?_⟩
      simp only [hrefuses]
      rfl

theorem Store.OccurrenceOf.exists_data {r : Store} (hm : r.OccurrenceOf v m) :
    ∃ data info, r.type? m = some data ∧ data.kind = .typeVar info ∧ info.prototype.getD m = v := by
  cases hm with
  | declared hdeclared =>
    obtain ⟨data, hdata, hkind, hnone⟩ := hdeclared
    exact ⟨data, _, hdata, hkind, by rw [hnone]; rfl⟩
  | copy hdata hkind hprototype => exact ⟨_, _, hdata, hkind, by rw [hprototype]; rfl⟩

/-- Naming an occurrence leaves the store alone. -/
theorem alreadySet_occurrence (load : Loader) (depth : Nat) (hm : s.store.OccurrenceOf v m)
    (field : Field) : ((alreadySet load depth field m).after s).store = s.store := by
  obtain ⟨data, info, hdata, hkind, -⟩ := hm.exists_data
  suffices h : s.store = ((display load depth m).after s).store from
    (along_of_bind h fun _ s' _ => along_pure _ s').symm
  refine along_of_still storeOptions_still fun options s₁ _ hstore => ?_
  cases depth with
  | zero => exact tooDeep_still s₁
  | succ depth =>
    show s₁.store = ((render load (depth + 1) options m).after s₁).store
    rw [Dialogue.render_succ]
    refine along_of_still (typeData_still m) fun found s₂ hrun _ => ?_
    obtain ⟨rfl, hfound⟩ := eq_of_typeData hrun
    rw [hstore, hdata] at hfound
    obtain rfl := Option.some.inj hfound
    rw [hkind]
    exact (((symbolText_reads data.symbol).keeps (T := Tie.ofMoves Eq)).along.bind fun _ => along_pure _) s₂

theorem alreadySet_occurrence_run (load : Loader) (depth : Nat) (hm : s.store.OccurrenceOf v m)
    (hknown : ∀ data sym, s.store.type? m = some data → data.symbol = some sym →
      (s.store.symbol? sym).isSome) (field : Field) :
    ∃ error, alreadySet load (depth + 1) field m s = .ok (.error error) s := by
  obtain ⟨data, info, hdata, hkind, -⟩ := hm.exists_data
  have hname : ∃ name, symbolText data.symbol s = .ok name s := by
    cases hsymbol : data.symbol with
    | none => exact ⟨_, rfl⟩
    | some sym =>
      obtain ⟨y, hy⟩ := Option.isSome_iff_exists.1 (hknown data sym hdata hsymbol)
      exact ⟨y.name, bind_run (symbolData_run hy)⟩
  obtain ⟨name, hname⟩ := hname
  have hrender : ∃ text, render load (depth + 1) s.store.options m s = .ok text s := by
    rw [Dialogue.render_succ, bind_run (typeData_run hdata), hkind]
    exact ⟨_, bind_run hname⟩
  obtain ⟨text, hrender⟩ := hrender
  have hdisplay : display load (depth + 1) m s = .ok text s := hrender
  exact ⟨_, bind_run hdisplay⟩

theorem alreadySet_ne_ok {field : Field} :
    alreadySet load depth field ty s ≠ .ok (.ok ()) s' := by
  intro h
  obtain ⟨_, _, _, hpure⟩ := exists_of_bind h
  injection hpure with hresult
  cases hresult

/-! What setting the bound of an occurrence can end with. -/

/-- A shared bound is unset, the given one or another one. -/
theorem Store.sharedBound_cases (r : Store) (v bound : TypeId) :
    (r.sharedBound v = none ∨ r.sharedBound v = some bound) ∨
      ∃ old, r.sharedBound v = some old ∧ old ≠ bound := by
  cases hold : r.sharedBound v with
  | none => exact .inl (.inl rfl)
  | some old =>
    by_cases hsame : old = bound
    · exact .inl (.inr (congrArg some hsame))
    · exact .inr ⟨old, rfl, hsame⟩

section Outcomes

variable (h : s.store.Sharing) (hm : s.store.OccurrenceOf v m)
include h hm

theorem setUpperBound_ok (hrun : setUpperBound load depth m bound s = .ok (.ok ()) s') :
    (s.store.sharedBound v = none ∨ s.store.sharedBound v = some bound) ∧
      s'.store.sharedBound v = some bound ∧ s.store.ByCopying s'.store := by
  rcases s.store.sharedBound_cases v bound with hfree | ⟨old, hold, hne⟩
  · obtain ⟨s₁, hrun₁, hset⟩ := setUpperBound_run load depth h hm hfree
    rw [hrun] at hrun₁
    injection hrun₁ with _ hs
    subst hs
    exact ⟨hfree, hset⟩
  · obtain ⟨culprit, -, hrefused⟩ := setUpperBound_refused load depth h hm hold hne
    rw [hrefused] at hrun
    exact absurd hrun alreadySet_ne_ok

theorem setUpperBound_error {error : TypeError}
    (hrun : setUpperBound load depth m bound s = .ok (.error error) s') :
    s'.store = s.store := by
  rcases s.store.sharedBound_cases v bound with hfree | ⟨old, hold, hne⟩
  · obtain ⟨s₁, hrun₁, -⟩ := setUpperBound_run load depth h hm hfree
    rw [hrun] at hrun₁
    injection hrun₁ with hresult
    cases hresult
  · obtain ⟨culprit, hculprit, hrefused⟩ := setUpperBound_refused load depth h hm hold hne
    rw [hrefused] at hrun
    have hstore := alreadySet_occurrence load depth hculprit .upperBound
    rwa [after_of_ok hrun] at hstore

end Outcomes

/-- **From the moment it is set, all occurrences answer with the bound.** -/
theorem upperBound_later {t : Session} (h : s.store.Sharing) (hm : s.store.OccurrenceOf v m)
    (hbound : s.store.sharedBound v = some bound) (hst : s.store.ByCopying t.store) {n : TypeId}
    (hn : t.store.OccurrenceOf v n) : upperBound (depth + 1) n t = .ok (some bound) t := by
  obtain ⟨_, _, declared, _, _, hdeclared, _⟩ := h.exists_occurrence hm
  obtain ⟨declared', hdeclared', hkept⟩ := hst.precedes.declaresVar hdeclared
  rw [upperBound_run (hst.sharing h) hn, hdeclared'.sharedBound]
  rw [hdeclared.sharedBound] at hbound
  rw [hkept bound hbound]

theorem copyTypeVar_occurrence (hm : s.store.OccurrenceOf v m) {regionArgs : List Path}
    {c : TypeId} (h : copyTypeVar load depth m regionArgs s = .ok c s') :
    s'.store.OccurrenceOf v c := by
  obtain ⟨data, info, hdata, hkind, hprototype⟩ := hm.exists_data
  rw [copyTypeVar, bind_run (typeData_run hdata)] at h
  simp only [hkind] at h
  cases hsymbol : data.symbol with
  | none =>
    rw [hsymbol] at h
    exact absurd h violation_ne_ok
  | some =>
    rw [hsymbol] at h
    injection h with hc hs
    subst hc hs
    have hnew : ∀ data : TypeData, (s.store.pushType data).type? s.store.nextType = some data :=
      fun data => (Store.type?_pushType _ _ _).trans (if_pos rfl)
    exact .copy (hnew _) rfl (congrArg some hprototype)

end Occurrences

/-! ### Runs in which prototypes arise by copying only -/

/-- The commands that neither install a completer nor are given a prototype. -/
def Command.isRoutine : Command → Bool
  | .setCompleter .. | .typeVar .. => false
  | _ => true

/-- The command, and every command of a script that it installs, makes no variable for a given
prototype. -/
inductive Command.GivesNoPrototype : Command → Prop
  | typeVar (symbol : SymbolRef) (bound lower : Option TypeRef)
      (regionParams regionArgs : List Path) :
    GivesNoPrototype (.typeVar symbol bound lower regionParams regionArgs none)
  | setCompleter {script : List Step} (h : ∀ step ∈ script, GivesNoPrototype step.2)
      (symbol : SymbolRef) (propagate : Bool) (failure : Option String) :
    GivesNoPrototype (.setCompleter symbol script propagate failure)
  | routine {command : Command} (h : command.isRoutine) : GivesNoPrototype command

/-- The commands that give no prototype. -/
def Dialect.copying : Dialect where
  Allows := Command.GivesNoPrototype
  script _ _ _ _ h := by
    cases h with
    | setCompleter hscript => exact hscript
    | routine hroutine => cases hroutine

theorem Command.GivesNoPrototype.copyStep {command : Command} (h : command.GivesNoPrototype)
    {s t : Store} (hst : command.Makes s t) : s.CopyStep t := by
  cases hst with
  | install symbol completer sym => exact .install sym completer
  | thrown type types thrown ty => exact .thrown thrown ty
  | prototyped symbol bound lower regionParams regionArgs prototype sym info hprototype =>
    cases h with
    | typeVar => exact .routine (.allocate _ (hprototype rfl))
    | routine hroutine => cases hroutine

/-- A command that gives no prototype, whatever completers it starts. -/
theorem perform_copying (depth : Nat) {command : Command} (h : command.GivesNoPrototype) :
    Along (Dialect.copying.Along Store.ByCopying) (perform depth command) :=
  Dialect.perform_along (fun _ _ h => .single (.routine h))
    (fun _ hcommand _ _ h => .single (hcommand.copyStep h)) depth command h

theorem Session.ReachableIn.byCopying {s : Session} (hs : s.ReachableIn .copying) :
    s.store.LoadsIn .copying ∧ ∃ options, (Store.initial options).ByCopying s.store :=
  hs.along (fun _ _ h => .single (.routine h)) fun _ hcommand _ _ h => .single (hcommand.copyStep h)

/-- **All occurrences of a declared variable share one bound.**  In every state of a run of commands
that give no prototype, also while completers run: the occurrences of a variable, which copying adds
to and which stay, answer with one bound; setting it through any of them succeeds exactly when it is
unset or the given one, and from then on all of them answer with it; a refusal changes nothing at
all. -/
theorem occurrences_share_bound :
    (∀ s : Session, s.ReachableIn .copying →
      (∃ options, (Store.initial options).ByCopying s.store) ∧
        ∀ depth command, command.GivesNoPrototype →
          s.store.ByCopying ((perform depth command).after s).store) ∧
    ∀ (options : DisplayOptions) (s : Session) (v m : TypeId),
      (Store.initial options).ByCopying s.store → s.store.OccurrenceOf v m →
      (∃ answer, (∀ n depth, s.store.OccurrenceOf v n → upperBound (depth + 1) n s = .ok answer s) ∧
        ∀ (load : Loader) (depth : Nat) (bound : TypeId),
          ((∃ s', setUpperBound load depth m bound s = .ok (.ok ()) s') ↔
            answer = none ∨ answer = some bound) ∧
          (∀ s', setUpperBound load depth m bound s = .ok (.ok ()) s' →
            s.store.ByCopying s'.store ∧ ∀ (t : Session) n d, s'.store.ByCopying t.store →
              t.store.OccurrenceOf v n → upperBound (d + 1) n t = .ok (some bound) t) ∧
          (∀ error s', setUpperBound load depth m bound s = .ok (.error error) s' →
            s'.store = s.store) ∧
          ((∀ n data sym, s.store.OccurrenceOf v n → s.store.type? n = some data →
            data.symbol = some sym → (s.store.symbol? sym).isSome) → 0 < depth →
              ¬ (answer = none ∨ answer = some bound) →
                ∃ error s', setUpperBound load depth m bound s = .ok (.error error) s')) ∧
      (∀ (load : Loader) depth regionArgs c s', copyTypeVar load depth m regionArgs s = .ok c s' →
        s'.store.OccurrenceOf v c) ∧
      ∀ t : Store, s.store.ByCopying t → t.OccurrenceOf v m := by
  refine ⟨fun s hs => ?_, fun options s v m hs hm => ?_⟩
  · obtain ⟨hloads, hinitial⟩ := hs.byCopying
    exact ⟨hinitial, fun depth command hcommand => (perform_copying depth hcommand s hloads).2⟩
  · have hsharing := hs.sharing (Store.initial_sharing options)
    refine ⟨⟨s.store.sharedBound v, fun n depth hn => upperBound_run hsharing hn,
      fun load depth bound => ?_⟩, fun _ _ _ _ _ h => copyTypeVar_occurrence hm h,
      fun t ht => ht.precedes.occurrenceOf hm⟩
    refine ⟨⟨fun ⟨s', hrun⟩ => (setUpperBound_ok hsharing hm hrun).1, fun hfree => ?_⟩,
      fun s' hrun => ?_, fun error s' hrun => setUpperBound_error hsharing hm hrun,
      fun hknown hdepth hother => ?_⟩
    · obtain ⟨s', hrun, -⟩ := setUpperBound_run load depth hsharing hm hfree
      exact ⟨s', hrun⟩
    · obtain ⟨-, hbound, hstep⟩ := setUpperBound_ok hsharing hm hrun
      have hm' := hstep.precedes.occurrenceOf hm
      exact ⟨hstep, fun t n d ht hn =>
        upperBound_later (hstep.sharing hsharing) hm' hbound ht hn⟩
    · obtain ⟨old, hold, hne⟩ := (s.store.sharedBound_cases v bound).resolve_left hother
      obtain ⟨culprit, hculprit, hrefused⟩ :=
        setUpperBound_refused load depth hsharing hm hold hne
      obtain ⟨d, rfl⟩ : ∃ d, depth = d + 1 := ⟨depth - 1, by omega⟩
      obtain ⟨error, herror⟩ := alreadySet_occurrence_run load d hculprit
        (fun data sym => hknown culprit data sym hculprit) .upperBound
      exact ⟨error, s, hrefused.trans herror⟩

/-- A variable, a copy of it and a copy of the copy.  The bound that is set through the last one shows
in the first one and in any copy that is made later, and another bound is refused by the second
one. -/
theorem occurrences_share_bound_copy_of_copy :
    let run (s : Session) (command : Command) := (makeStep (perform 9) (none, command)).after s
    let s := run (run (run (.initial {} .empty) (.newTypeVar "T" none none))
      (.copyTypeVar (.handle ⟨12⟩) [])) (.copyTypeVar (.handle ⟨13⟩) [])
    s.ReachableIn .copying ∧ s.store.OccurrenceOf ⟨12⟩ ⟨14⟩ ∧
      ∃ s', setUpperBound (completerLoader 8) 8 ⟨14⟩ WellKnown.int s = .ok (.ok ()) s' ∧
        (∀ (t : Session) n d, s'.store.ByCopying t.store → t.store.OccurrenceOf ⟨12⟩ n →
          upperBound (d + 1) n t = .ok (some WellKnown.int) t) ∧
        ∃ error s'', setUpperBound (completerLoader 8) 8 ⟨13⟩ WellKnown.long s' =
          .ok (.error error) s'' ∧ s''.store = s'.store := by
  intro run s
  have hs : s.ReachableIn .copying :=
    .step 9 _ (.routine rfl) (.step 9 _ (.routine rfl)
      (.step 9 _ (.routine rfl) (.initial {} .empty)))
  obtain ⟨hruns, hstates⟩ := occurrences_share_bound
  obtain ⟨⟨options, hcopying⟩, -⟩ := hruns s hs
  have hlast : s.store.OccurrenceOf ⟨12⟩ ⟨14⟩ := .copy rfl rfl rfl
  have hsecond : s.store.OccurrenceOf ⟨12⟩ ⟨13⟩ := .copy rfl rfl rfl
  obtain ⟨⟨answer, hanswer, hset⟩, -⟩ := hstates options s ⟨12⟩ ⟨14⟩ hcopying hlast
  obtain ⟨hok, hlater, -⟩ := hset (completerLoader 8) 8 WellKnown.int
  -- the variable has no bound at first
  have hnone : answer = none := by
    have hrun := hanswer ⟨12⟩ 0 (.declared ⟨_, rfl, rfl, rfl⟩)
    injection hrun with hrun
    exact hrun.symm
  obtain ⟨s', hrun⟩ := hok.2 (.inl hnone)
  obtain ⟨hstep, hshared⟩ := hlater s' hrun
  obtain ⟨-, -, hstays⟩ := hstates options s ⟨12⟩ ⟨13⟩ hcopying hsecond
  have hsecond' := hstays s'.store hstep
  obtain ⟨⟨answer', hanswer', hset'⟩, -⟩ :=
    hstates options s' ⟨12⟩ ⟨13⟩ (hcopying.trans hstep) hsecond'
  have hint : answer' = some WellKnown.int := by
    have hrun' := (hanswer' ⟨13⟩ 0 hsecond').symm.trans (hshared s' ⟨13⟩ 0 .refl hsecond')
    injection hrun'
  obtain ⟨-, -, hunchanged, herrs⟩ := hset' (completerLoader 8) 8 WellKnown.long
  have hknown : ∀ n data sym, s'.store.OccurrenceOf ⟨12⟩ n → s'.store.type? n = some data →
      data.symbol = some sym → (s'.store.symbol? sym).isSome := by
    have hs' : s' = (setUpperBound (completerLoader 8) 8 ⟨14⟩ WellKnown.int).after s :=
      (after_of_ok hrun).symm
    have hall : ∀ data ∈ s'.store.types, ∀ sym ∈ data.symbol, (s'.store.symbol? sym).isSome := by
      rw [hs']
      decide +kernel
    exact fun n data sym _ hdata hsym => hall data (Array.mem_of_getElem? hdata) sym hsym
  obtain ⟨error, s'', hrefused⟩ := herrs hknown (by decide) (by rw [hint]; decide)
  exact ⟨hs, hlast, s', hrun, hshared, error, s'', hrefused, hunchanged error s'' hrefused⟩

end RegionTypes

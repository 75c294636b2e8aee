import RegionTypes.Proofs.Completion.Frame

/-!
# Class types that have their type arguments

A class gets its signature as a whole, and only while none of its lists is set.  So a class type whose
type arguments are set, be it because it was written with them, because it was copied, or because the
list was settled as empty, has got all that it ever will: lists that are unset can only be settled as
empty, and supertypes that are unset stay so.

* `ClassInfo.signature` — what is known of a class type, with unset lists of arguments taken as empty.
* `Kind.Revised.signature` — the step lemma: **no revision changes it** once the type arguments are set.
* `Store.Later.signature` — the run lemma.
* `rebuildClass_run` — a class type that is made from another one has its type arguments.
-/

namespace RegionTypes

/-- What is known of a class type, without its cell type and the lists that are derived; lists of
arguments that are unset are taken as empty. -/
def ClassInfo.signature (info : ClassInfo) : ClassInfo :=
  { outer := info.outer
    typeArgs := info.typeArgs
    regionArgs := some (info.regionArgs.getD [])
    effectArgs := some (info.effectArgs.getD [])
    supertype := info.supertype
    interfaces := info.interfaces }

/-- **No revision changes the signature** of a class type whose type arguments are set. -/
theorem Kind.Revised.signature {inFlight : Nat} {info : ClassInfo} {k : Kind}
    (h : Kind.Revised inFlight (.classType info) k) (hargs : info.typeArgs.isSome) :
    ∃ info', k = .classType info' ∧ info'.signature = info.signature := by
  cases h with
  | same => exact ⟨info, rfl, rfl⟩
  | define _ sig htaken =>
    rw [(ClassInfo.takenField?_eq_none.1 htaken).1] at hargs
    cases hargs
  | settle slot _ hslot hunset =>
    refine ⟨_, rfl, ?_⟩
    cases hslot with
    | typeArgs =>
      have hnone : info.typeArgs = none := hunset
      rw [hnone] at hargs
      cases hargs
    | regionArgs =>
      have hnone : info.regionArgs = none := hunset
      simp [ClassInfo.signature, Slot.regionArgs, hnone]
    | effectArgs =>
      have hnone : info.effectArgs = none := hunset
      simp [ClassInfo.signature, Slot.effectArgs, hnone]
  | remember slot _ list hslot =>
    refine ⟨_, rfl, ?_⟩
    cases hslot <;> rfl
  | cell => exact ⟨_, rfl, rfl⟩

namespace Store

variable {s t : Store} {ty : TypeId} {info : ClassInfo}

theorem class?_setBound (s : Store) (bound a ty : TypeId) :
    (s.setBound bound a).class? ty = s.class? ty := by
  refine class?_reviseType fun k => ?_
  cases k <;> rfl

theorem Change.signature (h : s.Change t) (hinfo : s.class? ty = some info)
    (hargs : info.typeArgs.isSome) :
    ∃ info', t.class? ty = some info' ∧ info'.signature = info.signature := by
  obtain ⟨data, hdata, hkind⟩ := class?_eq_some.1 hinfo
  have hty : s.Has ty := has_iff.2 ⟨data, hdata⟩
  have hsame : t.class? ty = s.class? ty →
      ∃ info', t.class? ty = some info' ∧ info'.signature = info.signature :=
    fun h => ⟨info, h.trans hinfo, rfl⟩
  cases h with
  | routine h =>
    cases h with
    | allocate data => exact hsame (class?_pushType data hty)
    | copy => exact hsame (class?_pushType _ hty)
    | revise a f hrevised =>
      by_cases ha : a = ty
      · subst ha
        have hrev := hrevised data hdata
        rw [hkind] at hrev
        obtain ⟨info', hinfo', hsignature⟩ := hrev.signature hargs
        refine ⟨info', class?_eq_some.2 ⟨{ data with kind := f data.kind }, ?_, ?_⟩, hsignature⟩
        · rw [reviseType, type?_updateType, if_pos rfl, hdata]
          rfl
        · rw [← hinfo', ← hkind]
      · refine hsame (class?_of_type?_eq ?_)
        rw [reviseType, type?_updateType, if_neg ha]
    | bound a bound => exact hsame (class?_setBound s bound a ty)
    | sharedBound => exact hsame ((class?_setBound _ _ _ _).trans (class?_setBound _ _ _ _))
    | _ => exact hsame rfl
  | install => exact hsame rfl
  | prototyped => exact hsame (class?_pushType _ hty)
  | thrown => exact hsame (class?_reviseType (fun k => by cases k <;> rfl))

/-- **The signature of a class type whose type arguments are set stays as it is.** -/
theorem Later.signature (h : s.Later t) (hinfo : s.class? ty = some info)
    (hargs : info.typeArgs.isSome) :
    ∃ info', t.class? ty = some info' ∧ info'.signature = info.signature := by
  induction h with
  | refl => exact ⟨info, hinfo, rfl⟩
  | tail _ hchange ih =>
    obtain ⟨info', hinfo', hsignature⟩ := ih
    have hargs' : info'.typeArgs.isSome := by
      have htypeArgs : info'.signature.typeArgs = info.signature.typeArgs := by rw [hsignature]
      rwa [show info'.typeArgs = info.typeArgs from htypeArgs]
    obtain ⟨info'', hinfo'', hsignature'⟩ := hchange.signature hinfo' hargs'
    exact ⟨info'', hinfo'', hsignature'.trans hsignature⟩

theorem Later.classRecord {data : TypeData} (h : s.Later t) (hdata : s.type? ty = some data)
    (hkind : data.kind = .classType info) (hargs : info.typeArgs.isSome) :
    ∃ data' info', t.type? ty = some data' ∧ data'.kind = .classType info' ∧ data.Precedes data' ∧
      info'.signature = info.signature := by
  obtain ⟨info', hinfo', hsignature⟩ := h.signature (class?_eq_some.2 ⟨data, hdata, hkind⟩) hargs
  obtain ⟨data', hdata', hkind'⟩ := class?_eq_some.1 hinfo'
  obtain ⟨found, hfound, hkeeps⟩ := h.precedes.types ty data hdata
  obtain rfl := Option.mem_unique hdata' hfound
  exact ⟨data', info', hdata', hkind', hkeeps, hsignature⟩

end Store

/-! ### Class types that are rebuilt -/

/-- The class data of a type that is made from another one: supertypes and derived lists are not
copied. -/
def ClassInfo.rebuilt (info : ClassInfo) (outer : TypeId) (args : List TypeId) : ClassInfo :=
  { outer
    typeArgs := some args
    regionArgs := info.regionArgs
    effectArgs := info.effectArgs
    cellType := info.cellType }

theorem rebuildClass_run {s : Session} {ty outer : TypeId} {data : TypeData} {info : ClassInfo}
    {args : List TypeId} (hinfo : s.store.class? ty = some info) :
    rebuildClass ty data outer args s = .ok s.store.nextType { s with
      store := s.store.pushType { data with kind := .classType (info.rebuilt outer args) } } := by
  obtain ⟨found, hfound, hkind⟩ := Store.class?_eq_some.1 hinfo
  unfold rebuildClass
  rw [Run.bind_run (Run.kindOf_run hfound), hkind]
  rfl

end RegionTypes

import RegionTypes.Proofs.Loading.Meaning
import RegionTypes.Proofs.Store.Evolution
import RegionTypes.Proofs.Store.Replacement

/-!
# Faulty types

The question whether a type is erroneous goes from the type to its components and to the canonical
type of its class, and it may load classes on the way.  Here it is said of the store alone what the
question is about, so that the answers of different states can be compared.

* `Store.consulted` — the types that the question about a type goes on to.
* `Store.Faulty` — the type is an error type, or leads to one.
* `Store.Faulty.later` — **a faulty type stays one**, although a symbol may get another type.
* `faulty_of_isErroneous`, `isErroneous_ne_false` — the answer is yes for faulty types only, and it is
  never no for them.
* `faulty_of_contains` — what contains a faulty type is faulty.
* `Store.endsIn`, `isErroneous_returns` — a question that comes to an end without loading anything has
  an answer.
-/

namespace RegionTypes

open Run

/-! ### Faulty types -/

theorem Kind.Precedes.inspected {a b : Kind} (h : a.Precedes b) {next : TypeId}
    (hnext : next ∈ a.inspected) : next ∈ b.inspected := by
  cases h with
  | same | typeVar | captured | wildcard => exact hnext
  | @classType old new h =>
    rcases List.mem_cons.1 hnext with rfl | harg
    · exact List.mem_cons.2 (.inl h.outer.symm)
    · cases hargs : old.typeArgs with
      | none => simp [hargs] at harg
      | some args =>
        rw [hargs] at harg
        simp only [Kind.inspected, h.typeArgs args hargs]
        exact List.mem_cons_of_mem _ harg
  | method h =>
    simp only [Kind.inspected, h.params, h.result]
    exact hnext
  | placeholder h =>
    simp only [Kind.inspected, h.origin]
    exact hnext

variable {symbol : Option SymbolId}

namespace Store

variable {s t : Store} {sym : SymbolId} {ty next : TypeId} {data : TypeData} {info : ClassInfo}

/-- The types that the question whether a type is erroneous goes on to: its components, and the
canonical type of its class if it is another one. -/
def consulted (s : Store) (ty : TypeId) : List TypeId :=
  match s.type? ty with
  | none => []
  | some data =>
    match data.kind with
    | .classType info =>
      (Kind.classType info).inspected ++ ((s.canonical? data.symbol).filter (· ≠ ty)).toList
    | kind => kind.inspected

theorem exists_of_mem_consulted (h : next ∈ s.consulted ty) : ∃ data, s.type? ty = some data := by
  cases hdata : s.type? ty with
  | none => simp [consulted, hdata] at h
  | some data => exact ⟨data, rfl⟩

theorem mem_consulted (hdata : s.type? ty = some data) :
    next ∈ s.consulted ty ↔ next ∈ data.kind.inspected ∨
      ∃ info, data.kind = .classType info ∧ s.canonical? data.symbol = some next ∧ next ≠ ty := by
  cases hkind : data.kind <;> simp [consulted, hdata, hkind, Option.filter_eq_some_iff]

/-- From a type that is no class type, the question goes on to its components only. -/
theorem mem_inspected (hdata : s.type? ty = some data) (hclass : data.kind.class? = none)
    (h : next ∈ s.consulted ty) : next ∈ data.kind.inspected := by
  rcases (mem_consulted hdata).1 h with hpart | ⟨info, hkind, -⟩
  · exact hpart
  · rw [hkind] at hclass
    cases hclass

theorem Precedes.canonical? (hst : s.Precedes t) (h : s.canonical? symbol = some ty) :
    ∃ ty', t.canonical? symbol = some ty' ∧ (ty' = ty ∨ t.IsErrorType ty') := by
  simp only [Store.canonical?, Option.bind_eq_some_iff] at h
  obtain ⟨sym, rfl, y, hy, htype⟩ := h
  obtain ⟨y', hy', hkeeps⟩ := hst.symbols sym y hy
  obtain ⟨ty', htype', hty'⟩ := hkeeps.type ty htype
  exact ⟨ty', by simp [Store.canonical?, hy', htype'], hty'⟩

theorem IsErrorType.ne (h : s.IsErrorType next) (hdata : s.type? ty = some data)
    (hkind : data.kind = .classType info) : next ≠ ty := by
  rintro rfl
  obtain ⟨found, hfound, outer, houter⟩ := h
  obtain rfl : found = data := Option.mem_unique hfound hdata
  rw [hkind] at houter
  cases houter

/-- What a type goes on to stays, unless the canonical type of its class has become an error type. -/
theorem Precedes.mem_consulted (hst : s.Precedes t) (h : next ∈ s.consulted ty) :
    ∃ next' ∈ t.consulted ty, next' = next ∨ t.IsErrorType next' := by
  obtain ⟨data, hdata⟩ := exists_of_mem_consulted h
  rcases (Store.mem_consulted hdata).1 h with hmem | ⟨info, hkind, hcanonical, hne⟩
  · obtain ⟨data', hdata', hkeeps⟩ := hst.types ty data hdata
    exact ⟨next, (Store.mem_consulted hdata').2 (.inl (hkeeps.kind.inspected hmem)), .inl rfl⟩
  · obtain ⟨data', info', hdata', hkind', hkeeps, -⟩ := hst.classType hdata hkind
    obtain ⟨next', hcanonical', hnext'⟩ := hst.canonical? hcanonical
    rw [← hkeeps.symbol] at hcanonical'
    have hne' : next' ≠ ty := by
      rcases hnext' with rfl | herror
      · exact hne
      · exact herror.ne hdata' hkind'
    exact ⟨next', (Store.mem_consulted hdata').2 (.inr ⟨info', hkind', hcanonical', hne'⟩), hnext'⟩

/-- The type is an error type, or leads to one. -/
inductive Faulty (s : Store) : TypeId → Prop
  | error {ty : TypeId} (h : s.IsErrorType ty) : Faulty s ty
  | consulted {ty next : TypeId} (h : next ∈ s.consulted ty) (hnext : Faulty s next) : Faulty s ty

/-- What led to a faulty type at an earlier time is faulty. -/
theorem Precedes.faulty_of_consulted (hst : s.Precedes t) (h : next ∈ s.consulted ty)
    (hnext : t.Faulty next) : t.Faulty ty := by
  obtain ⟨next', hmem, rfl | herror⟩ := hst.mem_consulted h
  · exact .consulted hmem hnext
  · exact .consulted hmem (.error herror)

/-- **A faulty type stays one.** -/
theorem Faulty.later (hst : s.Precedes t) (h : s.Faulty ty) : t.Faulty ty := by
  induction h with
  | error h => exact .error (hst.isErrorType h)
  | consulted h _ ih => exact hst.faulty_of_consulted h ih

theorem Faulty.has (h : s.Faulty ty) : s.Has ty := by
  cases h with
  | error h =>
    obtain ⟨data, hdata, -⟩ := h
    exact has_iff.2 ⟨data, hdata⟩
  | consulted h => exact has_iff.2 (exists_of_mem_consulted h)

end Store

/-! ### What the answers say -/

namespace Run

variable {α : Type} {s s' : Session}

/-- The two ways in which an alternative gets its answer. -/
theorem cases_of_or {first second : Run Bool} {b : Bool}
    (h : (first >>= fun found => if found = true then pure true else second) s = .ok b s') :
    b = true ∧ first s = .ok true s' ∨ ∃ s₁, first s = .ok false s₁ ∧ second s₁ = .ok b s' := by
  obtain ⟨found, s₁, hfirst, h⟩ := exists_of_bind h
  cases found with
  | true =>
    injection h with hb hs
    subst hb hs
    exact .inl ⟨rfl, hfirst⟩
  | false => exact .inr ⟨s₁, hfirst, h⟩

theorem exists_of_anyM_true {p : α → Run Bool} {l : List α} (h : l.anyM p s = .ok true s') :
    ∃ a ∈ l, ∃ r, p a r = .ok true s' := by
  induction l generalizing s with
  | nil => cases h
  | cons a l ih =>
    obtain ⟨found, s₁, hfirst, h⟩ := exists_of_bind h
    cases found with
    | true =>
      injection h with _ hs
      subst hs
      exact ⟨a, List.mem_cons_self, s, hfirst⟩
    | false =>
      obtain ⟨b, hb, hfound⟩ := ih h
      exact ⟨b, List.mem_cons_of_mem a hb, hfound⟩

theorem exists_of_anyM_false {R : Store → Store → Prop} [IsPreorder Store R] {p : α → Run Bool}
    {l : List α} (hp : ∀ a, Along R (p a)) (h : l.anyM p s = .ok false s') {a : α} (ha : a ∈ l) :
    ∃ r r', R s.store r.store ∧ p a r = .ok false r' := by
  induction l generalizing s with
  | nil => cases ha
  | cons b l ih =>
    obtain ⟨found, s₁, hfirst, h⟩ := exists_of_bind h
    cases found with
    | true => cases h
    | false =>
      rcases List.mem_cons.1 ha with rfl | ha
      · exact ⟨s, s₁, refl_of R s.store, hfirst⟩
      · obtain ⟨r, r', hr, hrun⟩ := ih h ha
        exact ⟨r, r', trans_of R ((hp b).of_ok hfirst) hr, hrun⟩

theorem eq_of_canonicalType {c : Option TypeId} (h : canonicalType symbol s = .ok c s') :
    s' = s ∧ s.store.canonical? symbol = c := by
  cases symbol with
  | none =>
    injection h with hc hs
    exact ⟨hs.symm, hc⟩
  | some =>
    obtain ⟨y, s₁, hdata, hpure⟩ := exists_of_bind h
    obtain ⟨rfl, hy⟩ := eq_of_symbolData hdata
    injection hpure with hc hs
    exact ⟨hs.symm, by simp [Store.canonical?, hy, hc]⟩

end Run

section Answers

variable {load : Loader} {depth : Nat} {ty elem next : TypeId} {data : TypeData} {info : ClassInfo}
  {s s' : Session} {b : Bool}

/-- What a class answers with is what it has from then on, if that is anything. -/
theorem mem_consulted_of_declaredList {args : List TypeId} {arg : TypeId}
    (h : declaredList load .typeArgs ty symbol s = .ok args s') (harg : arg ∈ args) :
    arg ∈ s'.store.consulted ty := by
  rcases declaredList_answer h with hempty | ⟨data, hdata, hread⟩
  · rw [hempty] at harg
    cases harg
  · obtain ⟨info, hinfo, hargs⟩ := Option.bind_eq_some_iff.1 hread
    have hargs : info.typeArgs = some args := hargs
    have hkind := Kind.class?_eq_some.1 hinfo
    exact (Store.mem_consulted hdata).2 (.inl (by simp [hkind, Kind.inspected, hargs, harg]))

/-- The ways in which the question about a class type gets its answer. -/
inductive ClassAnswer (load : Loader) (depth : Nat) (ty : TypeId) (data : TypeData)
    (info : ClassInfo) (s : Session) : Bool → Session → Prop
  | outer {s' : Session} (h : isErroneous load depth info.outer s = .ok true s') :
    ClassAnswer load depth ty data info s true s'
  | arg {s₁ s₂ s' : Session} {args : List TypeId}
      (houter : isErroneous load depth info.outer s = .ok false s₁)
      (hargs : declaredList load .typeArgs ty data.symbol s₁ = .ok args s₂)
      (h : args.anyM (isErroneous load depth) s₂ = .ok true s') :
    ClassAnswer load depth ty data info s true s'
  | canonical {s₁ s₂ s₃ s' : Session} {args : List TypeId} {c : TypeId} {b : Bool}
      (houter : isErroneous load depth info.outer s = .ok false s₁)
      (hargs : declaredList load .typeArgs ty data.symbol s₁ = .ok args s₂)
      (hnone : args.anyM (isErroneous load depth) s₂ = .ok false s₃)
      (hcanonical : s₃.store.canonical? data.symbol = some c) (hne : c ≠ ty)
      (h : isErroneous load depth c s₃ = .ok b s') :
    ClassAnswer load depth ty data info s b s'
  /-- The class has no canonical type, or this is the type itself. -/
  | own {s₁ s₂ s₃ : Session} {args : List TypeId}
      (houter : isErroneous load depth info.outer s = .ok false s₁)
      (hargs : declaredList load .typeArgs ty data.symbol s₁ = .ok args s₂)
      (hnone : args.anyM (isErroneous load depth) s₂ = .ok false s₃)
      (hown : ∀ c, s₃.store.canonical? data.symbol = some c → c = ty) :
    ClassAnswer load depth ty data info s false s₃

theorem classAnswer_of_isErroneous (hdata : s.store.type? ty = some data)
    (hkind : data.kind = .classType info)
    (h : isErroneous load (depth + 1) ty s = .ok b s') :
    ClassAnswer load depth ty data info s b s' := by
  rw [isErroneous, bind_run (typeData_run hdata)] at h
  simp only [hkind] at h
  rcases cases_of_or h with ⟨rfl, houter⟩ | ⟨s₁, houter, h⟩
  · exact .outer houter
  · obtain ⟨args, s₂, hargs, h⟩ := exists_of_bind h
    rcases cases_of_or h with ⟨rfl, harg⟩ | ⟨s₃, hnone, h⟩
    · exact .arg houter hargs harg
    · obtain ⟨canonical, s₄, hcanonical, h⟩ := exists_of_bind h
      obtain ⟨rfl, hcanonical⟩ := eq_of_canonicalType hcanonical
      cases canonical with
      | none =>
        injection h with hb hs
        subst hb hs
        exact .own houter hargs hnone fun c hc => nomatch hcanonical.symm.trans hc
      | some c =>
        by_cases hc : c = ty
        · simp only [if_pos hc] at h
          injection h with hb hs
          subst hb hs
          refine .own houter hargs hnone fun c' hc' => ?_
          rw [← hc]
          exact Option.mem_unique hc' hcanonical
        · simp only [if_neg hc] at h
          exact .canonical houter hargs hnone hcanonical hc h

variable (hload : load.Follows Store.Later)

include hload

/-- The session at the points where the question about a class type goes on. -/
theorem later_of_asked {s₁ s₂ s₃ : Session} {args : List TypeId} {c : Bool}
    (houter : isErroneous load depth info.outer s = .ok b s₁)
    (hargs : declaredList load .typeArgs ty symbol s₁ = .ok args s₂)
    (hany : args.anyM (isErroneous load depth) s₂ = .ok c s₃) :
    s.store.Later s₁.store ∧ s.store.Later s₃.store := by
  have h₁ := (isErroneous_along hload depth info.outer).of_ok houter
  have h₂ := (declaredList_along hload .typeArgs ty symbol).of_ok hargs
  have h₃ := (Along.anyM (isErroneous_along hload depth) args).of_ok hany
  exact ⟨h₁, (h₁.trans h₂).trans h₃⟩

/-- **Only faulty types are found erroneous.** -/
theorem faulty_of_isErroneous (h : isErroneous load depth ty s = .ok true s') :
    s'.store.Faulty ty := by
  induction depth generalizing ty s with
  | zero => cases h
  | succ depth ih =>
    have hst := ((isErroneous_along hload (depth + 1) ty).of_ok h).precedes
    obtain ⟨data, s₁, hfound, hrest⟩ := exists_of_bind h
    obtain ⟨rfl, hdata⟩ := eq_of_typeData hfound
    have hpart : ∀ next r, next ∈ data.kind.inspected →
        isErroneous load depth next r = .ok true s' → s'.store.Faulty ty := by
      intro next r hmem hrun
      exact hst.faulty_of_consulted ((Store.mem_consulted hdata).2 (.inl hmem)) (ih hrun)
    cases hkind : data.kind with
    | error outer => exact .error (hst.isErrorType ⟨data, hdata, outer, hkind⟩)
    | classType info =>
      cases classAnswer_of_isErroneous hdata hkind h with
      | outer h => exact hpart info.outer s₁ (by simp [hkind, Kind.inspected]) h
      | @arg _ _ _ args _ hargs h =>
        obtain ⟨arg, harg, r, hrun⟩ := exists_of_anyM_true h
        have hst₂ := ((Along.anyM (isErroneous_along hload depth) args).of_ok h).precedes
        exact hst₂.faulty_of_consulted (mem_consulted_of_declaredList hargs harg) (ih hrun)
      | @canonical _ _ s₃ _ _ c _ houter hargs hnone hcanonical hne h =>
        obtain ⟨-, hlater⟩ := later_of_asked hload houter hargs hnone
        obtain ⟨data₃, info₃, hdata₃, hkind₃, hkeeps, -⟩ := hlater.precedes.classType hdata hkind
        have hst₃ := ((isErroneous_along hload depth c).of_ok h).precedes
        have hmem : c ∈ s₃.store.consulted ty :=
          (Store.mem_consulted hdata₃).2 (.inr ⟨info₃, hkind₃, hkeeps.symbol ▸ hcanonical, hne⟩)
        exact hst₃.faulty_of_consulted hmem (ih h)
    | array | forAll | placeholder =>
      simp only [hkind] at hrest
      exact hpart _ s₁ (by simp [hkind, Kind.inspected]) hrest
    | method info =>
      simp only [hkind] at hrest
      rcases cases_of_or hrest with ⟨-, hparams⟩ | ⟨s₂, -, hresult⟩
      · obtain ⟨param, hparam, r, hrun⟩ := exists_of_anyM_true hparams
        exact hpart param r (by simp [hkind, Kind.inspected, hparam]) hrun
      · exact hpart info.result s₂ (by simp [hkind, Kind.inspected]) hresult
    | _ =>
      simp only [hkind] at hrest
      cases hrest

/-- The case of a class type of `exists_denied`. -/
theorem exists_denied_classType (hdata : s.store.type? ty = some data)
    (hkind : data.kind = .classType info) (h : isErroneous load (depth + 1) ty s = .ok false s')
    (hnext : next ∈ s.store.consulted ty) :
    ∃ next' r r', s.store.Later r.store ∧ (next' = next ∨ r.store.IsErrorType next') ∧
      isErroneous load depth next' r = .ok false r' := by
  obtain ⟨s₁, args, s₂, s₃, houter, hargs, hnone, hcanonical⟩ : ∃ s₁ args s₂ s₃,
      isErroneous load depth info.outer s = .ok false s₁ ∧
      declaredList load .typeArgs ty data.symbol s₁ = .ok args s₂ ∧
      args.anyM (isErroneous load depth) s₂ = .ok false s₃ ∧
      ∀ c, s₃.store.canonical? data.symbol = some c → c ≠ ty →
        ∃ r', isErroneous load depth c s₃ = .ok false r' := by
    cases classAnswer_of_isErroneous hdata hkind h with
    | canonical houter hargs hnone hcanonical _ h =>
      refine ⟨_, _, _, _, houter, hargs, hnone, fun c hc _ => ?_⟩
      rw [Option.mem_unique hc hcanonical]
      exact ⟨_, h⟩
    | own houter hargs hnone hown =>
      exact ⟨_, _, _, _, houter, hargs, hnone, fun c hc hne => absurd (hown c hc) hne⟩
  obtain ⟨hlater₁, hlater₃⟩ := later_of_asked hload houter hargs hnone
  rcases (Store.mem_consulted hdata).1 hnext with hpart | ⟨_, -, hc, hne⟩
  · rw [hkind] at hpart
    rcases List.mem_cons.1 hpart with rfl | harg
    · exact ⟨info.outer, s, s₁, .refl, .inl rfl, houter⟩
    · cases hlist : info.typeArgs with
      | none => simp [hlist] at harg
      | some list =>
        rw [hlist] at harg
        -- the list is set, so the class answers with it
        obtain ⟨data₁, info₁, hdata₁, hkind₁, -, hinfo₁⟩ := hlater₁.precedes.classType hdata hkind
        have hcurrent := Slot.current_run Slot.typeArgs hdata₁ hkind₁
        rw [show Slot.typeArgs.read info₁ = some list from hinfo₁.typeArgs list hlist] at hcurrent
        rw [declaredList, bind_run hcurrent] at hargs
        injection hargs with hargs hs
        subst hargs hs
        obtain ⟨r, r', hr, hrun⟩ :=
          exists_of_anyM_false (isErroneous_along hload depth) hnone harg
        exact ⟨next, r, r', hlater₁.trans hr, .inl rfl, hrun⟩
  · obtain ⟨c, hcanonical₃, hsame⟩ := hlater₃.precedes.canonical? hc
    have hne' : c ≠ ty := by
      rcases hsame with rfl | herror
      · exact hne
      · obtain ⟨data₃, info₃, hdata₃, hkind₃, -⟩ := hlater₃.precedes.classType hdata hkind
        exact herror.ne hdata₃ hkind₃
    obtain ⟨r', hrun⟩ := hcanonical c hcanonical₃ hne'
    exact ⟨c, s₃, r', hlater₃, hsame, hrun⟩

/-- When the answer is no, it is no for all that the type goes on to.  The canonical type of the
class may have become an error type in between. -/
theorem exists_denied (h : isErroneous load (depth + 1) ty s = .ok false s')
    (hnext : next ∈ s.store.consulted ty) :
    ∃ next' r r', s.store.Later r.store ∧ (next' = next ∨ r.store.IsErrorType next') ∧
      isErroneous load depth next' r = .ok false r' := by
  obtain ⟨data, hdata⟩ := Store.exists_of_mem_consulted hnext
  cases hkind : data.kind with
  | classType => exact exists_denied_classType hload hdata hkind h hnext
  | method =>
    have hpart := Store.mem_inspected hdata (by rw [hkind]; rfl) hnext
    rw [isErroneous, bind_run (typeData_run hdata)] at h
    simp only [hkind] at h hpart
    rcases cases_of_or h with ⟨htrue, -⟩ | ⟨s₁, hparams, hresult⟩
    · cases htrue
    · rcases List.mem_append.1 hpart with hparam | hlast
      · obtain ⟨r, r', hr, hrun⟩ :=
          exists_of_anyM_false (isErroneous_along hload depth) hparams hparam
        exact ⟨next, r, r', hr, .inl rfl, hrun⟩
      · have hlater := (Along.anyM (isErroneous_along hload depth) _).of_ok hparams
        rw [List.mem_singleton.1 hlast]
        exact ⟨_, s₁, s', hlater, .inl rfl, hresult⟩
  | array info | forAll info | placeholder info =>
    have hpart := Store.mem_inspected hdata (by rw [hkind]; rfl) hnext
    rw [isErroneous, bind_run (typeData_run hdata)] at h
    simp only [hkind] at h hpart
    rw [List.mem_singleton.1 hpart]
    exact ⟨_, s, s', .refl, .inl rfl, h⟩
  | _ =>
    have hpart := Store.mem_inspected hdata (by rw [hkind]; rfl) hnext
    rw [hkind] at hpart
    cases hpart

/-- **A faulty type is never found free of errors.** -/
theorem isErroneous_ne_false (h : s.store.Faulty ty) :
    isErroneous load depth ty s ≠ .ok false s' := by
  intro hrun
  induction depth generalizing ty s s' with
  | zero => cases hrun
  | succ depth ih =>
    cases h with
    | error herror =>
      obtain ⟨data, hdata, outer, hkind⟩ := herror
      rw [isErroneous, bind_run (typeData_run hdata), hkind] at hrun
      cases hrun
    | consulted hmem hfaulty =>
      obtain ⟨next, r, r', hlater, hsame, hdenied⟩ := exists_denied hload hrun hmem
      have hnext : r.store.Faulty next := by
        rcases hsame with rfl | herror
        · exact hfaulty.later hlater.precedes
        · exact .error herror
      exact ih hnext hdenied

/-- **What contains a faulty type is faulty.** -/
theorem faulty_of_contains (h : contains load depth ty elem s = .ok true s')
    (helem : s'.store.Faulty elem) : s'.store.Faulty ty := by
  induction depth generalizing ty s with
  | zero => cases h
  | succ depth ih =>
    have hst := ((contains_along hload (depth + 1) ty elem).of_ok h).precedes
    rw [contains] at h
    by_cases heq : ty = elem
    · rw [heq]
      exact helem
    · rw [if_neg heq] at h
      obtain ⟨data, s₁, hfound, hrest⟩ := exists_of_bind h
      obtain ⟨rfl, hdata⟩ := eq_of_typeData hfound
      have hpart : ∀ next r, next ∈ data.kind.inspected →
          contains load depth next elem r = .ok true s' → s'.store.Faulty ty := by
        intro next r hmem hrun
        exact hst.faulty_of_consulted ((Store.mem_consulted hdata).2 (.inl hmem)) (ih hrun)
      cases hkind : data.kind with
      | classType info =>
        simp only [hkind] at hrest
        obtain ⟨parameterized, s₂, -, hrest⟩ := exists_of_bind hrest
        cases parameterized with
        | false => cases hrest
        | true =>
          rcases cases_of_or hrest with ⟨-, houter⟩ | ⟨s₃, -, hrest⟩
          · exact hpart info.outer s₂ (by simp [hkind, Kind.inspected]) houter
          · obtain ⟨args, s₄, hargs, hany⟩ := exists_of_bind hrest
            obtain ⟨arg, harg, r, hrun⟩ := exists_of_anyM_true hany
            have halong : ∀ a, Along Store.Later (contains load depth a elem) := fun a =>
              contains_along hload depth a elem
            have hst₄ := ((Along.anyM halong args).of_ok hany).precedes
            exact hst₄.faulty_of_consulted (mem_consulted_of_declaredList hargs harg) (ih hrun)
      | array | forAll =>
        simp only [hkind] at hrest
        exact hpart _ s₁ (by simp [hkind, Kind.inspected]) hrest
      | method info =>
        simp only [hkind] at hrest
        rcases cases_of_or hrest with ⟨-, hparams⟩ | ⟨s₂, -, hresult⟩
        · obtain ⟨param, hparam, r, hrun⟩ := exists_of_anyM_true hparams
          exact hpart param r (by simp [hkind, Kind.inspected, hparam]) hrun
        · exact hpart info.result s₂ (by simp [hkind, Kind.inspected]) hresult
      | _ =>
        simp only [hkind] at hrest
        cases hrest

end Answers

/-! ### When there is an answer -/

namespace Store

variable {s t : Store} {ty : TypeId} {data : TypeData} {info : ClassInfo} {n : Nat}

/-- The type is there, and nothing has to be loaded to see its components: a class type has its type
arguments, or a symbol without a completer. -/
def atHand (s : Store) (ty : TypeId) : Bool :=
  match s.type? ty with
  | none => false
  | some data =>
    match data.kind, data.symbol with
    | .classType info, some sym =>
      (s.symbol? sym).any fun y => info.typeArgs.isSome || y.completer.isNone
    | _, _ => true

/-- The question whether the type is erroneous comes to an end within so many steps, and what it goes
on to is at hand. -/
def endsIn (s : Store) : Nat → TypeId → Bool
  | 0, _ => false
  | n + 1, ty => s.atHand ty && (s.consulted ty).all (s.endsIn n)

theorem exists_of_atHand (h : s.atHand ty) : ∃ data, s.type? ty = some data := by
  cases hdata : s.type? ty with
  | none => simp [atHand, hdata] at h
  | some data => exact ⟨data, rfl⟩

theorem atHand_classType (h : s.atHand ty) (hdata : s.type? ty = some data)
    (hkind : data.kind = .classType info) {sym : SymbolId} (hsym : data.symbol = some sym) :
    ∃ y, s.symbol? sym = some y ∧ (info.typeArgs = none → y.completer = none) := by
  simp only [atHand, hdata, hkind, hsym, Option.any_eq_true] at h
  obtain ⟨y, hy, h⟩ := h
  refine ⟨y, hy, fun hargs => ?_⟩
  simpa [hargs] using h

theorem Grows.canonical? (h : s.Grows t) (symbol : Option SymbolId) :
    t.canonical? symbol = s.canonical? symbol := by
  simp only [Store.canonical?, h.symbols]

/-- Settling missing type arguments as empty gives the question nothing new to go on to. -/
theorem Grows.consulted (h : s.Grows t) (hdata : s.type? ty = some data) :
    t.consulted ty = s.consulted ty := by
  obtain ⟨data', hdata', hsettles⟩ := h.types ty data hdata
  cases hsettles with
  | same => simp only [Store.consulted, hdata, hdata', h.canonical?]
  | emptied hkind hunset =>
    simp only [Store.consulted, hdata, hdata', hkind, Kind.inspected, hunset, h.canonical?]
    rfl

theorem Grows.atHand (h : s.Grows t) (hs : s.atHand ty) : t.atHand ty := by
  obtain ⟨data, hdata⟩ := exists_of_atHand hs
  obtain ⟨data', hdata', hsettles⟩ := h.types ty data hdata
  cases hsettles with
  | same => simpa only [Store.atHand, hdata, hdata', h.symbols] using hs
  | emptied hkind =>
    simp only [Store.atHand, hdata, hkind] at hs
    simp only [Store.atHand, hdata', h.symbols]
    cases hsym : data.symbol with
    | none => rfl
    | some =>
      simp only [hsym, Option.any_eq_true] at hs
      obtain ⟨y, hy, -⟩ := hs
      simp [hy]

theorem Grows.endsIn (h : s.Grows t) (hs : s.endsIn n ty) : t.endsIn n ty := by
  induction n generalizing ty with
  | zero => cases hs
  | succ n ih =>
    rw [Store.endsIn, Bool.and_eq_true, List.all_eq_true] at hs ⊢
    obtain ⟨data, hdata⟩ := exists_of_atHand hs.1
    rw [h.consulted hdata]
    exact ⟨h.atHand hs.1, fun next hnext => ih (hs.2 next hnext)⟩

end Store

theorem Run.anyM_returns {α : Type} {p : α → Run Bool} {l : List α} {post : Session → Prop}
    {s : Session} (hp : ∀ a ∈ l, ∀ r, post r → (p a).Returns r fun _ r' => post r') (hs : post s) :
    (l.anyM p).Returns s fun _ s' => post s' := by
  induction l generalizing s with
  | nil => exact returns_pure hs
  | cons a l ih =>
    refine (hp a List.mem_cons_self s hs).bind fun found s₁ hs₁ => ?_
    cases found with
    | true => exact returns_pure hs₁
    | false => exact ih (fun b hb => hp b (List.mem_cons_of_mem a hb)) hs₁

theorem canonicalType_run {s : Session}
    (h : ∀ sym, symbol = some sym → ∃ y, s.store.symbol? sym = some y) :
    canonicalType symbol s = .ok (s.store.canonical? symbol) s := by
  cases symbol with
  | none => rfl
  | some sym =>
    obtain ⟨y, hy⟩ := h sym rfl
    rw [canonicalType, symbolType, bind_run (symbolData_run hy), Store.canonical?, Option.bind_some,
      hy]
    rfl

section Returning

variable {start : Completer → Loader} {depth : Nat}
  {ty : TypeId} {data : TypeData} {info : ClassInfo} {s : Session}

/-- A class type, provided that there is an answer for all that the question goes on to. -/
theorem isErroneous_classType_returns (hdata : s.store.type? ty = some data)
    (hkind : data.kind = .classType info) (hhand : s.store.atHand ty)
    (hnext : ∀ next ∈ s.store.consulted ty, ∀ r : Session, s.store.Grows r.store →
      (isErroneous (completeSymbol start) depth next).Returns r fun _ r' =>
        s.store.Grows r'.store) :
    (isErroneous (completeSymbol start) (depth + 1) ty).Returns s fun _ s' =>
      s.store.Grows s'.store := by
  have hpart : ∀ next ∈ info.outer :: info.typeArgs.getD [], next ∈ s.store.consulted ty := by
    intro next hmem
    exact (Store.mem_consulted hdata).2 (.inl (by rw [hkind]; exact hmem))
  refine .step (typeData_run hdata) ?_
  rw [hkind]
  refine (hnext info.outer (hpart _ List.mem_cons_self) s (.refl _)).bind fun bad s₁ hgrows₁ => ?_
  cases bad with
  | true => exact returns_pure hgrows₁
  | false =>
    -- the type arguments may have been settled while the enclosing type was looked at
    obtain ⟨given, hgiven, hdata₁⟩ := hgrows₁.classRecord hdata hkind
    have hloaded : given = none → s₁.store.Loaded data.symbol.toList := by
      intro hunset sym hsym
      have hsym : data.symbol = some sym := by simpa using hsym
      obtain ⟨y, hy, hcompleter⟩ :=
        Store.atHand_classType (hgrows₁.atHand hhand) hdata₁ rfl hsym
      exact ⟨y, hy, hcompleter hunset⟩
    refine (declaredTypeArgs_returns start hdata₁ rfl hloaded).bind
      fun args s₂ ⟨hargs, hgrows₂, _⟩ => ?_
    have hargs : args = info.typeArgs.getD [] := hargs.trans hgiven
    subst hargs
    refine (anyM_returns (fun arg harg => hnext arg (hpart arg (List.mem_cons_of_mem _ harg)))
      (hgrows₁.trans hgrows₂)).bind fun bad s₃ hgrows₃ => ?_
    cases bad with
    | true => exact returns_pure hgrows₃
    | false =>
      refine .step (canonicalType_run fun sym hsym => ?_) ?_
      · obtain ⟨y, hy, -⟩ := Store.atHand_classType hhand hdata hkind hsym
        exact ⟨y, by rw [hgrows₃.symbols, hy]⟩
      · rw [hgrows₃.canonical?]
        cases hcanonical : s.store.canonical? data.symbol with
        | none => exact returns_pure hgrows₃
        | some c =>
          by_cases hc : c = ty
          · simp only [if_pos hc]
            exact returns_pure hgrows₃
          · simp only [if_neg hc]
            have hmem : c ∈ s.store.consulted ty :=
              (Store.mem_consulted hdata).2 (.inr ⟨info, hkind, hcanonical, hc⟩)
            exact hnext c hmem s₃ hgrows₃

/-- **A question that comes to an end has an answer.** -/
theorem isErroneous_returns (h : s.store.endsIn depth ty) :
    (isErroneous (completeSymbol start) depth ty).Returns s fun _ s' => s.store.Grows s'.store := by
  induction depth generalizing ty s with
  | zero => cases h
  | succ depth ih =>
    rw [Store.endsIn, Bool.and_eq_true, List.all_eq_true] at h
    obtain ⟨hhand, hends⟩ := h
    obtain ⟨data, hdata⟩ := Store.exists_of_atHand hhand
    have hnext : ∀ next ∈ s.store.consulted ty, ∀ r : Session, s.store.Grows r.store →
        (isErroneous (completeSymbol start) depth next).Returns r fun _ r' =>
          s.store.Grows r'.store := by
      intro next hmem r hgrows
      exact (ih (hgrows.endsIn (hends next hmem))).imp fun _ _ h => hgrows.trans h
    have hpart : ∀ next ∈ data.kind.inspected, ∀ r : Session, s.store.Grows r.store →
        (isErroneous (completeSymbol start) depth next).Returns r fun _ r' =>
          s.store.Grows r'.store := by
      intro next hmem
      exact hnext next ((Store.mem_consulted hdata).2 (.inl hmem))
    cases hclass : data.kind.class? with
    | some =>
      exact isErroneous_classType_returns hdata (Kind.class?_eq_some.1 hclass) hhand hnext
    | none =>
      refine .step (typeData_run hdata) ?_
      cases hkind : data.kind with
      | classType =>
        rw [hkind] at hclass
        cases hclass
      | array | forAll | placeholder => exact hpart _ (by simp [hkind, Kind.inspected]) s (.refl _)
      | method info =>
        simp only [hkind, Kind.inspected] at hpart
        refine (anyM_returns (fun param hparam => hpart param (by simp [hparam])) (.refl _)).bind
          fun bad s₁ hgrows₁ => ?_
        cases bad with
        | true => exact returns_pure hgrows₁
        | false => exact hpart info.result (by simp) s₁ hgrows₁
      | _ => exact returns_pure (.refl _)

end Returning

end RegionTypes

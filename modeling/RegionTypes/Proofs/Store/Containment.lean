import RegionTypes.Proofs.Completion.Accumulated
import RegionTypes.Proofs.Completion.Issued
import RegionTypes.Proofs.Store.Outline
import RegionTypes.Proofs.Store.Scoping

/-!
# Containment

Whether a type occurs in another is decided by a search through components.  The search goes into a
class type only if that or a type around it has type arguments, and it leaves out the bounds of
wildcards and what a method throws.

* `Store.Parameterized` — the type or one around it has type arguments.
* `Store.Resembles` — a store as it is left by questions about type parameters.
* `allTypeParams_returns` — the list of type parameters is empty exactly if the type is not
  parameterized.
* `Store.Searches`, `contains_decides` — **the search decides which types can be reached** through the
  components that it goes into.
* `containment_against_free_variables` — it finds all free variables where nothing is left out, but not
  those in the bound of a wildcard (`wildcard_bound_not_contained`).
-/

namespace RegionTypes

open Run

variable {start : Completer → Loader} {rank : TypeId → Nat} {data : TypeData}

/-! ### Type arguments along the enclosing types -/

/-- The type whose type parameters come before those of a type itself. -/
def Kind.around : Kind → Option TypeId
  | classType info => some info.outer
  | array info => some info.elem
  | forAll info => some info.body
  | placeholder info => some info.origin
  | _ => none

theorem Kind.other_allTypeParams {k : Kind} (h : k.class? = none) :
    Listing.allTypeParams.other k = k.around.elim (.inl []) .inr := by
  cases k with
  | classType => cases h
  | _ => rfl

namespace Store

variable {s₀ s s' : Store} {ty next : TypeId} {data : TypeData} {info : ClassInfo} {list : List TypeId}

/-- The type, or one around it, is a class type with type arguments. -/
inductive Parameterized (s : Store) : TypeId → Prop
  | own {ty : TypeId} {data : TypeData} {info : ClassInfo} (record : s.type? ty = some data)
      (kind : data.kind = .classType info) (hargs : info.typeArgs.getD [] ≠ []) : Parameterized s ty
  | around {ty next : TypeId} {data : TypeData} (record : s.type? ty = some data)
      (hnext : data.kind.around = some next) (h : Parameterized s next) : Parameterized s ty

theorem parameterized_iff_of_class (record : s.type? ty = some data)
    (kind : data.kind = .classType info) :
    s.Parameterized ty ↔ info.typeArgs.getD [] ≠ [] ∨ s.Parameterized info.outer := by
  constructor
  · intro h
    cases h with
    | own record' kind' hargs =>
      obtain rfl := Option.mem_unique record record'
      obtain rfl := Kind.classType.inj (kind.symm.trans kind')
      exact .inl hargs
    | around record' hnext h =>
      obtain rfl := Option.mem_unique record record'
      rw [kind] at hnext
      obtain rfl := Option.some.inj hnext
      exact .inr h
  · rintro (hargs | h)
    · exact .own record kind hargs
    · exact .around record (by rw [kind]; rfl) h

theorem parameterized_iff_of_not_class (record : s.type? ty = some data)
    (hclass : data.kind.class? = none) :
    s.Parameterized ty ↔ ∃ next, data.kind.around = some next ∧ s.Parameterized next := by
  constructor
  · intro h
    cases h with
    | own record' kind' =>
      obtain rfl := Option.mem_unique record record'
      rw [kind'] at hclass
      cases hclass
    | around record' hnext h =>
      obtain rfl := Option.mem_unique record record'
      exact ⟨_, hnext, h⟩
  · rintro ⟨next, hnext, h⟩
    exact .around record hnext h

theorem append_ne_nil_iff {around own : List TypeId} {p q : Prop} (haround : around ≠ [] ↔ p)
    (hown : own ≠ [] ↔ q) : around ++ own ≠ [] ↔ q ∨ p := by
  rw [← haround, ← hown, ne_eq, List.append_eq_nil_iff, not_and_or, or_comm]

theorem Consistent.around_lt (h : s.Consistent) (record : s.type? ty = some data)
    (hnext : data.kind.around = some next) : next.index < ty.index := by
  refine (h.types ty data record).older next ?_
  cases hkind : data.kind <;> simp_all [Kind.around, Kind.ingredients]

/-- The types around types belong to the store, and their rank is lower. -/
structure Ranks (s : Store) (rank : TypeId → Nat) : Prop where
  has : ∀ {ty next : TypeId} {data : TypeData}, s.type? ty = some data →
    data.kind.around = some next → s.Has next
  lt : ∀ {ty next : TypeId} {data : TypeData}, s.type? ty = some data →
    data.kind.around = some next → rank next < rank ty

theorem Consistent.ranks (h : s.Consistent) : s.Ranks TypeId.index where
  has record hnext :=
    has_iff_lt.2 ((h.around_lt record hnext).trans (has_iff_lt.1 (has_iff.2 ⟨_, record⟩)))
  lt := h.around_lt

/-- **A list of type parameters that is held is empty exactly if the type is not parameterized.**  The
types around a type have a lower rank, so the induction is on the rank. -/
theorem Accumulated.held_ne_nil_iff (h : s.Accumulated) (hs : s.Ranks rank) (n : Nat) :
    ∀ {ty list depth}, rank ty < n → s.held .allTypeParams depth ty = some list →
      (list ≠ [] ↔ s.Parameterized ty) := by
  induction n with
  | zero => intro _ _ _ hn; omega
  | succ n ih =>
    intro ty list depth hn hheld
    obtain ⟨d, rfl, hlist | ⟨data, record, hclass, hother⟩⟩ := held_cases hheld
    · obtain ⟨info, own, around, depth, hinfo, hown, haround, rfl⟩ :=
        h.follows .allTypes ty list hlist trivial
      obtain ⟨data, record, kind⟩ := class?_eq_some.1 hinfo
      have hlt := hs.lt record (by rw [kind]; rfl)
      have hargs : info.typeArgs = some own := by rwa [Store.list?, hinfo] at hown
      rw [parameterized_iff_of_class record kind, hargs]
      exact append_ne_nil_iff (ih (by omega) haround) Iff.rfl
    · rw [parameterized_iff_of_not_class record hclass]
      rw [Kind.other_allTypeParams hclass] at hother
      cases hnext : data.kind.around with
      | none =>
        rw [hnext] at hother
        obtain rfl := Option.some.inj hother
        simp
      | some =>
        rw [hnext] at hother
        have hlt := hs.lt record hnext
        rw [ih (by omega) hother]
        simp

end Store

/-! ### What questions about type parameters leave behind -/

theorem TypeData.Settles.outline_eq {data' : TypeData} (h : data.Settles data') :
    data'.outline = data.outline := by
  cases h with
  | same => rfl
  | emptied kind unset =>
    simp [TypeData.outline, kind, Kind.mapClass, ClassInfo.outline, ClassInfo.plain, unset]

namespace Store

variable {s₀ s s' : Store} {ty next : TypeId} {data : TypeData} {info : ClassInfo} {list : List TypeId}

/-- The store is another one, apart from missing type arguments that were settled and lists of type
parameters that are kept; and the lists that are kept are empty exactly if they should be. -/
structure Resembles (s₀ s : Store) : Prop extends s₀.Underlies s where
  kept : ∀ ty list, s.list? .allTypeParams ty = some list → (list ≠ [] ↔ s₀.Parameterized ty)

theorem Accumulated.resembles_of_ranks (h : s.Accumulated) (hs : s.Ranks rank) : s.Resembles s where
  toUnderlies := .refl s
  kept ty list hlist := by
    have hheld : s.held Listing.allTypeParams 1 ty = some list := held_of_list? hlist
    exact h.held_ne_nil_iff hs (rank ty + 1) (Nat.lt_succ_self _) hheld

theorem Settles.exists_record (h : s.Settles s') (record : s'.type? ty = some data) :
    ∃ data₀, s.type? ty = some data₀ ∧ data₀.Settles data := by
  have hty : s.Has ty := by
    rw [has_iff_lt, ← h.size, ← has_iff_lt]
    exact has_iff.2 ⟨data, record⟩
  obtain ⟨data₀, record₀⟩ := has_iff.1 hty
  obtain ⟨data', record', hsettles⟩ := h.types ty data₀ record₀
  obtain rfl := Option.mem_unique record record'
  exact ⟨data₀, record₀, hsettles⟩

theorem Resembles.settles (h : s₀.Resembles s) (hsettles : s.Settles s') : s₀.Resembles s' where
  toUnderlies := by
    refine h.trans ⟨fun ty data record => ?_, Array.ext_getElem? fun i => hsettles.symbols ⟨i⟩⟩
    obtain ⟨data', record', hdata⟩ := hsettles.types ty data record
    exact ⟨data', record', hdata.outline_eq⟩
  kept ty list hlist := by
    obtain ⟨info, hinfo, hread⟩ := Option.bind_eq_some_iff.1 hlist
    obtain ⟨data, record, kind⟩ := class?_eq_some.1 hinfo
    obtain ⟨data₀, record₀, hdata⟩ := hsettles.exists_record record
    refine h.kept ty list ?_
    cases hdata with
    | same =>
      rw [list?, class?_eq_some.2 ⟨_, record₀, kind⟩]
      exact hread
    | emptied kind₀ =>
      obtain rfl := Kind.classType.inj kind
      rw [list?, class?_eq_some.2 ⟨_, record₀, kind₀⟩]
      exact hread

theorem Resembles.fill (h : s₀.Resembles s) (record : s.type? ty = some data)
    (kind : data.kind = .classType info) (hlist : list ≠ [] ↔ s₀.Parameterized ty) :
    s₀.Resembles (s.reviseType ty (·.mapClass (Slot.allTypeParams.write list))) where
  toUnderlies := h.trans
    (sameOutline_reviseType record kind (ClassInfo.outline_remember .allTypeParams list info)).forth
  kept a list' hlist' := by
    have hcases := (s.list?_fill_self .allTypes ty a list).symm.trans hlist'
    split at hcases
    · next ha =>
      subst ha
      obtain ⟨info, -, rfl⟩ := Option.map_eq_some_iff.1 hcases
      exact hlist
    · exact h.kept a list' hcases

end Store

/-! ### The list of type parameters -/

section

variable {s₀ : Store} {s : Session} {ty elem : TypeId} {data : TypeData} {info : ClassInfo}

theorem declaredTypeArgs_resembles (hrest : s₀.AtRest) (record : s₀.type? ty = some data)
    (kind : data.kind = .classType info) (hs : s₀.Resembles s.store) :
    (declaredList (completeSymbol start) .typeArgs ty data.symbol).Returns s fun args s' =>
      args = info.typeArgs.getD [] ∧ s₀.Resembles s'.store := by
  obtain ⟨info', record', hinfo⟩ := hs.classRecord record kind
  have hloaded := hs.loaded ((hrest.nonePending ty).loaded_class hrest.wellFormed record kind)
  refine (declaredTypeArgs_returns start record' rfl fun _ => hloaded).imp ?_
  rintro args s' ⟨rfl, hsettles⟩
  exact ⟨ClassInfo.getD_of_outline .typeArgs hinfo, hs.settles hsettles⟩

theorem remember_resembles {list : List TypeId} (record : s₀.type? ty = some data)
    (kind : data.kind = .classType info) (hlist : list ≠ [] ↔ s₀.Parameterized ty)
    (hs : s₀.Resembles s.store) :
    (remember .allTypeParams ty list).Returns s fun kept s' =>
      s₀.Resembles s'.store ∧ (kept ≠ [] ↔ s₀.Parameterized ty) := by
  obtain ⟨info', record', -⟩ := hs.classRecord record kind
  have hinfo : s.store.class? ty = some info' := Store.class?_eq_some.2 ⟨_, record', rfl⟩
  rw [Returns, remember_run hinfo]
  split
  · cases hkept : Slot.allTypeParams.read info' with
    | some kept =>
      refine ⟨kept, s, rfl, hs, hs.kept ty kept ?_⟩
      rw [Store.list?, hinfo]
      exact hkept
    | none => exact ⟨list, _, rfl, hs.fill record' rfl hlist, hlist⟩
  · exact ⟨list, s, rfl, hs, hlist⟩

/-- **The list of type parameters is empty exactly if the type is not parameterized.** -/
theorem allTypeParams_returns (hrest : s₀.AtRest) (hranks : s₀.Ranks rank) (depth : Nat) :
    ∀ {ty : TypeId} {s : Session}, s₀.Has ty → rank ty < depth → s₀.Resembles s.store →
      (allTypeParams (completeSymbol start) depth ty).Returns s fun list s' =>
        s₀.Resembles s'.store ∧ (list ≠ [] ↔ s₀.Parameterized ty) := by
  induction depth with
  | zero => intro _ _ _ hn; omega
  | succ depth ih =>
    intro ty s hty hn hs
    obtain ⟨data, record⟩ := Store.has_iff.1 hty
    -- the rank of the type around is lower than that of the type
    have haround {next : TypeId} {s : Session} (hnext : data.kind.around = some next)
        (hs : s₀.Resembles s.store) :
        (allTypeParams (completeSymbol start) depth next).Returns s fun list s' =>
          s₀.Resembles s'.store ∧ (list ≠ [] ↔ s₀.Parameterized next) := by
      have hlt := hranks.lt record hnext
      exact ih (hranks.has record hnext) (by omega) hs
    have hinstead {next : TypeId} (hclass : data.kind.class? = none)
        (hnext : data.kind.around = some next) :
        (allTypeParams (completeSymbol start) depth next).Returns s fun list s' =>
          s₀.Resembles s'.store ∧ (list ≠ [] ↔ s₀.Parameterized ty) := by
      rw [Store.parameterized_iff_of_not_class record hclass, hnext]
      simpa using haround hnext hs
    have hnothing (hclass : data.kind.class? = none) (hnext : data.kind.around = none) :
        (pure [] : Run (List TypeId)).Returns s fun list s' =>
          s₀.Resembles s'.store ∧ (list ≠ [] ↔ s₀.Parameterized ty) := by
      rw [Store.parameterized_iff_of_not_class record hclass, hnext]
      exact returns_pure ⟨hs, by simp⟩
    obtain ⟨symbol, erased, literal, kind⟩ := data
    cases kind with
    | classType =>
      obtain ⟨info', record', hinfo⟩ := hs.classRecord record rfl
      refine .step (typeData_run record') ?_
      cases hkept : info'.allTypeParams with
      | some list =>
        simp only [hkept]
        refine returns_pure ⟨hs, hs.kept ty list ?_⟩
        rw [Store.list?, Store.class?_eq_some.2 ⟨_, record', rfl⟩]
        exact hkept
      | none =>
        simp only [hkept]
        refine .bind (declaredTypeArgs_resembles hrest record rfl hs) ?_
        rintro own s₁ ⟨rfl, hs₁⟩
        rw [ClassInfo.outer_of_outline hinfo]
        refine .bind (haround rfl hs₁) ?_
        rintro around s₂ ⟨hs₂, hnonempty⟩
        refine remember_resembles record rfl ?_ hs₂
        rw [Store.parameterized_iff_of_class record rfl]
        exact Store.append_ne_nil_iff hnonempty Iff.rfl
    | array | forAll | placeholder =>
      exact .step (typeData_run (hs.record record rfl)) (hinstead rfl rfl)
    | _ => exact .step (typeData_run (hs.record record rfl)) (hnothing rfl rfl)

end

/-! ### The search -/

/-- The components that the search for a type goes into. -/
def Kind.searched : Kind → List TypeId
  | classType info => info.outer :: info.typeArgs.getD []
  | array info => [info.elem]
  | method info => info.params ++ [info.result]
  | forAll info => [info.body]
  | _ => []

theorem Kind.components_of_searched {k : Kind} {c : TypeId} (h : c ∈ k.searched) :
    c ∈ k.components := by
  cases k with
  | method =>
    rw [searched, List.mem_append, List.mem_singleton] at h
    rw [components, List.mem_append, List.mem_cons]
    exact h.imp id .inl
  | classType | array | forAll => exact h
  | _ => cases h

namespace Store

variable {s : Store} {ty elem : TypeId} {data : TypeData}

/-- The search goes on from a type to a component: from a class type only if that or a type around it
has type arguments. -/
def Searches (s : Store) (a b : TypeId) : Prop :=
  ∃ data, s.type? a = some data ∧ b ∈ data.kind.searched ∧
    (data.kind.shape = .classType → s.Parameterized a)

theorem reaches_iff (record : s.type? ty = some data) (hne : ty ≠ elem) :
    Relation.ReflTransGen s.Searches ty elem ↔ (data.kind.shape = .classType → s.Parameterized ty) ∧
      ∃ c ∈ data.kind.searched, Relation.ReflTransGen s.Searches c elem := by
  rw [Relation.ReflTransGen.cases_head_iff, or_iff_right hne]
  constructor
  · rintro ⟨c, ⟨data', record', hc, hclass⟩, hreach⟩
    obtain rfl := Option.mem_unique record record'
    exact ⟨hclass, c, hc, hreach⟩
  · rintro ⟨hclass, c, hc, hreach⟩
    exact ⟨c, ⟨data, record, hc, hclass⟩, hreach⟩

end Store

/-- The question is answered with yes exactly if the proposition is true, in all stores that resemble
the given one, and leaves such a store behind. -/
def Decides (s₀ : Store) (action : Run Bool) (p : Prop) : Prop :=
  ∀ s : Session, s₀.Resembles s.store →
    action.Returns s fun answer s' => s₀.Resembles s'.store ∧ (answer = true ↔ p)

section

variable {s₀ : Store} {a b : Run Bool} {p q : Prop} {ty elem : TypeId} {data : TypeData}
  {info : ClassInfo} {depth : Nat}

theorem decides_pure {answer : Bool} (h : answer = true ↔ p) : Decides s₀ (pure answer) p :=
  fun _ hs => returns_pure ⟨hs, h⟩

theorem Decides.or (ha : Decides s₀ a p) (hb : Decides s₀ b q) :
    Decides s₀ (do if ← a then return true else b) (p ∨ q) := by
  intro s hs
  refine .bind (ha s hs) fun answer s' hanswer => ?_
  cases answer with
  | true => exact returns_pure ⟨hanswer.1, by simp [← hanswer.2]⟩
  | false => exact (hb s' hanswer.1).imp fun _ _ h => ⟨h.1, by simp [h.2, ← hanswer.2]⟩

theorem Decides.and (ha : Decides s₀ a p) (hb : Decides s₀ b q) :
    Decides s₀ (do if ← a then b else return false) (p ∧ q) := by
  intro s hs
  refine .bind (ha s hs) fun answer s' hanswer => ?_
  cases answer with
  | true => exact (hb s' hanswer.1).imp fun _ _ h => ⟨h.1, by simp [h.2, ← hanswer.2]⟩
  | false => exact returns_pure ⟨hanswer.1, by simp [← hanswer.2]⟩

theorem decides_anyM {f : TypeId → Run Bool} {q : TypeId → Prop} {types : List TypeId}
    (h : ∀ c ∈ types, Decides s₀ (f c) (q c)) : Decides s₀ (types.anyM f) (∃ c ∈ types, q c) := by
  induction types with
  | nil => exact decides_pure (by simp)
  | cons c types ih =>
    obtain ⟨hhead, htail⟩ := List.forall_mem_cons.1 h
    intro s hs
    refine .bind (hhead s hs) fun answer s' hanswer => ?_
    cases answer with
    | true => exact returns_pure ⟨hanswer.1, by simp [← hanswer.2]⟩
    | false => exact (ih htail s' hanswer.1).imp fun _ _ h => ⟨h.1, by simp [h.2, ← hanswer.2]⟩

theorem Decides.congr (h : Decides s₀ a p) (hpq : p ↔ q) : Decides s₀ a q :=
  fun s hs => (h s hs).imp fun _ _ hanswer => ⟨hanswer.1, hanswer.2.trans hpq⟩

variable (start) in
theorem typeArgs_decides {f : TypeId → Run Bool} {q : TypeId → Prop} (hrest : s₀.AtRest)
    (record : s₀.type? ty = some data) (kind : data.kind = .classType info)
    (h : ∀ c ∈ info.typeArgs.getD [], Decides s₀ (f c) (q c)) :
    Decides s₀ (do (← declaredList (completeSymbol start) .typeArgs ty data.symbol).anyM f)
      (∃ c ∈ info.typeArgs.getD [], q c) := by
  intro s hs
  refine .bind (declaredTypeArgs_resembles hrest record kind hs) ?_
  rintro args s' ⟨rfl, hs'⟩
  exact decides_anyM h s' hs'

variable (start) in
theorem isParameterized_decides (hrest : s₀.AtRest) (hranks : s₀.Ranks rank)
    (record : s₀.type? ty = some data) (kind : data.kind = .classType info) (hdepth : rank ty ≤ depth) :
    Decides s₀ (isParameterized (completeSymbol start) (depth + 1) ty) (s₀.Parameterized ty) := by
  intro s hs
  obtain ⟨info', record', -⟩ := hs.classRecord record kind
  refine .step (kindOf_run record') (.bind (allTypeParams_returns hrest hranks (depth + 1)
    (Store.has_iff.2 ⟨data, record⟩) (by omega) hs) fun list s' h => ?_)
  exact returns_pure ⟨h.1, by simp [← h.2]⟩

/-- **The search decides what can be reached**, by induction on the height of the type. -/
theorem contains_decides_of_ranks (hrest : s₀.AtRest) (hranks : s₀.Ranks rank)
    (hbound : ∀ ty, s₀.Has ty → rank ty < s₀.types.size) (elem : TypeId) (n : Nat) :
    ∀ {depth : Nat} {ty : TypeId}, s₀.Has ty → s₀.height ty < n → n + s₀.types.size ≤ depth →
      Decides s₀ (contains (completeSymbol start) depth ty elem)
        (Relation.ReflTransGen s₀.Searches ty elem) := by
  induction n with
  | zero => intro _ _ _ hn; omega
  | succ n ih =>
    intro depth ty hty hn hdepth
    obtain ⟨d, rfl⟩ : ∃ d, depth = d + 1 := ⟨depth - 1, by omega⟩
    rw [contains]
    split
    · next heq =>
      subst heq
      exact decides_pure (by simp [Relation.ReflTransGen.refl])
    · next hne =>
      obtain ⟨data, record⟩ := Store.has_iff.1 hty
      have hpart : ∀ c ∈ data.kind.searched, Decides s₀ (contains (completeSymbol start) d c elem)
          (Relation.ReflTransGen s₀.Searches c elem) := by
        intro c hc
        have hmem := Kind.components_of_searched hc
        have hc' := (hrest.wellFormed data (Store.mem_types record)).components c hmem
        have hlower := Store.height_lt_of_edge hrest.acyclic hc' ⟨data, record, hmem⟩
        exact ih hc' (by omega) (by omega)
      rw [Store.reaches_iff record hne]
      intro s hs
      obtain ⟨symbol, erased, literal, kind⟩ := data
      cases kind with
      | classType =>
        obtain ⟨info', record', hinfo⟩ := hs.classRecord record rfl
        have hrank : rank ty ≤ d := by
          have := hbound ty hty
          omega
        obtain ⟨hout, hargs⟩ := List.forall_mem_cons.1 hpart
        have hguard := isParameterized_decides start hrest hranks record rfl hrank
        have hany := typeArgs_decides start hrest record rfl hargs
        refine .step (typeData_run record') ?_
        simp only [ClassInfo.outer_of_outline hinfo]
        exact (hguard.and (hout.or hany)).congr (by simp [Kind.shape, Kind.searched]) s hs
      | array info =>
        exact .step (typeData_run (hs.record record rfl))
          ((hpart info.elem (by simp [Kind.searched])).congr (by simp [Kind.shape, Kind.searched]) s hs)
      | method info =>
        obtain ⟨hparams, hresult⟩ := List.forall_mem_append.1 hpart
        have hsearch := (decides_anyM hparams).or (hresult info.result List.mem_cons_self)
        exact .step (typeData_run (hs.record record rfl))
          (hsearch.congr (by simp [Kind.shape, Kind.searched, or_and_right, exists_or]) s hs)
      | forAll info =>
        exact .step (typeData_run (hs.record record rfl))
          ((hpart info.body (by simp [Kind.searched])).congr (by simp [Kind.shape, Kind.searched]) s hs)
      | _ =>
        exact .step (typeData_run (hs.record record rfl))
          (decides_pure (by simp [Kind.shape, Kind.searched]) s hs)

theorem contains_decides (hrest : s₀.AtRest) (hconsistent : s₀.Consistent) (elem : TypeId) (n : Nat)
    (hty : s₀.Has ty) (hheight : s₀.height ty < n) (hdepth : n + s₀.types.size ≤ depth) :
    Decides s₀ (contains (completeSymbol start) depth ty elem)
      (Relation.ReflTransGen s₀.Searches ty elem) :=
  contains_decides_of_ranks hrest hconsistent.ranks (fun _ => Store.has_iff_lt.1) elem n hty hheight
    hdepth

end

/-! ### Free variables -/

namespace Store

variable {s : Store} {ty v : TypeId} {above : List TypeId} {data : TypeData} {info : ClassInfo}

/-- Nothing of the type is left out by the search: it is no wildcard, throws nothing, and as a class
type is enclosed by a class or by nothing. -/
def Transparent (s : Store) (data : TypeData) : Prop :=
  match data.kind with
  | .wildcard _ => False
  | .method info => info.thrown = []
  | .classType info => ∃ outer, s.type? info.outer = some outer ∧
      (outer.kind.shape = .classType ∨ outer.kind.shape = .leaf)
  | _ => True

/-- All types that a type is built from are transparent. -/
def TransparentBelow (s : Store) (ty : TypeId) : Prop :=
  ∀ a data, Relation.ReflTransGen s.Edge ty a → s.type? a = some data → s.Transparent data

theorem transparentBelow_iff (record : s.type? ty = some data) :
    s.TransparentBelow ty ↔ s.Transparent data ∧ ∀ c ∈ data.kind.components, s.TransparentBelow c := by
  constructor
  · intro h
    exact ⟨h ty data .refl record, fun c hc a d hreach => h a d (.head ⟨data, record, hc⟩ hreach)⟩
  · rintro ⟨hself, hparts⟩ a d hreach ha
    obtain rfl | ⟨c, ⟨data', record', hc⟩, hreach⟩ := hreach.cases_head
    · obtain rfl := Option.mem_unique record ha
      exact hself
    · obtain rfl := Option.mem_unique record record'
      exact hparts c hc a d hreach ha

theorem Transparent.mem_searched {c : TypeId} (h : s.Transparent data)
    (hc : c ∈ data.kind.components) : c ∈ data.kind.searched := by
  obtain ⟨symbol, erased, literal, kind⟩ := data
  cases kind with
  | wildcard => exact h.elim
  | method info =>
    have hthrown : info.thrown = [] := h
    rw [Kind.components, hthrown] at hc
    exact hc
  | classType | array | forAll => exact hc
  | _ => cases hc

/-- A class type in which a variable occurs has type arguments, or a class around it has: a variable
that occurs in the enclosing type occurs in a class. -/
theorem OccursIn.parameterized (h : s.OccursIn v above ty) : s.TransparentBelow ty →
    ∀ {data : TypeData} {info : ClassInfo}, s.type? ty = some data → data.kind = .classType info →
      s.Parameterized ty := by
  induction h with
  | self hvar =>
    intro _ data info record kind
    obtain ⟨data', record', kind'⟩ := hvar
    obtain rfl := Option.mem_unique record record'
    rw [kind] at kind'
    cases kind'
  | @component ty c data above record hc occurs ih =>
    intro hclear data' info record' kind
    obtain rfl := Option.mem_unique record record'
    rw [parameterized_iff_of_class record kind]
    obtain ⟨hclass, hparts⟩ := (transparentBelow_iff record).1 hclear
    have hbelow := hparts c hc
    rw [Transparent, kind] at hclass
    rw [kind] at hc
    obtain rfl | hmem := List.mem_cons.1 hc
    · obtain ⟨outer, houter, hshape⟩ := hclass
      cases hkind : outer.kind with
      | classType => exact .inr (ih hbelow houter hkind)
      | _ =>
        have hleaf : outer.kind.shape = .leaf := hshape.resolve_left (by simp [hkind, Kind.shape])
        obtain ⟨c, hc, -⟩ := (occursIn_iff houter (by simp [hleaf])).1 occurs
        rw [Kind.components_of_shape (.inl hleaf)] at hc
        cases hc
    · exact .inl (List.ne_nil_of_mem hmem)

/-- Where nothing is left out, the search reaches all variables that occur in a type. -/
theorem OccursIn.searched (h : s.OccursIn v above ty) :
    s.TransparentBelow ty → Relation.ReflTransGen s.Searches ty v := by
  induction h with
  | self => exact fun _ => .refl
  | @component ty c data above record hc occurs ih =>
    intro hclear
    obtain ⟨hself, hparts⟩ := (transparentBelow_iff record).1 hclear
    refine .head ⟨data, record, hself.mem_searched hc, fun hclass => ?_⟩ (ih (hparts c hc))
    cases hkind : data.kind with
    | classType =>
      exact (OccursIn.component record hc occurs).parameterized hclear record hkind
    | _ =>
      rw [hkind] at hclass
      cases hclass

end Store

/-- **Containment and free variables.**  Between the steps of a script, in a consistent store at rest,
a type contains another exactly if the search reaches that: through enclosing types and type arguments
of class types that have type arguments or are enclosed by such, elements of arrays, parameters and
results of methods and bodies of quantified types.  So a type contains its free variables if nothing
that it is built from is left out by the search. -/
theorem containment_against_free_variables
    (start : Completer → SymbolId → Run (Except CompletionError Unit)) (s : Session) (ty v : TypeId)
    (depth : Nat) (hs : s.TopLevel) (hconsistent : s.store.Consistent) (hrest : s.store.AtRest)
    (hty : s.store.Has ty) (hdepth : 2 * s.store.types.size ≤ depth) :
    (freeTypeVars (completeSymbol start) depth ty).Returns s fun free _ =>
      (contains (completeSymbol start) depth ty v).Returns s fun found _ =>
        (found = true ↔ Relation.ReflTransGen s.store.Searches ty v) ∧
        (s.store.TransparentBelow ty → v ∈ free → found = true) := by
  have hself : s.store.Resembles s.store := hs.accumulated.resembles_of_ranks hconsistent.ranks
  have hheight := Store.height_lt_size hrest.acyclic hty
  refine (hrest.freeTypeVars_returns hty (by omega)).imp fun free _ hfree => ?_
  refine (contains_decides hrest hconsistent v s.store.types.size hty hheight (by omega) s hself).imp
    fun found _ hfound => ⟨hfound.2, fun hclear hv => hfound.2.2 ?_⟩
  obtain ⟨above, hoccurs, -⟩ := (hfree v).1 hv
  exact hoccurs.searched hclear

/-- A session with a type variable `T`, a class `C` with the parameter `T`, and a wildcard that is
bounded from above by `T`. -/
def boundedWildcard : Session :=
  let named := (makeStep (perform 9) (none, .newTypeVar "T" none none)).after (.initial {} .empty)
  let declared := (makeStep (perform 9) (none, .declareClass "C" none .none none)).after named
  let defined := (makeStep (perform 9)
    (none, .defineClass (.handle ⟨13⟩) [.handle ⟨12⟩] [] [] none [])).after declared
  (makeStep (perform 9) (none, .wildcard (.handle ⟨12⟩) .upper none)).after defined

theorem boundedWildcard_topLevel : boundedWildcard.TopLevel := by
  unfold boundedWildcard
  exact .after_step (.after_step (.after_step (.after_step (.initial {} .empty) rfl) rfl) rfl) rfl

theorem boundedWildcard_consistent : boundedWildcard.store.Consistent := by
  have hleads : (Session.initial {} .empty).Leads boundedWildcard := by
    unfold boundedWildcard
    exact .after_step _ _ (.after_step _ _ (.after_step _ _ (.after_step _ _ (.refl _) rfl) rfl) rfl) rfl
  exact hleads.consistent

theorem boundedWildcard_atRest : boundedWildcard.store.AtRest :=
  ⟨by decide +kernel, Store.Layered.acyclic (by decide +kernel),
    fun _ => Store.nonePending_of_symbols (by decide +kernel)⟩

/-- `C` contains its parameter. -/
theorem containment_against_free_variables_parameter :
    let load := completeSymbol fun _ _ => pure (.ok ())
    boundedWildcard.TopLevel ∧ boundedWildcard.store.Consistent ∧ boundedWildcard.store.AtRest ∧
      boundedWildcard.store.TransparentBelow ⟨13⟩ ∧
      (freeTypeVars load 30 ⟨13⟩).Returns boundedWildcard fun free _ => ⟨12⟩ ∈ free ∧
        (contains load 30 ⟨13⟩ ⟨12⟩).Returns boundedWildcard fun found _ => found = true := by
  intro load
  have hclear : boundedWildcard.store.TransparentBelow ⟨13⟩ := by
    have hclass : boundedWildcard.store.type? ⟨13⟩ = some _ := rfl
    have hmissing : boundedWildcard.store.type? WellKnown.missing = some _ := rfl
    have hvariable : boundedWildcard.store.type? ⟨12⟩ = some _ := rfl
    have hparts : ∀ c ∈ [WellKnown.missing, ⟨12⟩], boundedWildcard.store.TransparentBelow c := by
      rintro c (_ | ⟨_, _ | ⟨_, hc⟩⟩)
      · exact (Store.transparentBelow_iff hmissing).2 ⟨trivial, fun _ hc => by cases hc⟩
      · exact (Store.transparentBelow_iff hvariable).2 ⟨trivial, fun _ hc => by cases hc⟩
      · cases hc
    exact (Store.transparentBelow_iff hclass).2 ⟨⟨_, hmissing, .inr rfl⟩, hparts⟩
  refine ⟨boundedWildcard_topLevel, boundedWildcard_consistent, boundedWildcard_atRest, hclear, ?_⟩
  obtain ⟨free, s', hfree, h⟩ := containment_against_free_variables (fun _ _ => pure (.ok ()))
    boundedWildcard ⟨13⟩ ⟨12⟩ 30 boundedWildcard_topLevel boundedWildcard_consistent
    boundedWildcard_atRest (by decide +kernel) (by decide +kernel)
  have hmem : ⟨12⟩ ∈ free := by
    obtain ⟨rfl, -⟩ := EStateM.Result.ok.inj hfree
    decide +kernel
  exact ⟨free, s', hfree, hmem, h.imp fun found _ hfound => hfound.2 hclear hmem⟩

/-- A variable is free in the wildcard that it bounds, but not found there. -/
theorem wildcard_bound_not_contained :
    let load := completeSymbol fun _ _ => pure (.ok ())
    boundedWildcard.TopLevel ∧ boundedWildcard.store.Consistent ∧ boundedWildcard.store.AtRest ∧
      ((freeTypeVars load 30 ⟨14⟩).Returns boundedWildcard fun free _ => ⟨12⟩ ∈ free) ∧
      (contains load 30 ⟨14⟩ ⟨12⟩).Returns boundedWildcard fun found _ => found = false := by
  intro load
  refine ⟨boundedWildcard_topLevel, boundedWildcard_consistent, boundedWildcard_atRest, ?_, ?_⟩
  · exact ⟨_, _, rfl, by decide +kernel⟩
  · exact ⟨_, _, rfl, rfl⟩

end RegionTypes

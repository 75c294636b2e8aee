import RegionTypes.Proofs.Completion.Issued

/-!
# Structural keys

Types are keys of tables under structural equality.  Arrays and methods are compared by what they
are made of, so a type stands for the **tree** that it unfolds to, and the comparison and the hash
are functions of this tree.

* `Key` — the trees.  A method is a chain of its parameters that ends with its result.
* `Store.key` — the tree of a type.
* `Store.Grounded` — the elements, parameters and results are older than the types made of them.
  `Store.Consistent.grounded`: so it is in **every store that is worked with through its own handles**.
* `typesEqual_run`, `typeHash_run` — **comparing types is comparing trees, and the hash is a function
  of the tree**.
* `Store.Precedes.key_eq` — trees stay the same in every later state.
* `isErroneous_alike`, `isRaw_alike`, ... — types with the same tree get the same answers.
* `structural_keys_lawful` — **structural keys are lawful**.
-/

namespace RegionTypes

open Run

/-- What a type unfolds to in comparisons. -/
inductive Key where
  /-- A type that equals itself only. -/
  | atom (ty : TypeId)
  | array (elem : Key)
  /-- A parameter of a method and the rest of its signature. -/
  | param (first rest : Key)
  /-- The result of a method, at the end of its signature. -/
  | result (type : Key)
  deriving DecidableEq, Repr

namespace Key

/-- The signature of a method. -/
def signature (params : List Key) (result : Key) : Key := params.foldr .param (.result result)

theorem signature_inj {ps qs : List Key} {j k : Key} :
    signature ps j = signature qs k ↔ ps = qs ∧ j = k := by
  induction ps generalizing qs with
  | nil =>
    cases qs with
    | nil | cons => simp [signature]
  | cons p ps ih =>
    cases qs with
    | nil => simp [signature]
    | cons q qs =>
      have hrest : ps.foldr param (.result j) = qs.foldr param (.result k) ↔ ps = qs ∧ j = k := ih
      simp [signature, hrest, and_assoc]

theorem signature_ne_array (params : List Key) (result elem : Key) :
    signature params result ≠ .array elem := by
  cases params <;> simp [signature]

theorem signature_ne_atom (params : List Key) (result : Key) (ty : TypeId) :
    signature params result ≠ .atom ty := by
  cases params <;> simp [signature]

/-- The hash of a tree, where the rest of a signature goes on from what was hashed before it. -/
def hashFrom : UInt32 → Key → UInt32
  | _, atom ty => UInt32.ofNat ty.index
  | _, array elem =>
    mixHash (UInt32.ofNat Tag.array.number) (elem.hashFrom (UInt32.ofNat Tag.method.number))
  | start, param first rest =>
    rest.hashFrom (mixHash start (first.hashFrom (UInt32.ofNat Tag.method.number)))
  | start, result type => mixHash start (type.hashFrom (UInt32.ofNat Tag.method.number))

/-- The hash of a tree. -/
def hash (k : Key) : UInt32 := k.hashFrom (UInt32.ofNat Tag.method.number)

end Key

/-- The types that comparisons go on to from a type. -/
def Kind.keyParts : Kind → List TypeId
  | array info => [info.elem]
  | method info => info.params ++ [info.result]
  | _ => []

/-- The tree of a type, given those of the types that comparisons go on to. -/
def Kind.unfold (tree : TypeId → Key) (ty : TypeId) : Kind → Key
  | array info => .array (tree info.elem)
  | method info => .signature (info.params.map tree) (tree info.result)
  | _ => .atom ty

theorem Kind.Precedes.keyParts {a b : Kind} (h : a.Precedes b) : b.keyParts = a.keyParts := by
  cases h with
  | method h => rw [Kind.keyParts, Kind.keyParts, h.params, h.result]
  | _ => rfl

section

variable {tree tree' : TypeId → Key} {ty : TypeId} {kind : Kind}

theorem Kind.Precedes.unfold {a b : Kind} (h : a.Precedes b) : b.unfold tree ty = a.unfold tree ty := by
  cases h with
  | method h => rw [Kind.unfold, Kind.unfold, h.params, h.result]
  | _ => rfl

theorem Kind.unfold_congr (h : ∀ part ∈ kind.keyParts, tree part = tree' part) :
    kind.unfold tree ty = kind.unfold tree' ty := by
  cases kind with
  | array info => exact congrArg Key.array (h info.elem List.mem_cons_self)
  | method info =>
    have hparams : info.params.map tree = info.params.map tree' :=
      List.map_congr_left fun p hp => h p (List.mem_append_left _ hp)
    rw [unfold, unfold, hparams, h info.result (by simp [keyParts])]
  | _ => rfl

theorem Kind.unfold_atom (h : kind.keyParts = []) : kind.unfold tree ty = .atom ty := by
  cases kind with
  | array | method => simp [keyParts] at h
  | _ => rfl

end

namespace Store

variable {s t : Store} {a b ty : TypeId} {n : Nat}

/-- The tree of a type, unfolded so many times. -/
def keyWithin (s : Store) : Nat → TypeId → Key
  | 0, ty => .atom ty
  | n + 1, ty => (s.kind? ty).elim (.atom ty) (Kind.unfold (s.keyWithin n) ty)

/-- The tree of a type. -/
def key (s : Store) (ty : TypeId) : Key := s.keyWithin (ty.index + 1) ty

/-- What the first `n` types are made of is older than they are. -/
structure Grounded (s : Store) (n : Nat) : Prop where
  size : n ≤ s.types.size
  parts : ∀ ty data, ty.index < n → s.type? ty = some data →
    ∀ part ∈ data.kind.keyParts, part.index < ty.index

theorem Grounded.exists_data (h : s.Grounded n) (hty : ty.index < n) :
    ∃ data, s.type? ty = some data :=
  has_iff.1 (has_iff_lt.2 (Nat.lt_of_lt_of_le hty h.size))

/-- Unfolding often enough is unfolding completely. -/
theorem Grounded.keyWithin_eq (h : s.Grounded n) {m : Nat} (hty : ty.index < n)
    (hm : ty.index < m) : s.keyWithin m ty = s.key ty := by
  -- both sides unfold the same parts, which have smaller handles
  induction hi : ty.index using Nat.strongRecOn generalizing ty m with
  | ind i ih =>
    subst hi
    obtain ⟨data, hdata⟩ := h.exists_data hty
    obtain ⟨m, rfl⟩ : ∃ m', m = m' + 1 := ⟨m - 1, by omega⟩
    have hpart : ∀ part ∈ data.kind.keyParts, s.keyWithin m part = s.keyWithin ty.index part := by
      intro part hmem
      have hlt := h.parts ty data hty hdata part hmem
      rw [ih part.index hlt (by omega) (by omega) rfl, ih part.index hlt (by omega) hlt rfl]
    rw [key, keyWithin, keyWithin, kind?, hdata]
    exact Kind.unfold_congr hpart

section Grounded

variable (h : s.Grounded n) {data : TypeData} (hty : ty.index < n) (hdata : s.type? ty = some data)
include h hty hdata

theorem Grounded.part_lt {part : TypeId} (hmem : part ∈ data.kind.keyParts) : part.index < n :=
  Nat.lt_trans (h.parts ty data hty hdata part hmem) hty

theorem Grounded.key_unfold : s.key ty = data.kind.unfold s.key ty := by
  rw [key, keyWithin, kind?, hdata]
  exact Kind.unfold_congr fun part hmem =>
    h.keyWithin_eq (h.part_lt hty hdata hmem) (h.parts ty data hty hdata part hmem)

theorem Grounded.key_array {info : ArrayInfo} (hkind : data.kind = .array info) :
    s.key ty = .array (s.key info.elem) := by
  rw [h.key_unfold hty hdata, hkind]
  rfl

theorem Grounded.key_method {info : MethodInfo} (hkind : data.kind = .method info) :
    s.key ty = .signature (info.params.map s.key) (s.key info.result) := by
  rw [h.key_unfold hty hdata, hkind]
  rfl

end Grounded

theorem key_atom {data : TypeData} (hdata : s.type? ty = some data)
    (hkind : data.kind.keyParts = []) : s.key ty = .atom ty := by
  rw [key, keyWithin, kind?, hdata]
  exact Kind.unfold_atom hkind

/-- Only a type itself has an atom for its tree. -/
theorem Grounded.eq_of_key_atom (h : s.Grounded n) (hty : ty.index < n)
    (hkey : s.key ty = .atom a) : ty = a := by
  obtain ⟨data, hdata⟩ := h.exists_data hty
  cases hk : data.kind with
  | array =>
    rw [h.key_array hty hdata hk] at hkey
    cases hkey
  | method =>
    rw [h.key_method hty hdata hk] at hkey
    exact absurd hkey (Key.signature_ne_atom _ _ _)
  | _ =>
    rw [key_atom hdata (by rw [hk]; rfl)] at hkey
    exact Key.atom.inj hkey

/-- The same type, or two types of one variant whose parts have the same trees. -/
inductive Alike (s : Store) (a b : TypeId) : Prop
  | same (h : a = b)
  | array {x y : TypeData} {i j : ArrayInfo} (hx : s.type? a = some x) (hy : s.type? b = some y)
      (hi : x.kind = .array i) (hj : y.kind = .array j) (helem : s.key i.elem = s.key j.elem)
  | method {x y : TypeData} {i j : MethodInfo} (hx : s.type? a = some x) (hy : s.type? b = some y)
      (hi : x.kind = .method i) (hj : y.kind = .method j)
      (hparams : i.params.map s.key = j.params.map s.key)
      (hresult : s.key i.result = s.key j.result)

/-- What types with the same tree have in common. -/
theorem Grounded.alike (h : s.Grounded n) (ha : a.index < n) (hb : b.index < n)
    (hkey : s.key a = s.key b) : s.Alike a b := by
  obtain ⟨x, hx⟩ := h.exists_data ha
  obtain ⟨y, hy⟩ := h.exists_data hb
  cases hi : x.kind with
  | array =>
    rw [h.key_array ha hx hi] at hkey
    cases hj : y.kind with
    | array =>
      rw [h.key_array hb hy hj] at hkey
      exact .array hx hy hi hj (Key.array.inj hkey)
    | method =>
      rw [h.key_method hb hy hj] at hkey
      exact absurd hkey.symm (Key.signature_ne_array _ _ _)
    | _ =>
      rw [key_atom hy (by rw [hj]; rfl)] at hkey
      cases hkey
  | method =>
    rw [h.key_method ha hx hi] at hkey
    cases hj : y.kind with
    | array =>
      rw [h.key_array hb hy hj] at hkey
      exact absurd hkey (Key.signature_ne_array _ _ _)
    | method =>
      rw [h.key_method hb hy hj] at hkey
      obtain ⟨hparams, hresult⟩ := Key.signature_inj.1 hkey
      exact .method hx hy hi hj hparams hresult
    | _ =>
      rw [key_atom hy (by rw [hj]; rfl)] at hkey
      exact absurd hkey (Key.signature_ne_atom _ _ _)
  | _ =>
    rw [key_atom hx (by rw [hi]; rfl)] at hkey
    exact .same (h.eq_of_key_atom hb hkey.symm).symm

/-! ### Later states -/

theorem Precedes.grounded (hst : s.Precedes t) (h : s.Grounded n) : t.Grounded n where
  size := by
    by_contra hlt
    have hold : s.Has ⟨t.types.size⟩ :=
      has_iff_lt.2 (Nat.lt_of_lt_of_le (Nat.lt_of_not_le hlt) h.size)
    obtain ⟨data, hdata⟩ := has_iff.1 hold
    obtain ⟨data', hdata', -⟩ := hst.types _ data hdata
    exact Nat.lt_irrefl _ (has_iff_lt.1 (has_iff.2 ⟨data', hdata'⟩))
  parts ty data' hty hdata' part hmem := by
    obtain ⟨data, hdata⟩ := h.exists_data hty
    obtain ⟨found, hfound, hkept⟩ := hst.types ty data hdata
    obtain rfl : found = data' := Option.mem_unique hfound hdata'
    rw [hkept.kind.keyParts] at hmem
    exact h.parts ty data hty hdata part hmem

/-- **Trees stay the same.** -/
theorem Precedes.key_eq (hst : s.Precedes t) (h : s.Grounded n) (hty : ty.index < n) :
    t.key ty = s.key ty := by
  induction hi : ty.index using Nat.strongRecOn generalizing ty with
  | ind i ih =>
    subst hi
    have ht := hst.grounded h
    obtain ⟨data, hdata⟩ := h.exists_data hty
    obtain ⟨data', hdata', hkept⟩ := hst.types ty data hdata
    have hpart : ∀ part ∈ data.kind.keyParts, t.key part = s.key part := fun part hmem =>
      ih part.index (h.parts ty data hty hdata part hmem) (h.part_lt hty hdata hmem) rfl
    rw [ht.key_unfold hty hdata', h.key_unfold hty hdata, hkept.kind.unfold]
    exact Kind.unfold_congr hpart

/-- **In a store that is worked with through its own handles, types are made of older types.** -/
theorem Consistent.grounded (h : s.Consistent) : s.Grounded s.types.size where
  size := Nat.le_refl _
  parts ty data _ hdata part hmem := by
    refine (h.types ty data hdata).older part ?_
    cases hkind : data.kind with
    | array | method =>
      rw [hkind] at hmem
      simpa [Kind.keyParts, Kind.ingredients, or_comm] using hmem
    | _ =>
      rw [hkind] at hmem
      cases hmem

end Store

/-! ### Comparing and hashing -/

variable {s : Session} {a b : TypeId} {n depth : Nat} {key : TypeId → Key} {as bs : List TypeId}

/-- Comparing two lists of types is comparing the lists of their trees. -/
theorem allPairsM_run {p : TypeId → TypeId → Run Bool}
    (h : ∀ a ∈ as, ∀ b ∈ bs, p a b s = .ok (decide (key a = key b)) s) :
    allPairsM p as bs s = .ok (decide (as.map key = bs.map key)) s := by
  induction as generalizing bs with
  | nil =>
    cases bs with
    | nil | cons => rfl
  | cons a as ih =>
    cases bs with
    | nil => rfl
    | cons b bs =>
      have hrest : allPairsM p as bs s = .ok (decide (as.map key = bs.map key)) s :=
        ih fun x hx y hy => h x (List.mem_cons_of_mem a hx) y (List.mem_cons_of_mem b hy)
      rw [allPairsM, bind_run (h a List.mem_cons_self b List.mem_cons_self)]
      by_cases hkey : key a = key b
      · simp [hkey, hrest]
      · have hne : ¬ (a :: as).map key = (b :: bs).map key := by simp [hkey]
        rw [decide_eq_false hkey, decide_eq_false hne]
        rfl

/-- Comparing the parameters of two methods and then their results. -/
theorem signatures_run {p : TypeId → TypeId → Run Bool} {x y : TypeId}
    (h : ∀ a ∈ as ++ [x], ∀ b ∈ bs ++ [y], p a b s = .ok (decide (key a = key b)) s) :
    (do
      if as.length ≠ bs.length then return false
      else if ← allPairsM p as bs then p x y
      else return false : Run Bool) s =
      .ok (decide (Key.signature (as.map key) (key x) = Key.signature (bs.map key) (key y))) s := by
  have hparams : allPairsM p as bs s = .ok (decide (as.map key = bs.map key)) s :=
    allPairsM_run fun a ha b hb => h a (by simp [ha]) b (by simp [hb])
  have hresult : p x y s = .ok (decide (key x = key y)) s := h x (by simp) y (by simp)
  simp only [Key.signature_inj]
  by_cases hsame : as.map key = bs.map key
  · have hlength : as.length = bs.length := by simpa using congrArg List.length hsame
    rw [if_neg (by simp [hlength]), bind_run hparams]
    simp [hsame, hresult]
  · have hne : ¬ (as.map key = bs.map key ∧ key x = key y) := fun h => hsame h.1
    rw [decide_eq_false hne]
    split
    · rfl
    · rw [bind_run hparams, decide_eq_false hsame]
      rfl

/-- **Comparing types is comparing trees.** -/
theorem typesEqual_run (h : s.store.Grounded n) (ha : a.index < n) (hb : b.index < n)
    (hdepth : a.index < depth) :
    typesEqual depth a b s = .ok (decide (s.store.key a = s.store.key b)) s := by
  induction depth generalizing a b with
  | zero => exact absurd hdepth (Nat.not_lt_zero _)
  | succ depth ih =>
    rw [typesEqual]
    by_cases hab : a = b
    · rw [if_pos hab, hab, decide_eq_true rfl]
      rfl
    · obtain ⟨x, hx⟩ := h.exists_data ha
      obtain ⟨y, hy⟩ := h.exists_data hb
      have hparts : ∀ c ∈ x.kind.keyParts, ∀ d ∈ y.kind.keyParts,
          typesEqual depth c d s = .ok (decide (s.store.key c = s.store.key d)) s := by
        intro c hc d hd
        have hlt := h.parts a x ha hx c hc
        exact ih (h.part_lt ha hx hc) (h.part_lt hb hy hd) (by omega)
      have hatom : y.kind.keyParts = [] → ¬ s.store.key a = s.store.key b := fun hnone hkey =>
        hab (h.eq_of_key_atom ha (hkey.trans (Store.key_atom hy hnone)))
      rw [if_neg hab, bind_run (kindOf_run hx), bind_run (kindOf_run hy)]
      cases hkx : x.kind with
      | array info =>
        cases hky : y.kind with
        | array info' =>
          rw [hkx, hky] at hparts
          rw [h.key_array ha hx hkx, h.key_array hb hy hky]
          simpa using hparts info.elem (by simp [Kind.keyParts]) info'.elem
            (by simp [Kind.keyParts])
        | method =>
          rw [h.key_array ha hx hkx, h.key_method hb hy hky,
            decide_eq_false (Key.signature_ne_array _ _ _).symm]
          rfl
        | _ =>
          rw [decide_eq_false (hatom (by rw [hky]; rfl))]
          rfl
      | method =>
        cases hky : y.kind with
        | method =>
          rw [hkx, hky] at hparts
          rw [h.key_method ha hx hkx, h.key_method hb hy hky]
          exact signatures_run hparts
        | array =>
          rw [h.key_method ha hx hkx, h.key_array hb hy hky,
            decide_eq_false (Key.signature_ne_array _ _ _)]
          rfl
        | _ =>
          rw [decide_eq_false (hatom (by rw [hky]; rfl))]
          rfl
      | _ =>
        have hne : ¬ s.store.key a = s.store.key b := fun hkey =>
          hab (h.eq_of_key_atom hb (hkey.symm.trans (Store.key_atom hx (by rw [hkx]; rfl)))).symm
        rw [decide_eq_false hne]
        rfl

/-- Hashing the parameters of a method, as far as its result. -/
theorem hashParams_run {params : List TypeId} (h : ∀ p ∈ params, typeHash depth p s = .ok (key p).hash s)
    (result : Key) (start : UInt32) :
    ∃ hash, (params.foldlM (fun hash p => do return mixHash hash (← typeHash depth p)) start :
        Run UInt32) s = .ok hash s ∧
      (Key.signature (params.map key) result).hashFrom start = mixHash hash result.hash := by
  induction params generalizing start with
  | nil => exact ⟨start, rfl, rfl⟩
  | cons p params ih =>
    have hfirst := h p List.mem_cons_self
    obtain ⟨hash, hrun, hhash⟩ :=
      ih (fun q hq => h q (List.mem_cons_of_mem p hq)) (mixHash start (key p).hash)
    refine ⟨hash, ?_, hhash⟩
    rw [List.foldlM_cons]
    refine (bind_run ?_).trans hrun
    rw [bind_run hfirst]
    rfl

/-- **The hash of a type is the hash of its tree.** -/
theorem typeHash_run (h : s.store.Grounded n) (ha : a.index < n) (hdepth : a.index < depth) :
    typeHash depth a s = .ok (s.store.key a).hash s := by
  induction depth generalizing a with
  | zero => exact absurd hdepth (Nat.not_lt_zero _)
  | succ depth ih =>
    obtain ⟨data, hdata⟩ := h.exists_data ha
    have hparts : ∀ c ∈ data.kind.keyParts, typeHash depth c s = .ok (s.store.key c).hash s := by
      intro c hc
      have hlt := h.parts a data ha hdata c hc
      exact ih (h.part_lt ha hdata hc) (by omega)
    rw [typeHash, bind_run (kindOf_run hdata)]
    cases hk : data.kind with
    | array info =>
      rw [hk] at hparts
      rw [h.key_array ha hdata hk]
      exact (bind_run (hparts info.elem (by simp [Kind.keyParts]))).trans rfl
    | method info =>
      rw [hk] at hparts
      have hparams : ∀ p ∈ info.params, typeHash depth p s = .ok (s.store.key p).hash s :=
        fun p hp => hparts p (by simp [Kind.keyParts, hp])
      obtain ⟨hash, hrun, hhash⟩ := hashParams_run hparams (s.store.key info.result)
        (UInt32.ofNat Tag.method.number)
      rw [h.key_method ha hdata hk, Key.hash, hhash]
      refine (bind_run hrun).trans ?_
      rw [bind_run (hparts info.result (by simp [Kind.keyParts]))]
      rfl
    | _ =>
      rw [Store.key_atom hdata (by rw [hk]; rfl)]
      rfl

/-! ### Questions about types with the same tree -/

/-- The first `n` types with the same tree get the same answer. -/
def AnswersAlike {β : Type} (n : Nat) (ask : TypeId → Run β) : Prop :=
  ∀ (a b : TypeId) (s : Session), s.store.Grounded n → a.index < n → b.index < n →
    s.store.key a = s.store.key b → ask a s = ask b s

/-- A question that an array passes on to its elements. -/
theorem answersAlike_of_array {β : Type} {ask : Nat → TypeId → Run β}
    (hzero : ∀ a b, ask 0 a = ask 0 b)
    (harray : ∀ d a (s : Session) x i, s.store.type? a = some x → x.kind = .array i →
      ask (d + 1) a s = ask d i.elem s)
    (hmethod : ∀ d, AnswersAlike n (ask d) → ∀ a b (s : Session) x y i j, s.store.Grounded n →
      a.index < n → b.index < n → s.store.type? a = some x → s.store.type? b = some y →
      x.kind = .method i → y.kind = .method j →
      i.params.map s.store.key = j.params.map s.store.key →
      s.store.key i.result = s.store.key j.result → ask (d + 1) a s = ask (d + 1) b s)
    (depth : Nat) : AnswersAlike n (ask depth) := by
  induction depth with
  | zero =>
    intro a b s _ _ _ _
    rw [hzero a b]
  | succ depth ih =>
    intro a b s h ha hb hkey
    cases h.alike ha hb hkey with
    | same hab => rw [hab]
    | @array x y i j hx hy hi hj helem =>
      rw [harray depth a s x i hx hi, harray depth b s y j hy hj]
      exact ih i.elem j.elem s h (h.part_lt ha hx (by simp [hi, Kind.keyParts]))
        (h.part_lt hb hy (by simp [hj, Kind.keyParts])) helem
    | @method x y i j hx hy hi hj hparams hresult =>
      exact hmethod depth ih a b s x y i j h ha hb hx hy hi hj hparams hresult

section Questions

variable {load : Loader}

theorem allTypeParams_alike : AnswersAlike n (allTypeParams load depth) := by
  refine answersAlike_of_array (fun _ _ => rfl) ?_ ?_ depth
  · intro d a s x i hx hi
    rw [allTypeParams, bind_run (typeData_run hx)]
    simp only [hi]
  · intro d _ a b s x y i j _ _ _ hx hy hi hj _ _
    rw [allTypeParams, allTypeParams, bind_run (typeData_run hx), bind_run (typeData_run hy)]
    simp only [hi, hj]

theorem isParameterized_alike : AnswersAlike n (isParameterized load depth) := by
  refine answersAlike_of_array (fun _ _ => rfl) ?_ ?_ depth
  · intro d a s x i hx hi
    rw [isParameterized, bind_run (kindOf_run hx)]
    simp only [hi]
  · intro d _ a b s x y i j _ _ _ hx hy hi hj _ _
    rw [isParameterized, isParameterized, bind_run (kindOf_run hx), bind_run (kindOf_run hy)]
    simp only [hi, hj]

theorem isRaw_alike : AnswersAlike n (isRaw load depth) := by
  refine answersAlike_of_array (fun _ _ => rfl) ?_ ?_ depth
  · intro d a s x i hx hi
    rw [isRaw, bind_run (typeData_run hx)]
    simp only [hi]
  · intro d _ a b s x y i j _ _ _ hx hy hi hj _ _
    rw [isRaw, isRaw, bind_run (typeData_run hx), bind_run (typeData_run hy)]
    simp only [hi, hj]

/-- Asking the types of a list one after the other, while classes are loaded on the way. -/
theorem anyM_alike {ask : TypeId → Run Bool} (halong : ∀ ty, Along Store.Evolves (ask ty))
    (hask : AnswersAlike n ask) (h : s.store.Grounded n) (has : ∀ a ∈ as, a.index < n)
    (hbs : ∀ b ∈ bs, b.index < n) (hkeys : as.map s.store.key = bs.map s.store.key) :
    as.anyM ask s = bs.anyM ask s := by
  induction as generalizing bs s with
  | nil =>
    rw [List.map_eq_nil_iff.1 hkeys.symm]
  | cons a as ih =>
    cases bs with
    | nil => exact absurd hkeys (by simp)
    | cons b bs =>
      obtain ⟨hkey, hrest⟩ := List.cons.inj hkeys
      have hfirst := hask a b s h (has a List.mem_cons_self) (hbs b List.mem_cons_self) hkey
      rw [List.anyM, List.anyM]
      cases hrun : ask b s with
      | error => rw [bind_run_error hrun, bind_run_error (hfirst.trans hrun)]
      | ok answer s' =>
        rw [bind_run hrun, bind_run (hfirst.trans hrun)]
        have hlater := (halong b s).precedes
        rw [after_of_ok hrun] at hlater
        have has' : ∀ c ∈ as, c.index < n := fun c hc => has c (List.mem_cons_of_mem a hc)
        have hbs' : ∀ c ∈ bs, c.index < n := fun c hc => hbs c (List.mem_cons_of_mem b hc)
        cases answer with
        | true => rfl
        | false =>
          refine ih (hlater.grounded h) has' hbs' ?_
          have hkept : ∀ cs : List TypeId, (∀ c ∈ cs, c.index < n) →
              cs.map s'.store.key = cs.map s.store.key :=
            fun cs hcs => List.map_congr_left fun c hc => hlater.key_eq h (hcs c hc)
          rw [hkept as has', hkept bs hbs']
          exact hrest

theorem isErroneous_alike (hload : load.Follows Store.Evolves) :
    AnswersAlike n (isErroneous load depth) := by
  refine answersAlike_of_array (fun _ _ => rfl) ?_ ?_ depth
  · intro d a s x i hx hi
    rw [isErroneous, bind_run (typeData_run hx)]
    simp only [hi]
  · intro d ih a b s x y i j h ha hb hx hy hi hj hparams hresult
    have halong := isErroneous_along hload d
    have hpart : ∀ p ∈ i.params ++ [i.result], p.index < n := fun p hp =>
      h.part_lt ha hx (by rw [hi]; exact hp)
    have hpart' : ∀ p ∈ j.params ++ [j.result], p.index < n := fun p hp =>
      h.part_lt hb hy (by rw [hj]; exact hp)
    have hany : i.params.anyM (isErroneous load d) s = j.params.anyM (isErroneous load d) s :=
      anyM_alike halong ih h (fun p hp => hpart p (by simp [hp]))
        (fun p hp => hpart' p (by simp [hp])) hparams
    rw [isErroneous, isErroneous, bind_run (typeData_run hx), bind_run (typeData_run hy)]
    simp only [hi, hj]
    cases hrun : j.params.anyM (isErroneous load d) s with
    | error => rw [bind_run_error hrun, bind_run_error (hany.trans hrun)]
    | ok answer s' =>
      rw [bind_run hrun, bind_run (hany.trans hrun)]
      have hlater := (Along.anyM halong j.params s).precedes
      rw [after_of_ok hrun] at hlater
      cases answer with
      | true => rfl
      | false =>
        have hi' := hpart i.result (by simp)
        have hj' := hpart' j.result (by simp)
        refine ih i.result j.result s' (hlater.grounded h) hi' hj' ?_
        rw [hlater.key_eq h hi', hlater.key_eq h hj']
        exact hresult

theorem tag_alike : AnswersAlike n fun ty => do return Answer.tag (← kindOf ty).tag := by
  intro a b s h ha hb hkey
  cases h.alike ha hb hkey with
  | same hab => rw [hab]
  | array hx hy hi hj | method hx hy hi hj =>
    refine (bind_run (kindOf_run hx)).trans (Eq.trans ?_ (bind_run (kindOf_run hy)).symm)
    rw [hi, hj]
    rfl

end Questions

/-- What is asked about a type as a key. -/
def Query.aboutKeys : List Query := [.tag, .isErroneous, .isRaw, .isParameterized, .allTypeParams]

theorem AnswersAlike.map {β γ : Type} {ask : TypeId → Run β} (h : AnswersAlike n ask)
    (f : β → γ) : AnswersAlike n fun ty => do return f (← ask ty) := by
  intro a b s hs ha hb hkey
  show EStateM.bind (ask a) _ s = EStateM.bind (ask b) _ s
  rw [EStateM.bind, EStateM.bind, h a b s hs ha hb hkey]

theorem ask_alike {query : Query} (hquery : query ∈ Query.aboutKeys) :
    AnswersAlike n fun ty => perform depth (.ask query (.handle ty)) := by
  cases depth with
  | zero => exact fun a b s _ _ _ _ => rfl
  | succ depth =>
    have hload : (completerLoader depth).Follows Store.Evolves :=
      completerLoader_follows (fun _ _ h => h.evolves)
        (perform_along (fun _ _ h => h.evolves) depth)
    suffices h : AnswersAlike n fun ty => inquire (completerLoader depth) depth ty query from
      h.map Except.ok
    simp only [Query.aboutKeys, List.mem_cons, List.not_mem_nil, or_false] at hquery
    rcases hquery with rfl | rfl | rfl | rfl | rfl
    · exact tag_alike
    · exact (isErroneous_alike hload).map Answer.truth
    · exact isRaw_alike.map Answer.truth
    · exact isParameterized_alike.map Answer.truth
    · exact allTypeParams_alike.map Answer.types

/-- **Structural keys are lawful.**  In a store whose types are made of older ones, comparing types and
hashing them always gives an answer; the comparison is reflexive, symmetric and transitive; equal
types have equal hashes and, now and in every later state, the same tag, the same type parameters and
the same answers to whether they are erroneous, raw or parameterized; and neither the comparison nor
the hash of any type changes in a later state. -/
theorem structural_keys_lawful {s : Session} (h : s.store.Grounded s.store.types.size) {depth : Nat}
    (hdepth : s.store.types.size ≤ depth) :
    (∀ a b, s.store.Has a → s.store.Has b → ∃ same, typesEqual depth a b s = .ok same s) ∧
    (∀ a, s.store.Has a → ∃ hash, typeHash depth a s = .ok hash s) ∧
    (∀ a, s.store.Has a → typesEqual depth a a s = .ok true s) ∧
    (∀ a b, s.store.Has a → s.store.Has b →
      typesEqual depth a b s = .ok true s → typesEqual depth b a s = .ok true s) ∧
    (∀ a b c, s.store.Has a → s.store.Has b → s.store.Has c →
      typesEqual depth a b s = .ok true s → typesEqual depth b c s = .ok true s →
        typesEqual depth a c s = .ok true s) ∧
    (∀ a b, s.store.Has a → s.store.Has b → typesEqual depth a b s = .ok true s →
      typeHash depth a s = typeHash depth b s ∧
        ∀ t : Session, s.store.Later t.store → ∀ query ∈ Query.aboutKeys, ∀ d,
          perform d (.ask query (.handle a)) t = perform d (.ask query (.handle b)) t) ∧
    (∀ t : Session, s.store.Later t.store → ∀ a b, s.store.Has a → s.store.Has b →
      (∀ same, typesEqual depth a b s = .ok same s → typesEqual depth a b t = .ok same t) ∧
        ∀ hash, typeHash depth a s = .ok hash s → typeHash depth a t = .ok hash t) := by
  have hequal : ∀ a b, s.store.Has a → s.store.Has b →
      typesEqual depth a b s = .ok (decide (s.store.key a = s.store.key b)) s := fun a b ha hb =>
    typesEqual_run h (Store.has_iff_lt.1 ha) (Store.has_iff_lt.1 hb)
      (Nat.lt_of_lt_of_le (Store.has_iff_lt.1 ha) hdepth)
  have hhash : ∀ a, s.store.Has a → typeHash depth a s = .ok (s.store.key a).hash s := fun a ha =>
    typeHash_run h (Store.has_iff_lt.1 ha) (Nat.lt_of_lt_of_le (Store.has_iff_lt.1 ha) hdepth)
  have hsame : ∀ a b, s.store.Has a → s.store.Has b →
      (typesEqual depth a b s = .ok true s ↔ s.store.key a = s.store.key b) := by
    intro a b ha hb
    rw [hequal a b ha hb]
    simp
  refine ⟨fun a b ha hb => ⟨_, hequal a b ha hb⟩, fun a ha => ⟨_, hhash a ha⟩, ?_, ?_, ?_, ?_, ?_⟩
  · intro a ha
    exact (hsame a a ha ha).2 rfl
  · intro a b ha hb hab
    exact (hsame b a hb ha).2 ((hsame a b ha hb).1 hab).symm
  · intro a b c ha hb hc hab hbc
    exact (hsame a c ha hc).2 (((hsame a b ha hb).1 hab).trans ((hsame b c hb hc).1 hbc))
  · intro a b ha hb hab
    have hkey := (hsame a b ha hb).1 hab
    refine ⟨by rw [hhash a ha, hhash b hb, hkey], fun t ht query hquery d => ?_⟩
    have ha' := Store.has_iff_lt.1 ha
    have hb' := Store.has_iff_lt.1 hb
    refine ask_alike hquery a b t (ht.precedes.grounded h) ha' hb' ?_
    rw [ht.precedes.key_eq h ha', ht.precedes.key_eq h hb', hkey]
  · intro t ht a b ha hb
    have ha' := Store.has_iff_lt.1 ha
    have hb' := Store.has_iff_lt.1 hb
    have hlt := Nat.lt_of_lt_of_le ha' hdepth
    have hgrounded := ht.precedes.grounded h
    constructor
    · intro same hrun
      rw [typesEqual_run hgrounded ha' hb' hlt, ht.precedes.key_eq h ha', ht.precedes.key_eq h hb']
      rw [hequal a b ha hb] at hrun
      injection hrun with hrun
      rw [hrun]
    · intro hash hrun
      rw [typeHash_run hgrounded ha' hlt, ht.precedes.key_eq h ha']
      rw [hhash a ha] at hrun
      injection hrun with hrun
      rw [hrun]

/-- Two methods, each with an array type of its own for its parameter.  They are equal as keys, and
stay so when one of them gets a type to throw. -/
theorem structural_keys_lawful_methods :
    let run (s : Session) (command : Command) := (makeStep (perform 3) (none, command)).after s
    let array : Command := .arrayType (.handle WellKnown.int) none none
    let method (param : TypeId) : Command := .methodType [.handle param] (.handle WellKnown.void) []
    let s := run (run (run (run (.initial {} .empty) array) array) (method ⟨12⟩)) (method ⟨13⟩)
    let later := (perform 3 (.setThrown (.handle ⟨14⟩) [.handle WellKnown.error])).after s
    (Session.initial {} .empty).Leads s ∧ typesEqual 16 ⟨14⟩ ⟨15⟩ s = .ok true s ∧
      typeHash 16 ⟨14⟩ s = typeHash 16 ⟨15⟩ s ∧
      (later.store.type? ⟨14⟩).map TypeData.kind ≠ (s.store.type? ⟨14⟩).map TypeData.kind ∧
      typesEqual 16 ⟨14⟩ ⟨15⟩ later = .ok true later ∧
      perform 3 (.ask .isErroneous (.handle ⟨14⟩)) later =
        perform 3 (.ask .isErroneous (.handle ⟨15⟩)) later := by
  intro run array method s later
  have hs : (Session.initial {} .empty).Leads s :=
    .after_step _ _ (.after_step _ _ (.after_step _ _ (.after_step _ _ (.refl _) rfl) rfl) rfl) rfl
  have hequal : typesEqual 16 ⟨14⟩ ⟨15⟩ s = .ok true s := rfl
  have hlater : s.store.Later later.store := perform_later 3 _ s
  have ha : s.store.Has ⟨14⟩ := by decide
  have hb : s.store.Has ⟨15⟩ := by decide
  have hsize : s.store.types.size ≤ 16 := by decide
  obtain ⟨-, -, -, -, -, hsame, hkept⟩ := structural_keys_lawful hs.consistent.grounded hsize
  obtain ⟨hhash, hanswers⟩ := hsame ⟨14⟩ ⟨15⟩ ha hb hequal
  refine ⟨hs, hequal, hhash, by decide +kernel, ?_, ?_⟩
  · exact (hkept later hlater ⟨14⟩ ⟨15⟩ ha hb).1 true hequal
  · exact hanswers later hlater .isErroneous (by decide) 3

end RegionTypes

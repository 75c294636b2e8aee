import RegionTypes.Proofs.Store.Identity

/-!
# Where variables occur

A variable may stand in many places of a type, each under quantifiers of its own.  Substitution and
the list of free variables both look at the quantifiers over a place to see whether the variable there
is free.  Substitution goes by variables (`Store.sameVariable`), the list of free variables by handles.

* `Position`, `Tree.positions` — the places of a tree where variables stand, and what is quantified
  over them.
* `Tree.positions_subst` — **substitution works place by place**.
* `Store.OccursIn` — a variable occurs in a type under given quantifiers; the trees that types read as
  have exactly these places (`Store.ReadsIn.mem_positions_iff`).
* `Store.ListedIn` — a variable occurs outside the quantifiers over its handle.
* `collectFree_returns` — **the list of free variables has exactly the listed ones**, by induction on
  the depth; `collectFree_nodup` — each of them once.
-/

namespace RegionTypes

open Run

/-! ### Places in a tree -/

/-- A place where a variable stands, with the variables quantified over it from the outside in. -/
structure Position where
  var : Occurrence
  under : List Occurrence

/-- A place seen from outside a quantifier over the given variables. -/
def Position.beneath (vars : List Occurrence) (p : Position) : Position := ⟨p.var, vars ++ p.under⟩

@[simp]
theorem Position.beneath_nil : Position.beneath [] = id := rfl

mutual

/-- The places where variables stand in a tree. -/
def Tree.positions : Tree → List Position
  | leaf .. => []
  | var ty data => [⟨⟨ty, data.symbol⟩, []⟩]
  | classType _ outer args _ _ _ => outer.positions ++ Tree.positionsAll args
  | array elem _ _ => elem.positions
  | method params result thrown _ =>
    Tree.positionsAll params ++ (result.positions ++ Tree.positionsAll thrown)
  | forAll _ vars _ _ body => body.positions.map (Position.beneath vars)
  | wildcard bound _ _ => bound.positions

/-- The places where variables stand in the trees of a list. -/
def Tree.positionsAll : List Tree → List Position
  | [] => []
  | t :: rest => t.positions ++ Tree.positionsAll rest

end

/-- What takes a place under a substitution: the places of the image put there, under the same
quantifiers, or the place itself. -/
def Position.subst (ρ : List Replacement) (p : Position) : List Position :=
  match Replacement.find? (Replacement.outside ρ p.under) p.var with
  | some r => r.image.positions.map (Position.beneath p.under)
  | none => [p]

theorem Replacement.outside_append (ρ : List Replacement) (vs ws : List Occurrence) :
    outside ρ (vs ++ ws) = outside (outside ρ vs) ws := by
  simp [outside, List.filter_filter, List.any_append, Bool.and_comm]

theorem Replacement.outside_nil (ρ : List Replacement) : outside ρ [] = ρ :=
  List.filter_eq_self.2 fun _ _ => rfl

/-- Under a quantifier a substitution does what the one without the quantified variables does
there. -/
theorem Position.subst_beneath (ρ : List Replacement) (vars : List Occurrence) (p : Position) :
    (p.beneath vars).subst ρ = (p.subst (Replacement.outside ρ vars)).map (Position.beneath vars) := by
  simp only [subst, beneath, Replacement.outside_append]
  cases Replacement.find? (Replacement.outside (Replacement.outside ρ vars) p.under) p.var with
  | none => rfl
  | some => simp [beneath, Function.comp_def]

namespace Tree

mutual

/-- **Substitution works place by place.** -/
theorem positions_subst : ∀ (t : Tree) (ρ : List Replacement),
    (t.subst ρ).positions = t.positions.flatMap (Position.subst ρ)
  | leaf .., _ => rfl
  | var ty data, ρ => by
    rw [subst, positions, List.flatMap_singleton, Position.subst, Replacement.outside_nil]
    cases Replacement.find? ρ ⟨ty, data.symbol⟩ with
    | none => rfl
    | some r => exact (List.map_id r.image.positions).symm
  | classType _ outer args _ _ _, ρ => by
    rw [subst, positions, positions, List.flatMap_append, outer.positions_subst ρ,
      positionsAll_subst args ρ]
  | array elem _ _, ρ => by
    rw [subst, positions, ← elem.positions_subst ρ]
    split <;> rfl
  | method params result thrown _, ρ => by
    rw [subst, positions, positions, List.flatMap_append, List.flatMap_append,
      positionsAll_subst params ρ, result.positions_subst ρ, positionsAll_subst thrown ρ]
  | forAll _ vars _ _ body, ρ => by
    rw [subst, positions, positions, body.positions_subst, List.map_flatMap, List.flatMap_map]
    exact congrArg (List.flatMap · body.positions)
      (funext fun p => (Position.subst_beneath ρ vars p).symm)
  | wildcard bound _ _, ρ => bound.positions_subst ρ

theorem positionsAll_subst : ∀ (ts : List Tree) (ρ : List Replacement),
    positionsAll (substAll ts ρ) = (positionsAll ts).flatMap (Position.subst ρ)
  | [], _ => rfl
  | t :: rest, ρ => by
    rw [substAll, positionsAll, positionsAll, List.flatMap_append, t.positions_subst ρ,
      positionsAll_subst rest ρ]

end

mutual

/-- The classes of a substituted tree are classes of the tree or of an image. -/
theorem classes_subst {ok : SymbolId → Prop} : ∀ (t : Tree) {ρ : List Replacement},
    (∀ r ∈ ρ, ∀ sym ∈ r.image.classes, ok sym) → (∀ sym ∈ t.classes, ok sym) →
      ∀ sym ∈ (t.subst ρ).classes, ok sym
  | leaf .., _, _, h => h
  | var ty data, ρ, hρ, h => by
    rw [subst]
    cases hfind : Replacement.find? ρ ⟨ty, data.symbol⟩ with
    | none => exact h
    | some r => exact hρ r (List.mem_of_find?_eq_some hfind)
  | classType _ outer args _ _ _, ρ, hρ, h => by
    rw [classes] at h
    obtain ⟨hhead, hargs⟩ := List.forall_mem_append.1 h
    obtain ⟨hhead, houter⟩ := List.forall_mem_append.1 hhead
    rw [subst, classes]
    exact List.forall_mem_append.2 ⟨List.forall_mem_append.2 ⟨hhead, outer.classes_subst hρ houter⟩,
      classesAll_subst args hρ hargs⟩
  | array elem _ _, ρ, hρ, h => by
    have helem := elem.classes_subst hρ h
    rw [subst]
    split
    · exact helem
    · exact helem
  | method params result thrown _, ρ, hρ, h => by
    rw [classes] at h
    obtain ⟨hhead, hthrown⟩ := List.forall_mem_append.1 h
    obtain ⟨hparams, hresult⟩ := List.forall_mem_append.1 hhead
    rw [subst, classes]
    exact List.forall_mem_append.2 ⟨List.forall_mem_append.2 ⟨classesAll_subst params hρ hparams,
      result.classes_subst hρ hresult⟩, classesAll_subst thrown hρ hthrown⟩
  | forAll _ _ _ _ body, ρ, hρ, h =>
    body.classes_subst (fun r hr => hρ r (List.mem_of_mem_filter hr)) h
  | wildcard bound _ _, ρ, hρ, h => bound.classes_subst hρ h

theorem classesAll_subst {ok : SymbolId → Prop} : ∀ (ts : List Tree) {ρ : List Replacement},
    (∀ r ∈ ρ, ∀ sym ∈ r.image.classes, ok sym) → (∀ sym ∈ classesAll ts, ok sym) →
      ∀ sym ∈ classesAll (substAll ts ρ), ok sym
  | [], _, _, h => h
  | t :: rest, ρ, hρ, h => by
    obtain ⟨hhead, htail⟩ := List.forall_mem_append.1 h
    exact List.forall_mem_append.2 ⟨t.classes_subst hρ hhead, classesAll_subst rest hρ htail⟩

end

/-- A variable stands in some place outside all quantifiers over its handle. -/
def Lists (t : Tree) (w : TypeId) : Prop :=
  ∃ p ∈ t.positions, p.var.ty = w ∧ ∀ b ∈ p.under, b.ty ≠ w

end Tree

/-! ### Places in a type -/

namespace Store

variable {s s' : Store} {ty v w c : TypeId} {above : List TypeId} {data : TypeData} {t : Tree}
  {n : Nat} {p : Position}

/-- The variable occurs in the type, where the given variables are quantified over it from the outside
in. -/
inductive OccursIn (s : Store) (v : TypeId) : List TypeId → TypeId → Prop
  | self (h : s.IsVariable v) : OccursIn s v [] v
  | component {ty c : TypeId} {data : TypeData} {above : List TypeId} (record : s.type? ty = some data)
      (hc : c ∈ data.kind.components) (occurs : OccursIn s v above c) :
      OccursIn s v (data.kind.binders ++ above) ty

/-- The variable occurs in the type outside all quantifiers over its handle. -/
def ListedIn (s : Store) (v ty : TypeId) : Prop := ∃ above, s.OccursIn v above ty ∧ v ∉ above

theorem occursIn_var_iff (record : s.type? ty = some data) (kind : data.kind.shape = .var) :
    s.OccursIn v above ty ↔ v = ty ∧ above = [] := by
  constructor
  · intro h
    cases h with
    | self => exact ⟨rfl, rfl⟩
    | component record' hc =>
      obtain rfl := Option.mem_unique record record'
      rw [Kind.components_of_shape (.inr kind)] at hc
      cases hc
  · rintro ⟨rfl, rfl⟩
    exact .self ⟨data, record, kind⟩

theorem occursIn_iff (record : s.type? ty = some data) (kind : data.kind.shape ≠ .var) :
    s.OccursIn v above ty ↔
      ∃ c ∈ data.kind.components, ∃ inner,
        s.OccursIn v inner c ∧ above = data.kind.binders ++ inner := by
  constructor
  · intro h
    cases h with
    | self hself =>
      obtain ⟨data', record', kind'⟩ := hself
      obtain rfl := Option.mem_unique record record'
      exact absurd kind' kind
    | component record' hc occurs =>
      obtain rfl := Option.mem_unique record record'
      exact ⟨_, hc, _, occurs, rfl⟩
  · rintro ⟨c, hc, inner, occurs, rfl⟩
    exact .component record hc occurs

theorem listedIn_var_iff (record : s.type? ty = some data) (kind : data.kind.shape = .var) :
    s.ListedIn v ty ↔ v = ty := by
  simp [ListedIn, occursIn_var_iff record kind]

/-- Below a type other than a variable, all that it does not bind itself is listed. -/
theorem listedIn_iff (record : s.type? ty = some data) (kind : data.kind.shape ≠ .var) :
    s.ListedIn v ty ↔ v ∉ data.kind.binders ∧ ∃ c ∈ data.kind.components, s.ListedIn v c := by
  constructor
  · rintro ⟨above, hoccurs, hv⟩
    obtain ⟨c, hc, inner, hinner, rfl⟩ := (occursIn_iff record kind).1 hoccurs
    rw [List.mem_append, not_or] at hv
    exact ⟨hv.1, c, hc, inner, hinner, hv.2⟩
  · rintro ⟨hv, c, hc, inner, hinner, hv'⟩
    refine ⟨_, .component record hc hinner, ?_⟩
    rw [List.mem_append, not_or]
    exact ⟨hv, hv'⟩

/-- A variable is free exactly if it occurs outside all quantifiers over the variable. -/
theorem freeIn_iff :
    s.FreeIn v ty ↔ ∃ above, s.OccursIn v above ty ∧ ∀ b ∈ above, s.sameVariable b v = false := by
  constructor
  · intro h
    induction h with
    | self h => exact ⟨[], .self h, by simp⟩
    | component record hc unbound _ ih =>
      obtain ⟨above, hoccurs, habove⟩ := ih
      exact ⟨_, .component record hc hoccurs, List.forall_mem_append.2 ⟨unbound, habove⟩⟩
  · rintro ⟨above, hoccurs, habove⟩
    induction hoccurs with
    | self h => exact .self h
    | component record hc _ ih =>
      obtain ⟨hbinders, habove⟩ := List.forall_mem_append.1 habove
      exact .component record hc hbinders (ih habove)

theorem OccursIn.isVariable (h : s.OccursIn v above ty) : s.IsVariable v := by
  induction h with
  | self h => exact h
  | component _ _ _ ih => exact ih

theorem OccursIn.has_above (hwf : s.WellFormed) (h : s.OccursIn v above ty) : ∀ b ∈ above, s.Has b := by
  induction h with
  | self => simp
  | component record _ _ ih =>
    exact List.forall_mem_append.2 ⟨(hwf _ (mem_types record)).binders, ih⟩

/-! ### The places of the tree that a type reads as -/

/-- The place where a variable stands under the given quantifiers. -/
def position (s : Store) (v : TypeId) (above : List TypeId) : Position :=
  ⟨s.occurrence v, above.map s.occurrence⟩

/-- The place is one where a variable occurs in the type. -/
def HasPosition (s : Store) (ty : TypeId) (p : Position) : Prop :=
  ∃ v above, s.OccursIn v above ty ∧ p = s.position v above

theorem hasPosition_iff (record : s.type? ty = some data) (kind : data.kind.shape ≠ .var) :
    s.HasPosition ty p ↔ ∃ c ∈ data.kind.components, ∃ q, s.HasPosition c q ∧
      p = q.beneath (data.kind.binders.map s.occurrence) := by
  constructor
  · rintro ⟨v, above, hoccurs, rfl⟩
    obtain ⟨c, hc, inner, hinner, rfl⟩ := (occursIn_iff record kind).1 hoccurs
    refine ⟨c, hc, _, ⟨v, inner, hinner, rfl⟩, ?_⟩
    rw [position, List.map_append]
    rfl
  · rintro ⟨c, hc, _, ⟨v, inner, hinner, rfl⟩, rfl⟩
    refine ⟨v, _, .component record hc hinner, ?_⟩
    rw [position, position, List.map_append]
    rfl

/-- A type that binds nothing has the places of its components. -/
theorem hasPosition_iff_of_binders (record : s.type? ty = some data) (kind : data.kind.shape ≠ .var)
    (binds : data.kind.binders = []) :
    s.HasPosition ty p ↔ ∃ c ∈ data.kind.components, s.HasPosition c p := by
  simp [hasPosition_iff record kind, binds]

theorem mem_positionsAll_iff {types : List TypeId} {ts : List Tree}
    (h : List.Forall₂ (s.ReadsIn n) types ts)
    (ih : ∀ c t, s.ReadsIn n c t → (p ∈ t.positions ↔ s.HasPosition c p)) :
    p ∈ Tree.positionsAll ts ↔ ∃ c ∈ types, s.HasPosition c p := by
  induction h with
  | nil => simp [Tree.positionsAll]
  | cons hread _ ih' =>
    rw [Tree.positionsAll, List.mem_append, ih _ _ hread, ih', List.exists_mem_cons_iff]

/-- **The places of a tree are those of the type that reads as it.** -/
theorem ReadsIn.mem_positions_iff (n : Nat) : ∀ {ty : TypeId} {t : Tree} {p : Position},
    s.ReadsIn n ty t → (p ∈ t.positions ↔ s.HasPosition ty p) := by
  induction n with
  | zero => exact fun h => h.elim
  | succ n ih =>
    intro ty t p h
    have hlist {types : List TypeId} {ts : List Tree} (hread : List.Forall₂ (s.ReadsIn n) types ts) :
        p ∈ Tree.positionsAll ts ↔ ∃ c ∈ types, s.HasPosition c p :=
      mem_positionsAll_iff hread fun _ _ => ih
    cases h with
    | leaf record kind =>
      rw [hasPosition_iff record (by simp [kind]), Kind.components_of_shape (.inl kind)]
      simp [Tree.positions]
    | @var data record kind =>
      have hty : s.position ty [] = ⟨⟨ty, data.symbol⟩, []⟩ := by
        rw [position, occurrence, record]
        rfl
      simp [HasPosition, occursIn_var_iff record kind, Tree.positions, hty]
    | classType record kind encloses takes =>
      rw [hasPosition_iff_of_binders record (by simp [kind, Kind.shape]) (by rw [kind]; rfl), kind,
        Tree.positions, List.mem_append, ih encloses, hlist takes]
      simp only [Kind.components, List.exists_mem_cons_iff]
    | array record holds =>
      rw [hasPosition_iff_of_binders record (by simp [Kind.shape]) rfl, Tree.positions, ih holds]
      simp [Kind.components]
    | method record takes gives throws =>
      rw [hasPosition_iff_of_binders record (by simp [Kind.shape]) rfl, Tree.positions,
        List.mem_append, List.mem_append, hlist takes, ih gives, hlist throws]
      simp only [Kind.components, List.mem_append, List.mem_cons, or_and_right, exists_or,
        exists_eq_left]
    | @forAll symbol info vars body record binds holds =>
      rw [hasPosition_iff record (by simp [Kind.shape]), Tree.positions, List.mem_map,
        eq_map_occurrence binds]
      simp only [Kind.components, Kind.binders, List.mem_singleton, exists_eq_left, ih holds,
        eq_comm]
    | wildcard record holds =>
      rw [hasPosition_iff_of_binders record (by simp [Kind.shape]) rfl, Tree.positions, ih holds]
      simp [Kind.components]

theorem Reads.hasPosition_iff (h : s.Reads ty t) : p ∈ t.positions ↔ s.HasPosition ty p := by
  obtain ⟨n, hn⟩ := h
  exact hn.mem_positions_iff n

theorem Reads.listedIn_iff (h : s.Reads ty t) : s.ListedIn w ty ↔ t.Lists w := by
  constructor
  · rintro ⟨above, hoccurs, hw⟩
    refine ⟨s.position w above, h.hasPosition_iff.2 ⟨w, above, hoccurs, rfl⟩, rfl, ?_⟩
    rintro _ hb rfl
    obtain ⟨b, hb, heq⟩ := List.mem_map.1 hb
    exact hw (heq ▸ hb)
  · rintro ⟨p, hp, rfl, hunder⟩
    obtain ⟨v, above, hoccurs, rfl⟩ := h.hasPosition_iff.1 hp
    exact ⟨above, hoccurs, fun hv => hunder _ (List.mem_map_of_mem hv) rfl⟩

/-- What is listed in a type does not change. -/
theorem Reads.listedIn_grows (hgrows : s.Grows s') (h : s.Reads ty t) :
    s'.ListedIn w ty ↔ s.ListedIn w ty := by
  rw [h.listedIn_iff, (h.grows hgrows).listedIn_iff]

end Store

/-! ### The list of free variables -/

section

variable {s s' s'' : Session} {ty : TypeId} {bound found free free' types types' : List TypeId}
  {data : TypeData} {n depth : Nat}
  {start : Completer → Loader}

/-- What going through types adds to the variables found so far: those listed in one of the types that
are not bound.  The store at most settles type arguments. -/
structure Collects (s : Session) (bound found types free : List TypeId) (s' : Session) : Prop where
  settles : s.store.Settles s'.store
  mem_iff : ∀ w, w ∈ free ↔ w ∈ found ∨ w ∉ bound ∧ ∃ c ∈ types, s.store.ListedIn w c

theorem Store.Ready.listedIn_grows {s s' : Store} {w : TypeId} (hgrows : s.Grows s')
    (h : s.Ready n ty) : s'.ListedIn w ty ↔ s.ListedIn w ty := by
  obtain ⟨t, hread, -⟩ := h
  exact Store.Reads.listedIn_grows hgrows ⟨n, hread⟩

theorem Collects.append (h : Collects s bound found types free s')
    (hready : ∀ c ∈ types', s.store.Ready n c) (h' : Collects s' bound free types' free' s'') :
    Collects s bound found (types ++ types') free' s'' where
  settles := trans_of Store.Settles h.settles h'.settles
  mem_iff w := by
    have hlater : (∃ c ∈ types', s'.store.ListedIn w c) ↔ ∃ c ∈ types', s.store.ListedIn w c :=
      exists_congr fun c => and_congr_right fun hc =>
        (hready c hc).listedIn_grows h.settles.toGrows
    rw [h'.mem_iff, h.mem_iff, hlater, or_assoc, ← and_or_left]
    simp only [List.mem_append, or_and_right, exists_or]

theorem collectEach_returns {f : List TypeId → TypeId → Run (List TypeId)}
    (hf : ∀ {r : Session} {found : List TypeId}, ∀ c ∈ types, s.store.Grows r.store →
      (f found c).Returns r (Collects r bound found [c]))
    (hready : ∀ c ∈ types, s.store.Ready n c) :
    (types.foldlM f found).Returns s (Collects s bound found types) := by
  induction types generalizing s found with
  | nil => exact returns_pure ⟨.refl _, by simp⟩
  | cons c types ih =>
    obtain ⟨-, htail⟩ := List.forall_mem_cons.1 hready
    rw [List.foldlM_cons]
    refine .bind (hf c List.mem_cons_self (.refl _)) fun free r hfree => ?_
    have hgrows := hfree.settles.toGrows
    refine (ih (fun a ha hr => hf a (List.mem_cons_of_mem c ha) (hgrows.trans hr))
      fun a ha => (htail a ha).grows hgrows).imp fun _ _ h => hfree.append htail h

theorem collects_nothing (h : s.store.Settles s'.store) : Collects s bound found [] found s' :=
  ⟨h, by simp⟩

/-- What is collected from the components of a type, apart from what the type binds, is collected from
the type. -/
theorem Collects.of_components {bound' : List TypeId} (record : s.store.type? ty = some data)
    (kind : data.kind.shape ≠ .var) (hbound : bound ++ data.kind.binders = bound')
    (h : Collects s bound' found data.kind.components free s') :
    Collects s bound found [ty] free s' where
  settles := h.settles
  mem_iff w := by
    rw [h.mem_iff, ← hbound]
    simp only [List.mem_singleton, exists_eq_left, Store.listedIn_iff record kind, List.mem_append,
      not_or, and_assoc]

/-- A variable is added to those found unless it is bound or has been found. -/
theorem collects_variable (record : s.store.type? ty = some data) (kind : data.kind.shape = .var) :
    Collects s bound found [ty]
      (if bound.contains ty || found.contains ty then found else found ++ [ty]) s where
  settles := .refl _
  mem_iff w := by
    simp only [List.mem_singleton, exists_eq_left, Store.listedIn_var_iff record kind,
      Bool.or_eq_true, List.contains_iff_mem]
    split
    · next h =>
      refine ⟨.inl, ?_⟩
      rintro (hw | ⟨hbound, rfl⟩)
      · exact hw
      · exact h.resolve_left hbound
    · next h =>
      rw [not_or] at h
      rw [List.mem_append, List.mem_singleton]
      refine or_congr_right ⟨?_, And.right⟩
      rintro rfl
      exact ⟨h.1, rfl⟩

/-- **The search finds the listed variables**, by induction on the depth of the type. -/
theorem collectFree_returns (n : Nat) : ∀ {depth : Nat} {bound found : List TypeId} {s : Session}
    {ty : TypeId}, n ≤ depth → s.store.Ready n ty →
      (collectFree (completeSymbol start) depth bound found ty).Returns s
        (Collects s bound found [ty]) := by
  induction n with
  | zero =>
    rintro _ _ _ _ _ _ ⟨_, hread, -⟩
    exact hread.elim
  | succ n ih =>
    intro depth bound found s ty hdepth hty
    obtain ⟨d, rfl⟩ : ∃ d, depth = d + 1 := ⟨depth - 1, by omega⟩
    have hsearch {r : Session} {bound found : List TypeId} {c : TypeId} (hc : s.store.Ready n c)
        (hr : s.store.Grows r.store) : (collectFree (completeSymbol start) d bound found c).Returns r
          (Collects r bound found [c]) :=
      ih (Nat.le_of_succ_le_succ hdepth) (hc.grows hr)
    have heach {r : Session} {bound found types : List TypeId} (hr : s.store.Grows r.store)
        (htypes : ∀ c ∈ types, s.store.Ready n c) :
        (types.foldlM (collectFree (completeSymbol start) d bound) found).Returns r
          (Collects r bound found types) :=
      collectEach_returns (fun c hc hr' => hsearch (htypes c hc) (hr.trans hr'))
        fun c hc => (htypes c hc).grows hr
    obtain ⟨data, record⟩ : ∃ data, s.store.type? ty = some data := by
      obtain ⟨t, hread, -⟩ := hty
      exact Store.has_iff.1 hread.has
    have hparts := hty.component record rfl
    refine .step (kindOf_run record) ?_
    obtain ⟨symbol, erased, literal, kind⟩ := data
    cases kind with
    | classType =>
      obtain ⟨houter, hargs⟩ := List.forall_mem_cons.1 hparts
      refine .bind (hsearch houter (.refl _)) fun free r hfree => ?_
      have hgrows := hfree.settles.toGrows
      obtain ⟨args, hsame, record'⟩ := hgrows.classRecord record rfl
      have hloaded := (hty.loaded record rfl).grows hgrows
      refine .bind (typeArguments_returns start d record' rfl hloaded) fun answer r' hanswer => ?_
      obtain ⟨rfl, hsettles⟩ := hanswer
      simp only [hsame]
      refine (heach (hgrows.trans hsettles.toGrows) hargs).imp fun free' r'' hrest => ?_
      have hrest := (collects_nothing hsettles).append (fun c hc => (hargs c hc).grows hgrows) hrest
      exact .of_components record (by simp [Kind.shape]) (List.append_nil _) (hfree.append hargs hrest)
    | wildcard =>
      obtain ⟨hbound, -⟩ := List.forall_mem_cons.1 hparts
      exact (hsearch hbound (.refl _)).imp fun _ _ =>
        .of_components record (by simp [Kind.shape]) (List.append_nil _)
    | array =>
      obtain ⟨helem, -⟩ := List.forall_mem_cons.1 hparts
      exact (hsearch helem (.refl _)).imp fun _ _ =>
        .of_components record (by simp [Kind.shape]) (List.append_nil _)
    | method =>
      obtain ⟨hparams, hothers⟩ := List.forall_mem_append.1 hparts
      obtain ⟨hresult, hthrown⟩ := List.forall_mem_cons.1 hothers
      refine .bind (heach (.refl _) hparams) fun free r hfree => ?_
      have hgrows := hfree.settles.toGrows
      refine .bind (hsearch hresult hgrows) fun free' r' hfree' => ?_
      have hgrows' := hgrows.trans hfree'.settles.toGrows
      refine .step (thrownTypes_run (hgrows'.record record (by simp [Kind.shape])) rfl) ?_
      refine (heach hgrows' hthrown).imp fun free'' r'' hfree'' => ?_
      have hrest := hfree'.append (fun c hc => (hthrown c hc).grows hgrows) hfree''
      exact .of_components record (by simp [Kind.shape]) (List.append_nil _)
        (hfree.append hothers hrest)
    | forAll =>
      obtain ⟨hbody, -⟩ := List.forall_mem_cons.1 hparts
      exact (hsearch hbody (.refl _)).imp fun _ _ => .of_components record (by simp [Kind.shape]) rfl
    | typeVar | captured => exact returns_pure (collects_variable record rfl)
    | _ =>
      exact returns_pure (.of_components record (by simp [Kind.shape]) (List.append_nil _)
        (collects_nothing (.refl _)))

/-- **The list of free variables.** -/
theorem freeTypeVars_returns (hdepth : n ≤ depth) (hty : s.store.Ready n ty) :
    (freeTypeVars (completeSymbol start) depth ty).Returns s fun free s' =>
      s.store.Settles s'.store ∧ ∀ w, w ∈ free ↔ s.store.ListedIn w ty := by
  refine (collectFree_returns n hdepth hty).imp fun free s' h => ⟨h.settles, fun w => ?_⟩
  simp [h.mem_iff]

theorem of_foldlM {α β : Type} {P : β → Prop} {f : β → α → Run β} {l : List α} {b b' : β}
    (hf : ∀ {a b b' s s'}, f b a s = .ok b' s' → P b → P b') (h : l.foldlM f b s = .ok b' s')
    (hb : P b) : P b' := by
  induction l generalizing b s with
  | nil =>
    obtain ⟨rfl, -⟩ := EStateM.Result.ok.inj h
    exact hb
  | cons a l ih =>
    rw [List.foldlM_cons] at h
    obtain ⟨_, _, hhead, htail⟩ := exists_of_bind h
    exact ih htail (hf hhead hb)

theorem nodup_of_variable (h : found.Nodup) :
    (if bound.contains ty || found.contains ty then found else found ++ [ty]).Nodup := by
  split
  · exact h
  · next hnot =>
    rw [Bool.or_eq_true, not_or, List.contains_iff_mem, List.contains_iff_mem] at hnot
    rw [← List.concat_eq_append]
    exact h.concat hnot.2

/-- **No variable is found twice**, whatever is asked. -/
theorem collectFree_nodup (load : Loader) (depth : Nat) :
    ∀ {bound found free : List TypeId} {ty : TypeId} {s s' : Session},
      collectFree load depth bound found ty s = .ok free s' → found.Nodup → free.Nodup := by
  induction depth with
  | zero =>
    intro _ _ _ _ _ _ h
    cases h
  | succ depth ih =>
    intro bound found free ty s s' h hfound
    rw [collectFree] at h
    obtain ⟨kind, _, -, h⟩ := exists_of_bind h
    cases kind with
    | classType =>
      obtain ⟨_, _, houter, h⟩ := exists_of_bind h
      obtain ⟨_, _, -, h⟩ := exists_of_bind h
      exact of_foldlM ih h (ih houter hfound)
    | method =>
      obtain ⟨_, _, hparams, h⟩ := exists_of_bind h
      obtain ⟨_, _, hresult, h⟩ := exists_of_bind h
      obtain ⟨_, _, -, h⟩ := exists_of_bind h
      exact of_foldlM ih h (ih hresult (of_foldlM ih hparams hfound))
    | wildcard | array | forAll => exact ih h hfound
    | typeVar | captured =>
      obtain ⟨rfl, -⟩ := EStateM.Result.ok.inj h
      exact nodup_of_variable hfound
    | _ =>
      obtain ⟨rfl, -⟩ := EStateM.Result.ok.inj h
      exact hfound

end

end RegionTypes

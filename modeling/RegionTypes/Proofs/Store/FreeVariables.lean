import RegionTypes.Proofs.Store.Replacement

/-!
# Free variables

A variable occurs free in a type if one can go down to it through components without passing a
quantifier over it.  Two handles with the same symbol are the same variable, for quantifiers and for
substitutions alike.

* `Store.sameVariable` — the same handle or the same symbol; an equivalence.
* `Store.FreeIn` — **a variable occurs free in a type**.
* `Store.pairFor?` — the first pair of a substitution for a variable.  Quantifiers do not change what
  is found for a free variable (`Store.pairFor?_outside`).
* `Store.Fixes` — all pairs for free variables replace the variable by itself.
* `Store.ReadsIn.changes_eq_false_iff` — **a tree stays as it is exactly if its free variables do**.
-/

namespace RegionTypes

namespace Store

variable {s : Store} {pairs : List (TypeId × TypeId)} {ρ : List Replacement} {a b c ty v : TypeId}
  {data : TypeData} {vars : List TypeId} {vs : List Occurrence}

/-! ### The same variable -/

/-- Whether two handles stand for one variable. -/
def sameVariable (s : Store) (a b : TypeId) : Bool := (s.occurrence a).standsFor (s.occurrence b)

theorem sameVariable_iff :
    s.sameVariable a b = true ↔
      a = b ∨ ∃ sym, (s.occurrence a).symbol = some sym ∧ (s.occurrence b).symbol = some sym := by
  rw [sameVariable, Occurrence.standsFor, Bool.or_eq_true, Bool.and_eq_true, decide_eq_true_eq,
    decide_eq_true_eq, Option.isSome_iff_exists]
  refine or_congr Iff.rfl ⟨?_, ?_⟩
  · rintro ⟨⟨sym, hb⟩, ha⟩
    exact ⟨sym, ha.trans hb, hb⟩
  · rintro ⟨sym, ha, hb⟩
    exact ⟨⟨sym, hb⟩, ha.trans hb.symm⟩

theorem sameVariable_symm (h : s.sameVariable a b = true) : s.sameVariable b a = true := by
  rw [sameVariable_iff] at h ⊢
  rcases h with rfl | ⟨sym, ha, hb⟩
  · exact .inl rfl
  · exact .inr ⟨sym, hb, ha⟩

theorem sameVariable_trans (h : s.sameVariable a b = true) (h' : s.sameVariable b c = true) :
    s.sameVariable a c = true := by
  rw [sameVariable_iff] at h h' ⊢
  rcases h with rfl | ⟨sym, ha, hb⟩
  · exact h'
  · rcases h' with rfl | ⟨sym', hb', hc⟩
    · exact .inr ⟨sym, ha, hb⟩
    · obtain rfl := Option.mem_unique hb hb'
      exact .inr ⟨sym, ha, hc⟩

/-! ### Free occurrences -/

/-- The type is a type variable, captured or not. -/
def IsVariable (s : Store) (ty : TypeId) : Prop :=
  ∃ data, s.type? ty = some data ∧ data.kind.shape = .var

/-- The variable occurs free in a type: the type is the variable, or a component of the type has it
free and the type does not bind it. -/
inductive FreeIn (s : Store) (v : TypeId) : TypeId → Prop
  | self (h : s.IsVariable v) : FreeIn s v v
  | component {ty c : TypeId} {data : TypeData} (record : s.type? ty = some data)
      (hc : c ∈ data.kind.components) (unbound : ∀ b ∈ data.kind.binders, s.sameVariable b v = false)
      (free : FreeIn s v c) : FreeIn s v ty

/-- The first pair for a variable. -/
def pairFor? (s : Store) (pairs : List (TypeId × TypeId)) (v : TypeId) : Option (TypeId × TypeId) :=
  pairs.find? fun p => s.sameVariable p.1 v

/-- The pairs that a quantifier over the given variables leaves in force. -/
def outside (s : Store) (pairs : List (TypeId × TypeId)) (vars : List TypeId) :
    List (TypeId × TypeId) :=
  pairs.filter fun p => !vars.any fun b => s.sameVariable p.1 b

/-- Every free variable of the type for which there is a pair is replaced by itself. -/
def Fixes (s : Store) (pairs : List (TypeId × TypeId)) (ty : TypeId) : Prop :=
  ∀ v, s.FreeIn v ty → ∀ p, s.pairFor? pairs v = some p → p.2 = v

theorem outside_nil (s : Store) (pairs : List (TypeId × TypeId)) : s.outside pairs [] = pairs :=
  List.filter_eq_self.2 fun _ _ => rfl

/-- Under a quantifier, nothing is found for its variables, and for all others what was found
before. -/
theorem pairFor?_outside (s : Store) (pairs : List (TypeId × TypeId)) (vars : List TypeId)
    (v : TypeId) :
    s.pairFor? (s.outside pairs vars) v =
      if ∃ b ∈ vars, s.sameVariable b v = true then none else s.pairFor? pairs v := by
  rw [pairFor?, outside, List.find?_filter]
  simp only [Bool.not_eq_true', List.any_eq_false]
  split
  · next hbound =>
    obtain ⟨b, hb, hsame⟩ := hbound
    refine List.find?_eq_none.2 fun p _ hp => ?_
    obtain ⟨hunbound, hmatch⟩ := of_decide_eq_true hp
    exact hunbound b hb (sameVariable_trans hmatch (sameVariable_symm hsame))
  · next hfree =>
    refine congrArg (List.find? · pairs) (funext fun p => ?_)
    rw [Bool.eq_iff_iff, decide_eq_true_eq]
    refine ⟨And.right, fun hmatch => ⟨fun b hb hpb => ?_, hmatch⟩⟩
    exact hfree ⟨b, hb, sameVariable_trans (sameVariable_symm hpb) hmatch⟩

/-- Of a variable only the variable itself is free. -/
theorem fixes_var_iff (record : s.type? ty = some data) (kind : data.kind.shape = .var) :
    s.Fixes pairs ty ↔ ∀ p, s.pairFor? pairs ty = some p → p.2 = ty := by
  constructor
  · exact fun h p hp => h ty (.self ⟨data, record, kind⟩) p hp
  · intro h v hfree p hp
    cases hfree with
    | self => exact h p hp
    | component record' hc =>
      obtain rfl := Option.mem_unique record record'
      rw [Kind.components_of_shape (.inr kind)] at hc
      cases hc

/-- What is free in a type other than a variable is free in its components and not bound by it. -/
theorem fixes_iff (record : s.type? ty = some data) (kind : data.kind.shape ≠ .var) :
    s.Fixes pairs ty ↔ ∀ c ∈ data.kind.components, s.Fixes (s.outside pairs data.kind.binders) c := by
  constructor
  · intro h c hc v hfree p hp
    rw [pairFor?_outside] at hp
    split at hp
    · cases hp
    · next hunbound =>
      refine h v (.component record hc (fun b hb => ?_) hfree) p hp
      exact Bool.eq_false_iff.2 fun hsame => hunbound ⟨b, hb, hsame⟩
  · intro h v hfree p hp
    cases hfree with
    | self hself =>
      obtain ⟨data', record', kind'⟩ := hself
      obtain rfl := Option.mem_unique record record'
      exact absurd kind' kind
    | component record' hc unbound free =>
      obtain rfl := Option.mem_unique record record'
      refine h _ hc v free p ?_
      rw [pairFor?_outside, if_neg ?_]
      · exact hp
      · rintro ⟨b, hb, hsame⟩
        exact Bool.false_ne_true ((unbound b hb).symm.trans hsame)

/-! ### Trees -/

theorem Describes.find? (h : s.Describes pairs ρ) (v : TypeId) :
    (Replacement.find? ρ (s.occurrence v)).map Replacement.target =
      (s.pairFor? pairs v).map Prod.snd := by
  induction h with
  | nil => rfl
  | @cons p r pairs ρ hpr _ ih =>
    obtain ⟨hsource, htarget, -⟩ := hpr
    rw [Replacement.find?, pairFor?, List.find?_cons, List.find?_cons, hsource.eq_occurrence]
    show (match s.sameVariable p.1 v with | true => some r | false => Replacement.find? ρ _).map _ =
      (match s.sameVariable p.1 v with | true => some p | false => s.pairFor? pairs v).map _
    cases s.sameVariable p.1 v with
    | true => rw [Option.map_some, Option.map_some, htarget]
    | false => exact ih

theorem eq_map_occurrence (h : List.Forall₂ s.Binds vars vs) : vs = vars.map s.occurrence := by
  induction h with
  | nil => rfl
  | cons hv _ ih => rw [List.map_cons, ih, hv.eq_occurrence]

theorem Describes.outside (hvs : List.Forall₂ s.Binds vars vs) (h : s.Describes pairs ρ) :
    s.Describes (s.outside pairs vars) (Replacement.outside ρ vs) := by
  refine List.rel_filter ?_ h
  rintro p r ⟨hsource, -⟩
  dsimp only
  rw [eq_map_occurrence hvs, hsource.eq_occurrence, List.any_map]
  exact Iff.rfl

theorem changesAny_eq_false_iff {n : Nat} {types : List TypeId} {ts : List Tree}
    (h : List.Forall₂ (s.ReadsIn n) types ts)
    (ih : ∀ c t, s.ReadsIn n c t → (t.changes ρ = false ↔ s.Fixes pairs c)) :
    Tree.changesAny ts ρ = false ↔ ∀ c ∈ types, s.Fixes pairs c := by
  induction h with
  | nil => exact ⟨fun _ => nofun, fun _ => rfl⟩
  | cons hread _ ih' =>
    rw [Tree.changesAny, Bool.or_eq_false_iff, ih _ _ hread, ih', List.forall_mem_cons]

/-- **A tree stays as it is** exactly if each of its free variables is replaced by itself, if at all.
The induction is on the depth of the tree, for all substitutions: below a quantifier it is another
one. -/
theorem ReadsIn.changes_eq_false_iff (n : Nat) : ∀ {ty : TypeId} {t : Tree} {pairs ρ},
    s.ReadsIn n ty t → s.Describes pairs ρ → (t.changes ρ = false ↔ s.Fixes pairs ty) := by
  induction n with
  | zero => exact fun h _ => h.elim
  | succ n ih =>
    intro ty t pairs ρ h hdesc
    have hpart {c : TypeId} {u : Tree} (hread : s.ReadsIn n c u) :
        u.changes ρ = false ↔ s.Fixes pairs c := ih hread hdesc
    have hlist {types : List TypeId} {ts : List Tree} (hread : List.Forall₂ (s.ReadsIn n) types ts) :
        Tree.changesAny ts ρ = false ↔ ∀ c ∈ types, s.Fixes pairs c :=
      changesAny_eq_false_iff hread fun _ _ => hpart
    cases h with
    | leaf record kind =>
      rw [fixes_iff record (by simp [kind]), Kind.components_of_shape (.inl kind)]
      exact iff_of_true rfl (List.forall_mem_nil _)
    | @var data record kind =>
      have hfind := hdesc.find? ty
      have hty : s.occurrence ty = ⟨ty, data.symbol⟩ := by rw [occurrence, record]; rfl
      rw [fixes_var_iff record kind, Tree.changes, ← hty]
      cases hpair : s.pairFor? pairs ty with
      | none =>
        rw [hpair, Option.map_none, Option.map_eq_none_iff] at hfind
        simp [hfind]
      | some =>
        rw [hpair, Option.map_some, Option.map_eq_some_iff] at hfind
        obtain ⟨r, hr, htarget⟩ := hfind
        simp [hr, htarget]
    | classType record kind encloses takes =>
      rw [fixes_iff record (by simp [kind, Kind.shape]), kind, Tree.changes, Bool.or_eq_false_iff,
        hpart encloses, hlist takes]
      simp only [Kind.components, Kind.binders, outside_nil, List.forall_mem_cons]
    | array record holds =>
      rw [fixes_iff record (by simp [Kind.shape]), Tree.changes, hpart holds]
      simp only [Kind.components, Kind.binders, outside_nil, List.forall_mem_singleton]
    | method record takes gives throws =>
      rw [fixes_iff record (by simp [Kind.shape]), Tree.changes, Bool.or_eq_false_iff,
        Bool.or_eq_false_iff, hlist takes, hpart gives, hlist throws, and_assoc]
      simp only [Kind.components, Kind.binders, outside_nil, List.forall_mem_append,
        List.forall_mem_cons]
    | forAll record binds holds =>
      rw [fixes_iff record (by simp [Kind.shape]), Tree.changes, ih holds (hdesc.outside binds)]
      simp only [Kind.components, Kind.binders, List.forall_mem_singleton]
    | wildcard record holds =>
      rw [fixes_iff record (by simp [Kind.shape]), Tree.changes, hpart holds]
      simp only [Kind.components, Kind.binders, outside_nil, List.forall_mem_singleton]

end Store

end RegionTypes

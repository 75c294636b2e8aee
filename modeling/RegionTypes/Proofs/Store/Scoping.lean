import RegionTypes.Proofs.Store.Occurrences

/-!
# Free variables and substitution

What is free in a substituted type, place by place: a place where nothing is replaced keeps its
variable, and a place where something is put has what is free there.  In both cases what the
quantifiers over the place bind is not free.

* `Store.AtRest` — stores in which types can be gone through: well formed, without cycles, with nothing
  to load.
* `Store.Supplies` — what a substitution leaves or puts in a place.
* `Store.listedIn_image_iff`, `substitute_free` — **the free variables of a substituted type**.
* `free_variables_after_substitution` — where every variable has one handle and nothing is captured,
  these are the free variables that are not replaced, and those of what replaces the others.
* `substitution_against_free_variables` — a substitution changes a type only if the variable is listed
  as free.  The converse fails where a quantifier binds another handle of the variable
  (`listed_variable_not_replaced`).
* `substituted_variables_stay_free` — what is free in the replacement is free in the result, except
  below quantifiers over it, which capture it (`substitution_captures`).
-/

namespace RegionTypes

open Run

/-! ### Trees -/

namespace Tree

/-- What is listed in a substituted tree: what is listed in an image, or a variable that is not
replaced, unless a quantifier over the place binds it. -/
theorem lists_subst_iff {t : Tree} {ρ : List Replacement} {w : TypeId} :
    (t.subst ρ).Lists w ↔ ∃ p ∈ t.positions, (∀ b ∈ p.under, b.ty ≠ w) ∧
      (Replacement.find? (Replacement.outside ρ p.under) p.var = none ∧ p.var.ty = w ∨
        ∃ r, Replacement.find? (Replacement.outside ρ p.under) p.var = some r ∧ r.image.Lists w) := by
  have hplace (p : Position) : (∃ q ∈ p.subst ρ, q.var.ty = w ∧ ∀ b ∈ q.under, b.ty ≠ w) ↔
      (∀ b ∈ p.under, b.ty ≠ w) ∧
        (Replacement.find? (Replacement.outside ρ p.under) p.var = none ∧ p.var.ty = w ∨
          ∃ r, Replacement.find? (Replacement.outside ρ p.under) p.var = some r ∧
            r.image.Lists w) := by
    rw [Position.subst]
    cases Replacement.find? (Replacement.outside ρ p.under) p.var with
    | none => simp [and_comm]
    | some =>
      simp only [List.mem_map, exists_exists_and_eq_and, Position.beneath, List.forall_mem_append,
        Lists, reduceCtorEq, false_and, false_or, Option.some.injEq, exists_eq_left']
      constructor
      · rintro ⟨q, hq, hvar, hunder, hinner⟩
        exact ⟨hunder, q, hq, hvar, hinner⟩
      · rintro ⟨hunder, q, hq, hvar, hinner⟩
        exact ⟨q, hq, hvar, hunder, hinner⟩
  simp only [Lists, positions_subst, List.mem_flatMap]
  constructor
  · rintro ⟨q, ⟨p, hp, hq⟩, hw⟩
    exact ⟨p, hp, (hplace p).1 ⟨q, hq, hw⟩⟩
  · rintro ⟨p, hp, hw⟩
    obtain ⟨q, hq, hw⟩ := (hplace p).2 hw
    exact ⟨q, ⟨p, hp, hq⟩, hw⟩

end Tree

/-! ### Stores -/

namespace Store

variable {s s' : Store} {ty image x w : TypeId} {above : List TypeId} {t : Tree}
  {pairs : List (TypeId × TypeId)} {ρ : List Replacement}

/-- Types can be gone through without loading anything. -/
structure AtRest (s : Store) : Prop where
  wellFormed : s.WellFormed
  acyclic : s.Acyclic
  nonePending : ∀ ty, s.NonePending ty

theorem AtRest.loaded (h : s.AtRest) (hread : s.Reads ty t) : s.Loaded t.classes := by
  obtain ⟨n, hn⟩ := hread
  exact (h.nonePending ty).loaded h.wellFormed n ty t hn

theorem AtRest.ready (h : s.AtRest) (hty : s.Has ty) : s.Ready s.types.size ty := by
  obtain ⟨t, hread⟩ := h.wellFormed.exists_readsIn_size h.acyclic hty
  exact ⟨t, hread, h.loaded ⟨_, hread⟩⟩

/-- What the substitution leaves or puts in the place of a variable lists `w`: nothing is found for the
variable, which is `w`, or `w` is listed in what is found. -/
def Supplies (s : Store) (pairs : List (TypeId × TypeId)) (above : List TypeId) (x w : TypeId) : Prop :=
  s.pairFor? (s.outside pairs above) x = none ∧ x = w ∨
    ∃ p, s.pairFor? (s.outside pairs above) x = some p ∧ s.ListedIn w p.2

theorem binds_occurrence {b : TypeId} (hb : s.Has b) : s.Binds b (s.occurrence b) := by
  obtain ⟨data, hdata⟩ := has_iff.1 hb
  exact ⟨data, hdata, by rw [occurrence, hdata]; rfl⟩

theorem Describes.supplies_iff (h : s.Describes pairs ρ) (habove : ∀ b ∈ above, s.Has b) :
    s.Supplies pairs above x w ↔
      (Replacement.find? (Replacement.outside ρ (above.map s.occurrence)) (s.occurrence x) = none ∧
          x = w ∨
        ∃ r, Replacement.find? (Replacement.outside ρ (above.map s.occurrence)) (s.occurrence x) =
          some r ∧ r.image.Lists w) := by
  have hbinds : List.Forall₂ s.Binds above (above.map s.occurrence) :=
    List.forall₂_map_right_iff.2 (List.forall₂_same.2 fun b hb => binds_occurrence (habove b hb))
  have hinner := h.outside hbinds
  have hfind := hinner.find? x
  rw [Supplies]
  cases hpair : s.pairFor? (s.outside pairs above) x with
  | none =>
    rw [hpair, Option.map_none, Option.map_eq_none_iff] at hfind
    simp [hfind]
  | some p =>
    rw [hpair, Option.map_some, Option.map_eq_some_iff] at hfind
    obtain ⟨r, hr, htarget⟩ := hfind
    have hlists : s.ListedIn w p.2 ↔ r.image.Lists w :=
      htarget ▸ (hinner.reads (List.mem_of_find?_eq_some hr)).listedIn_iff
    simp [hr, hlists]

/-- **The free variables of a substituted type**, place by place. -/
theorem listedIn_image_iff (hwf : s.WellFormed) (hread : s.Reads ty t) (hdesc : s.Describes pairs ρ)
    (himage : s'.Reads image (t.subst ρ)) :
    s'.ListedIn w image ↔
      ∃ x above, s.OccursIn x above ty ∧ w ∉ above ∧ s.Supplies pairs above x w := by
  rw [himage.listedIn_iff, Tree.lists_subst_iff]
  constructor
  · rintro ⟨p, hp, hunder, hplace⟩
    obtain ⟨x, above, hoccurs, rfl⟩ := hread.hasPosition_iff.1 hp
    refine ⟨x, above, hoccurs, fun hw => hunder _ (List.mem_map_of_mem hw) rfl, ?_⟩
    exact (hdesc.supplies_iff (hoccurs.has_above hwf)).2 hplace
  · rintro ⟨x, above, hoccurs, hw, hplace⟩
    refine ⟨s.position x above, hread.hasPosition_iff.2 ⟨x, above, hoccurs, rfl⟩, ?_, ?_⟩
    · intro _ hb heq
      obtain ⟨b, hmem, rfl⟩ := List.mem_map.1 hb
      exact hw (heq ▸ hmem)
    · exact (hdesc.supplies_iff (hoccurs.has_above hwf)).1 hplace

end Store

section

variable {s : Session} {ty : TypeId} {pairs : List (TypeId × TypeId)} {depth : Nat}
  {start : Completer → Loader}

theorem Store.AtRest.freeTypeVars_returns (h : s.store.AtRest) (hty : s.store.Has ty)
    (hdepth : s.store.types.size ≤ depth) :
    (freeTypeVars (completeSymbol start) depth ty).Returns s fun free _ =>
      ∀ w, w ∈ free ↔ s.store.ListedIn w ty :=
  (RegionTypes.freeTypeVars_returns hdepth (h.ready hty)).imp fun _ _ hfree => hfree.2

/-- The list of free variables has a variable exactly if that is listed. -/
theorem Store.AtRest.returns_mem_iff (h : s.store.AtRest) (hty : s.store.Has ty)
    (hdepth : s.store.types.size ≤ depth) {w : TypeId} :
    ((freeTypeVars (completeSymbol start) depth ty).Returns s fun free _ => w ∈ free) ↔
      s.store.ListedIn w ty := by
  have hreturns : (freeTypeVars (completeSymbol start) depth ty).Returns s fun free _ =>
      ∀ w, w ∈ free ↔ s.store.ListedIn w ty := h.freeTypeVars_returns hty hdepth
  constructor
  · intro hmem
    obtain ⟨free, _, -, hw, hfree⟩ := hmem.and hreturns
    exact (hfree w).1 hw
  · exact fun hw => hreturns.imp fun _ _ hfree => (hfree w).2 hw

/-- **Substitution and the free variables of its result.** -/
theorem substitute_free (h : s.store.AtRest) (hty : s.store.Has ty)
    (hpairs : ∀ p ∈ pairs, s.store.Has p.1 ∧ s.store.Has p.2)
    (hdepth : s.store.types.size ≤ depth) :
    (substitute (completeSymbol start) depth ⟨pairs⟩ ty).Returns s fun image s' =>
      (image = ty ↔ s.store.Fixes pairs ty) ∧
      ∀ depth', s'.store.types.size ≤ depth' →
        (freeTypeVars (completeSymbol start) depth' image).Returns s' fun after _ =>
          ∀ w, w ∈ after ↔
            ∃ x above, s.store.OccursIn x above ty ∧ w ∉ above ∧ s.store.Supplies pairs above x w := by
  obtain ⟨t, hread, hloaded⟩ := h.ready hty
  obtain ⟨ρ, hdesc⟩ := h.wellFormed.exists_describes h.acyclic hpairs
  refine (substitute_computes _ hdepth hdesc s ty t (.refl _) hread hloaded).imp
    fun image s' himage => ⟨?_, fun depth' hdepth' => ?_⟩
  · rw [himage.same, hread.changes_eq_false_iff _ hdesc]
  · have hloaded' : s.store.Loaded (t.subst ρ).classes :=
      t.classes_subst (fun r hr => h.loaded (hdesc.reads hr)) hloaded
    have hready : s'.store.Ready s'.store.types.size image :=
      ⟨_, himage.reads.readsIn_size, hloaded'.grows himage.grows⟩
    refine (freeTypeVars_returns hdepth' hready).imp fun after _ hafter w => ?_
    rw [hafter.2, Store.listedIn_image_iff h.wellFormed ⟨_, hread⟩ hdesc himage.reads]

end

/-! ### The free variables of the result -/

namespace Store

variable {s : Store} {ty v w x : TypeId} {above : List TypeId} {pairs : List (TypeId × TypeId)}
  {p : TypeId × TypeId}

theorem sameVariable_refl (s : Store) (v : TypeId) : s.sameVariable v v = true :=
  sameVariable_iff.2 (.inl rfl)

/-- What is found for a variable is the first pair whose source is the variable. -/
theorem pairFor?_eq_some_iff :
    s.pairFor? pairs v = some p ↔ s.sameVariable p.1 v = true ∧
      ∃ i, pairs[i]? = some p ∧ ∀ q ∈ pairs.take i, s.sameVariable q.1 v = false := by
  rw [pairFor?, List.find?_eq_some_iff_append]
  refine and_congr_right fun _ => ⟨?_, ?_⟩
  · rintro ⟨front, back, rfl, hfront⟩
    exact ⟨front.length, by simp, by simpa using hfront⟩
  · rintro ⟨i, hi, hfront⟩
    obtain ⟨hlt, rfl⟩ := List.getElem?_eq_some_iff.1 hi
    exact ⟨pairs.take i, pairs.drop (i + 1), by simp, by simpa using hfront⟩

theorem pairFor?_eq_none_iff :
    s.pairFor? pairs v = none ↔ ∀ p ∈ pairs, s.sameVariable p.1 v = false := by
  simp [pairFor?]

/-- Below quantifiers over other variables the same is found. -/
theorem pairFor?_outside_of_unbound (h : ∀ b ∈ above, s.sameVariable b x = false) :
    s.pairFor? (s.outside pairs above) x = s.pairFor? pairs x := by
  rw [pairFor?_outside, if_neg]
  rintro ⟨b, hb, hsame⟩
  exact Bool.false_ne_true ((h b hb).symm.trans hsame)

/-- What is found below quantifiers is found without them, and the variable is not quantified. -/
theorem pairFor?_of_outside (h : s.pairFor? (s.outside pairs above) x = some p) :
    s.pairFor? pairs x = some p ∧ ∀ b ∈ above, s.sameVariable b x = false := by
  rw [pairFor?_outside] at h
  split at h
  · cases h
  · next hunbound =>
    exact ⟨h, fun b hb => Bool.eq_false_iff.2 fun hsame => hunbound ⟨b, hb, hsame⟩⟩

theorem notMem_of_unbound (h : ∀ b ∈ above, s.sameVariable b x = false) : x ∉ above :=
  fun hx => Bool.false_ne_true ((h x hx).symm.trans (s.sameVariable_refl x))

/-- Where every variable has one handle and nothing is captured, the places of a type that list a
variable after a substitution are those that list it before and have no pair, and those where a pair
puts something that lists it. -/
theorem listed_after_iff
    (hdistinct : ∀ x above, s.OccursIn x above ty → ∀ b, b ∈ above ∨ (∃ p ∈ pairs, p.1 = b) →
      s.sameVariable b x = true → b = x)
    (hfresh : ∀ x above, s.OccursIn x above ty → ∀ b ∈ above, ∀ p ∈ pairs, ¬ s.ListedIn b p.2) :
    (∃ x above, s.OccursIn x above ty ∧ w ∉ above ∧ s.Supplies pairs above x w) ↔
      (s.ListedIn w ty ∧ ∀ p ∈ pairs, s.sameVariable p.1 w = false) ∨
      ∃ i p, pairs[i]? = some p ∧ s.ListedIn p.1 ty ∧
        (∀ q ∈ pairs.take i, s.sameVariable q.1 p.1 = false) ∧ s.ListedIn w p.2 := by
  have hfound {x : TypeId} {above : List TypeId} (hoccurs : s.OccursIn x above ty) (hx : x ∉ above) :
      s.pairFor? (s.outside pairs above) x = s.pairFor? pairs x := by
    refine pairFor?_outside_of_unbound fun b hb => Bool.eq_false_iff.2 fun hsame => ?_
    exact hx (hdistinct x above hoccurs b (.inl hb) hsame ▸ hb)
  constructor
  · rintro ⟨x, above, hoccurs, hw, ⟨hnone, rfl⟩ | ⟨p, hsome, hlisted⟩⟩
    · rw [hfound hoccurs hw] at hnone
      exact .inl ⟨⟨above, hoccurs, hw⟩, pairFor?_eq_none_iff.1 hnone⟩
    · obtain ⟨hsome, hunbound⟩ := pairFor?_of_outside hsome
      obtain ⟨hsame, i, hi, hfirst⟩ := pairFor?_eq_some_iff.1 hsome
      -- the source is the variable itself, since that has no other handle
      have hsource := hdistinct x above hoccurs p.1 (.inr ⟨p, List.mem_of_getElem? hi, rfl⟩) hsame
      rw [← hsource] at hoccurs hunbound hfirst
      exact .inr ⟨i, p, hi, ⟨above, hoccurs, notMem_of_unbound hunbound⟩, hfirst, hlisted⟩
  · rintro (⟨⟨above, hoccurs, hw⟩, hnone⟩ | ⟨i, p, hi, ⟨above, hoccurs, hsource⟩, hfirst, hlisted⟩)
    · refine ⟨w, above, hoccurs, hw, .inl ⟨?_, rfl⟩⟩
      rw [hfound hoccurs hw]
      exact pairFor?_eq_none_iff.2 hnone
    · refine ⟨p.1, above, hoccurs, ?_, .inr ⟨p, ?_, hlisted⟩⟩
      · exact fun hw => hfresh p.1 above hoccurs w hw p (List.mem_of_getElem? hi) hlisted
      · rw [hfound hoccurs hsource]
        exact pairFor?_eq_some_iff.2 ⟨s.sameVariable_refl p.1, i, hi, hfirst⟩

end Store

/-- **Free variables after substitution.**  In a store at rest, let no quantifier over a variable of
the type, and no source, have another handle of that variable, and let no quantified variable be free
in a target.  Then the free variables of the result are those of the type for which there is no pair,
and those of the target of each pair whose source is free in the type and has no earlier pair.  And
no list of free variables has a variable twice. -/
theorem free_variables_after_substitution
    (start : Completer → SymbolId → Run (Except CompletionError Unit)) (s : Session) (ty : TypeId)
    (sources targets : List TypeId) (depth : Nat) (hrest : s.store.AtRest) (hty : s.store.Has ty)
    (hpairs : ∀ p ∈ sources.zip targets, s.store.Has p.1 ∧ s.store.Has p.2)
    (hdepth : s.store.types.size ≤ depth)
    (hdistinct : ∀ x above, s.store.OccursIn x above ty → ∀ b, b ∈ above ∨ b ∈ sources →
      s.store.sameVariable b x = true → b = x)
    (hfresh : ∀ x above, s.store.OccursIn x above ty → ∀ b ∈ above, ∀ p ∈ sources.zip targets,
      (freeTypeVars (completeSymbol start) depth p.2).Returns s fun free _ => b ∉ free) :
    ((freeTypeVars (completeSymbol start) depth ty).Returns s fun before _ =>
      (substitute (completeSymbol start) depth (.ofLists sources targets) ty).Returns s
        fun image s' => ∀ depth', s'.store.types.size ≤ depth' →
          (freeTypeVars (completeSymbol start) depth' image).Returns s' fun after _ => ∀ w,
            w ∈ after ↔
              (w ∈ before ∧ ∀ p ∈ sources.zip targets, s.store.sameVariable p.1 w = false) ∨
              ∃ i p, (sources.zip targets)[i]? = some p ∧ p.1 ∈ before ∧
                (∀ q ∈ (sources.zip targets).take i, s.store.sameVariable q.1 p.1 = false) ∧
                (freeTypeVars (completeSymbol start) depth p.2).Returns s fun free _ => w ∈ free) ∧
    ∀ (load : Loader) (depth : Nat) (a : TypeId) (r r' : Session) (free : List TypeId),
      freeTypeVars load depth a r = .ok free r' → free.Nodup := by
  refine ⟨?_, fun load depth a r r' free h => collectFree_nodup load depth h List.nodup_nil⟩
  have hdistinct' : ∀ x above, s.store.OccursIn x above ty → ∀ b,
      b ∈ above ∨ (∃ p ∈ sources.zip targets, p.1 = b) → s.store.sameVariable b x = true → b = x := by
    rintro x above hoccurs b (hb | ⟨p, hp, rfl⟩)
    · exact hdistinct x above hoccurs b (.inl hb)
    · exact hdistinct x above hoccurs p.1 (.inr (List.of_mem_zip hp).1)
  have hfresh' : ∀ x above, s.store.OccursIn x above ty → ∀ b ∈ above, ∀ p ∈ sources.zip targets,
      ¬ s.store.ListedIn b p.2 := by
    intro x above hoccurs b hb p hp hlisted
    have hmem : (freeTypeVars (completeSymbol start) depth p.2).Returns s fun free _ => b ∈ free :=
      (hrest.returns_mem_iff (hpairs p hp).2 hdepth).2 hlisted
    obtain ⟨free, _, -, hin, hout⟩ := hmem.and (hfresh x above hoccurs b hb p hp)
    exact hout hin
  refine (hrest.freeTypeVars_returns hty hdepth).imp fun before _ hbefore => ?_
  refine (substitute_free hrest hty hpairs hdepth).imp fun image s' himage depth' hdepth' => ?_
  refine (himage.2 depth' hdepth').imp fun after _ hafter w => ?_
  rw [hafter, Store.listed_after_iff hdistinct' hfresh', hbefore]
  refine or_congr_right (exists_congr fun i => exists_congr fun p => and_congr_right fun hi => ?_)
  rw [hbefore, hrest.returns_mem_iff (hpairs p (List.mem_of_getElem? hi)).2 hdepth]

/-- A store with the type variables `A`, `B`, `C`, `D`, `E`, the array of `D` and the method type
`(A, C) B` quantified over `C`. -/
def scopedStore : Store :=
  (Session.afterCommands
    [.newTypeVar "A" none none, .newTypeVar "B" none none, .newTypeVar "C" none none,
      .newTypeVar "D" none none, .newTypeVar "E" none none, .arrayType (.handle ⟨15⟩) none none,
      .methodType [.handle ⟨12⟩, .handle ⟨14⟩] (.handle ⟨13⟩) [],
      .forAll [.handle ⟨14⟩] [] [] (.handle ⟨18⟩)]).store

theorem scopedStore_atRest : scopedStore.AtRest :=
  ⟨by decide, Store.Layered.acyclic (by decide), fun _ => Store.nonePending_of_symbols (by decide)⟩

/-- With `B` for `A`, `E` for `A` and `D[]` for `B`, all at once, the free variables of the quantified
method type are `B` and `D`: the second pair for `A` is not used, and the new `B` is not replaced. -/
theorem free_variables_after_substitution_simultaneous :
    let s := Session.ofStore scopedStore
    let load := completeSymbol fun _ _ => pure (.ok ())
    let sources : List TypeId := [⟨12⟩, ⟨12⟩, ⟨13⟩]
    let targets : List TypeId := [⟨13⟩, ⟨16⟩, ⟨17⟩]
    (scopedStore.AtRest ∧ scopedStore.OccursIn ⟨14⟩ [⟨14⟩] ⟨19⟩) ∧
    (freeTypeVars load 20 ⟨19⟩).Returns s fun before _ => before = [⟨12⟩, ⟨13⟩] ∧
      (substitute load 20 (.ofLists sources targets) ⟨19⟩).Returns s
        fun image s' => ∀ depth', s'.store.types.size ≤ depth' →
          (freeTypeVars load depth' image).Returns s' fun after _ =>
            ⟨13⟩ ∈ after ∧ ⟨15⟩ ∈ after ∧ ⟨16⟩ ∉ after := by
  intro s load sources targets
  have hbelow : ∀ x above, scopedStore.OccursIn x above ⟨19⟩ →
      above = [⟨14⟩] ∧ x ∈ ([⟨12⟩, ⟨14⟩, ⟨13⟩] : List TypeId) := by
    intro x above h
    obtain ⟨c, hc, inner, hinner, rfl⟩ := (Store.occursIn_iff rfl (by decide)).1 h
    obtain rfl := List.mem_singleton.1 hc
    obtain ⟨c, hc, inner, hinner, rfl⟩ := (Store.occursIn_iff rfl (by decide)).1 hinner
    -- the components of the method type are variables
    have hvar : (scopedStore.type? c).any (·.kind.shape = .var) := by
      clear hinner
      revert c
      decide
    obtain ⟨data, record, kind⟩ := (Option.any_eq_true ..).1 hvar
    obtain ⟨rfl, rfl⟩ := (Store.occursIn_var_iff record (of_decide_eq_true kind)).1 hinner
    exact ⟨rfl, hc⟩
  have hdistinct : ∀ x above, scopedStore.OccursIn x above ⟨19⟩ → ∀ b, b ∈ above ∨ b ∈ sources →
      scopedStore.sameVariable b x = true → b = x := by
    intro x above h b hb
    obtain ⟨rfl, hx⟩ := hbelow x above h
    have hall : ∀ a ∈ [⟨14⟩] ++ sources, ∀ x ∈ ([⟨12⟩, ⟨14⟩, ⟨13⟩] : List TypeId),
        scopedStore.sameVariable a x = true → a = x := by decide
    exact hall b (List.mem_append.2 hb) x hx
  have hfresh : ∀ x above, scopedStore.OccursIn x above ⟨19⟩ → ∀ b ∈ above, ∀ p ∈ sources.zip targets,
      (freeTypeVars load 20 p.2).Returns s fun free _ => b ∉ free := by
    intro x above h b hb p hp
    obtain ⟨rfl, -⟩ := hbelow x above h
    obtain rfl := List.mem_singleton.1 hb
    obtain rfl | rfl | rfl : p = (⟨12⟩, ⟨13⟩) ∨ p = (⟨12⟩, ⟨16⟩) ∨ p = (⟨13⟩, ⟨17⟩) := by
      simpa [sources, targets] using hp
    · exact ⟨_, _, rfl, by decide⟩
    · exact ⟨_, _, rfl, by decide⟩
    · exact ⟨_, _, rfl, by decide⟩
  obtain ⟨before, r, hbefore, himage⟩ := (free_variables_after_substitution (fun _ _ => pure (.ok ()))
    s ⟨19⟩ sources targets 20 scopedStore_atRest (by decide) (by decide) (by decide) hdistinct hfresh).1
  obtain rfl : before = [⟨12⟩, ⟨13⟩] := by
    have hrun : freeTypeVars load 20 ⟨19⟩ s = .ok [⟨12⟩, ⟨13⟩] s := rfl
    exact (EStateM.Result.ok.inj (hbefore.symm.trans hrun)).1
  refine ⟨⟨scopedStore_atRest, ?_⟩, _, r, hbefore, rfl, ?_⟩
  · have hmethod : scopedStore.OccursIn ⟨14⟩ [] ⟨18⟩ :=
      (Store.occursIn_iff rfl (by decide)).2 ⟨⟨14⟩, by decide, [], .self ⟨_, rfl, rfl⟩, rfl⟩
    exact (Store.occursIn_iff rfl (by decide)).2 ⟨⟨18⟩, by decide, [], hmethod, rfl⟩
  · refine himage.imp fun image s' h depth' hdepth' => (h depth' hdepth').imp fun after _ hafter => ?_
    rw [hafter, hafter, hafter]
    refine ⟨.inr ⟨0, _, rfl, by decide, by decide, _, _, rfl, by decide⟩,
      .inr ⟨2, _, rfl, by decide, by decide, _, _, rfl, by decide⟩, ?_⟩
    rintro (⟨h, -⟩ | ⟨i, p, hi, -, hfirst, free, _, hrun, hw⟩)
    · exact absurd h (by decide)
    · obtain _ | _ | _ | i := i
      · obtain rfl := Option.some.inj hi
        obtain ⟨rfl, -⟩ := EStateM.Result.ok.inj hrun
        exact absurd hw (by decide)
      · obtain rfl := Option.some.inj hi
        exact absurd hfirst (by decide)
      · obtain rfl := Option.some.inj hi
        obtain ⟨rfl, -⟩ := EStateM.Result.ok.inj hrun
        exact absurd hw (by decide)
      · cases hi

/-! ### What is replaced and what is listed -/

namespace Store

variable {s : Store} {ty v a x : TypeId} {above : List TypeId} {p : TypeId × TypeId}

theorem pairFor?_singleton :
    s.pairFor? [(v, a)] x = some p ↔ s.sameVariable v x = true ∧ (v, a) = p := by
  rw [pairFor?, List.find?_singleton, Option.ite_none_right_eq_some, Option.some_inj]

/-- Putting a type that is no variable in the place of a variable leaves a type alone exactly if the
variable is bound wherever it occurs. -/
theorem fixes_singleton_iff (ha : ¬ s.IsVariable a) :
    s.Fixes [(v, a)] ty ↔ ∀ x above, s.OccursIn x above ty → s.sameVariable v x = true →
      ∃ b ∈ above, s.sameVariable b x = true := by
  constructor
  · intro h x above hoccurs hsame
    by_contra hunbound
    have hfree : s.FreeIn x ty := freeIn_iff.2 ⟨above, hoccurs, fun b hb =>
      Bool.eq_false_iff.2 fun hb' => hunbound ⟨b, hb, hb'⟩⟩
    have hself : a = x := h x hfree _ (pairFor?_singleton.2 ⟨hsame, rfl⟩)
    exact ha (hself ▸ hoccurs.isVariable)
  · intro h x hfree p hp
    obtain ⟨above, hoccurs, hunbound⟩ := freeIn_iff.1 hfree
    obtain ⟨b, hb, hsame⟩ := h x above hoccurs (pairFor?_singleton.1 hp).1
    exact absurd ((hunbound b hb).symm.trans hsame) Bool.false_ne_true

end Store

/-- **Substitution and the list of free variables.**  Putting a type that is no variable in the place of
a variable changes a type exactly if some handle of the variable occurs in the type outside all
quantifiers over the variable, while the list of free variables has the handles that occur outside all
quantifiers over the handle.  So what is changed has a handle of the variable in its list.  The
converse holds where every such handle that is below a quantifier over the variable is also below one
over the handle. -/
theorem substitution_against_free_variables
    (start : Completer → SymbolId → Run (Except CompletionError Unit)) (s : Session)
    (ty v c : TypeId) (depth : Nat) (hrest : s.store.AtRest) (hty : s.store.Has ty)
    (hv : s.store.Has v) (hc : s.store.Has c) (hclosed : ¬ s.store.IsVariable c)
    (hdepth : s.store.types.size ≤ depth) :
    (freeTypeVars (completeSymbol start) depth ty).Returns s fun free _ =>
      (substitute (completeSymbol start) depth (.ofLists [v] [c]) ty).Returns s fun image _ =>
        (image ≠ ty ↔ ∃ w above, s.store.OccursIn w above ty ∧ s.store.sameVariable v w = true ∧
          ∀ b ∈ above, s.store.sameVariable b w = false) ∧
        (∀ w, w ∈ free ↔ ∃ above, s.store.OccursIn w above ty ∧ w ∉ above) ∧
        (image ≠ ty → ∃ w ∈ free, s.store.sameVariable v w = true) ∧
        ((∀ w above, s.store.OccursIn w above ty → s.store.sameVariable v w = true →
            (∃ b ∈ above, s.store.sameVariable b w = true) → w ∈ above) →
          (image ≠ ty ↔ ∃ w ∈ free, s.store.sameVariable v w = true)) := by
  have hpairs : ∀ p ∈ [(v, c)], s.store.Has p.1 ∧ s.store.Has p.2 :=
    List.forall_mem_singleton.2 ⟨hv, hc⟩
  refine (hrest.freeTypeVars_returns hty hdepth).imp fun free _ hfree => ?_
  refine (substitute_free hrest hty hpairs hdepth).imp fun image _ himage => ?_
  have hchanged : image ≠ ty ↔ ∃ w above, s.store.OccursIn w above ty ∧
      s.store.sameVariable v w = true ∧ ∀ b ∈ above, s.store.sameVariable b w = false := by
    rw [ne_eq, himage.1, Store.fixes_singleton_iff hclosed]
    simp only [not_forall, not_exists, not_and, Bool.not_eq_true, exists_prop]
  have hlisted : image ≠ ty → ∃ w ∈ free, s.store.sameVariable v w = true := by
    intro hne
    obtain ⟨w, above, hoccurs, hsame, hunbound⟩ := hchanged.1 hne
    exact ⟨w, (hfree w).2 ⟨above, hoccurs, Store.notMem_of_unbound hunbound⟩, hsame⟩
  refine ⟨hchanged, hfree, hlisted, fun hscope => ⟨hlisted, ?_⟩⟩
  rintro ⟨w, hw, hsame⟩
  obtain ⟨above, hoccurs, habove⟩ := (hfree w).1 hw
  refine hchanged.2 ⟨w, above, hoccurs, hsame, fun b hb => Bool.eq_false_iff.2 fun hbound => ?_⟩
  exact habove (hscope w above hoccurs hsame ⟨b, hb, hbound⟩)

/-- A store with a type variable `T`, another occurrence of `T`, a class `C` without parameters, a type
quantified over `T` whose body is the other occurrence, and the array of that occurrence. -/
def copiedStore : Store :=
  (Session.afterCommands
    [.newTypeVar "T" none none, .copyTypeVar (.handle ⟨12⟩) [], .declareClass "C" none .none none,
      .defineClass (.handle ⟨14⟩) [] [] [] none [], .forAll [.handle ⟨12⟩] [] [] (.handle ⟨13⟩),
      .arrayType (.handle ⟨13⟩) none none]).store

theorem copiedStore_atRest : copiedStore.AtRest :=
  ⟨by decide, Store.Layered.acyclic (by decide), fun _ => Store.nonePending_of_symbols (by decide)⟩

/-- `C` for `T` changes the array of the other occurrence of `T`, which is listed there. -/
theorem substitution_against_free_variables_array :
    let s := Session.ofStore copiedStore
    let load := completeSymbol fun _ _ => pure (.ok ())
    copiedStore.AtRest ∧ ¬ copiedStore.IsVariable ⟨14⟩ ∧
      (freeTypeVars load 17 ⟨16⟩).Returns s fun free _ =>
        (substitute load 17 (.ofLists [⟨12⟩] [⟨14⟩]) ⟨16⟩).Returns s fun image _ =>
          image ≠ ⟨16⟩ ∧ ∃ w ∈ free, copiedStore.sameVariable ⟨12⟩ w = true := by
  intro s load
  have hclosed : ¬ copiedStore.IsVariable ⟨14⟩ := by
    rintro ⟨data, record, kind⟩
    obtain rfl := Option.some.inj record
    cases kind
  refine ⟨copiedStore_atRest, hclosed, ?_⟩
  refine (substitution_against_free_variables (fun _ _ => pure (.ok ())) s ⟨16⟩ ⟨12⟩ ⟨14⟩ 17
    copiedStore_atRest (by decide) (by decide) (by decide) hclosed (by decide)).imp fun free _ h => ?_
  refine h.imp fun image _ himage => ?_
  have harray : copiedStore.OccursIn ⟨13⟩ [] ⟨16⟩ :=
    (Store.occursIn_iff rfl (by decide)).2 ⟨⟨13⟩, by decide, [], .self ⟨_, rfl, rfl⟩, rfl⟩
  have hne : image ≠ ⟨16⟩ := himage.1.2 ⟨⟨13⟩, [], harray, by decide, by simp⟩
  exact ⟨hne, himage.2.2.1 hne⟩

/-- A quantifier over `T` hides the other occurrence of `T` from substitution, yet the list of free
variables has it: the two do not agree on what is bound. -/
theorem listed_variable_not_replaced :
    let s := Session.ofStore copiedStore
    let load := completeSymbol fun _ _ => pure (.ok ())
    copiedStore.AtRest ∧ copiedStore.IsVariable ⟨12⟩ ∧
      ((freeTypeVars load 17 ⟨14⟩).Returns s fun free _ => free = []) ∧
      ((substitute load 17 (.ofLists [⟨12⟩] [⟨14⟩]) ⟨15⟩).Returns s fun image _ => image = ⟨15⟩) ∧
      (freeTypeVars load 17 ⟨15⟩).Returns s fun free _ =>
        ∃ w ∈ free, copiedStore.sameVariable ⟨12⟩ w = true := by
  intro s load
  refine ⟨copiedStore_atRest, ⟨_, rfl, rfl⟩, ⟨_, _, rfl, rfl⟩, ⟨_, _, rfl, rfl⟩, ?_⟩
  exact ⟨_, _, rfl, ⟨13⟩, by decide, by decide⟩

/-! ### Capture -/

/-- **Capture.**  A variable that is free in a type stays free when the type is put in the place of a
variable, as long as one place where it is put lies outside all quantifiers over the variable.  If all
places lie below such quantifiers, the variable is captured in all of them: it is free in the result
only if it was free before. -/
theorem substituted_variables_stay_free
    (start : Completer → SymbolId → Run (Except CompletionError Unit)) (s : Session)
    (ty v a : TypeId) (depth : Nat) (hrest : s.store.AtRest) (hty : s.store.Has ty)
    (hv : s.store.Has v) (ha : s.store.Has a) (hdepth : s.store.types.size ≤ depth) :
    (freeTypeVars (completeSymbol start) depth ty).Returns s fun before _ =>
      (freeTypeVars (completeSymbol start) depth a).Returns s fun free _ =>
        (substitute (completeSymbol start) depth (.ofLists [v] [a]) ty).Returns s fun image s' =>
          ∀ depth', s'.store.types.size ≤ depth' →
            (freeTypeVars (completeSymbol start) depth' image).Returns s' fun after _ =>
              ∀ w ∈ free,
                ((∃ x above, s.store.OccursIn x above ty ∧ s.store.sameVariable v x = true ∧
                  (∀ b ∈ above, s.store.sameVariable b x = false) ∧ w ∉ above) → w ∈ after) ∧
                ((∀ x above, s.store.OccursIn x above ty → s.store.sameVariable v x = true →
                  (∀ b ∈ above, s.store.sameVariable b x = false) → w ∈ above) →
                    w ∈ after → w ∈ before) := by
  have hpairs : ∀ p ∈ [(v, a)], s.store.Has p.1 ∧ s.store.Has p.2 :=
    List.forall_mem_singleton.2 ⟨hv, ha⟩
  refine (hrest.freeTypeVars_returns hty hdepth).imp fun before _ hbefore => ?_
  refine (hrest.freeTypeVars_returns ha hdepth).imp fun free _ hfree => ?_
  refine (substitute_free hrest hty hpairs hdepth).imp fun image s' himage depth' hdepth' => ?_
  refine (himage.2 depth' hdepth').imp fun after _ hafter w hw => ?_
  rw [hafter, hbefore]
  constructor
  · rintro ⟨x, above, hoccurs, hsame, hunbound, habove⟩
    refine ⟨x, above, hoccurs, habove, .inr ⟨(v, a), ?_, (hfree w).1 hw⟩⟩
    rw [Store.pairFor?_outside_of_unbound hunbound]
    exact Store.pairFor?_singleton.2 ⟨hsame, rfl⟩
  · rintro hall ⟨x, above, hoccurs, habove, ⟨-, rfl⟩ | ⟨p, hp, -⟩⟩
    · exact ⟨above, hoccurs, habove⟩
    · obtain ⟨hp, hunbound⟩ := Store.pairFor?_of_outside hp
      exact absurd (hall x above hoccurs (Store.pairFor?_singleton.1 hp).1 hunbound) habove

/-- In the method type `(A, C) B` quantified over `C`, putting `D[]` in the place of `A` makes `D` free,
while `C` in the place of `A` is captured. -/
theorem substituted_variables_stay_free_method :
    let s := Session.ofStore scopedStore
    let load := completeSymbol fun _ _ => pure (.ok ())
    scopedStore.AtRest ∧
      ((substitute load 20 (.ofLists [⟨12⟩] [⟨17⟩]) ⟨19⟩).Returns s fun image s' =>
        ∀ depth', s'.store.types.size ≤ depth' →
          (freeTypeVars load depth' image).Returns s' fun after _ => ⟨15⟩ ∈ after) ∧
      (substitute load 20 (.ofLists [⟨12⟩] [⟨14⟩]) ⟨19⟩).Returns s fun image s' =>
        ∀ depth', s'.store.types.size ≤ depth' →
          (freeTypeVars load depth' image).Returns s' fun after _ => ⟨14⟩ ∉ after := by
  intro s load
  have hplace : scopedStore.OccursIn ⟨12⟩ [⟨14⟩] ⟨19⟩ := by
    have hmethod : scopedStore.OccursIn ⟨12⟩ [] ⟨18⟩ :=
      (Store.occursIn_iff rfl (by decide)).2 ⟨⟨12⟩, by decide, [], .self ⟨_, rfl, rfl⟩, rfl⟩
    exact (Store.occursIn_iff rfl (by decide)).2 ⟨⟨18⟩, by decide, [], hmethod, rfl⟩
  refine ⟨scopedStore_atRest, ?_, ?_⟩
  · obtain ⟨_, _, -, free, _, hfree, h⟩ := substituted_variables_stay_free (fun _ _ => pure (.ok ())) s
      ⟨19⟩ ⟨12⟩ ⟨17⟩ 20 scopedStore_atRest (by decide) (by decide) (by decide) (by decide)
    obtain ⟨rfl, -⟩ := EStateM.Result.ok.inj hfree
    refine h.imp fun image s' himage depth' hdepth' => ?_
    refine (himage depth' hdepth').imp fun after _ hafter => ?_
    exact (hafter ⟨15⟩ (by decide)).1 ⟨⟨12⟩, [⟨14⟩], hplace, by decide, by decide, by decide⟩
  · obtain ⟨before, _, hbefore, free, _, hfree, h⟩ := substituted_variables_stay_free
      (fun _ _ => pure (.ok ())) s ⟨19⟩ ⟨12⟩ ⟨14⟩ 20 scopedStore_atRest (by decide) (by decide)
      (by decide) (by decide)
    obtain ⟨rfl, -⟩ := EStateM.Result.ok.inj hbefore
    obtain ⟨rfl, -⟩ := EStateM.Result.ok.inj hfree
    refine h.imp fun image s' himage depth' hdepth' => ?_
    refine (himage depth' hdepth').imp fun after _ hafter hmem => ?_
    refine absurd ((hafter ⟨14⟩ (by decide)).2 (fun x above hoccurs _ _ => ?_) hmem) (by decide)
    obtain ⟨c, hc, inner, -, rfl⟩ := (Store.occursIn_iff rfl (by decide)).1 hoccurs
    exact List.mem_append_left _ (by decide)

/-- A store with the type variables `A` and `B`, and `A` quantified over `B`. -/
def capturingStore : Store :=
  (Session.afterCommands
    [.newTypeVar "A" none none, .newTypeVar "B" none none,
      .forAll [.handle ⟨13⟩] [] [] (.handle ⟨12⟩)]).store

/-- Quantified variables are not renamed: with `B` in the place of `A`, nothing is free in `A`
quantified over `B` any more. -/
theorem substitution_captures :
    let s := Session.ofStore capturingStore
    let load := completeSymbol fun _ _ => pure (.ok ())
    capturingStore.AtRest ∧
      ((freeTypeVars load 15 ⟨14⟩).Returns s fun before _ => ⟨12⟩ ∈ before) ∧
      ((freeTypeVars load 15 ⟨13⟩).Returns s fun free _ => ⟨13⟩ ∈ free) ∧
      (substitute load 15 (.ofLists [⟨12⟩] [⟨13⟩]) ⟨14⟩).Returns s fun image s' =>
        (freeTypeVars load 16 image).Returns s' fun after _ => ⟨13⟩ ∉ after := by
  intro s load
  have hrest : capturingStore.AtRest :=
    ⟨by decide, Store.Layered.acyclic (by decide), fun _ => Store.nonePending_of_symbols (by decide)⟩
  exact ⟨hrest, ⟨_, _, rfl, by decide⟩, ⟨_, _, rfl, by decide⟩, _, _, rfl, _, _, rfl, by decide⟩

end RegionTypes

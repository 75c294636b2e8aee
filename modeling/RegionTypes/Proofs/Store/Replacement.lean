import RegionTypes.Proofs.Store.Substitution

/-!
# Replacing variables in the store

Substitution in the store works on handles: pairs of handles say what to put in the place of which
variables.  Here the pairs are read as replacements on trees.

* `Store.Describes` — a list of pairs of handles as replacements on trees.
* `ImageOf` — what is to be shown of substitution in a type: the store has only grown, the result
  reads as the image, and the handle is the old one exactly when the tree does not change.
* `Substitution.replacement_returns` — **a variable is replaced as on trees**.
* `Substitution.without_run` — hiding the variables of a quantifier drops the replacements for them.
* `Store.Loaded`, `typeArguments_returns` — a class without a pending completer answers with the
  type arguments it has, and with none if it never got any.  This adds no type (`Store.Settles`).
-/

namespace RegionTypes

open Run

/-- The pairs of a substitution and the replacements they stand for. -/
def Store.Describes (s : Store) (pairs : List (TypeId × TypeId)) (ρ : List Replacement) : Prop :=
  List.Forall₂ (fun p r => s.Binds p.1 r.source ∧ r.target = p.2 ∧ s.Reads p.2 r.image) pairs ρ

/-- None of the classes has a completer pending. -/
def Store.Loaded (s : Store) (classes : List SymbolId) : Prop :=
  ∀ sym ∈ classes, ∃ symbol, s.symbol? sym = some symbol ∧ symbol.completer = none

/-- What a mapping does to a type: the store has only grown, the result reads as the image under the
replacements, and it has the old handle exactly if the tree does not change. -/
structure ImageOf (s : Session) (ty : TypeId) (t : Tree) (ρ : List Replacement) (image : TypeId)
    (s' : Session) : Prop where
  grows : s.store.Grows s'.store
  reads : s'.store.Reads image (t.subst ρ)
  same : image = ty ↔ t.changes ρ = false

variable {s s' : Session} {ty : TypeId} {t : Tree} {pairs : List (TypeId × TypeId)} {ρ : List Replacement}
  {v : Occurrence}

theorem Store.Describes.grows {s s' : Store} (hgrows : s.Grows s') (h : s.Describes pairs ρ) :
    s'.Describes pairs ρ :=
  h.imp fun _ _ ⟨hsource, htarget, himage⟩ =>
    ⟨hgrows.binds hsource, htarget, himage.grows hgrows⟩

theorem Store.Describes.exists_binds {s : Store} {p : TypeId × TypeId} (h : s.Describes pairs ρ)
    (hp : p ∈ pairs) : ∃ source, s.Binds p.1 source := by
  obtain ⟨r, hsource, -⟩ := exists_of_forall₂ h hp
  exact ⟨r.source, hsource⟩

theorem Store.Describes.reads {s : Store} {r : Replacement} (h : s.Describes pairs ρ) (hr : r ∈ ρ) :
    s.Reads r.target r.image := by
  obtain ⟨p, -, htarget, himage⟩ := exists_of_forall₂ h.flip hr
  rwa [htarget]

theorem Store.Loaded.grows {s s' : Store} {classes : List SymbolId} (hgrows : s.Grows s')
    (h : s.Loaded classes) : s'.Loaded classes := by
  intro sym hsym
  obtain ⟨symbol, hsymbol, hnone⟩ := h sym hsym
  exact ⟨symbol, by rw [hgrows.symbols, hsymbol], hnone⟩

/-! ### Looking up variables -/

/-- A type as a variable is recognised: by its handle or by its symbol. -/
def Store.occurrence (s : Store) (ty : TypeId) : Occurrence := ⟨ty, (s.type? ty).bind TypeData.symbol⟩

theorem Store.Binds.eq_occurrence {s : Store} (h : s.Binds ty v) :
    v = s.occurrence ty := by
  obtain ⟨data, hdata, rfl⟩ := h
  rw [Store.occurrence, hdata]
  rfl

namespace Substitution

theorem symbolOf_run (h : s.store.Binds ty v) : symbolOf ty s = .ok v.symbol s := by
  obtain ⟨data, hdata, rfl⟩ := h
  unfold symbolOf
  rw [bind_run (typeData_run hdata)]
  rfl

theorem stands_run {source : Occurrence} {a : TypeId} (hv : s.store.Binds ty v)
    (ha : s.store.Binds a source) :
    stands ty v.symbol a s = .ok (source.standsFor v) s := by
  have hty : v.ty = ty := by obtain ⟨_, _, rfl⟩ := hv; rfl
  have hsource : source.ty = a := by obtain ⟨_, _, rfl⟩ := ha; rfl
  unfold stands
  by_cases heq : a = ty
  · rw [if_pos heq, Occurrence.standsFor, hsource, hty, heq, decide_eq_true rfl]
    rfl
  · rw [if_neg heq]
    have hne : decide (source.ty = v.ty) = false := by rw [hsource, hty]; exact decide_eq_false heq
    cases hsym : v.symbol with
    | none =>
      rw [Occurrence.standsFor, hne, hsym]
      rfl
    | some sym =>
      show (symbolOf a >>= fun x => pure (decide (x = some sym))) s = _
      rw [bind_run (symbolOf_run ha), Occurrence.standsFor, hne, hsym]
      rfl

/-- The first pair for a variable is the first replacement for it. -/
theorem find?_run (hv : s.store.Binds ty v) (h : s.store.Describes pairs ρ) :
    find? ty v.symbol pairs s = .ok ((Replacement.find? ρ v).map Replacement.target) s := by
  induction h with
  | nil => rfl
  | @cons p r pairs ρ hpr _ ih =>
    obtain ⟨hsource, htarget, -⟩ := hpr
    obtain ⟨source, target⟩ := p
    unfold find? Replacement.find?
    rw [bind_run (stands_run hv hsource), List.find?_cons]
    cases hstands : r.source.standsFor v with
    | true =>
      rw [Option.map_some, htarget]
      rfl
    | false =>
      show find? ty v.symbol pairs s = _
      rw [ih]
      rfl

/-- Whether a source is hidden is decided by the quantified variables as occurrences. -/
theorem isHidden_run {vars : List TypeId} {vs : List Occurrence} {source : Occurrence} {a : TypeId}
    (hvs : List.Forall₂ s.store.Binds vars vs) (ha : s.store.Binds a source) :
    isHidden vars ((vs.map Occurrence.symbol).filterMap id) a s =
      .ok (vs.any fun v => source.standsFor v) s := by
  have hsource : source.ty = a := by obtain ⟨_, _, rfl⟩ := ha; rfl
  have hvars : vars = vs.map Occurrence.ty := by
    induction hvs with
    | nil => rfl
    | cons hv _ ih =>
      obtain ⟨_, _, rfl⟩ := hv
      rw [List.map_cons, ih]
  unfold isHidden
  by_cases hmem : vars.contains a = true
  · have hany : (vs.any fun v => source.standsFor v) = true := by
      rw [List.contains_iff_mem, hvars, List.mem_map] at hmem
      obtain ⟨v, hv, hty⟩ := hmem
      refine List.any_eq_true.2 ⟨v, hv, ?_⟩
      rw [Occurrence.standsFor, hsource, hty, decide_eq_true rfl]
      rfl
    rw [if_pos hmem, hany]
    rfl
  · rw [if_neg hmem, bind_run (symbolOf_run ha)]
    have hany : source.symbol.any ((vs.map Occurrence.symbol).filterMap id).contains =
        vs.any fun v => source.standsFor v := by
      have hne : ∀ v ∈ vs, ¬ source.ty = v.ty := fun v hv heq => hmem (by
        rw [List.contains_iff_mem, hvars, ← hsource, heq]
        exact List.mem_map_of_mem hv)
      rw [Bool.eq_iff_iff, Option.any_eq_true, List.any_eq_true]
      constructor
      · rintro ⟨sym, hsym, hmem'⟩
        obtain ⟨x, hx, rfl⟩ := List.mem_filterMap.1 (List.contains_iff_mem.1 hmem')
        obtain ⟨v, hv, hvsym⟩ := List.mem_map.1 hx
        refine ⟨v, hv, ?_⟩
        rw [Occurrence.standsFor, hsym, hvsym]
        simp
      · rintro ⟨v, hv, hstands⟩
        rw [Occurrence.standsFor, decide_eq_false (hne v hv), Bool.false_or, Bool.and_eq_true,
          decide_eq_true_eq] at hstands
        obtain ⟨sym, hsym⟩ := Option.isSome_iff_exists.1 hstands.1
        refine ⟨sym, hstands.2.trans hsym, List.contains_iff_mem.2 (List.mem_filterMap.2 ?_)⟩
        exact ⟨v.symbol, List.mem_map_of_mem hv, hsym⟩
    rw [← hany]
    rfl

theorem without_run {vars : List TypeId} {vs : List Occurrence}
    (hvs : List.Forall₂ s.store.Binds vars vs) (h : s.store.Describes pairs ρ) :
    ∃ pairs', without ⟨pairs⟩ vars s = .ok ⟨pairs'⟩ s ∧
      s.store.Describes pairs' (Replacement.outside ρ vs) := by
  have hsymbols : vars.mapM symbolOf s = .ok (vs.map Occurrence.symbol) s := by
    induction hvs with
    | nil => rfl
    | cons hv _ ih =>
      rw [List.mapM_cons, bind_run (symbolOf_run hv), bind_run ih]
      rfl
  let hidden (p : TypeId × TypeId) := vs.any fun v => (s.store.occurrence p.1).standsFor v
  have hfilter : (pairs.filterM fun (pair : TypeId × TypeId) => do
      return !(← isHidden vars ((vs.map Occurrence.symbol).filterMap id) pair.1)) s =
      .ok (pairs.filter fun p => !hidden p) s := by
    refine filterM_run fun p hp => ?_
    obtain ⟨source, hsource⟩ := h.exists_binds hp
    rw [bind_run (isHidden_run hvs hsource), hsource.eq_occurrence]
    rfl
  refine ⟨pairs.filter fun p => !hidden p, ?_, List.rel_filter ?_ h⟩
  · unfold without
    rw [bind_run hsymbols, bind_run hfilter]
    rfl
  · rintro p r ⟨hsource, -⟩
    simp only [hidden, hsource.eq_occurrence]

/-- What a variable is replaced by reads as its image on trees. -/
theorem replacement_returns {data : TypeData} (record : s.store.type? ty = some data)
    (kind : data.kind.shape = .var) (h : s.store.Describes pairs ρ) :
    (replacement ⟨pairs⟩ ty).Returns s (ImageOf s ty (.var ty data) ρ) := by
  have hv : s.store.Binds ty ⟨ty, data.symbol⟩ := ⟨data, record, rfl⟩
  refine .step (symbolOf_run hv) (.step (find?_run hv h) (returns_pure ⟨.refl _, ?_, ?_⟩))
  · rw [Tree.subst]
    cases hfind : Replacement.find? ρ ⟨ty, data.symbol⟩ with
    | none => exact ⟨1, .var record kind⟩
    | some => exact h.reads (List.mem_of_find?_eq_some hfind)
  · rw [Tree.changes]
    cases Replacement.find? ρ ⟨ty, data.symbol⟩ with
    | none | some => simp

end Substitution

/-! ### The type arguments of a loaded class -/

variable {start : Completer → Loader} {data : TypeData}
  {info : ClassInfo}

theorem completeLazily_run {symbol : Option SymbolId}
    (h : s.store.Loaded symbol.toList) :
    completeLazily (completeSymbol start) symbol s = .ok () s := by
  cases symbol with
  | none => rfl
  | some sym =>
    obtain ⟨d, hd, hnone⟩ := h sym List.mem_cons_self
    have hload : completeSymbol start sym s = .ok (.ok ()) s := by
      unfold completeSymbol
      rw [bind_run (symbolData_run hd), hnone]
      rfl
    exact bind_run hload

theorem Slot.current_run {β : Type} (slot : Slot β) (record : s.store.type? ty = some data)
    (kind : data.kind = .classType info) : slot.current ty s = .ok (slot.read info) s := by
  unfold Slot.current
  rw [bind_run (kindOf_run record), kind]
  rfl

theorem isCompleting_run {symbol : Option SymbolId} (h : ∀ sym ∈ symbol, ∃ y, s.store.symbol? sym = some y) :
    ∃ b, isCompleting symbol s = .ok b s := by
  cases symbol with
  | none => exact ⟨false, rfl⟩
  | some sym =>
    obtain ⟨y, hy⟩ := h sym rfl
    exact ⟨y.completing, bind_run (symbolData_run hy)⟩

theorem Store.Loaded.known {s : Store} {symbol : Option SymbolId} (h : s.Loaded symbol.toList) :
    ∀ sym ∈ symbol, ∃ y, s.symbol? sym = some y :=
  fun sym hsym => (h sym (Option.mem_toList.2 hsym)).imp fun _ => And.left

/-- The store has only grown, and by no type: at most the missing type arguments of classes were
settled. -/
structure Store.Settles (s s' : Store) : Prop extends Store.Grows s s' where
  size : s'.types.size = s.types.size

theorem Store.Settles.refl (s : Store) : s.Settles s := ⟨.refl s, rfl⟩

/-- Settling missing type arguments as empty adds no type. -/
theorem Store.settles_fill {s : Store} (record : s.type? ty = some data)
    (kind : data.kind = .classType info) (unset : info.typeArgs = none) :
    s.Settles (s.updateType ty fun d => { d with kind := d.kind.mapClass (Slot.typeArgs.write []) }) where
  types a d ha := by
    rw [type?_updateType]
    by_cases heq : ty = a
    · obtain rfl := heq
      obtain rfl := Option.mem_unique record ha
      refine ⟨_, by rw [if_pos rfl, ha, Option.map_some], ?_⟩
      rw [kind]
      exact .emptied kind unset
    · exact ⟨d, by rw [if_neg heq, ha], .same d⟩
  symbols _ := rfl
  size := by simp [Store.updateType]

/-- A class that has its type arguments, or is loaded, answers with them; if it never got any, there
are none. -/
theorem declaredTypeArgs_returns (start : Completer → Loader)
    (record : s.store.type? ty = some data) (kind : data.kind = .classType info)
    (h : info.typeArgs = none → s.store.Loaded data.symbol.toList) :
    (declaredList (completeSymbol start) .typeArgs ty data.symbol).Returns s fun args s' =>
      args = info.typeArgs.getD [] ∧ s.store.Settles s'.store := by
  have hcurrent := Slot.current_run Slot.typeArgs record kind
  refine .step hcurrent ?_
  cases hargs : Slot.typeArgs.read info with
  | some args =>
    have hargs : info.typeArgs = some args := hargs
    exact returns_pure ⟨by rw [hargs]; rfl, .refl _⟩
  | none =>
    have hargs' : info.typeArgs = none := hargs
    rw [hargs']
    rw [hargs] at hcurrent
    obtain ⟨b, hb⟩ := isCompleting_run (h hargs').known
    refine .step (completeLazily_run (h hargs')) (.step hcurrent (.step hb ?_))
    cases b with
    | true => exact returns_pure ⟨rfl, .refl _⟩
    | false =>
      exact ⟨[], _, rfl, rfl, Store.settles_fill record kind hargs'⟩

/-- The question for the type arguments of a type, asked about a loaded class. -/
theorem typeArguments_returns (start : Completer → Loader)
    (d : Nat) (record : s.store.type? ty = some data)
    (kind : data.kind = .classType info)
    (h : s.store.Loaded data.symbol.toList) :
    (typeArguments (completeSymbol start) (d + 1) ty).Returns s fun args s' =>
      args = info.typeArgs.getD [] ∧ s.store.Settles s'.store := by
  refine .step (typeData_run record) ?_
  rw [kind]
  exact declaredTypeArgs_returns start record kind fun _ => h

end RegionTypes

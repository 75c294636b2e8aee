import RegionTypes.Proofs.Store.FreeVariables
import RegionTypes.Proofs.Store.SubstitutionRefinement
import RegionTypes.Proofs.Store.Visits

/-!
# Mapping preserves identity

Callers compare handles to find out whether a mapping changed a type.  So a type must come back under
its own handle if nothing in it changed, and under a new one if something did.

* `Store.Ready` — a type whose classes are all loaded; its components are ready, too.
* `Visits.follows` — what going through the components of a ready type does to the store follows from
  what the mapping does to it.
* `substitute_cases` — substitution returns a type as it is, replaces a variable or maps a type.
* `substitute_settles` — **substitution that returns the type it was given adds no type**, by
  induction on the depth.
* `substitute_new` — any other result is new, unless a variable was replaced.
* `mapping_identity_exact` — **identity of handles tells exactly whether something changed**, for all
  mappings and for substitution.
-/

namespace RegionTypes

open Run

variable {s s' : Session} {ty image : TypeId} {t : Tree} {pairs : List (TypeId × TypeId)}
  {ρ : List Replacement} {start : Completer → Loader}
  {data : TypeData} {types images : List TypeId} {d n : Nat}

instance : IsPreorder Store Store.Grows where
  refl := .refl
  trans _ _ _ := .trans

instance : IsPreorder Store Store.Settles where
  refl := .refl
  trans _ _ _ h h' := ⟨h.toGrows.trans h'.toGrows, h'.size.trans h.size⟩

/-! ### Ready types -/

namespace Store

variable {s s' : Store}

/-- The type reads as a tree of at most the given depth, and the classes in it are loaded. -/
def Ready (s : Store) (n : Nat) (ty : TypeId) : Prop := ∃ t, s.ReadsIn n ty t ∧ s.Loaded t.classes

theorem Ready.grows (hgrows : s.Grows s') (h : s.Ready n ty) : s'.Ready n ty := by
  obtain ⟨t, hread, hloaded⟩ := h
  exact ⟨t, hread.grows hgrows, hloaded.grows hgrows⟩

theorem ready_of_mem {ts : List Tree} (h : List.Forall₂ (s.ReadsIn n) types ts)
    (hloaded : s.Loaded (Tree.classesAll ts)) : ∀ c ∈ types, s.Ready n c := by
  induction h with
  | nil => exact nofun
  | cons hread _ ih =>
    obtain ⟨hhead, htail⟩ := List.forall_mem_append.1 hloaded
    exact List.forall_mem_cons.2 ⟨⟨_, hread, hhead⟩, ih htail⟩

theorem Ready.component {k : Kind} (h : s.Ready (n + 1) ty) (record : s.type? ty = some data)
    (kind : data.kind = k) : ∀ c ∈ k.components, s.Ready n c := by
  obtain ⟨t, hread, hloaded⟩ := h
  subst kind
  cases hread with
  | leaf record' kind =>
    obtain rfl := Option.mem_unique record record'
    rw [Kind.components_of_shape (.inl kind)]
    exact nofun
  | var record' kind =>
    obtain rfl := Option.mem_unique record record'
    rw [Kind.components_of_shape (.inr kind)]
    exact nofun
  | classType record' kind encloses takes =>
    obtain rfl := Option.mem_unique record record'
    obtain ⟨hloaded, hargs⟩ := List.forall_mem_append.1 hloaded
    obtain ⟨-, houter⟩ := List.forall_mem_append.1 hloaded
    rw [kind]
    exact List.forall_mem_cons.2 ⟨⟨_, encloses, houter⟩, ready_of_mem takes hargs⟩
  | method record' takes gives throws =>
    obtain rfl := Option.mem_unique record record'
    obtain ⟨hloaded, hthrown⟩ := List.forall_mem_append.1 hloaded
    obtain ⟨hparams, hresult⟩ := List.forall_mem_append.1 hloaded
    exact List.forall_mem_append.2 ⟨ready_of_mem takes hparams,
      List.forall_mem_cons.2 ⟨⟨_, gives, hresult⟩, ready_of_mem throws hthrown⟩⟩
  | array record' holds | forAll record' _ holds | wildcard record' holds =>
    obtain rfl := Option.mem_unique record record'
    exact List.forall_mem_singleton.2 ⟨_, holds, hloaded⟩

theorem Ready.loaded {info : ClassInfo} (h : s.Ready (n + 1) ty) (record : s.type? ty = some data)
    (kind : data.kind = .classType info) : s.Loaded data.symbol.toList := by
  obtain ⟨t, hread, hloaded⟩ := h
  have hshape := Node.shape hread record
  rw [kind] at hshape
  cases hread with
  | classType record' =>
    obtain rfl := Option.mem_unique record record'
    exact (List.forall_mem_append.1 (List.forall_mem_append.1 hloaded).1).1
  | _ => cases hshape

end Store

/-! ### Going through the components of a ready type -/

theorem thrownTypes_run {info : MethodInfo} (record : s.store.type? ty = some data)
    (kind : data.kind = .method info) : thrownTypes (d + 1) ty s = .ok info.thrown s := by
  unfold thrownTypes followed
  rw [bind_run (kindOf_run record), kind]
  rfl

/-- **Going through the components takes the store along a relation** if the mapping does, for each of
the components at whatever point of the run.  The relation allows for type arguments to be settled. -/
theorem Visits.follows {R : Store → Store → Prop} [IsPreorder Store R] {g : TypeId → Run TypeId}
    (hsettles : ∀ r r', Store.Settles r r' → R r r') (hgrows : ∀ r r', R r r' → Store.Grows r r')
    (hty : s.store.Ready (n + 1) ty)
    (hg : ∀ p ∈ types.zip images, ∀ r r' : Session, s.store.Grows r.store → s.store.Ready n p.1 →
      g p.1 r = .ok p.2 r' → R r.store r'.store)
    (h : Visits (completeSymbol start) (d + 1) (stateless g) ty () s types images () s') :
    R s.store s'.store := by
  have hcalls {types' images' : List TypeId} {r r' : Session} (hr : R s.store r.store)
      (hsub : types'.zip images' ⊆ types.zip images) (hready : ∀ c ∈ types', s.store.Ready n c)
      (h : (stateless g).InTurn types' images' () r () r') : R s.store r'.store := by
    refine trans_of R hr (h.along fun p hp v a v' a' ha hrun => ?_)
    exact hg p (hsub hp) a a' (hgrows _ _ (trans_of R hr ha)) (hready p.1 (List.of_mem_zip hp).1)
      (stateT_lift_eq_ok_iff.1 hrun).2
  have hrefl := refl_of R s.store
  cases h with
  | leaf => exact hrefl
  | classType record kind answer calls =>
    obtain ⟨houter, hargs⟩ := List.forall_mem_cons.1 (hty.component record kind)
    obtain ⟨args, s₁, hask, rfl, hset⟩ :=
      typeArguments_returns start d record kind (hty.loaded record kind)
    obtain ⟨rfl, rfl⟩ := EStateM.Result.ok.inj (hask.symm.trans answer)
    refine hcalls (hsettles _ _ hset) (List.Subset.refl _) ?_ calls
    exact List.forall_mem_cons.2 ⟨houter, fun c hc => hargs c (List.mem_reverse.1 hc)⟩
  | @method _ info thrown front back _ _ s₁ _ record kind calls answer calls' =>
    obtain ⟨hparams, hrest⟩ := List.forall_mem_append.1 (hty.component record kind)
    obtain ⟨hresult, hthrown⟩ := List.forall_mem_cons.1 hrest
    rw [List.zip_append calls.length_eq.symm] at hcalls
    have hfront : R s.store s₁.store := by
      refine hcalls hrefl (List.subset_append_left _ _) ?_ calls
      exact List.forall_mem_append.2 ⟨fun c hc => hparams c (List.mem_reverse.1 hc),
        List.forall_mem_singleton.2 hresult⟩
    have record₁ := (hgrows _ _ hfront).record record (by rw [kind]; nofun)
    obtain rfl := (EStateM.Result.ok.inj (answer.symm.trans (thrownTypes_run record₁ kind))).1
    exact hcalls hfront (List.subset_append_right _ _)
      (fun c hc => hthrown c (List.mem_reverse.1 hc)) calls'
  | array record kind calls | forAll record kind calls | wildcard record kind calls =>
    exact hcalls hrefl (List.Subset.refl _) (hty.component record kind) calls

/-! ### Substitution -/

theorem Store.ReadsIn.exists_binds {s : Store} {info : ForAllInfo} (h : s.ReadsIn (n + 1) ty t)
    (record : s.type? ty = some data) (kind : data.kind = .forAll info) :
    ∃ vars, List.Forall₂ s.Binds info.typeVars vars := by
  have hshape := Node.shape h record
  rw [kind] at hshape
  cases h with
  | forAll record' binds =>
    obtain rfl := Option.mem_unique record record'
    obtain rfl := Kind.forAll.inj kind
    exact ⟨_, binds⟩
  | _ => cases hshape

theorem Substitution.eq_of_replacement (record : s.store.type? ty = some data)
    (hdesc : s.store.Describes pairs ρ) (h : replacement ⟨pairs⟩ ty s = .ok image s') : s' = s := by
  have hv : s.store.Binds ty ⟨ty, data.symbol⟩ := ⟨data, record, rfl⟩
  unfold replacement at h
  rw [bind_run (symbolOf_run hv), bind_run (find?_run hv hdesc)] at h
  exact (EStateM.Result.ok.inj h).2.symm

/-- **What substitution does with a type**: nothing, or it replaces a variable, or it maps the type
with some of the pairs. -/
theorem substitute_cases {load : Loader} (hdesc : s.store.Describes pairs ρ)
    (hread : s.store.ReadsIn (n + 1) ty t)
    (h : substitute load (d + 1) ⟨pairs⟩ ty s = .ok image s') :
    (s' = s ∧ (image = ty ∨ s.store.IsVariable ty)) ∨
      ∃ pairs' ρ', s.store.Describes pairs' ρ' ∧
        (mapType load (d + 1) (stateless (substitute load d ⟨pairs'⟩)) ty).run () s =
          .ok (image, ()) s' := by
  have hmapped {pairs'} {ρ'} (hdesc' : s.store.Describes pairs' ρ')
      (hrun : (mapType load (d + 1) (stateless (substitute load d ⟨pairs'⟩)) ty).run' () s =
        .ok image s') : ∃ pairs' ρ', s.store.Describes pairs' ρ' ∧
        (mapType load (d + 1) (stateless (substitute load d ⟨pairs'⟩)) ty).run () s =
          .ok (image, ()) s' := by
    obtain ⟨_, hrun'⟩ := stateT_run'_eq_ok_iff.1 hrun
    exact ⟨pairs', ρ', hdesc', hrun'⟩
  have hkept (hrun : (pure ty : Run TypeId) s = .ok image s') :
      s' = s ∧ (image = ty ∨ s.store.IsVariable ty) := by
    obtain ⟨rfl, rfl⟩ := EStateM.Result.ok.inj hrun
    exact ⟨rfl, .inl rfl⟩
  obtain ⟨data, record, -⟩ := Store.Node.exists_record hread
  unfold substitute at h
  split at h
  · exact .inl (hkept h)
  · rw [bind_run (kindOf_run record)] at h
    cases hkind : data.kind with
    | typeVar | captured =>
      rw [hkind] at h
      have hvar : s.store.IsVariable ty := ⟨data, record, by rw [hkind]; rfl⟩
      exact .inl ⟨Substitution.eq_of_replacement record hdesc h, .inr hvar⟩
    | forAll =>
      rw [hkind] at h
      obtain ⟨vars, binds⟩ := hread.exists_binds record hkind
      obtain ⟨inner, hwithout, hinner⟩ := Substitution.without_run binds hdesc
      replace h := (bind_run hwithout).symm.trans h
      split at h
      · exact .inl (hkept h)
      · exact .inr (hmapped hinner h)
    | _ =>
      rw [hkind] at h
      exact .inr (hmapped hdesc h)

theorem substitute_grows {depth : Nat} (hdepth : n ≤ depth) (hdesc : s.store.Describes pairs ρ)
    (hty : s.store.Ready n ty)
    (h : substitute (completeSymbol start) depth ⟨pairs⟩ ty s = .ok image s') :
    s.store.Grows s'.store := by
  obtain ⟨t, hread, hloaded⟩ := hty
  obtain ⟨_, _, hrun, himage⟩ := substitute_computes n hdepth hdesc s ty t (.refl _) hread hloaded
  obtain ⟨rfl, rfl⟩ := EStateM.Result.ok.inj (hrun.symm.trans h)
  exact himage.grows

theorem Visits.substitute_grows (hdepth : n ≤ d) (hdesc : s.store.Describes pairs ρ)
    (hty : s.store.Ready (n + 1) ty)
    (h : Visits (completeSymbol start) (d + 1)
      (stateless (substitute (completeSymbol start) d ⟨pairs⟩)) ty () s types images () s') :
    s.store.Grows s'.store :=
  h.follows (fun _ _ hr => hr.toGrows) (fun _ _ hr => hr) hty fun _ _ _ _ hr hready hrun =>
    RegionTypes.substitute_grows hdepth (hdesc.grows hr) (hready.grows hr) hrun

/-- **A result other than the type itself is new**, unless a variable was replaced. -/
theorem substitute_new {depth : Nat} (hdepth : n ≤ depth) (hdesc : s.store.Describes pairs ρ)
    (hread : s.store.ReadsIn n ty t) (hloaded : s.store.Loaded t.classes)
    (h : substitute (completeSymbol start) depth ⟨pairs⟩ ty s = .ok image s') (hne : image ≠ ty)
    (hvar : ¬ s.store.IsVariable ty) : ¬ s.store.Has image := by
  cases n with
  | zero => exact hread.elim
  | succ =>
    obtain ⟨d, rfl⟩ : ∃ d, depth = d + 1 := ⟨depth - 1, by omega⟩
    rcases substitute_cases hdesc hread h with ⟨-, heq | hvar'⟩ | ⟨pairs', ρ', hdesc', hrun⟩
    · exact absurd heq hne
    · exact absurd hvar' hvar
    · obtain ⟨types, images, r, hvisits, hend⟩ := exists_visits_of_mapType hrun
      have hgrows := hvisits.substitute_grows (Nat.le_of_succ_le_succ hdepth) hdesc'
        ⟨t, hread, hloaded⟩
      exact fun hhas => hend.new hne (hgrows.has hhas)

/-- **Substitution that returns the type it was given adds no type.**  The induction is on the depth of
the type: if the type is kept, all components were returned as they are. -/
theorem substitute_settles (n : Nat) : ∀ {depth : Nat} {pairs ρ} {s s' : Session} {ty : TypeId},
    n ≤ depth → s.store.Describes pairs ρ → s.store.Ready n ty →
      substitute (completeSymbol start) depth ⟨pairs⟩ ty s = .ok ty s' →
        s.store.Settles s'.store := by
  induction n with
  | zero =>
    intro _ _ _ _ _ _ _ _ hty
    obtain ⟨_, hread, -⟩ := hty
    exact hread.elim
  | succ n ih =>
    intro depth pairs ρ s s' ty hdepth hdesc hty h
    obtain ⟨d, rfl⟩ : ∃ d, depth = d + 1 := ⟨depth - 1, by omega⟩
    have hdepth := Nat.le_of_succ_le_succ hdepth
    have ⟨t, hread, _⟩ := hty
    rcases substitute_cases hdesc hread h with ⟨rfl, -⟩ | ⟨pairs', ρ', hdesc', hrun⟩
    · exact .refl _
    · obtain ⟨types, images, r, hvisits, hend⟩ := exists_visits_of_mapType hrun
      have hgrows := hvisits.substitute_grows hdepth hdesc' hty
      obtain ⟨rfl, rfl⟩ := hend.eq_of_eq (hgrows.has hvisits.has) rfl
      refine hvisits.follows (fun _ _ hr => hr) (fun _ _ hr => hr.toGrows) hty ?_
      intro p hp r r' hr hready hcall
      have hsame : p.2 = p.1 := by
        rw [List.zip, List.zipWith_self] at hp
        obtain ⟨a, -, rfl⟩ := List.mem_map.1 hp
        rfl
      rw [hsame] at hcall
      exact ih hdepth (hdesc'.grows hr) (hready.grows hr) hcall

/-! ### Identity -/

/-- The end of mapping a type in a store that has only got more types. -/
theorem Concludes.identity {r : Session} (h : Concludes ty types images r image s')
    (hty : s.store.Has ty) (hexpands : s.store.Expands r.store) :
    (image = ty ↔ images = types) ∧ (image ≠ ty → ¬ s.store.Has image) :=
  ⟨h.eq_iff (hexpands.has hty), fun hne hhas => h.new hne (hexpands.has hhas)⟩

/-- **Mapping preserves identity exactly.**  For a mapping that may keep a state and add to the store,
mapping a type returns the type itself exactly if the mapping returned all immediate components it was
applied to, and otherwise a type that is new; types without components and variables are returned
without a call of the mapping, which may do anything.

Substitution in an acyclic store with no completer pending returns a type itself exactly if all pairs
for free variables of the type replace them by themselves.  It then adds no type, and otherwise returns
a new one, unless the type is a variable. -/
theorem mapping_identity_exact :
    (∀ {σ : Type} (load : Loader) (depth : Nat) (f : Mapping σ) (ty : TypeId) (u : σ) (s : Session),
      (∀ sym, Along Store.Expands (load sym)) → (∀ a, AlongState Store.Expands (f a)) →
        (∀ types images u' r, Visits load depth f ty u s types images u' r →
          (∀ b ∈ images, r.store.Has b) →
            ∃ image s', (mapType load depth f ty).run u s = .ok (image, u') s' ∧
              (image = ty ↔ images = types) ∧ (image ≠ ty → ¬ s.store.Has image)) ∧
        ∀ image u' s', (mapType load depth f ty).run u s = .ok (image, u') s' →
          ∃ types images r, Visits load depth f ty u s types images u' r ∧
            (image = ty ↔ images = types) ∧ (image ≠ ty → ¬ s.store.Has image)) ∧
    (∀ {σ : Type} (load : Loader) (depth : Nat) (f : Mapping σ) (ty : TypeId) (u : σ) (s : Session)
      (data : TypeData), s.store.type? ty = some data →
        data.kind.shape = .leaf ∨ data.kind.shape = .var →
          (mapType load depth f ty).run u s = .ok (ty, u) s) ∧
    ∀ (start : Completer → SymbolId → Run (Except CompletionError Unit)) (s : Session) (ty : TypeId)
      (sources targets : List TypeId) (depth : Nat), s.store.WellFormed → s.store.Acyclic →
        s.store.Has ty → (∀ p ∈ sources.zip targets, s.store.Has p.1 ∧ s.store.Has p.2) →
          s.store.NonePending ty → s.store.types.size ≤ depth →
            (substitute (completeSymbol start) depth (.ofLists sources targets) ty).Returns s
              fun image s' => (image = ty ↔ s.store.Fixes (sources.zip targets) ty) ∧
                (image = ty → s'.store.types.size = s.store.types.size) ∧
                (image ≠ ty → ¬ s.store.IsVariable ty → ¬ s.store.Has image) := by
  refine ⟨?_, ?_, ?_⟩
  · intro σ load depth f ty u s hload hf
    constructor
    · intro types images u' r hvisits himages
      have hexpands := hvisits.expands hload hf
      obtain ⟨image, s', hrun, hend⟩ := hvisits.mapType_returns (hexpands.has hvisits.has) himages
      exact ⟨image, s', hrun, hend.identity hvisits.has hexpands⟩
    · intro image u' s' hrun
      obtain ⟨types, images, r, hvisits, hend⟩ := exists_visits_of_mapType hrun
      exact ⟨types, images, r, hvisits, hend.identity hvisits.has (hvisits.expands hload hf)⟩
  · intro σ load depth f ty u s data record kind
    have hvisits : Visits load depth f ty u s [] [] u s := .leaf record kind
    obtain ⟨image, s', hrun, hend⟩ := hvisits.mapType_returns hvisits.has nofun
    cases hend with
    | kept => exact hrun
    | rebuilt hne => exact absurd rfl hne
  · intro start s ty sources targets depth hwf hac hty hpairs hpending hdepth
    obtain ⟨t, hread⟩ := hwf.exists_readsIn_size hac hty
    obtain ⟨ρ, hdesc⟩ := hwf.exists_describes hac hpairs
    have hloaded := hpending.loaded hwf _ ty t hread
    obtain ⟨image, s', hrun, himage⟩ :=
      substitute_computes _ hdepth hdesc s ty t (.refl _) hread hloaded
    refine ⟨image, s', hrun, ?_, ?_, substitute_new hdepth hdesc hread hloaded hrun⟩
    · rw [himage.same, Store.ReadsIn.changes_eq_false_iff _ hread hdesc]
    · intro heq
      subst heq
      exact (substitute_settles _ hdepth hdesc ⟨t, hread, hloaded⟩ hrun).size

/-- The loader that runs the completers of the store never removes anything. -/
theorem completerLoader_expands (depth : Nat) : (completerLoader depth).Follows Store.Expands :=
  completerLoader_follows (fun _ _ h => h.evolves.precedes.expands)
    (perform_along (fun _ _ h => h.evolves.precedes.expands) depth)

/-- With `U` replaced by `T` in a table, mapping the array of `U` gives a new type and mapping `U`
itself gives `U`.  Below the quantifier over `T` a substitution for `T` leaves the method type alone
and adds nothing, while one for `U` makes a new type. -/
theorem mapping_identity_exact_box :
    let s := Session.ofStore boxStore
    let f : Mapping (List TypeId) := Table.apply (completerLoader 1) ⟨[(⟨13⟩, ⟨12⟩)], false⟩ 1
    let load := completeSymbol fun _ _ => pure (.ok ())
    (boxStore.WellFormed ∧ boxStore.Acyclic ∧ boxStore.NonePending ⟨19⟩) ∧
      (∃ image u' s', (mapType (completerLoader 1) 1 f ⟨17⟩).run [] s = .ok (image, u') s' ∧
        image ≠ ⟨17⟩ ∧ ¬ boxStore.Has image) ∧
      (mapType (completerLoader 1) 1 f ⟨13⟩).run [] s = .ok (⟨13⟩, []) s ∧
      (substitute load 20 (.ofLists [⟨12⟩] [⟨3⟩]) ⟨19⟩).Returns s
        (fun image s' => image = ⟨19⟩ ∧ s'.store.types.size = 20) ∧
      (substitute load 20 (.ofLists [⟨12⟩, ⟨13⟩] [⟨3⟩, ⟨15⟩]) ⟨19⟩).Returns s
        fun image _ => image ≠ ⟨19⟩ ∧ ¬ boxStore.Has image := by
  intro s f load
  have hwf : boxStore.WellFormed := by decide
  have hac : boxStore.Acyclic := Store.Layered.acyclic (by decide)
  have hpending : boxStore.NonePending ⟨19⟩ := Store.nonePending_of_symbols (by decide)
  obtain ⟨hmap, hleaf, hsubst⟩ := mapping_identity_exact
  have hload := completerLoader_expands 1
  refine ⟨⟨hwf, hac, hpending⟩, ?_, ?_, ?_, ?_⟩
  · have hcall : f.InTurn [⟨13⟩] [⟨12⟩] [] s [⟨13⟩] s := .cons rfl (.nil _ _)
    obtain ⟨image, s', hrun, hsame, hnew⟩ :=
      (hmap (completerLoader 1) 1 f ⟨17⟩ [] s hload.load (apply_along hload _ 1)).1 _ _ _ _
        (.array rfl rfl hcall) (by decide)
    have hne : image ≠ ⟨17⟩ := fun heq => absurd (hsame.1 heq) (by decide)
    exact ⟨image, _, s', hrun, hne, hnew hne⟩
  · exact hleaf _ _ _ _ _ _ _ rfl (.inr rfl)
  · obtain ⟨image, s', hrun, hsame, hsize, -⟩ := hsubst (fun _ _ => pure (.ok ())) s ⟨19⟩ [⟨12⟩] [⟨3⟩]
      20 hwf hac (by decide) (by decide) hpending (by decide)
    have hfixes : boxStore.Fixes [(⟨12⟩, ⟨3⟩)] ⟨19⟩ := by
      refine (Store.fixes_iff rfl (by decide)).2 (List.forall_mem_singleton.2 ?_)
      intro v _ p hp
      cases hp
    have heq := hsame.2 hfixes
    exact ⟨image, s', hrun, heq, hsize heq⟩
  · obtain ⟨image, s', hrun, hsame, -, hnew⟩ := hsubst (fun _ _ => pure (.ok ())) s ⟨19⟩
      [⟨12⟩, ⟨13⟩] [⟨3⟩, ⟨15⟩] 20 hwf hac (by decide) (by decide) hpending (by decide)
    have hfree : boxStore.FreeIn ⟨13⟩ ⟨19⟩ := by
      have harray : boxStore.FreeIn ⟨13⟩ ⟨17⟩ :=
        .component rfl List.mem_cons_self nofun (.self ⟨_, rfl, rfl⟩)
      have hmethod : boxStore.FreeIn ⟨13⟩ ⟨18⟩ :=
        .component rfl (List.mem_cons_of_mem _ List.mem_cons_self) nofun harray
      exact .component rfl List.mem_cons_self (by decide) hmethod
    have hne : image ≠ ⟨19⟩ := fun heq =>
      absurd (hsame.1 heq ⟨13⟩ hfree (⟨13⟩, ⟨15⟩) (by decide)) (by decide)
    have hvar : ¬ boxStore.IsVariable ⟨19⟩ := by
      rintro ⟨data, record, kind⟩
      obtain rfl := Option.some.inj record
      cases kind
    exact ⟨image, s', hrun, hne, hnew hne hvar⟩

end RegionTypes

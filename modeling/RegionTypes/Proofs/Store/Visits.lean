import RegionTypes.Proofs.Store.Consistent
import RegionTypes.Proofs.Store.Evolution
import RegionTypes.Proofs.Store.Tree

/-!
# How a mapping goes through a type

Mapping a type applies the mapping to the immediate components of the type, one after the other, and
then either keeps the type or makes another one.  The mapping may do anything to the session on the
way, and the later components are read when their turn comes.

* `Mapping.InTurn` — a mapping is applied to the types of a list in turn, each time where the time
  before has led.
* `mapEach_eq_ok_iff` — going through a list is applying the mapping to its elements, the last first.
* `Visits` — **the components that a mapping is applied to**, a rule for each kind of type, with what
  the mapping has returned for them.
* `Concludes` — the type is kept if all of them came back unchanged, and another one is made if not.
* `Visits.mapType_returns`, `exists_visits_of_mapType` — mapping a type visits its components and
  concludes so, and does nothing else.
-/

namespace RegionTypes

open Run

variable {σ α β : Type} {s s' : Session} {u u' : σ} {ty image : TypeId} {f : Mapping σ}
  {types images : List TypeId} {load : Loader} {depth : Nat} {a : α}

/-! ### Computations that return -/

theorem Run.bind_eq_ok_iff {action : Run α} {next : α → Run β} {b : β} :
    (action >>= next) s = .ok b s' ↔ ∃ a t, action s = .ok a t ∧ next a t = .ok b s' :=
  ⟨exists_of_bind, fun ⟨_, _, hfirst, hsecond⟩ => (bind_run hfirst).trans hsecond⟩

theorem stateT_bind_eq_ok_iff {action : StateT σ Run α} {next : α → StateT σ Run β} {r : β × σ} :
    (action >>= next).run u s = .ok r s' ↔
      ∃ a v t, action.run u s = .ok (a, v) t ∧ (next a).run v t = .ok r s' := by
  show (action.run u >>= fun p => (next p.1).run p.2) s = .ok r s' ↔ _
  rw [bind_eq_ok_iff]
  exact ⟨fun ⟨p, t, h⟩ => ⟨p.1, p.2, t, h⟩, fun ⟨a, v, t, h⟩ => ⟨(a, v), t, h⟩⟩

theorem stateT_pure_eq_ok_iff {b : α} :
    (pure a : StateT σ Run α).run u s = .ok (b, u') s' ↔ b = a ∧ u' = u ∧ s' = s := by
  show EStateM.Result.ok (a, u) s = .ok (b, u') s' ↔ _
  rw [EStateM.Result.ok.injEq, Prod.mk.injEq, and_assoc]
  constructor <;> rintro ⟨rfl, rfl, rfl⟩ <;> exact ⟨rfl, rfl, rfl⟩

/-- A computation on the session leaves the mapping's own state alone. -/
theorem stateT_lift_eq_ok_iff {action : Run α} :
    (liftM action : StateT σ Run α).run u s = .ok (a, u') s' ↔ u' = u ∧ action s = .ok a s' := by
  show (action >>= fun b => pure (b, u)) s = .ok (a, u') s' ↔ _
  rw [bind_eq_ok_iff]
  constructor
  · rintro ⟨b, t, hrun, hpure⟩
    obtain ⟨⟨rfl, rfl⟩, rfl⟩ := EStateM.Result.ok.inj hpure
    exact ⟨rfl, hrun⟩
  · rintro ⟨rfl, hrun⟩
    exact ⟨a, s', hrun, rfl⟩

theorem stateT_run'_eq_ok_iff {action : StateT σ Run α} :
    action.run' u s = .ok a s' ↔ ∃ v, action.run u s = .ok (a, v) s' := by
  show (action.run u >>= fun p => pure p.1) s = .ok a s' ↔ _
  rw [bind_eq_ok_iff]
  constructor
  · rintro ⟨⟨b, v⟩, t, hrun, hpure⟩
    obtain ⟨rfl, rfl⟩ := EStateM.Result.ok.inj hpure
    exact ⟨v, hrun⟩
  · rintro ⟨v, hrun⟩
    exact ⟨(a, v), s', hrun, rfl⟩

/-! ### Lists -/

/-- The mapping is applied to the types of the first list in turn and returns those of the second. -/
inductive Mapping.InTurn (f : Mapping σ) :
    List TypeId → List TypeId → σ → Session → σ → Session → Prop
  | nil (u : σ) (s : Session) : InTurn f [] [] u s u s
  | cons {a b : TypeId} {types images : List TypeId} {u v u' : σ} {s t s' : Session}
      (call : (f a).run u s = .ok (b, v) t) (rest : InTurn f types images v t u' s') :
    InTurn f (a :: types) (b :: images) u s u' s'

namespace Mapping.InTurn

theorem singleton_iff :
    f.InTurn [ty] images u s u' s' ↔
      ∃ image, images = [image] ∧ (f ty).run u s = .ok (image, u') s' := by
  constructor
  · rintro (_ | ⟨call, rest⟩)
    cases rest
    exact ⟨_, rfl, call⟩
  · rintro ⟨image, rfl, call⟩
    exact .cons call (.nil u' s')

theorem append {types' images' : List TypeId} {v : σ} {t : Session}
    (h : f.InTurn types images u s v t) (h' : f.InTurn types' images' v t u' s') :
    f.InTurn (types ++ types') (images ++ images') u s u' s' := by
  induction h with
  | nil => exact h'
  | cons call _ ih => exact .cons call (ih h')

theorem split {types' : List TypeId} (h : f.InTurn (types ++ types') images u s u' s') :
    ∃ front back v t, images = front ++ back ∧ f.InTurn types front u s v t ∧
      f.InTurn types' back v t u' s' := by
  induction types generalizing images u s with
  | nil => exact ⟨[], images, u, s, rfl, .nil u s, h⟩
  | cons a types ih =>
    cases h with
    | cons call rest =>
      obtain ⟨front, back, v, t, rfl, hfront, hback⟩ := ih rest
      exact ⟨_ :: front, back, v, t, rfl, .cons call hfront, hback⟩

theorem length_eq (h : f.InTurn types images u s u' s') : images.length = types.length := by
  induction h with
  | nil => rfl
  | cons _ _ ih => rw [List.length_cons, List.length_cons, ih]

/-- The calls take the store along a relation if each of them does, at whatever point of the run. -/
theorem along {R : Store → Store → Prop} [IsPreorder Store R] (h : f.InTurn types images u s u' s')
    (hf : ∀ p ∈ types.zip images, ∀ v t v' t', R s.store t.store →
      (f p.1).run v t = .ok (p.2, v') t' → R t.store t'.store) : R s.store s'.store := by
  induction h with
  | nil _ s => exact refl_of R s.store
  | @cons a b _ _ _ _ _ s t _ call _ ih =>
    have hfirst := hf (a, b) List.mem_cons_self _ _ _ _ (refl_of R s.store) call
    exact trans_of R hfirst (ih fun p hp v r v' r' hr =>
      hf p (List.mem_cons_of_mem _ hp) v r v' r' (trans_of R hfirst hr))

end Mapping.InTurn

/-- **Going through a list** is applying the mapping to its elements in turn, the last one first. -/
theorem mapEach_eq_ok_iff :
    (mapEach f types).run u s = .ok (images, u') s' ↔
      f.InTurn types.reverse images.reverse u s u' s' := by
  induction types generalizing images u s u' s' with
  | nil =>
    rw [mapEach, stateT_pure_eq_ok_iff]
    constructor
    · rintro ⟨rfl, rfl, rfl⟩
      exact .nil u' s'
    · intro h
      have himages : images = [] := by simpa using h.length_eq
      subst himages
      cases h
      exact ⟨rfl, rfl, rfl⟩
  | cons ty rest ih =>
    rw [mapEach, stateT_bind_eq_ok_iff, List.reverse_cons]
    constructor
    · rintro ⟨later, v, t, hrest, h⟩
      obtain ⟨image, v', t', hcall, hpure⟩ := stateT_bind_eq_ok_iff.1 h
      obtain ⟨rfl, rfl, rfl⟩ := stateT_pure_eq_ok_iff.1 hpure
      rw [List.reverse_cons]
      exact (ih.1 hrest).append (Mapping.InTurn.singleton_iff.2 ⟨_, rfl, hcall⟩)
    · intro h
      obtain ⟨front, back, v, t, himages, hfront, hback⟩ := h.split
      obtain ⟨image, rfl, hcall⟩ := Mapping.InTurn.singleton_iff.1 hback
      have himages' : images = image :: front.reverse := by
        simpa using congrArg List.reverse himages
      refine ⟨front.reverse, v, t, ih.2 (by rwa [List.reverse_reverse]), ?_⟩
      exact stateT_bind_eq_ok_iff.2 ⟨image, u', s', hcall, by rw [himages']; rfl⟩

theorem mapList_eq_ok_iff {changed : Bool} :
    (mapList f types).run u s = .ok ((images, changed), u') s' ↔
      changed = (images != types) ∧ f.InTurn types.reverse images.reverse u s u' s' := by
  rw [mapList_eq, stateT_bind_eq_ok_iff]
  constructor
  · rintro ⟨found, v, t, hrun, hpure⟩
    obtain ⟨hresult, rfl, rfl⟩ := stateT_pure_eq_ok_iff.1 hpure
    obtain ⟨rfl, rfl⟩ := Prod.mk.inj hresult
    exact ⟨rfl, mapEach_eq_ok_iff.1 hrun⟩
  · rintro ⟨rfl, h⟩
    exact ⟨images, u', s', mapEach_eq_ok_iff.2 h, rfl⟩

/-- **Mapping a list.**  It returns exactly when the mapping, applied once to each element with the
last one first, returns every time; the list itself comes back exactly when no element changed.  The
call for an element starts where the calls for those behind it have led, and its result takes the
place of the element. -/
theorem mapList_from_last (f : Mapping σ) (types : List TypeId) (u : σ) (s : Session)
    (images : List TypeId) (changed : Bool) (u' : σ) (s' : Session) :
    ((mapList f types).run u s = .ok ((images, changed), u') s' ↔
        f.InTurn types.reverse images.reverse u s u' s' ∧ (changed = false ↔ images = types)) ∧
      ((mapList f types).run u s = .ok ((images, changed), u') s' →
        images.length = types.length ∧
          ∀ front ty back, types = front ++ ty :: back → ∃ front' image back' v t v' t',
            images = front' ++ image :: back' ∧ front'.length = front.length ∧
              f.InTurn back.reverse back'.reverse u s v t ∧
              (f ty).run v t = .ok (image, v') t' ∧
              f.InTurn front.reverse front'.reverse v' t' u' s') := by
  constructor
  · rw [mapList_eq_ok_iff, and_comm]
    refine and_congr_right fun _ => ?_
    cases changed <;> simp
  · intro hrun
    have hcalls := (mapList_eq_ok_iff.1 hrun).2
    refine ⟨by simpa using hcalls.length_eq, ?_⟩
    rintro front ty back rfl
    rw [List.reverse_append, List.reverse_cons, List.append_assoc] at hcalls
    obtain ⟨later, earlier, v, t, himages, hlater, hearlier⟩ := hcalls.split
    cases hearlier with
    | @cons _ image _ rest _ v' _ _ t' _ call hrest =>
      refine ⟨rest.reverse, image, later.reverse, v, t, v', t', ?_, ?_, ?_, call, ?_⟩
      · simpa using congrArg List.reverse himages
      · simpa using hrest.length_eq
      · rwa [List.reverse_reverse]
      · rwa [List.reverse_reverse]

/-- A table that widens one type.  Its state has the types it was applied to, the last call first. -/
theorem mapList_from_last_widened :
    let table : Table := ⟨[(WellKnown.int, WellKnown.long)], false⟩
    let f := table.apply (fun _ => tooDeep) 3
    let types := [WellKnown.int, WellKnown.int, WellKnown.boolean]
    let images := [WellKnown.long, WellKnown.long, WellKnown.boolean]
    (mapList f types).run [] (.initial {} .empty) =
        .ok ((images, true), types) (.initial {} .empty) ∧
      images.length = types.length := by
  intro table f types images
  have hrun : (mapList f types).run [] (.initial {} .empty) =
      .ok ((images, true), types) (.initial {} .empty) := rfl
  exact ⟨hrun, ((mapList_from_last f types [] _ images true _ _).2 hrun).1⟩

/-! ### The components of a type -/

/-- How a mapping goes through the immediate components of a type: the types it is applied to in turn
and those it returns for them.  The arguments of a class are asked for first; the types that a method
throws are read after the mapping was applied to its other components. -/
inductive Visits (load : Loader) (depth : Nat) (f : Mapping σ) (ty : TypeId) (u : σ) (s : Session) :
    List TypeId → List TypeId → σ → Session → Prop
  | leaf {data : TypeData} (record : s.store.type? ty = some data)
      (kind : data.kind.shape = .leaf ∨ data.kind.shape = .var) : Visits load depth f ty u s [] [] u s
  | classType {data : TypeData} {info : ClassInfo} {args images : List TypeId} {t s' : Session}
      {u' : σ} (record : s.store.type? ty = some data) (kind : data.kind = .classType info)
      (answer : typeArguments load depth ty s = .ok args t)
      (calls : f.InTurn (info.outer :: args.reverse) images u t u' s') :
    Visits load depth f ty u s (info.outer :: args.reverse) images u' s'
  | array {data : TypeData} {info : ArrayInfo} {images : List TypeId} {u' : σ} {s' : Session}
      (record : s.store.type? ty = some data) (kind : data.kind = .array info)
      (calls : f.InTurn [info.elem] images u s u' s') :
    Visits load depth f ty u s [info.elem] images u' s'
  | method {data : TypeData} {info : MethodInfo} {thrown front back : List TypeId} {v u' : σ}
      {t s' : Session} (record : s.store.type? ty = some data) (kind : data.kind = .method info)
      (calls : f.InTurn (info.params.reverse ++ [info.result]) front u s v t)
      (answer : thrownTypes 1 ty t = .ok thrown t)
      (calls' : f.InTurn thrown.reverse back v t u' s') :
    Visits load depth f ty u s (info.params.reverse ++ [info.result] ++ thrown.reverse)
      (front ++ back) u' s'
  | forAll {data : TypeData} {info : ForAllInfo} {images : List TypeId} {u' : σ} {s' : Session}
      (record : s.store.type? ty = some data) (kind : data.kind = .forAll info)
      (calls : f.InTurn [info.body] images u s u' s') :
    Visits load depth f ty u s [info.body] images u' s'
  | wildcard {data : TypeData} {info : WildcardInfo} {images : List TypeId} {u' : σ} {s' : Session}
      (record : s.store.type? ty = some data) (kind : data.kind = .wildcard info)
      (calls : f.InTurn [info.bound] images u s u' s') :
    Visits load depth f ty u s [info.bound] images u' s'

/-- The end of mapping a type: it is kept if its components came back unchanged, and otherwise another
type is added to the store. -/
inductive Concludes (ty : TypeId) (types images : List TypeId) (s : Session) :
    TypeId → Session → Prop
  | kept (h : images = types) : Concludes ty types images s ty s
  | rebuilt (h : images ≠ types) (data : TypeData) :
    Concludes ty types images s s.store.nextType { s with store := s.store.pushType data }

/-! ### Making another type -/

/-- If the computation returns, it has added one type to the store and returns its handle. -/
def Allocates (action : Run TypeId) : Prop :=
  ∀ s image s', action s = .ok image s' →
    ∃ data, image = s.store.nextType ∧ s' = { s with store := s.store.pushType data }

theorem allocates_pushType (data : TypeData) : Allocates (pushType data) := by
  intro s image s' h
  obtain ⟨rfl, rfl⟩ := EStateM.Result.ok.inj h
  exact ⟨data, rfl, rfl⟩

/-- What is read before leaves the session alone. -/
theorem Allocates.bind {read : Run α} {next : α → Run TypeId}
    (hread : ∀ s a s', read s = .ok a s' → s' = s) (h : ∀ a, Allocates (next a)) :
    Allocates (read >>= next) := by
  intro s image s' hrun
  obtain ⟨a, t, hfirst, hsecond⟩ := exists_of_bind hrun
  obtain rfl := hread s a t hfirst
  exact h a t image s' hsecond

theorem rebuildClass_allocates (ty : TypeId) (data : TypeData) (outer : TypeId) (args : List TypeId) :
    Allocates (rebuildClass ty data outer args) := by
  refine .bind (fun _ _ _ h => (eq_of_kindOf h).1) fun kind => ?_
  cases kind.class? with
  | none | some => exact allocates_pushType _

theorem rebuildMethod_allocates (ty : TypeId) (params : List TypeId) (result : TypeId)
    (thrown : List TypeId) : Allocates (rebuildMethod ty params result thrown) :=
  .bind (fun _ _ _ h => (eq_of_kindOf h).1) fun _ => allocates_pushType _

theorem quantify_allocates (info : ForAllInfo) : Allocates (quantify info) :=
  .bind (fun _ _ _ h => (eq_of_typeData h).1) fun _ => allocates_pushType _

theorem eq_of_wildcard? {info : Option WildcardInfo} (h : wildcard? ty s = .ok info s') : s' = s := by
  obtain ⟨kind, t, hkind, h⟩ := exists_of_bind h
  obtain ⟨rfl, -⟩ := eq_of_kindOf hkind
  cases kind <;> exact (EStateM.Result.ok.inj h).2.symm

theorem rebuildWildcard_allocates (ty bound : TypeId) (kind : BoundKind) :
    Allocates (rebuildWildcard ty bound kind) :=
  .bind (fun _ _ _ h => eq_of_wildcard? h) fun _ => allocates_pushType _

/-- It does return if the type whose data it copies belongs to the store. -/
theorem rebuildClass_returns (data : TypeData) (outer : TypeId) (args : List TypeId)
    (h : s.store.Has ty) : ∃ image s', rebuildClass ty data outer args s = .ok image s' := by
  obtain ⟨found, hfound⟩ := Store.has_iff.1 h
  unfold rebuildClass
  rw [bind_run (kindOf_run hfound)]
  cases found.kind.class? with
  | none | some => exact ⟨_, _, rfl⟩

theorem rebuildMethod_returns (params : List TypeId) (result : TypeId) (thrown : List TypeId)
    (h : s.store.Has ty) : ∃ image s', rebuildMethod ty params result thrown s = .ok image s' := by
  obtain ⟨found, hfound⟩ := Store.has_iff.1 h
  unfold rebuildMethod
  rw [bind_run (kindOf_run hfound)]
  exact ⟨_, _, rfl⟩

theorem quantify_returns {info : ForAllInfo} (h : s.store.Has info.body) :
    ∃ image s', quantify info s = .ok image s' := by
  obtain ⟨found, hfound⟩ := Store.has_iff.1 h
  unfold quantify
  rw [bind_run (typeData_run hfound)]
  exact ⟨_, _, rfl⟩

theorem rebuildWildcard_returns (bound : TypeId) (kind : BoundKind) (h : s.store.Has ty) :
    ∃ image s', rebuildWildcard ty bound kind s = .ok image s' := by
  obtain ⟨found, hfound⟩ := Store.has_iff.1 h
  unfold rebuildWildcard wildcard?
  rw [bind_assoc, bind_run (kindOf_run hfound)]
  cases found.kind <;> exact ⟨_, _, rfl⟩

/-! ### Keeping a type or making another one -/

section Conclude

variable {p : Prop} [Decidable p] {rebuild : Run TypeId}

theorem concludes_of_ok (hp : p ↔ images = types) (hrebuild : Allocates rebuild)
    (h : (if p then pure ty else liftM rebuild : StateT σ Run TypeId).run u s = .ok (image, u') s') :
    u' = u ∧ Concludes ty types images s image s' := by
  split at h
  · next hsame =>
    obtain ⟨rfl, rfl, rfl⟩ := stateT_pure_eq_ok_iff.1 h
    exact ⟨rfl, .kept (hp.1 hsame)⟩
  · next hchanged =>
    obtain ⟨rfl, hrun⟩ := stateT_lift_eq_ok_iff.1 h
    obtain ⟨data, rfl, rfl⟩ := hrebuild _ _ _ hrun
    exact ⟨rfl, .rebuilt (fun hsame => hchanged (hp.2 hsame)) data⟩

/-- The last step of mapping a type returns if making another type does. -/
theorem exists_concludes (ty : TypeId) (hp : p ↔ images = types) (hrebuild : Allocates rebuild)
    (hreturns : ∃ image s', rebuild s = .ok image s') (u : σ) :
    ∃ image s',
      (if p then pure ty else liftM rebuild : StateT σ Run TypeId).run u s = .ok (image, u) s' ∧
        Concludes ty types images s image s' := by
  have hok : ∃ image s',
      (if p then pure ty else liftM rebuild : StateT σ Run TypeId).run u s = .ok (image, u) s' := by
    obtain ⟨image, s', hrun⟩ := hreturns
    split
    · exact ⟨ty, s, rfl⟩
    · exact ⟨image, s', stateT_lift_eq_ok_iff.2 ⟨rfl, hrun⟩⟩
  obtain ⟨image, s', h⟩ := hok
  exact ⟨image, s', h, (concludes_of_ok hp hrebuild h).2⟩

end Conclude

theorem singleton_eq_iff {a b : TypeId} : b = a ↔ [b] = [a] := by simp

theorem class_unchanged_iff (outer outer' : TypeId) (args args' : List TypeId) :
    (decide (outer' = outer) && !(args' != args)) = true ↔
      outer' :: args'.reverse = outer :: args.reverse := by
  simp [List.reverse_inj]

theorem method_unchanged_iff {params params' : List TypeId} (result result' : TypeId)
    (thrown thrown' : List TypeId) (h : params'.length = params.length) :
    (!(params' != params) && decide (result' = result) && !(thrown' != thrown)) = true ↔
      params'.reverse ++ [result'] ++ thrown'.reverse =
        params.reverse ++ [result] ++ thrown.reverse := by
  rw [List.append_eq_append_iff_of_size_eq_left (by simp [h]),
    List.append_eq_append_iff_of_size_eq_left (by simp [h])]
  simp [List.reverse_inj]

theorem eq_of_thrownTypes_one {thrown : List TypeId} (h : thrownTypes 1 ty s = .ok thrown s') :
    s' = s := by
  obtain ⟨kind, t, hkind, h⟩ := exists_of_bind h
  obtain ⟨rfl, -⟩ := eq_of_kindOf hkind
  cases kind with
  | forAll | placeholder => cases h
  | _ => exact (EStateM.Result.ok.inj h).2.symm

/-- **Mapping a type visits its components**: if it returns, it has applied the mapping to them in
turn and has then kept the type or made another one. -/
theorem exists_visits_of_mapType (h : (mapType load depth f ty).run u s = .ok (image, u') s') :
    ∃ types images t, Visits load depth f ty u s types images u' t ∧
      Concludes ty types images t image s' := by
  obtain ⟨data, v, t, hread, hbody⟩ := stateT_bind_eq_ok_iff.1 h
  obtain ⟨rfl, hdata⟩ := stateT_lift_eq_ok_iff.1 hread
  obtain ⟨rfl, record⟩ := eq_of_typeData hdata
  cases hkind : data.kind with
  | classType =>
    rw [hkind] at hbody
    obtain ⟨args, v₁, t₁, hask, h₁⟩ := stateT_bind_eq_ok_iff.1 hbody
    obtain ⟨outer, v₂, t₂, houter, h₂⟩ := stateT_bind_eq_ok_iff.1 h₁
    obtain ⟨⟨images, changed⟩, v₃, t₃, hlist, h₃⟩ := stateT_bind_eq_ok_iff.1 h₂
    obtain ⟨rfl, hargs⟩ := stateT_lift_eq_ok_iff.1 hask
    obtain ⟨rfl, himages⟩ := mapList_eq_ok_iff.1 hlist
    obtain ⟨rfl, hend⟩ := concludes_of_ok (class_unchanged_iff _ _ _ _)
      (rebuildClass_allocates _ _ _ _) h₃
    exact ⟨_, _, _, .classType record hkind hargs (.cons houter himages), hend⟩
  | array =>
    rw [hkind] at hbody
    obtain ⟨elem, v₁, t₁, hcall, h₁⟩ := stateT_bind_eq_ok_iff.1 hbody
    obtain ⟨rfl, hend⟩ := concludes_of_ok singleton_eq_iff (allocates_pushType _) h₁
    exact ⟨_, _, _, .array record hkind (Mapping.InTurn.singleton_iff.2 ⟨_, rfl, hcall⟩), hend⟩
  | method info =>
    rw [hkind] at hbody
    obtain ⟨⟨params, changed⟩, v₁, t₁, hlist, h₁⟩ := stateT_bind_eq_ok_iff.1 hbody
    obtain ⟨result, v₂, t₂, hcall, h₂⟩ := stateT_bind_eq_ok_iff.1 h₁
    obtain ⟨thrown, v₃, t₃, hask, h₃⟩ := stateT_bind_eq_ok_iff.1 h₂
    obtain ⟨⟨images, changed'⟩, v₄, t₄, hlist', h₄⟩ := stateT_bind_eq_ok_iff.1 h₃
    obtain ⟨rfl, hparams⟩ := mapList_eq_ok_iff.1 hlist
    obtain ⟨rfl, hthrown⟩ := stateT_lift_eq_ok_iff.1 hask
    obtain rfl := eq_of_thrownTypes_one hthrown
    obtain ⟨rfl, himages⟩ := mapList_eq_ok_iff.1 hlist'
    have hlength : params.length = info.params.length := by simpa using hparams.length_eq
    obtain ⟨rfl, hend⟩ := concludes_of_ok (method_unchanged_iff _ _ _ _ hlength)
      (rebuildMethod_allocates _ _ _ _) h₄
    have hresult := Mapping.InTurn.singleton_iff.2 ⟨_, rfl, hcall⟩
    exact ⟨_, _, _, .method record hkind (hparams.append hresult) hthrown himages, hend⟩
  | forAll =>
    rw [hkind] at hbody
    obtain ⟨body, v₁, t₁, hcall, h₁⟩ := stateT_bind_eq_ok_iff.1 hbody
    obtain ⟨rfl, hend⟩ := concludes_of_ok singleton_eq_iff (quantify_allocates _) h₁
    exact ⟨_, _, _, .forAll record hkind (Mapping.InTurn.singleton_iff.2 ⟨_, rfl, hcall⟩), hend⟩
  | wildcard =>
    rw [hkind] at hbody
    obtain ⟨bound, v₁, t₁, hcall, h₁⟩ := stateT_bind_eq_ok_iff.1 hbody
    obtain ⟨rfl, hend⟩ := concludes_of_ok singleton_eq_iff (rebuildWildcard_allocates _ _ _) h₁
    exact ⟨_, _, _, .wildcard record hkind (Mapping.InTurn.singleton_iff.2 ⟨_, rfl, hcall⟩), hend⟩
  | _ =>
    rw [hkind] at hbody
    obtain ⟨rfl, rfl, rfl⟩ := stateT_pure_eq_ok_iff.1 hbody
    exact ⟨_, _, _, .leaf record (by rw [hkind]; simp [Kind.shape]), .kept rfl⟩

/-- **Mapping a type returns** if the mapping returns for each component, with types that belong to the
store. -/
theorem Visits.mapType_returns {t : Session} (h : Visits load depth f ty u s types images u' t)
    (hty : t.store.Has ty) (himages : ∀ b ∈ images, t.store.Has b) :
    ∃ image s', (mapType load depth f ty).run u s = .ok (image, u') s' ∧
      Concludes ty types images t image s' := by
  have hstart {data : TypeData} (record : s.store.type? ty = some data) :
      (liftM (typeData ty) : StateT σ Run TypeData).run u s = .ok (data, u) s :=
    stateT_lift_eq_ok_iff.2 ⟨rfl, typeData_run record⟩
  cases h with
  | @leaf data record kind =>
    refine ⟨ty, s, stateT_bind_eq_ok_iff.2 ⟨data, u, s, hstart record, ?_⟩, .kept rfl⟩
    cases hkind : data.kind with
    | classType | array | method | forAll | wildcard =>
      rw [hkind] at kind
      exact kind.elim nofun nofun
    | _ => rfl
  | @classType data info args _ t₀ _ _ record kind answer calls =>
    obtain _ | @⟨_, outer, _, back, _, v, _, _, t₁, _, houter, hargs⟩ := calls
    obtain ⟨images, rfl⟩ := List.reverse_surjective back
    obtain ⟨image, s', hend, hconcludes⟩ := exists_concludes ty
      (class_unchanged_iff info.outer outer args images)
      (rebuildClass_allocates ty data outer images) (rebuildClass_returns data outer images hty) u'
    refine ⟨image, s', stateT_bind_eq_ok_iff.2 ⟨_, _, _, hstart record, ?_⟩, hconcludes⟩
    rw [kind]
    refine stateT_bind_eq_ok_iff.2 ⟨args, u, t₀, stateT_lift_eq_ok_iff.2 ⟨rfl, answer⟩, ?_⟩
    refine stateT_bind_eq_ok_iff.2 ⟨outer, v, t₁, houter, ?_⟩
    exact stateT_bind_eq_ok_iff.2 ⟨(images, _), u', t, mapList_eq_ok_iff.2 ⟨rfl, hargs⟩, hend⟩
  | array record kind calls =>
    obtain ⟨elem, rfl, hcall⟩ := Mapping.InTurn.singleton_iff.1 calls
    obtain ⟨image, s', hend, hconcludes⟩ := exists_concludes ty singleton_eq_iff
      (allocates_pushType { symbol := none, kind := .array ⟨elem, Path.root, none⟩ }) ⟨_, _, rfl⟩ u'
    refine ⟨image, s', stateT_bind_eq_ok_iff.2 ⟨_, _, _, hstart record, ?_⟩, hconcludes⟩
    rw [kind]
    exact stateT_bind_eq_ok_iff.2 ⟨elem, u', t, hcall, hend⟩
  | @method data info thrown _ back v _ t₀ _ record kind calls answer calls' =>
    obtain ⟨front, single, w, t₁, rfl, hparams, hsingle⟩ := calls.split
    obtain ⟨result, rfl, hresult⟩ := Mapping.InTurn.singleton_iff.1 hsingle
    obtain ⟨params, rfl⟩ := List.reverse_surjective front
    obtain ⟨images, rfl⟩ := List.reverse_surjective back
    have hlength : params.length = info.params.length := by simpa using hparams.length_eq
    obtain ⟨image, s', hend, hconcludes⟩ := exists_concludes ty
      (method_unchanged_iff info.result result thrown images hlength)
      (rebuildMethod_allocates ty params result images) (rebuildMethod_returns params result images hty)
      u'
    refine ⟨image, s', stateT_bind_eq_ok_iff.2 ⟨_, _, _, hstart record, ?_⟩, hconcludes⟩
    rw [kind]
    refine stateT_bind_eq_ok_iff.2 ⟨(params, _), w, t₁, mapList_eq_ok_iff.2 ⟨rfl, hparams⟩, ?_⟩
    refine stateT_bind_eq_ok_iff.2 ⟨result, v, t₀, hresult, ?_⟩
    refine stateT_bind_eq_ok_iff.2 ⟨thrown, v, t₀, stateT_lift_eq_ok_iff.2 ⟨rfl, answer⟩, ?_⟩
    exact stateT_bind_eq_ok_iff.2 ⟨(images, _), u', t, mapList_eq_ok_iff.2 ⟨rfl, calls'⟩, hend⟩
  | @forAll data info _ _ _ record kind calls =>
    obtain ⟨body, rfl, hcall⟩ := Mapping.InTurn.singleton_iff.1 calls
    have hbody : t.store.Has body := himages body List.mem_cons_self
    obtain ⟨image, s', hend, hconcludes⟩ := exists_concludes ty singleton_eq_iff
      (quantify_allocates { info with body }) (quantify_returns hbody) u'
    refine ⟨image, s', stateT_bind_eq_ok_iff.2 ⟨_, _, _, hstart record, ?_⟩, hconcludes⟩
    rw [kind]
    exact stateT_bind_eq_ok_iff.2 ⟨body, u', t, hcall, hend⟩
  | @wildcard data info _ _ _ record kind calls =>
    obtain ⟨bound, rfl, hcall⟩ := Mapping.InTurn.singleton_iff.1 calls
    obtain ⟨image, s', hend, hconcludes⟩ := exists_concludes ty singleton_eq_iff
      (rebuildWildcard_allocates ty bound info.kind) (rebuildWildcard_returns bound info.kind hty) u'
    refine ⟨image, s', stateT_bind_eq_ok_iff.2 ⟨_, _, _, hstart record, ?_⟩, hconcludes⟩
    rw [kind]
    exact stateT_bind_eq_ok_iff.2 ⟨bound, u', t, hcall, hend⟩

/-! ### What exists before -/

theorem Store.Precedes.expands {s t : Store} (h : s.Precedes t) : s.Expands t where
  types := by
    by_contra hlt
    obtain ⟨data, hdata⟩ := Store.has_iff.1 (Store.has_iff_lt.2 (Nat.lt_of_not_le hlt))
    obtain ⟨data', hdata', -⟩ := h.types _ data hdata
    exact t.not_has_nextType (Store.has_iff.2 ⟨data', hdata'⟩)
  symbols := by
    by_contra hlt
    obtain ⟨y', hy', -⟩ := h.symbols t.nextSymbol _ (Array.getElem?_eq_getElem (Nat.lt_of_not_le hlt))
    exact Nat.lt_irrefl _ (Store.symbol_lt hy')

instance : IsPreorder Store Store.Expands where
  refl := .refl
  trans _ _ _ := .trans

theorem Visits.has (h : Visits load depth f ty u s types images u' s') : s.store.Has ty := by
  cases h <;> exact Store.has_iff.2 ⟨_, ‹_›⟩

theorem Visits.expands (hload : ∀ sym, Along Store.Expands (load sym))
    (hf : ∀ a, AlongState Store.Expands (f a)) (h : Visits load depth f ty u s types images u' s') :
    s.store.Expands s'.store := by
  have hcalls {types images : List TypeId} {v v' : σ} {t t' : Session}
      (h : f.InTurn types images v t v' t') : t.store.Expands t'.store :=
    h.along fun p _ v _ _ _ _ hrun => (hf p.1 v).of_ok hrun
  cases h with
  | leaf => exact .refl _
  | classType _ _ answer calls =>
    have hfollows : load.Follows Store.Expands :=
      ⟨fun s t hst => hst.evolves.precedes.expands, hload⟩
    have hasked := (typeArguments_keeps hfollows.keeps.toTied depth ty).along
    exact (hasked.of_ok answer).trans (hcalls calls)
  | method _ _ calls _ calls' => exact (hcalls calls).trans (hcalls calls')
  | array _ _ calls | forAll _ _ calls | wildcard _ _ calls => exact hcalls calls

theorem Concludes.eq_of_eq (h : Concludes ty types images s image s') (hty : s.store.Has ty)
    (heq : image = ty) : images = types ∧ s' = s := by
  cases h with
  | kept hsame => exact ⟨hsame, rfl⟩
  | rebuilt => exact absurd heq.symm (Store.ne_nextType hty)

theorem Concludes.eq_iff (h : Concludes ty types images s image s') (hty : s.store.Has ty) :
    image = ty ↔ images = types := by
  refine ⟨fun heq => (h.eq_of_eq hty heq).1, fun heq => ?_⟩
  cases h with
  | kept => rfl
  | rebuilt hne => exact absurd heq hne

theorem Concludes.new (h : Concludes ty types images s image s') (hne : image ≠ ty) :
    ¬ s.store.Has image := by
  cases h with
  | kept => exact absurd rfl hne
  | rebuilt => exact s.store.not_has_nextType

end RegionTypes

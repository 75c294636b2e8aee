import RegionTypes.Proofs.Completion.Answering
import RegionTypes.Proofs.Store.Signature

/-!
# Supertypes of class types that are rebuilt

A class type that carries a literal, or that a mapping has changed, is made anew from another class
type.  Its lists of arguments are copied, its supertypes are not, and nothing supplies them later.

* `Session.HasSupertypes` — what a class type answers about its supertypes, now and at any later time.
* `hasSupertypes_of_typeArgs` — a class type that has its type arguments answers what is recorded of it.
* `exists_rebuilt` — a class type that is made from one that has its type arguments.
* `rebuilt_without_supertypes` — **a class type that is rebuilt has no supertypes**, whatever those of
  its origin are.  So it answers as its origin does if this has none either, but not if it is the
  canonical type of a class with a superclass (`literal_of_subclass`).
-/

namespace RegionTypes

open Run

/-- In every later session, whatever is loaded there, the type answers with these supertypes; and it has
an answer unless a completer that the question starts comes to a stop. -/
structure Session.HasSupertypes (s : Session) (ty : TypeId) (super : Option TypeId)
    (implemented : List TypeId) : Prop where
  answers : ∀ n t, s.store.Later t.store →
    (supertype (completerLoader n) ty).Answers n t ∧ (interfaces (completerLoader n) ty).Answers n t
  supertype : ∀ n t answer t', s.store.Later t.store →
    RegionTypes.supertype (completerLoader n) ty t = .ok answer t' → answer = super
  interfaces : ∀ n t answer t', s.store.Later t.store →
    RegionTypes.interfaces (completerLoader n) ty t = .ok answer t' → answer = implemented

section

variable {s t : Session} {ty : TypeId} {data : TypeData} {info : ClassInfo} {n : Nat}

/-- What loading the class supplies, if the type arguments are set. -/
theorem suppliedPart_of_typeArgs {β : Type} {read : ClassInfo → Option β}
    (hread : ∀ info info' : ClassInfo, info.signature = info'.signature → read info = read info')
    (hdata : s.store.type? ty = some data) (hkind : data.kind = .classType info)
    (hsymbol : s.store.Knows data.symbol) (hargs : info.typeArgs.isSome)
    (hlater : s.store.Later t.store) :
    (suppliedPart (completerLoader n) read ty).Answers n t ∧ ∀ answer t',
      suppliedPart (completerLoader n) read ty t = .ok answer t' → answer = read info := by
  obtain ⟨data', info', hdata', hkind', hkeeps, -⟩ := hlater.classRecord hdata hkind hargs
  -- what is read in the end
  have hend : ∀ u : Session, s.store.Later u.store →
      (do return (← kindOf ty).class?.bind read : Run (Option β)) u = .ok (read info) u := by
    intro u hu
    obtain ⟨data₁, last, hdata₁, hkind₁, -, hsignature⟩ := hu.classRecord hdata hkind hargs
    rw [bind_run (kindOf_run hdata₁), hkind₁]
    exact congrArg (EStateM.Result.ok · u) (hread last info hsignature)
  have hcomplete := completeLazily_later (completerLoader_later n) data'.symbol
  unfold suppliedPart
  constructor
  · refine .step (typeData_run hdata') ?_
    rw [hkind']
    dsimp only
    split
    · refine .bind (completeLazily_answers ?_) hcomplete fun _ u _ hu => ?_
      · rw [hkeeps.symbol]
        exact hlater.precedes.knows hsymbol
      · exact answers_of_ok (hend u (hlater.trans hu))
    · exact answers_of_ok (hend t hlater)
  · intro answer t' hrun
    rw [bind_run (typeData_run hdata'), hkind'] at hrun
    dsimp only at hrun
    split at hrun
    · obtain ⟨_, u, hload, hlast⟩ := exists_of_bind hrun
      rw [hend u (hlater.trans (hcomplete.of_ok hload))] at hlast
      exact (EStateM.Result.ok.inj hlast).1.symm
    · rw [hend t hlater] at hrun
      exact (EStateM.Result.ok.inj hrun).1.symm

/-- **What is recorded is answered**, if the type arguments are set. -/
theorem hasSupertypes_of_typeArgs (hdata : s.store.type? ty = some data)
    (hkind : data.kind = .classType info) (hsymbol : s.store.Knows data.symbol)
    (hargs : info.typeArgs.isSome) : s.HasSupertypes ty info.supertype (info.interfaces.getD []) := by
  have hsupertype := fun n t => suppliedPart_of_typeArgs (n := n) (t := t)
    (fun _ _ h => (congrArg ClassInfo.supertype h :)) hdata hkind hsymbol hargs
  have hinterfaces := fun n t => suppliedPart_of_typeArgs (n := n) (t := t)
    (fun _ _ h => (congrArg ClassInfo.interfaces h :)) hdata hkind hsymbol hargs
  refine ⟨fun n t hlater => ⟨(hsupertype n t hlater).1, (hinterfaces n t hlater).1.map⟩,
    fun n t answer t' hlater hrun => (hsupertype n t hlater).2 answer t' hrun,
    fun n t answer t' hlater hrun => ?_⟩
  obtain ⟨list, u, hlist, hpure⟩ := exists_of_bind hrun
  rw [(hinterfaces n t hlater).2 list u hlist] at hpure
  exact (EStateM.Result.ok.inj hpure).1.symm

theorem Session.HasSupertypes.later {super : Option TypeId} {implemented : List TypeId}
    (h : s.HasSupertypes ty super implemented) (hlater : s.store.Later t.store) :
    t.HasSupertypes ty super implemented where
  answers n u hu := h.answers n u (hlater.trans hu)
  supertype n u answer u' hu := h.supertype n u answer u' (hlater.trans hu)
  interfaces n u answer u' hu := h.interfaces n u answer u' (hlater.trans hu)

/-- **A class type that is made from another one** has no supertypes, and the other one keeps its own. -/
theorem exists_rebuilt (data' : TypeData) (outer : TypeId) (args : List TypeId)
    (hdata : s.store.type? ty = some data) (hkind : data.kind = .classType info)
    (hsymbol : s.store.Knows data.symbol) (hargs : info.typeArgs.isSome)
    (hsame : data'.symbol = data.symbol) :
    (rebuildClass ty data' outer args).Returns s fun c s' => ¬ s.store.Has c ∧
      s'.HasSupertypes ty info.supertype (info.interfaces.getD []) ∧ s'.HasSupertypes c none [] := by
  have hinfo : s.store.class? ty = some info := Store.class?_eq_some.2 ⟨data, hdata, hkind⟩
  have hlater : s.store.Later (s.store.pushType
      { data' with kind := .classType (info.rebuilt outer args) }) :=
    .single (.routine (.allocate _ rfl))
  refine ⟨_, _, rebuildClass_run hinfo, s.store.not_has_nextType, ?_, ?_⟩
  · exact (hasSupertypes_of_typeArgs hdata hkind hsymbol hargs).later hlater
  · have hset : (info.rebuilt outer args).typeArgs.isSome := rfl
    refine hasSupertypes_of_typeArgs (s.store.type?_nextType _) rfl ?_ hset
    rw [hsame]
    exact hlater.precedes.knows hsymbol

/-- The question for the type arguments settles them and leaves the rest of the record as it is, if no
completer is pending. -/
theorem typeArguments_settle (hs : s.TopLevel)
    (hloaded : ∀ sym y, s.store.symbol? sym = some y → y.completer = none)
    (hdata : s.store.type? ty = some data) (hkind : data.kind = .classType info)
    (hsymbol : s.store.Knows data.symbol) (depth : Nat) :
    (typeArguments (completerLoader (depth + 1)) (depth + 1) ty).Returns s fun args t =>
      s.store.Later t.store ∧
        t.store.type? ty = some { data with kind := .classType { info with typeArgs := some args } } := by
  have hload := completerLoader_later (depth + 1)
  have hknown : s.store.Loaded data.symbol.toList := by
    intro sym hsym
    obtain ⟨y, hy⟩ := hsymbol sym (Option.mem_toList.1 hsym)
    exact ⟨y, hy, hloaded sym y hy⟩
  obtain ⟨args, t, hrun, -, hsettles⟩ := typeArguments_returns
    (fun completer sym => completer.run (perform (depth + 1)) sym) depth hdata hkind hknown
  obtain ⟨list, -, hrecord⟩ := hsettles.classRecord hdata hkind
  have hclass := Store.class?_eq_some.2 ⟨_, hrecord, rfl⟩
  have hlist := Listing.list?_of_ask (q := .typeArguments) hload depth hrun
    (hs.typeArguments hrun).idle hclass
  rw [Store.list?, hclass] at hlist
  obtain rfl : list = some args := hlist
  exact ⟨args, t, hrun, (typeArguments_keeps hload.keeps.toTied _ ty).along.of_ok hrun, hrecord⟩

/-- Mapping a class type ends by rebuilding it, unless it returns the type itself. -/
theorem exists_rebuildClass_of_mapType {σ : Type} {f : Mapping σ} {u u' : σ} {args : List TypeId}
    {s' : Session} {image : TypeId} {load : Loader} {depth : Nat}
    (hdata : s.store.type? ty = some data) (hkind : data.kind = .classType info)
    (hargs : typeArguments load depth ty s = .ok args t) (hf : ∀ a, AlongState Store.Later (f a))
    (hrun : (mapType load depth f ty).run u s = .ok (image, u') s') (hne : image ≠ ty) :
    ∃ outer images t₁, t.store.Later t₁.store ∧ rebuildClass ty data outer images t₁ = .ok image s' := by
  obtain ⟨found, u₀, t₀, hread, hbody⟩ := stateT_bind_eq_ok_iff.1 hrun
  obtain ⟨rfl, hdata'⟩ := stateT_lift_eq_ok_iff.1 hread
  obtain ⟨rfl, hfound⟩ := eq_of_typeData hdata'
  obtain rfl := Option.mem_unique hdata hfound
  rw [hkind] at hbody
  obtain ⟨args', u₁, t₁, hask, h₁⟩ := stateT_bind_eq_ok_iff.1 hbody
  obtain ⟨outer, u₂, t₂, houter, h₂⟩ := stateT_bind_eq_ok_iff.1 h₁
  obtain ⟨⟨images, changed⟩, u₃, t₃, hlist, h₃⟩ := stateT_bind_eq_ok_iff.1 h₂
  obtain ⟨rfl, hargs'⟩ := stateT_lift_eq_ok_iff.1 hask
  obtain ⟨rfl, rfl⟩ := EStateM.Result.ok.inj (hargs.symm.trans hargs')
  dsimp only at h₃
  split at h₃
  · obtain ⟨rfl, -⟩ := stateT_pure_eq_ok_iff.1 h₃
    exact absurd rfl hne
  · obtain ⟨rfl, hrebuild⟩ := stateT_lift_eq_ok_iff.1 h₃
    exact ⟨outer, images, t₃,
      ((hf info.outer _).of_ok houter).trans ((mapList_along hf args _).of_ok hlist), hrebuild⟩

end

/-- **A class type that is rebuilt has no supertypes.**  Between the steps of a script, if no completer
is pending, the type that a class type gives with a literal is new, and so is the type that a mapping
makes of it, unless it returns the type itself.  From then on the new type answers that it has neither a
supertype nor interfaces, while its origin goes on to answer with its own. -/
theorem rebuilt_without_supertypes {s : Session} {ty : TypeId} {data : TypeData} {info : ClassInfo}
    (hs : s.TopLevel) (hloaded : ∀ sym y, s.store.symbol? sym = some y → y.completer = none)
    (hdata : s.store.type? ty = some data) (hkind : data.kind = .classType info)
    (hsymbol : s.store.Knows data.symbol) (depth : Nat) :
    (∀ value, (constType (completerLoader (depth + 1)) (depth + 1) ty value).Returns s fun c s' =>
      ¬ s.store.Has c ∧ s'.HasSupertypes ty info.supertype (info.interfaces.getD []) ∧
        s'.HasSupertypes c none []) ∧
    ∀ {σ : Type} (f : Mapping σ) (u u' : σ) image s', (∀ a, AlongState Store.Later (f a)) →
      (mapType (completerLoader (depth + 1)) (depth + 1) f ty).run u s = .ok (image, u') s' →
      image ≠ ty →
        ¬ s.store.Has image ∧ s'.HasSupertypes ty info.supertype (info.interfaces.getD []) ∧
          s'.HasSupertypes image none [] := by
  obtain ⟨args, t, hargs, hlater, hrecord⟩ := typeArguments_settle hs hloaded hdata hkind hsymbol depth
  have hsymbol' : t.store.Knows data.symbol := hlater.precedes.knows hsymbol
  refine ⟨fun value => ?_, fun f u u' image s' hf hrun hne => ?_⟩
  · refine .step (typeData_run hdata) ?_
    rw [hkind]
    refine .step hargs ?_
    refine (exists_rebuilt { data with literal := some value } info.outer args hrecord rfl hsymbol' rfl
      rfl).imp fun c s' => ?_
    rintro ⟨hnew, hanswers⟩
    exact ⟨fun hhas => hnew (hlater.precedes.has hhas), hanswers⟩
  · obtain ⟨outer, images, t₁, hlater', hrebuild⟩ :=
      exists_rebuildClass_of_mapType hdata hkind hargs hf hrun hne
    obtain ⟨data', info', hdata', hkind', hkeeps, hsignature⟩ := hlater'.classRecord hrecord rfl rfl
    have hsupertype : info'.supertype = info.supertype := (congrArg ClassInfo.supertype hsignature :)
    have hinterfaces : info'.interfaces = info.interfaces := (congrArg ClassInfo.interfaces hsignature :)
    have hargs' : info'.typeArgs = some args := (congrArg ClassInfo.typeArgs hsignature :)
    have hsymbol₁ : t₁.store.Knows data'.symbol := by
      rw [hkeeps.symbol]
      exact hlater'.precedes.knows hsymbol'
    obtain ⟨c, s₁, hmade, hnew, hanswers⟩ := exists_rebuilt data outer images hdata' hkind' hsymbol₁
      (by rw [hargs']; rfl) hkeeps.symbol.symm
    obtain ⟨rfl, rfl⟩ := EStateM.Result.ok.inj (hmade.symm.trans hrebuild)
    rw [hsupertype, hinterfaces] at hanswers
    exact ⟨fun hhas => hnew ((hlater.precedes.trans hlater'.precedes).has hhas), hanswers⟩

/-- A session with a class `D` and a subclass `C` of it. -/
def subclassed : Session :=
  let parent := (makeStep (perform 9) (none, .declareClass "D" none .none none)).after
    (.initial {} .empty)
  let declared := (makeStep (perform 9) (none, .declareClass "C" none .none none)).after parent
  (makeStep (perform 9)
    (none, .defineClass (.handle ⟨13⟩) [] [] [] (some (.handle ⟨12⟩)) [])).after declared

theorem subclassed_topLevel : subclassed.TopLevel := by
  unfold subclassed
  exact .after_step (.after_step (.after_step (.initial {} .empty) rfl) rfl) rfl

/-- `C` keeps its superclass, and its literal has none, also after other steps. -/
theorem rebuilt_without_supertypes_literal :
    (constType (completerLoader 9) 9 ⟨13⟩ (.text "a")).Returns subclassed fun c s' =>
      ∀ depth step, let t := (makeStep (perform depth) step).after s'
      (∀ answer t', supertype (completerLoader 9) ⟨13⟩ t = .ok answer t' → answer = some ⟨12⟩) ∧
        ∀ answer t', supertype (completerLoader 9) c t = .ok answer t' → answer = none := by
  have hclass : subclassed.store.type? ⟨13⟩ = some _ := rfl
  have hloaded : ∀ y ∈ subclassed.store.symbols, y.completer = none := by decide +kernel
  have hsymbol : subclassed.store.Knows (some ⟨12⟩) := by
    rintro sym ⟨⟩
    exact ⟨_, rfl⟩
  have hrebuilt := (rebuilt_without_supertypes subclassed_topLevel
    (fun sym y hy => hloaded y (Array.mem_of_getElem? hy)) hclass rfl hsymbol 8).1 (.text "a")
  refine hrebuilt.imp fun c s' => ?_
  rintro ⟨-, hself, hmade⟩ depth step
  have hlater := makeStep_along (perform_later depth step.2) s'
  exact ⟨fun answer t' => hself.supertype 9 _ answer t' hlater,
    fun answer t' => hmade.supertype 9 _ answer t' hlater⟩

/-- **A literal does not have the superclass of its origin.** -/
theorem literal_of_subclass :
    let s' := (perform 9 (.constType (.handle ⟨13⟩) (.text "a"))).after subclassed
    perform 9 (.constType (.handle ⟨13⟩) (.text "a")) subclassed = .ok (.ok (.type (some ⟨14⟩))) s' ∧
      perform 9 (.ask .supertype (.handle ⟨13⟩)) s' = .ok (.ok (.type (some ⟨12⟩))) s' ∧
      perform 9 (.ask .supertype (.handle ⟨14⟩)) s' = .ok (.ok (.type none)) s' :=
  ⟨rfl, rfl, rfl⟩

end RegionTypes

import RegionTypes.Proofs.Store.Outline
import RegionTypes.Proofs.Store.Refusal

/-!
# The texts of arrays and methods

An array is rendered in one of two ways.  Without regions the text of the elements is followed by brackets,
array by array; with regions all dimensions are gathered first.  Where no completer is left both come to
the same form: the text of what is no array any more, and then something for each dimension.

* `Store.Tower` — nested arrays with their dimensions, outermost first.
* `Store.dimensionText?` — what is shown of a dimension.
* `array_renderers_agree` — **both renderings of arrays, and the two ways to show the parameters of a
  method**.
-/

namespace RegionTypes

open Run

variable {start : Completer → Loader} {s t : Session}
  {ty base : TypeId} {data : TypeData} {dims : List (Path × Option SymbolId)} {options : DisplayOptions}

/-! ### Nested arrays -/

namespace Store

/-- Nested arrays: the dimensions, outermost first, and the type of the innermost cells, which is no array
any more. -/
inductive Tower (o : Store) : TypeId → List (Path × Option SymbolId) → TypeId → Prop
  | base {ty : TypeId} {data : TypeData} (record : o.type? ty = some data)
      (hbase : ∀ info, data.kind ≠ .array info) : Tower o ty [] ty
  | array {ty base : TypeId} {data : TypeData} {info : ArrayInfo}
      {dims : List (Path × Option SymbolId)} (record : o.type? ty = some data)
      (kind : data.kind = .array info) (rest : Tower o info.elem dims base) :
    Tower o ty ((info.region, info.indexVar) :: dims) base

/-- What is shown of a dimension: brackets, the region unless it is `Root`, and the name of the index
variable unless it is `_`. -/
def dimensionText? (o : Store) (dim : Path × Option SymbolId) : Option String :=
  let shape := "[]" ++ if dim.1 = Path.root then "" else "<" ++ dim.1.text ++ ">"
  match dim.2 with
  | none => some shape
  | some var => (o.symbol? var).map fun y => shape ++ if y.name = "_" then "" else "#" ++ y.name

/-- A dimension of which nothing but the brackets is shown. -/
def Unmarked (o : Store) (dim : Path × Option SymbolId) : Prop :=
  dim.1 = Path.root ∧ ∀ var, dim.2 = some var → ∃ y, o.symbol? var = some y ∧ y.name = "_"

variable {o : Store}

theorem dimensionText?_unmarked {dim : Path × Option SymbolId} (h : o.Unmarked dim) :
    o.dimensionText? dim = some "[]" := by
  obtain ⟨region, index⟩ := dim
  obtain ⟨rfl, hindex⟩ := h
  cases index with
  | none => rfl
  | some var =>
    obtain ⟨y, hy, hname⟩ := hindex var rfl
    simp [dimensionText?, hy, hname]

theorem forall₂_unmarked (h : ∀ dim ∈ dims, o.Unmarked dim) :
    List.Forall₂ (fun dim mark => o.dimensionText? dim = some mark) dims
      (List.replicate dims.length "[]") := by
  induction dims with
  | nil => exact .nil
  | cons dim dims ih =>
    exact .cons (dimensionText?_unmarked (h dim List.mem_cons_self))
      (ih fun dim hdim => h dim (List.mem_cons_of_mem _ hdim))

theorem Tower.dimensions_run (h : s.store.Tower ty dims base) (d : Nat) :
    dimensions (d + dims.length + 1) ty s = .ok (dims, base) s := by
  induction h with
  | @base ty data record hbase =>
    rw [dimensions, bind_run (kindOf_run record)]
    cases kind : data.kind with
    | array info => exact absurd kind (hbase info)
    | _ => rfl
  | array record kind _ ih =>
    rw [dimensions, bind_run (kindOf_run record), kind]
    exact bind_run ih

/-- **Without regions** each array adds its brackets to the text of its elements. -/
theorem Tower.render_plain (load : Loader) (h : s.store.Tower ty dims base)
    (hplain : options.printRegions = false) (d : Nat) :
    render load (d + dims.length) options ty s =
      (do return (← render load d options base) ++ String.join (List.replicate dims.length "[]")) s := by
  induction h with
  | base => simp
  | @array ty base data info dims record kind _ ih =>
    show render load (d + dims.length + 1) options ty s = _
    rw [Dialogue.render_succ, bind_run (typeData_run record), kind]
    simp only [Kind.shown, Rendering.step, Rendering.array, hplain, Bool.false_eq_true, if_false]
    have hjoin : String.join (List.replicate (dims.length + 1) "[]") =
        String.join (List.replicate dims.length "[]") ++ "[]" := by
      rw [List.replicate_succ', String.join_append, String.join_cons, String.join_nil,
        String.append_empty]
    refine (bind_run_congr ih fun _ _ _ => rfl).trans ?_
    rw [List.length_cons, hjoin]
    simp [String.append_assoc]

theorem dimensionText_run {dim : Path × Option SymbolId} {mark : String}
    (h : s.store.dimensionText? dim = some mark) : dimensionText dim s = .ok mark s := by
  obtain ⟨region, index⟩ := dim
  have hroot : region.isRoot = true ↔ region = Path.root := by
    rw [Path.isRoot, beq_iff_eq, Path.root, Path.mk.injEq]
  cases index with
  | none =>
    obtain rfl := Option.some.inj h
    simp only [dimensionText, hroot]
    rfl
  | some =>
    obtain ⟨y, hy, rfl⟩ := Option.map_eq_some_iff.1 h
    simp only [dimensionText, bind_run (symbolData_run hy), hroot, beq_iff_eq]
    rfl

theorem dimensionTexts_run {marks : List String}
    (h : List.Forall₂ (fun dim mark => s.store.dimensionText? dim = some mark) dims marks) :
    dims.mapM dimensionText s = .ok marks s := by
  induction h with
  | nil => rfl
  | cons hmark _ ih =>
    rw [List.mapM_cons, bind_run (dimensionText_run hmark), bind_run ih]
    rfl

theorem SameOutline.dimensionText?_eq {o' : Store} (h : o.SameOutline o') :
    o'.dimensionText? = o.dimensionText? := by
  funext dim
  simp only [dimensionText?, h.forth.symbol?]

/-- **With regions** all dimensions follow the text of the innermost cells, outermost first. -/
theorem Tower.render_regions (hrest : s.store.NothingPending) (h : s.store.Tower ty dims base)
    (hne : dims ≠ []) (hregions : options.printRegions = true) {marks : List String}
    (hmarks : List.Forall₂ (fun dim mark => s.store.dimensionText? dim = some mark) dims marks)
    (d : Nat) :
    render (completeSymbol start) (d + dims.length + 1) options ty s =
      (do return (← render (completeSymbol start) (d + dims.length) options base) ++
        String.join marks) s := by
  cases h with
  | base => exact absurd rfl hne
  | @array _ _ data info dims record kind rest =>
    rw [Dialogue.render_succ, bind_run (typeData_run record), kind]
    simp only [Kind.shown, Rendering.step, Rendering.array, hregions, if_true]
    refine (bind_run (rest.dimensions_run d)).trans (bind_run_congr rfl fun inner t hrun => ?_)
    obtain ⟨hsame, -⟩ := (render_keeps asks_leavesOutline _ _ _).along.of_ok hrun hrest
    rw [← hsame.dimensionText?_eq] at hmarks
    exact bind_run (dimensionTexts_run hmarks)

end Store

/-! ### The parameters of a method -/

section

variable {m : TypeId} {info : MethodInfo} {d : Nat}

/-- **The options stay** while types are rendered one after the other. -/
theorem mapM_display (hrest : s.store.NothingPending) (types : List TypeId) :
    types.mapM (display (completeSymbol start) d) s =
      types.mapM (render (completeSymbol start) d s.store.options) s := by
  induction types generalizing s with
  | nil => rfl
  | cons ty types ih =>
    rw [List.mapM_cons, List.mapM_cons]
    refine bind_run_congr rfl fun text t hrun => ?_
    obtain ⟨hsame, hoptions⟩ := (display_keeps asks_leavesOutline d ty).along.of_ok hrun hrest
    rw [← hoptions]
    exact bind_run_congr (ih (hrest.of_underlies hsame.forth)) fun _ _ _ => rfl

theorem parameterTypes_run (record : s.store.type? m = some data) (kind : data.kind = .method info) :
    parameterTypes (d + 1) m s = .ok info.params s := by
  rw [parameterTypes, followed, bind_run (kindOf_run record), kind]
  rfl

/-- A method has its parameters in parentheses before its result. -/
theorem render_method (hrest : s.store.NothingPending) (record : s.store.type? m = some data)
    (kind : data.kind = .method info) :
    render (completeSymbol start) (d + 2) s.store.options m s = (do
      let args ← renderArgTypes (completeSymbol start) (d + 1) m false
      let result ← render (completeSymbol start) (d + 1) s.store.options info.result
      return "(" ++ args ++ ")" ++ result) s := by
  have hparams : Rendering.types s.store.options (render (completeSymbol start) (d + 1)) info.params s =
      renderArgTypes (completeSymbol start) (d + 1) m false s := by
    rw [renderArgTypes, bind_run (parameterTypes_run record kind)]
    cases info.params.getLast? <;> exact bind_run_congr (mapM_display hrest _).symm fun _ _ _ => rfl
  rw [Dialogue.render_succ, bind_run (typeData_run record), kind]
  exact bind_run_congr hparams fun _ _ _ => rfl

theorem intercalate_concat (texts : List String) (last : String) :
    ",".intercalate (texts ++ [last]) = String.join (texts.map (· ++ ",")) ++ last := by
  induction texts with
  | nil => simp
  | cons text texts ih =>
    cases texts with
    | nil => simp
    | cons =>
      rw [List.cons_append, List.cons_append, String.intercalate_cons_cons, ← List.cons_append, ih]
      simp [String.append_assoc]

/-- The parameters of a method, the last one apart. -/
theorem renderArgTypes_concat (load : Loader) (record : s.store.type? m = some data)
    (kind : data.kind = .method info) {initial : List TypeId} {last : TypeId}
    (hparams : info.params = initial ++ [last]) (varargs : Bool) :
    renderArgTypes load (d + 1) m varargs s = (do
      let texts ← initial.mapM (display load (d + 1))
      let final ← if varargs then renderLastArg load (d + 1) last else display load (d + 1) last
      return String.join (texts.map (· ++ ",")) ++ final) s := by
  rw [renderArgTypes, bind_run (parameterTypes_run record kind), hparams]
  cases varargs with
  | true => simp
  | false => simp [renderList, List.mapM_append, intercalate_concat]

theorem renderLastArg_other (load : Loader)
    (hother : ∀ data elems, s.store.type? ty = some data → data.kind ≠ .array elems) :
    renderLastArg load (d + 1) ty s = display load (d + 1) ty s := by
  cases record : s.store.type? ty with
  | some data =>
    rw [renderLastArg, bind_run (kindOf_run record)]
    cases kind : data.kind with
    | array info => exact absurd kind (hother data info record)
    | _ => rfl
  | none =>
    show _ = render load (d + 1) s.store.options ty s
    rw [renderLastArg, Tie.kindOf_bind, Dialogue.render_succ]
    exact bind_congr_of_stop fun data t hrun => by cases record.symm.trans (eq_of_typeData hrun).2

/-- **A last parameter that is no array is shown like the others.** -/
theorem renderArgTypes_other (hrest : s.store.NothingPending) (record : s.store.type? m = some data)
    (kind : data.kind = .method info)
    (hother : ∀ last ∈ info.params.getLast?, ∀ data elems, s.store.type? last = some data →
      data.kind ≠ .array elems) :
    renderArgTypes (completeSymbol start) (d + 1) m true s =
      renderArgTypes (completeSymbol start) (d + 1) m false s := by
  obtain hnone | ⟨initial, last, hparams⟩ := List.eq_nil_or_concat info.params
  · simp only [renderArgTypes, bind_run (parameterTypes_run record kind), hnone, List.getLast?_nil]
  · rw [List.concat_eq_append] at hparams
    rw [renderArgTypes_concat _ record kind hparams, renderArgTypes_concat _ record kind hparams]
    refine bind_run_congr rfl fun texts t hrun => bind_run_congr ?_ fun _ _ _ => rfl
    obtain ⟨hsame, -⟩ :=
      (Tie.Pairs.mapM (display_keeps asks_leavesOutline (d + 1)) initial).along.of_ok hrun hrest
    refine renderLastArg_other _ fun data elems record kind => ?_
    exact hother last (by simp [hparams]) data elems
      (hsame.back.record record (by rw [kind]; rfl)) kind

/-- **A last parameter that is an array is shown as its elements.** -/
theorem renderArgTypes_array (hrest : s.store.NothingPending) (record : s.store.type? m = some data)
    (kind : data.kind = .method info) {initial : List TypeId} {last : TypeId} {lastData : TypeData}
    {elems : ArrayInfo} (hparams : info.params = initial ++ [last])
    (lastRecord : s.store.type? last = some lastData) (lastKind : lastData.kind = .array elems) :
    renderArgTypes (completeSymbol start) (d + 1) m true s = (do
      let texts ← initial.mapM (display (completeSymbol start) (d + 1))
      let elem ← display (completeSymbol start) (d + 1) elems.elem
      return String.join (texts.map (· ++ ",")) ++ (elem ++ "...")) s := by
  rw [renderArgTypes_concat _ record kind hparams]
  refine bind_run_congr rfl fun texts t hrun => ?_
  obtain ⟨hsame, -⟩ :=
    (Tie.Pairs.mapM (display_keeps asks_leavesOutline (d + 1)) initial).along.of_ok hrun hrest
  have lastRecord' := hsame.forth.record lastRecord (by rw [lastKind]; rfl)
  rw [if_pos rfl, renderLastArg, bind_assoc, bind_run (kindOf_run lastRecord'), lastKind]
  simp

end

/-- **The renderers agree.**  Where no completer is left, nested arrays have the text of their innermost
cells, followed by brackets for each dimension.  With regions, each dimension, the outermost first, also
shows its region unless that is `Root`, and its index variable unless that is `_`; where there is no such
mark, both texts go on alike.  A method has the texts of its parameters in parentheses before that of its
result.  For a method of variable arity the parameters are shown in the same way, unless the last one is an
array: then the text of its elements and three dots stand in its place. -/
theorem array_renderers_agree (s : Session) (hrest : s.store.NothingPending) (n d : Nat) :
    let load := completerLoader n
    (∀ tower dims base, s.store.Tower tower dims base → dims ≠ [] → ∀ options,
      (options.printRegions = false →
        render load (d + dims.length) options tower s = (do
          return (← render load d options base) ++ String.join (List.replicate dims.length "[]")) s) ∧
      (options.printRegions = true →
        (∀ marks, List.Forall₂ (fun dim mark => s.store.dimensionText? dim = some mark) dims marks →
          render load (d + dims.length + 1) options tower s = (do
            return (← render load (d + dims.length) options base) ++ String.join marks) s) ∧
        ((∀ dim ∈ dims, s.store.Unmarked dim) →
          render load (d + dims.length + 1) options tower s = (do
            return (← render load (d + dims.length) options base) ++
              String.join (List.replicate dims.length "[]")) s))) ∧
    ∀ m data info, s.store.type? m = some data → data.kind = .method info →
      render load (d + 2) s.store.options m s = (do
        let args ← renderArgTypes load (d + 1) m false
        let result ← render load (d + 1) s.store.options info.result
        return "(" ++ args ++ ")" ++ result) s ∧
      ((∀ last ∈ info.params.getLast?, ∀ data elems, s.store.type? last = some data →
          data.kind ≠ .array elems) →
        renderArgTypes load (d + 1) m true s = renderArgTypes load (d + 1) m false s) ∧
      ∀ initial last lastData elems, info.params = initial ++ [last] →
        s.store.type? last = some lastData → lastData.kind = .array elems →
        renderArgTypes load (d + 1) m false s = (do
          let texts ← initial.mapM (display load (d + 1))
          let final ← display load (d + 1) last
          return String.join (texts.map (· ++ ",")) ++ final) s ∧
        renderArgTypes load (d + 1) m true s = (do
          let texts ← initial.mapM (display load (d + 1))
          let elem ← display load (d + 1) elems.elem
          return String.join (texts.map (· ++ ",")) ++ (elem ++ "...")) s := by
  refine ⟨fun tower dims base h hne options => ⟨(h.render_plain _ · d), fun hregions =>
    ⟨fun marks hmarks => h.render_regions hrest hne hregions hmarks d, fun hall =>
      h.render_regions hrest hne hregions (Store.forall₂_unmarked hall) d⟩⟩, ?_⟩
  intro m data info record kind
  refine ⟨render_method hrest record kind, renderArgTypes_other hrest record kind, ?_⟩
  intro initial last lastData elems hparams lastRecord lastKind
  exact ⟨renderArgTypes_concat _ record kind hparams false,
    renderArgTypes_array hrest record kind hparams lastRecord lastKind⟩

/-- A session with a class `C` of a region parameter, arrays of it in two dimensions, of which the inner one
has a region and an index variable, and a method that takes a `C` and such an array. -/
def gridMethod : Session :=
  .afterCommands
    [.newSymbol .var "i" none .none,
      .declareClass "C" none .none none,
      .defineClass (.handle ⟨12⟩) [] [⟨[.param "R"]⟩] [] none [],
      .arrayType (.handle ⟨12⟩) (some ⟨[.param "R"]⟩) (some (.handle ⟨11⟩)),
      .arrayType (.handle ⟨13⟩) none none,
      .methodType [.handle ⟨12⟩, .handle ⟨14⟩] (.handle ⟨12⟩) []]

theorem array_renderers_agree_grid :
    gridMethod.store.NothingPending ∧
      gridMethod.store.Tower ⟨14⟩ [(.root, none), (⟨[.param "R"]⟩, some ⟨11⟩)] ⟨12⟩ ∧
      (∃ s', render (completerLoader 9) 7 { printRegions := true } ⟨14⟩ gridMethod =
        .ok "C<R>[][]<R>#i" s') ∧
      (∃ s', render (completerLoader 9) 6 {} ⟨14⟩ gridMethod = .ok "C[][]" s') ∧
      ∃ s', renderArgTypes (completerLoader 9) 5 ⟨15⟩ true gridMethod = .ok "C,C[]..." s' := by
  have hrest : gridMethod.store.NothingPending := by decide +kernel
  have htower : gridMethod.store.Tower ⟨14⟩ [(.root, none), (⟨[.param "R"]⟩, some ⟨11⟩)] ⟨12⟩ := by
    refine @Store.Tower.array _ _ _ _ ⟨⟨13⟩, .root, none⟩ _ rfl rfl ?_
    refine @Store.Tower.array _ _ _ _ ⟨⟨12⟩, ⟨[.param "R"]⟩, some ⟨11⟩⟩ _ rfl rfl ?_
    refine .base rfl fun info kind => ?_
    cases kind
  obtain ⟨harrays, hmethods⟩ := array_renderers_agree gridMethod hrest 9 4
  obtain ⟨-, -, harray⟩ := hmethods ⟨15⟩ _ _ rfl rfl
  have hmarks := ((harrays _ _ _ htower (by simp) { printRegions := true }).2 rfl).1
    ["[]", "[]<R>#i"] (.cons rfl (.cons rfl .nil))
  exact ⟨hrest, htower, ⟨_, hmarks.trans rfl⟩, ⟨_, ((harrays _ _ _ htower (by simp) {}).1 rfl).trans rfl⟩,
    ⟨_, (harray [⟨12⟩] ⟨14⟩ _ _ rfl rfl rfl).2.trans rfl⟩⟩

end RegionTypes

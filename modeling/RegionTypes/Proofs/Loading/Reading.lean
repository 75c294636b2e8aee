import RegionTypes.Proofs.Loading.Questions

/-!
# The questions that only read

The other questions about types.  Of most of their answers nothing is needed; it matters that they are
given, and that asking does no harm.

* `Survey.follow` — **questions that follow one part of a type after another**: through quantifiers
  and placeholders to what lies under them.
* `Survey.ofKind` — questions about the kind of a type.
* `typeHash_asks`, `typesEqual_asks` — structural equality.
* `upperBound_asks` — the bounds of variables, which belong to the store.
* `typeVarBound_asks`, `asMethodType_asks`, `stringValue_asks` — the questions that not every type
  can be asked: they are answered where there is something to answer.
-/

namespace RegionTypes

open Run

variable {β : Type} {r : Store} {load : Loader} {ty a b : TypeId} {d : Nat}

section

variable (V : Survey r load)

/-! ### Kinds -/

theorem Survey.ofKind {f : Kind → Run β} {q : β → Prop} (hty : r.Has ty)
    (hf : ∀ kind, V.Asks (f kind) q) : V.Asks (Run.kindOf ty >>= f) q :=
  (V.kindOf hty).bind fun kind _ => hf kind

/-- **A question that follows one part after another.** -/
theorem Survey.follow {next : Kind → Option TypeId} {last : TypeId → Kind → Run β}
    (q : TypeId → β → Prop)
    (hnext : ∀ kind c, next kind = some c → c ∈ kind.inspected ∧ kind.class? = none)
    (hstep : ∀ ty kind c, r.kind? ty = some kind → next kind = some c → r.level c < r.level ty →
      ∀ b, q c b → q ty b)
    (hlast : ∀ ty data data', r.type? ty = some data → data.Found r V.sure ty data' →
      next data'.kind = none → V.Asks (last ty data'.kind) (q ty)) (d : Nat) :
    ∀ ty, r.level ty < d → r.Has ty → V.Asks (followed next last d ty) (q ty) := by
  apply Store.level_induction
  intro d ty hd hty ih
  refine (V.kindOf hty).bind fun kind ⟨data, data', hdata, hfound, hkind⟩ => ?_
  subst hkind
  cases hgo : next data'.kind with
  | none => exact hlast ty data data' hdata hfound hgo
  | some c =>
    obtain ⟨hpart, hclass⟩ := hnext _ c hgo
    cases hfound with
    | classType => cases hclass
    | other =>
      obtain ⟨hhas, hlt⟩ := V.settled.inspected hdata hpart
      refine (ih c (by omega) hhas).imp ?_
      exact hstep ty _ c (Store.kind?_eq hdata) hgo hlt

theorem Kind.leadsTo_inspected (kind : Kind) (c : TypeId) (h : kind.leadsTo = some c) :
    c ∈ kind.inspected ∧ kind.class? = none := by
  cases kind with
  | forAll | placeholder =>
    obtain rfl := Option.some.inj h
    exact ⟨List.mem_cons_self, rfl⟩
  | _ => cases h

theorem Kind.body?_inspected (kind : Kind) (c : TypeId) (h : kind.body? = some c) :
    c ∈ kind.inspected ∧ kind.class? = none := by
  cases kind with
  | forAll =>
    obtain rfl := Option.some.inj h
    exact ⟨List.mem_cons_self, rfl⟩
  | _ => cases h

section

variable (hd : r.level ty < d) (hty : r.Has ty)

include hd hty

/-- A question that follows parts to the end and reads its answer there. -/
theorem Survey.followTo {next : Kind → Option TypeId} {last : TypeId → Kind → Run β}
    (hnext : ∀ kind c, next kind = some c → c ∈ kind.inspected ∧ kind.class? = none)
    (hlast : ∀ ty kind, V.Asks (last ty kind) fun _ => True) :
    V.Asks (followed next last d ty) fun _ => True :=
  V.follow (fun _ _ => True) hnext (fun _ _ _ _ _ _ _ h => h) (fun _ _ _ _ _ _ => hlast _ _) d ty hd
    hty

theorem enclosingType_asks : V.Asks (enclosingType d ty) fun _ => True :=
  V.followTo hd hty Kind.leadsTo_inspected fun _ kind => by cases kind <;> exact .pure trivial

theorem parameterTypes_asks : V.Asks (parameterTypes d ty) fun l => ∀ c ∈ l, r.Has c := by
  refine V.follow (fun _ l => ∀ c ∈ l, r.Has c) Kind.leadsTo_inspected (fun _ _ _ _ _ _ _ h => h)
    (fun ty data data' hdata hfound _ => ?_) d ty hd hty
  cases hfound with
  | classType => exact .pure (by simp [Kind.method?])
  | @other _ _ _ kind =>
    cases kind with
    | method => exact .pure fun c hc => (V.settled.inspected hdata (List.mem_append_left _ hc)).1
    | _ => exact .pure (by simp [Kind.method?])

theorem returnType_asks : V.Asks (returnType d ty) fun _ => True :=
  V.followTo hd hty Kind.leadsTo_inspected fun _ kind => by cases kind <;> exact .pure trivial

theorem thrownTypes_asks : V.Asks (thrownTypes d ty) fun _ => True :=
  V.followTo hd hty Kind.leadsTo_inspected fun _ _ => .pure trivial

theorem callActuals_asks : V.Asks (callActuals d ty) fun _ => True :=
  V.followTo hd hty Kind.body?_inspected fun _ _ => .pure trivial

theorem methodType?_asks : V.Asks (methodType? d ty) fun m => m = r.methodOf ty := by
  refine V.follow (fun ty m => m = r.methodOf ty) Kind.body?_inspected ?_ ?_ d ty hd hty
  · intro ty kind c hkind hgo hlt m hm
    rw [hm, Store.methodOf, Store.descend_eq _ _ ty, hkind]
    cases kind with
    | forAll =>
      obtain rfl := Option.some.inj hgo
      exact (Store.descendBelow_eq hlt).symm
    | _ => cases hgo
  · intro ty data data' hdata hfound hgo
    rw [Store.methodOf, Store.descend_eq, Store.kind?_eq hdata]
    cases hfound with
    | classType => exact .pure rfl
    | @other _ _ _ kind =>
      cases kind with
      | forAll => cases hgo
      | _ => exact .pure rfl

theorem asMethodType_asks (hmethod : (r.methodOf ty).isSome) :
    V.Asks (asMethodType load d ty) fun _ => True := by
  refine (methodType?_asks V hd hty).bind fun m hm => ?_
  obtain ⟨method, hmethod⟩ := Option.isSome_iff_exists.1 hmethod
  rw [hm, hmethod]
  exact .pure trivial

end

/-! ### Bounds -/

/-- The bound of a variable, which may be that of its prototype. -/
theorem varBound_asks {data : TypeData} {info : VarInfo} (hdata : r.type? ty = some data)
    (hvar : data.kind.var? = some info) :
    V.Asks (varBound info) fun b => b = r.varBoundOf info ∧ ∀ c ∈ b, r.Has c := by
  obtain ⟨hbound, hprototype⟩ := V.settled.of_var? hdata hvar
  unfold varBound
  rw [Store.varBoundOf]
  cases hown : info.bound with
  | some => exact .pure ⟨rfl, fun c hc => hbound c (hown.trans hc)⟩
  | none =>
    cases hinfo : info.prototype with
    | none => exact .pure ⟨rfl, by simp⟩
    | some p =>
      refine (V.kindOf (hprototype p hinfo)).bind fun kind ⟨data', _, hdata', hfound, hkind⟩ => ?_
      subst hkind
      rw [Option.bind_some, Store.kind?_eq hdata', Option.bind_some, Option.none_or]
      cases hfound with
      | classType => exact .pure ⟨rfl, by simp [Kind.var?]⟩
      | other =>
        refine .pure ⟨rfl, fun c hc => ?_⟩
        obtain ⟨info', hvar', hbound'⟩ := Option.bind_eq_some_iff.1 hc
        exact (V.settled.of_var? hdata' hvar').1 c hbound'

section

variable (hd : r.level ty < d) (hty : r.Has ty)

include hd hty

theorem upperBound_asks :
    V.Asks (upperBound d ty) fun b => b = r.upperBoundOf ty ∧ ∀ c ∈ b, r.Has c := by
  refine V.follow (fun ty b => b = r.upperBoundOf ty ∧ ∀ c ∈ b, r.Has c) Kind.leadsTo_inspected ?_ ?_
    d ty hd hty
  · rintro ty kind c hkind hgo hlt b ⟨hb, hhas⟩
    refine ⟨?_, hhas⟩
    rw [hb, Store.upperBoundOf, Store.descend_eq _ _ ty, hkind]
    cases kind with
    | forAll | placeholder =>
      obtain rfl := Option.some.inj hgo
      exact (Store.descendBelow_eq hlt).symm
    | _ => cases hgo
  · intro ty data data' hdata hfound hgo
    rw [Store.upperBoundOf, Store.descend_eq, Store.kind?_eq hdata]
    cases hfound with
    | classType => exact .pure ⟨rfl, by simp⟩
    | @other _ _ _ kind =>
      cases kind with
      | forAll | placeholder => cases hgo
      | typeVar | captured => exact varBound_asks V hdata rfl
      | _ => exact .pure ⟨rfl, by simp⟩

theorem typeVarBound_asks (hbound : (r.upperBoundOf ty).isSome) :
    V.Asks (typeVarBound load d ty) fun _ => True := by
  refine (upperBound_asks V hd hty).bind fun b hb => ?_
  obtain ⟨bound, hbound⟩ := Option.isSome_iff_exists.1 hbound
  rw [hb.1, hbound]
  exact .pure trivial

end

/-! ### Structure -/

/-- The parts that a kind shows are those of the type, unless it is a class. -/
theorem Survey.kindOf_parts (hty : r.Has ty) : V.Asks (Run.kindOf ty) fun kind =>
    kind.class? = none → ∀ c ∈ kind.inspected, r.Has c ∧ r.level c < r.level ty := by
  refine (V.kindOf hty).imp fun kind ⟨data, data', hdata, hfound, hkind⟩ hclass c hc => ?_
  subst hkind
  cases hfound with
  | classType => cases hclass
  | other => exact V.settled.inspected hdata hc

theorem typeHash_asks (d : Nat) : ∀ ty, r.level ty < d → r.Has ty →
    V.Asks (typeHash d ty) fun _ => True := by
  apply Store.level_induction
  intro d ty hd hty ih
  refine (V.kindOf_parts hty).bind fun kind hparts => ?_
  have hpart (c : TypeId) (hclass : kind.class? = none) (hc : c ∈ kind.inspected) :
      V.Asks (typeHash d c) fun _ => True := by
    obtain ⟨hhas, hlt⟩ := hparts hclass c hc
    exact ih c (by omega) hhas
  cases kind with
  | array info => exact (hpart info.elem rfl List.mem_cons_self).map fun _ _ => trivial
  | method info =>
    refine (Logic.Asks.loop (fun c hc hash => ?_) _).bind fun hash _ => ?_
    · exact (hpart c rfl (List.mem_append_left _ hc)).map fun _ _ => trivial
    · exact (hpart info.result rfl (List.mem_append_right _ List.mem_cons_self)).map
        fun _ _ => trivial
  | _ => exact .pure trivial

theorem allPairsM_asks {p : TypeId → TypeId → Run Bool} : ∀ {l l' : List TypeId},
    (∀ a ∈ l, ∀ b ∈ l', V.Asks (p a b) fun _ => True) → V.Asks (allPairsM p l l') fun _ => True
  | [], [], _ => .pure trivial
  | [], _ :: _, _ => .pure trivial
  | _ :: _, [], _ => .pure trivial
  | a :: l, b :: l', h => by
    refine (h a List.mem_cons_self b List.mem_cons_self).bind fun same _ => ?_
    cases same with
    | true =>
      refine allPairsM_asks fun x hx y hy => ?_
      exact h x (List.mem_cons_of_mem a hx) y (List.mem_cons_of_mem b hy)
    | false => exact .pure trivial

theorem typesEqual_asks (d : Nat) : ∀ a b, r.level a < d → r.Has a → r.Has b →
    V.Asks (typesEqual d a b) fun _ => True := by
  induction d with
  | zero => exact fun _ _ hd => absurd hd (Nat.not_lt_zero _)
  | succ d ih =>
    intro a b hd ha hb
    unfold typesEqual
    split
    · exact .pure trivial
    · refine (V.kindOf_parts ha).bind fun left hleft => ?_
      refine (V.kindOf_parts hb).bind fun right hright => ?_
      have hpair : ∀ c ∈ left.inspected, ∀ c' ∈ right.inspected, left.class? = none →
          right.class? = none → V.Asks (typesEqual d c c') fun _ => True := by
        intro c hc c' hc' hclass hclass'
        obtain ⟨hhas, hlt⟩ := hleft hclass c hc
        exact ih c c' (by omega) hhas (hright hclass' c' hc').1
      split
      · exact hpair _ List.mem_cons_self _ List.mem_cons_self rfl rfl
      · split
        · exact .pure trivial
        · refine (allPairsM_asks V fun c hc c' hc' => ?_).bind fun same _ => ?_
          · exact hpair c (List.mem_append_left _ hc) c' (List.mem_append_left _ hc') rfl rfl
          · cases same with
            | true =>
              exact hpair _ (List.mem_append_right _ List.mem_cons_self) _
                (List.mem_append_right _ List.mem_cons_self) rfl rfl
            | false => exact .pure trivial
      · exact .pure trivial

theorem firstEqual_asks {types : List TypeId} (htypes : ∀ ty ∈ types, r.level ty < d ∧ r.Has ty)
    (hty : r.Has ty) : V.Asks (firstEqual d ty types) fun _ => True := by
  induction types with
  | nil => exact .pure trivial
  | cons c types ih =>
    obtain ⟨hd, hc⟩ := htypes c List.mem_cons_self
    refine (typesEqual_asks V d c ty hd hc hty).bind fun same _ => ?_
    cases same with
    | true => exact .pure trivial
    | false => exact (ih fun x hx => htypes x (List.mem_cons_of_mem c hx)).map fun _ _ => trivial

theorem keyReport_asks {types : List TypeId} (htypes : ∀ ty ∈ types, r.level ty < d ∧ r.Has ty) :
    V.Asks (keyReport d types) fun _ => True := by
  have hhash : V.Asks (types.mapM (typeHash d)) _ :=
    .mapM fun ty hty => typeHash_asks V d ty (htypes ty hty).1 (htypes ty hty).2
  have hfirst : V.Asks (types.mapM fun ty => firstEqual d ty types) _ :=
    .mapM fun ty hty => firstEqual_asks V htypes (htypes ty hty).2
  exact hhash.bind fun _ _ => hfirst.map fun _ _ => trivial

/-! ### Symbols and literals -/

theorem Survey.typeData_symbol (hty : r.Has ty) :
    V.Asks (Run.typeData ty) fun data => ∀ sym, data.symbol = some sym → ∃ y, r.symbol? sym = some y := by
  refine (V.typeData hty).imp fun data ⟨full, hfull, hfound⟩ sym hsym => ?_
  refine V.settled.known hfull ?_
  cases hfound with
  | classType | other => exact hsym

theorem isCompound_asks (hty : r.Has ty) : V.Asks (isCompound ty) fun _ => True := by
  refine (V.typeData_symbol hty).bind fun data hsymbol => ?_
  split
  · exact .pure trivial
  · exact .pure trivial
  · next _ sym hsym _ =>
    obtain ⟨y, hy⟩ := hsymbol sym hsym
    exact (V.symbolData hy).map fun _ _ => trivial

theorem symbolFlags_asks {sym : SymbolId} {y : Symbol} (hy : r.symbol? sym = some y) :
    V.Asks (symbolFlags load sym) fun _ => True :=
  (V.completeLazily hy).bind fun _ _ => (V.symbolData hy).map fun _ _ => trivial

theorem isInterface_asks (hty : r.Has ty) : V.Asks (isInterface load ty) fun _ => True := by
  refine (V.typeData_symbol hty).bind fun data hsymbol => ?_
  split
  · exact .pure trivial
  · exact .pure trivial
  · next _ sym hsym _ =>
    obtain ⟨y, hy⟩ := hsymbol sym hsym
    exact (symbolFlags_asks V hy).map fun _ _ => trivial

theorem booleanValue?_asks (hty : r.Has ty) : V.Asks (booleanValue? ty) fun _ => True := by
  refine (V.typeData hty).bind fun data _ => ?_
  split
  · exact .pure trivial
  · exact .pure trivial

/-- A class is no more a constant in one store than in the other. -/
theorem stringValue_asks (hty : r.Has ty)
    (hvalue : (r.type? ty).any fun data => data.kind = .bottom || data.literal.isSome) :
    V.Asks (stringValue load d ty) fun _ => True := by
  refine (V.typeData hty).bind fun data ⟨full, hfull, hfound⟩ => ?_
  have hsame : data.kind = .bottom ∨ data.literal.isSome := by
    rw [hfull, Option.any_some, Bool.or_eq_true, decide_eq_true_iff] at hvalue
    cases hfound with
    | classType => exact .inr (hvalue.resolve_left (by simp))
    | other => exact hvalue
  split
  · exact .pure trivial
  · exact .pure trivial
  · next hliteral hkind =>
    rw [hliteral] at hsame
    exact absurd (hsame.resolve_right (by simp)) hkind

/-- A placeholder that is not solved stands for itself. -/
theorem baseType_asks (hunsolved : r.Unsolved) (hd : r.level ty < d) (hty : r.Has ty) :
    V.Asks (baseType d ty) fun _ => True := by
  obtain ⟨d, rfl⟩ : ∃ d', d = d' + 1 := ⟨d - 1, by omega⟩
  refine (V.typeData hty).bind fun data ⟨full, hfull, hfound⟩ => ?_
  split
  · have hsymbol : data.symbol = full.symbol := by cases hfound <;> rfl
    rw [hsymbol]
    exact (V.canonicalType hfull).map fun _ _ => trivial
  · have hnone := hunsolved full (Store.mem_types hfull)
    cases hfound with
    | classType => exact .pure trivial
    | @other _ _ _ kind =>
      cases kind with
      | placeholder info =>
        obtain ⟨origin, lower, upper, solution⟩ := info
        cases solution with
        | none => exact .pure trivial
        | some => cases hnone
      | _ => exact .pure trivial

theorem freeTypeVars_asks (hthrown : r.ThrowsOlder) (hd : r.level ty < d) (hty : r.Has ty) :
    V.Asks (freeTypeVars load d ty) fun l => V.sure → l = r.freeVars ty [] [] :=
  collectFree_asks V hthrown d ty hd hty [] [] [] fun _ => rfl

end

end RegionTypes

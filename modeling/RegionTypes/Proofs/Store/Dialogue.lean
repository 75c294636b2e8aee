import RegionTypes.Proofs.Lockstep.Reading

/-!
# What rendering asks

Facts about texts follow from facts about the questions that rendering asks.

* `Lookup.reads`, `Lookup.keeps` — a question that only reads takes the same course in tied sessions;
  most find the same at a later time.
* `Dialogue`, `Dialogue.run` — questions, each of which depends on the answers so far.
* `Dialogue.text`, `Dialogue.run_text` — the dialogue about a text; **holding it is rendering**.
* `Dialogue.Meets`, `Dialogue.Serves`, `Dialogue.step_meets` — what is known of every question that may come
  up, given what is known of the answers.
-/

namespace RegionTypes

open Run Tie

/-- Whether the name of a class is looked up, which may be made up of supertypes. -/
def Lookup.isNaming {β : Type} : Lookup β → Bool
  | naming .. => true
  | _ => false

theorem Lookup.reads {β : Type} (lookup : Lookup β) (h : lookup.isNaming = false) : Reads lookup.run := by
  cases lookup with
  | record => exact reads_typeData (fun _ _ _ _ => rfl) fun _ => reads_pure _
  | inside symbol =>
    refine (isMemberOfType_reads symbol).bind fun member => ?_
    split
    · exact reads_kindOf (fun _ => rfl) fun _ => reads_pure _
    · exact reads_pure _
  | naming => cases h
  | qualified depth symbol otherwise => exact qualifiedText_reads depth symbol otherwise
  | symbol symbol => exact symbolText_reads symbol
  | dimensions depth ty => exact dimensions_reads depth ty
  | dimension dim => exact dimensionText_reads dim
  | formalBound depth options ty =>
    rw [run]
    split
    · refine (wildcard?_reads ty).bind fun info => ?_
      split
      · exact reads_pure _
      · exact upperBound_reads depth _
    · exact reads_pure _

theorem Lookup.keeps {T : Tie} [T.Lawful] {β : Type} (lookup : Lookup β) : T.Keeps lookup.run := by
  cases lookup with
  | naming depth symbol =>
    cases symbol with
    | none => exact keeps_pure _
    | some sym =>
      refine (symbolData_keeps sym).bind fun data => ?_
      split
      · split
        · exact (qualifiedName_reads depth sym).keeps.map
        · exact keeps_pure _
      · split
        · exact keeps_pure _
        · exact (described?_keeps data).map
  | _ => exact (Lookup.reads _ rfl).keeps

/-- Questions, each of which depends on the answers so far. -/
inductive Dialogue (α : Type) : Type 1
  | done (a : α)
  | ask {β : Type} (question : Question β) (next : β → Dialogue α)

namespace Dialogue

open Rendering

variable {α β : Type}

protected def bind : Dialogue α → (α → Dialogue β) → Dialogue β
  | done a, f => f a
  | ask question next, f => ask question fun b => (next b).bind f

instance : Monad Dialogue where
  pure := done
  bind := Dialogue.bind

instance : LawfulMonad Dialogue := by
  refine .mk' _ (fun d => ?_) (fun _ _ => rfl) fun d f g => ?_
  · induction d with
    | done => rfl
    | ask question next ih => exact congrArg (ask question) (funext ih)
  · induction d with
    | done => rfl
    | ask question next ih => exact congrArg (ask question) (funext ih)

/-- One question. -/
def put ⦃β : Type⦄ (question : Question β) : Dialogue β := ask question done

/-- The dialogue about the text of a type. -/
def text : Nat → DisplayOptions → TypeId → Dialogue String := Rendering.text put

/-- Holds the dialogue. -/
def run (load : Loader) : Dialogue α → Run α
  | done a => pure a
  | ask question next => question.ask load >>= fun b => (next b).run load

/-! ### Holding the dialogue about a text -/

section Holding

variable {load : Loader} {depth : Nat} {options : DisplayOptions} {ty : TypeId}

theorem run_put (question : Question β) : (put question).run load = question.ask load :=
  bind_pure _

theorem run_bind (d : Dialogue α) (f : α → Dialogue β) :
    (d >>= f).run load = d.run load >>= fun a => (f a).run load := by
  induction d with
  | done => rfl
  | ask question next ih =>
    refine (bind_congr fun b => ?_).trans (bind_assoc (question.ask load) _ _).symm
    exact ih b

theorem run_mapM (f : α → Dialogue β) (l : List α) :
    (l.mapM f).run load = l.mapM fun a => (f a).run load := by
  induction l with
  | nil => rfl
  | cons a l ih =>
    rw [List.mapM_cons, List.mapM_cons, run_bind]
    refine bind_congr fun b => ?_
    rw [run_bind, ih]
    rfl

section

variable {go : DisplayOptions → TypeId → Dialogue String} {held : DisplayOptions → TypeId → Run String}
  (hgo : ∀ options ty, (go options ty).run load = held options ty)

include hgo

theorem run_types (l : List TypeId) : (types options go l).run load = types options held l := by
  simp only [types, run_bind, run_mapM, hgo]
  rfl

theorem run_name (naming : Naming) :
    (name put options go ty naming).run load = name (Question.ask load) options held ty naming := by
  cases naming with
  | text => rfl
  | intersection =>
    simp only [name, run_bind, run_put]
    refine bind_congr fun parent => ?_
    cases parent <;> simp only [run_bind, run_put, run_mapM, hgo] <;> rfl
  | anonymous sym described => cases described <;> simp only [name, run_bind, hgo] <;> rfl

theorem run_head (symbol : Option SymbolId) (outer : TypeId) :
    (head put depth options go ty symbol outer).run load =
      head (Question.ask load) depth options held ty symbol outer := by
  simp only [head, run_bind, run_put]
  refine bind_congr fun inside => ?_
  split
  · simp only [run_bind, run_put, run_name hgo, hgo]
    rfl
  · simp only [run_bind, run_put, run_name hgo]

theorem run_arguments (front : String) : (arguments put depth options go ty front).run load =
    arguments (Question.ask load) depth options held ty front := by
  have hbracketed : ∀ inner regions effects, (bracketed options go front inner regions effects).run load =
      bracketed options held front inner regions effects := by
    intro inner regions effects
    unfold bracketed
    split
    · rfl
    · rw [run_bind, run_types hgo]
      rfl
  simp only [arguments, run_bind, run_put]
  refine bind_congr fun inner => ?_
  split
  · simp only [run_bind, run_put, hbracketed]
  · exact hbracketed inner [] []

/-- **One step**: the dialogue goes the way of the text. -/
theorem run_step (symbol : Option SymbolId) (kind : Kind) :
    (step put depth options go ty symbol kind).run load =
      step (Question.ask load) depth options held ty symbol kind := by
  cases kind with
  | classType => simp only [step, run_bind, run_head hgo, run_arguments hgo]
  | array =>
    simp only [step, array]
    split <;> simp only [run_bind, run_put, run_mapM, hgo] <;> rfl
  | wildcard info =>
    have hformal : (formal put depth options go ty).run load =
        formal (Question.ask load) depth options held ty := by
      simp only [formal, run_bind, run_put]
      refine bind_congr fun bound => ?_
      cases bound <;> simp only [run_bind, hgo] <;> rfl
    rw [step, step, Rendering.wildcard, Rendering.wildcard]
    split <;> simp only [run_bind, hformal, hgo] <;> rfl
  | placeholder info =>
    obtain ⟨origin, lower, upper, solution⟩ := info
    cases solution with
    | none =>
      simp only [step, run_bind, hgo]
      rfl
    | some => exact hgo options _
  | _ => simp only [step, run_bind, run_put, run_types hgo, hgo] <;> rfl

end

/-- **Holding the dialogue about a text is rendering.** -/
theorem run_text : (text depth options ty).run load = render load depth options ty := by
  induction depth generalizing options ty with
  | zero => exact run_put .tooDeep
  | succ depth ih =>
    rw [text, Rendering.text, run_bind, run_put, render, Rendering.text]
    exact bind_congr fun record => run_step (fun _ _ => ih) record.1 record.2

theorem render_succ : render load (depth + 1) options ty = typeData ty >>= fun data =>
    step (Question.ask load) depth options (render load depth) ty data.symbol data.kind.shown :=
  bind_assoc (typeData ty) _ _

end Holding

/-! ### What is known of the questions -/

/-- Every question that may come up satisfies `Q`, which also says what the answers are like. -/
def Meets (Q : ∀ {β : Type}, Question β → (β → Prop) → Prop) : Dialogue α → Prop
  | done _ => True
  | ask question next => ∃ P, Q question P ∧ ∀ b, P b → (next b).Meets Q

section Meets

variable {Q : ∀ {β : Type}, Question β → (β → Prop) → Prop}
  {Shown : DisplayOptions → TypeId → Prop} {depth : Nat} {options : DisplayOptions}
  {go : DisplayOptions → TypeId → Dialogue String} {ty : TypeId} {symbol : Option SymbolId}

theorem Meets.bind {d : Dialogue α} {f : α → Dialogue β} (h : d.Meets Q) (hf : ∀ a, (f a).Meets Q) :
    (d >>= f).Meets Q := by
  induction d with
  | done a => exact hf a
  | ask question next ih =>
    obtain ⟨P, hquestion, hnext⟩ := h
    exact ⟨P, hquestion, fun b hb => ih b (hnext b hb)⟩

theorem Meets.map {d : Dialogue α} {f : α → β} (h : d.Meets Q) : (do return f (← d)).Meets Q :=
  h.bind fun _ => trivial

theorem meets_put {P : β → Prop} {question : Question β} (h : Q question P) : (put question).Meets Q :=
  ⟨P, h, fun _ _ => trivial⟩

theorem meets_mapM {f : α → Dialogue β} {l : List α} (h : ∀ a ∈ l, (f a).Meets Q) :
    (l.mapM f).Meets Q := by
  induction l with
  | nil => trivial
  | cons a l ih =>
    rw [List.mapM_cons]
    refine (h a List.mem_cons_self).bind fun b => ?_
    exact (ih fun c hc => h c (List.mem_cons_of_mem a hc)).map

variable (Q Shown options ty) in
/-- What the name of a class needs. -/
def ServesName : Naming → Prop
  | .text _ => True
  | .intersection => Q (.supertype ty) (∀ c ∈ ·, Shown options c) ∧
      Q (.interfaces ty) (∀ c ∈ ·, Shown options c)
  | .anonymous _ described => ∀ c ∈ described, Shown options c

variable (Q Shown depth options ty symbol) in
/-- What the text of a type of some kind needs: its questions are answered, and the types that it shows
are among those whose texts can be dealt with. -/
def Serves : Kind → Prop
  | .package | .error _ => ∀ otherwise, Q (.read (.qualified depth symbol otherwise)) fun _ => True
  | .classType info =>
      Q (.read (.inside symbol info.outer)) (fun inside => inside → Shown options info.outer) ∧
      (∀ qualified, Q (.read (.naming depth symbol qualified)) (ServesName Q Shown options ty)) ∧
      Q (.typeArguments depth ty) (∀ c ∈ ·, Shown options c) ∧
      (options.printRegions → Q (.regionArguments depth ty) (fun _ => True) ∧
        Q (.effectArguments depth ty) fun _ => True)
  | .array info => Shown options info.elem ∧ (options.printRegions →
      Q (.read (.dimensions depth info.elem)) fun found => Shown options found.2 ∧
        ∀ dim ∈ (info.region, info.indexVar) :: found.1, Q (.read (.dimension dim)) fun _ => True)
  | .method info => (∀ c ∈ info.params, Shown options c) ∧ Shown options info.result
  | .forAll info => (∀ c ∈ info.typeVars, Shown options c) ∧ Shown options info.body
  | .captured _ wildcard => Shown options wildcard
  | .wildcard info => (info.kind ≠ .unbounded → Shown options info.bound) ∧
      Q (.read (.formalBound depth options ty)) (∀ c ∈ ·, Shown { options with verbose := false } c)
  | .placeholder info => Shown options (info.solution.getD info.origin)
  | _ => Q (.read (.symbol symbol)) fun _ => True

variable (hgo : ∀ options ty, Shown options ty → (go options ty).Meets Q)

include hgo

theorem types_meets {l : List TypeId} (h : ∀ c ∈ l, Shown options c) : (types options go l).Meets Q :=
  (meets_mapM fun c hc => hgo options c (h c hc)).map

theorem name_meets {naming : Naming} (h : ServesName Q Shown options ty naming) :
    (name put options go ty naming).Meets Q := by
  cases naming with
  | text => trivial
  | intersection =>
    refine ⟨_, h.1, fun parent hparent => ?_⟩
    have hrest : ∀ first : String, (do
        let rest ← (← put (.interfaces ty)).mapM (go options)
        return first ++ String.join (rest.map ("&" ++ ·))).Meets Q := fun first =>
      ⟨_, h.2, fun l hl => (meets_mapM fun c hc => hgo options c (hl c hc)).map⟩
    cases parent with
    | none => exact hrest ""
    | some c => exact (hgo options c (hparent c rfl)).bind hrest
  | anonymous sym described =>
    cases described with
    | none => trivial
    | some c => exact (hgo options c (h c rfl)).bind fun _ => trivial

theorem class_meets {info : ClassInfo}
    (h : Serves Q Shown depth options ty symbol (.classType info)) :
    (step put depth options go ty symbol (.classType info)).Meets Q := by
  obtain ⟨hinside, hnaming, htypes, hlists⟩ := h
  have hname : ∀ qualified,
      (put (.read (.naming depth symbol qualified)) >>= name put options go ty).Meets Q := fun qualified =>
    ⟨_, hnaming qualified, fun _ h => name_meets hgo h⟩
  have hhead : (head put depth options go ty symbol info.outer).Meets Q := by
    refine ⟨_, hinside, fun inside houter => ?_⟩
    cases inside with
    | true => exact (hgo options _ (houter rfl)).bind fun _ => (hname false).map
    | false => exact hname true
  refine hhead.bind fun text => ⟨_, htypes, fun inner hinner => ?_⟩
  have htext : ∀ regions effects, (bracketed options go text inner regions effects).Meets Q := by
    intro regions effects
    unfold bracketed
    split
    · trivial
    · exact (types_meets hgo hinner).map
  split
  · next hregions =>
    exact ⟨_, (hlists hregions).1, fun regions _ => ⟨_, (hlists hregions).2, fun _ _ => htext regions _⟩⟩
  · exact htext [] []

/-- **One step**: the questions about a type, and those about the types that its text shows. -/
theorem step_meets {kind : Kind} (h : Serves Q Shown depth options ty symbol kind) :
    (step put depth options go ty symbol kind).Meets Q := by
  cases kind with
  | package | error => exact meets_put (h _)
  | classType => exact class_meets hgo h
  | array =>
    rw [step, array]
    split
    · next hregions =>
      refine ⟨_, h.2 hregions, fun found hfound => (hgo options _ hfound.1).bind fun inner => ?_⟩
      exact (meets_mapM fun dim hdim => meets_put (hfound.2 dim hdim)).map
    · exact (hgo options _ h.1).map
  | method | forAll => exact (types_meets hgo h.1).bind fun _ => (hgo options _ h.2).map
  | typeVar => exact (meets_put h).map
  | captured info w => exact (hgo options w h).map
  | wildcard =>
    have hformal : (formal put depth options go ty).Meets Q := by
      refine ⟨_, h.2, fun bound hbound => ?_⟩
      cases bound with
      | none => trivial
      | some c => exact (hgo _ c (hbound c rfl)).map
    rw [step, Rendering.wildcard]
    split
    · exact hformal.map
    · next hbounded => exact (hgo options _ (h.1 hbounded)).bind fun _ => hformal.map
  | placeholder info =>
    obtain ⟨origin, _, _, solution⟩ := info
    cases solution with
    | none => exact (hgo options _ h).map
    | some => exact hgo options _ h
  | _ => exact meets_put h

end Meets

end Dialogue

end RegionTypes

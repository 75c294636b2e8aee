import RegionTypes.Proofs.Completion.Backfilled
import RegionTypes.Proofs.Store.Dialect

/-!
# Rendering twice

Rendering a type loads the classes that it mentions, so the second time it finds another store.  If the
completers only ask questions and define classes, loading supplies lists and supertypes of classes and
changes nothing else.  A list that has been answered stays, and no text shows the supertypes of a class
that has a name.

* `Store.SetsList.skeleton`, `Store.Defines.skeleton` — **what is supplied shows in no skeleton.**
* `Dialect.defining`, `perform_skeleton` — so completers that ask and define leave the skeleton alone.
* `Question.Lasting`, `text_lasting` — every question that a text asks is answered as the first time.
* `rendering_repeats` — **rendering is repeatable**.
-/

namespace RegionTypes

open Run

variable {α β : Type} {r s s' t : Session} {n : Nat}

/-! ### What loading supplies -/

/-- A change to one entry that does not show in what is made of each entry. -/
theorem map_modify_eq_map {f : α → α} {g : α → β} (h : ∀ a, g (f a) = g a) (entries : Array α) (i : Nat) :
    (entries.modify i f).map g = entries.map g := by
  refine Array.ext_getElem? fun j => ?_
  rw [Array.getElem?_map, Array.getElem?_map, Array.getElem?_modify]
  split
  · rw [Option.map_map]
    exact congrArg (Option.map · _) (funext h)
  · rfl

namespace Store

/-- The other store has the same skeleton. -/
def SameSkeleton (s t : Store) : Prop := t.skeleton = s.skeleton

instance : IsPreorder Store SameSkeleton where
  refl _ := rfl
  trans _ _ _ hst htu := htu.trans hst

variable {s t : Store}

theorem skeleton_updateType {ty : TypeId} {f : TypeData → TypeData}
    (hf : ∀ data, (f data).frame = data.frame) : s.SameSkeleton (s.updateType ty f) :=
  Prod.ext (map_modify_eq_map (g := TypeData.frame) hf s.types ty.index) rfl

theorem skeleton_updateSymbol {sym : SymbolId} {f : Symbol → Symbol} (hf : ∀ y, (f y).face = y.face) :
    s.SameSkeleton (s.updateSymbol sym f) :=
  Prod.ext rfl (map_modify_eq_map (g := Symbol.face) hf s.symbols sym.index)

theorem skeleton_mapClass {ty : TypeId} {f : ClassInfo → ClassInfo}
    (hf : ∀ info, (f info).outer = info.outer) : s.SameSkeleton (s.reviseType ty (·.mapClass f)) := by
  refine skeleton_updateType fun data => ?_
  obtain ⟨symbol, erased, literal, kind⟩ := data
  cases kind with
  | classType info => simp only [TypeData.frame, Kind.mapClass, hf]
  | _ => rfl

theorem SetsList.skeleton (h : s.SetsList t) : s.SameSkeleton t := by
  cases h with
  | settle slot ty data info hslot => exact skeleton_mapClass fun info => by cases hslot <;> rfl
  | remember slot ty list data info hslot => exact skeleton_mapClass fun info => by cases hslot <;> rfl

theorem Defines.skeleton (h : s.Defines t) : s.SameSkeleton t := by
  cases h with
  | define => exact skeleton_mapClass fun _ => rfl

theorem Marks.skeleton (h : s.Marks t) : s.SameSkeleton t := by
  cases h with
  | inFlight => rfl
  | detach | completing => exact skeleton_updateSymbol fun _ => rfl

/-- Every class has a name. -/
def NamesEveryClass (s : Store) : Prop :=
  ∀ data ∈ s.types, data.kind.class?.isSome → (data.symbol.bind s.symbol?).all fun y => !y.name.isEmpty

instance (s : Store) : Decidable s.NamesEveryClass :=
  inferInstanceAs (Decidable (∀ data ∈ s.types, data.kind.class?.isSome →
    (data.symbol.bind s.symbol?).all fun y => !y.name.isEmpty))

end Store

/-- The commands that ask and the one that defines a class. -/
def Dialect.defining : Dialect where
  Allows command := command.changes = false ∨ command.defines = true
  script _ _ _ _ h := by simp [Command.changes, Command.defines] at h

/-- The questions that a loader answers whose completers keep to these commands. -/
theorem asks_skeleton {depth : Nat} (h : ∀ command, Dialect.defining.Allows command →
      Along (Dialect.defining.Along Store.SameSkeleton) (perform depth command)) :
    (completerLoader depth).Asks (completerLoader depth)
      (Tie.ofMoves (Dialect.defining.Along Store.SameSkeleton)) :=
  Loader.Tied.asks ⟨fun _ _ h hs => ⟨h.routine.loadsIn hs, h.skeleton⟩, fun sym =>
    Tie.keeps_ofMoves (Dialect.completerLoader_along (fun _ _ h => h.skeleton) h sym)⟩

/-- **Commands that ask and define** leave the skeleton alone, whatever completers they start. -/
theorem perform_skeleton (depth : Nat) : ∀ command, Dialect.defining.Allows command →
    Along (Dialect.defining.Along Store.SameSkeleton) (perform depth command) := by
  induction depth with
  | zero => exact fun _ _ => tooDeep_still.of_eq
  | succ depth ih =>
    intro command hcommand
    rcases hcommand with hasks | hdefines
    · exact (execute_question_exact (asks_skeleton ih) depth hasks).along
    · exact (execute_define_keeps (asks_skeleton ih) depth hdefines fun _ _ h hs =>
        ⟨h.routine.loadsIn hs, h.skeleton⟩).along

/-! ### Asking again -/

/-- A session to which loading has led from a session between the steps of a script. -/
structure Session.Since (r s : Session) : Prop where
  idle : s.store.Idle
  loads : s.store.LoadsIn .defining
  skeleton : r.store.SameSkeleton s.store

/-- Wherever loading has led from `r`, the question is answered again later as it was answered, and the
answer is as described. -/
def Question.Lasting (r : Session) (n : Nat) {β : Type} (question : Question β) (post : β → Prop) : Prop :=
  ∀ s b s', r.Since s → question.ask (completerLoader n) s = .ok b s' → post b ∧
    ∀ t, r.Since s' → r.store.SameSkeleton t.store → s'.store.Later t.store →
      question.ask (completerLoader n) t = .ok b t

theorem Lookup.lasting (lookup : Lookup β) {post : β → Prop} (h : lookup.isNaming = false)
    (hpost : ∀ b, lookup.run r = .ok b r → post b) : (Question.read lookup).Lasting r n post := by
  intro s b s' hs hask
  refine ⟨hpost b ((lookup.reads h).again hs.skeleton.symm hask).2, fun t _ ht _ => ?_⟩
  exact ((lookup.reads h).again (ht.trans hs.skeleton.symm) hask).2

theorem Listing.answered_again (q : Listing β) [q.Lawful] {depth : Nat} {ty : TypeId} {list : List β}
    (h : q.ask (completerLoader n) depth ty s = .ok list s') (hidle : s'.store.Idle)
    (hlater : s'.store.Later t.store) : q.ask (completerLoader n) depth ty t = .ok list t :=
  q.ask_of_held (hlater.precedes.held (q.held_of_ask (completerLoader_later n) h hidle))

section Text

variable {ty : TypeId} {data : TypeData} {depth : Nat} {options : DisplayOptions}

/-- **A class that has a name is shown by it.** -/
theorem naming_lasting (hr : r.store.NamesEveryClass) (hdata : r.store.type? ty = some data)
    (hclass : data.kind.class?.isSome) (full : Bool) :
    (Question.read (.naming depth data.symbol full)).Lasting r n
      fun naming => ∃ name, naming = .text name := by
  cases hsym : data.symbol with
  | none =>
    intro s b s' _ hask
    obtain ⟨rfl, rfl⟩ := EStateM.Result.ok.inj hask
    exact ⟨⟨_, rfl⟩, fun _ _ _ _ => rfl⟩
  | some sym =>
    let named : Run Naming := do
      let y ← symbolData sym
      if full then return .text (← qualifiedName depth sym) else return .text y.name
    have hreads : Reads named := by
      refine reads_symbolData (fun _ => rfl) fun y => ?_
      split
      · exact (qualifiedName_reads depth sym).map
      · exact reads_pure _
    -- as long as the symbol has a name, nothing else is looked at
    have hnamed : ∀ u : Session, r.store.SameSkeleton u.store →
        (Lookup.naming depth (some sym) full).run u = named u := by
      intro u hu
      refine bind_run_congr rfl fun y u' hread => ?_
      obtain ⟨rfl, hy⟩ := eq_of_symbolData hread
      obtain ⟨y₀, hy₀, hface⟩ := Store.exists_symbol_of_skeleton hu.symm hy
      have hname : y₀.name = y.name := (congrArg Symbol.name hface :)
      have hall := hr data (Store.mem_types hdata) hclass
      rw [hsym, Option.bind_some, hy₀, Option.all_some, hname] at hall
      rw [if_pos hall]
    intro s b s' hs hask
    rw [Question.ask, hnamed s hs.skeleton] at hask
    refine ⟨?_, fun t _ ht _ => ?_⟩
    · obtain ⟨y, s₁, -, hrest⟩ := exists_of_bind hask
      split at hrest
      · obtain ⟨name, _, -, hlast⟩ := exists_of_bind hrest
        exact ⟨name, (EStateM.Result.ok.inj hlast).1.symm⟩
      · exact ⟨y.name, (EStateM.Result.ok.inj hrest).1.symm⟩
    · rw [Question.ask, hnamed t ht]
      exact (hreads.again (ht.trans hs.skeleton.symm) hask).2

/-- All that one step of rendering asks is answered again. -/
theorem lasting_serves (hr : r.store.NamesEveryClass) (hdata : r.store.type? ty = some data) :
    Dialogue.Serves (Question.Lasting r n) (fun _ _ => True) depth options ty data.symbol
      data.kind.shown := by
  have hread {γ : Type} (lookup : Lookup γ) (h : lookup.isNaming = false) :
      (Question.read lookup).Lasting r n fun _ => True := lookup.lasting h fun _ _ => trivial
  cases hkind : data.kind with
  | package | error => exact fun _ => hread _ rfl
  | classType =>
    refine ⟨(Lookup.inside _ _).lasting rfl fun _ _ _ => trivial, fun full s naming s' hs hask => ?_, ?_,
      fun _ => ⟨?_, ?_⟩⟩
    · obtain ⟨⟨name, rfl⟩, hagain⟩ := naming_lasting hr hdata (by rw [hkind]; rfl) full s naming s' hs hask
      exact ⟨trivial, hagain⟩
    · exact fun s b s' hs hask => ⟨fun _ _ => trivial, fun t hs' _ hlater =>
        Listing.typeArguments.answered_again hask hs'.idle hlater⟩
    · exact fun s b s' hs hask => ⟨trivial, fun t hs' _ hlater =>
        Listing.regionArguments.answered_again hask hs'.idle hlater⟩
    · exact fun s b s' hs hask => ⟨trivial, fun t hs' _ hlater =>
        Listing.effectArguments.answered_again hask hs'.idle hlater⟩
  | array => exact ⟨trivial, fun _ => (Lookup.dimensions depth _).lasting rfl fun _ _ =>
      ⟨trivial, fun _ _ => hread _ rfl⟩⟩
  | method | forAll => exact ⟨fun _ _ => trivial, trivial⟩
  | captured | placeholder => trivial
  | wildcard => exact ⟨fun _ => trivial, (Lookup.formalBound depth options ty).lasting rfl
      fun _ _ _ _ => trivial⟩
  | _ => exact hread _ rfl

/-- **Every question that a text asks is answered again**, by induction on the depth. -/
theorem text_lasting (hr : r.store.NamesEveryClass) (depth : Nat) : ∀ options ty, True →
    (Dialogue.text depth options ty).Meets (Question.Lasting r n) := by
  induction depth with
  | zero => exact fun _ _ _ => Dialogue.meets_put (P := fun _ => True) fun _ _ _ _ hask => by cases hask
  | succ depth ih =>
    intro options ty _
    refine ⟨fun found => ∃ data, r.store.type? ty = some data ∧ found = (data.symbol, data.kind.shown),
      (Lookup.record ty).lasting rfl fun found hrun => ?_, fun found hfound => ?_⟩
    · obtain ⟨data, s₁, hdata, hrest⟩ := exists_of_bind hrun
      obtain ⟨rfl, rfl⟩ := EStateM.Result.ok.inj hrest
      exact ⟨data, (eq_of_typeData hdata).2, rfl⟩
    · obtain ⟨data, hdata, rfl⟩ := hfound
      exact Dialogue.step_meets ih (lasting_serves hr hdata)

/-- **The dialogue can be held again** where it ended, and comes to the same result. -/
theorem Dialogue.Meets.again {d : Dialogue α} {a : α} (hd : d.Meets (Question.Lasting r n))
    (hs : r.Since s) (hrun : d.run (completerLoader n) s = .ok a t) :
    d.run (completerLoader n) t = .ok a t := by
  have hloads := asks_skeleton (perform_skeleton n)
  have hlater := (completerLoader_later n).keeps.toAsks
  induction d generalizing s with
  | done =>
    obtain ⟨rfl, rfl⟩ := EStateM.Result.ok.inj hrun
    rfl
  | ask question next ih =>
    obtain ⟨P, hquestion, hnext⟩ := hd
    obtain ⟨b, s', hask, hrest⟩ := exists_of_bind hrun
    obtain ⟨hb, hagain⟩ := hquestion s b s' hs hask
    obtain ⟨hloaded, hsame⟩ := (question.ask_keeps hloads).along.of_ok hask hs.loads
    have hs' : r.Since s' :=
      { idle := (Tie.Joins.balanced (question.ask_keeps (completerLoader_framed n s)) hask).idle hs.idle
        loads := hloaded
        skeleton := hsame.trans hs.skeleton }
    have hafter := (((next b).run_keeps hloads).along.of_ok hrest hs'.loads).2
    have ht := hagain t hs' (hafter.trans hs'.skeleton) (((next b).run_keeps hlater).along.of_ok hrest)
    exact (bind_run ht).trans (ih b (hnext b hb) hs' hrest)

end Text

/-- **Rendering is repeatable.**  Let a type be rendered between the steps of a script.  Every class has a
name.  Completers may be pending on any class; they ask questions and define classes, in any order.  Then
rendering the type again gives the same text, and changes nothing. -/
theorem rendering_repeats (s s' : Session) (hs : s.TopLevel) (hloads : s.store.LoadsIn .defining)
    (hnames : s.store.NamesEveryClass) (n : Nat) (options : DisplayOptions) (ty : TypeId) (text : String)
    (hfirst : perform (n + 1) (.display (.handle ty) (some options)) s = .ok (.ok (.text text)) s') :
    perform (n + 1) (.display (.handle ty) (some options)) s' = .ok (.ok (.text text)) s' := by
  have hplan : perform (n + 1) (.display (.handle ty) (some options)) =
      (do return .ok (.text (← render (completerLoader n) n options ty)) : Run Outcome) :=
    bind_assoc (render (completerLoader n) n options ty) _ _
  rw [hplan] at hfirst ⊢
  obtain ⟨found, u, hrender, hrest⟩ := exists_of_bind hfirst
  obtain ⟨hfound, rfl⟩ := EStateM.Result.ok.inj hrest
  obtain rfl := Answer.text.inj (Except.ok.inj hfound)
  rw [← Dialogue.run_text] at hrender ⊢
  exact bind_run ((text_lasting hnames n options ty trivial).again ⟨hs.idle, hloads, rfl⟩ hrender)

/-- A session with a class `C` that is still to be loaded, which defines its parameter `T`, and a method
from the type variable to the class. -/
def pendingClass : Session :=
  .afterCommands
    [.newTypeVar "T" none none,
      .declareClass "C" none .none none,
      .methodType [.handle ⟨12⟩] (.handle ⟨13⟩) [],
      .setCompleter (.handle ⟨12⟩)
        [(none, .display (.handle ⟨14⟩) none),
          (none, .defineClass (.handle ⟨13⟩) [.handle ⟨12⟩] [] [] none [])] false none]

/-- Rendering the method loads the class, whose completer renders it too. -/
theorem rendering_repeats_pendingClass :
    let display := Command.display (.handle ⟨14⟩) (some {})
    let s' := (perform 9 display).after pendingClass
    pendingClass.TopLevel ∧ pendingClass.store.LoadsIn .defining ∧ pendingClass.store.NamesEveryClass ∧
      perform 9 display pendingClass = .ok (.ok (.text "(T)C<T>")) s' ∧
      perform 9 display s' = .ok (.ok (.text "(T)C<T>")) s' := by
  have htop : pendingClass.TopLevel := by
    simp only [pendingClass, Session.afterCommands, List.foldl_cons, List.foldl_nil]
    exact .after_step (.after_step (.after_step (.after_step (.initial {} .empty) rfl) rfl) rfl) rfl
  have hloads : pendingClass.store.LoadsIn .defining := by
    intro sym y completer hy hcompleter
    have hall : ∀ y ∈ pendingClass.store.symbols, ∀ completer ∈ y.completer,
        ∀ step ∈ completer.script, step.2.changes = false ∨ step.2.defines = true := by
      decide +kernel
    exact hall y (Array.mem_of_getElem? hy) completer hcompleter
  have hnames : pendingClass.store.NamesEveryClass := by decide +kernel
  exact ⟨htop, hloads, hnames, rfl, rendering_repeats _ _ htop hloads hnames 8 {} ⟨14⟩ _ rfl⟩

/-- A session with a class `D` and a class without a name, which loading makes a subclass of `D`. -/
def lateSuperclass : Session :=
  .afterCommands
    [.declareClass "D" none .none none,
      .declareClass "" none .none none,
      .setCompleter (.handle ⟨12⟩)
        [(none, .defineClass (.handle ⟨13⟩) [] [] [] (some (.handle ⟨12⟩)) [])] false none]

/-- A session with a method from a placeholder to a class, which on being loaded solves the placeholder. -/
def lateSolution : Session :=
  .afterCommands
    [.newTypeVar "T" none none,
      .declareClass "C" none .none none,
      .placeholder (.handle ⟨12⟩),
      .methodType [.handle ⟨14⟩] (.handle ⟨13⟩) [],
      .setCompleter (.handle ⟨12⟩)
        [(none, .setInstantiation (.handle ⟨14⟩) (.handle WellKnown.int))] false none]

/-- The class without a name is described before its arguments are asked for, which loads it; so only the
second text shows its superclass.  The same goes for the solution of the placeholder. -/
theorem rendering_changes :
    let render ty := perform 9 (.display (.handle ty) (some {}))
    (lateSuperclass.TopLevel ∧ ∃ s' s'',
      render ⟨13⟩ lateSuperclass = .ok (.ok (.text "<anonymous>")) s' ∧
        render ⟨13⟩ s' = .ok (.ok (.text "<anonymous D>")) s'') ∧
    lateSolution.TopLevel ∧ ∃ s' s'',
      render ⟨15⟩ lateSolution = .ok (.ok (.text "(T?)C")) s' ∧
        render ⟨15⟩ s' = .ok (.ok (.text "(int)C")) s'' := by
  refine ⟨⟨?_, _, _, rfl, rfl⟩, ?_, _, _, rfl, rfl⟩
  · simp only [lateSuperclass, Session.afterCommands, List.foldl_cons, List.foldl_nil]
    exact .after_step (.after_step (.after_step (.initial {} .empty) rfl) rfl) rfl
  · simp only [lateSolution, Session.afterCommands, List.foldl_cons, List.foldl_nil]
    exact .after_step (.after_step (.after_step (.after_step (.after_step (.initial {} .empty) rfl) rfl) rfl)
      rfl) rfl

end RegionTypes

import RegionTypes.Proofs.Completion.Answering

/-!
# Omitted region arguments

What a class type answers when it is asked for its region arguments: those that it was declared with,
or a root for each formal parameter of its class if it was written without any.

* `Store.Backfilled.regions_cases` — what a class type keeps, said of the store alone.
* `omitted_regions_filled` — **the region arguments of every class type**, whatever completers run in the
  middle of the question, unless the class is damaged.
-/

namespace RegionTypes

open Run

namespace Store

variable {s : Store} {ty c : TypeId} {data : TypeData} {list formals : List Path} {depth : Nat}

/-- The region arguments of a type are kept by the type itself, so no depth is needed to find them. -/
theorem held_regions (h : s.held .regionArguments depth c = some formals) (n : Nat) :
    s.held .regionArguments (n + 1) c = some formals := by
  obtain ⟨d, rfl, hlist | ⟨data, hdata, hclass, hother⟩⟩ := held_cases h
  · exact held_of_list? hlist
  · rw [held_other hdata hclass]
    have hlocal : ∀ k : Kind, ∃ own, Listing.regionArguments.other k = .inl own := by
      intro k
      cases k <;> exact ⟨_, rfl⟩
    obtain ⟨own, hown⟩ := hlocal data.kind
    rw [hown] at hother ⊢
    exact hother

/-- **What a class type keeps** if its class is not damaged: the declared list, or a root for each
formal parameter. -/
theorem Backfilled.regions_cases (h : s.Backfilled) (hdata : s.type? ty = some data)
    (hintact : s.Intact data.symbol) (hlist : s.list? .resolvedRegions ty = some list) :
    ∃ declared, s.list? .regionArgs ty = some declared ∧
      (data.erased = true ∨ s.canonical? data.symbol = some ty ∨ s.canonical? data.symbol = none ∨
        declared ≠ [] → list = declared) ∧
      (data.erased = false → declared = [] → ∀ c, s.canonical? data.symbol = some c → c ≠ ty →
        ∃ formals depth, s.held .regionArguments depth c = some formals ∧
          list = List.replicate formals.length Path.root) := by
  have hfollows : Derivation.RegionsFollow s.canonical? s ty list :=
    h.follows .regions ty data list hlist hdata hintact
  cases hfollows with
  | @given found declared hfound hdeclared hgiven =>
    obtain rfl := Option.mem_unique hdata hfound
    refine ⟨_, hdeclared, fun _ => rfl, fun herased hempty => ?_⟩
    simp [herased, hempty] at hgiven
  | own hfound hdeclared _ hown =>
    obtain rfl := Option.mem_unique hdata hfound
    exact ⟨[], hdeclared, fun _ => rfl, fun _ _ c hc hne => absurd (hown c hc) hne⟩
  | @omitted found c formals depth hfound hdeclared herased hcanonical hne hformals =>
    obtain rfl := Option.mem_unique hdata hfound
    refine ⟨[], hdeclared, fun hcases => ?_, fun _ _ c' hc' _ => ?_⟩
    · simp [herased, hcanonical, hne] at hcases
    · obtain rfl := Option.mem_unique hcanonical hc'
      exact ⟨formals, depth, hformals, rfl⟩

end Store

/-- **Omitted region arguments are filled in.**  Between the steps of a script every class type with a
symbol of the store has an answer to the question for its region arguments, unless a completer that the
question starts comes to a stop.  If the class is not damaged by then, the answer is the list that the
type was declared with in four cases: the type is erased, it is the canonical type of its symbol, the
symbol has no canonical type, or the list is not empty.  In all other cases it is a root for each region
argument of the canonical type.  The region of the owner is the first of them, or the root. -/
theorem omitted_regions_filled {s : Session} {ty : TypeId} {data : TypeData} {info : ClassInfo}
    (hs : s.TopLevel) (hdata : s.store.type? ty = some data) (hkind : data.kind = .classType info)
    (hsymbol : s.store.Knows data.symbol) (depth : Nat) :
    (perform (depth + 4) (.ask .regionArguments (.handle ty))).Answers (depth + 3) s ∧
    ∀ outcome s', perform (depth + 4) (.ask .regionArguments (.handle ty)) s = .ok outcome s' →
      ∃ list, outcome = .ok (.regions list) ∧
        perform (depth + 4) (.ask .ownerRegion (.handle ty)) s =
          .ok (.ok (.region (list.head?.getD Path.root))) s' ∧
        ((∀ sym, data.symbol = some sym → ¬ s'.store.Damaged sym) →
          ∃ declared, s'.store.list? .regionArgs ty = some declared ∧
            (data.erased = true ∨ s'.store.canonical? data.symbol = some ty ∨
              s'.store.canonical? data.symbol = none ∨ declared ≠ [] → list = declared) ∧
            (data.erased = false → declared = [] → ∀ c, s'.store.canonical? data.symbol = some c →
              c ≠ ty → ∃ formals, list = List.replicate formals.length Path.root ∧
                perform (depth + 4) (.ask .regionArguments (.handle c)) s' =
                  .ok (.ok (.regions formals)) s')) := by
  have hload := completerLoader_later (depth + 3)
  refine ⟨?_, fun outcome s' hrun => ?_⟩
  · rw [perform_ask]
    exact (regionArguments_answers hs.attached hdata hsymbol).map.map
  · have hs' := hs.perform hrun
    rw [perform_ask, inquire, bind_assoc] at hrun
    obtain ⟨list, u, hask, hrest⟩ := exists_of_bind hrun
    obtain ⟨rfl, rfl⟩ := EStateM.Result.ok.inj hrest
    refine ⟨list, rfl, ?_, fun hsound => ?_⟩
    · have howner : ownerRegion (completerLoader (depth + 3)) (depth + 3) ty s =
          .ok (list.head?.getD Path.root) u := bind_run hask
      rw [perform_ask, inquire, bind_assoc, bind_run howner]
      rfl
    · have hlater : s.store.Later u.store := (hload.keeps.regionArguments _ ty).along.of_ok hask
      obtain ⟨data', info', hdata', hkind', hkeeps, -⟩ := hlater.precedes.classType hdata hkind
      have hlist := Listing.list?_of_ask (q := .regionArguments) hload (depth + 2) hask hs'.idle
        (Store.class?_eq_some.2 ⟨data', hdata', hkind'⟩)
      have hintact : u.store.Intact data'.symbol := by
        rw [hkeeps.symbol]
        exact hs'.attached.intact hsound
      obtain ⟨declared, hdeclared, hgiven, homitted⟩ :=
        hs'.backfilled.regions_cases hdata' hintact hlist
      rw [hkeeps.symbol, hkeeps.erased] at hgiven homitted
      refine ⟨declared, hdeclared, hgiven, fun herased hempty c hc hne => ?_⟩
      obtain ⟨formals, d, hformals, rfl⟩ := homitted herased hempty c hc hne
      have hanswer : regionArguments (completerLoader (depth + 3)) (depth + 3) c u = .ok formals u :=
        Listing.regionArguments.ask_of_held (Store.held_regions hformals (depth + 2))
      refine ⟨formals, rfl, ?_⟩
      rw [perform_ask, inquire, bind_assoc, bind_run hanswer]
      rfl

/-- The regions that a step answers. -/
def Run.regions? (action : Run Outcome) (s : Session) : Option (List Path) :=
  match action s with
  | .ok (.ok (.regions list)) _ => some list
  | _ => none

theorem Run.ok_of_regions? {action : Run Outcome} {s : Session} {list : List Path}
    (h : action.regions? s = some list) : action s = .ok (.ok (.regions list)) (action.after s) := by
  unfold regions? at h
  split at h
  · next found s' hrun => rw [after_of_ok hrun, hrun, Option.some.inj h]
  · cases h

/-- A use of a class that is loaded when its region arguments are asked for. -/
theorem omitted_regions_filled_pending :
    let declared := (makeStep (perform 9) (none, .declareClass "C" none .none none)).after
      (.initial {} .empty)
    let lazy := (makeStep (perform 9) (none, .setCompleter (.handle ⟨11⟩)
      [(none, .defineClass (.handle ⟨12⟩) [] [⟨[.param "P"]⟩] [] none [])] false none)).after declared
    let s := (makeStep (perform 9)
      (none, .classType (.handle ⟨11⟩) none [] [] [] none false)).after lazy
    ∃ s' formals, s.store.Has ⟨13⟩ ∧
      perform 9 (.ask .regionArguments (.handle ⟨13⟩)) s = .ok (.ok (.regions [Path.root])) s' ∧
      perform 9 (.ask .ownerRegion (.handle ⟨13⟩)) s = .ok (.ok (.region Path.root)) s' ∧
      perform 9 (.ask .regionArguments (.handle ⟨12⟩)) s' = .ok (.ok (.regions formals)) s' ∧
      [Path.root] = List.replicate formals.length Path.root := by
  intro declared lazy s
  have hdeclared : declared.TopLevel := .after_step (.initial {} .empty) rfl
  have hlazy : lazy.TopLevel := .after_step hdeclared rfl
  have hs : s.TopLevel := .after_step hlazy rfl
  have hdata : s.store.type? ⟨13⟩ = some _ := rfl
  let s' := (perform 9 (.ask .regionArguments (.handle ⟨13⟩))).after s
  have hrun : perform 9 (.ask .regionArguments (.handle ⟨13⟩)) s = .ok (.ok (.regions [Path.root])) s' :=
    Run.ok_of_regions? (by decide +kernel)
  have hknows : s.store.Knows (some ⟨11⟩) := by
    rintro sym ⟨⟩
    exact ⟨_, rfl⟩
  have hkind : (s'.store.symbol? ⟨11⟩).map Symbol.kind = some .type := by decide +kernel
  have hsound : ∀ sym, some (⟨11⟩ : SymbolId) = some sym → ¬ s'.store.Damaged sym := by
    rintro sym ⟨⟩ ⟨y, _, hy, herror, -⟩
    rw [hy, Option.map_some, herror] at hkind
    cases hkind
  have hempty : s'.store.list? .regionArgs ⟨13⟩ = some [] := by decide +kernel
  have hcanonical : s'.store.canonical? (some ⟨11⟩) = some ⟨12⟩ := by decide +kernel
  obtain ⟨-, hanswer⟩ := omitted_regions_filled hs hdata rfl hknows 5
  obtain ⟨list, hlist, howner, hfilled⟩ := hanswer _ _ hrun
  obtain rfl : [Path.root] = list := Answer.regions.inj (Except.ok.inj hlist)
  obtain ⟨declared, hdeclared, -, homitted⟩ := hfilled hsound
  obtain ⟨formals, hformals, hasked⟩ := homitted rfl
    (Option.some.inj (hdeclared.symm.trans hempty)) ⟨12⟩ hcanonical (by decide)
  exact ⟨s', formals, by decide +kernel, hrun, howner, hasked, hformals⟩

end RegionTypes

import RegionTypes.Proofs.Region.Nonempty
import RegionTypes.Proofs.Serial.Spelling

/-!
# Substitutions compose

Substituting region parameters twice is substituting once: the second substitution is carried out in
the actuals of the first, and takes care of the parameters that the first leaves alone.  Substitution
in summaries goes through unions, and the two kinds of substitution can be exchanged.

* `Path.actual?_compose` — what stands for a parameter after both substitutions.
* `Path.subst_subst` — **substitutions in a path compose**.  The actuals of the first substitution
  need an element each, or what follows the parameter would come to the front.
* `Summary.substRegions_substRegions`, `Summary.substRegions_union`, `Summary.substVar_union`,
  `Summary.substRegions_substVar`, `Summary.substVar_substVar` — the laws for summaries, each from what
  the members of both sides are.
* `Summary.substitutions_compose` — all of them together.
-/

namespace RegionTypes

namespace Path

variable {formals actuals : List Path}

/-! ### Paths -/

/-- What stands for a parameter in the second half of two lists counts only if there is nothing for it
in the first half. -/
theorem actualFor?_append (label : String) (later laterActuals : List Path)
    (h : formals.length = actuals.length) :
    actualFor? label (formals ++ later) (actuals ++ laterActuals) =
      (actualFor? label formals actuals).or (actualFor? label later laterActuals) := by
  unfold actualFor?
  rw [List.zip_append h, List.find?_append, Option.map_or]

theorem actualFor?_map (label : String) (formals actuals : List Path) (f : Path → Path) :
    actualFor? label formals (actuals.map f) = (actualFor? label formals actuals).map f := by
  unfold actualFor?
  rw [List.zip_map_right, List.find?_map, Option.map_map, Option.map_map]
  rfl

/-- What a leading parameter is replaced by in the end: what it is replaced by first, after the second
substitution, or what it is replaced by in the second one. -/
theorem actual?_compose (p : Path) (later laterActuals : List Path)
    (h : formals.length = actuals.length) :
    p.actual? (formals ++ later) (actuals.map (·.subst later laterActuals) ++ laterActuals) =
      ((p.actual? formals actuals).map (·.subst later laterActuals)).or
        (p.actual? later laterActuals) := by
  unfold actual?
  cases p.leadingParam? with
  | none => rfl
  | some label =>
    have hlength : formals.length = (actuals.map (·.subst later laterActuals)).length := by
      rw [List.length_map, h]
    simp only [Option.bind_some, actualFor?_append label _ _ hlength, actualFor?_map]

theorem subst_congr {p : Path} {later laterActuals : List Path}
    (h : p.actual? formals actuals = p.actual? later laterActuals) :
    p.subst formals actuals = p.subst later laterActuals := by
  cases hact : p.actual? later laterActuals with
  | none => rw [subst_of_actual?_eq_none (h.trans hact), subst_of_actual?_eq_none hact]
  | some => rw [subst_of_actual?_eq_some (h.trans hact), subst_of_actual?_eq_some hact]

/-- **Substitutions in a path compose.** -/
theorem subst_subst (p : Path) (later laterActuals : List Path)
    (h : formals.length = actuals.length) (hactuals : ∀ q ∈ actuals, q.elements ≠ []) :
    (p.subst formals actuals).subst later laterActuals =
      p.subst (formals ++ later)
        (actuals.map (·.subst later laterActuals) ++ laterActuals) := by
  have hcompose := p.actual?_compose later laterActuals h
  cases hact : p.actual? formals actuals with
  | none =>
    rw [hact, Option.map_none, Option.none_or] at hcompose
    rw [subst_of_actual?_eq_none hact, subst_congr hcompose]
  | some actual =>
    rw [hact, Option.map_some, Option.some_or] at hcompose
    have hmem : actual ∈ actuals := by
      obtain ⟨label, -, hfor⟩ := Option.bind_eq_some_iff.1 hact
      exact mem_of_actualFor? hfor
    -- the actual has an element, so the second substitution works on its front
    rw [subst_of_actual?_eq_some hact, subst_append (hactuals actual hmem),
      subst_of_actual?_eq_some hcompose]

end Path

/-! ### Effects and summaries -/

theorem Effect.substRegions_substRegions (e : Effect) {formals actuals : List Path}
    (later laterActuals : List Path) (h : formals.length = actuals.length)
    (hactuals : ∀ q ∈ actuals, q.elements ≠ []) :
    (e.substRegions formals actuals).substRegions later laterActuals =
      e.substRegions (formals ++ later)
        (actuals.map (·.subst later laterActuals) ++ laterActuals) := by
  cases e with
  | read r => exact congrArg read (r.subst_subst later laterActuals h hactuals)
  | write r => exact congrArg write (r.subst_subst later laterActuals h hactuals)
  | var => rfl

theorem Effect.substRegions_eq_var_iff {e : Effect} {formals actuals : List Path} {label : String} :
    e.substRegions formals actuals = .var label ↔ e = .var label := by
  cases e with
  | read | write => exact iff_of_false nofun nofun
  | var => exact Iff.rfl

namespace Summary

variable {formals actuals : List Path}

theorem substRegions_substRegions (s : Summary) (later laterActuals : List Path)
    (h : formals.length = actuals.length) (hactuals : ∀ q ∈ actuals, q.elements ≠ []) :
    (s.substRegions formals actuals).substRegions later laterActuals =
      s.substRegions (formals ++ later)
        (actuals.map (·.subst later laterActuals) ++ laterActuals) := by
  have heffect (e : Effect) := e.substRegions_substRegions later laterActuals h hactuals
  refine ext_of_mem fun x => ?_
  rw [mem_substRegions, mem_substRegions]
  constructor
  · rintro ⟨y, hy, rfl⟩
    obtain ⟨e, he, rfl⟩ := mem_substRegions.1 hy
    exact ⟨e, he, (heffect e).symm⟩
  · rintro ⟨e, he, rfl⟩
    exact ⟨_, mem_substRegions.2 ⟨e, he, rfl⟩, heffect e⟩

theorem substRegions_union (s t : Summary) (formals actuals : List Path) :
    (s.union t).substRegions formals actuals =
      (s.substRegions formals actuals).union (t.substRegions formals actuals) := by
  refine ext_of_mem fun x => ?_
  simp only [mem_substRegions, mem_union, or_and_right, exists_or]

theorem substVar_union (s t : Summary) (label : String) (r : Summary) :
    (s.union t).substVar label r = (s.substVar label r).union (t.substVar label r) := by
  refine ext_of_mem fun x => ?_
  simp only [mem_substVar, mem_union, or_and_right]
  exact or_or_or_comm

/-- Region parameters may be substituted before an effect variable is replaced or after it. -/
theorem substRegions_substVar (s : Summary) (label : String) (r : Summary)
    (formals actuals : List Path) :
    (s.substVar label r).substRegions formals actuals =
      (s.substRegions formals actuals).substVar label (r.substRegions formals actuals) := by
  have hvar : .var label ∈ s.substRegions formals actuals ↔ .var label ∈ s := by
    rw [mem_substRegions]
    constructor
    · rintro ⟨e, he, heq⟩
      rwa [← Effect.substRegions_eq_var_iff.1 heq]
    · exact fun h => ⟨_, h, rfl⟩
  refine ext_of_mem fun x => ?_
  rw [mem_substVar, hvar, mem_substRegions, mem_substRegions, mem_substRegions]
  constructor
  · rintro ⟨e, he, rfl⟩
    rcases mem_substVar.1 he with ⟨he, hother⟩ | ⟨hlabel, he⟩
    · exact .inl ⟨⟨e, he, rfl⟩, fun heq => hother (Effect.substRegions_eq_var_iff.1 heq)⟩
    · exact .inr ⟨hlabel, e, he, rfl⟩
  · rintro (⟨⟨e, he, rfl⟩, hother⟩ | ⟨hlabel, e, he, rfl⟩)
    · refine ⟨e, mem_substVar.2 (.inl ⟨he, fun heq => hother ?_⟩), rfl⟩
      exact Effect.substRegions_eq_var_iff.2 heq
    · exact ⟨e, mem_substVar.2 (.inr ⟨hlabel, he⟩), rfl⟩

/-- Two different effect variables may be replaced in either order, if the second replacement does not
bring the first variable back in. -/
theorem substVar_substVar (s : Summary) {first second : String} (r t : Summary)
    (hne : first ≠ second) (hfresh : .var first ∉ t) :
    (s.substVar first r).substVar second t =
      (s.substVar second t).substVar first (r.substVar second t) := by
  have hne' : Effect.var first ≠ .var second := fun h => hne (Effect.var.inj h)
  -- the first variable is there after the second one was replaced exactly if it was there before
  have hfirst : .var first ∈ s.substVar second t ↔ .var first ∈ s := by
    rw [mem_substVar]
    exact ⟨fun h => h.elim And.left fun h => absurd h.2 hfresh, fun h => .inl ⟨h, hne'⟩⟩
  have hsecond : .var second ∈ s.substVar first r ↔
      .var second ∈ s ∨ (.var first ∈ s ∧ .var second ∈ r) := by
    rw [mem_substVar, and_iff_left hne'.symm]
  refine ext_of_mem fun x => ?_
  rw [mem_substVar, hsecond, mem_substVar, mem_substVar, hfirst, mem_substVar, mem_substVar]
  have hx (h : x ∈ t) : x ≠ .var first := fun heq => hfresh (heq ▸ h)
  constructor
  · intro h
    rcases h with ⟨⟨hs, hne₁⟩ | ⟨hmem, hr⟩, hne₂⟩ | ⟨hmem | ⟨hmem, hmem'⟩, ht⟩
    · exact .inl ⟨.inl ⟨hs, hne₂⟩, hne₁⟩
    · exact .inr ⟨hmem, .inl ⟨hr, hne₂⟩⟩
    · exact .inl ⟨.inr ⟨hmem, ht⟩, hx ht⟩
    · exact .inr ⟨hmem, .inr ⟨hmem', ht⟩⟩
  · intro h
    rcases h with ⟨⟨hs, hne₂⟩ | ⟨hmem, ht⟩, hne₁⟩ | ⟨hmem, ⟨hr, hne₂⟩ | ⟨hmem', ht⟩⟩
    · exact .inl ⟨.inl ⟨hs, hne₁⟩, hne₂⟩
    · exact .inr ⟨.inl hmem, ht⟩
    · exact .inl ⟨.inr ⟨hmem, hr⟩, hne₂⟩
    · exact .inr ⟨.inr ⟨hmem, hmem'⟩, ht⟩

/-- **Substitutions compose.**  Two substitutions of region parameters, in a path or in a summary, are
one, whatever formals of the first or the second are no parameters, come twice or have no counterpart
in the second.  Substitution goes through unions.  Region parameters can be substituted before an
effect variable is replaced or after it, and two effect variables can be replaced in either order. -/
theorem substitutions_compose :
    (∀ (p : Path) (f t g u : List Path), f.length = t.length → (∀ q ∈ t, q.elements ≠ []) →
        (p.subst f t).subst g u = p.subst (f ++ g) (t.map (·.subst g u) ++ u)) ∧
      (∀ (s : Summary) (f t g u : List Path), f.length = t.length → (∀ q ∈ t, q.elements ≠ []) →
        (s.substRegions f t).substRegions g u =
          s.substRegions (f ++ g) (t.map (·.subst g u) ++ u)) ∧
      (∀ (s s' : Summary) (f t : List Path), (s.union s').substRegions f t =
        (s.substRegions f t).union (s'.substRegions f t)) ∧
      (∀ (s s' : Summary) (E : String) (R : Summary), (s.union s').substVar E R =
        (s.substVar E R).union (s'.substVar E R)) ∧
      (∀ (s : Summary) (E : String) (R : Summary) (f t : List Path),
        (s.substVar E R).substRegions f t =
          (s.substRegions f t).substVar E (R.substRegions f t)) ∧
      ∀ (s : Summary) (E F : String) (R S : Summary), E ≠ F → .var E ∉ S →
        (s.substVar E R).substVar F S = (s.substVar F S).substVar E (R.substVar F S) :=
  ⟨fun p _ _ g u h ht => p.subst_subst g u h ht,
    fun s _ _ g u h ht => s.substRegions_substRegions g u h ht,
    fun s s' f t => substRegions_union s s' f t,
    fun s s' E R => substVar_union s s' E R,
    fun s E R f t => substRegions_substVar s E R f t,
    fun s _ _ R S hne hfresh => substVar_substVar s R S hne hfresh⟩

/-- `P:A` and a read of it, under a substitution whose formals are a path that is no parameter, `P` and
`P` again, and then under one with a formal too many; and two effect variables, of which the first
stands for the second. -/
theorem substitutions_compose_surplus_formals :
    let f : List Path := [.named "A", .param "P", .param "P"]
    let t : List Path := [.root, ⟨[.param "Q", .star]⟩, .root]
    let g : List Path := [.param "Q", .param "P", .param "Q"]
    let u : List Path := [.named "B"]
    let p : Path := ⟨[.param "P", .name "A"]⟩
    (f.length = t.length ∧ ∀ q ∈ t, q.elements ≠ []) ∧
      (p.subst f t).subst g u = ⟨[.root, .name "B", .star, .name "A"]⟩ ∧
      p.subst (f ++ g) (t.map (·.subst g u) ++ u) = ⟨[.root, .name "B", .star, .name "A"]⟩ ∧
      ((single (.read p)).substRegions f t).substRegions g u =
        (single (.read p)).substRegions (f ++ g) (t.map (·.subst g u) ++ u) ∧
      ("E" ≠ "F" ∧ Effect.var "E" ∉ single (.write p)) ∧
      (((ofVar "E").insert (.var "F")).substVar "E" (ofVar "F")).substVar "F" (single (.write p)) =
        (((ofVar "E").insert (.var "F")).substVar "F" (single (.write p))).substVar "E"
          ((ofVar "F").substVar "F" (single (.write p))) := by
  intro f t g u p
  have hlength : f.length = t.length := rfl
  have hfilled : ∀ q ∈ t, q.elements ≠ [] := by decide
  have hfresh : Effect.var "E" ∉ single (.write p) := by
    rw [single, mem_insert, not_or]
    exact ⟨nofun, not_mem_pure⟩
  obtain ⟨hpath, hregions, -, -, -, hvars⟩ := substitutions_compose
  have htwice : (p.subst f t).subst g u = ⟨[.root, .name "B", .star, .name "A"]⟩ := rfl
  exact ⟨⟨hlength, hfilled⟩, htwice, (hpath p f t g u hlength hfilled).symm.trans htwice,
    hregions _ f t g u hlength hfilled, ⟨by decide, hfresh⟩,
    hvars _ "E" "F" _ _ (by decide) hfresh⟩

end Summary

end RegionTypes

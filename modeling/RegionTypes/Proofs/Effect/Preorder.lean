import RegionTypes.Proofs.Effect.Soundness

/-!
# How far inclusion, coverage and subeffecting are preorders

Inclusion takes only the last star of a path as a wildcard and compares the stars before it
literally.  All three relations are reflexive.  Chains compose as long as no link adds a star to a
path that ends in one: `Root:A:B` lies in `Root:A:*`, and `Root:A:*` lies in `Root:A:*:*`, where the
first star is a literal one that `Root:A:B` does not have.

* `RepeatsStar` — one more star after a final star.
* `Path.includedIn_iff_of_chain` — **which chains of inclusions compose**, exactly.
* `Effect.coveredBy_iff_of_chain` — the same for coverage.
* `Summary.subeffectOf_of_chain` — chains of summaries compose if all their links do.
* `Summary.nesting_reflexive_transitive` — the three relations together.
* `Summary.inclusion_not_transitive` — a chain with a repeated star does not compose.
-/

namespace RegionTypes

/-- The second list of elements is the first one with another star after its final star. -/
def RepeatsStar (q r : List Element) : Prop := q.getLast? = some .star ∧ r = q ++ [.star]

instance (q r : List Element) : Decidable (RepeatsStar q r) :=
  inferInstanceAs (Decidable (_ ∧ _))

theorem not_repeatsStar_self (q : List Element) : ¬ RepeatsStar q q := by
  rintro ⟨-, h⟩
  have hlength := congrArg List.length h
  simp at hlength

namespace Path

/-! ### Inclusion -/

theorem includedIn_star_iff {p q : Path} {front : List Element}
    (hq : q.elements = front ++ [.star]) : p.includedIn q ↔ front <+: p.elements := by
  rw [includedIn_iff]
  constructor
  · rintro (⟨front', hfront', h⟩ | rfl)
    · have heq : front = front' := List.append_cancel_right (hq.symm.trans hfront')
      rwa [heq]
    · rw [hq]
      exact List.prefix_append front [.star]
  · intro h
    exact .inl ⟨front, hq, h⟩

/-- **Which chains of inclusions compose.**  A chain composes unless its second link repeats a star;
then it composes only if the first path has the literal star too. -/
theorem includedIn_iff_of_chain {p q r : Path} (hpq : p.includedIn q) (hqr : q.includedIn r) :
    p.includedIn r ↔ (RepeatsStar q.elements r.elements → q.elements <+: p.elements) := by
  rcases includedIn_iff.1 hqr with ⟨front, hr, hfront⟩ | rfl
  · rw [includedIn_star_iff hr]
    constructor
    · -- when the star is repeated, what stands before it is all of `q`
      rintro h ⟨-, hrepeat⟩
      have heq : front = q.elements := List.append_cancel_right (hr.symm.trans hrepeat)
      rwa [← heq]
    · intro h
      rcases includedIn_iff.1 hpq with ⟨front', hq, hp⟩ | rfl
      · rw [hq, List.prefix_concat_iff] at hfront
        rcases hfront with heq | hshort
        · have hlast : q.elements.getLast? = some .star := by
            rw [hq, List.getLast?_concat]
          have hprefix := h ⟨hlast, by rw [hr, heq, hq]⟩
          rwa [heq, ← hq]
        · exact hshort.trans hp
      · exact hfront
  · exact iff_of_true hpq fun h => absurd h (not_repeatsStar_self q.elements)

end Path

/-! ### Coverage -/

namespace Effect

theorem coveredBy_refl (e : Effect) : e.coveredBy e := by
  cases e with
  | read r => exact Path.includedIn_refl r
  | write r => exact Path.includedIn_refl r
  | var => simp [coveredBy]

/-- **Which chains of coverage compose**: those in which the regions do. -/
theorem coveredBy_iff_of_chain {e f g : Effect} (hef : e.coveredBy f) (hfg : f.coveredBy g) :
    e.coveredBy g ↔ (RepeatsStar f.elements g.elements → f.elements <+: e.elements) := by
  cases f with
  | read =>
    -- only reads are covered by a read
    cases e with
    | read =>
      cases g with
      | read | write => exact Path.includedIn_iff_of_chain hef hfg
      | var => simp [coveredBy] at hfg
    | write | var => simp [coveredBy] at hef
  | write =>
    -- a write is covered by writes only
    cases g with
    | read | var => simp [coveredBy] at hfg
    | write =>
      cases e with
      | read | write => exact Path.includedIn_iff_of_chain hef hfg
      | var => simp [coveredBy] at hef
  | var label =>
    cases e with
    | read | write => simp [coveredBy] at hef
    | var label' =>
      have heq : label' = label := by simpa [coveredBy] using hef
      rw [heq]
      exact iff_of_true hfg fun _ => List.prefix_refl _

end Effect

/-! ### Subeffecting -/

namespace Summary

theorem subeffectOf_refl (s : Summary) : s.subeffectOf s := by
  rw [subeffectOf_iff]
  intro e he
  exact ⟨e, he, Effect.coveredBy_refl e⟩

/-- Chains of summaries compose if the chains of their effects do. -/
theorem subeffectOf_of_chain {s t u : Summary} (hst : s.subeffectOf t) (htu : t.subeffectOf u)
    (h : ∀ e ∈ s, ∀ f ∈ t, ∀ g ∈ u, e.coveredBy f → f.coveredBy g →
      RepeatsStar f.elements g.elements → f.elements <+: e.elements) : s.subeffectOf u := by
  rw [subeffectOf_iff] at hst htu ⊢
  intro e he
  obtain ⟨f, hf, hef⟩ := hst e he
  obtain ⟨g, hg, hfg⟩ := htu f hf
  exact ⟨g, hg, (Effect.coveredBy_iff_of_chain hef hfg).2 (h e he f hf g hg hef hfg)⟩

/-- **Inclusion, coverage and subeffecting are reflexive, and they are transitive but for repeated
stars.**  A chain of inclusions or of coverage composes exactly if its second link does not add a
star to a path that ends in a star, or if the path at its start begins with that path, star
included.  A chain of summaries composes if this holds of every chain of their effects. -/
theorem nesting_reflexive_transitive :
    (∀ p : Path, p.includedIn p) ∧
      (∀ p q r : Path, p.includedIn q → q.includedIn r →
        (p.includedIn r ↔ (RepeatsStar q.elements r.elements → q.elements <+: p.elements))) ∧
      (∀ e : Effect, e.coveredBy e) ∧
      (∀ e f g : Effect, e.coveredBy f → f.coveredBy g →
        (e.coveredBy g ↔ (RepeatsStar f.elements g.elements → f.elements <+: e.elements))) ∧
      (∀ s : Summary, s.subeffectOf s) ∧
      ∀ s t u : Summary, s.subeffectOf t → t.subeffectOf u →
        (∀ e ∈ s, ∀ f ∈ t, ∀ g ∈ u, e.coveredBy f → f.coveredBy g →
          RepeatsStar f.elements g.elements → f.elements <+: e.elements) → s.subeffectOf u :=
  ⟨Path.includedIn_refl, fun _ _ _ hpq hqr => Path.includedIn_iff_of_chain hpq hqr,
    Effect.coveredBy_refl, fun _ _ _ hef hfg => Effect.coveredBy_iff_of_chain hef hfg,
    subeffectOf_refl, fun _ _ _ hst htu h => subeffectOf_of_chain hst htu h⟩

/-- Chains that compose: `Root:*:A:B` in `Root:*:A:*` in `Root:*:*`, where the inner star is literal
throughout, and reading `Root:A:*:B` with a repeated star in the last link, which it has too. -/
theorem nesting_reflexive_transitive_inner_star :
    Path.includedIn ⟨[.root, .star, .name "A", .name "B"]⟩ ⟨[.root, .star, .star]⟩ ∧
      (Effect.read ⟨[.root, .name "A", .star, .name "B"]⟩).coveredBy
        (.write ⟨[.root, .name "A", .star, .star]⟩) ∧
      (ofList [.read ⟨[.root, .name "A", .star, .name "B"]⟩, .var "E"]).subeffectOf
        (ofList [.write ⟨[.root, .name "A", .star, .star]⟩, .var "E"]) := by
  refine ⟨?_, ?_, ?_⟩
  · exact (nesting_reflexive_transitive.2.1 _ ⟨[.root, .star, .name "A", .star]⟩ _ (by decide)
      (by decide)).2 (by decide)
  · exact (nesting_reflexive_transitive.2.2.2.1 _ (.write ⟨[.root, .name "A", .star]⟩) _ (by decide)
      (by decide)).2 (by decide)
  · exact nesting_reflexive_transitive.2.2.2.2.2 _
      (ofList [.write ⟨[.root, .name "A", .star]⟩, .var "E"]) _ (by decide) (by decide)
      (by decide)

/-- **A repeated star breaks a chain.**  `Root:A:B` lies in `Root:A:*`, which lies in `P:*` once `P`
has become `Root:A:*` itself; but `Root:A:B` does not lie there, so reads and summaries of these
regions are not transitive either. -/
theorem inclusion_not_transitive :
    let p : Path := (Path.named "A").child (.name "B")
    let q : Path := (Path.named "A").child .star
    let r : Path := ((Path.param "P").child .star).subst [.param "P"] [q]
    (p.includedIn q ∧ q.includedIn r ∧ ¬ p.includedIn r) ∧
      ((Effect.read p).coveredBy (.read q) ∧ (Effect.read q).coveredBy (.read r) ∧
        ¬ (Effect.read p).coveredBy (.read r)) ∧
      (single (.read p)).subeffectOf (single (.read q)) ∧
      (single (.read q)).subeffectOf (single (.read r)) ∧
      ¬ (single (.read p)).subeffectOf (single (.read r)) := by
  decide

end Summary

end RegionTypes
